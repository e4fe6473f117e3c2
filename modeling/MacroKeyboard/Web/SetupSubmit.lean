import MacroKeyboard.Settings.Update
import MacroKeyboard.Web.JsonBody

namespace MacroKeyboard.Web

open Json Auth Settings

def setupCodeDigits : Nat := 8

structure SetupRequest where
  setupCode : List UInt8
  deviceName : List UInt8
  apSsid : List UInt8
  apPassphrase : List UInt8
  adminPassword : List UInt8
  requireSerialConfirmation : Bool
deriving DecidableEq, Repr

structure SetupSession where
  code : List UInt8
  consumed : Bool
deriving DecidableEq, Repr

inductive SetupResult
  | malformedCode | codeMismatch | codeConsumed | alreadyProvisioned | invalidDeviceName | invalidApSsid
  | invalidApPassphrase | invalidAdminPassword | invalidPasswordMaterial | invalidArgument | invalidCurrentSettings
deriving DecidableEq, Repr

def validSetupCode (code : List UInt8) : Bool :=
  code.length = setupCodeDigits && code.all (fun digit => 0x30 ≤ digit && digit ≤ 0x39)

def passwordMaterialValid (material : AuthPasswordRecord) : Bool :=
  0 < material.iterations && !bytesAreZero material.salt.bytes && !bytesAreZero material.hash.bytes

def setupPrepareCandidate (session : SetupSession) (request : SetupRequest) (current : DeviceSettings)
    (material : AuthPasswordRecord) : Except SetupResult DeviceSettings :=
  if current.validate ≠ .ok then .error .invalidCurrentSettings
  else if current.provisioned then .error .alreadyProvisioned
  else if session.consumed then .error .codeConsumed
  else if ¬ validSetupCode request.setupCode then .error .malformedCode
  else if session.code ≠ request.setupCode then .error .codeMismatch
  else if ¬ validView request.deviceName 1 deviceNameMaxBytes then .error .invalidDeviceName
  else if ¬ validView request.apSsid 1 wifiSsidMaxBytes then .error .invalidApSsid
  else if ¬ validView request.apPassphrase wifiPassphraseMinBytes wifiPassphraseMaxBytes then .error .invalidApPassphrase
  else if ¬ validView request.adminPassword passwordMinBytes passwordMaxBytes then .error .invalidAdminPassword
  else if ¬ passwordMaterialValid material then .error .invalidPasswordMaterial
  else
    match copyView (deviceNameMaxBytes + 1) request.deviceName, copyView (wifiSsidMaxBytes + 1) request.apSsid,
      copyView (wifiPassphraseMaxBytes + 1) request.apPassphrase with
    | some deviceName, some apSsid, some apPassphrase =>
      let candidate :=
        { current with
          provisioned := true
          credentialVersion := Settings.credentialVersion
          passwordAlgorithmVersion := Settings.passwordAlgorithmVersion
          passwordIterations := material.iterations
          passwordSalt := material.salt
          passwordVerifier := material.hash
          requireSerialConfirmation := request.requireSerialConfirmation
          deviceName
          apSsid
          apPassphrase }
      if candidate.validate ≠ .ok then .error .invalidCurrentSettings else .ok candidate
    | _, _, _ => .error .invalidArgument

theorem ok_of_check {ε α : Type} {c : Prop} [Decidable c] {e : ε} {result : Except ε α} {a : α}
    (h : (if c then .error e else result) = .ok a) : ¬ c ∧ result = .ok a := by
  split at h
  · cases h
  next hc => exact ⟨hc, h⟩

/-- What holds when a candidate is made of a setup. -/
structure SetupAccepted (session : SetupSession) (request : SetupRequest) (current candidate : DeviceSettings)
    (material : AuthPasswordRecord) : Prop where
  valid : current.validate = .ok
  fresh : current.provisioned = false
  unconsumed : session.consumed = false
  code : validSetupCode request.setupCode = true
  same : session.code = request.setupCode
  deviceName : validView request.deviceName 1 deviceNameMaxBytes = true
  apSsid : validView request.apSsid 1 wifiSsidMaxBytes = true
  apPassphrase : validView request.apPassphrase wifiPassphraseMinBytes wifiPassphraseMaxBytes = true
  adminPassword : validView request.adminPassword passwordMinBytes passwordMaxBytes = true
  password : passwordOf candidate = material

theorem accepted_of_setupPrepareCandidate {session : SetupSession} {request : SetupRequest}
    {current candidate : DeviceSettings} {material : AuthPasswordRecord}
    (h : setupPrepareCandidate session request current material = .ok candidate) :
    SetupAccepted session request current candidate material := by
  unfold setupPrepareCandidate at h
  obtain ⟨hvalid, h⟩ := ok_of_check h
  obtain ⟨hfresh, h⟩ := ok_of_check h
  obtain ⟨hunconsumed, h⟩ := ok_of_check h
  obtain ⟨hcode, h⟩ := ok_of_check h
  obtain ⟨hsame, h⟩ := ok_of_check h
  obtain ⟨hdeviceName, h⟩ := ok_of_check h
  obtain ⟨hapSsid, h⟩ := ok_of_check h
  obtain ⟨hapPassphrase, h⟩ := ok_of_check h
  obtain ⟨hadminPassword, h⟩ := ok_of_check h
  obtain ⟨-, h⟩ := ok_of_check h
  refine ⟨not_not.mp hvalid, Bool.not_eq_true _ ▸ hfresh, Bool.not_eq_true _ ▸ hunconsumed, not_not.mp hcode,
    not_not.mp hsame, not_not.mp hdeviceName, not_not.mp hapSsid, not_not.mp hapPassphrase, not_not.mp hadminPassword, ?_⟩
  split at h
  · obtain ⟨-, h⟩ := ok_of_check h
    cases h
    rfl
  · cases h

section Body

def setupCodeField : List UInt8 := MacroKeyboard.bytes "setupCode"
def setupDeviceNameField : List UInt8 := MacroKeyboard.bytes "deviceName"
def setupApSsidField : List UInt8 := MacroKeyboard.bytes "apSsid"
def setupApPassphraseField : List UInt8 := MacroKeyboard.bytes "apPassphrase"
def setupAdminPasswordField : List UInt8 := MacroKeyboard.bytes "adminPassword"
def setupConfirmationField : List UInt8 := MacroKeyboard.bytes "requireSerialConfirmation"

def exactSetupFields (members : List (List UInt8 × CJson)) : Bool :=
  exactFields [setupCodeField, setupDeviceNameField, setupApSsidField, setupApPassphraseField, setupAdminPasswordField,
    setupConfirmationField] members

/-- `populate_request` of a setup. -/
def populateSetupRequest (members : List (List UInt8 × CJson)) : Option SetupRequest := do
  let setupCode ← stringViewFromItem (getObjectItem members setupCodeField)
  let deviceName ← stringViewFromItem (getObjectItem members setupDeviceNameField)
  let apSsid ← stringViewFromItem (getObjectItem members setupApSsidField)
  let apPassphrase ← stringViewFromItem (getObjectItem members setupApPassphraseField)
  let adminPassword ← stringViewFromItem (getObjectItem members setupAdminPasswordField)
  match getObjectItem members setupConfirmationField with
  | some (.bool requireSerialConfirmation) =>
    some { setupCode, deviceName, apSsid, apPassphrase, adminPassword, requireSerialConfirmation }
  | _ => none

def setupRequestOfBody (parse : CJsonParse) (capacity : Nat) (body : List UInt8) : Option SetupRequest :=
  match parseExactBody parse capacity body with
  | some (.object members) => if exactSetupFields members then populateSetupRequest members else none
  | _ => none

end Body

inductive SetupSubmitResult
  | ok | invalidBody | settingsUnavailable | passwordDerivationFailed | commitFailed | internal
  | refused (reason : SetupResult)
deriving DecidableEq, Repr

structure SetupSubmitOutcome where
  result : SetupSubmitResult
  detail : AppError
deriving DecidableEq, Repr

structure SetupSubmitAnswers where
  settingsRead : Except AppError DeviceSettings
  salt : Option (Buffer passwordSaltBytes)
  derives : Bool
  settingsReplace : AppError

def mapPrepareResult : SetupResult → SetupSubmitOutcome
  | .invalidCurrentSettings => ⟨.internal, .storageCorrupt⟩
  | .invalidArgument | .invalidPasswordMaterial => ⟨.internal, .none⟩
  | .malformedCode => ⟨.refused .malformedCode, .none⟩
  | .codeMismatch => ⟨.refused .codeMismatch, .none⟩
  | .codeConsumed => ⟨.refused .codeConsumed, .none⟩
  | .alreadyProvisioned => ⟨.refused .alreadyProvisioned, .none⟩
  | .invalidDeviceName => ⟨.refused .invalidDeviceName, .none⟩
  | .invalidApSsid => ⟨.refused .invalidApSsid, .none⟩
  | .invalidApPassphrase => ⟨.refused .invalidApPassphrase, .none⟩
  | .invalidAdminPassword => ⟨.refused .invalidAdminPassword, .none⟩

/-- `web_setup_submit_handle` of a request that was read: the outcome, the session
and the settings that it stores. -/
def webSetupSubmit (derive : Derivation) (answers : SetupSubmitAnswers) (session : SetupSession) (request : SetupRequest) :
    SetupSubmitOutcome × SetupSession × Option DeviceSettings :=
  match answers.settingsRead with
  | .error error => (⟨.settingsUnavailable, error⟩, session, none)
  | .ok current =>
    match passwordCreate derive answers.salt answers.derives request.adminPassword with
    | .error error =>
      (if error = .invalidArgument then ⟨.refused .invalidAdminPassword, .none⟩ else ⟨.passwordDerivationFailed, error⟩,
        session, none)
    | .ok material =>
      match setupPrepareCandidate session request current material with
      | .error result => (mapPrepareResult result, session, none)
      | .ok candidate =>
        if answers.settingsReplace ≠ .none then (⟨.commitFailed, answers.settingsReplace⟩, session, none)
        else if session.consumed then (⟨.internal, .none⟩, session, some candidate)
        else (⟨.ok, .none⟩, ⟨List.replicate setupCodeDigits 0, true⟩, some candidate)

def webSetupSubmitHandle (parse : CJsonParse) (derive : Derivation) (answers : SetupSubmitAnswers)
    (session : SetupSession) (body : List UInt8) : SetupSubmitOutcome × SetupSession × Option DeviceSettings :=
  match setupRequestOfBody parse (jsonBodyMaxBytes + 1) body with
  | none => (⟨.invalidBody, .none⟩, session, none)
  | some request => webSetupSubmit derive answers session request

end MacroKeyboard.Web
