import MacroKeyboard.Settings.DeviceSettings
import MacroKeyboard.Auth.Core

namespace MacroKeyboard.Settings

open Auth

structure NetworkCredentials where
  ssid : List UInt8
  passphrase : List UInt8
deriving DecidableEq, Repr

/-- The fields that a settings update names. A station that is `some none` is
removed. -/
structure SettingsUpdateRequest where
  deviceName : Option (List UInt8)
  requireSerialConfirmation : Option Bool
  snapshotRetentionTarget : Option UInt8
  lastSelectedPackageId : Option (Option (List UInt8))
  accessPoint : Option NetworkCredentials
  station : Option (Option NetworkCredentials)
deriving DecidableEq, Repr

inductive SettingsUpdateResult
  | invalidCurrentSettings | empty | invalidDeviceName | invalidSnapshotRetentionTarget
  | invalidLastSelectedPackageId | invalidAccessPointSsid | invalidAccessPointPassphrase
  | invalidStationSsid | invalidStationPassphrase
deriving DecidableEq, Repr

/-- `valid_text` of a view. -/
def validView (value : List UInt8) (minimum maximum : Nat) : Bool :=
  minimum ≤ value.length && value.length ≤ maximum && !value.contains 0 && validUtf8 value

def validUuidV4 (value : List UInt8) : Bool := value.length == uuidTextBytes && uuidCharacters value

def copyView (capacity : Nat) (source : List UInt8) : Option (Buffer capacity) :=
  if source.length ≥ capacity then none else some (.copy capacity source)

structure SettingsUpdateFlags where
  restartRequired : Bool
  reconnectRequired : Bool
deriving DecidableEq, Repr

def SettingsUpdateRequest.isEmpty (request : SettingsUpdateRequest) : Bool :=
  request.deviceName.isNone && request.requireSerialConfirmation.isNone && request.snapshotRetentionTarget.isNone &&
    request.lastSelectedPackageId.isNone && request.accessPoint.isNone && request.station.isNone

def applyDeviceName (request : SettingsUpdateRequest) (candidate : DeviceSettings) :
    Except SettingsUpdateResult DeviceSettings :=
  match request.deviceName with
  | none => .ok candidate
  | some name =>
    match validView name 1 deviceNameMaxBytes, copyView (deviceNameMaxBytes + 1) name with
    | true, some deviceName => .ok { candidate with deviceName }
    | _, _ => .error .invalidDeviceName

def applyRequireSerialConfirmation (request : SettingsUpdateRequest) (candidate : DeviceSettings) : DeviceSettings :=
  match request.requireSerialConfirmation with
  | none => candidate
  | some requireSerialConfirmation => { candidate with requireSerialConfirmation }

def applySnapshotRetentionTarget (request : SettingsUpdateRequest) (candidate : DeviceSettings) :
    Except SettingsUpdateResult DeviceSettings :=
  match request.snapshotRetentionTarget with
  | none => .ok candidate
  | some snapshotRetentionTarget =>
    if snapshotRetentionTarget > Limits.snapshotRetentionTargetMax then .error .invalidSnapshotRetentionTarget
    else .ok { candidate with snapshotRetentionTarget }

def applyLastSelectedPackageId (request : SettingsUpdateRequest) (candidate : DeviceSettings) :
    Except SettingsUpdateResult DeviceSettings :=
  match request.lastSelectedPackageId with
  | none => .ok candidate
  | some none => .ok { candidate with lastSelectedPackageId := .zero _ }
  | some (some uuid) =>
    match validUuidV4 uuid, copyView uuidBufferBytes uuid with
    | true, some lastSelectedPackageId => .ok { candidate with lastSelectedPackageId }
    | _, _ => .error .invalidLastSelectedPackageId

def applyAccessPoint (request : SettingsUpdateRequest) (candidate : DeviceSettings) (flags : SettingsUpdateFlags) :
    Except SettingsUpdateResult (DeviceSettings × SettingsUpdateFlags) :=
  match request.accessPoint with
  | none => .ok (candidate, flags)
  | some accessPoint =>
    if ¬ validView accessPoint.ssid 1 wifiSsidMaxBytes then .error .invalidAccessPointSsid
    else if ¬ validView accessPoint.passphrase wifiPassphraseMinBytes wifiPassphraseMaxBytes then
      .error .invalidAccessPointPassphrase
    else
      match copyView (wifiSsidMaxBytes + 1) accessPoint.ssid,
        copyView (wifiPassphraseMaxBytes + 1) accessPoint.passphrase with
      | some apSsid, some apPassphrase => .ok ({ candidate with apSsid, apPassphrase }, ⟨true, true⟩)
      | _, _ => .error .invalidAccessPointPassphrase

def applyStation (request : SettingsUpdateRequest) (candidate : DeviceSettings) (flags : SettingsUpdateFlags) :
    Except SettingsUpdateResult (DeviceSettings × SettingsUpdateFlags) :=
  match request.station with
  | none => .ok (candidate, flags)
  | some none =>
    .ok ({ candidate with stationConfigured := false, stationSsid := .zero _, stationPassphrase := .zero _ },
      { flags with restartRequired := true })
  | some (some station) =>
    if ¬ validView station.ssid 1 wifiSsidMaxBytes then .error .invalidStationSsid
    else if ¬ validView station.passphrase wifiPassphraseMinBytes wifiPassphraseMaxBytes then
      .error .invalidStationPassphrase
    else
      match copyView (wifiSsidMaxBytes + 1) station.ssid, copyView (wifiPassphraseMaxBytes + 1) station.passphrase with
      | some stationSsid, some stationPassphrase =>
        .ok ({ candidate with stationSsid, stationPassphrase, stationConfigured := true },
          { flags with restartRequired := true })
      | _, _ => .error .invalidStationPassphrase

def prepareUpdate (current : DeviceSettings) (request : SettingsUpdateRequest) :
    Except SettingsUpdateResult (DeviceSettings × SettingsUpdateFlags) := do
  if current.validate ≠ .ok ∨ ¬ current.provisioned then .error .invalidCurrentSettings
  else if request.isEmpty then .error .empty
  else
    let named ← applyDeviceName request current
    let retained ← applySnapshotRetentionTarget request (applyRequireSerialConfirmation request named)
    let selected ← applyLastSelectedPackageId request retained
    let (reachable, flags) ← applyAccessPoint request selected ⟨false, false⟩
    let (candidate, flags) ← applyStation request reachable flags
    if candidate.validate ≠ .ok then .error .invalidCurrentSettings
    else .ok (candidate, flags)

inductive PasswordChangeResult
  | ok | invalidCurrentSettings | invalidNewPassword
deriving DecidableEq, Repr

def passwordChangeValidate (current : DeviceSettings) (newPassword : List UInt8) : PasswordChangeResult :=
  if current.validate ≠ .ok ∨ ¬ current.provisioned then .invalidCurrentSettings
  else if ¬ validView newPassword passwordMinBytes passwordMaxBytes then .invalidNewPassword
  else .ok

def passwordOf (settings : DeviceSettings) : AuthPasswordRecord :=
  ⟨settings.passwordIterations, settings.passwordSalt, settings.passwordVerifier⟩

/-- `app_v2_password_change_prepare_candidate` with the material that
`production_password_create` makes of a record. -/
def prepareCandidate (current : DeviceSettings) (material : AuthPasswordRecord) : Option DeviceSettings :=
  let candidate :=
    { current with
      credentialVersion := Settings.credentialVersion
      passwordAlgorithmVersion := Settings.passwordAlgorithmVersion
      passwordIterations := material.iterations
      passwordSalt := material.salt
      passwordVerifier := material.hash }
  if candidate.validate ≠ .ok then none else some candidate

/-- The parts of the settings that one request may name. -/
inductive SettingsField
  | credential | deviceName | requireSerialConfirmation | snapshotRetentionTarget | lastSelectedPackageId
  | accessPointSsid | accessPointPassphrase | station
deriving DecidableEq, Repr

def SettingsUpdateRequest.names (request : SettingsUpdateRequest) : SettingsField → Bool
  | .credential => false
  | .deviceName => request.deviceName.isSome
  | .requireSerialConfirmation => request.requireSerialConfirmation.isSome
  | .snapshotRetentionTarget => request.snapshotRetentionTarget.isSome
  | .lastSelectedPackageId => request.lastSelectedPackageId.isSome
  | .accessPointSsid | .accessPointPassphrase => request.accessPoint.isSome
  | .station => request.station.isSome

end MacroKeyboard.Settings
