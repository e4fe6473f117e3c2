import MacroKeyboard.Settings.Frame
import MacroKeyboard.Web.SetupSubmit

namespace MacroKeyboard.Web

open Auth Settings Settings.Frame Records.PaddedText

structure UpdateCall where
  current : DeviceSettings
  candidate : DeviceSettings
  flags : SettingsUpdateFlags
deriving DecidableEq, Repr

def UpdateCall.cleared (call : UpdateCall) : UpdateCall :=
  { call with candidate := .zero, flags := ⟨false, false⟩ }

def settingsPrepareUpdate (request : SettingsUpdateRequest) (call : UpdateCall) :
    Option SettingsUpdateResult × UpdateCall :=
  match prepareUpdate call.current request with
  | .error result => (some result, call.cleared)
  | .ok (candidate, flags) => (none, { call.cleared with candidate, flags })

structure SetupPasswordMaterial where
  credentialVersion : UInt16
  passwordAlgorithmVersion : UInt16
  record : AuthPasswordRecord
deriving DecidableEq, Repr

def SetupPasswordMaterial.valid (material : SetupPasswordMaterial) : Bool :=
  material.credentialVersion = Settings.credentialVersion &&
    material.passwordAlgorithmVersion = Settings.passwordAlgorithmVersion && passwordMaterialValid material.record

/-- The candidate of `app_v2_setup_prepare_candidate` before it is copied out. -/
def setupCandidate (session : SetupSession) (request : SetupRequest) (current : DeviceSettings)
    (material : SetupPasswordMaterial) : Except SetupResult DeviceSettings :=
  if current.validate ≠ .ok then .error .invalidCurrentSettings
  else if current.provisioned then .error .alreadyProvisioned
  else if session.consumed then .error .codeConsumed
  else if ¬ validSetupCode request.setupCode then .error .malformedCode
  else if session.code ≠ request.setupCode then .error .codeMismatch
  else if ¬ validView request.deviceName 1 deviceNameMaxBytes then .error .invalidDeviceName
  else if ¬ validView request.apSsid 1 wifiSsidMaxBytes then .error .invalidApSsid
  else if ¬ validView request.apPassphrase wifiPassphraseMinBytes wifiPassphraseMaxBytes then .error .invalidApPassphrase
  else if ¬ validView request.adminPassword passwordMinBytes passwordMaxBytes then .error .invalidAdminPassword
  else if ¬ material.valid then .error .invalidPasswordMaterial
  else
    match copyView (deviceNameMaxBytes + 1) request.deviceName, copyView (wifiSsidMaxBytes + 1) request.apSsid,
      copyView (wifiPassphraseMaxBytes + 1) request.apPassphrase with
    | some deviceName, some apSsid, some apPassphrase =>
      let candidate :=
        { current with
          provisioned := true
          credentialVersion := material.credentialVersion
          passwordAlgorithmVersion := material.passwordAlgorithmVersion
          passwordIterations := material.record.iterations
          passwordSalt := material.record.salt
          passwordVerifier := material.record.hash
          requireSerialConfirmation := request.requireSerialConfirmation
          deviceName
          apSsid
          apPassphrase }
      if candidate.validate ≠ .ok then .error .invalidCurrentSettings else .ok candidate
    | _, _, _ => .error .invalidArgument

structure SetupCall where
  current : DeviceSettings
  candidate : DeviceSettings
deriving DecidableEq, Repr

/-- `app_v2_setup_prepare_candidate` with the candidate that it leaves. -/
def setupPrepare (session : SetupSession) (request : SetupRequest) (material : SetupPasswordMaterial)
    (call : SetupCall) : Option SetupResult × SetupCall :=
  match setupCandidate session request call.current material with
  | .error result => (some result, { call with candidate := .zero })
  | .ok candidate => (none, { call with candidate })

namespace CandidateFrames

/-- A buffer that holds a text, its terminator and nothing but zeros behind it. -/
structure Carries {n : Nat} (buffer : Buffer n) (text : List UInt8) : Prop where
  terminated : 0 ∉ text
  fits : text.length < n
  bytes : buffer.bytes = pad n text

variable {n : Nat} {buffer : Buffer n} {text : List UInt8}

theorem carries_zero (hn : 0 < n) : Carries (.zero n) [] :=
  ⟨List.not_mem_nil, hn, by simp [Buffer.zero, pad]⟩

theorem carries_of_copyView (hzero : 0 ∉ text) (h : copyView n text = some buffer) : Carries buffer text := by
  unfold copyView at h
  split at h
  · cases h
  next hlength =>
    cases h
    refine ⟨hzero, by omega, ?_⟩
    rw [Buffer.bytes_copy, pad, List.take_append, List.take_of_length_le (by omega), List.take_replicate,
      min_eq_left (by omega)]

theorem zero_notMem_of_validView {minimum maximum : Nat} (h : validView text minimum maximum = true) : 0 ∉ text := by
  simp only [validView, Bool.and_eq_true, Bool.not_eq_true', List.contains_eq_mem, decide_eq_false_iff_not] at h
  exact h.1.2

theorem zero_notMem_of_validUuidV4 (h : validUuidV4 text = true) : 0 ∉ text := by
  simp only [validUuidV4, Bool.and_eq_true, beq_iff_eq, uuidCharacters, List.all_eq_true, List.mem_range] at h
  obtain ⟨hlength, ⟨hcharacters, -⟩, -⟩ := h
  intro hmem
  obtain ⟨index, hindex, hvalue⟩ := List.getElem_of_mem hmem
  have hcharacter := hcharacters index (by omega)
  rw [List.getD_eq_getElem _ _ hindex, hvalue] at hcharacter
  split at hcharacter <;> simp at hcharacter

def TextField (requested : Option (List UInt8)) (before after : Buffer n) : Prop :=
  match requested with
  | none => after = before
  | some text => Carries after text

/-- The last selected package after a request, which may clear it. -/
def PackageField (requested : Option (Option (List UInt8))) (before after : Buffer n) : Prop :=
  match requested with
  | none => after = before
  | some package => Carries after (package.getD [])

/-- The credentials of an access point, which a request names together. -/
def AccessPointField (requested : Option NetworkCredentials) (before after : DeviceSettings) : Prop :=
  match requested with
  | none => after.apSsid = before.apSsid ∧ after.apPassphrase = before.apPassphrase
  | some accessPoint => Carries after.apSsid accessPoint.ssid ∧ Carries after.apPassphrase accessPoint.passphrase

/-- The station after a request, which may remove it. -/
def StationField (requested : Option (Option NetworkCredentials)) (before after : DeviceSettings) : Prop :=
  match requested with
  | none => after.stationConfigured = before.stationConfigured ∧ after.stationSsid = before.stationSsid ∧
      after.stationPassphrase = before.stationPassphrase
  | some none => after.stationConfigured = false ∧ Carries after.stationSsid [] ∧ Carries after.stationPassphrase []
  | some (some station) => after.stationConfigured = true ∧ Carries after.stationSsid station.ssid ∧
      Carries after.stationPassphrase station.passphrase

/-- Every field of the record after an update. -/
structure UpdateFrame (request : SettingsUpdateRequest) (before after : DeviceSettings) : Prop where
  provisioned : after.provisioned = before.provisioned
  credentialVersion : after.credentialVersion = before.credentialVersion
  passwordAlgorithmVersion : after.passwordAlgorithmVersion = before.passwordAlgorithmVersion
  password : passwordOf after = passwordOf before
  nextBlobId : after.nextBlobId = before.nextBlobId
  deviceName : TextField request.deviceName before.deviceName after.deviceName
  requireSerialConfirmation : after.requireSerialConfirmation =
    request.requireSerialConfirmation.getD before.requireSerialConfirmation
  snapshotRetentionTarget : after.snapshotRetentionTarget =
    request.snapshotRetentionTarget.getD before.snapshotRetentionTarget
  lastSelectedPackageId : PackageField request.lastSelectedPackageId before.lastSelectedPackageId
    after.lastSelectedPackageId
  accessPoint : AccessPointField request.accessPoint before after
  station : StationField request.station before after

section Update

variable {request : SettingsUpdateRequest} {candidate after : DeviceSettings} {flags flags' : SettingsUpdateFlags}

theorem field_of_applyDeviceName (h : applyDeviceName request candidate = .ok after) :
    ∃ deviceName, TextField request.deviceName candidate.deviceName deviceName ∧
      after = { candidate with deviceName } := by
  unfold applyDeviceName at h
  split at h
  next hname =>
    cases h
    exact ⟨candidate.deviceName, by simp [TextField, hname], rfl⟩
  next name hname =>
    split at h
    next deviceName hvalid hcopy =>
      cases h
      exact ⟨deviceName, by simpa [TextField, hname] using carries_of_copyView (zero_notMem_of_validView hvalid) hcopy, rfl⟩
    · cases h

theorem applyRequireSerialConfirmation_eq : applyRequireSerialConfirmation request candidate =
    { candidate with
      requireSerialConfirmation := request.requireSerialConfirmation.getD candidate.requireSerialConfirmation } := by
  unfold applyRequireSerialConfirmation
  cases request.requireSerialConfirmation with
  | none => rfl
  | some required => rfl

theorem field_of_applySnapshotRetentionTarget (h : applySnapshotRetentionTarget request candidate = .ok after) :
    after = { candidate with
      snapshotRetentionTarget := request.snapshotRetentionTarget.getD candidate.snapshotRetentionTarget } := by
  unfold applySnapshotRetentionTarget at h
  split at h
  next htarget =>
    cases h
    rw [htarget, Option.getD_none]
  next target htarget =>
    split at h
    · cases h
    · cases h
      rw [htarget, Option.getD_some]

theorem field_of_applyLastSelectedPackageId (h : applyLastSelectedPackageId request candidate = .ok after) :
    ∃ lastSelectedPackageId,
      PackageField request.lastSelectedPackageId candidate.lastSelectedPackageId lastSelectedPackageId ∧
      after = { candidate with lastSelectedPackageId } := by
  unfold applyLastSelectedPackageId at h
  split at h
  next hpackage =>
    cases h
    exact ⟨candidate.lastSelectedPackageId, by simp [PackageField, hpackage], rfl⟩
  next hcleared =>
    cases h
    exact ⟨.zero _, by simpa [PackageField, hcleared] using carries_zero (by decide), rfl⟩
  next uuid huuid =>
    split at h
    next lastSelectedPackageId hvalid hcopy =>
      cases h
      exact ⟨lastSelectedPackageId,
        by simpa [PackageField, huuid] using carries_of_copyView (zero_notMem_of_validUuidV4 hvalid) hcopy, rfl⟩
    · cases h

theorem field_of_applyAccessPoint (h : applyAccessPoint request candidate flags = .ok (after, flags')) :
    (∃ apSsid apPassphrase, after = { candidate with apSsid, apPassphrase }) ∧
      AccessPointField request.accessPoint candidate after ∧
      flags' = if request.accessPoint.isSome then ⟨true, true⟩ else flags := by
  unfold applyAccessPoint at h
  split at h
  next haccess =>
    cases h
    exact ⟨⟨candidate.apSsid, candidate.apPassphrase, rfl⟩, by simp [AccessPointField, haccess]⟩
  next accessPoint haccess =>
    obtain ⟨hssid, h⟩ := ok_of_check h
    obtain ⟨hpassphrase, h⟩ := ok_of_check h
    split at h
    next apSsid apPassphrase hcopySsid hcopyPassphrase =>
      cases h
      refine ⟨⟨apSsid, apPassphrase, rfl⟩, ?_⟩
      have hcarriesSsid := carries_of_copyView (zero_notMem_of_validView (not_not.mp hssid)) hcopySsid
      have hcarries := carries_of_copyView (zero_notMem_of_validView (not_not.mp hpassphrase)) hcopyPassphrase
      simp [AccessPointField, haccess, hcarriesSsid, hcarries]
    · cases h

theorem field_of_applyStation (h : applyStation request candidate flags = .ok (after, flags')) :
    (∃ stationConfigured stationSsid stationPassphrase,
      after = { candidate with stationConfigured, stationSsid, stationPassphrase }) ∧
      StationField request.station candidate after ∧
      flags' = if request.station.isSome then { flags with restartRequired := true } else flags := by
  unfold applyStation at h
  split at h
  next hstation =>
    cases h
    exact ⟨⟨candidate.stationConfigured, candidate.stationSsid, candidate.stationPassphrase, rfl⟩,
      by simp [StationField, hstation]⟩
  next hremoved =>
    cases h
    refine ⟨⟨false, .zero _, .zero _, rfl⟩, ?_⟩
    simp [StationField, hremoved, carries_zero]
  next station hstation =>
    obtain ⟨hssid, h⟩ := ok_of_check h
    obtain ⟨hpassphrase, h⟩ := ok_of_check h
    split at h
    next stationSsid stationPassphrase hcopySsid hcopyPassphrase =>
      cases h
      refine ⟨⟨true, stationSsid, stationPassphrase, rfl⟩, ?_⟩
      have hcarriesSsid := carries_of_copyView (zero_notMem_of_validView (not_not.mp hssid)) hcopySsid
      have hcarries := carries_of_copyView (zero_notMem_of_validView (not_not.mp hpassphrase)) hcopyPassphrase
      simp [StationField, hstation, hcarriesSsid, hcarries]
    · cases h

def requestFlags (request : SettingsUpdateRequest) : SettingsUpdateFlags :=
  ⟨request.accessPoint.isSome || request.station.isSome, request.accessPoint.isSome⟩

theorem frame_of_steps {current : DeviceSettings} (h : UpdateSteps current request candidate flags) :
    UpdateFrame request current candidate ∧ flags = requestFlags request := by
  obtain ⟨-, -, ⟨named, retained, selected, reachable, reachableFlags, hname, hretained, hselected, hreachable,
    hstation⟩, -⟩ := h
  obtain ⟨deviceName, hdeviceName, rfl⟩ := field_of_applyDeviceName hname
  rw [applyRequireSerialConfirmation_eq] at hretained
  obtain rfl := field_of_applySnapshotRetentionTarget hretained
  obtain ⟨lastSelectedPackageId, hpackage, rfl⟩ := field_of_applyLastSelectedPackageId hselected
  obtain ⟨⟨apSsid, apPassphrase, rfl⟩, haccess, rfl⟩ := field_of_applyAccessPoint hreachable
  obtain ⟨⟨stationConfigured, stationSsid, stationPassphrase, rfl⟩, hfield, rfl⟩ := field_of_applyStation hstation
  refine ⟨⟨rfl, rfl, rfl, rfl, rfl, hdeviceName, rfl, rfl, hpackage, haccess, hfield⟩, ?_⟩
  cases haccess' : request.accessPoint <;> cases hstation' : request.station <;> simp [requestFlags, haccess', hstation']

end Update

/-- Every field of the record after a setup. -/
structure SetupFrame (request : SetupRequest) (material : SetupPasswordMaterial) (before after : DeviceSettings) :
    Prop where
  provisioned : after.provisioned = true
  deviceName : Carries after.deviceName request.deviceName
  apSsid : Carries after.apSsid request.apSsid
  apPassphrase : Carries after.apPassphrase request.apPassphrase
  requireSerialConfirmation : after.requireSerialConfirmation = request.requireSerialConfirmation
  credentialVersion : after.credentialVersion = material.credentialVersion
  passwordAlgorithmVersion : after.passwordAlgorithmVersion = material.passwordAlgorithmVersion
  password : passwordOf after = material.record
  nextBlobId : after.nextBlobId = before.nextBlobId
  snapshotRetentionTarget : after.snapshotRetentionTarget = before.snapshotRetentionTarget
  lastSelectedPackageId : after.lastSelectedPackageId = before.lastSelectedPackageId
  stationConfigured : after.stationConfigured = before.stationConfigured
  stationSsid : after.stationSsid = before.stationSsid
  stationPassphrase : after.stationPassphrase = before.stationPassphrase

theorem frame_of_setupCandidate {session : SetupSession} {request : SetupRequest} {material : SetupPasswordMaterial}
    {current candidate : DeviceSettings} (h : setupCandidate session request current material = .ok candidate) :
    candidate.validate = .ok ∧ SetupFrame request material current candidate := by
  unfold setupCandidate at h
  obtain ⟨-, h⟩ := ok_of_check h
  obtain ⟨-, h⟩ := ok_of_check h
  obtain ⟨-, h⟩ := ok_of_check h
  obtain ⟨-, h⟩ := ok_of_check h
  obtain ⟨-, h⟩ := ok_of_check h
  obtain ⟨hname, h⟩ := ok_of_check h
  obtain ⟨hssid, h⟩ := ok_of_check h
  obtain ⟨hpassphrase, h⟩ := ok_of_check h
  obtain ⟨-, h⟩ := ok_of_check h
  obtain ⟨-, h⟩ := ok_of_check h
  split at h
  next deviceName apSsid apPassphrase hcopyName hcopySsid hcopyPassphrase =>
    obtain ⟨hvalid, h⟩ := ok_of_check h
    have hdeviceName := carries_of_copyView (zero_notMem_of_validView (not_not.mp hname)) hcopyName
    have hapSsid := carries_of_copyView (zero_notMem_of_validView (not_not.mp hssid)) hcopySsid
    have hapPassphrase := carries_of_copyView (zero_notMem_of_validView (not_not.mp hpassphrase)) hcopyPassphrase
    cases h
    exact ⟨not_not.mp hvalid,
      ⟨rfl, hdeviceName, hapSsid, hapPassphrase, rfl, rfl, rfl, rfl, rfl, rfl, rfl, rfl, rfl, rfl⟩⟩
  · cases h

structure UpdateOutcome (request : SettingsUpdateRequest) (call : UpdateCall)
    (outcome : Option SettingsUpdateResult × UpdateCall) : Prop where
  current : outcome.2.current = call.current
  accepted : outcome.1 = none → outcome.2.candidate.validate = .ok ∧
    UpdateFrame request call.current outcome.2.candidate
  restartRequired : outcome.1 = none →
    (outcome.2.flags.restartRequired = true ↔ request.accessPoint.isSome = true ∨ request.station.isSome = true)
  reconnectRequired : outcome.1 = none →
    (outcome.2.flags.reconnectRequired = true ↔ request.accessPoint.isSome = true)
  rejected : outcome.1 ≠ none → outcome.2.candidate = .zero ∧ outcome.2.flags = ⟨false, false⟩

theorem updateOutcome (request : SettingsUpdateRequest) (call : UpdateCall) :
    UpdateOutcome request call (settingsPrepareUpdate request call) := by
  unfold settingsPrepareUpdate
  cases hupdate : prepareUpdate call.current request with
  | error result => exact ⟨rfl, fun h => (by cases h), fun h => (by cases h), fun h => (by cases h), fun _ => ⟨rfl, rfl⟩⟩
  | ok prepared =>
    obtain ⟨candidate, flags⟩ := prepared
    have hsteps := steps_of_prepareUpdate hupdate
    obtain ⟨hframe, rfl⟩ := frame_of_steps hsteps
    refine ⟨rfl, fun _ => ⟨hsteps.valid, hframe⟩, fun _ => ?_, fun _ => Iff.rfl, fun h => absurd rfl h⟩
    exact Bool.or_eq_true_iff

structure SetupOutcome (request : SetupRequest) (material : SetupPasswordMaterial) (call : SetupCall)
    (outcome : Option SetupResult × SetupCall) : Prop where
  current : outcome.2.current = call.current
  accepted : outcome.1 = none → outcome.2.candidate.validate = .ok ∧
    SetupFrame request material call.current outcome.2.candidate
  rejected : outcome.1 ≠ none → outcome.2.candidate = .zero

theorem setupOutcome (session : SetupSession) (request : SetupRequest) (material : SetupPasswordMaterial)
    (call : SetupCall) : SetupOutcome request material call (setupPrepare session request material call) := by
  unfold setupPrepare
  cases hcandidate : setupCandidate session request call.current material with
  | error result => exact ⟨rfl, fun h => (by cases h), fun _ => rfl⟩
  | ok candidate => exact ⟨rfl, fun _ => frame_of_setupCandidate hcandidate, fun h => absurd rfl h⟩

end CandidateFrames

open CandidateFrames

/-- Accepted updates and setups change the fields that their requests name, and
no others; refused ones leave nothing. -/
theorem candidates_framed :
    (∀ request call, UpdateOutcome request call (settingsPrepareUpdate request call)) ∧
    (∀ session request material call,
      SetupOutcome request material call (setupPrepare session request material call)) :=
  ⟨updateOutcome, setupOutcome⟩

section Examples

def materialOfOnes : SetupPasswordMaterial :=
  ⟨Settings.credentialVersion, Settings.passwordAlgorithmVersion, ⟨1, ⟨List.replicate 16 1, rfl⟩, ⟨List.replicate 32 1, rfl⟩⟩⟩

def setupOfDesk : SetupRequest :=
  { setupCode := MacroKeyboard.bytes "01234567", deviceName := MacroKeyboard.bytes "Desk",
    apSsid := MacroKeyboard.bytes "desk", apPassphrase := MacroKeyboard.bytes "long enough",
    adminPassword := MacroKeyboard.bytes "long enough too", requireSerialConfirmation := true }

def setUpDesk : DeviceSettings :=
  (setupPrepare ⟨MacroKeyboard.bytes "01234567", false⟩ setupOfDesk materialOfOnes ⟨.initUnprovisioned, .zero⟩).2.candidate

example : setUpDesk.provisioned = true := by decide

example : (settingsPrepareUpdate ⟨none, none, none, none, none, some none⟩ ⟨setUpDesk, .zero, ⟨false, false⟩⟩).1 = none :=
  by decide

end Examples

end MacroKeyboard.Web
