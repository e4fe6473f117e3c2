import MacroKeyboard.Settings.Effects

namespace MacroKeyboard.Settings

open Auth Records.PaddedText Codec

/-- Agreement of two settings on a field, with texts compared up to their
terminators. -/
def SameField (field : SettingsField) (a b : DeviceSettings) : Prop :=
  match field with
  | .credential => passwordOf a = passwordOf b
  | .deviceName => textOf a.deviceName.bytes = textOf b.deviceName.bytes
  | .requireSerialConfirmation => a.requireSerialConfirmation = b.requireSerialConfirmation
  | .snapshotRetentionTarget => a.snapshotRetentionTarget = b.snapshotRetentionTarget
  | .lastSelectedPackageId => textOf a.lastSelectedPackageId.bytes = textOf b.lastSelectedPackageId.bytes
  | .accessPointSsid => textOf a.apSsid.bytes = textOf b.apSsid.bytes
  | .accessPointPassphrase => textOf a.apPassphrase.bytes = textOf b.apPassphrase.bytes
  | .station => a.stationConfigured = b.stationConfigured ∧
      textOf a.stationSsid.bytes = textOf b.stationSsid.bytes ∧
      textOf a.stationPassphrase.bytes = textOf b.stationPassphrase.bytes

def Operation.names : Operation → SettingsField → Bool
  | .load, _ => false
  | .replace _, _ => true
  | .setStation _ _, field => field = .station
  | .setAccessPointPassphrase _, field => field = .accessPointPassphrase
  | .resetNoncredential, field =>
    field ∈ [.deviceName, .requireSerialConfirmation, .snapshotRetentionTarget, .lastSelectedPackageId, .station]
  | .factoryReset, _ => true

namespace Frame

variable {a b c : DeviceSettings} {field : SettingsField}

theorem sameField_refl (field : SettingsField) (a : DeviceSettings) : SameField field a a := by
  cases field <;> simp [SameField]

theorem sameField_trans (hab : SameField field a b) (hbc : SameField field b c) : SameField field a c := by
  cases field <;> simp_all [SameField]

theorem sameField_of_same (h : SameSettings a b) (field : SettingsField) : SameField field a b := by
  cases field with
  | credential => simp [SameField, passwordOf, h.passwordIterations, h.passwordSalt, h.passwordVerifier]
  | deviceName => exact h.deviceName
  | requireSerialConfirmation => exact h.requireSerialConfirmation
  | snapshotRetentionTarget => exact h.snapshotRetentionTarget
  | lastSelectedPackageId => exact h.lastSelectedPackageId
  | accessPointSsid => exact h.apSsid
  | accessPointPassphrase => exact h.apPassphrase
  | station => exact ⟨h.stationConfigured, h.stationSsid, h.stationPassphrase⟩

/-- What one step of an update may change: the fields it names, in a record that
stays provisioned or not. -/
structure Changes (names : SettingsField → Bool) (before after : DeviceSettings) : Prop where
  provisioned : after.provisioned = before.provisioned
  unnamed : ∀ field, names field = false → SameField field after before

theorem Changes.refl (names : SettingsField → Bool) (settings : DeviceSettings) : Changes names settings settings :=
  ⟨rfl, fun field _ => sameField_refl field settings⟩

theorem Changes.trans {names : SettingsField → Bool} (hab : Changes names a b) (hbc : Changes names b c) :
    Changes names a c :=
  ⟨hbc.provisioned.trans hab.provisioned, fun field h => sameField_trans (hbc.unnamed field h) (hab.unnamed field h)⟩

section Update

variable {request : SettingsUpdateRequest} {candidate after : DeviceSettings} {flags flags' : SettingsUpdateFlags}

theorem changes_applyDeviceName (h : applyDeviceName request candidate = .ok after) :
    Changes request.names candidate after := by
  unfold applyDeviceName at h
  split at h
  · cases h
    exact .refl _ _
  next name hname =>
    split at h
    · cases h
      refine ⟨rfl, fun field hfield => ?_⟩
      cases field <;> simp [SettingsUpdateRequest.names, hname, SameField, passwordOf] at hfield ⊢
    · cases h

theorem changes_applyRequireSerialConfirmation :
    Changes request.names candidate (applyRequireSerialConfirmation request candidate) := by
  unfold applyRequireSerialConfirmation
  split
  · exact .refl _ _
  next required hrequired =>
    refine ⟨rfl, fun field hfield => ?_⟩
    cases field <;> simp [SettingsUpdateRequest.names, hrequired, SameField, passwordOf] at hfield ⊢

theorem changes_applySnapshotRetentionTarget (h : applySnapshotRetentionTarget request candidate = .ok after) :
    Changes request.names candidate after := by
  unfold applySnapshotRetentionTarget at h
  split at h
  · cases h
    exact .refl _ _
  next target htarget =>
    split at h
    · cases h
    · cases h
      refine ⟨rfl, fun field hfield => ?_⟩
      cases field <;> simp [SettingsUpdateRequest.names, htarget, SameField, passwordOf] at hfield ⊢

theorem changes_applyLastSelectedPackageId (h : applyLastSelectedPackageId request candidate = .ok after) :
    Changes request.names candidate after := by
  unfold applyLastSelectedPackageId at h
  split at h
  · cases h
    exact .refl _ _
  next hcleared =>
    cases h
    refine ⟨rfl, fun field hfield => ?_⟩
    cases field <;> simp [SettingsUpdateRequest.names, hcleared, SameField, passwordOf] at hfield ⊢
  next uuid huuid =>
    split at h
    · cases h
      refine ⟨rfl, fun field hfield => ?_⟩
      cases field <;> simp [SettingsUpdateRequest.names, huuid, SameField, passwordOf] at hfield ⊢
    · cases h

theorem changes_applyAccessPoint (h : applyAccessPoint request candidate flags = .ok (after, flags')) :
    Changes request.names candidate after := by
  unfold applyAccessPoint at h
  split at h
  · cases h
    exact .refl _ _
  next accessPoint haccess =>
    split at h
    · cases h
    split at h
    · cases h
    split at h
    · cases h
      refine ⟨rfl, fun field hfield => ?_⟩
      cases field <;> simp [SettingsUpdateRequest.names, haccess, SameField, passwordOf] at hfield ⊢
    · cases h

theorem changes_applyStation (h : applyStation request candidate flags = .ok (after, flags')) :
    Changes request.names candidate after := by
  unfold applyStation at h
  split at h
  · cases h
    exact .refl _ _
  next hremoved =>
    cases h
    refine ⟨rfl, fun field hfield => ?_⟩
    cases field <;> simp [SettingsUpdateRequest.names, hremoved, SameField, passwordOf] at hfield ⊢
  next station hstation =>
    split at h
    · cases h
    split at h
    · cases h
    split at h
    · cases h
      refine ⟨rfl, fun field hfield => ?_⟩
      cases field <;> simp [SettingsUpdateRequest.names, hstation, SameField, passwordOf] at hfield ⊢
    · cases h

/-- What an accepted update starts from and makes. -/
structure Prepared (current : DeviceSettings) (request : SettingsUpdateRequest) (candidate : DeviceSettings) : Prop where
  provisioned : current.provisioned = true
  valid : Valid candidate
  changes : Changes request.names current candidate

/-- The steps of an accepted update, in the order of the source. -/
structure UpdateSteps (current : DeviceSettings) (request : SettingsUpdateRequest) (candidate : DeviceSettings)
    (flags : SettingsUpdateFlags) : Prop where
  provisioned : current.provisioned = true
  nonempty : request.isEmpty = false
  steps : ∃ named retained selected reachable reachableFlags,
    applyDeviceName request current = .ok named ∧
    applySnapshotRetentionTarget request (applyRequireSerialConfirmation request named) = .ok retained ∧
    applyLastSelectedPackageId request retained = .ok selected ∧
    applyAccessPoint request selected ⟨false, false⟩ = .ok (reachable, reachableFlags) ∧
    applyStation request reachable reachableFlags = .ok (candidate, flags)
  valid : candidate.validate = .ok

theorem steps_of_prepareUpdate {current : DeviceSettings}
    (h : prepareUpdate current request = .ok (candidate, flags)) : UpdateSteps current request candidate flags := by
  unfold prepareUpdate at h
  split at h
  · cases h
  next hcurrent =>
    split at h
    · cases h
    next hempty =>
      rcases hname : applyDeviceName request current with _ | named
      · simp [hname, Bind.bind, Except.bind] at h
      rcases hretained : applySnapshotRetentionTarget request (applyRequireSerialConfirmation request named) with
        _ | retained
      · simp [hname, hretained, Bind.bind, Except.bind] at h
      rcases hselected : applyLastSelectedPackageId request retained with _ | selected
      · simp [hname, hretained, hselected, Bind.bind, Except.bind] at h
      rcases hreachable : applyAccessPoint request selected ⟨false, false⟩ with _ | ⟨reachable, reachableFlags⟩
      · simp [hname, hretained, hselected, hreachable, Bind.bind, Except.bind] at h
      rcases hstation : applyStation request reachable reachableFlags with _ | ⟨result, resultFlags⟩
      · simp [hname, hretained, hselected, hreachable, hstation, Bind.bind, Except.bind] at h
      simp only [hname, hretained, hselected, hreachable, hstation, Bind.bind, Except.bind] at h
      split at h
      · cases h
      next hvalid =>
        cases h
        exact ⟨by simp at hcurrent; exact hcurrent.2, Bool.not_eq_true _ ▸ hempty,
          ⟨named, retained, selected, reachable, reachableFlags, hname, hretained, hselected, hreachable, hstation⟩,
          not_not.mp hvalid⟩

theorem prepared_of_prepareUpdate {current : DeviceSettings}
    (h : prepareUpdate current request = .ok (candidate, flags)) : Prepared current request candidate := by
  obtain ⟨hprovisioned, -, ⟨named, retained, selected, reachable, reachableFlags, hname, hretained, hselected,
    hreachable, hstation⟩, hvalid⟩ := steps_of_prepareUpdate h
  refine ⟨hprovisioned, validate_eq_ok_iff.mp hvalid, ?_⟩
  exact (changes_applyDeviceName hname).trans (changes_applyRequireSerialConfirmation.trans
    ((changes_applySnapshotRetentionTarget hretained).trans ((changes_applyLastSelectedPackageId hselected).trans
      ((changes_applyAccessPoint hreachable).trans (changes_applyStation hstation)))))

end Update

theorem prepared_of_prepareCandidate {current candidate : DeviceSettings} {material : AuthPasswordRecord}
    (h : prepareCandidate current material = some candidate) :
    Valid candidate ∧ passwordOf candidate = material ∧
      Changes (fun field => field = .credential) current candidate := by
  unfold prepareCandidate at h
  simp only at h
  split at h
  · cases h
  next hvalid =>
    cases h
    refine ⟨validate_eq_ok_iff.mp (not_not.mp hvalid), rfl, rfl, fun field hfield => ?_⟩
    cases field <;> simp [SameField] at hfield ⊢

theorem changes_resetNoncredential (settings : DeviceSettings) :
    Changes Operation.resetNoncredential.names settings (Settings.resetNoncredential settings).2 := by
  unfold Settings.resetNoncredential
  simp only
  split
  · exact .refl _ _
  · refine ⟨rfl, fun field hfield => ?_⟩
    cases field <;> simp [Operation.names, SameField, passwordOf] at hfield ⊢

/-- An operation that changes the record in place changes only the fields it
names. -/
theorem changes_target {current settings : DeviceSettings} {operation : Operation}
    (hreplace : ∀ replacement, operation ≠ .replace replacement) (hreset : operation ≠ .factoryReset)
    (h : operation.target current = some settings) : Changes operation.names current settings := by
  cases operation with
  | load => cases h
  | replace replacement => exact absurd rfl (hreplace replacement)
  | setStation ssid passphrase =>
    simp only [Operation.target, Option.bind_eq_bind, Option.bind_eq_some_iff, Option.pure_def,
      Option.some.injEq] at h
    obtain ⟨stationSsid, -, stationPassphrase, -, rfl⟩ := h
    refine ⟨rfl, fun field hfield => ?_⟩
    cases field <;> simp [Operation.names, SameField, passwordOf] at hfield ⊢
  | setAccessPointPassphrase passphrase =>
    simp only [Operation.target, Option.bind_eq_bind, Option.bind_eq_some_iff, Option.pure_def,
      Option.some.injEq] at h
    obtain ⟨apPassphrase, -, rfl⟩ := h
    refine ⟨rfl, fun field hfield => ?_⟩
    cases field <;> simp [Operation.names, SameField, passwordOf] at hfield ⊢
  | resetNoncredential =>
    cases h
    exact changes_resetNoncredential current
  | factoryReset => exact absurd rfl hreset

end Frame

end MacroKeyboard.Settings
