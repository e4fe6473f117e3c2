import MacroKeyboard.Settings.Update
import MacroKeyboard.Web.JsonBody

namespace MacroKeyboard.Web

open Json Auth Settings

def settingsRetentionRawMax : ℚ := 255

def deviceNameField : List UInt8 := MacroKeyboard.bytes "deviceName"
def requireSerialConfirmationField : List UInt8 := MacroKeyboard.bytes "requireSerialConfirmation"
def snapshotRetentionTargetField : List UInt8 := MacroKeyboard.bytes "snapshotRetentionTarget"
def lastSelectedPackageIdField : List UInt8 := MacroKeyboard.bytes "lastSelectedPackageId"
def accessPointField : List UInt8 := MacroKeyboard.bytes "accessPoint"
def stationField : List UInt8 := MacroKeyboard.bytes "station"
def ssidField : List UInt8 := MacroKeyboard.bytes "ssid"
def passphraseField : List UInt8 := MacroKeyboard.bytes "passphrase"

def settingsPutFields : List (List UInt8) :=
  [deviceNameField, requireSerialConfirmationField, snapshotRetentionTargetField, lastSelectedPackageIdField,
    accessPointField, stationField]

def exactSettingsPutFields (members : List (List UInt8 × CJson)) : Bool := fieldsOnce settingsPutFields [] members

def exactCredentialFields : CJson → Option NetworkCredentials
  | .object members =>
    if exactFields [ssidField, passphraseField] members then do
      let ssid ← stringViewFromItem (getObjectItem members ssidField)
      let passphrase ← stringViewFromItem (getObjectItem members passphraseField)
      some { ssid, passphrase }
    else none
  | _ => none

/-- A field that may be absent, read by this function when it is there. -/
def populateOptional {α : Type} (members : List (List UInt8 × CJson)) (field : List UInt8) (read : CJson → Option α) :
    Option (Option α) :=
  match getObjectItem members field with
  | none => some none
  | some item => (read item).map some

def readDeviceName (item : CJson) : Option (List UInt8) := stringViewFromItem (some item)

def readRequireConfirmation : CJson → Option Bool
  | .bool b => some b
  | _ => none

/-- The number is compared with what is left of it in eight bits. -/
def readSnapshotRetentionTarget : CJson → Option UInt8
  | .number q =>
    if q < 0 ∨ q > settingsRetentionRawMax then none
    else
      let candidate := UInt8.ofNat ⌊q⌋.toNat
      if (candidate.toNat : ℚ) ≠ q then none else some candidate
  | _ => none

def readLastSelectedPackageId : CJson → Option (Option (List UInt8))
  | .null => some none
  | .string text => some (some (cString text))
  | _ => none

def readStation : CJson → Option (Option NetworkCredentials)
  | .null => some none
  | item => (exactCredentialFields item).map some

def populateSettingsUpdateRequest (members : List (List UInt8 × CJson)) : Option SettingsUpdateRequest := do
  let deviceName ← populateOptional members deviceNameField readDeviceName
  let requireSerialConfirmation ← populateOptional members requireSerialConfirmationField readRequireConfirmation
  let snapshotRetentionTarget ← populateOptional members snapshotRetentionTargetField readSnapshotRetentionTarget
  let lastSelectedPackageId ← populateOptional members lastSelectedPackageIdField readLastSelectedPackageId
  let accessPoint ← populateOptional members accessPointField exactCredentialFields
  let station ← populateOptional members stationField readStation
  some
    { deviceName, requireSerialConfirmation, snapshotRetentionTarget, lastSelectedPackageId, accessPoint, station }

def settingsUpdateRequestOfBody (parse : CJsonParse) (capacity : Nat) (body : List UInt8) :
    Option SettingsUpdateRequest :=
  match parseExactBody parse capacity body with
  | some (.object members) => if exactSettingsPutFields members then populateSettingsUpdateRequest members else none
  | _ => none

section Checks

variable {current : DeviceSettings} {request : SettingsUpdateRequest}

structure UpdateValuesValid (request : SettingsUpdateRequest) : Prop where
  named : request.isEmpty = false
  deviceName : ∀ name ∈ request.deviceName, validView name 1 deviceNameMaxBytes = true
  snapshotRetentionTarget : ∀ target ∈ request.snapshotRetentionTarget, target ≤ Limits.snapshotRetentionTargetMax
  lastSelectedPackageId : ∀ uuid, request.lastSelectedPackageId = some (some uuid) → validUuidV4 uuid = true
  accessPoint : ∀ network ∈ request.accessPoint, validView network.ssid 1 wifiSsidMaxBytes = true ∧
    validView network.passphrase wifiPassphraseMinBytes wifiPassphraseMaxBytes = true
  station : ∀ network, request.station = some (some network) → validView network.ssid 1 wifiSsidMaxBytes = true ∧
    validView network.passphrase wifiPassphraseMinBytes wifiPassphraseMaxBytes = true

theorem copyView_of_validView {value : List UInt8} {minimum maximum : Nat} (h : validView value minimum maximum = true) :
    copyView (maximum + 1) value = some (.copy (maximum + 1) value) := by
  simp only [validView, Bool.and_eq_true, decide_eq_true_eq] at h
  rw [copyView, if_neg (by omega)]

theorem copyView_of_validUuidV4 {uuid : List UInt8} (h : validUuidV4 uuid = true) :
    copyView uuidBufferBytes uuid = some (.copy uuidBufferBytes uuid) := by
  simp only [validUuidV4, Bool.and_eq_true, beq_iff_eq] at h
  rw [copyView, if_neg]
  rw [h.1]
  decide

def Checks {α : Type} (P : Prop) (result : Except SettingsUpdateResult α) : Prop :=
  (P → ∃ a, result = .ok a) ∧ (¬ P → ∃ e, result = .error e ∧ e ≠ .invalidCurrentSettings)

theorem checks_deviceName (candidate : DeviceSettings) :
    Checks (∀ name ∈ request.deviceName, validView name 1 deviceNameMaxBytes = true)
      (applyDeviceName request candidate) := by
  unfold applyDeviceName
  cases request.deviceName with
  | none => exact ⟨fun _ => ⟨_, rfl⟩, fun h => absurd (by simp) h⟩
  | some name =>
    by_cases h : validView name 1 deviceNameMaxBytes = true
    · refine ⟨fun _ => ?_, fun hnot => absurd (by simpa using h) hnot⟩
      dsimp only
      rw [h, copyView_of_validView h]
      exact ⟨_, rfl⟩
    · refine ⟨fun hall => absurd (hall name rfl) h, fun _ => ⟨.invalidDeviceName, ?_, by decide⟩⟩
      rw [Bool.not_eq_true] at h
      dsimp only
      rw [h]

theorem checks_snapshotRetentionTarget (candidate : DeviceSettings) :
    Checks (∀ target ∈ request.snapshotRetentionTarget, target ≤ Limits.snapshotRetentionTargetMax)
      (applySnapshotRetentionTarget request candidate) := by
  unfold applySnapshotRetentionTarget
  cases request.snapshotRetentionTarget with
  | none => exact ⟨fun _ => ⟨_, rfl⟩, fun h => absurd (by simp) h⟩
  | some target =>
    by_cases h : target > Limits.snapshotRetentionTargetMax
    · exact ⟨fun hall => absurd (hall target rfl) (UInt8.not_le.mpr h),
        fun _ => ⟨.invalidSnapshotRetentionTarget, if_pos h, by decide⟩⟩
    · exact ⟨fun _ => ⟨_, if_neg h⟩, fun hnot => absurd (by simpa using UInt8.not_lt.mp h) hnot⟩

theorem checks_lastSelectedPackageId (candidate : DeviceSettings) :
    Checks (∀ uuid, request.lastSelectedPackageId = some (some uuid) → validUuidV4 uuid = true)
      (applyLastSelectedPackageId request candidate) := by
  unfold applyLastSelectedPackageId
  match request.lastSelectedPackageId with
  | none => exact ⟨fun _ => ⟨_, rfl⟩, fun h => absurd (by simp) h⟩
  | some none => exact ⟨fun _ => ⟨_, rfl⟩, fun h => absurd (by simp) h⟩
  | some (some uuid) =>
    by_cases h : validUuidV4 uuid = true
    · refine ⟨fun _ => ?_, fun hnot => absurd (by simpa using h) hnot⟩
      dsimp only
      rw [h, copyView_of_validUuidV4 h]
      exact ⟨_, rfl⟩
    · refine ⟨fun hall => absurd (hall uuid rfl) h, fun _ => ⟨.invalidLastSelectedPackageId, ?_, by decide⟩⟩
      rw [Bool.not_eq_true] at h
      dsimp only
      rw [h]

theorem checks_accessPoint (candidate : DeviceSettings) (flags : SettingsUpdateFlags) :
    Checks (∀ network ∈ request.accessPoint, validView network.ssid 1 wifiSsidMaxBytes = true ∧
      validView network.passphrase wifiPassphraseMinBytes wifiPassphraseMaxBytes = true)
      (applyAccessPoint request candidate flags) := by
  unfold applyAccessPoint
  cases request.accessPoint with
  | none => exact ⟨fun _ => ⟨_, rfl⟩, fun h => absurd (by simp) h⟩
  | some network =>
    dsimp only
    by_cases hssid : validView network.ssid 1 wifiSsidMaxBytes = true
    · rw [if_neg (not_not.mpr hssid)]
      by_cases hpassphrase : validView network.passphrase wifiPassphraseMinBytes wifiPassphraseMaxBytes = true
      · rw [if_neg (not_not.mpr hpassphrase), copyView_of_validView hssid, copyView_of_validView hpassphrase]
        exact ⟨fun _ => ⟨_, rfl⟩, fun hnot => absurd (by simpa using ⟨hssid, hpassphrase⟩) hnot⟩
      · exact ⟨fun hall => absurd (hall network rfl).2 hpassphrase,
          fun _ => ⟨.invalidAccessPointPassphrase, if_pos hpassphrase, by decide⟩⟩
    · exact ⟨fun hall => absurd (hall network rfl).1 hssid,
        fun _ => ⟨.invalidAccessPointSsid, if_pos hssid, by decide⟩⟩

theorem checks_station (candidate : DeviceSettings) (flags : SettingsUpdateFlags) :
    Checks (∀ network, request.station = some (some network) → validView network.ssid 1 wifiSsidMaxBytes = true ∧
      validView network.passphrase wifiPassphraseMinBytes wifiPassphraseMaxBytes = true)
      (applyStation request candidate flags) := by
  unfold applyStation
  match request.station with
  | none => exact ⟨fun _ => ⟨_, rfl⟩, fun h => absurd (by simp) h⟩
  | some none => exact ⟨fun _ => ⟨_, rfl⟩, fun h => absurd (by simp) h⟩
  | some (some network) =>
    dsimp only
    by_cases hssid : validView network.ssid 1 wifiSsidMaxBytes = true
    · rw [if_neg (not_not.mpr hssid)]
      by_cases hpassphrase : validView network.passphrase wifiPassphraseMinBytes wifiPassphraseMaxBytes = true
      · rw [if_neg (not_not.mpr hpassphrase), copyView_of_validView hssid, copyView_of_validView hpassphrase]
        exact ⟨fun _ => ⟨_, rfl⟩, fun hnot => absurd (by simpa using ⟨hssid, hpassphrase⟩) hnot⟩
      · exact ⟨fun hall => absurd (hall network rfl).2 hpassphrase,
          fun _ => ⟨.invalidStationPassphrase, if_pos hpassphrase, by decide⟩⟩
    · exact ⟨fun hall => absurd (hall network rfl).1 hssid, fun _ => ⟨.invalidStationSsid, if_pos hssid, by decide⟩⟩

/-- An update that is refused for its fields, rather than for the settings. -/
def refusesUpdate : Except SettingsUpdateResult (DeviceSettings × SettingsUpdateFlags) → Bool
  | .error .invalidCurrentSettings | .ok _ => false
  | .error _ => true

theorem refusesUpdate_error {e : SettingsUpdateResult} (h : e ≠ .invalidCurrentSettings) :
    refusesUpdate (.error e) = true := by
  cases e with
  | invalidCurrentSettings => exact absurd rfl h
  | _ => rfl

theorem refusesUpdate_bind {α : Type} {P Q : Prop} {result : Except SettingsUpdateResult α}
    {next : α → Except SettingsUpdateResult (DeviceSettings × SettingsUpdateFlags)} (h : Checks P result)
    (hnext : ∀ a, refusesUpdate (next a) = false ↔ Q) : refusesUpdate (result >>= next) = false ↔ P ∧ Q := by
  by_cases hP : P
  · obtain ⟨a, hok⟩ := h.1 hP
    rw [hok, show (Except.ok a >>= next) = next a from rfl, hnext a]
    exact ⟨fun hQ => ⟨hP, hQ⟩, And.right⟩
  · obtain ⟨e, herror, hne⟩ := h.2 hP
    rw [herror, show (Except.error e >>= next) = .error e from rfl, refusesUpdate_error hne]
    exact ⟨(fun hfalse => by cases hfalse), fun hboth => absurd hboth.1 hP⟩

/-- Over good settings an update is taken exactly when the values of its fields are
valid. -/
theorem refusesUpdate_prepareUpdate (hvalid : current.validate = .ok) (hprovisioned : current.provisioned = true) :
    refusesUpdate (prepareUpdate current request) = false ↔ UpdateValuesValid request := by
  unfold prepareUpdate
  rw [if_neg (not_or.mpr ⟨not_not.mpr hvalid, not_not.mpr hprovisioned⟩)]
  by_cases hempty : request.isEmpty = true
  · rw [if_pos hempty]
    refine ⟨(fun h => by cases h), fun h => ?_⟩
    rw [h.named] at hempty
    cases hempty
  rw [if_neg hempty, refusesUpdate_bind (checks_deviceName current) fun named =>
    refusesUpdate_bind (checks_snapshotRetentionTarget _) fun retained =>
      refusesUpdate_bind (checks_lastSelectedPackageId retained) fun selected =>
        refusesUpdate_bind (checks_accessPoint selected _) fun reachable =>
          refusesUpdate_bind (Q := True) (checks_station reachable.1 reachable.2) fun candidate => ?_]
  · refine ⟨?_, fun h => ⟨h.deviceName, h.snapshotRetentionTarget, h.lastSelectedPackageId, h.accessPoint, h.station, trivial⟩⟩
    rintro ⟨hname, htarget, hpackage, hnetwork, hstation, -⟩
    exact ⟨Bool.not_eq_true _ ▸ hempty, hname, htarget, hpackage, hnetwork, hstation⟩
  · refine ⟨fun _ => trivial, fun _ => ?_⟩
    dsimp only
    split <;> rfl

end Checks

end MacroKeyboard.Web
