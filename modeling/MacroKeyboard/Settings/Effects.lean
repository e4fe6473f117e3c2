import MacroKeyboard.Settings.Coherence
import MacroKeyboard.Settings.Update

namespace MacroKeyboard.Settings

open Records.PaddedText Codec RoundTrip Coherence

theorem Codec.SameSettings.trans {a b c : DeviceSettings} (hab : SameSettings a b) (hbc : SameSettings b c) :
    SameSettings a c where
  provisioned := hab.provisioned.trans hbc.provisioned
  credentialVersion := hab.credentialVersion.trans hbc.credentialVersion
  passwordAlgorithmVersion := hab.passwordAlgorithmVersion.trans hbc.passwordAlgorithmVersion
  passwordIterations := hab.passwordIterations.trans hbc.passwordIterations
  passwordSalt := hab.passwordSalt.trans hbc.passwordSalt
  passwordVerifier := hab.passwordVerifier.trans hbc.passwordVerifier
  nextBlobId := hab.nextBlobId.trans hbc.nextBlobId
  snapshotRetentionTarget := hab.snapshotRetentionTarget.trans hbc.snapshotRetentionTarget
  requireSerialConfirmation := hab.requireSerialConfirmation.trans hbc.requireSerialConfirmation
  stationConfigured := hab.stationConfigured.trans hbc.stationConfigured
  lastSelectedPackageId := hab.lastSelectedPackageId.trans hbc.lastSelectedPackageId
  deviceName := hab.deviceName.trans hbc.deviceName
  apSsid := hab.apSsid.trans hbc.apSsid
  apPassphrase := hab.apPassphrase.trans hbc.apPassphrase
  stationSsid := hab.stationSsid.trans hbc.stationSsid
  stationPassphrase := hab.stationPassphrase.trans hbc.stationPassphrase

/-- What an operation stores over the current settings, if it can. -/
def Operation.target (current : DeviceSettings) : Operation → Option DeviceSettings
  | .load => none
  | .replace settings => some settings
  | .setStation ssid passphrase => do
    let stationSsid ← copyBoundedText (wifiSsidMaxBytes + 1) ssid
    let stationPassphrase ← copyBoundedText (wifiPassphraseMaxBytes + 1) passphrase
    pure { current with stationSsid, stationPassphrase, stationConfigured := true }
  | .setAccessPointPassphrase passphrase => do
    let apPassphrase ← copyBoundedText (wifiPassphraseMaxBytes + 1) passphrase
    pure { current with apPassphrase }
  | .resetNoncredential => some (Settings.resetNoncredential current).2
  | .factoryReset => some .initUnprovisioned

namespace Effects

/-- What an operation does to the store: the record stays or becomes that of the
target, and a success leaves the target stored. -/
structure Effect (target : Option DeviceSettings) (before : Store) (outcome : Outcome) : Prop where
  record : outcome.store.nvs.record = before.nvs.record ∨
    ∃ settings, target = some settings ∧ Valid settings ∧ outcome.store.nvs.record = some (recordBytes settings)
  success : outcome.error = .none → ∃ settings after, target = some settings ∧
    storedSettings outcome.store.nvs.record = some after ∧ SameSettings after settings

theorem Effect.of_record {target : Option DeviceSettings} {before store : Store} {outcome : Outcome}
    (h : Effect target store outcome) (hrecord : store.nvs.record = before.nvs.record) :
    Effect target before outcome :=
  ⟨by rw [← hrecord]; exact h.record, h.success⟩

theorem effect_of_failure {target : Option DeviceSettings} {before : Store} {outcome : Outcome}
    (hne : outcome.error ≠ .none) (hrecord : outcome.store.nvs.record = before.nvs.record) :
    Effect target before outcome := ⟨Or.inl hrecord, fun h => absurd h hne⟩

theorem reconcileFailedCommit_kept (calls : StoreCalls) (record : List UInt8) (nvs : Nvs) :
    (nvs.replaceRecordAtomic calls record).2.record = nvs.record ∨
      (nvs.replaceRecordAtomic calls record).2.record = some record := by
  unfold Nvs.replaceRecordAtomic
  split
  · exact Or.inl rfl
  · split
    next hset =>
      rw [StoreCalls.not_persisted hset]
      exact Or.inl rfl
    · exact Or.inr rfl
    · rw [reconcileFailedCommit_record]
      by_cases hpersisted : calls.persisted = true
      · exact Or.inr (by simp [hpersisted])
      · exact Or.inl (by simp [hpersisted])

theorem same_of_recordBytes {a b : DeviceSettings} (ha : Valid a) (hb : Valid b)
    (h : recordBytes a = recordBytes b) : SameSettings a b := by
  have hcanonical : canonical a = canonical b := by
    have hdecode := decode_recordBytes ha .zero
    rw [h, decode_recordBytes hb .zero] at hdecode
    exact (Prod.mk.inj hdecode).2.symm
  refine (sameSettings_canonical a).symm.trans ?_
  rw [hcanonical]
  exact sameSettings_canonical b

theorem effect_replace_of_loaded {store : Store} (calls : StoreCalls) (settings : DeviceSettings)
    (hloaded : store.core.loaded = true) (h : Coherent store) :
    Effect (some settings) store (store.replace calls settings) := by
  have hload : store.load calls = ⟨.none, some store.core.current, none, store⟩ := by
    rw [Store.load, if_pos hloaded]
  unfold Store.replace
  simp only [hload, encodeSettings_of_valid (h.valid hloaded), ne_eq, not_true_eq_false, if_false]
  by_cases hcandidate : (encodeSettings settings).1 = .none
  · have hvalid := valid_of_encodeSettings hcandidate
    rw [encodeSettings_of_valid hvalid]
    simp only [not_true_eq_false, if_false]
    split_ifs with hsame
    · obtain ⟨stored, hstored, hcurrent⟩ := h.stored hloaded
      exact ⟨Or.inl rfl, fun _ => ⟨settings, stored, rfl, hstored,
        hcurrent.symm.trans (same_of_recordBytes (h.valid hloaded) hvalid hsame)⟩⟩
    · obtain ⟨hsuccess, -⟩ := replaceRecordAtomic_record calls (recordBytes settings) store.nvs
      have hkept := reconcileFailedCommit_kept calls (recordBytes settings) store.nvs
      rcases hreplace : store.nvs.replaceRecordAtomic calls (recordBytes settings) with ⟨result, nvs⟩
      rw [hreplace] at hsuccess hkept
      have hrecord : nvs.record = store.nvs.record ∨
          ∃ target, some settings = some target ∧ Valid target ∧ nvs.record = some (recordBytes target) :=
        hkept.imp id fun hnew => ⟨settings, rfl, hvalid, hnew⟩
      cases result with
      | none =>
        have hnew : nvs.record = some (recordBytes settings) := hsuccess rfl
        refine ⟨hrecord, fun _ => ⟨settings, canonical settings, rfl, ?_, sameSettings_canonical settings⟩⟩
        simp only [hnew]
        exact storedSettings_recordBytes hvalid
      | commitUncertain => exact ⟨hrecord, fun h => by cases h⟩
      | _ => exact ⟨hrecord, fun h => by cases h⟩
  · rw [if_pos hcandidate]
    generalize (encodeSettings settings).1 = error at hcandidate
    exact effect_of_failure hcandidate rfl

theorem outSettings_load {store : Store} (calls : StoreCalls) (h : (store.load calls).error = .none) :
    (store.load calls).outSettings = some (store.load calls).store.core.current := by
  revert h
  unfold Store.load
  by_cases hloaded : store.core.loaded = true
  · rw [if_pos hloaded]
    exact fun _ => rfl
  · rw [if_neg hloaded]
    rcases readRecord_cases calls.querySize calls.getBlob store.nvs with
      ⟨record, -, hread⟩ | ⟨-, hread⟩ | ⟨error, hread, hfound, hne, -⟩
    · rw [hread]
      rcases hdecode : decode record .zero with ⟨result, decoded⟩
      simp only [hdecode]
      cases result with
      | ok => exact fun _ => rfl
      | _ => exact fun h => absurd h (by simp [mapDecodeResult])
    · rw [hread]
      exact fun _ => rfl
    · rw [hread]
      cases error with
      | notFound => exact absurd rfl hfound
      | none => exact absurd rfl hne
      | _ => exact fun h => absurd h (by simp)

theorem load_stored {store : Store} (calls : StoreCalls) (h : Coherent store) :
    (store.load calls).store.nvs.record = store.nvs.record ∧
    ((store.load calls).error = .none → (store.load calls).store.core.loaded = true ∧
      Valid (store.load calls).store.core.current ∧
      ∃ stored, storedSettings store.nvs.record = some stored ∧
        SameSettings (store.load calls).store.core.current stored) := by
  rcases load_cases calls h with ⟨-, hloaded, hcoherent, hkept⟩ | ⟨hne, -, hsame⟩
  · obtain ⟨stored, hstored, hcurrent⟩ := hcoherent.stored hloaded
    rw [hkept.record] at hstored
    exact ⟨hkept.record, fun _ => ⟨hloaded, hcoherent.valid hloaded, stored, hstored, hcurrent⟩⟩
  · exact ⟨congrArg (·.nvs.record) hsame, fun hnone => absurd hnone hne⟩

/-- An operation that starts with a load fails with it, or goes on from a loaded
core. -/
theorem effect_of_load {store : Store} (calls : StoreCalls) (h : Coherent store) {target : Option DeviceSettings}
    {outcome : Outcome} {outChanged : Option Bool}
    (hrest : (store.load calls).store.core.loaded = true → Coherent (store.load calls).store →
      Effect target (store.load calls).store outcome) :
    Effect target store (if (store.load calls).error ≠ .none then
      ⟨(store.load calls).error, none, outChanged, (store.load calls).store⟩ else outcome) := by
  rcases load_cases calls h with ⟨hnone, hloaded, hcoherent, hkept⟩ | ⟨hne, -, hsame⟩
  · rw [if_neg (not_not.mpr hnone)]
    exact (hrest hloaded hcoherent).of_record hkept.record
  · rw [if_pos hne, hsame]
    exact effect_of_failure hne rfl

theorem effect_resetOutcome {target : Option DeviceSettings} {before : Store} {outcome : Outcome}
    (h : Effect target before outcome) : Effect target before (Store.resetOutcome outcome) := ⟨h.record, h.success⟩

theorem replace_of_load {store : Store} (calls : StoreCalls) (settings : DeviceSettings)
    (hnone : (store.load calls).error = .none) (hloaded : (store.load calls).store.core.loaded = true) :
    store.replace calls settings = (store.load calls).store.replace calls settings := by
  have hsecond : (store.load calls).store.load calls =
      ⟨.none, some (store.load calls).store.core.current, none, (store.load calls).store⟩ := by
    rw [Store.load, if_pos hloaded]
  unfold Store.replace
  rw [hsecond]
  simp only [hnone]

theorem effect_replace {store : Store} (calls : StoreCalls) (settings : DeviceSettings) (h : Coherent store) :
    Effect (some settings) store (store.replace calls settings) := by
  rcases load_cases calls h with ⟨hnone, hloaded, hcoherent, hkept⟩ | ⟨hne, -, hsame⟩
  · rw [replace_of_load calls settings hnone hloaded]
    exact (effect_replace_of_loaded calls settings hloaded hcoherent).of_record hkept.record
  · unfold Store.replace
    simp only
    rw [if_pos hne, hsame]
    exact effect_of_failure hne rfl

/-- Every operation that writes has the effect of its target over the settings
that it loads. -/
theorem effect_perform {store : Store} (calls : StoreCalls) {operation : Operation} (hwrite : operation ≠ .load)
    (h : Coherent store) :
    Effect (operation.target (store.load calls).store.core.current) store (perform calls operation store) := by
  cases operation with
  | load => exact absurd rfl hwrite
  | replace settings => exact effect_replace calls settings h
  | setStation ssid passphrase =>
    refine effect_of_load calls h fun hloaded hcoherent => ?_
    rcases hssid : copyBoundedText (wifiSsidMaxBytes + 1) ssid with _ | stationSsid
    · exact effect_of_failure (by simp) rfl
    · rcases hpassphrase : copyBoundedText (wifiPassphraseMaxBytes + 1) passphrase with _ | stationPassphrase
      · exact effect_of_failure (by simp) rfl
      · have heffect := effect_replace_of_loaded calls { (store.load calls).store.core.current with
          stationSsid, stationPassphrase, stationConfigured := true } hloaded hcoherent
        simpa [Operation.target, hssid, hpassphrase] using heffect
  | setAccessPointPassphrase passphrase =>
    change Effect _ store (store.setAccessPointPassphrase calls passphrase)
    unfold Store.setAccessPointPassphrase
    split
    · exact effect_of_failure (by simp) rfl
    · refine effect_of_load calls h fun hloaded hcoherent => ?_
      rcases hpassphrase : copyBoundedText (wifiPassphraseMaxBytes + 1) passphrase with _ | apPassphrase
      · exact effect_of_failure (by simp) rfl
      · have heffect := effect_replace_of_loaded calls { (store.load calls).store.core.current with apPassphrase }
          hloaded hcoherent
        simpa [Operation.target, hpassphrase] using heffect
  | resetNoncredential =>
    change Effect _ store (store.resetNoncredential calls)
    unfold Store.resetNoncredential
    simp only
    rcases load_cases calls h with ⟨hnone, hloaded, hcoherent, hkept⟩ | ⟨hne, -, hsame⟩
    · rw [if_neg (not_not.mpr hnone)]
      split
      next hcandidate =>
        refine effect_resetOutcome ?_
        exact effect_of_failure hcandidate hkept.record
      · exact effect_resetOutcome ((effect_replace_of_loaded calls _ hloaded hcoherent).of_record hkept.record)
    · rw [if_pos hne]
      have hrecord : (store.load calls).store.nvs.record = store.nvs.record := by rw [hsame]
      refine effect_resetOutcome ?_
      exact effect_of_failure hne hrecord
  | factoryReset => exact effect_resetOutcome (effect_replace calls .initUnprovisioned h)

/-- An operation that cannot load leaves the record alone. -/
theorem record_of_load_error {store : Store} (calls : StoreCalls) (operation : Operation) (h : Coherent store)
    (hne : (store.load calls).error ≠ .none) : (perform calls operation store).store.nvs.record = store.nvs.record := by
  have hrecord := (load_stored calls h).1
  cases operation with
  | load => exact hrecord
  | replace settings =>
    change (store.replace calls settings).store.nvs.record = _
    unfold Store.replace
    simp only
    rw [if_pos hne]
    exact hrecord
  | setStation ssid passphrase =>
    change (store.setStation calls ssid passphrase).store.nvs.record = _
    unfold Store.setStation
    simp only
    rw [if_pos hne]
    exact hrecord
  | setAccessPointPassphrase passphrase =>
    change (store.setAccessPointPassphrase calls passphrase).store.nvs.record = _
    unfold Store.setAccessPointPassphrase
    split
    · rfl
    · simp only
      rw [if_pos hne]
      exact hrecord
  | resetNoncredential =>
    change (store.resetNoncredential calls).store.nvs.record = _
    unfold Store.resetNoncredential
    simp only
    rw [if_pos hne]
    exact hrecord
  | factoryReset =>
    change (store.replace calls .initUnprovisioned).store.nvs.record = _
    unfold Store.replace
    simp only
    rw [if_pos hne]
    exact hrecord

end Effects

end MacroKeyboard.Settings
