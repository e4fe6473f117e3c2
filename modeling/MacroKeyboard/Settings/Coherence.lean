import MacroKeyboard.Settings.Store
import MacroKeyboard.Settings.RoundTrip

namespace MacroKeyboard.Settings.Coherence

open Codec RoundTrip

/-- What a store means: an absent record stands for the unprovisioned settings,
and a record that is refused for none. -/
def storedSettings : Option (List UInt8) → Option DeviceSettings
  | none => some .initUnprovisioned
  | some record =>
    match decode record .zero with
    | (.ok, decoded) => some decoded
    | _ => none

/-- A loaded core holds valid settings, the same as the store. -/
structure Coherent (store : Store) : Prop where
  valid : store.core.loaded = true → Valid store.core.current
  stored : store.core.loaded = true →
    ∃ stored, storedSettings store.nvs.record = some stored ∧ SameSettings store.core.current stored

/-- The store has the record it had, and the core is as it was or, if it was not
loaded, has been loaded. -/
structure Kept (before after : Store) : Prop where
  record : after.nvs.record = before.nvs.record
  core : after.core = before.core ∨ (before.core.loaded = false ∧ after.core.loaded = true)

theorem Kept.refl (store : Store) : Kept store store := ⟨rfl, Or.inl rfl⟩

theorem Kept.trans {a b c : Store} (hab : Kept a b) (hbc : Kept b c) : Kept a c := by
  refine ⟨hbc.record.trans hab.record, ?_⟩
  rcases hbc.core with hcore | ⟨hunloaded, hloaded⟩
  · rcases hab.core with hsame | ⟨hunloaded, hloaded⟩
    · exact Or.inl (hcore.trans hsame)
    · exact Or.inr ⟨hunloaded, by rw [hcore]; exact hloaded⟩
  · rcases hab.core with hsame | ⟨-, hloaded'⟩
    · exact Or.inr ⟨by rw [← hsame]; exact hunloaded, hloaded⟩
    · rw [hloaded'] at hunloaded
      cases hunloaded

/-- What an operation leaves behind, by its result. -/
structure Truthful (before : Store) (outcome : Outcome) : Prop where
  coherent : Coherent outcome.store
  success : outcome.error = .none → outcome.store.core.loaded = true
  failure : outcome.error ≠ .none → outcome.error ≠ .commitUncertain → Kept before outcome.store
  uncertain : outcome.error = .commitUncertain → outcome.store.core.loaded = false

theorem Truthful.of_kept {before store : Store} {outcome : Outcome} (h : Truthful store outcome)
    (hkept : Kept before store) : Truthful before outcome :=
  { h with failure := fun hne hdefinite => hkept.trans (h.failure hne hdefinite) }

theorem truthful_of_failure {before store : Store} {error : AppError} {outSettings : Option DeviceSettings}
    {outChanged : Option Bool} (hne : error ≠ .none) (hdefinite : error ≠ .commitUncertain)
    (hcoherent : Coherent store) (hkept : Kept before store) :
    Truthful before ⟨error, outSettings, outChanged, store⟩ where
  coherent := hcoherent
  success := fun h => absurd h hne
  failure := fun _ _ => hkept
  uncertain := fun h => absurd h hdefinite

theorem truthful_resetOutcome {before : Store} {outcome : Outcome} (h : Truthful before outcome) :
    Truthful before (Store.resetOutcome outcome) :=
  ⟨h.coherent, h.success, h.failure, h.uncertain⟩

section Errors

theorem mapNvsError_ne_none (fault : NvsFault) : mapNvsError fault ≠ .none := by
  cases fault <;> decide

theorem mapNvsError_ne_uncertain (fault : NvsFault) : mapNvsError fault ≠ .commitUncertain := by
  cases fault <;> decide

theorem mapNvsError_ne_notFound (fault : NvsFault) : mapNvsError fault ≠ .notFound := by
  cases fault <;> decide

theorem mapCandidateResult_ne_uncertain (result : SettingsResult) :
    mapCandidateResult result ≠ .commitUncertain := by
  cases result <;> decide

theorem mapCandidateResult_eq_none {result : SettingsResult} (h : mapCandidateResult result = .none) :
    result = .ok := by
  cases result with
  | ok => rfl
  | _ => cases h

end Errors

/-- What a read finds: the record, no record only where there is none, or an
error. -/
theorem readRecord_cases (querySize getBlob : Option NvsFault) (nvs : Nvs) :
    (∃ record, nvs.record = some record ∧ nvs.readRecord querySize getBlob = .ok record) ∨
    (nvs.record = none ∧ nvs.readRecord querySize getBlob = .error .notFound) ∨
    ∃ error, nvs.readRecord querySize getBlob = .error error ∧ error ≠ .notFound ∧ error ≠ .none ∧
      error ≠ .commitUncertain := by
  unfold Nvs.readRecord
  by_cases hopen : nvs.handleOpen = true
  · rw [if_neg (by simp [hopen])]
    cases querySize with
    | some fault => exact Or.inr (Or.inr ⟨_, rfl, mapNvsError_ne_notFound fault, mapNvsError_ne_none fault,
        mapNvsError_ne_uncertain fault⟩)
    | none =>
      cases hrecord : nvs.record with
      | none => exact Or.inr (Or.inl ⟨rfl, rfl⟩)
      | some record =>
        by_cases hlength : record.length = settingsRecordBytes
        · cases getBlob with
          | none => exact Or.inl ⟨record, rfl, by simp [hlength]⟩
          | some fault => exact Or.inr (Or.inr ⟨_, by simp [hlength], mapNvsError_ne_notFound fault,
              mapNvsError_ne_none fault, mapNvsError_ne_uncertain fault⟩)
        · exact Or.inr (Or.inr ⟨.storageCorrupt, by simp [hlength], by decide, by decide, by decide⟩)
  · rw [if_pos (by simpa using hopen)]
    exact Or.inr (Or.inr ⟨.invalidArgument, rfl, by decide, by decide, by decide⟩)

theorem load_nvs (calls : StoreCalls) (store : Store) : (store.load calls).store.nvs = store.nvs := by
  unfold Store.load
  split
  · rfl
  · split
    · rfl
    · rfl
    · split <;> rfl

theorem reconcileFailedCommit_record (calls : StoreCalls) (candidate : List UInt8) (commitError : AppError)
    (nvs : Nvs) : (nvs.reconcileFailedCommit calls candidate commitError).2.record = nvs.record := by
  unfold Nvs.reconcileFailedCommit
  simp only
  split_ifs
  · rfl
  · split <;> rfl

theorem reconcileFailedCommit_result (calls : StoreCalls) (candidate : List UInt8) {commitError : AppError}
    (nvs : Nvs) (hne : commitError ≠ .none) :
    ((nvs.reconcileFailedCommit calls candidate commitError).1 = .none → nvs.record = some candidate) ∧
    ((nvs.reconcileFailedCommit calls candidate commitError).1 ≠ .none →
      (nvs.reconcileFailedCommit calls candidate commitError).1 ≠ .commitUncertain →
      nvs.record ≠ some candidate) := by
  unfold Nvs.reconcileFailedCommit
  simp only
  by_cases hreopen : calls.reopen.isSome = true
  · rw [if_pos hreopen]
    exact ⟨fun h => (by cases h), fun _ h => absurd rfl h⟩
  · rw [if_neg hreopen]
    rcases readRecord_cases calls.reconcileSize calls.reconcileGet (nvs.reopenSettingsHandle calls) with
      ⟨persisted, hrecord, hread⟩ | ⟨hrecord, hread⟩ | ⟨error, hread, hfound, -, -⟩
    · have hrecord : nvs.record = some persisted := hrecord
      rw [hread, hrecord]
      by_cases hcandidate : persisted = candidate
      · simp [hcandidate]
      · simp [hcandidate, hne]
    · have hrecord : nvs.record = none := hrecord
      rw [hread, hrecord]
      exact ⟨fun h => absurd h hne, fun _ _ => by simp⟩
    · rw [hread]
      cases error with
      | notFound => exact absurd rfl hfound
      | _ => exact ⟨fun h => (by cases h), fun _ h => absurd rfl h⟩

/-- A replacement that succeeds stores the record, and one that fails for
certain leaves the store alone. -/
theorem replaceRecordAtomic_record (calls : StoreCalls) (record : List UInt8) (nvs : Nvs) :
    ((nvs.replaceRecordAtomic calls record).1 = .none →
      (nvs.replaceRecordAtomic calls record).2.record = some record) ∧
    ((nvs.replaceRecordAtomic calls record).1 ≠ .none →
      (nvs.replaceRecordAtomic calls record).1 ≠ .commitUncertain →
      (nvs.replaceRecordAtomic calls record).2.record = nvs.record) := by
  unfold Nvs.replaceRecordAtomic
  by_cases hargument : ¬ nvs.handleOpen ∨ record.length ≠ settingsRecordBytes
  · rw [if_pos hargument]
    exact ⟨fun h => (by cases h), fun _ _ => rfl⟩
  · rw [if_neg hargument]
    cases hset : calls.setBlob with
    | some fault =>
      rw [calls.not_persisted hset]
      exact ⟨fun h => absurd h (mapNvsError_ne_none fault), fun _ _ => rfl⟩
    | none =>
      cases calls.commit with
      | none => exact ⟨fun _ => rfl, fun h => absurd rfl h⟩
      | some fault =>
        simp only [reconcileFailedCommit_record]
        obtain ⟨hsuccess, hfailure⟩ := reconcileFailedCommit_result calls record
          { nvs with record := if calls.persisted then some record else nvs.record } (mapNvsError_ne_none fault)
        refine ⟨hsuccess, fun hne hdefinite => ?_⟩
        have hother := hfailure hne hdefinite
        by_cases hpersisted : calls.persisted = true
        · simp [hpersisted] at hother
        · rw [if_neg hpersisted]

theorem valid_initUnprovisioned : Valid .initUnprovisioned := validate_eq_ok_iff.mp (by decide)

theorem coherent_of_stored {nvs : Nvs} {settings : DeviceSettings} {recordPresent : Bool} (hvalid : Valid settings)
    (h : storedSettings nvs.record = some settings) : Coherent ⟨⟨settings, true, recordPresent⟩, nvs⟩ :=
  ⟨fun _ => hvalid, fun _ => ⟨settings, h, SameSettings.refl settings⟩⟩

/-- A load leaves a loaded core behind or fails and changes nothing. -/
theorem load_cases {store : Store} (calls : StoreCalls) (h : Coherent store) :
    ((store.load calls).error = .none ∧ (store.load calls).store.core.loaded = true ∧
      Coherent (store.load calls).store ∧ Kept store (store.load calls).store) ∨
    ((store.load calls).error ≠ .none ∧ (store.load calls).error ≠ .commitUncertain ∧
      (store.load calls).store = store) := by
  unfold Store.load
  by_cases hloaded : store.core.loaded = true
  · rw [if_pos hloaded]
    exact Or.inl ⟨rfl, hloaded, h, Kept.refl store⟩
  · rw [if_neg hloaded]
    have hunloaded : store.core.loaded = false := by simpa using hloaded
    rcases readRecord_cases calls.querySize calls.getBlob store.nvs with
      ⟨record, hrecord, hread⟩ | ⟨hrecord, hread⟩ | ⟨error, hread, hfound, hne, hdefinite⟩
    · rw [hread]
      simp only
      rcases hdecode : decode record .zero with ⟨result, decoded⟩
      cases result with
      | ok =>
        have haccepted : Accepted record := @accepted_of_decode record .zero (by rw [hdecode])
        have hdecoded : decoded = readFields record := by
          rw [decode_of_accepted haccepted] at hdecode
          exact (Prod.mk.inj hdecode).2.symm
        have hvalid : Valid decoded := hdecoded ▸ validate_eq_ok_iff.mp haccepted.valid
        have hstored : storedSettings store.nvs.record = some decoded := by
          rw [hrecord, storedSettings, hdecode]
        exact Or.inl ⟨rfl, rfl, coherent_of_stored hvalid hstored, rfl, Or.inr ⟨hunloaded, rfl⟩⟩
      | _ => exact Or.inr ⟨by simp [mapDecodeResult], by simp [mapDecodeResult], rfl⟩
    · rw [hread]
      have hstored : storedSettings store.nvs.record = some .initUnprovisioned := by
        rw [hrecord]
        rfl
      exact Or.inl ⟨rfl, rfl, coherent_of_stored valid_initUnprovisioned hstored, rfl, Or.inr ⟨hunloaded, rfl⟩⟩
    · rw [hread]
      cases error with
      | notFound => exact absurd rfl hfound
      | _ => exact Or.inr ⟨hne, hdefinite, rfl⟩

theorem truthful_load {store : Store} (calls : StoreCalls) (h : Coherent store) :
    Truthful store (store.load calls) := by
  rcases load_cases calls h with ⟨hnone, hloaded, hcoherent, hkept⟩ | ⟨hne, hdefinite, hsame⟩
  · exact ⟨hcoherent, fun _ => hloaded, fun hne => absurd hnone hne, fun h => by rw [hnone] at h; cases h⟩
  · have hcoherent : Coherent (store.load calls).store := by
      rw [hsame]
      exact h
    exact ⟨hcoherent, fun h => absurd h hne, fun _ _ => ⟨congrArg (·.nvs.record) hsame, Or.inl (congrArg (·.core) hsame)⟩,
      fun h => absurd h hdefinite⟩

/-- An operation that starts with a load fails with it, or goes on from a loaded
core. -/
theorem truthful_of_load {store : Store} (calls : StoreCalls) (h : Coherent store) {outcome : Outcome}
    {outChanged : Option Bool}
    (hrest : (store.load calls).store.core.loaded = true → Coherent (store.load calls).store →
      Truthful (store.load calls).store outcome) :
    Truthful store (if (store.load calls).error ≠ .none then
      ⟨(store.load calls).error, none, outChanged, (store.load calls).store⟩ else outcome) := by
  rcases load_cases calls h with ⟨hnone, hloaded, hcoherent, hkept⟩ | ⟨hne, hdefinite, hsame⟩
  · rw [if_neg (not_not.mpr hnone)]
    exact (hrest hloaded hcoherent).of_kept hkept
  · rw [if_pos hne, hsame]
    exact truthful_of_failure hne hdefinite h (Kept.refl store)

theorem encodeSettings_of_valid {settings : DeviceSettings} (h : Valid settings) :
    encodeSettings settings = (.none, recordBytes settings) := by
  rw [encodeSettings, encode_of_valid h List.length_replicate]
  rfl

theorem valid_of_encodeSettings {settings : DeviceSettings} (h : (encodeSettings settings).1 = .none) :
    Valid settings := by
  by_contra hinvalid
  have hresult : settings.validate ≠ .ok := fun hok => hinvalid (validate_eq_ok_iff.mp hok)
  have hencode : encode settings (List.replicate settingsRecordBytes 0) =
      (settings.validate, List.replicate settingsRecordBytes 0) := by
    rw [encode, if_neg (not_not.mpr List.length_replicate)]
    simp only [if_pos hresult]
  rw [encodeSettings, hencode] at h
  exact hresult (mapCandidateResult_eq_none h)

theorem encodeSettings_ne_uncertain (settings : DeviceSettings) : (encodeSettings settings).1 ≠ .commitUncertain := by
  rcases hencode : encode settings (List.replicate settingsRecordBytes 0) with ⟨result, record⟩
  rw [encodeSettings, hencode]
  exact mapCandidateResult_ne_uncertain result

theorem storedSettings_recordBytes {settings : DeviceSettings} (h : Valid settings) :
    storedSettings (some (recordBytes settings)) = some (canonical settings) := by
  rw [storedSettings, decode_recordBytes h]

theorem truthful_replace_of_loaded {store : Store} (calls : StoreCalls) (settings : DeviceSettings)
    (hloaded : store.core.loaded = true) (h : Coherent store) : Truthful store (store.replace calls settings) := by
  have hload : store.load calls = ⟨.none, some store.core.current, none, store⟩ := by
    rw [Store.load, if_pos hloaded]
  unfold Store.replace
  simp only [hload, encodeSettings_of_valid (h.valid hloaded), ne_eq, not_true_eq_false, if_false]
  by_cases hcandidate : (encodeSettings settings).1 = .none
  · have hvalid := valid_of_encodeSettings hcandidate
    rw [encodeSettings_of_valid hvalid]
    simp only [not_true_eq_false, if_false]
    split_ifs with hsame
    · exact ⟨h, fun _ => hloaded, fun hne => absurd rfl hne, fun h => by cases h⟩
    · obtain ⟨hsuccess, hfailure⟩ := replaceRecordAtomic_record calls (recordBytes settings) store.nvs
      rcases hreplace : store.nvs.replaceRecordAtomic calls (recordBytes settings) with ⟨result, nvs⟩
      rw [hreplace] at hsuccess hfailure
      cases result with
      | none =>
        have hrecord : nvs.record = some (recordBytes settings) := hsuccess rfl
        have hstored : storedSettings nvs.record = some (canonical settings) := by
          rw [hrecord, storedSettings_recordBytes hvalid]
        exact ⟨⟨fun _ => hvalid, fun _ => ⟨_, hstored, (sameSettings_canonical settings).symm⟩⟩, fun _ => hloaded,
          fun hne => absurd rfl hne, fun h => by cases h⟩
      | commitUncertain =>
        have hinvalid : Coherent ⟨invalidateLoadedState, nvs⟩ :=
          ⟨fun h => (by cases h), fun h => (by cases h)⟩
        exact ⟨hinvalid, fun h => (by cases h), fun _ h => absurd rfl h, fun _ => rfl⟩
      | _ =>
        have hrecord : nvs.record = store.nvs.record := hfailure (by simp) (by simp)
        have hcoherent : Coherent { store with nvs } := by
          refine ⟨h.valid, fun _ => ?_⟩
          rw [hrecord]
          exact h.stored hloaded
        exact truthful_of_failure (by simp) (by simp) hcoherent ⟨hrecord, Or.inl rfl⟩
  · rw [if_pos hcandidate]
    exact truthful_of_failure hcandidate (encodeSettings_ne_uncertain settings) h (Kept.refl store)

theorem truthful_replace {store : Store} (calls : StoreCalls) (settings : DeviceSettings) (h : Coherent store) :
    Truthful store (store.replace calls settings) := by
  rcases load_cases calls h with ⟨hnone, hloaded, hcoherent, hkept⟩ | ⟨hne, hdefinite, hsame⟩
  · have hsecond : (store.load calls).store.load calls =
        ⟨.none, some (store.load calls).store.core.current, none, (store.load calls).store⟩ := by
      rw [Store.load, if_pos hloaded]
    have hreplace : store.replace calls settings = (store.load calls).store.replace calls settings := by
      unfold Store.replace
      rw [hsecond]
      simp only [hnone]
    rw [hreplace]
    exact (truthful_replace_of_loaded calls settings hloaded hcoherent).of_kept hkept
  · unfold Store.replace
    simp only
    rw [if_pos hne, hsame]
    exact truthful_of_failure hne hdefinite h (Kept.refl store)

theorem truthful_setStation {store : Store} (calls : StoreCalls) (ssid passphrase : List UInt8)
    (h : Coherent store) : Truthful store (store.setStation calls ssid passphrase) := by
  refine truthful_of_load calls h fun hloaded hcoherent => ?_
  split
  · exact truthful_replace_of_loaded calls _ hloaded hcoherent
  · exact truthful_of_failure (by decide) (by decide) hcoherent (Kept.refl _)

theorem truthful_setAccessPointPassphrase {store : Store} (calls : StoreCalls) (passphrase : List UInt8)
    (h : Coherent store) : Truthful store (store.setAccessPointPassphrase calls passphrase) := by
  unfold Store.setAccessPointPassphrase
  split_ifs with hlength
  · exact truthful_of_failure (by decide) (by decide) h (Kept.refl store)
  · refine truthful_of_load calls h fun hloaded hcoherent => ?_
    split
    · exact truthful_of_failure (by decide) (by decide) hcoherent (Kept.refl _)
    · exact truthful_replace_of_loaded calls _ hloaded hcoherent

theorem truthful_resetNoncredential {store : Store} (calls : StoreCalls) (h : Coherent store) :
    Truthful store (store.resetNoncredential calls) := by
  unfold Store.resetNoncredential
  simp only
  rcases load_cases calls h with ⟨hnone, hloaded, hcoherent, hkept⟩ | ⟨hne, hdefinite, hsame⟩
  · rw [if_neg (not_not.mpr hnone)]
    split_ifs with hcandidate
    · exact truthful_resetOutcome
        (truthful_of_failure hcandidate (mapCandidateResult_ne_uncertain _) hcoherent hkept)
    · exact truthful_resetOutcome ((truthful_replace_of_loaded calls _ hloaded hcoherent).of_kept hkept)
  · rw [if_pos hne, hsame]
    exact truthful_resetOutcome (truthful_of_failure hne hdefinite h (Kept.refl store))

theorem truthful_factoryReset {store : Store} (calls : StoreCalls) (h : Coherent store) :
    Truthful store (store.factoryReset calls) :=
  truthful_resetOutcome (truthful_replace calls .initUnprovisioned h)

theorem truthful_perform {store : Store} (calls : StoreCalls) (operation : Operation) (h : Coherent store) :
    Truthful store (perform calls operation store) := by
  cases operation with
  | load => exact truthful_load calls h
  | replace settings => exact truthful_replace calls settings h
  | setStation ssid passphrase => exact truthful_setStation calls ssid passphrase h
  | setAccessPointPassphrase passphrase => exact truthful_setAccessPointPassphrase calls passphrase h
  | resetNoncredential => exact truthful_resetNoncredential calls h
  | factoryReset => exact truthful_factoryReset calls h

theorem coherent_of_reachable {record : Option (List UInt8)} {store : Store} (h : Store.Reachable record store) :
    Coherent store := by
  induction h with
  | start => exact ⟨fun h => (by cases h), fun h => (by cases h)⟩
  | step operation calls _ ih => exact (truthful_perform calls operation ih).coherent

/-- In every run, whatever the store does, a loaded core holds what the store
holds; an operation that succeeds leaves the core loaded, and one that fails for
certain leaves the store alone, and the core too if it was loaded. -/
theorem settings_coherent {record : Option (List UInt8)} {store : Store} (h : Store.Reachable record store) :
    (store.core.loaded = true →
      ∃ stored, storedSettings store.nvs.record = some stored ∧ SameSettings store.core.current stored) ∧
    ∀ operation calls,
      ((perform calls operation store).error = .none →
        (perform calls operation store).store.core.loaded = true ∧
          ∃ stored, storedSettings (perform calls operation store).store.nvs.record = some stored ∧
            SameSettings (perform calls operation store).store.core.current stored) ∧
      ((perform calls operation store).error ≠ .none →
        (perform calls operation store).error ≠ .commitUncertain →
        Kept store (perform calls operation store).store) := by
  refine ⟨(coherent_of_reachable h).stored, fun operation calls => ?_⟩
  have htruthful := truthful_perform calls operation (coherent_of_reachable h)
  exact ⟨fun hnone => ⟨htruthful.success hnone, htruthful.coherent.stored (htruthful.success hnone)⟩,
    htruthful.failure⟩

def quietCalls : StoreCalls := ⟨none, none, none, none, false, none, none, none, fun _ => rfl⟩

def unreadableCalls : StoreCalls := { quietCalls with commit := some .other, reconcileSize := some .other }

def secondSettings : DeviceSettings := { DeviceSettings.initUnprovisioned with snapshotRetentionTarget := 6 }

def longSsid : List UInt8 := List.replicate 33 0x61

theorem settings_coherent_uncertain :
    (perform quietCalls .factoryReset (perform unreadableCalls (.replace secondSettings) (.start none)).store).error
      = .none ∧
    (perform quietCalls .factoryReset
      (perform unreadableCalls (.replace secondSettings) (.start none)).store).store.core.loaded = true := by
  have hreachable : Store.Reachable none (perform unreadableCalls (.replace secondSettings) (.start none)).store :=
    .step _ _ .start
  have hnone : (perform quietCalls .factoryReset
      (perform unreadableCalls (.replace secondSettings) (.start none)).store).error = .none := by
    decide +kernel
  exact ⟨hnone, (((settings_coherent hreachable).2 .factoryReset quietCalls).1 hnone).1⟩

/-- After an uncertain commit the core is not loaded, and the next operation
loads it before it fails. -/
theorem failed_setStation_loads_core :
    ¬ ∀ record store, Store.Reachable record store → ∀ operation calls,
      (perform calls operation store).error ≠ .none → (perform calls operation store).error ≠ .commitUncertain →
      (perform calls operation store).store.core = store.core ∧
        (perform calls operation store).store.nvs.record = store.nvs.record := by
  intro h
  have hkept := h none _ (.step (.replace secondSettings) unreadableCalls .start) (.setStation longSsid []) quietCalls
    (by decide +kernel) (by decide +kernel)
  exact absurd hkept.1 (by decide +kernel)

end MacroKeyboard.Settings.Coherence
