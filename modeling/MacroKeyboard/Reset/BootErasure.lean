import MacroKeyboard.Reset.BootRecovery

namespace MacroKeyboard.Reset

open Settings Settings.Coherence Settings.Codec Settings.Effects Blobs Blobs.ScanReport Blobs.Recovery Blobs.Erasure

namespace BootErasure

section Engine

variable {Δ : Type} (operations : RecoveryOps Δ) (state : ResetState Δ)

/-- The stages on the settings, over the device alone. -/
def settingsStages (device : Δ) : AppError × Δ :=
  let (initialized, device) := operations.settingsInit device
  if initialized ≠ .none then (initialized, device)
  else
    let (erased, device) := operations.eraseSettings device
    let (deinitialized, device) := operations.settingsDeinit device
    (recordFirstError deinitialized erased, device)

/-- The stages on the storage, over the device alone. -/
def storageStages (device : Δ) : AppError × Δ :=
  let (mounted, device) := operations.storageMount device
  if mounted ≠ .none then (mounted, device)
  else
    let (deleted, device) := operations.deleteBlobs device
    let (cleaned, device) := operations.cleanupTemporaryFiles device
    let (unmounted, device) := operations.storageUnmount device
    (recordFirstError unmounted (recordFirstError cleaned deleted), device)

theorem recoverSettings_eq : recoverSettings operations state =
    ((settingsStages operations state.device).1, { state with device := (settingsStages operations state.device).2 }) := by
  unfold recoverSettings settingsStages onDevice
  simp only [bind, StateT.bind, pure]
  split
  · rfl
  · rfl

theorem recoverStorage_eq : recoverStorage operations state =
    ((storageStages operations state.device).1, { state with device := (storageStages operations state.device).2 }) := by
  unfold recoverStorage storageStages onDevice
  simp only [bind, StateT.bind, pure]
  split
  · rfl
  · rfl

theorem performReset_eq : performReset operations state =
    if (settingsStages operations state.device).1 ≠ .none then
      (⟨(settingsStages operations state.device).1, false⟩,
        { state with device := (settingsStages operations state.device).2 })
    else if (storageStages operations (settingsStages operations state.device).2).1 ≠ .none then
      (⟨(storageStages operations (settingsStages operations state.device).2).1, false⟩,
        { state with device := (storageStages operations (settingsStages operations state.device).2).2 })
    else
      (⟨(factoryResetStateClear operations.clearPending state.journal).1,
          (factoryResetStateClear operations.clearPending state.journal).1 = .none⟩,
        ⟨(factoryResetStateClear operations.clearPending state.journal).2,
          (storageStages operations (settingsStages operations state.device).2).2⟩) := by
  unfold performReset
  simp only [bind, StateT.bind, recoverSettings_eq]
  by_cases hsettings : (settingsStages operations state.device).1 ≠ .none
  · rw [if_pos hsettings, if_pos hsettings]
    rfl
  · rw [if_neg hsettings, if_neg hsettings]
    simp only [bind, StateT.bind, recoverStorage_eq]
    by_cases hstorage : (storageStages operations (settingsStages operations state.device).2).1 ≠ .none
    · rw [if_pos hstorage, if_pos hstorage]
      rfl
    · rw [if_neg hstorage, if_neg hstorage]
      rfl

end Engine

section Settings

variable {record : Option (List UInt8)}

theorem coherent_start (record : Option (List UInt8)) : Coherent (Store.start record) :=
  ⟨fun h => (by cases h), fun h => (by cases h)⟩

/-- A load without a fault. -/
theorem load_start (record : Option (List UInt8)) :
    (storedSettings record = none ∧ ((Store.start record).load quietCalls).error ≠ .none) ∨
    ∃ stored recordPresent, storedSettings record = some stored ∧
      ((Store.start record).load quietCalls).error = .none ∧
      ((Store.start record).load quietCalls).store = ⟨⟨stored, true, recordPresent⟩, ⟨record, true⟩⟩ := by
  cases record with
  | none => exact Or.inr ⟨.initUnprovisioned, false, rfl, rfl, rfl⟩
  | some record =>
    by_cases hlength : record.length = settingsRecordBytes
    · rcases hdecoded : decode record .zero with ⟨result, decoded⟩
      cases result with
      | ok =>
        refine Or.inr ⟨decoded, true, ?_, ?_, ?_⟩
        · rw [storedSettings, hdecoded]
        · simp [Store.load, Store.start, Nvs.readRecord, quietCalls, hlength, hdecoded]
        · simp [Store.load, Store.start, Nvs.readRecord, quietCalls, hlength, hdecoded]
      | _ =>
        refine Or.inl ⟨?_, ?_⟩
        · rw [storedSettings, hdecoded]
        · simp [Store.load, Store.start, Nvs.readRecord, quietCalls, hlength, hdecoded, mapDecodeResult]
    · left
      have hdecode : decode record .zero = (.invalidLength, .zero) := by rw [decode, if_pos hlength]
      constructor
      · rw [storedSettings, hdecode]
      · simp [Store.load, Store.start, Nvs.readRecord, quietCalls, hlength]

theorem replace_quiet {store : Store} {settings : DeviceSettings} (hopen : store.nvs.handleOpen = true)
    (hloaded : store.core.loaded = true) (hcoherent : Coherent store) (hvalid : Valid settings) :
    (store.replace quietCalls settings).error = .none := by
  have hload : store.load quietCalls = ⟨.none, some store.core.current, none, store⟩ := by
    rw [Store.load, if_pos hloaded]
  have hreplace : store.nvs.replaceRecordAtomic quietCalls (recordBytes settings) =
      (.none, { store.nvs with record := some (recordBytes settings) }) := by
    simp [Nvs.replaceRecordAtomic, hopen, length_recordBytes, quietCalls]
  unfold Store.replace
  simp only [hload, encodeSettings_of_valid (hcoherent.valid hloaded), encodeSettings_of_valid hvalid, hreplace,
    ne_eq, not_true_eq_false, if_false]
  split_ifs with hsame
  · rfl
  · rfl

/-- The settings of a boot that can be loaded are replaced by those of a device
that is not set up. -/
theorem settingsStages_boot (order : ReadingOrder) (record : Option (List UInt8)) (persistedNextId : Option Nat)
    (repository : Repository) :
    (storedSettings record = none ∧
      (settingsStages (bootRecovery order) ⟨closedStore record, persistedNextId, repository⟩).1 ≠ .none) ∨
    ∃ stored erased after, storedSettings record = some stored ∧
      settingsStages (bootRecovery order) ⟨closedStore record, persistedNextId, repository⟩ =
        (.none, ⟨closedStore erased, persistedNextId, repository⟩) ∧
      storedSettings erased = some after ∧ SameSettings after .initUnprovisioned := by
  rcases load_start record with ⟨hstored, herror⟩ | ⟨stored, recordPresent, hstored, herror, hstore⟩
  · left
    refine ⟨hstored, ?_⟩
    simp [settingsStages, bootRecovery, BootDevice.settingsInit, closedStore, herror]
  · right
    obtain ⟨hloaded, hvalid, -⟩ := (load_stored quietCalls (coherent_start record)).2 herror
    have hcoherent : Coherent ((Store.start record).load quietCalls).store := by
      rw [hstore] at hvalid ⊢
      exact coherent_of_stored hvalid hstored
    have hnone := replace_quiet (by rw [hstore]) hloaded hcoherent valid_initUnprovisioned
    have heffect := effect_replace_of_loaded quietCalls .initUnprovisioned hloaded hcoherent
    obtain ⟨settings, after, htarget, hafter, hsame⟩ := heffect.success hnone
    cases htarget
    refine ⟨stored, _, after, hstored, ?_, hafter, hsame⟩
    simp [settingsStages, bootRecovery, BootDevice.settingsInit, BootDevice.eraseSettings, BootDevice.settingsDeinit,
      closedStore, herror, Store.factoryReset, Store.resetOutcome, hnone, recordFirstError]

end Settings

section Storage

variable (order : ReadingOrder) (device : BootDevice)

theorem recoverCalls_succeed : recoverCalls.Succeed := ⟨rfl, fun _ => rfl, fun _ => rfl, fun _ => rfl, rfl⟩

theorem cleanup_recovered : (device.cleanupTemporaryFiles order).1 = .none ∧
    Recovered device.repository.directory (device.cleanupTemporaryFiles order).2.repository.directory := by
  obtain ⟨hrecovered, -, -, hsucceeds⟩ := recoverWithOps_spec recoverCalls (device.repository.reading order)
  exact ⟨hsucceeds recoverCalls_succeed, hrecovered (hsucceeds recoverCalls_succeed)⟩

theorem storageMount_eq : device.storageMount order =
    ((device.cleanupTemporaryFiles order).2.scanStartup order, (device.cleanupTemporaryFiles order).2) := by
  unfold BootDevice.storageMount
  simp only [(cleanup_recovered order device).1, ne_eq, not_true_eq_false, if_false]

theorem isBlob_of_recovered {before after : Directory} (h : Recovered before after) (blob : BlobEntry) :
    IsBlob after blob ↔ IsBlob before blob := by
  unfold IsBlob
  refine and_congr_right fun hpositive => and_congr_right fun hmax => ?_
  constructor
  · rintro ⟨content, hlookup, hsize⟩
    exact ⟨content, ((h _ _).mp hlookup).1, hsize⟩
  · rintro ⟨content, hlookup, hsize⟩
    refine ⟨content, (h _ _).mpr ⟨hlookup, ?_⟩, hsize⟩
    rintro ⟨other, -, -, -, hname, -⟩
    exact formatFilename_ne_temporary blob.id other hname

/-- The scan of the startup fails when a blob has the greatest identifier, and only
then. -/
theorem scanStartup_iff : device.scanStartup order = .none ↔
    ∀ blob, IsBlob device.repository.directory blob → blob.id ≠ uint64Max := by
  have hlimit : (∀ blob, IsBlob device.repository.directory blob → blob.id ≠ uint64Max) ↔
      greatestId (blobsOf (device.repository.reading order)) ≠ some uint64Max := by
    rw [Ne, greatestId_limit, not_exists]
    exact forall_congr' fun blob => not_and.symm
  rw [hlimit]
  unfold BootDevice.scanStartup
  rcases scanWithOps_cases .working (fun _ (observed : Unit) => (.none, observed)) (device.repository.reading order)
    (device.persistedNextId.getD 0) () with ⟨error, summary, herror, heq, hwhy, -⟩ | ⟨nextId, hnext, -, heq⟩
  · rw [heq]
    refine ⟨fun h => absurd h herror, fun hnot => ?_⟩
    rcases hwhy ScanCalls.working_working with hstats | hgreatest
    · exact absurd (fun _ _ _ => rfl) hstats
    · exact absurd hgreatest hnot
  · rw [heq]
    refine ⟨fun _ hgreatest => ?_, fun _ => ?_⟩
    · rw [hgreatest] at hnext
      cases hnext
    · generalize sortNewestFirst (blobsOf (device.repository.reading order)) = entries
      induction entries with
      | nil => rfl
      | cons entry rest ih => exact ih

theorem deleteBlobs_erased (hlimit : ∀ blob, IsBlob device.repository.directory blob → blob.id ≠ uint64Max) :
    (device.deleteBlobs order).1 = .none ∧
      ∀ blob, ¬ IsBlob (device.deleteBlobs order).2.repository.directory blob := by
  have hcompletes : ScanCompletes noFailures (device.repository.reading order).directory :=
    ⟨fun _ _ _ _ => rfl, hlimit⟩
  have herased := erased_of_completes hcompletes
  have hnone : ∀ blob, ¬ IsBlob (device.deleteBlobs order).2.repository.directory blob := by
    rintro blob ⟨hpositive, hmax, content, hlookup, hsize⟩
    obtain ⟨hbefore, hkept⟩ := (herased.directory _ _).mp hlookup
    exact hkept ⟨blob, ⟨hpositive, hmax, content, hbefore, hsize⟩, rfl, rfl, rfl, rfl⟩
  exact ⟨herased.result.mpr hnone, hnone⟩

theorem storageStages_boot :
    ((∃ blob, IsBlob device.repository.directory blob ∧ blob.id = uint64Max) ∧
      (storageStages (bootRecovery order) device).1 ≠ .none) ∨
    ((∀ blob, IsBlob device.repository.directory blob → blob.id ≠ uint64Max) ∧
      (storageStages (bootRecovery order) device).1 = .none ∧
      (storageStages (bootRecovery order) device).2.settings = device.settings ∧
      (∀ blob, ¬ IsBlob (storageStages (bootRecovery order) device).2.repository.directory blob) ∧
      ∀ name, ¬ IsTemporaryFile (storageStages (bootRecovery order) device).2.repository.directory name) := by
  obtain ⟨-, hrecovered⟩ := cleanup_recovered order device
  have hmount := storageMount_eq order device
  have hscan := scanStartup_iff order (device.cleanupTemporaryFiles order).2
  simp only [isBlob_of_recovered hrecovered] at hscan
  by_cases hlimit : ∀ blob, IsBlob device.repository.directory blob → blob.id ≠ uint64Max
  · right
    have hdeleted := deleteBlobs_erased order (device.cleanupTemporaryFiles order).2
      (by simpa only [isBlob_of_recovered hrecovered] using hlimit)
    obtain ⟨hdone, hnone⟩ := hdeleted
    obtain ⟨hcleaned, hagain⟩ := cleanup_recovered order ((device.cleanupTemporaryFiles order).2.deleteBlobs order).2
    have hstages : storageStages (bootRecovery order) device =
        (.none, (((device.cleanupTemporaryFiles order).2.deleteBlobs order).2.cleanupTemporaryFiles order).2) := by
      unfold storageStages bootRecovery
      simp [hmount, hscan.mpr hlimit, hdone, hcleaned, recordFirstError]
    rw [hstages]
    refine ⟨hlimit, rfl, rfl, ?_, fun name => recovered_none hagain name⟩
    simpa only [isBlob_of_recovered hagain] using hnone
  · left
    have hfailed : (device.cleanupTemporaryFiles order).2.scanStartup order ≠ .none := fun h => hlimit (hscan.mp h)
    push Not at hlimit
    refine ⟨hlimit, ?_⟩
    unfold storageStages bootRecovery
    simp [hmount, hfailed]

end Storage

theorem settingsInit_kept (device : BootDevice) :
    (device.settingsInit).2.settings.nvs.record = device.settings.nvs.record ∧
      (device.settingsInit).2.repository = device.repository := by
  unfold BootDevice.settingsInit
  split
  · exact ⟨rfl, rfl⟩
  · dsimp only
    split
    · exact ⟨rfl, rfl⟩
    · exact ⟨(load_stored quietCalls (coherent_start device.settings.nvs.record)).1, rfl⟩

theorem adapterSettingsInit_pending (order : ReadingOrder) (device : BootDevice) :
    adapterSettingsInit order ⟨some factoryResetStatePending, device⟩ =
      if (performReset (bootRecovery order) ⟨some factoryResetStatePending, device⟩).1.error ≠ .none then
        ((performReset (bootRecovery order) ⟨some factoryResetStatePending, device⟩).1.error,
          (performReset (bootRecovery order) ⟨some factoryResetStatePending, device⟩).2)
      else
        onDevice BootDevice.settingsInit
          (performReset (bootRecovery order) ⟨some factoryResetStatePending, device⟩).2 := rfl

end BootErasure

open BootErasure

/-- With a reset pending, a boot whose operations all succeed wipes the device exactly
when the stored settings can be loaded and no blob has the greatest identifier. -/
theorem boot_wipes (order : ReadingOrder) (record : Option (List UInt8)) (persistedNextId : Option Nat)
    (repository : Repository) :
    Wiped (adapterSettingsInit order
        ⟨some factoryResetStatePending, ⟨closedStore record, persistedNextId, repository⟩⟩).2 ↔
      storedSettings record ≠ none ∧ ∀ blob, IsBlob repository.directory blob → blob.id ≠ uint64Max := by
  rw [adapterSettingsInit_pending, performReset_eq]
  rcases settingsStages_boot order record persistedNextId repository with
    ⟨hstored, herror⟩ | ⟨stored, erased, after, hstored, hstages, hafter, hsame⟩
  · rw [if_pos herror, if_pos herror]
    exact ⟨fun hwiped => absurd hwiped.marker (by simp), fun h => absurd hstored h.1⟩
  · rw [hstages, if_neg (not_not_intro rfl)]
    rcases storageStages_boot order ⟨closedStore erased, persistedNextId, repository⟩ with
      ⟨⟨blob, hblob, hlimit⟩, herror⟩ | ⟨hlimit, hdone, hsettings, hblobs, htemporary⟩
    · rw [if_pos herror, if_pos herror]
      exact ⟨fun hwiped => absurd hwiped.marker (by simp), fun h => absurd hlimit (h.2 blob hblob)⟩
    · rw [if_neg (not_not_intro hdone)]
      obtain ⟨hrecord, hrepository⟩ :=
        settingsInit_kept (storageStages (bootRecovery order) ⟨closedStore erased, persistedNextId, repository⟩).2
      refine ⟨fun _ => ⟨by rw [hstored]; simp, hlimit⟩, fun _ => ⟨⟨after, ?_, hsame⟩, ?_, ?_, rfl⟩⟩
      · change storedSettings (BootDevice.settingsInit _).2.settings.nvs.record = some after
        rw [hrecord, hsettings]
        exact hafter
      · change ∀ blob, ¬ IsBlob (BootDevice.settingsInit _).2.repository.directory blob
        rw [hrepository]
        exact hblobs
      · change ∀ name, ¬ IsTemporaryFile (BootDevice.settingsInit _).2.repository.directory name
        rw [hrepository]
        exact htemporary

section Examples

def emptyRepository : Repository where
  directory := ∅
  dotless name node h := by simp at h
  sizes name content h := by simp at h

/-- Reads that yield the entries in the order in which they are kept. -/
def listingOrder : ReadingOrder where
  order := entriesOf
  complete entries := by simp only [entriesOf, List.filter_filter, Bool.and_self, List.Perm.refl]
  dots entries entry hmem hdot := by
    rw [entriesOf, List.mem_filter, hdot] at hmem
    exact absurd hmem.2 (by simp)

/-- A record that is no settings record ends every boot before anything is erased. -/
theorem corrupt_settings_not_wiped :
    let device : BootDevice := ⟨closedStore (some (List.replicate settingsRecordBytes 0)), none, emptyRepository⟩
    let booted := adapterSettingsInit listingOrder ⟨some factoryResetStatePending, device⟩
    booted.1 = .storageCorrupt ∧ booted.2.journal = some factoryResetStatePending ∧ ¬ Wiped booted.2 := by
  have hbooted : (adapterSettingsInit listingOrder ⟨some factoryResetStatePending,
      ⟨closedStore (some (List.replicate settingsRecordBytes 0)), none, emptyRepository⟩⟩).2.journal =
      some factoryResetStatePending := by decide +kernel
  exact ⟨by decide +kernel, hbooted, fun hwiped => Option.some_ne_none _ (hbooted.symm.trans hwiped.marker)⟩

end Examples

end MacroKeyboard.Reset
