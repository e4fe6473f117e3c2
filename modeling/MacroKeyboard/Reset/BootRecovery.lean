import MacroKeyboard.Blobs.Erasure
import MacroKeyboard.Blobs.Recovery
import MacroKeyboard.Reset.FactoryReset
import MacroKeyboard.Settings.Effects

namespace MacroKeyboard.Reset

open Settings Settings.Coherence Settings.Codec Blobs Blobs.ScanReport Blobs.Recovery Blobs.Erasure

/-- The directory of the blobs: its entries have names of their own and sizes that a
signed number of 32 bits can say. -/
structure Repository where
  directory : Directory
  dotless : ∀ name node, directory.lookup name = some node → isDotEntry name = false
  sizes : ∀ name content, directory.lookup name = some (.file content) → content.length < 2 ^ 31

def Repository.part (repository : Repository) (directory : Directory)
    (h : ∀ name node, directory.lookup name = some node → repository.directory.lookup name = some node) : Repository where
  directory := directory
  dotless name node hlookup := repository.dotless name node (h name node hlookup)
  sizes name content hlookup := repository.sizes name content (h name _ hlookup)

/-- How reads of a directory go through its entries: in any order, with the dot
entries anywhere. -/
structure ReadingOrder where
  order : List (Name × Node) → List (Name × Node)
  complete : ∀ entries, (entriesOf (order entries)).Perm (entriesOf entries)
  dots : ∀ entries, ∀ entry ∈ order entries, isDotEntry entry.1 = true → entry.2 = .directory

def Repository.reading (order : ReadingOrder) (repository : Repository) : DirectoryReading where
  directory := repository.directory
  stream := order.order (listing repository.directory)
  complete := by
    have hentries : entriesOf (listing repository.directory) = listing repository.directory := by
      refine List.filter_eq_self.mpr fun entry hmem => ?_
      rw [repository.dotless entry.1 entry.2 (mem_listing.mp hmem)]
      rfl
    have hcomplete := order.complete (listing repository.directory)
    rw [hentries] at hcomplete
    exact hcomplete
  sizes := by
    intro entry hmem content hcontent
    cases hdot : isDotEntry entry.1 with
    | true => exact absurd (hcontent.symm.trans (order.dots _ entry hmem hdot)) (by simp)
    | false =>
      have hin : entry ∈ entriesOf (listing repository.directory) :=
        (order.complete _).mem_iff.mp (List.mem_filter.mpr ⟨hmem, by rw [hdot]; rfl⟩)
      have hlookup := mem_listing.mp (List.mem_filter.mp hin).1
      rw [hcontent] at hlookup
      exact repository.sizes entry.1 content hlookup

section Parts

theorem recoverStream_part (calls : RecoverCalls) (stream : List (Name × Node)) (index : Nat) (directory : Directory)
    (removed : Nat) (name : Name) (node : Node)
    (h : (recoverStream calls index stream directory removed).2.1.lookup name = some node) :
    directory.lookup name = some node := by
  induction stream generalizing index directory removed with
  | nil => exact h
  | cons entry rest ih =>
    rcases recoverStream_cons calls index entry rest directory removed with ⟨heq, -⟩ | ⟨heq, -⟩ | ⟨heq, -, -⟩
    · rw [heq] at h
      exact h
    · rw [heq] at h
      exact ih _ _ _ h
    · rw [heq] at h
      have hrest := ih _ _ _ h
      by_cases hname : name = entry.1
      · rw [hname, AList.lookup_erase] at hrest
        cases hrest
      · rwa [AList.lookup_erase_ne hname] at hrest

theorem recoverWithOps_part {calls : RecoverCalls} {reading : DirectoryReading} (name : Name) (node : Node)
    (h : (recoverWithOps calls reading).2.1.lookup name = some node) : reading.directory.lookup name = some node := by
  unfold recoverWithOps at h
  split at h
  · exact h
  · exact recoverStream_part _ _ _ _ _ _ _ h

theorem deleteAllWithOps_part {failures : Failures} {reading : DirectoryReading} (name : Name) (node : Node)
    (h : (deleteAllWithOps failures reading).2.2.lookup name = some node) :
    reading.directory.lookup name = some node := by
  rcases deleteAllWithOps_cases failures reading with ⟨error, -, heq, -⟩ | ⟨-, -, -, hcompletes⟩
  · rw [heq] at h
    exact h
  · exact (((erased_of_completes hcompletes).directory name node).mp h).1

end Parts

/-- What a boot finds before the ordinary startup: the settings store, the counter and
the blobs. -/
structure BootDevice where
  settings : Store
  persistedNextId : Option Nat
  repository : Repository

def closedStore (record : Option (List UInt8)) : Store := ⟨⟨.zero, false, false⟩, ⟨record, false⟩⟩

def recoverCalls : RecoverCalls := ⟨true, fun _ => true, fun _ => true, fun _ => true, true⟩

def noFailures : Failures := ⟨fun _ => false, fun _ => none, fun _ => none⟩

namespace BootDevice

def settingsInit (device : BootDevice) : AppError × BootDevice :=
  if device.settings.nvs.handleOpen then (.conflict, device)
  else
    let loaded := (Store.start device.settings.nvs.record).load quietCalls
    if loaded.error ≠ .none then
      (loaded.error, { device with settings := closedStore device.settings.nvs.record })
    else (.none, { device with settings := loaded.store })

/-- `device_settings_factory_reset`. -/
def eraseSettings (device : BootDevice) : AppError × BootDevice :=
  let outcome := device.settings.factoryReset quietCalls
  (outcome.error, { device with settings := outcome.store })

def settingsDeinit (device : BootDevice) : AppError × BootDevice :=
  (.none, { device with settings := closedStore device.settings.nvs.record })

/-- `storage_blob_recover_startup`. -/
def cleanupTemporaryFiles (order : ReadingOrder) (device : BootDevice) : AppError × BootDevice :=
  let reading := device.repository.reading order
  let repository := device.repository.part (recoverWithOps recoverCalls reading).2.1 recoverWithOps_part
  ((recoverWithOps recoverCalls reading).1, { device with repository })

def scanStartup (order : ReadingOrder) (device : BootDevice) : AppError :=
  (scanWithOps .working (.entriesOnly fun _ (observed : Unit) => (.none, observed))
    (device.repository.reading order).stream (device.persistedNextId.getD 0) ()).1

/-- `storage_mount_all`, whose partitions mount and which then prepares the
directories. -/
def storageMount (order : ReadingOrder) (device : BootDevice) : AppError × BootDevice :=
  let (recovered, device) := device.cleanupTemporaryFiles order
  if recovered ≠ .none then (recovered, device) else (device.scanStartup order, device)

/-- `storage_blob_delete_all`. -/
def deleteBlobs (order : ReadingOrder) (device : BootDevice) : AppError × BootDevice :=
  let reading := device.repository.reading order
  let repository := device.repository.part (deleteAllWithOps noFailures reading).2.2 deleteAllWithOps_part
  ((deleteAllWithOps noFailures reading).1, { device with repository })

end BootDevice

def quietJournal : JournalCalls := ⟨none, none, none, false⟩

/-- A recovery in which every operation on the stores and the files succeeds. -/
def bootRecovery (order : ReadingOrder) : RecoveryOps BootDevice where
  readState := quietJournal
  settingsInit := BootDevice.settingsInit
  eraseSettings := BootDevice.eraseSettings
  settingsDeinit := BootDevice.settingsDeinit
  storageMount := BootDevice.storageMount order
  deleteBlobs := BootDevice.deleteBlobs order
  cleanupTemporaryFiles := BootDevice.cleanupTemporaryFiles order
  storageUnmount device := (.none, device)
  clearPending := quietJournal

def adapterSettingsInit (order : ReadingOrder) (state : ResetState BootDevice) : AppError × ResetState BootDevice :=
  let (outcome, state) := factoryResetRecoveryRun (bootRecovery order) state
  if outcome.error ≠ .none then (outcome.error, state) else onDevice BootDevice.settingsInit state

structure Wiped (state : ResetState BootDevice) : Prop where
  settings : ∃ stored, storedSettings state.device.settings.nvs.record = some stored ∧
    SameSettings stored .initUnprovisioned
  blobs : ∀ blob, ¬ IsBlob state.device.repository.directory blob
  temporaryFiles : ∀ name, ¬ IsTemporaryFile state.device.repository.directory name
  marker : state.journal = none

end MacroKeyboard.Reset
