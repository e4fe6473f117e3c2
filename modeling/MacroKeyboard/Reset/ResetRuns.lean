import MacroKeyboard.Blobs.StoreRuns
import MacroKeyboard.Reset.BootErasure
import MacroKeyboard.Reset.Interruptions

namespace MacroKeyboard.Reset.Interruptions

open Settings Settings.Coherence Blobs Threads.Program Threads.Alone

/-- Which stores a device of the two engines stands for. -/
abbrev StandsFor (Δ : Type) : Type := Δ → Store → BlobStore → Prop

variable {Δ : Type}

/-- The world has the journal of the state and the stores of its device. -/
structure Shows (R : StandsFor Δ) (world : ResetWorld) (state : ResetState Δ) : Prop where
  journal : world.journal = state.journal
  device : R state.device world.settings world.blobs

/-- The program can do to the stores, by itself, what the action does to the device. -/
def Simulates {α : Type} (R : StandsFor Δ) (p : ResetProg α) (action : StateM (ResetState Δ) α) : Prop :=
  ∀ world state, Shows R world state → ∃ after : ResetWorld,
    Runs p world (action state).1 after ∧ Shows R after (action state).2

section Parts

variable {α β : Type} {R : StandsFor Δ}

theorem Simulates.bind {p : ResetProg α} {g : α → ResetProg β} {action : StateM (ResetState Δ) α}
    {next : α → StateM (ResetState Δ) β} (hp : Simulates R p action) (hg : ∀ a, Simulates R (g a) (next a)) :
    Simulates R (p.bind g) (action >>= next) := by
  intro world state hshows
  obtain ⟨middle, hmiddle, hstate⟩ := hp world state hshows
  obtain ⟨after, hafter, hdone⟩ := hg (action state).1 middle _ hstate
  exact ⟨after, hmiddle.bind hafter, hdone⟩

theorem simulates_pure (a : α) : Simulates R (.ret a) (pure a) :=
  fun world _ hshows => ⟨world, .ret _ _, hshows⟩

/-- The calls below a step, of which only one part answers something. -/
def quietResetCalls : ResetCalls where
  journal := ⟨none, none, none, false⟩
  store := quietCalls
  files := UploadRuns.faulty none
  result := .none
  closed := false
  resetRequested := false
  request := .blobList

theorem runs_operation (stage : Stage) (f : ResetCalls → ResetWorld → α × ResetWorld) (calls : ResetCalls)
    (world : ResetWorld) :
    Runs (operation stage f) world (f calls world).1 (world.noted stage (f calls world).2) := .act calls (.ret _ _)

theorem runs_askResult (result : AppError) (world : ResetWorld) : Runs askResult world result world :=
  runs_ask (fun calls : ResetCalls => calls.result) { quietResetCalls with result } world

theorem simulates_journal (stage : Stage) (transaction : JournalCalls → Journal → AppError × Journal)
    (calls : JournalCalls) :
    Simulates R (onJournal stage transaction) (Reset.onJournal (transaction calls)) := by
  intro world state hshows
  have hruns : Runs (onJournal stage transaction) world (transaction calls world.journal).1
      (world.noted stage { world with journal := (transaction calls world.journal).2 }) :=
    runs_operation stage _ { quietResetCalls with journal := calls } world
  rw [hshows.journal] at hruns
  exact ⟨_, hruns, rfl, hshows.device⟩

/-- The operation does to the settings what one on the store does. -/
def OnSettings (R : StandsFor Δ) (settingsOperation : Operation) (f : Δ → AppError × Δ) : Prop :=
  ∀ device settings blobs, R device settings blobs → ∃ calls,
    (f device).1 = (perform calls settingsOperation settings).error ∧
      R (f device).2 (perform calls settingsOperation settings).store blobs

theorem simulates_settings (stage : Stage) {settingsOperation : Operation} {f : Δ → AppError × Δ}
    (h : OnSettings R settingsOperation f) : Simulates R (onSettings stage settingsOperation) (onDevice f) := by
  intro world state hshows
  obtain ⟨calls, hresult, hdevice⟩ := h state.device world.settings world.blobs hshows.device
  have hruns : Runs (onSettings stage settingsOperation) world (perform calls settingsOperation world.settings).error
      (world.noted stage { world with settings := (perform calls settingsOperation world.settings).store }) :=
    runs_operation stage _ { quietResetCalls with store := calls } world
  rw [← hresult] at hruns
  exact ⟨_, hruns, hshows.journal, hdevice⟩

/-- The operation does to the files what a program does, and leaves the settings alone. -/
def OnBlobs (R : StandsFor Δ) (p : BlobProg AppError) (f : Δ → AppError × Δ) : Prop :=
  ∀ device settings blobs, R device settings blobs → ∃ after, Runs p blobs (f device).1 after ∧
    R (f device).2 settings after

theorem runs_onBlobs (stage : Stage) {p : BlobProg AppError} {world : ResetWorld} {result : AppError} {blobs : BlobStore}
    (h : Runs p world.blobs result blobs) : ∃ after, Runs (onBlobs stage p) world result after ∧
      after.journal = world.journal ∧ after.settings = world.settings ∧ after.blobs = blobs := by
  have hsurroundings : Function.Surjective ResetCalls.files := fun files => ⟨{ quietResetCalls with files }, rfl⟩
  have hzoomed : ∃ after : ResetWorld, Runs (onBlobs stage p) world result after ∧ after.blobs = blobs ∧
      (after.journal, after.settings) = (world.journal, world.settings) :=
    h.zoom ResetWorld.blobs (fun blobs world => world.noted stage { world with blobs })
      (fun world => (world.journal, world.settings)) hsurroundings (fun _ _ => rfl) (fun _ _ => rfl) rfl
  obtain ⟨after, hruns, hblobs, hrest⟩ := hzoomed
  obtain ⟨hjournal, hsettings⟩ := Prod.mk.inj hrest
  exact ⟨after, hruns, hjournal, hsettings, hblobs⟩

theorem simulates_blobs (stage : Stage) {p : BlobProg AppError} {f : Δ → AppError × Δ} (h : OnBlobs R p f) :
    Simulates R (onBlobs stage p) (onDevice f) := by
  intro world state hshows
  obtain ⟨blobs, hblobs, hdevice⟩ := h state.device world.settings world.blobs hshows.device
  obtain ⟨after, hruns, hjournal, hsettings, rfl⟩ := runs_onBlobs stage hblobs
  exact ⟨after, hruns, hjournal.trans hshows.journal, hsettings ▸ hdevice⟩

/-- The operation answers something, and leaves the stores alone. -/
def Answers (R : StandsFor Δ) (f : Δ → AppError × Δ) : Prop :=
  ∀ device settings blobs, R device settings blobs → R (f device).2 settings blobs

theorem simulates_answer {f : Δ → AppError × Δ} (h : Answers R f) : Simulates R askResult (onDevice f) :=
  fun world _ hshows => ⟨world, runs_askResult _ world, hshows.journal, h _ _ _ hshows.device⟩

end Parts

section Engines

variable {R : StandsFor Δ}

/-- The operations of the reset do what its steps may do. -/
structure Performs (R : StandsFor Δ) (operations : ResetOps Δ) : Prop where
  settings : OnSettings R .factoryReset operations.eraseAllSettings
  sessions : Answers R operations.invalidateAllSessions
  blobs : OnBlobs R blobDeleteAll operations.deleteAllBlobs
  temporary : OnBlobs R recoverStartup operations.cleanupTemporaryFiles
  restart : Answers R operations.scheduleRestart

theorem simulates_eraseRest {operations : ResetOps Δ} (h : Performs R operations) :
    Simulates R eraseRest (Reset.eraseRest operations) :=
  (simulates_answer h.sessions).bind fun _ => (simulates_blobs .erase h.blobs).bind fun _ =>
    (simulates_blobs .erase h.temporary).bind fun _ => simulates_pure _

/-- The reset engine alone takes the steps of a reset. -/
theorem factoryReset_runs {operations : ResetOps Δ} (h : Performs R operations) :
    Simulates R factoryResetSteps (deviceControlsFactoryReset operations) := by
  refine (simulates_journal .mark factoryResetStateMarkPending operations.markFactoryResetPending).bind fun marked => ?_
  by_cases hmarked : marked ≠ .none
  · rw [if_pos hmarked, if_pos hmarked]
    exact simulates_pure _
  · rw [if_neg hmarked, if_neg hmarked, resetStages]
    simp only [bind_assoc]
    have hrest : ∀ firstError, Simulates R
        (askResult.bind fun restart =>
          if recordFirstError restart firstError ≠ .none then
            pure (FactoryResetOutcome.mk true true (recordFirstError restart firstError))
          else (onJournal .erase factoryResetStateClear).bind fun cleared =>
            pure (FactoryResetOutcome.mk true (cleared ≠ .none) cleared))
        ((onDevice operations.scheduleRestart >>= fun restart =>
          if recordFirstError restart firstError ≠ .none then pure (recordFirstError restart firstError)
          else Reset.onJournal (factoryResetStateClear operations.clearFactoryResetPending)) >>= fun firstError =>
            pure (FactoryResetOutcome.mk true (firstError ≠ .none) firstError)) := by
      intro firstError
      rw [bind_assoc]
      refine (simulates_answer h.restart).bind fun restart => ?_
      by_cases hfailed : recordFirstError restart firstError ≠ .none
      · rw [if_pos hfailed, if_pos hfailed, pure_bind, decide_eq_true hfailed]
        exact simulates_pure _
      · rw [if_neg hfailed, if_neg hfailed]
        exact (simulates_journal .erase factoryResetStateClear _).bind fun _ => simulates_pure _
    refine (simulates_settings .erase h.settings).bind fun erased => ?_
    by_cases hdone : erased = .none
    · rw [if_pos hdone, if_pos hdone, bind_assoc]
      exact (simulates_eraseRest h).bind hrest
    · rw [if_neg hdone, if_neg hdone]
      exact hrest erased

def openStore (calls : ResetCalls) (settings : Store) : AppError × Store :=
  if settings.nvs.handleOpen then (.conflict, settings)
  else if calls.result ≠ .none then (calls.result, settings)
  else
    let loaded := (Store.start settings.nvs.record).load calls.store
    if loaded.error ≠ .none then (loaded.error, settings) else (.none, loaded.store)

def closeStore (calls : ResetCalls) (settings : Store) : AppError × Store :=
  (calls.result, if calls.result = .none ∨ calls.closed then closedStore settings.nvs.record else settings)

/-- The operation does to the settings what the function does to the store. -/
def OnStore (R : StandsFor Δ) (step : ResetCalls → Store → AppError × Store) (f : Δ → AppError × Δ) : Prop :=
  ∀ device settings blobs, R device settings blobs → ∃ calls,
    (f device).1 = (step calls settings).1 ∧ R (f device).2 (step calls settings).2 blobs

theorem simulates_settingsInit (stage : Stage) {f : Δ → AppError × Δ} (h : OnStore R openStore f) :
    Simulates R (settingsInit stage) (onDevice f) := by
  intro world state hshows
  obtain ⟨calls, hresult, hdevice⟩ := h state.device world.settings world.blobs hshows.device
  have hopen : openSettings calls world =
      ((openStore calls world.settings).1, { world with settings := (openStore calls world.settings).2 }) := by
    dsimp only [openSettings, openStore]
    split_ifs <;> rfl
  have hruns := runs_operation stage openSettings calls world
  rw [hopen, ← hresult] at hruns
  exact ⟨_, hruns, hshows.journal, hdevice⟩

theorem simulates_settingsDeinit {f : Δ → AppError × Δ} (h : OnStore R closeStore f) :
    Simulates R settingsDeinit (onDevice f) := by
  intro world state hshows
  obtain ⟨calls, hresult, hdevice⟩ := h state.device world.settings world.blobs hshows.device
  have hclose : closeSettings calls world =
      ((closeStore calls world.settings).1, { world with settings := (closeStore calls world.settings).2 }) := by
    dsimp only [closeSettings, closeStore]
    split_ifs <;> rfl
  have hruns := runs_operation .erase closeSettings calls world
  rw [hclose, ← hresult] at hruns
  exact ⟨_, hruns, hshows.journal, hdevice⟩

/-- The operation fails and leaves the stores alone, or prepares the directories. -/
def Mounts (R : StandsFor Δ) (f : Δ → AppError × Δ) : Prop :=
  ∀ device settings blobs, R device settings blobs →
    (f device).1 ≠ .none ∧ R (f device).2 settings blobs ∨
    ∃ after, Runs prepareDirectories blobs (f device).1 after ∧ R (f device).2 settings after

theorem onDevice_bind {α : Type} (f : Δ → AppError × Δ) (next : AppError → StateM (ResetState Δ) α)
    (state : ResetState Δ) :
    (onDevice f >>= next) state = next (f state.device).1 { state with device := (f state.device).2 } := rfl

theorem simulates_mount {f : Δ → AppError × Δ} (h : Mounts R f) {rest : ResetProg AppError}
    {action : StateM (ResetState Δ) AppError} (hrest : Simulates R rest action) :
    Simulates R
      (askResult.bind fun mounted =>
        if mounted ≠ .none then pure mounted
        else (onBlobs .erase prepareDirectories).bind fun prepared =>
          if prepared ≠ .none then pure prepared else rest)
      (onDevice f >>= fun mounted => if mounted ≠ .none then pure mounted else action) := by
  intro world state hshows
  rw [onDevice_bind]
  rcases h state.device world.settings world.blobs hshows.device with ⟨hfailed, hdevice⟩ | ⟨blobs, hblobs, hdevice⟩
  · rw [if_pos hfailed]
    refine ⟨world, (runs_askResult (f state.device).1 world).bind ?_, hshows.journal, hdevice⟩
    rw [if_pos hfailed]
    exact .ret _ _
  · obtain ⟨prepared, hruns, hjournal, hsettings, rfl⟩ := runs_onBlobs .erase hblobs
    rw [← hsettings] at hdevice
    by_cases hfailed : (f state.device).1 ≠ .none
    · rw [if_pos hfailed]
      refine ⟨prepared, (runs_askResult .none world).bind (hruns.bind ?_), hjournal.trans hshows.journal, hdevice⟩
      rw [if_pos hfailed]
      exact .ret _ _
    · rw [if_neg hfailed]
      obtain ⟨after, hafter, hdone⟩ := hrest prepared { state with device := (f state.device).2 }
        ⟨hjournal.trans hshows.journal, hdevice⟩
      refine ⟨after, (runs_askResult .none world).bind (hruns.bind ?_), hdone⟩
      rw [if_neg hfailed]
      exact hafter

/-- The operations of the recovery do what its steps may do. -/
structure Recovers (R : StandsFor Δ) (operations : RecoveryOps Δ) : Prop where
  settingsInit : OnStore R openStore operations.settingsInit
  settings : OnSettings R .factoryReset operations.eraseSettings
  settingsDeinit : OnStore R closeStore operations.settingsDeinit
  mount : Mounts R operations.storageMount
  blobs : OnBlobs R blobDeleteAll operations.deleteBlobs
  temporary : OnBlobs R recoverStartup operations.cleanupTemporaryFiles
  unmount : Answers R operations.storageUnmount

theorem simulates_recoverSettings {operations : RecoveryOps Δ} (h : Recovers R operations) :
    Simulates R recoverSettingsSteps (recoverSettings operations) := by
  refine (simulates_settingsInit .erase h.settingsInit).bind fun initialized => ?_
  by_cases hinitialized : initialized ≠ .none
  · rw [if_pos hinitialized, if_pos hinitialized]
    exact simulates_pure _
  · rw [if_neg hinitialized, if_neg hinitialized]
    exact (simulates_settings .erase h.settings).bind fun _ =>
      (simulates_settingsDeinit h.settingsDeinit).bind fun _ => simulates_pure _

theorem simulates_recoverStorage {operations : RecoveryOps Δ} (h : Recovers R operations) :
    Simulates R recoverStorageSteps (recoverStorage operations) :=
  simulates_mount h.mount <| (simulates_blobs .erase h.blobs).bind fun _ =>
    (simulates_blobs .erase h.temporary).bind fun _ => (simulates_answer h.unmount).bind fun _ => simulates_pure _

theorem simulates_performReset {operations : RecoveryOps Δ} (h : Recovers R operations) :
    Simulates R
      (recoverSettingsSteps.bind fun settings =>
        if settings ≠ .none then pure settings
        else recoverStorageSteps.bind fun storage =>
          if storage ≠ .none then pure storage else onJournal .erase factoryResetStateClear)
      (RecoveryOutcome.error <$> performReset operations) := by
  unfold performReset
  rw [map_bind]
  refine (simulates_recoverSettings h).bind fun settings => ?_
  by_cases hsettings : settings ≠ .none
  · rw [if_pos hsettings, if_pos hsettings]
    exact simulates_pure _
  · rw [if_neg hsettings, if_neg hsettings, map_bind]
    refine (simulates_recoverStorage h).bind fun storage => ?_
    by_cases hstorage : storage ≠ .none
    · rw [if_pos hstorage, if_pos hstorage]
      exact simulates_pure _
    · rw [if_neg hstorage, if_neg hstorage]
      exact simulates_journal .erase factoryResetStateClear operations.clearPending

/-- The recovery engine alone takes the steps of a recovery. -/
theorem recovery_runs {operations : RecoveryOps Δ} (h : Recovers R operations) :
    Simulates R recoverySteps (RecoveryOutcome.error <$> factoryResetRecoveryRun operations) := by
  intro world state hshows
  have hread : Runs readJournal world (factoryResetStateRead operations.readState world.journal) world :=
    .act { quietResetCalls with journal := operations.readState } (.ret _ _)
  have hrun : (RecoveryOutcome.error <$> factoryResetRecoveryRun operations) state =
      ((factoryResetRecoveryRun operations state).1.error, (factoryResetRecoveryRun operations state).2) := rfl
  rw [hshows.journal] at hread
  rw [hrun, factoryResetRecoveryRun]
  cases hstate : factoryResetStateRead operations.readState state.journal with
  | error error =>
    rw [hstate] at hread
    exact ⟨world, hread.bind (.ret _ _), hshows⟩
  | ok marker =>
    rw [hstate] at hread
    cases marker with
    | none => exact ⟨world, hread.bind (.ret _ _), hshows⟩
    | pending =>
      obtain ⟨after, hafter, hdone⟩ := simulates_performReset h world state hshows
      exact ⟨after, hread.bind hafter, hdone⟩

end Engines

section Boot

open Blobs.StoreRuns Blobs.Erasure Blobs.Recovery Blobs.Requests BootErasure

/-- The device of a boot with its stores, of which a closed one holds nothing in memory. -/
structure BootStandsFor (device : BootDevice) (store : Store) (blobs : BlobStore) : Prop where
  settings : device.settings = store
  closed : store.nvs.handleOpen = false → store = closedStore store.nvs.record
  directory : device.repository.directory = blobs.directory
  persistedNextId : device.persistedNextId = blobs.persistedNextId
  shortNames : ShortNames blobs.directory

theorem replaceRecordAtomic_open (record : List UInt8) {nvs : Nvs} (hopen : nvs.handleOpen = true) :
    (nvs.replaceRecordAtomic quietCalls record).2.handleOpen = true := by
  unfold Nvs.replaceRecordAtomic quietCalls
  split
  · exact hopen
  · exact hopen

/-- Without a fault the handle of an open store stays open. -/
theorem replace_open (candidate : DeviceSettings) {store : Store} (hopen : store.nvs.handleOpen = true) :
    (store.replace quietCalls candidate).store.nvs.handleOpen = true := by
  have hload : (store.load quietCalls).store.nvs.handleOpen = true := by rw [load_nvs, hopen]
  have hatomic := replaceRecordAtomic_open (encodeSettings candidate).2 hload
  unfold Store.replace
  generalize store.load quietCalls = loaded at hload hatomic
  dsimp only
  generalize loaded.store.nvs.replaceRecordAtomic quietCalls (encodeSettings candidate).2 = replaced at hatomic
  split_ifs
  · exact hload
  · exact hload
  · exact hload
  · exact hload
  · split <;> exact hatomic

theorem factoryReset_store (calls : StoreCalls) (store : Store) :
    (perform calls .factoryReset store).store = (store.replace calls .initUnprovisioned).store := rfl

/-- The erasure does nothing to a closed store. -/
theorem factoryReset_closed (record : Option (List UInt8)) :
    (perform quietCalls .factoryReset (closedStore record)).store = closedStore record := by
  have hload : (closedStore record).load quietCalls = ⟨.invalidArgument, none, none, closedStore record⟩ := rfl
  have hfailed : AppError.invalidArgument ≠ .none := by decide
  have hreplace : (closedStore record).replace quietCalls .initUnprovisioned =
      ⟨.invalidArgument, none, some false, closedStore record⟩ := by
    rw [Store.replace, hload]
    exact if_pos hfailed
  rw [factoryReset_store, hreplace]

theorem bootSettings (order : ReadingOrder) : OnSettings BootStandsFor .factoryReset (bootRecovery order).eraseSettings := by
  rintro device _ blobs ⟨rfl, hclosed, hdirectory, hnextId, hnames⟩
  refine ⟨quietCalls, rfl, rfl, ?_, hdirectory, hnextId, hnames⟩
  cases hopen : device.settings.nvs.handleOpen with
  | true =>
    have hkept := replace_open .initUnprovisioned hopen
    rw [factoryReset_store, hkept]
    exact fun hshut => absurd hshut.symm Bool.false_ne_true
  | false =>
    have herased : (perform quietCalls .factoryReset device.settings).store = device.settings := by
      have hstore := hclosed hopen
      generalize device.settings.nvs.record = record at hstore
      rw [hstore, factoryReset_closed]
    rw [herased]
    exact hclosed

theorem bootInit (order : ReadingOrder) : OnStore BootStandsFor openStore (bootRecovery order).settingsInit := by
  rintro device _ blobs ⟨rfl, hclosed, hdirectory, hnextId, hnames⟩
  refine ⟨quietResetCalls, ?_⟩
  have hresult : ¬ quietResetCalls.result ≠ .none := not_not_intro rfl
  have hquiet : quietResetCalls.store = quietCalls := rfl
  dsimp only [bootRecovery, BootDevice.settingsInit, openStore]
  rw [if_neg hresult, hquiet]
  cases hopen : device.settings.nvs.handleOpen with
  | true => exact ⟨rfl, rfl, hclosed, hdirectory, hnextId, hnames⟩
  | false =>
    rw [if_neg Bool.false_ne_true, if_neg Bool.false_ne_true]
    by_cases hfailed : ((Store.start device.settings.nvs.record).load quietCalls).error ≠ .none
    · rw [if_pos hfailed, if_pos hfailed]
      exact ⟨rfl, (hclosed hopen).symm, hclosed, hdirectory, hnextId, hnames⟩
    · rw [if_neg hfailed, if_neg hfailed]
      refine ⟨rfl, rfl, ?_, hdirectory, hnextId, hnames⟩
      intro hshut
      have hkept : ((Store.start device.settings.nvs.record).load quietCalls).store.nvs.handleOpen = true :=
        congrArg Nvs.handleOpen (load_nvs quietCalls (Store.start device.settings.nvs.record))
      rw [hkept] at hshut
      cases hshut

theorem bootDeinit (order : ReadingOrder) : OnStore BootStandsFor closeStore (bootRecovery order).settingsDeinit := by
  rintro device _ blobs ⟨rfl, -, hdirectory, hnextId, hnames⟩
  exact ⟨quietResetCalls, rfl, rfl, fun _ => rfl, hdirectory, hnextId, hnames⟩

theorem storageBlobDeleteAll_eq (failures : Failures) (reading : DirectoryReading) {blobs : BlobStore}
    (hreading : reading.directory = blobs.directory) :
    (storageBlobDeleteAll failures.scanCalls failures none reading blobs).1 = (deleteAllWithOps failures reading).1 ∧
      (storageBlobDeleteAll failures.scanCalls failures none reading blobs).2.directory =
        (deleteAllWithOps failures reading).2.2 ∧
      (storageBlobDeleteAll failures.scanCalls failures none reading blobs).2.persistedNextId = blobs.persistedNextId := by
  unfold storageBlobDeleteAll deleteAllWithOps
  rw [hreading]
  dsimp only
  rw [if_neg (fun h => Bool.false_ne_true h.2.1)]
  exact ⟨rfl, rfl, rfl⟩

theorem bootDelete (order : ReadingOrder) : OnBlobs BootStandsFor blobDeleteAll (bootRecovery order).deleteBlobs := by
  rintro device _ blobs ⟨rfl, hclosed, hdirectory, hnextId, hnames⟩
  have hreading : (device.repository.reading order).directory = blobs.directory := hdirectory
  obtain ⟨hresult, hafter, hcounter⟩ := storageBlobDeleteAll_eq noFailures (device.repository.reading order) hreading
  have hruns := blobDeleteAll_runs noFailures.scanCalls noFailures none (device.repository.reading order) hreading hnames
  rw [hresult] at hruns
  refine ⟨_, hruns, rfl, hclosed, hafter.symm, hnextId.trans hcounter.symm, ?_⟩
  rw [hafter]
  rw [← hdirectory] at hnames
  exact hnames.within deleteAllWithOps_part

/-- A recovery without a fault takes the temporary files away. -/
theorem recover_boot (order : ReadingOrder) (device : BootDevice) :
    recoverWithOps recoverCalls (device.repository.reading order) =
      (.none, (device.cleanupTemporaryFiles order).2.repository.directory,
        (recoverWithOps recoverCalls (device.repository.reading order)).2.2) := by
  have hnone := (cleanup_recovered order device).1
  exact Prod.ext hnone rfl

theorem bootCleanup (order : ReadingOrder) :
    OnBlobs BootStandsFor recoverStartup (bootRecovery order).cleanupTemporaryFiles := by
  rintro device _ blobs ⟨rfl, hclosed, hdirectory, hnextId, hnames⟩
  have hreading : (device.repository.reading order).directory = blobs.directory := hdirectory
  rw [← hreading] at hnames
  have hruns := recoverStartup_runs (recover_boot order device) hnames hreading
  rw [← (cleanup_recovered order device).1] at hruns
  exact ⟨_, hruns, rfl, hclosed, rfl, hnextId, hnames.within recoverWithOps_part⟩

theorem bootMount (order : ReadingOrder) : Mounts BootStandsFor (bootRecovery order).storageMount := by
  rintro device _ blobs ⟨rfl, hclosed, hdirectory, hnextId, hnames⟩
  have hreading : (device.repository.reading order).directory = blobs.directory := hdirectory
  rw [← hreading] at hnames
  obtain ⟨scanState, hruns, -⟩ := startup_runs (recover_boot order device) .working
    ((device.cleanupTemporaryFiles order).2.repository.reading order) rfl hreading hnames
  rw [← hnextId] at hruns
  right
  dsimp only [bootRecovery]
  rw [storageMount_eq]
  exact ⟨_, hruns, rfl, hclosed, rfl, rfl, hnames.within recoverWithOps_part⟩

theorem bootRecovery_recovers (order : ReadingOrder) : Recovers BootStandsFor (bootRecovery order) where
  settingsInit := bootInit order
  settings := bootSettings order
  settingsDeinit := bootDeinit order
  mount := bootMount order
  blobs := bootDelete order
  temporary := bootCleanup order
  unmount := fun _ _ _ h => h

/-- A reset in which every operation on the stores and the files succeeds. -/
def quietReset (order : ReadingOrder) : ResetOps BootDevice where
  markFactoryResetPending := quietJournal
  eraseAllSettings := BootDevice.eraseSettings
  invalidateAllSessions device := (.none, device)
  deleteAllBlobs := BootDevice.deleteBlobs order
  cleanupTemporaryFiles := BootDevice.cleanupTemporaryFiles order
  scheduleRestart device := (.none, device)
  clearFactoryResetPending := quietJournal

theorem quietReset_performs (order : ReadingOrder) : Performs BootStandsFor (quietReset order) where
  settings := bootSettings order
  sessions := fun _ _ _ h => h
  blobs := bootDelete order
  temporary := bootCleanup order
  restart := fun _ _ _ h => h

theorem quietReset_runs (order : ReadingOrder) :
    Simulates BootStandsFor factoryResetSteps (deviceControlsFactoryReset (quietReset order)) :=
  factoryReset_runs (quietReset_performs order)

/-- The recovery of a boot without a fault is one step by step. -/
theorem bootRecovery_runs (order : ReadingOrder) :
    Simulates BootStandsFor recoverySteps (RecoveryOutcome.error <$> factoryResetRecoveryRun (bootRecovery order)) :=
  recovery_runs (bootRecovery_recovers order)

end Boot

end MacroKeyboard.Reset.Interruptions
