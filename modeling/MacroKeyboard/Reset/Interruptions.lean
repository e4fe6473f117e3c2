import MacroKeyboard.Reset.BootRecovery
import MacroKeyboard.Reset.ErasedFiles
import MacroKeyboard.Threads.Restarts

namespace MacroKeyboard.Reset.Interruptions

open Settings Settings.Coherence Settings.Codec Blobs Threads.Program Threads.Restarts ErasedFiles

/-- What is stored: the journal, the settings and the files. -/
structure Snapshot where
  journal : Journal
  record : Option (List UInt8)
  directory : Directory

/-- What a step is part of: the first one of a reset, the others of a reset or of its
recovery, the opening of the services, a loss of power, or something else. -/
inductive Stage
  | mark | erase | opening | restart | ordinary
deriving DecidableEq, Repr

structure Transition where
  stage : Stage
  before : Snapshot
  after : Snapshot

/-- The stores of a device, with every step that was taken on them. -/
structure ResetWorld where
  journal : Journal
  settings : Store
  blobs : BlobStore
  serving : Bool
  history : List Transition

namespace ResetWorld

def snapshot (world : ResetWorld) : Snapshot := ⟨world.journal, world.settings.nvs.record, world.blobs.directory⟩

def noted (stage : Stage) (before after : ResetWorld) : ResetWorld :=
  { after with history := before.history ++ [⟨stage, before.snapshot, after.snapshot⟩] }

end ResetWorld

/-- What the tasks do with the stores besides a factory reset. -/
inductive StoreRequest
  | settings (operation : Operation)
  | blobList
  | blobCreate (contentLength : Nat) (received : List Received)
  | blobDelete (blobId : Nat)

/-- What the calls below one step report, and what is asked of the device. -/
structure ResetCalls where
  journal : JournalCalls
  store : StoreCalls
  files : FileCalls
  result : AppError
  closed : Bool
  resetRequested : Bool
  request : StoreRequest

abbrev ResetProg (α : Type) : Type 1 := Prog ResetWorld ResetCalls α

section Operations

variable {α : Type}

def operation (stage : Stage) (f : ResetCalls → ResetWorld → α × ResetWorld) : ResetProg α :=
  .atomic fun calls world => ((f calls world).1, world.noted stage (f calls world).2)

def onJournal (stage : Stage) (transaction : JournalCalls → Journal → AppError × Journal) : ResetProg AppError :=
  operation stage fun calls world =>
    ((transaction calls.journal world.journal).1, { world with journal := (transaction calls.journal world.journal).2 })

def onBlobs (stage : Stage) (p : BlobProg α) : ResetProg α :=
  p.zoom ResetCalls.files ResetWorld.blobs (fun blobs world => world.noted stage { world with blobs })

def readJournal : ResetProg (Except AppError FactoryResetState) :=
  .atomic fun calls world => (factoryResetStateRead calls.journal world.journal, world)

def askResult : ResetProg AppError := .ask (fun calls => calls.result)

def onSettings (stage : Stage) (settingsOperation : Operation) : ResetProg AppError :=
  operation stage fun calls world =>
    ((perform calls.store settingsOperation world.settings).error,
      { world with settings := (perform calls.store settingsOperation world.settings).store })

/-- `device_settings_init`, whose mutex or handle may not be there. -/
def openSettings (calls : ResetCalls) (world : ResetWorld) : AppError × ResetWorld :=
  if world.settings.nvs.handleOpen then (.conflict, world)
  else if calls.result ≠ .none then (calls.result, world)
  else
    let loaded := (Store.start world.settings.nvs.record).load calls.store
    if loaded.error ≠ .none then (loaded.error, world) else (.none, { world with settings := loaded.store })

def settingsInit (stage : Stage) : ResetProg AppError := operation stage openSettings

/-- `device_settings_deinit`, which may fail before or after the store is closed. -/
def closeSettings (calls : ResetCalls) (world : ResetWorld) : AppError × ResetWorld :=
  (calls.result,
    if calls.result = .none ∨ calls.closed then { world with settings := closedStore world.settings.nvs.record }
    else world)

def settingsDeinit : ResetProg AppError := operation .erase closeSettings

end Operations

section Reset

/-- The stages behind a settings erasure that succeeded, with the first error. -/
def eraseRest : ResetProg AppError := do
  let sessions ← askResult
  let blobs ← onBlobs .erase blobDeleteAll
  let temporary ← onBlobs .erase recoverStartup
  pure (recordFirstError temporary (recordFirstError blobs sessions))

/-- `device_controls_reset_engine_factory_reset`, each stage with its own steps. -/
def factoryResetSteps : ResetProg FactoryResetOutcome := do
  let marked ← onJournal .mark factoryResetStateMarkPending
  if marked ≠ .none then pure ⟨false, false, marked⟩
  else
    let erased ← onSettings .erase .factoryReset
    let firstError ← if erased = .none then eraseRest else pure erased
    let restart ← askResult
    if recordFirstError restart firstError ≠ .none then pure ⟨true, true, recordFirstError restart firstError⟩
    else
      let cleared ← onJournal .erase factoryResetStateClear
      pure ⟨true, cleared ≠ .none, cleared⟩

def recoverSettingsSteps : ResetProg AppError := do
  let initialized ← settingsInit .erase
  if initialized ≠ .none then pure initialized
  else
    let erased ← onSettings .erase .factoryReset
    let deinitialized ← settingsDeinit
    pure (recordFirstError deinitialized erased)

/-- The stages of the recovery on the files. -/
def recoverStorageSteps : ResetProg AppError := do
  let mounted ← askResult
  if mounted ≠ .none then pure mounted
  else
    let prepared ← onBlobs .erase prepareDirectories
    if prepared ≠ .none then pure prepared
    else
      let deleted ← onBlobs .erase blobDeleteAll
      let cleaned ← onBlobs .erase recoverStartup
      let unmounted ← askResult
      pure (recordFirstError unmounted (recordFirstError cleaned deleted))

/-- `factory_reset_recovery_engine_run`, each stage with its own steps. -/
def recoverySteps : ResetProg AppError := do
  match ← readJournal with
  | .error error => pure error
  | .ok .none => pure .none
  | .ok .pending =>
    let settings ← recoverSettingsSteps
    if settings ≠ .none then pure settings
    else
      let storage ← recoverStorageSteps
      if storage ≠ .none then pure storage else onJournal .erase factoryResetStateClear

end Reset

section Tasks

/-- The startup up to the opening of the services, which it reaches only without an
error. -/
def startup : ResetProg Unit := do
  let recovered ← recoverySteps
  if recovered ≠ .none then pure ()
  else
    let initialized ← settingsInit .ordinary
    if initialized ≠ .none then pure ()
    else
      let mounted ← askResult
      if mounted ≠ .none then pure ()
      else
        let prepared ← onBlobs .ordinary prepareDirectories
        if prepared ≠ .none then pure ()
        else operation .opening fun _ world => ((), { world with serving := true })

def serveStoreRequest : StoreRequest → ResetProg Unit
  | .settings settingsOperation => do
    let _ ← onSettings .ordinary settingsOperation
    pure ()
  | .blobList => do
    let _ ← onBlobs .ordinary blobList
    pure ()
  | .blobCreate contentLength received => do
    let _ ← onBlobs .ordinary (blobCreate contentLength received)
    pure ()
  | .blobDelete blobId => do
    let _ ← onBlobs .ordinary (blobDelete blobId)
    pure ()

def askRequest : ResetProg StoreRequest := .ask (fun calls => calls.request)

/-- The task that serves the factory resets among other requests: the worker of the
server, or the server where no confirmation is asked for. The request has got through
the guard before it comes to the worker. -/
def resetTask : ResetProg Unit :=
  .repeatUntil do
    let serving ← .read (fun world => world.serving)
    if ¬ serving then pure none
    else
      let resetRequested ← .ask (fun calls => calls.resetRequested)
      if resetRequested then
        let _ ← factoryResetSteps
        pure none
      else
        let request ← askRequest
        serveStoreRequest request
        pure none

/-- Another task of the server, whose requests go through `reset_guarded_request`. -/
def guardedTask : ResetProg Unit :=
  .repeatUntil do
    let serving ← .read (fun world => world.serving)
    if ¬ serving then pure none
    else
      match ← readJournal with
      | .error _ | .ok .pending => pure none
      | .ok .none =>
        let request ← askRequest
        serveStoreRequest request
        pure none

/-- The console, which runs from before the recovery on, and the setup. -/
def unguardedTask : ResetProg Unit :=
  .repeatUntil do
    let request ← askRequest
    serveStoreRequest request
    pure none

inductive ResetThread : Nat → ResetProg Unit → Prop
  | startup : ResetThread 0 startup
  | reset : ResetThread 1 resetTask
  | guarded {i : Nat} (h : 2 ≤ i) : ResetThread i guardedTask
  | unguarded {i : Nat} (h : 2 ≤ i) : ResetThread i unguardedTask

def resetSystem : System ResetWorld ResetCalls where
  mayStart := ResetThread
  stopped _ := false

end Tasks

/-- Whatever is stored when the device is switched on first. -/
structure SwitchedOn (world : ResetWorld) : Prop where
  settings : world.settings = closedStore world.settings.nvs.record
  serving : world.serving = false
  history : world.history = []

/-- A loss of power, or a restart: what is in memory goes, and what is stored stays, but
perhaps a file that was not renamed yet. -/
structure PowerCycled (before after : ResetWorld) : Prop where
  journal : after.journal = before.journal
  settings : after.settings = closedStore before.settings.nvs.record
  blobs : ∀ name, parseTemporaryFilename name = none →
    after.blobs.directory.lookup name = before.blobs.directory.lookup name
  counter : after.blobs.persistedNextId = before.blobs.persistedNextId
  serving : after.serving = false
  history : after.history = before.history ++ [⟨.restart, before.snapshot, after.snapshot⟩]

abbrev ResetRun : Config ResetWorld ResetCalls → Prop := Lifetime resetSystem SwitchedOn PowerCycled

section Properties

def Unprovisioned (record : Option (List UInt8)) : Prop :=
  ∃ stored, storedSettings record = some stored ∧ SameSettings stored .initUnprovisioned

structure Snapshot.Erased (snapshot : Snapshot) : Prop where
  settings : Unprovisioned snapshot.record
  blobs : NoBlobs snapshot.directory
  temporaryFiles : NoTemporaryFiles snapshot.directory

def Transition.Changes (transition : Transition) : Prop :=
  transition.after.record ≠ transition.before.record ∨ transition.after.directory ≠ transition.before.directory

instance (transition : Transition) : Decidable transition.Changes :=
  decidable_of_iff (transition.after.record ≠ transition.before.record ∨
      transition.after.directory.entries ≠ transition.before.directory.entries)
    (or_congr_right (not_congr AList.ext_iff.symm))

/-- Since the marker was written, or else since the last restart, something besides the
reset has changed the settings or the files. -/
def disturbed (history : List Transition) : Bool :=
  history.foldl
    (fun disturbed transition =>
      match transition.stage with
      | .mark | .restart => false
      | .erase | .opening => disturbed
      | .ordinary => disturbed || decide transition.Changes) false

/-- What the protocol promises of a step, after these steps. -/
structure Transition.Proper (earlier : List Transition) (transition : Transition) : Prop where
  /-- a reset and a recovery erase only with the marker written -/
  erases : transition.stage = .erase → transition.before.journal = some factoryResetStatePending
  /-- a reset that is not accepted and the opening change neither the settings nor the files -/
  keeps : transition.stage = .mark ∨ transition.stage = .opening → ¬ transition.Changes
  /-- the marker goes only where everything is erased and no one has interfered -/
  clears : transition.before.journal ≠ none → transition.after.journal = none →
    transition.stage = .erase ∧ (transition.after.Erased ∨ disturbed earlier = true)
  /-- it is written only by a reset -/
  marks : transition.before.journal = none → transition.after.journal ≠ none →
    transition.stage = .mark ∧ transition.after.journal = some factoryResetStatePending
  /-- the services open only without a marker -/
  opens : transition.stage = .opening → transition.before.journal = none

def ProperHistory (history : List Transition) : Prop :=
  ∀ earlier transition later, history = earlier ++ transition :: later → transition.Proper earlier

/-- Each step goes on where the one before it ended, up to the present state. -/
structure Continuous (world : ResetWorld) : Prop where
  chained : world.history.IsChain (fun earlier later => later.before = earlier.after)
  current : ∀ transition ∈ world.history.getLast?, transition.after = world.snapshot

end Properties

end MacroKeyboard.Reset.Interruptions
