import MacroKeyboard.Web.JsonBody
import MacroKeyboard.Settings.Store

namespace MacroKeyboard.Reset

open Settings Web

def factoryResetStatePending : UInt8 := 1

inductive FactoryResetState
  | none | pending
deriving DecidableEq, Repr

/-- What the NVS calls of one transaction on the journal report. A value whose
write fails may have reached the flash all the same. -/
structure JournalCalls where
  opened : Option NvsFault
  accessed : Option NvsFault
  committed : Option NvsFault
  persisted : Bool
deriving DecidableEq, Repr

abbrev Journal := Option UInt8

section Journal

def JournalCalls.fault (calls : JournalCalls) : Option NvsFault := calls.accessed.or calls.committed

def adapterWriteValue (calls : JournalCalls) (value : UInt8) (journal : Journal) : AppError × Journal :=
  match calls.fault with
  | none => (.none, some value)
  | some fault => (mapNvsError fault, if calls.persisted then some value else journal)

def adapterEraseValue (calls : JournalCalls) (journal : Journal) : AppError × Journal :=
  match calls.accessed, journal with
  | none, none => (.none, none)
  | _, _ =>
    match calls.fault with
    | none => (.none, none)
    | some fault => (mapNvsError fault, if calls.persisted then none else journal)

def factoryResetStateRead (calls : JournalCalls) (journal : Journal) : Except AppError FactoryResetState :=
  match calls.opened, calls.accessed, journal with
  | some fault, _, _ | none, some fault, _ => .error (mapNvsError fault)
  | none, none, none => .ok .none
  | none, none, some stored => if stored ≠ factoryResetStatePending then .error .storageCorrupt else .ok .pending

def factoryResetStateMarkPending (calls : JournalCalls) (journal : Journal) : AppError × Journal :=
  match calls.opened with
  | some fault => (mapNvsError fault, journal)
  | none => adapterWriteValue calls factoryResetStatePending journal

def factoryResetStateClear (calls : JournalCalls) (journal : Journal) : AppError × Journal :=
  match calls.opened with
  | some fault => (mapNvsError fault, journal)
  | none => adapterEraseValue calls journal

end Journal

structure ResetState (Δ : Type) where
  journal : Journal
  device : Δ
deriving DecidableEq, Repr

variable {Δ : Type}

def onJournal (transaction : Journal → AppError × Journal) : StateM (ResetState Δ) AppError := fun state =>
  ((transaction state.journal).1, { state with journal := (transaction state.journal).2 })

def onDevice (operation : Δ → AppError × Δ) : StateM (ResetState Δ) AppError := fun state =>
  ((operation state.device).1, { state with device := (operation state.device).2 })

def recordFirstError (candidate firstError : AppError) : AppError :=
  if candidate ≠ .none ∧ firstError = .none then candidate else firstError

section Engine

/-- The operations of the reset engine; those on the journal with what their calls
report. -/
structure ResetOps (Δ : Type) where
  markFactoryResetPending : JournalCalls
  eraseAllSettings : Δ → AppError × Δ
  invalidateAllSessions : Δ → AppError × Δ
  deleteAllBlobs : Δ → AppError × Δ
  cleanupTemporaryFiles : Δ → AppError × Δ
  scheduleRestart : Δ → AppError × Δ
  clearFactoryResetPending : JournalCalls

structure FactoryResetOutcome where
  durablyAccepted : Bool
  recoveryRequired : Bool
  primaryError : AppError
deriving DecidableEq, Repr

/-- The stages behind a settings erasure that succeeded, with the first error. -/
def eraseRest (operations : ResetOps Δ) : StateM (ResetState Δ) AppError := do
  let sessions ← onDevice operations.invalidateAllSessions
  let blobs ← onDevice operations.deleteAllBlobs
  let temporary ← onDevice operations.cleanupTemporaryFiles
  pure (recordFirstError temporary (recordFirstError blobs sessions))

/-- The stages of the reset once the marker is written, with the first error. -/
def resetStages (operations : ResetOps Δ) : StateM (ResetState Δ) AppError := do
  let erased ← onDevice operations.eraseAllSettings
  let firstError ← if erased = .none then eraseRest operations else pure erased
  let restart ← onDevice operations.scheduleRestart
  let firstError := recordFirstError restart firstError
  if firstError ≠ .none then pure firstError
  else onJournal (factoryResetStateClear operations.clearFactoryResetPending)

/-- `device_controls_reset_engine_factory_reset`. -/
def deviceControlsFactoryReset (operations : ResetOps Δ) : StateM (ResetState Δ) FactoryResetOutcome := do
  let marked ← onJournal (factoryResetStateMarkPending operations.markFactoryResetPending)
  if marked ≠ .none then pure ⟨false, false, marked⟩
  else
    let firstError ← resetStages operations
    pure ⟨true, firstError ≠ .none, firstError⟩

end Engine

section Route

inductive WebDeviceFactoryResetResult
  | ok | recoveryRequired | invalidBody | invalidConfirmation | incorrectPassword | backendUnavailable | internal
deriving DecidableEq, Repr

structure WebDeviceFactoryResetOutcome where
  result : WebDeviceFactoryResetResult
  detail : AppError
deriving DecidableEq, Repr

def factoryResetBackendOutcome (reset : FactoryResetOutcome) : WebDeviceFactoryResetOutcome :=
  if ¬ reset.durablyAccepted then
    if reset.recoveryRequired ∨ reset.primaryError = .none then ⟨.internal, .internal⟩
    else ⟨.backendUnavailable, reset.primaryError⟩
  else if reset.recoveryRequired then
    if reset.primaryError = .none then ⟨.internal, .internal⟩ else ⟨.recoveryRequired, reset.primaryError⟩
  else if reset.primaryError ≠ .none then ⟨.internal, .internal⟩
  else ⟨.ok, .none⟩

def adminPasswordField : List UInt8 := MacroKeyboard.bytes "adminPassword"
def confirmationField : List UInt8 := MacroKeyboard.bytes "confirmation"
def factoryResetConfirmation : List UInt8 := MacroKeyboard.bytes "FACTORY RESET"

/-- A request with what the operations before the reset report. -/
structure FactoryResetCall (Δ : Type) where
  body : List UInt8
  responseEncoded : Bool
  settingsRead : Except AppError DeviceSettings
  passwordVerify : List UInt8 → DeviceSettings → Except AppError Bool
  operations : ResetOps Δ

/-- The checks of `web_device_factory_reset_handle` before the reset; none when
they all pass. -/
def factoryResetRefusal (parse : CJsonParse) (call : FactoryResetCall Δ) : Option WebDeviceFactoryResetOutcome :=
  match parseExactBody parse (call.body.length + 1) call.body with
  | some (.object members) =>
    if ¬ exactFields [adminPasswordField, confirmationField] members then some ⟨.invalidBody, .none⟩
    else
      match stringViewFromItem (getObjectItem members confirmationField),
        stringViewFromItem (getObjectItem members adminPasswordField) with
      | some confirmation, some password =>
        if confirmation ≠ factoryResetConfirmation then some ⟨.invalidConfirmation, .none⟩
        else
          match call.settingsRead with
          | .error error => some ⟨.backendUnavailable, error⟩
          | .ok current =>
            match call.passwordVerify password current with
            | .error error => some ⟨.backendUnavailable, error⟩
            | .ok false => some ⟨.incorrectPassword, .none⟩
            | .ok true => none
      | _, _ => some ⟨.invalidBody, .none⟩
  | _ => some ⟨.invalidBody, .none⟩

def webDeviceFactoryResetHandle (parse : CJsonParse) (call : FactoryResetCall Δ) :
    StateM (ResetState Δ) WebDeviceFactoryResetOutcome := do
  match factoryResetRefusal parse call with
  | some refusal => pure refusal
  | none =>
    let reset ← deviceControlsFactoryReset call.operations
    pure (factoryResetBackendOutcome reset)

inductive FactoryResetAnswer
  | accepted
  | refused (code : AppError) (message : String) (field : Option String)
deriving DecidableEq, Repr

def factoryResetAnswer (outcome : WebDeviceFactoryResetOutcome) : FactoryResetAnswer :=
  match outcome.result with
  | .ok | .recoveryRequired => .accepted
  | .invalidBody => .refused .invalidArgument "invalid factory-reset request" none
  | .invalidConfirmation => .refused .invalidArgument "incorrect confirmation phrase" (some "confirmation")
  | .incorrectPassword => .refused .authFailed "incorrect administrator password" (some "adminPassword")
  | .backendUnavailable => .refused outcome.detail "factory-reset unavailable" none
  | .internal => .refused .internal "factory-reset failed" none

def handleDeviceFactoryReset (parse : CJsonParse) (call : FactoryResetCall Δ) :
    StateM (ResetState Δ) FactoryResetAnswer := do
  if call.body.length = 0 then pure (.refused .invalidArgument "invalid factory-reset request" none)
  else if ¬ call.responseEncoded then pure (.refused .internal "response encoding failed" none)
  else
    let outcome ← webDeviceFactoryResetHandle parse call
    pure (factoryResetAnswer outcome)

end Route

section Recovery

/-- The operations of the recovery engine; those on the journal with what their
calls report. -/
structure RecoveryOps (Δ : Type) where
  readState : JournalCalls
  settingsInit : Δ → AppError × Δ
  eraseSettings : Δ → AppError × Δ
  settingsDeinit : Δ → AppError × Δ
  storageMount : Δ → AppError × Δ
  deleteBlobs : Δ → AppError × Δ
  cleanupTemporaryFiles : Δ → AppError × Δ
  storageUnmount : Δ → AppError × Δ
  clearPending : JournalCalls

structure RecoveryOutcome where
  error : AppError
  recovered : Bool
deriving DecidableEq, Repr

def recoverSettings (operations : RecoveryOps Δ) : StateM (ResetState Δ) AppError := do
  let initialized ← onDevice operations.settingsInit
  if initialized ≠ .none then pure initialized
  else
    let erased ← onDevice operations.eraseSettings
    let deinitialized ← onDevice operations.settingsDeinit
    pure (recordFirstError deinitialized erased)

def recoverStorage (operations : RecoveryOps Δ) : StateM (ResetState Δ) AppError := do
  let mounted ← onDevice operations.storageMount
  if mounted ≠ .none then pure mounted
  else
    let deleted ← onDevice operations.deleteBlobs
    let cleaned ← onDevice operations.cleanupTemporaryFiles
    let unmounted ← onDevice operations.storageUnmount
    pure (recordFirstError unmounted (recordFirstError cleaned deleted))

/-- The stages of `factory_reset_recovery_engine_run` with a reset pending. -/
def performReset (operations : RecoveryOps Δ) : StateM (ResetState Δ) RecoveryOutcome := do
  let settings ← recoverSettings operations
  if settings ≠ .none then pure ⟨settings, false⟩
  else
    let storage ← recoverStorage operations
    if storage ≠ .none then pure ⟨storage, false⟩
    else
      let cleared ← onJournal (factoryResetStateClear operations.clearPending)
      pure ⟨cleared, cleared = .none⟩

/-- `factory_reset_recovery_engine_run`. -/
def factoryResetRecoveryRun (operations : RecoveryOps Δ) : StateM (ResetState Δ) RecoveryOutcome := fun state =>
  match factoryResetStateRead operations.readState state.journal with
  | .error error => (⟨error, false⟩, state)
  | .ok .none => (⟨.none, false⟩, state)
  | .ok .pending => performReset operations state

end Recovery

end MacroKeyboard.Reset
