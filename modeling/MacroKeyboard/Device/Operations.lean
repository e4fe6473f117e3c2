import MacroKeyboard.Device.World

namespace MacroKeyboard.Device

open Settings Settings.Coherence Auth Blobs Threads.Program

variable (derive : Derivation)

section Settings

def deviceSettingsRead (calls : Surroundings) (device : DeviceState) : Except AppError DeviceSettings × DeviceState :=
  let outcome := device.settings.load calls.store
  (if outcome.error ≠ .none then .error outcome.error else .ok (outcome.outSettings.getD .zero),
    { device with settings := outcome.store })

/-- What is recorded of an operation that writes, for a request that names these
fields. -/
def settingsWrite (names : SettingsField → Bool) (read : Option DeviceSettings) (operation : Operation)
    (calls : Surroundings) (device : DeviceState) : SettingsWrite :=
  { names, read
    target := operation.target (device.settings.load calls.store).store.core.current
    before := device.stored
    after := storedSettings (perform calls.store operation device.settings).store.nvs.record
    error := (perform calls.store operation device.settings).error }

def deviceSettingsWrite (names : SettingsField → Bool) (read : Option DeviceSettings) (operation : Operation)
    (calls : Surroundings) (device : DeviceState) : AppError × DeviceState :=
  let outcome := perform calls.store operation device.settings
  (outcome.error,
    { device with settings := outcome.store }.note (.wrote (settingsWrite names read operation calls device)))

def deviceSettingsReplace (names : SettingsField → Bool) (current candidate : DeviceSettings) :
    Surroundings → DeviceState → AppError × DeviceState :=
  deviceSettingsWrite names (some current) (.replace candidate)

def deviceSettingsUpdate (operation : Operation) : Surroundings → DeviceState → AppError × DeviceState :=
  deviceSettingsWrite operation.names none operation

end Settings

section Sessions

variable {α : Type}

/-- An operation of the authentication component. -/
def authCall (f : AuthCalls → AuthCore → α × AuthCore) (calls : Surroundings) (device : DeviceState) :
    α × DeviceState :=
  ((f calls.auth device.auth).1, { device with auth := (f calls.auth device.auth).2 })

def authSessionValidate (token : List UInt8) : Surroundings → DeviceState → AppError × DeviceState :=
  authCall (fun calls core => core.sessionValidate calls token)

def authSessionRemaining (token : List UInt8) : Surroundings → DeviceState → Except AppError (Nat × Nat) × DeviceState :=
  authCall (fun calls core => core.sessionRemaining calls token)

def authSessionLogout (token : List UInt8) : Surroundings → DeviceState → AppError × DeviceState :=
  authCall (fun calls core => core.sessionLogout calls token)

def authSessionLogoutAll : Surroundings → DeviceState → AppError × DeviceState :=
  authCall (fun calls core => core.sessionLogoutAll calls)

def authLoginAttemptAllowed (sourceIpv4 : UInt32) :
    Surroundings → DeviceState → (AppError × UInt32) × DeviceState :=
  authCall (fun calls core =>
    (((core.loginAttemptAllowed calls sourceIpv4).1, (core.loginAttemptAllowed calls sourceIpv4).2.1),
      (core.loginAttemptAllowed calls sourceIpv4).2.2))

def authLoginRecordFailure (sourceIpv4 : UInt32) : Surroundings → DeviceState → AppError × DeviceState :=
  authCall (fun calls core => core.loginRecordFailure calls sourceIpv4)

end Sessions

section Login

def passwordRecordSnapshotForLogin (password : List UInt8) (_ : Surroundings) (device : DeviceState) :
    Except AppError (AuthPasswordRecord × Nat) × DeviceState :=
  match device.passwordTransition with
  | some _ => (.error .authStateIncomplete, device)
  | none =>
    (.ok (device.server.passwordRecord, device.generation),
      { device with
        verifying :=
          if passwordVerify derive true password device.server.passwordRecord = .ok true then some device.generation
          else none })

def authPasswordVerify (password : List UInt8) (record : AuthPasswordRecord) (calls : Surroundings)
    (device : DeviceState) : Except AppError Bool × DeviceState :=
  match passwordVerify derive calls.derives password record with
  | .ok true => (.ok true, device)
  | result => (result, { device with verifying := none })

def authLoginRecordSuccess (sourceIpv4 : UInt32) (calls : Surroundings) (device : DeviceState) :
    AppError × DeviceState :=
  let recorded := device.auth.loginRecordSuccess calls.auth sourceIpv4
  (recorded.1,
    { device with
      auth := recorded.2
      verifying := if recorded.1 = .none then device.verifying else none })

def authSessionCreate (generation : Nat) (calls : Surroundings) (device : DeviceState) :
    Except AppError AuthSessionEntry × DeviceState :=
  let created := device.auth.sessionCreate calls.auth generation
  (created.1, { device with auth := created.2, verifying := none })

end Login

section Password

def passwordTransitionBegin (task : Nat) (_ : Surroundings) (device : DeviceState) : AppError × DeviceState :=
  match device.passwordTransition with
  | some _ =>
    (.conflict,
      device.note (.answered
        { outcome := ⟨.backendUnavailable, .conflict⟩
          old := device.storedPassword
          new := none
          stored := device.storedPassword
          generation := device.generation }))
  | none => (.none, { device with passwordTransition := some ⟨task, device.storedPassword⟩ })

def passwordActivate (candidate : DeviceSettings) (_ : Surroundings) (device : DeviceState) : Unit × DeviceState :=
  ((), { device with
    server := { device.server with passwordRecord := passwordOf candidate }
    generation := device.generation + 1 })

def invalidateAllSessions (calls : Surroundings) (device : DeviceState) : AppError × DeviceState :=
  let result := authSessionLogoutAll calls device
  (result.1, if result.1 = .none then result.2.note (.purged device.generation device.verifying) else result.2)

def passwordTransitionEnd (outcome : ChangePasswordOutcome) (new : Option AuthPasswordRecord) (_ : Surroundings)
    (device : DeviceState) : Unit × DeviceState :=
  ((), { device with passwordTransition := none }.note (.answered
    { outcome
      old := device.passwordTransition.bind (·.old)
      new
      stored := device.storedPassword
      generation := device.generation }))

end Password

section Reset

def factoryResetStateRead (calls : Surroundings) (device : DeviceState) : Except AppError Bool × DeviceState :=
  (match calls.markerFault, device.factoryResetMarker with
    | some fault, _ => .error (mapNvsError fault)
    | none, none => .ok false
    | none, some value => if value = factoryResetStatePending then .ok true else .error .storageCorrupt, device)

/-- The marker is written or erased; a value whose commit fails may be stored all
the same. -/
def factoryResetStateWrite (value : Option UInt8) (calls : Surroundings) (device : DeviceState) :
    AppError × DeviceState :=
  match calls.markerFault with
  | none => (.none, { device with factoryResetMarker := value })
  | some fault =>
    (mapNvsError fault, if calls.markerPersisted then { device with factoryResetMarker := value } else device)

def factoryResetStateMarkPending : Surroundings → DeviceState → AppError × DeviceState :=
  factoryResetStateWrite (some factoryResetStatePending)

def factoryResetStateClear : Surroundings → DeviceState → AppError × DeviceState := factoryResetStateWrite none

def markResetSettingsRestartRequired (_ : Surroundings) (device : DeviceState) : Unit × DeviceState :=
  ((), { device with resetSettingsRestartRequired := true })

/-- The first critical section of `adapter_reset_schedule_restart`. -/
def claimRestartSchedule (_ : Surroundings) (device : DeviceState) : Option AppError × DeviceState :=
  if device.restartScheduled then (some .none, device)
  else if device.restartScheduleInProgress then (some .conflict, device)
  else (none, { device with restartScheduleInProgress := true })

/-- The timer of the restart and the last critical section. -/
def startRestartTimer (calls : Surroundings) (device : DeviceState) : AppError × DeviceState :=
  if calls.result = .none then
    (.none, { device with restartScheduled := true, restartScheduleInProgress := false })
  else (.internal, { device with restartScheduleInProgress := false })

end Reset

section Confirmation

def signalConfirmation (calls : Surroundings) (device : DeviceState) : AppError × DeviceState :=
  if ¬ calls.controlsRunning then (.conflict, device)
  else if device.confirmationSignal then (.internal, device)
  else (.none, { device with confirmationSignal := true })

def confirmationRequired (task : Nat) (call : ApiCall) (_ : Surroundings) (device : DeviceState) : Bool × DeviceState :=
  (physicalConfirmationRequired call device.server.requirePhysicalConfirmation,
    device.note (.evaluated task call device.storedRequirement))

def beginWait (task : Nat) (calls : Surroundings) (device : DeviceState) : Bool × DeviceState :=
  (calls.controlsRunning, device.note (.waited task))

/-- One look at the semaphore of a wait that may end. -/
def takeConfirmation (task : Nat) (calls : Surroundings) (device : DeviceState) : Option AppError × DeviceState :=
  if device.confirmationSignal then
    (some .none, { device with confirmationSignal := false }.note (.confirmed task))
  else if calls.timedOut then (some .timeout, device)
  else (none, device)

def performCall (task : Nat) (call : ApiCall) (_ : Surroundings) (device : DeviceState) : Unit × DeviceState :=
  ((), device.note (.performed task call))

/-- `executor_submit_adapter`, with what the executor answers. -/
def executorSubmit (requireConfirmation : Bool) (calls : Surroundings) (device : DeviceState) : AppError × DeviceState :=
  (calls.result, device.note (.submitted requireConfirmation device.storedRequirement))

def claimInFlight (_ : Surroundings) (device : DeviceState) : Bool × DeviceState :=
  (!device.asyncInFlight, { device with asyncInFlight := true })

def releaseInFlight (_ : Surroundings) (device : DeviceState) : Unit × DeviceState :=
  ((), { device with asyncInFlight := false })

/-- The queue of the worker holds one item. -/
def asyncQueueSend (token : List UInt8) (call : ApiCall) (_ : Surroundings) (device : DeviceState) :
    Bool × DeviceState :=
  match device.asyncItem with
  | some _ => (false, device)
  | none => (true, { device with asyncItem := some (token, call) })

def asyncQueueReceive (_ : Surroundings) (device : DeviceState) : Option (List UInt8 × ApiCall) × DeviceState :=
  (device.asyncItem, { device with asyncItem := none })

end Confirmation

def respond (response : Response) (_ : Surroundings) (device : DeviceState) : Unit × DeviceState :=
  ((), device.note (.responded response))

end MacroKeyboard.Device
