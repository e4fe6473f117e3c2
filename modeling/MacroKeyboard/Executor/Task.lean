import MacroKeyboard.Executor.Engine
import MacroKeyboard.FirmwareCompiler

namespace MacroKeyboard.Executor

open Threads.Program

def queueReceive : Thread (Option MacroExecutorMessage) :=
  .atomic fun env w =>
    if env.platformOk then
      match w.queue with
      | [] => (none, w)
      | .stop :: rest => (some .stop, { w with queue := rest })
      | .execute t request :: rest =>
        (some (.execute t request),
          { w with queue := rest, current := some t }.note t (.dequeued w.notifications))
    else (none, w)

/-- The worker leaves `macro_executor_engine_execute`. -/
def executionReturned (t : Ticket) (result : AppError) : Thread Unit :=
  .atomic fun _ w => ((), { w with current := none }.note t (.returned result))

/-- The worker signals its exit and deletes itself. -/
def exitTask : Thread Unit :=
  .atomic fun env w =>
    if env.platformOk then
      ((), { w with shutdown := { w.shutdown with executorStopped := true, workerExited := true } })
    else
      ((), { w with
        shutdown := { w.shutdown with executorStopSignalFailed := true, workerExited := true } })

def executorTask : Thread Unit := do
  .repeatUntil do
    match ← queueReceive with
    | none => pure none
    | some .stop => pure (some ())
    | some (.execute t request) =>
      let result ← macroExecutorEngineExecute t request
      executionReturned t result
      pure none
  exitTask

def queueSendStop : Thread Bool :=
  .atomic fun env w =>
    if env.platformOk && !w.shutdown.queueDeleted && w.queue.length < 2 then
      (true, { w with queue := w.queue ++ [MacroExecutorMessage.stop] })
    else (false, w)

def takeExecutorStopped : Thread Bool :=
  .atomic fun env w =>
    if env.platformOk && w.shutdown.executorStopped then
      (true, { w with shutdown := { w.shutdown with executorStopped := false } })
    else (false, w)

/-- Whether the worker confirmed its exit, and the first error. -/
def stopExecutorTask : Thread (Bool × AppError) := do
  let cancelResult ← macroExecutorEngineCancel
  let firstError := if cancelResult ≠ .none ∧ cancelResult ≠ .notFound then cancelResult else .none
  let sent ← queueSendStop
  let firstError := if sent = false ∧ firstError = .none then .internal else firstError
  let stopped ← takeExecutorStopped
  if stopped then pure (true, firstError)
  else pure (false, if firstError = .none then .timeout else firstError)

/-- One `xQueueReceive` of `drain_pending_plans`, which ends on an empty queue. -/
def drainStep : Thread (Option Unit) :=
  .atomic fun _ w =>
    match w.queue with
    | [] => (some (), { w with shutdown := { w.shutdown with queueDrained := true } })
    | .stop :: rest => (none, { w with queue := rest })
    | .execute t _ :: rest => (none, { w with queue := rest }.note t .drained)

def drainPendingPlans : Thread Unit := .repeatUntil drainStep

/-- The submissions still in the queue, whose plans are lost with it. -/
def queuedTickets (queue : List MacroExecutorMessage) : List Ticket :=
  queue.filterMap (fun message =>
    match message with
    | .execute t _ => some t
    | .stop => none)

def queueDelete : Thread Unit :=
  .atomic fun _ w =>
    ((), { w with queue := [], shutdown := { w.shutdown with queueDeleted := true }
                  log := w.log ++ (queuedTickets w.queue).map (·, Event.lost) })

/-- The last statements of `macro_executor_deinit`, which also delete the
semaphores; what is left of the busy flag goes with the engine. -/
def eraseEngine : Thread Bool :=
  .atomic fun _ w => (w.shutdown.executorStopSignalFailed,
    { w with
      engine := erasedEngine
      shutdown := { w.shutdown with executorStopSignalFailed := false, engineErased := true }
      shutdownState := ⟨false, false⟩
      owner := none
      log := w.log ++ w.owner.toList.map (·, Event.erased) })

/-- `executor_shutdown_state_complete` and `_begin`. -/
def setShutdown (state : ExecutorShutdownState) : Thread Unit :=
  .atomic fun _ w => ((), { w with shutdownState := state })

def beginShutdown : Thread Unit :=
  .atomic fun _ w => ((), { w with shutdownState := { w.shutdownState with shuttingDown := true } })

def clearTaskHandle : Thread Unit :=
  .atomic fun _ w => ((), { w with shutdown := { w.shutdown with taskHandle := false } })

/-- The part of `macro_executor_deinit` after the worker confirmed its exit. -/
def releaseExecutor (firstError : AppError) : Thread AppError := do
  let releaseResult ← Prog.ask (·.result)
  let firstError := if firstError = .none then releaseResult else firstError
  drainPendingPlans
  queueDelete
  let signalFailed ← eraseEngine
  pure (if signalFailed ∧ firstError = .none then .internal else firstError)

def macroExecutorDeinit : Thread AppError := do
  if ← Prog.read (·.shutdown.engineErased) then pure .none
  else
    beginShutdown
    if ← Prog.read (·.shutdown.taskHandle) then
      let (stopped, firstError) ← stopExecutorTask
      if !stopped then
        setShutdown ⟨true, true⟩
        pure firstError
      else
        clearTaskHandle
        releaseExecutor firstError
    else releaseExecutor .none

/-- The application shuts the executor down when it likes, and again when a
stop was not confirmed. -/
def lifecycleTask : Thread Unit :=
  .repeatUntil do
    if ← Prog.ask (·.platformOk) then
      let _ ← macroExecutorDeinit
      pure none
    else pure (some ())

def macroExecutorSubmit (t : Ticket) (request : MacroExecutionRequest) :
    Thread (AppError × MacroExecutionRequest) := do
  if ← Prog.read (·.shutdownState.shuttingDown) then pure (.conflict, request)
  else macroExecutorEngineSubmit t request

/-- The fields of a send request body that the handler uses. -/
structure SendRequest where
  source : List UInt8
  keyPressMs : UInt32
  interKeyMs : UInt32
deriving DecidableEq, Repr

inductive WebSendCreateResult
  | ok | parseError | busy | backendUnavailable | internal
deriving DecidableEq, Repr

def mapSubmitError (error : AppError) : WebSendCreateResult :=
  match error with
  | .executorBusy => .busy
  | .usbNotReady => .backendUnavailable
  | _ => .internal

/-- `web_send_create_handle` from the compilation of the populated request on. -/
def webSendCreateHandle (t : Ticket) (request : SendRequest) : Thread WebSendCreateResult := do
  let callocOk ← Prog.ask (·.platformOk)
  let compiled := FirmwareCompiler.macroCompileV2 callocOk request.source
    (some ⟨request.keyPressMs, request.interKeyMs⟩)
  if compiled.result ≠ .none then pure .parseError
  else
    let (policyResult, requireConfirmation) ← Prog.ask (fun env => (env.result, env.requireConfirmation))
    if policyResult ≠ .none then
      noted t .callerFreed
      pure .backendUnavailable
    else
      let (uuidResult, sendId) ← Prog.ask (fun env => (env.result, env.uuid))
      if uuidResult ≠ .none then
        noted t .callerFreed
        pure .internal
      else
        noted t (.submitted compiled.outPlan)
        let (error, request) ← macroExecutorSubmit t
          { executionId := sendId, setId := sendId, macroId := sendId, macroRevision := 1
            keyPressMs := request.keyPressMs, interKeyMs := request.interKeyMs
            plan := compiled.outPlan, acceptedMs := 0, requireConfirmation := requireConfirmation }
        noted t (.answered error request.plan)
        if error ≠ .none then
          noted t .callerFreed
          pure (mapSubmitError error)
        else pure .ok

/-- What an HTTP or console task of the device calls. -/
inductive Call
  | send (request : SendRequest)
  | cancel | confirm | getStatus

def Call.thread (t : Ticket) : Call → Thread Unit
  | .send request => do let _ ← webSendCreateHandle t request
  | .cancel => do let _ ← macroExecutorEngineCancel
  | .confirm => do let _ ← macroExecutorEngineConfirm
  | .getStatus => do let _ ← macroExecutorEngineGetStatus

/-- The threads of the device: the worker, the application that starts and
stops it, and any number of calls. -/
inductive MayStart : Nat → Thread Unit → Prop
  | worker : MayStart 0 executorTask
  | lifecycle : MayStart 1 lifecycleTask
  | call (n : Nat) (c : Call) : MayStart (n + 2) (c.thread (n + 2))

/-- The executor from its initialisation to the end of a shutdown. -/
def executorSystem : System World Env where
  mayStart := MayStart
  stopped := (·.shutdown.engineErased)

/-- The runs of the executor under every interleaving and every answer of the
platform. -/
abbrev ExecutorReachable (c : Config World Env) : Prop := Reachable executorSystem initialWorld c

/-- Every answer of the platform is a success. -/
def fineEnv : Env where
  lockOk := true
  unlockOk := true
  platformOk := true
  usbReady := true
  requireConfirmation := false
  nowMs := 0
  uuid := bytes "00000000-0000-4000-8000-000000000000"
  result := .none

def turns (thread count : Nat) (env : Env) : List (Nat × Env) := List.replicate count (thread, env)

/-- The device with these calls under way, after a schedule of its threads. -/
def deviceRun (calls : List Call) (schedule : List (Nat × Env)) : Config World Env :=
  Config.runSchedule executorSystem.stopped
    ⟨initialWorld, executorTask :: lifecycleTask :: calls.mapIdx (fun n c => c.thread (n + 2))⟩ schedule

theorem deviceRun_reachable (calls : List Call) (schedule : List (Nat × Env)) :
    ExecutorReachable (deviceRun calls schedule) := by
  refine reachable_runSchedule ?_ schedule
  have hempty : ExecutorReachable ⟨initialWorld, []⟩ := .init
  refine reachable_start hempty rfl fun i p hp => ?_
  match i with
  | 0 =>
    cases hp
    exact .worker
  | 1 =>
    cases hp
    exact .lifecycle
  | n + 2 =>
    rw [List.getElem?_cons_succ, List.getElem?_cons_succ, List.getElem?_mapIdx] at hp
    obtain ⟨c, -, rfl⟩ := Option.map_eq_some_iff.mp hp
    rw [List.length_nil, Nat.zero_add]
    exact .call n c

end MacroKeyboard.Executor
