import MacroKeyboard.Executor.World

namespace MacroKeyboard.Executor

open Threads.Program

def cancellationSliceMs : UInt32 := 10
def confirmationTimeoutMs : UInt32 := Limits.serialConfirmationTimeoutSeconds * 1000

def isLowerHex (value : UInt8) : Bool :=
  (0x30 ≤ value && value ≤ 0x39) || (0x61 ≤ value && value ≤ 0x66)

def uuidStringLength : Nat := 36
def uuidHyphenPositions : List Nat := [8, 13, 18, 23]

def appUuidIsValidString (text : List UInt8) : Bool :=
  text.length == uuidStringLength &&
  (List.range uuidStringLength).all (fun index =>
    if index ∈ uuidHyphenPositions then text.getD index 0 == 0x2d
    else isLowerHex (text.getD index 0)) &&
  text.getD 14 0 == 0x34 &&
  (text.getD 19 0 == 0x38 || text.getD 19 0 == 0x39 || text.getD 19 0 == 0x61 ||
    text.getD 19 0 == 0x62)

def actionTypeString : MacroActionType → String
  | .key => "key"
  | .chord => "chord"
  | .delay => "delay"

def validateRequest (request : MacroExecutionRequest) : Except AppError Unit :=
  if request.plan.actions.isNone ∨ request.plan.actionCount = 0 ∨
      request.plan.actionCount > Limits.compiledActionsMax ∨
      request.plan.estimatedDurationMs > Limits.estimatedDurationMaxMs ∨
      request.keyPressMs > Limits.delayDirectiveMaxMs ∨
      request.interKeyMs > Limits.delayDirectiveMaxMs ∨
      ¬ appUuidIsValidString request.executionId ∨ ¬ appUuidIsValidString request.setId ∨
      ¬ appUuidIsValidString request.macroId ∨ request.macroRevision = 0 then
    .error .invalidArgument
  else .ok ()

/-- `(int32_t)(now - deadline) >= 0`. -/
def deadlineExpired (now deadline : UInt32) : Bool := (now - deadline).toNat < 2 ^ 31

def nowMs : Thread UInt32 := .ask (·.nowMs)

def noted (t : Ticket) (event : Event) : Thread Unit :=
  .atomic fun _ w => ((), w.note t event)

def engineUnavailable : Thread Bool := .read (·.engine.unavailable)

def latchEngineUnavailable (t : Ticket) : Thread Unit :=
  .atomic fun _ w => ((), { w with engine := { w.engine with unavailable := true } }.note t .latched)

def planFree (t : Ticket) (result : AppError) : Thread Unit := noted t (.freed result)

def usbPress (t : Ticket) (modifiers : UInt8) (usages : List UInt8) : Thread (Except AppError Unit) :=
  .atomic fun env w => (outcome env.result, w.note t (.pressed modifiers usages env.result))

def usbReleaseAll (t : Ticket) : Thread AppError :=
  .atomic fun env w => (env.result, w.note t (.released env.result))

/-- `ulTaskNotifyTake(pdTRUE, …)` returns early when a notification is pending
and takes all of them. -/
def waitMs (t : Ticket) (milliseconds : UInt32) : Thread (Except AppError Unit) :=
  .atomic fun env w => (outcome env.result,
    { w with notifications := [] }.note t (.waited milliseconds w.notifications env.result))

/-- The first release failure stays in the engine; the diagnostics hook keeps
no state that the executor reads. -/
def recordReleaseFailure (t : Ticket) (status : MacroExecutionStatus) (releaseError : AppError) :
    Thread MacroExecutionStatus :=
  if releaseError = .none then pure status
  else do
    .atomic fun _ w =>
      if w.engine.releaseFaultError = .none then
        ((), { w with engine := { w.engine with releaseFaultError := releaseError } })
      else ((), w)
    latchEngineUnavailable t
    pure (if status.releaseError = .none then { status with releaseError := releaseError } else status)

def publishStatus (t : Ticket) (status : MacroExecutionStatus) : Thread (Except AppError Unit) :=
  locked fun w =>
    ((), { w with engine := { w.engine with status := status } }.note t (.published status.state))

def readCancellation (t : Ticket) : Thread (Except AppError Bool) :=
  .atomic fun env w =>
    if env.lockOk && env.unlockOk then
      (.ok w.engine.cancellationRequested, w.note t (.cancelRead w.engine.cancellationRequested))
    else (.error .internal, w)

def readConfirmation (t : Ticket) : Thread (Except AppError Bool) :=
  .atomic fun env w =>
    if env.lockOk && env.unlockOk then
      (.ok w.engine.confirmedRequested, w.note t (.confirmRead w.engine.confirmedRequested))
    else (.error .internal, w)

def resetTerminalFlags (t : Ticket) : Thread (Except AppError Unit) :=
  locked fun w =>
    ((), { w with
      engine := { w.engine with busy := false, cancellationRequested := false,
                                confirmedRequested := false }
      owner := none }.note t .cleared)

/-- The `while` loop of `cancellable_delay`. Every pass waits at least one
millisecond, so `remaining` passes are enough. -/
def cancellableDelayLoop (t : Ticket) : Nat → UInt32 → Thread (Except AppError Unit)
  | 0, _ => pure (.ok ())
  | passes + 1, remaining =>
    if remaining > 0 then do
      match ← readCancellation t with
      | .error error => pure (.error error)
      | .ok true => pure (.error .executionCancelled)
      | .ok false =>
        let now ← nowMs
        let deadline ← .read (·.engine.deadline)
        if deadlineExpired now deadline then pure (.error .timeout)
        else
          let slice := if remaining > cancellationSliceMs then cancellationSliceMs else remaining
          match ← waitMs t slice with
          | .error error => pure (.error error)
          | .ok () => cancellableDelayLoop t passes (remaining - slice)
    else pure (.ok ())

def cancellableDelay (t : Ticket) (delayMs : UInt32) : Thread (Except AppError Unit) :=
  cancellableDelayLoop t delayMs.toNat delayMs

def awaitConfirmation (t : Ticket) : Thread (Except AppError Unit) := do
  let now ← nowMs
  let deadline := now + confirmationTimeoutMs
  .repeatUntil do
    match ← readCancellation t with
    | .error error => pure (some (.error error))
    | .ok true => pure (some (.error .executionCancelled))
    | .ok false =>
      match ← readConfirmation t with
      | .error error => pure (some (.error error))
      | .ok true => pure (some (.ok ()))
      | .ok false =>
        let now ← nowMs
        if deadlineExpired now deadline then
          noted t .expired
          pure (some (.error .timeout))
        else
          match ← waitMs t cancellationSliceMs with
          | .error error => pure (some (.error error))
          | .ok () => pure none

/-- Latch the engine when the terminal state or the flags could not be written. -/
def latchUnless (t : Ticket) (publishResult resetResult : Except AppError Unit) : Thread Unit :=
  match publishResult, resetResult with
  | .ok (), .ok () => pure ()
  | _, _ => latchEngineUnavailable t

def firstFailure (publishResult resetResult : Except AppError Unit) : Except AppError Unit :=
  match publishResult with
  | .error error => .error error
  | .ok () => resetResult

def finishExecution (t : Ticket) (status : MacroExecutionStatus) (state : ExecutionState)
    (primaryError : AppError) : Thread (Except AppError Unit) := do
  let releaseResult ← usbReleaseAll t
  let status ← recordReleaseFailure t status releaseResult
  let unavailable ← engineUnavailable
  let now ← nowMs
  let publishResult ← publishStatus t
    { status with state := state, error := primaryError, available := !unavailable,
                  completedMs := now, currentAction := currentActionNone }
  let resetResult ← resetTerminalFlags t
  latchUnless t publishResult resetResult
  pure (firstFailure publishResult resetResult)

/-- `finish_result != NONE ? finish_result : result`. -/
def firstError (finishResult : Except AppError Unit) (result : AppError) : AppError :=
  match finishResult with
  | .error error => error
  | .ok () => result

/-- `none` to keep going, or the code of an execution that is over. -/
def publishStep (t : Ticket) (status : MacroExecutionStatus) : Thread (Option AppError) := do
  match ← publishStatus t status with
  | .ok () => pure none
  | .error error =>
    planFree t error
    let finishResult ← finishExecution t status .failed error
    pure (some (firstError finishResult error))

def finishSubmissionFailure (t : Ticket) (request : MacroExecutionRequest) (primaryError : AppError) :
    Thread AppError := do
  let now ← nowMs
  let status : MacroExecutionStatus :=
    { initialStatus with
      state := .failed, error := primaryError, executionId := request.executionId,
      setId := request.setId, macroId := request.macroId, macroRevision := request.macroRevision,
      actionCount := request.plan.actionCount, acceptedMs := request.acceptedMs, completedMs := now }
  let releaseResult ← usbReleaseAll t
  let status ← recordReleaseFailure t status releaseResult
  let unavailable ← engineUnavailable
  let publishResult ← publishStatus t { status with available := !unavailable }
  let resetResult ← resetTerminalFlags t
  latchUnless t publishResult resetResult
  noted t (.withdrew (releaseResult == .none && publishResult.isOk && resetResult.isOk))
  pure primaryError

inductive Claim
  | refused (error : AppError)
  | claimed (unlocked : Bool)
deriving DecidableEq, Repr

/-- The lock section of `macro_executor_engine_submit`. -/
def claimEngine (t : Ticket) : Thread Claim :=
  .atomic fun env w =>
    if env.lockOk then
      if w.engine.busy then (.refused (if env.unlockOk then .executorBusy else .internal), w)
      else
        (.claimed env.unlockOk, { w with
          engine := { w.engine with busy := true, cancellationRequested := false,
                                    confirmedRequested := false }
          owner := some t }.note t (.claimed w.engine.status.state))
    else (.refused .internal, w)

def queueSend (t : Ticket) (request : MacroExecutionRequest) : Thread Bool :=
  .atomic fun env w =>
    if env.platformOk && !w.shutdown.queueDeleted && w.queue.length < 2 then
      (true, { w with queue := w.queue ++ [MacroExecutorMessage.execute t request] }.note t
        (.accepted request w.shutdown.queueDrained))
    else (false, w)

/-- The error code, and the request as the caller finds it afterwards. -/
def macroExecutorEngineSubmit (t : Ticket) (request : MacroExecutionRequest) :
    Thread (AppError × MacroExecutionRequest) := do
  if ← engineUnavailable then pure (.internal, request)
  else
    match validateRequest request with
    | .error error => pure (error, request)
    | .ok () =>
      let now ← nowMs
      let request := { request with acceptedMs := now }
      let ready ← Prog.ask (·.usbReady)
      if !ready then pure (.usbNotReady, request)
      else
        match ← claimEngine t with
        | .refused error => pure (error, request)
        | .claimed false =>
          let error ← finishSubmissionFailure t request .internal
          pure (error, request)
        | .claimed true =>
          if ← queueSend t request then pure (.none, { request with plan := ⟨none, 0⟩ })
          else
            let error ← finishSubmissionFailure t request .internal
            pure (error, request)

/-- The lock sections of `cancel` and `confirm` record a flag for the
submission that holds the engine. -/
inductive Recording
  | refused (error : AppError)
  | recorded (ticket : Ticket)
deriving DecidableEq, Repr

def recordFlag (allowed : World → Bool) (already : World → Bool) (set : World → World)
    (event : Bool → Event) : Thread Recording :=
  .atomic fun env w =>
    if env.lockOk then
      if !allowed w then (.refused (if env.unlockOk then .notFound else .internal), w)
      else if already w then (.refused (if env.unlockOk then .conflict else .internal), w)
      else
        let ticket := w.owner.getD 0
        (if env.unlockOk then .recorded ticket else .refused .internal,
          (set w).note ticket (event env.unlockOk))
    else (.refused .internal, w)

/-- `adapter_notify`. -/
def notifyExecutor (t : Ticket) : Thread Unit :=
  .atomic fun _ w =>
    if w.shutdown.taskHandle then
      ((), { w with notifications := w.notifications ++ [t] }.note t (.notified w.current))
    else ((), w)

/-- What `cancel` and `confirm` share around their lock section. -/
def requestFlag (recording : Thread Recording) : Thread AppError := do
  if ← engineUnavailable then pure .internal
  else
    match ← recording with
    | .refused error => pure error
    | .recorded ticket =>
      notifyExecutor ticket
      pure .none

def macroExecutorEngineCancel : Thread AppError :=
  requestFlag (recordFlag (·.engine.busy) (·.engine.cancellationRequested)
    (fun w => { w with engine := { w.engine with cancellationRequested := true } }) .cancelRecorded)

def macroExecutorEngineConfirm : Thread AppError :=
  requestFlag (recordFlag
    (fun w => w.engine.busy && w.engine.status.state == .awaitingConfirmation)
    (·.engine.confirmedRequested)
    (fun w => { w with engine := { w.engine with confirmedRequested := true } }) .confirmRecorded)

def macroExecutorEngineGetStatus : Thread MacroExecutionStatus := do
  let releaseFault ← .read (·.engine.releaseFaultError)
  let unavailable ← engineUnavailable
  .atomic fun env w =>
    if env.lockOk then
      let status := w.engine.status
      let status := { status with
        available := !w.engine.unavailable
        releaseError := if status.releaseError = .none then releaseFault else status.releaseError
        cancellationRequested := w.engine.cancellationRequested }
      (if env.unlockOk then status else { status with state := .failed, error := .internal }, w)
    else
      ({ initialStatus with state := .failed, error := .internal, available := !unavailable,
                            releaseError := releaseFault }, w)

def holdKeys (t : Ticket) (pressResult : Except AppError Unit) (keyPressMs : UInt32) :
    Thread (Except AppError Unit) :=
  match pressResult with
  | .error error => pure (.error error)
  | .ok () => cancellableDelay t keyPressMs

def executeAction (t : Ticket) (status : MacroExecutionStatus) (action : MacroAction)
    (keyPressMs interKeyMs : UInt32) : Thread (Except AppError Unit × MacroExecutionStatus) := do
  if action.type = .delay then
    noted t (.timedAction action.delayMs)
    let result ← cancellableDelay t action.delayMs
    pure (result, status)
  else
    let pressResult ← usbPress t action.modifiers action.usages
    let held ← holdKeys t pressResult keyPressMs
    let releaseResult ← usbReleaseAll t
    let status ← recordReleaseFailure t status releaseResult
    match held, outcome releaseResult with
    | .error error, _ => pure (.error error, status)
    | .ok (), .error error => pure (.error error, status)
    | .ok (), .ok () =>
      let result ← cancellableDelay t interKeyMs
      pure (result, status)

def terminalState (result : AppError) : ExecutionState :=
  match result with
  | .none => .completed
  | .executionCancelled => .cancelled
  | .timeout => .timedOut
  | _ => .failed

/-- The code of a call, `none` when it succeeded. -/
def code (result : Except AppError Unit) : AppError :=
  match result with
  | .error error => error
  | .ok () => .none

def runConfirmationPhase (t : Ticket) (status : MacroExecutionStatus) :
    Thread (Option AppError × MacroExecutionStatus) := do
  match ← awaitConfirmation t with
  | .ok () =>
    let status := { status with state := .running }
    let ended ← publishStep t status
    pure (ended, status)
  | .error error =>
    planFree t error
    let finishResult ← finishExecution t status
      (if error = .executionCancelled then .cancelled
        else if error = .timeout then .timedOut else .failed) error
    pure (some (firstError finishResult error), status)

/-- The action loop of `macro_executor_engine_execute`, from `index` on. -/
def runActions (t : Ticket) (request : MacroExecutionRequest) :
    List MacroAction → Nat → MacroExecutionStatus → Thread (Except AppError Unit × MacroExecutionStatus)
  | [], _, status => pure (.ok (), status)
  | action :: rest, index, status => do
    let status := { status with actionIndex := index, currentAction := actionTypeString action.type }
    match ← publishStatus t status with
    | .error error => pure (.error error, status)
    | .ok () =>
      match ← readCancellation t with
      | .error error => pure (.error error, status)
      | .ok true => pure (.error .executionCancelled, status)
      | .ok false =>
        let now ← nowMs
        let deadline ← .read (·.engine.deadline)
        if deadlineExpired now deadline then pure (.error .timeout, status)
        else
          let outcome ← executeAction t status action request.keyPressMs request.interKeyMs
          match outcome with
          | (.error error, status) => pure (.error error, status)
          | (.ok (), status) => runActions t request rest (index + 1) status

def setDeadline (deadline : UInt32) : Thread Unit :=
  .atomic fun _ w => ((), { w with engine := { w.engine with deadline := deadline } })

/-- The part of `macro_executor_engine_execute` after the confirmation. -/
def runPlan (t : Ticket) (request : MacroExecutionRequest) (status : MacroExecutionStatus) :
    Thread AppError := do
  let started ← nowMs
  setDeadline (started + Limits.executorAbsoluteDeadlineMs)
  let (result, status) ← runActions t request request.plan.actionList 0
    { status with startedMs := started }
  planFree t (code result)
  let finishResult ← finishExecution t status (terminalState (code result)) (code result)
  pure (firstError finishResult (code result))

def macroExecutorEngineExecute (t : Ticket) (request : MacroExecutionRequest) : Thread AppError := do
  match validateRequest request with
  | .error _ => pure .invalidArgument
  | .ok () =>
    let status : MacroExecutionStatus :=
      { initialStatus with
        state := if request.requireConfirmation then .awaitingConfirmation else .running
        executionId := request.executionId, setId := request.setId, macroId := request.macroId,
        macroRevision := request.macroRevision, actionCount := request.plan.actionCount,
        acceptedMs := request.acceptedMs }
    match ← publishStep t status with
    | some result => pure result
    | none =>
      if request.requireConfirmation then
        match ← runConfirmationPhase t status with
        | (some result, _) => pure result
        | (none, status) => runPlan t request status
      else runPlan t request status

end MacroKeyboard.Executor
