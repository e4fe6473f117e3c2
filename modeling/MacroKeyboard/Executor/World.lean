import MacroKeyboard.MacroPlan
import MacroKeyboard.Threads.Program
import MacroKeyboard.Threads.Monitor

namespace MacroKeyboard.Executor

open Threads.Program Threads.Monitor

inductive ExecutionState
  | idle | awaitingConfirmation | running | completed | cancelled | failed | timedOut
deriving DecidableEq, Repr

structure MacroExecutionRequest where
  executionId : List UInt8
  setId : List UInt8
  macroId : List UInt8
  macroRevision : UInt32
  keyPressMs : UInt32
  interKeyMs : UInt32
  plan : MacroPlan
  acceptedMs : UInt32
  requireConfirmation : Bool
deriving DecidableEq, Repr

structure MacroExecutionStatus where
  state : ExecutionState
  error : AppError
  releaseError : AppError
  executionId : List UInt8
  setId : List UInt8
  macroId : List UInt8
  macroRevision : UInt32
  actionIndex : Nat
  actionCount : Nat
  available : Bool
  cancellationRequested : Bool
  acceptedMs : UInt32
  startedMs : UInt32
  completedMs : UInt32
  currentAction : String
deriving DecidableEq, Repr

structure MacroExecutorEngine where
  status : MacroExecutionStatus
  busy : Bool
  cancellationRequested : Bool
  confirmedRequested : Bool
  unavailable : Bool
  releaseFaultError : AppError
  deadline : UInt32
deriving DecidableEq, Repr

abbrev Ticket : Type := Nat

inductive MacroExecutorMessage
  | execute (ticket : Ticket) (request : MacroExecutionRequest)
  | stop
deriving DecidableEq, Repr

structure ExecutorShutdownState where
  shuttingDown : Bool
  stopUnconfirmed : Bool
deriving DecidableEq, Repr

/-- What a run of the executor shows of one submission. An event may carry what
its step found before it acted. -/
inductive Event
  /-- the caller hands its plan over -/
  | submitted (plan : MacroPlan)
  /-- busy was claimed while this state was published -/
  | claimed (published : ExecutionState)
  /-- the request entered the queue; `late` when the shutdown had drained it -/
  | accepted (request : MacroExecutionRequest) (late : Bool)
  /-- a failing submission has cleaned up, with these results -/
  | withdrew (succeeded : Bool)
  | answered (error : AppError) (callerPlan : MacroPlan)
  | callerFreed
  /-- the worker took the request while these notifications were pending -/
  | dequeued (pending : List Ticket)
  | published (state : ExecutionState)
  /-- a flag is set by a call that returns success, or not -/
  | cancelRecorded (success : Bool)
  | confirmRecorded (success : Bool)
  /-- the worker was notified while it ran this execution -/
  | notified (current : Option Ticket)
  | cancelRead (value : Bool)
  /-- the deadline of the confirmation has passed -/
  | expired
  | confirmRead (value : Bool)
  | waited (milliseconds : UInt32) (wokenBy : List Ticket) (result : AppError)
  | pressed (modifiers : UInt8) (usages : List UInt8) (result : AppError)
  | timedAction (delayMs : UInt32)
  | released (result : AppError)
  | freed (result : AppError)
  | cleared
  | latched
  | returned (result : AppError)
  | drained
  | lost
  /-- the engine was erased while the submission held it -/
  | erased
deriving DecidableEq, Repr

/-- How far the worker and its shutdown have come. The code reads the handles,
the semaphore and the failure flag; the other fields record where it is. -/
structure ShutdownProgress where
  taskHandle : Bool
  executorStopped : Bool
  executorStopSignalFailed : Bool
  workerExited : Bool
  queueDrained : Bool
  queueDeleted : Bool
  engineErased : Bool
deriving DecidableEq, Repr

/-- The engine, the platform objects around it, and three fields that no code
reads: the submission holding the busy flag, the one the worker runs, and the
log. `notifications` is the task notification count, as who gave each. -/
structure World where
  engine : MacroExecutorEngine
  queue : List MacroExecutorMessage
  shutdown : ShutdownProgress
  shutdownState : ExecutorShutdownState
  notifications : List Ticket
  owner : Option Ticket
  current : Option Ticket
  log : Log Ticket Event
deriving DecidableEq, Repr

/-- The answers of the platform to one step. -/
structure Env where
  lockOk : Bool
  unlockOk : Bool
  /-- `pdTRUE` of a queue or semaphore operation that can succeed -/
  platformOk : Bool
  usbReady : Bool
  requireConfirmation : Bool
  nowMs : UInt32
  uuid : List UInt8
  /-- the error code of a wait, a press, a release or another called operation -/
  result : AppError
deriving DecidableEq, Repr

abbrev Thread (α : Type) : Type 1 := Prog World Env α

namespace World

def note (w : World) (ticket : Ticket) (event : Event) : World :=
  { w with log := w.log ++ [(ticket, event)] }

@[simp] theorem note_engine (w : World) (t : Ticket) (e : Event) : (w.note t e).engine = w.engine := rfl
@[simp] theorem note_queue (w : World) (t : Ticket) (e : Event) : (w.note t e).queue = w.queue := rfl
@[simp] theorem note_owner (w : World) (t : Ticket) (e : Event) : (w.note t e).owner = w.owner := rfl
@[simp] theorem note_current (w : World) (t : Ticket) (e : Event) :
    (w.note t e).current = w.current := rfl
@[simp] theorem note_notifications (w : World) (t : Ticket) (e : Event) :
    (w.note t e).notifications = w.notifications := rfl
@[simp] theorem note_shutdown (w : World) (t : Ticket) (e : Event) :
    (w.note t e).shutdown = w.shutdown := rfl
@[simp] theorem note_log (w : World) (t : Ticket) (e : Event) :
    (w.note t e).log = w.log ++ [(t, e)] := rfl

end World

def outcome (code : AppError) : Except AppError Unit :=
  if code = .none then .ok () else .error code

/-- A lock section of the engine: nothing happens when the lock is refused, and
a failed unlock turns the answer into an internal error. -/
def locked {α : Type} (body : World → α × World) : Thread (Except AppError α) :=
  .atomic fun env w =>
    if env.lockOk then
      (if env.unlockOk then .ok (body w).1 else .error .internal, (body w).2)
    else (.error .internal, w)

def currentActionNone : String := "none"

def initialStatus : MacroExecutionStatus where
  state := .idle
  error := .none
  releaseError := .none
  executionId := []
  setId := []
  macroId := []
  macroRevision := 0
  actionIndex := 0
  actionCount := 0
  available := true
  cancellationRequested := false
  acceptedMs := 0
  startedMs := 0
  completedMs := 0
  currentAction := currentActionNone

def macroExecutorEngineInit : MacroExecutorEngine where
  status := initialStatus
  busy := false
  cancellationRequested := false
  confirmedRequested := false
  unavailable := false
  releaseFaultError := .none
  deadline := 0

/-- The engine after the `memset` of `macro_executor_deinit`. -/
def erasedEngine : MacroExecutorEngine :=
  { macroExecutorEngineInit with
    status := { initialStatus with available := false, currentAction := "" } }

/-- `macro_executor_init`, when every allocation succeeds. -/
def initialWorld : World where
  engine := macroExecutorEngineInit
  queue := []
  shutdown :=
    { taskHandle := true, executorStopped := false, executorStopSignalFailed := false
      workerExited := false, queueDrained := false, queueDeleted := false, engineErased := false }
  shutdownState := ⟨false, false⟩
  notifications := []
  owner := none
  current := none
  log := []

end MacroKeyboard.Executor
