import MacroKeyboard.Executor.Task

namespace MacroKeyboard.Executor

open Threads.Program Threads.Monitor

def sendStateString : ExecutionState → String
  | .awaitingConfirmation => "awaiting_confirmation"
  | .running => "running"
  | .completed => "completed"
  | .cancelled => "cancelled"
  | .failed => "failed"
  | .timedOut => "timed_out"
  | .idle => ""

structure WebSendStatusView where
  id : List UInt8
  state : String
  actionIndex : Nat
  actionCount : Nat
  estimatedDurationMs : UInt32
  cancellationRequested : Bool
  error : String
  releaseError : String
deriving DecidableEq, Repr

inductive WebSendGetOutcome
  | ok (status : WebSendStatusView)
  | neverSent
  | internal
deriving DecidableEq, Repr

inductive WebSendCancelResult
  | accepted | neverSent | internal
deriving DecidableEq, Repr

def errorText (error : AppError) : String := if error = .none then "" else appErrorCodeString error

def viewOf (status : MacroExecutionStatus) (cachedEstimatedDurationMs : UInt32) : WebSendGetOutcome :=
  if status.state = .idle then .neverSent
  else if status.available = false ∧ status.releaseError = .none then .internal
  else .ok {
    id := status.executionId
    state := sendStateString status.state
    actionIndex := status.actionIndex
    actionCount := status.actionCount
    estimatedDurationMs := cachedEstimatedDurationMs
    cancellationRequested := status.cancellationRequested
    error := errorText status.error
    releaseError := errorText status.releaseError }

def webSendGetHandle (cachedEstimatedDurationMs : UInt32) : Thread WebSendGetOutcome := do
  let status ← macroExecutorEngineGetStatus
  pure (viewOf status cachedEstimatedDurationMs)

/-- A recorded cancellation, one that was recorded before and one of a send that
is over are answered alike. -/
def mapCancelError : AppError → WebSendCancelResult
  | .none | .conflict | .notFound => .accepted
  | _ => .internal

def webSendCancelHandle : Thread WebSendCancelResult := do
  let status ← macroExecutorEngineGetStatus
  if status.state = .idle then pure .neverSent
  else
    let cancelResult ← macroExecutorEngineCancel
    pure (mapCancelError cancelResult)

inductive Served
  /-- a status, with the executor as it was when the answer left -/
  | reported (outcome : WebSendGetOutcome) (found : World)
  | created (t : Ticket) (result : WebSendCreateResult)
  /-- whether a step of the request changed anything of the executor -/
  | cancelled (result : WebSendCancelResult) (touched : Bool)
deriving DecidableEq, Repr

/-- The executor, the duration that the server keeps of the last accepted send,
and two fields that no code reads: whether a request has changed the executor,
and the answers so far. -/
structure SendWorld where
  executor : World
  lastSendEstimatedDurationMs : UInt32
  touched : Bool
  served : List Served
deriving DecidableEq, Repr

namespace SendWorld

def setExecutor (w : World) (s : SendWorld) : SendWorld := { s with executor := w }

def touch (w : World) (s : SendWorld) : SendWorld :=
  { s with executor := w, touched := s.touched || decide (w ≠ s.executor) }

def answer (s : SendWorld) (entry : Served) : SendWorld := { s with served := s.served ++ [entry] }

end SendWorld

abbrev SendThread (α : Type) : Type 1 := Prog SendWorld Env α

def beside {α : Type} (p : Thread α) : SendThread α := p.zoom id (·.executor) SendWorld.setExecutor

def within {α : Type} (p : Thread α) : SendThread α := p.zoom id (·.executor) SendWorld.touch

inductive SendCall
  | create (request : SendRequest)
  | get
  | cancel

/-- An accepted send has been compiled with enough memory. -/
def estimatedDuration (request : SendRequest) : UInt32 :=
  (FirmwareCompiler.macroCompileV2 true request.source
    (some ⟨request.keyPressMs, request.interKeyMs⟩)).outPlan.estimatedDurationMs

/-- The routes of a send behind the authentication and the reading of the body. -/
def SendCall.serve (t : Ticket) : SendCall → SendThread Unit
  | .create request => do
    let result ← within (webSendCreateHandle t request)
    .atomic fun _ s =>
      let s := if result = .ok then { s with lastSendEstimatedDurationMs := estimatedDuration request } else s
      ((), s.answer (.created t result))
  | .get => do
    let cached ← Prog.read (·.lastSendEstimatedDurationMs)
    let outcome ← within (webSendGetHandle cached)
    .atomic fun _ s => ((), s.answer (.reported outcome s.executor))
  | .cancel => do
    .atomic fun _ s => ((), { s with touched := false })
    let result ← within webSendCancelHandle
    .atomic fun _ s => ((), s.answer (.cancelled result s.touched))

def serverTask : Ticket → List SendCall → SendThread Unit
  | _, [] => pure ()
  | t, call :: rest => do
    call.serve t
    serverTask (t + 1) rest

/-- The worker, the server with any requests, and the commands of the console. -/
inductive MaySend : Nat → SendThread Unit → Prop
  | worker : MaySend 0 (beside executorTask)
  | server (calls : List SendCall) : MaySend 1 (serverTask 2 calls)
  | confirm (n : Nat) : MaySend (n + 2) (beside (do let _ ← macroExecutorEngineConfirm))
  | cancel (n : Nat) : MaySend (n + 2) (beside (do let _ ← macroExecutorEngineCancel))

def sendSystem : System SendWorld Env where
  mayStart := MaySend
  stopped := fun _ => false

def initialSend : SendWorld := ⟨initialWorld, 0, false, []⟩

/-- The runs of the send routes beside the worker, under every interleaving and
every answer of the platform. -/
abbrev SendReachable (c : Config SendWorld Env) : Prop := Reachable sendSystem initialSend c

/-- The request that entered the queue last. -/
def latestAccepted (log : Log Ticket Event) : Option MacroExecutionRequest :=
  (log.filterMap (fun entry =>
    match entry.2 with
    | .accepted request _ => some request
    | _ => none)).getLast?

def terminalTexts : List String := ["completed", "cancelled", "failed", "timed_out"]

/-- The answer reports a terminal state of the latest accepted execution. -/
def ReportsTerminal (outcome : WebSendGetOutcome) (found : World) : Prop :=
  ∃ view request, outcome = .ok view ∧ view.state ∈ terminalTexts ∧
    latestAccepted found.log = some request ∧ view.id = request.executionId

/-- What a request that is served after such a report does not do. -/
def Served.Disturbs : Served → Prop
  | .reported _ _ => False
  | .created _ result => result = .busy
  | .cancelled _ touched => touched = true

/-- Since a terminal state was reported and as long as no send has been accepted,
no send is rejected as busy and no cancellation changes the executor. -/
def Settled (served : List Served) : Prop :=
  ∀ front outcome found middle entry rest,
    served = front ++ .reported outcome found :: middle ++ entry :: rest →
    ReportsTerminal outcome found → (∀ t, .created t .ok ∉ middle) → ¬ entry.Disturbs

/-- The worker has reset the flags of the execution, or the engine refuses
everything. -/
def FlagsReset (w : World) : Prop := w.engine.busy = false ∨ w.engine.unavailable = true

def ReportedWhenReset (served : List Served) : Prop :=
  ∀ outcome found, .reported outcome found ∈ served → ReportsTerminal outcome found → FlagsReset found

end MacroKeyboard.Executor
