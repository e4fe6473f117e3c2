import MacroKeyboard.Limits
import MacroKeyboard.Threads.Program
import MacroKeyboard.Threads.Monitor

namespace MacroKeyboard.Async

open Threads.Program Threads.Monitor

abbrev Request : Type := Nat

/-- What happens to one request, to its body and to its item. -/
inductive AsyncEvent
  | arrived
  | claimed
  /-- its item was allocated, around the body that was read -/
  | allocated
  /-- taken over from the server, which has to be told when it is complete -/
  | taken
  /-- put into the queue; `late` when the worker had left its loop -/
  | queued (late : Bool)
  | received
  | answered (sent : Bool)
  | bodyFreed
  | itemFreed
  | completed (succeeded : Bool)
  | released
deriving DecidableEq, Repr

/-- `async_queue`, with what is in it; `none` is the sentinel. -/
inductive QueueHandle
  | null
  | live (items : List (Option Request))
  | deleted
deriving DecidableEq, Repr

/-- The four variables of the subsystem, and fields that no code reads: the number of
arrivals, how far the worker and a stop have come, whether the queue was used when it
was not there, and the log. -/
structure AsyncState where
  asyncTaskHandle : Bool
  asyncQueue : QueueHandle
  /-- `async_stopped`, with whether it was given -/
  asyncStopped : Option Bool
  asyncInFlight : Bool
  arrivals : Nat
  workerExited : Bool
  flagReset : Bool
  faulted : Bool
  log : Log Request AsyncEvent
deriving DecidableEq, Repr

structure AsyncEnv where
  /-- of a queue or semaphore operation that can succeed -/
  platformOk : Bool
  timedOut : Bool
  allocates : Bool
  begins : Bool
  bodyResult : AppError
  sent : Bool
  completes : Bool
deriving DecidableEq, Repr

abbrev AsyncThread (α : Type) : Type 1 := Prog AsyncState AsyncEnv α

namespace AsyncState

def note (s : AsyncState) (request : Request) (event : AsyncEvent) : AsyncState :=
  { s with log := s.log ++ [(request, event)] }

@[simp] theorem note_asyncTaskHandle (s : AsyncState) (n : Request) (e : AsyncEvent) :
    (s.note n e).asyncTaskHandle = s.asyncTaskHandle := rfl
@[simp] theorem note_asyncQueue (s : AsyncState) (n : Request) (e : AsyncEvent) :
    (s.note n e).asyncQueue = s.asyncQueue := rfl
@[simp] theorem note_asyncStopped (s : AsyncState) (n : Request) (e : AsyncEvent) :
    (s.note n e).asyncStopped = s.asyncStopped := rfl
@[simp] theorem note_asyncInFlight (s : AsyncState) (n : Request) (e : AsyncEvent) :
    (s.note n e).asyncInFlight = s.asyncInFlight := rfl
@[simp] theorem note_arrivals (s : AsyncState) (n : Request) (e : AsyncEvent) :
    (s.note n e).arrivals = s.arrivals := rfl
@[simp] theorem note_workerExited (s : AsyncState) (n : Request) (e : AsyncEvent) :
    (s.note n e).workerExited = s.workerExited := rfl
@[simp] theorem note_flagReset (s : AsyncState) (n : Request) (e : AsyncEvent) :
    (s.note n e).flagReset = s.flagReset := rfl

def history (s : AsyncState) (request : Request) : List AsyncEvent := project s.log request

end AsyncState

def noted (request : Request) (event : AsyncEnv → AsyncEvent) : AsyncThread Unit :=
  .atomic fun e s => ((), s.note request (event e))

def answer (request : Request) : AsyncThread Unit := noted request (.answered ·.sent)

def asyncHandlerComplete (request : Request) : AsyncThread Unit := noted request (.completed ·.completes)

def freeBody (request : Request) : AsyncThread Unit := noted request fun _ => .bodyFreed

def freeItem (request : Request) : AsyncThread Unit := noted request fun _ => .itemFreed

def claimInFlight (request : Request) : AsyncThread Bool :=
  .atomic fun _ s =>
    if s.asyncInFlight then (false, s) else (true, { s with asyncInFlight := true }.note request .claimed)

def releaseInFlight (request : Request) : AsyncThread Unit :=
  .atomic fun _ s => ((), { s with asyncInFlight := false }.note request .released)

def arrive : AsyncThread Request :=
  .atomic fun _ s => (s.arrivals, { s with arrivals := s.arrivals + 1 }.note s.arrivals .arrived)

/-- `calloc` of the item. -/
def allocateItem (request : Request) : AsyncThread Bool :=
  .atomic fun e s => if e.allocates then (true, s.note request .allocated) else (false, s)

def asyncHandlerBegin (request : Request) : AsyncThread Bool :=
  .atomic fun e s => if e.begins then (true, s.note request .taken) else (false, s)

def queueSend (request : Request) : AsyncThread Bool :=
  .atomic fun e s =>
    match s.asyncQueue with
    | .live items =>
      if e.platformOk && items.isEmpty then
        (true, { s with asyncQueue := .live [some request] }.note request (.queued s.workerExited))
      else (false, s)
    | .null | .deleted => (false, { s with faulted := true })

/-- How `web_server_async_dispatch` ends when it fails before the request is taken over. -/
def abandonClaim (request : Request) : AsyncThread Unit := do
  releaseInFlight request
  answer request

def webServerAsyncDispatch : AsyncThread Unit := do
  let request ← arrive
  if ← .read (fun s => decide (s.asyncQueue = .null)) then answer request
  else if ← .read (fun s => !s.asyncTaskHandle) then answer request
  else if !(← claimInFlight request) then answer request
  else
    let bodyResult ← .ask (·.bodyResult)
    if bodyResult ≠ .none ∧ bodyResult ≠ .notFound then abandonClaim request
    else if !(← allocateItem request) then
      freeBody request
      abandonClaim request
    else if !(← asyncHandlerBegin request) then
      freeBody request
      freeItem request
      abandonClaim request
    else if ← queueSend request then pure ()
    else
      answer request
      asyncHandlerComplete request
      freeBody request
      freeItem request
      releaseInFlight request

/-- `xQueueReceive` of the worker, which waits until something is there; `none` is the
sentinel. -/
def queueReceive : AsyncThread (Option Request) :=
  .repeatUntil <| .atomic fun e s =>
    match s.asyncQueue with
    | .live [] => (none, s)
    | .live (none :: rest) =>
      if e.platformOk then (some none, { s with asyncQueue := .live rest, workerExited := true }) else (none, s)
    | .live (some request :: rest) =>
      if e.platformOk then (some (some request), { s with asyncQueue := .live rest }.note request .received)
      else (none, s)
    | .null | .deleted => (none, { s with faulted := true })

def webApiHandleCallWithBody (request : Request) : AsyncThread Unit := do
  answer request
  freeBody request

def asyncWorker : AsyncThread Unit := do
  .repeatUntil do
    match ← queueReceive with
    | none => pure (some ())
    | some request =>
      webApiHandleCallWithBody request
      freeItem request
      asyncHandlerComplete request
      releaseInFlight request
      pure none
  .atomic fun e s => ((), if e.platformOk then { s with asyncStopped := s.asyncStopped.map fun _ => true } else s)

/-- `xQueueSend` of the sentinel, which waits for room until its time is over. -/
def sendSentinel : AsyncThread Bool :=
  .repeatUntil <| .atomic fun e s =>
    match s.asyncQueue with
    | .live [] =>
      if e.platformOk then (some true, { s with asyncQueue := .live [none] })
      else (if e.timedOut then some false else none, s)
    | .live (_ :: _) => (if e.timedOut then some false else none, s)
    | .null | .deleted => (some false, { s with faulted := true })

/-- `xSemaphoreTake` of `async_stopped`, which waits until its time is over. -/
def takeStopped : AsyncThread Bool :=
  .repeatUntil <| .atomic fun e s =>
    if s.asyncStopped = some true ∧ e.platformOk then (some true, { s with asyncStopped := some false })
    else (if e.timedOut then some false else none, s)

def webServerAsyncStop : AsyncThread AppError := do
  let missing ← .read fun s => [!s.asyncTaskHandle, decide (s.asyncQueue = .null), s.asyncStopped.isNone]
  if missing.all id then pure .none
  else if missing.any id then pure .internal
  else if !(← sendSentinel) then pure .timeout
  else if !(← takeStopped) then pure .timeout
  else
    .atomic fun _ s => ((), { s with asyncStopped := none })
    .atomic fun _ s => ((), { s with asyncQueue := .deleted })
    .atomic fun _ s => ((), { s with asyncQueue := .null })
    .atomic fun _ s => ((), { s with asyncTaskHandle := false })
    .atomic fun _ s => ((), { s with asyncInFlight := false, flagReset := true })
    pure .none

/-- The server's task, which handles one gated request after the other, the worker, and
a task that stops the subsystem at any time and as often as it likes. -/
inductive AsyncTask : Nat → AsyncThread Unit → Prop
  | server : AsyncTask 0 (.repeatUntil do webServerAsyncDispatch; pure (none : Option Unit))
  | worker : AsyncTask 1 asyncWorker
  | control : AsyncTask 2 (.repeatUntil do let _ ← webServerAsyncStop; pure (none : Option Unit))

/-- A use of the queue when it is not there ends the run. -/
def asyncSystem : System AsyncState AsyncEnv where
  mayStart := AsyncTask
  stopped := (·.faulted)

/-- `web_server_async_start`, when it succeeds. -/
def startedState : AsyncState where
  asyncTaskHandle := true
  asyncQueue := .live []
  asyncStopped := some false
  asyncInFlight := false
  arrivals := 0
  workerExited := false
  flagReset := false
  faulted := false
  log := []

end MacroKeyboard.Async
