import MacroKeyboard.Threads.Program

namespace MacroKeyboard.Webapp

open Threads.Program

def maxConsecutiveTransientPollFailures : Nat := 3

inductive SendState
  | awaitingConfirmation | running | completed | cancelled | failed | timedOut
deriving DecidableEq, Repr

def isTerminalSendState : SendState → Bool
  | .completed | .cancelled | .failed | .timedOut => true
  | .awaitingConfirmation | .running => false

/-- What the client reads of a `SendStatusResponse`. -/
structure SendStatus where
  id : String
  state : SendState
  actionIndex : Nat
deriving DecidableEq, Repr

/-- How a request fails: with an answer of the device, which may be malformed, when
the client gives up waiting, or when the network does. -/
inductive RequestError
  | api (status : Nat) (code message : String)
  | aborted (message : String)
  | network (message : String)
deriving DecidableEq, Repr

namespace RequestError

def message : RequestError → String
  | .api _ code message => code ++ ": " ++ message
  | .aborted message | .network message => message

def isConflict : RequestError → Bool
  | .api status _ _ => status = 409
  | .aborted _ | .network _ => false

/-- The device may have taken the request: no answer came, or one that is no
rejection, or there is a conflict. -/
def outcomeUnknown : RequestError → Bool
  | .api status _ _ => status < 400 || status = 409 || 500 ≤ status
  | .aborted _ | .network _ => true

end RequestError

def isTransientPollFailure : RequestError → Bool
  | .api status _ _ => 500 ≤ status
  | .aborted _ | .network _ => true

inductive ExecutionRecoveryState
  | clear
  | unavailable (message : String) (lastKnown : Option SendStatus)
deriving DecidableEq, Repr

abbrev SendMacroCallbacks : Type := Nat

structure SendTracker where
  id : String
  callbacks : SendMacroCallbacks
  stopped : Bool
  completed : Bool
  previous : Option SendStatus
  consecutiveTransientFailures : Nat
deriving DecidableEq, Repr

/-- What happens in a run: the requests and their answers, by task, and what the
callbacks are told. -/
inductive SendEvent
  | posted (task : Nat)
  | accepted (task : Nat) (id : String)
  | failed (task : Nat) (error : RequestError)
  | deleted
  | asked (task : Nat)
  | polled (task : Nat) (answer : Except RequestError SendStatus)
  | recovered (task : Nat) (answer : Except RequestError (Option SendStatus))
  | tracked (seed : SendStatus)
  | onStatus (callbacks : SendMacroCallbacks) (status : SendStatus)
  | onComplete (callbacks : SendMacroCallbacks) (status : SendStatus)
  | onError (callbacks : SendMacroCallbacks) (error : RequestError)
  | handedOff (status : Option SendStatus)
deriving DecidableEq

/-- The module state and the trackers, by task. -/
structure SendClient where
  recoveryState : ExecutionRecoveryState
  recoveryCallbacks : Option SendMacroCallbacks
  trackers : Nat → Option SendTracker
  log : List SendEvent

structure SendAnswers where
  accepted : Except RequestError String
  status : Except RequestError SendStatus

abbrev SendProg (α : Type) : Type 1 := Prog SendClient SendAnswers α

namespace SendClient

def note (event : SendEvent) (client : SendClient) : SendClient := { client with log := client.log ++ [event] }

def initial : SendClient := ⟨.clear, none, fun _ => none, []⟩

def latched (client : SendClient) : Bool := client.recoveryState ≠ .clear

def markRecoveryUnavailable (error : RequestError) (lastKnown : Option SendStatus)
    (callbacks : Option SendMacroCallbacks) (client : SendClient) : SendClient :=
  { client with
    recoveryState := .unavailable error.message lastKnown
    recoveryCallbacks := callbacks.orElse (fun _ => client.recoveryCallbacks) }

def clearRecoveryState (client : SendClient) : SendClient :=
  { client with recoveryState := .clear, recoveryCallbacks := none }

/-- What the client last knew of the send whose state is unavailable. -/
def lastKnown (client : SendClient) : Option SendStatus :=
  match client.recoveryState with
  | .clear => none
  | .unavailable _ lastKnown => lastKnown

def setTracker (task : Nat) (tracker : SendTracker) (client : SendClient) : SendClient :=
  { client with trackers := fun other => if other = task then some tracker else client.trackers other }

end SendClient

section Track

def isMeaningfulChange (previous : Option SendStatus) (next : SendStatus) : Bool :=
  match previous with
  | none => true
  | some previous => previous.state ≠ next.state || previous.actionIndex ≠ next.actionIndex

/-- `schedulePoll`, and the check and the request of `poll` when the timer fires. -/
def startPoll (task : Nat) (_ : SendAnswers) (client : SendClient) : Bool × SendClient :=
  match client.trackers task with
  | none => (false, client)
  | some tracker => if tracker.stopped || tracker.completed then (false, client) else (true, client.note (.asked task))

/-- A poll that failed; it tells whether another one is scheduled. -/
def pollFailed (task : Nat) (tracker : SendTracker) (error : RequestError) (client : SendClient) : Bool × SendClient :=
  let failures :=
    if isTransientPollFailure error then tracker.consecutiveTransientFailures + 1
    else tracker.consecutiveTransientFailures
  if isTransientPollFailure error ∧ failures < maxConsecutiveTransientPollFailures then
    (true, client.setTracker task { tracker with consecutiveTransientFailures := failures })
  else
    (false, ((client.setTracker task { tracker with stopped := true, consecutiveTransientFailures := failures }
      ).markRecoveryUnavailable error tracker.previous (some tracker.callbacks)).note (.onError tracker.callbacks error))

/-- A poll that read the status of the send it tracks. -/
def pollSucceeded (task : Nat) (tracker : SendTracker) (status : SendStatus) (client : SendClient) : Bool × SendClient :=
  let told := if isMeaningfulChange tracker.previous status then client.note (.onStatus tracker.callbacks status) else client
  let kept := { tracker with previous := some status, consecutiveTransientFailures := 0 }
  if isTerminalSendState status.state then
    if tracker.completed then (false, told.setTracker task kept)
    else
      (false, ((told.setTracker task { kept with completed := true }).clearRecoveryState).note
        (.onComplete tracker.callbacks status))
  else (true, told.setTracker task kept)

/-- What `poll` does with the answer; it tells whether another poll is scheduled. -/
def finishPoll (task : Nat) (answers : SendAnswers) (client : SendClient) : Bool × SendClient :=
  match client.trackers task with
  | none => (false, client)
  | some tracker =>
    if tracker.stopped then (false, client.note (.polled task answers.status))
    else
      match answers.status with
      | .error error => pollFailed task tracker error (client.note (.polled task (.error error)))
      | .ok status =>
        if status.id ≠ tracker.id then (false, client.note (.polled task (.ok status)))
        else pollSucceeded task tracker status (client.note (.polled task (.ok status)))

/-- The timer and the polls of `createSendTracker`. -/
def pollUntilDone (task : Nat) : SendProg Unit :=
  .repeatUntil do
    let started ← .atomic (startPoll task)
    if ¬ started then pure (some ())
    else
      let scheduled ← .atomic (finishPoll task)
      pure (if scheduled then none else some ())

def newTracker (id : String) (seed : Option SendStatus) (callbacks : SendMacroCallbacks) : SendTracker where
  id := id
  callbacks := callbacks
  stopped := false
  completed := match seed with
    | none => false
    | some seed => isTerminalSendState seed.state
  previous := seed
  consecutiveTransientFailures := 0

/-- `stop` of the tracker of a task. -/
def stopTracker (task : Nat) : SendProg Unit :=
  .atomic (fun _ client =>
    match client.trackers task with
    | none => ((), client)
    | some tracker => ((), client.setTracker task { tracker with stopped := true }))

end Track

section Send

/-- The check of `sendMacro`, and its request. -/
def startSend (task : Nat) (_ : SendAnswers) (client : SendClient) : Bool × SendClient :=
  if client.latched then (false, client) else (true, client.note (.posted task))

/-- What `sendMacro` does with the answer; it tells whether there is a tracker. -/
def finishSend (task : Nat) (answers : SendAnswers) (client : SendClient) : Bool × SendClient :=
  match answers.accepted with
  | .error error =>
    let failed := client.note (.failed task error)
    (false, if error.isConflict then failed.markRecoveryUnavailable error none (some task) else failed)
  | .ok id => (true, (client.note (.accepted task id)).setTracker task (newTracker id none task))

def sendMacro (task : Nat) : SendProg Unit := do
  let started ← .atomic (startSend task)
  if ¬ started then pure ()
  else
    let tracking ← .atomic (finishSend task)
    if tracking then pollUntilDone task
    else pure ()

def trackSend (task : Nat) (seed : SendStatus) : SendProg Unit := do
  .atomic (fun _ client =>
    ((), ((client.note (.tracked seed)).clearRecoveryState).setTracker task (newTracker seed.id (some seed) task)))
  pollUntilDone task

def cancelSend : SendProg Unit := .atomic (fun _ client => ((), client.note .deleted))

end Send

section Recover

def recoveredSend (answers : SendAnswers) : Except RequestError (Option SendStatus) :=
  match answers.status with
  | .ok status => .ok (some status)
  | .error (.api status code message) => if status = 404 then .ok none else .error (.api status code message)
  | .error error => .error error

/-- What `recoverSendState` does with the answer. -/
def finishRecovery (task : Nat) (answers : SendAnswers) (client : SendClient) : Unit × SendClient :=
  let read := client.note (.recovered task (recoveredSend answers))
  match recoveredSend answers with
  | .error error => ((), read.markRecoveryUnavailable error read.lastKnown read.recoveryCallbacks)
  | .ok none => ((), read.clearRecoveryState)
  | .ok (some status) =>
    if isTerminalSendState status.state then ((), read.clearRecoveryState)
    else if read.latched then ((), read.clearRecoveryState)
    else ((), read)

def recoverSendState (task : Nat) : SendProg Unit := do
  .atomic (fun _ client => ((), client.note (.asked task)))
  .atomic (finishRecovery task)

/-- What `retryExecutionRecovery` does with the answer; it tells whether there is a
tracker. -/
def finishRetry (task : Nat) (callbacks : Option SendMacroCallbacks) (answers : SendAnswers) (client : SendClient) :
    Bool × SendClient :=
  let read := client.note (.recovered task (recoveredSend answers))
  match recoveredSend answers, callbacks with
  | .error error, _ => (false, read.markRecoveryUnavailable error read.lastKnown callbacks)
  | .ok none, some _ => (false, read.clearRecoveryState)
  | .ok none, none => (false, read.clearRecoveryState.note (.handedOff none))
  | .ok (some status), none => (false, read.clearRecoveryState.note (.handedOff (some status)))
  | .ok (some status), some callbacks =>
    let told := read.clearRecoveryState.note (.onStatus callbacks status)
    if isTerminalSendState status.state then (false, told.note (.onComplete callbacks status))
    else (true, told.setTracker task (newTracker status.id (some status) callbacks))

def retryExecutionRecovery (task : Nat) : SendProg Unit := do
  let callbacks ← .atomic (fun _ client => (client.recoveryCallbacks, client.note (.asked task)))
  let tracking ← .atomic (finishRetry task callbacks)
  if tracking then pollUntilDone task
  else pure ()

end Recover

/-- What the pages of a tab may call at any time. -/
inductive SendTask : Nat → SendProg Unit → Prop
  | send (task : Nat) : SendTask task (sendMacro task)
  | track (task : Nat) (seed : SendStatus) : SendTask task (trackSend task seed)
  | stop (task other : Nat) : SendTask task (stopTracker other)
  | cancel (task : Nat) : SendTask task cancelSend
  | recover (task : Nat) : SendTask task (recoverSendState task)
  | retry (task : Nat) : SendTask task (retryExecutionRecovery task)

def sendSystem : System SendClient SendAnswers where
  mayStart := SendTask
  stopped := fun _ => false

abbrev SendRun : Config SendClient SendAnswers → Prop := Reachable sendSystem .initial

end MacroKeyboard.Webapp
