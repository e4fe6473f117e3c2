import MacroKeyboard.Device.WifiAp
import MacroKeyboard.Threads.Program
import MacroKeyboard.Threads.Monitor

namespace MacroKeyboard.AccessPoint

open Device Threads.Program Threads.Monitor

structure WifiApStatus where
  state : WifiApState
  clientCount : Nat
  lastError : AppError
  cleanupError : AppError
deriving DecidableEq, Repr

inductive WifiApEvent
  | started | stopped | clientConnected | clientDisconnected | unknown
deriving DecidableEq, Repr

/-- What the engine acquires of the driver, and releases again. -/
inductive Resource
  | netif | wifi | handler | running
deriving DecidableEq, Repr

/-- A call of the driver that acquires or releases a resource, and its result. -/
inductive Use
  | acquire (result : AppError)
  | release (result : AppError)
deriving DecidableEq, Repr

structure Ownership where
  netifCreated : Bool
  wifiInitialized : Bool
  handlerRegistered : Bool
  wifiStarted : Bool
deriving DecidableEq, Repr

namespace Ownership

def nothing : Ownership := ⟨false, false, false, false⟩

def holds (flags : Ownership) : Resource → Bool
  | .netif => flags.netifCreated
  | .wifi => flags.wifiInitialized
  | .handler => flags.handlerRegistered
  | .running => flags.wifiStarted

def set (flags : Ownership) (resource : Resource) (held : Bool) : Ownership :=
  match resource with
  | .netif => { flags with netifCreated := held }
  | .wifi => { flags with wifiInitialized := held }
  | .handler => { flags with handlerRegistered := held }
  | .running => { flags with wifiStarted := held }

def ownsResources (flags : Ownership) : Bool :=
  flags.netifCreated || flags.wifiInitialized || flags.handlerRegistered || flags.wifiStarted

theorem holds_set (flags : Ownership) (resource other : Resource) (held : Bool) :
    (flags.set resource held).holds other = if other = resource then held else flags.holds other := by
  cases resource <;> cases other <;> rfl

theorem ownsResources_eq_false {flags : Ownership} : flags.ownsResources = false ↔ ∀ resource, flags.holds resource = false := by
  constructor
  · intro h resource
    simp only [ownsResources, Bool.or_eq_false_iff] at h
    cases resource <;> simp only [holds, h]
  · intro h
    have hnetif := h .netif
    have hwifi := h .wifi
    have hhandler := h .handler
    have hrunning := h .running
    simp only [holds] at hnetif hwifi hhandler hrunning
    simp only [ownsResources, hnetif, hwifi, hhandler, hrunning, Bool.or_self]

end Ownership

/-- A finished call of the engine: of a start, whether it got past its checks; of
a stop, what was held when it began, what it did, and what is held after it. -/
inductive CallRecord
  | start (ssid passphrase : List UInt8) (accepted : Bool) (result : AppError)
  | stop (held : List Resource) (uses : Log Resource Use) (result : AppError) (left : List Resource)
deriving DecidableEq, Repr

/-- What the task of the calls owns: the flags, and beside them, what it has done. -/
structure CallerState where
  flags : Ownership
  history : Log Resource Use
  accepted : Bool
  inCall : Bool
  calls : List CallRecord

/-- A status that an event handler writes back, after the one it read, over the
one that it finds. -/
structure WriteBack where
  event : WifiApEvent
  read : WifiApStatus
  found : WifiApStatus
deriving DecidableEq, Repr

/-- The engine: the published status, which the calls and the event handler share,
and what the calls own. -/
structure World where
  status : WifiApStatus
  writeBacks : List WriteBack
  caller : CallerState

abbrev ApProg (α : Type) := Prog World WifiDriver α

def stoppedStatus : WifiApStatus := ⟨.stopped, 0, .none, .none⟩

/-- The engine after `wifi_ap_engine_init`. -/
def initialWorld : World := ⟨stoppedStatus, [], ⟨.nothing, [], false, false, []⟩⟩

section Steps

def releaseOrder : List Resource := [.running, .handler, .wifi, .netif]

def CallerState.heldResources (caller : CallerState) : List Resource := releaseOrder.filter caller.flags.holds

/-- `wifi_started` is set before `wifi_start` is called, the other flags when their
call has succeeded. -/
def heldAfterAcquire (resource : Resource) (result : AppError) : Bool :=
  resource = .running || result = .none

def CallerState.acquired (caller : CallerState) (resource : Resource) (result : AppError) : CallerState :=
  { caller with
    flags := if heldAfterAcquire resource result then caller.flags.set resource true else caller.flags
    history := caller.history ++ [(resource, .acquire result)] }

def CallerState.released (caller : CallerState) (resource : Resource) (result : AppError) : CallerState :=
  { caller with
    flags := if result = .none then caller.flags.set resource false else caller.flags
    history := caller.history ++ [(resource, .release result)] }

def statusGet : ApProg WifiApStatus := Prog.read (·.status)

def publishStatus (status : WifiApStatus) : ApProg Unit := Prog.atomic fun _ world => ((), { world with status })

def ownsResources : ApProg Bool := Prog.read (·.caller.flags.ownsResources)

def acquire (resource : Resource) (call : WifiDriver → AppError) : ApProg AppError :=
  Prog.atomic fun driver world =>
    (call driver, { world with caller := world.caller.acquired resource (call driver) })

def recordFirstError (candidate firstError : AppError) : AppError :=
  if candidate ≠ .none ∧ firstError = .none then candidate else firstError

def releaseCall (driver : WifiDriver) : Resource → AppError
  | .running => driver.wifiStop
  | .handler => driver.handlerUnregister
  | .wifi => driver.wifiDeinit
  | .netif => driver.netifDestroy

/-- One step of `cleanup_resources`. -/
def releaseHeld (resource : Resource) (firstError : AppError) : ApProg AppError :=
  Prog.atomic fun driver world =>
    if world.caller.flags.holds resource then
      (recordFirstError (releaseCall driver resource) firstError,
        { world with caller := world.caller.released resource (releaseCall driver resource) })
    else (firstError, world)

def releaseAll : List Resource → AppError → ApProg AppError
  | [], firstError => pure firstError
  | resource :: rest, firstError => do
    let firstError ← releaseHeld resource firstError
    releaseAll rest firstError

def cleanupResources : ApProg AppError := releaseAll releaseOrder .none

end Steps

section Calls

def failStart (original : AppError) : ApProg AppError := do
  let cleanupError ← cleanupResources
  publishStatus ⟨.error, 0, original, cleanupError⟩
  return original

/-- A call of the driver that a start makes: it goes on with the rest, or fails. -/
def orFail (call : ApProg AppError) (rest : ApProg AppError) : ApProg AppError := do
  let result ← call
  if result ≠ .none then failStart result else rest

/-- The status that a start publishes when its checks have passed. -/
def publishStarting : ApProg Unit :=
  Prog.atomic fun _ world =>
    ((), { world with status := ⟨.starting, 0, .none, .none⟩, caller := { world.caller with accepted := true } })

/-- The calls that bring the access point up. -/
def bringUp (configuration : WifiApRuntimeConfig) : ApProg AppError :=
  orFail (Prog.ask (·.netifInit)) <|
  orFail (Prog.ask fun driver => if driver.eventLoopCreate = .failed then .internal else .none) <|
  orFail (acquire .netif (·.netifCreate)) <|
  orFail (acquire .wifi (·.wifiInit)) <|
  orFail (acquire .handler (·.handlerRegister)) <|
  orFail (Prog.ask (·.setModeAp)) <|
  orFail (Prog.ask (·.setConfig configuration)) <|
  orFail (acquire .running (·.wifiStart)) (pure .none)

def wifiApEngineStart (ssid passphrase : List UInt8) : ApProg AppError := do
  let current ← statusGet
  let owned ← ownsResources
  if current.state ≠ .stopped ∨ owned then return .conflict
  else
    match makeConfiguration ssid passphrase with
    | .error result => return result
    | .ok configuration => do
      publishStarting
      bringUp configuration

/-- A stop of an engine that holds something or is not stopped; `current` is the
status it has read. -/
def stopHeld (current : WifiApStatus) : ApProg AppError := do
  let cleanupError ← cleanupResources
  if cleanupError = .none then do
    publishStatus stoppedStatus
    return .none
  else do
    let original := if current.lastError ≠ .none then current.lastError else cleanupError
    publishStatus ⟨.error, 0, original, cleanupError⟩
    return cleanupError

def wifiApEngineStop : ApProg AppError := do
  let current ← statusGet
  let owned ← ownsResources
  if current.state = .stopped ∧ ¬ owned then return .none else stopHeld current

/-- A call begins: what is held, and how many uses of the driver there were. -/
def callBegins : ApProg (List Resource × Nat) :=
  Prog.atomic fun _ world =>
    ((world.caller.heldResources, world.caller.history.length),
      { world with caller := { world.caller with inCall := true, accepted := false } })

def callEnds (record : CallerState → CallRecord) : ApProg Unit :=
  Prog.atomic fun _ world =>
    ((), { world with caller := { world.caller with
      inCall := false
      calls := world.caller.calls ++ [record world.caller] } })

inductive Call
  | start (ssid passphrase : List UInt8)
  | stop
deriving Repr

def runCall : Call → ApProg Unit
  | .start ssid passphrase => do
    let _ ← callBegins
    let result ← wifiApEngineStart ssid passphrase
    callEnds fun caller => .start ssid passphrase caller.accepted result
  | .stop => do
    let begun ← callBegins
    let result ← wifiApEngineStop
    callEnds fun caller => .stop begun.1 (caller.history.drop begun.2) result caller.heldResources

end Calls

section Events

/-- The status that `wifi_ap_engine_handle_event` writes back, for the one that it
has read. -/
def WifiApEvent.apply (event : WifiApEvent) (current : WifiApStatus) : Option WifiApStatus :=
  match event with
  | .started =>
    some (if current.state = .starting then { current with state := .ready, lastError := .none, cleanupError := .none }
      else current)
  | .stopped => some { current with state := .stopped, clientCount := 0 }
  | .clientConnected =>
    some (if (current.state = .starting ∨ current.state = .ready) ∧ current.clientCount < wifiApMaxClients.toNat then
      { current with clientCount := current.clientCount + 1 } else current)
  | .clientDisconnected =>
    some (if (current.state = .starting ∨ current.state = .ready) ∧ 0 < current.clientCount then
      { current with clientCount := current.clientCount - 1 } else current)
  | .unknown => none

def writeBack (event : WifiApEvent) (read next : WifiApStatus) : ApProg Unit :=
  Prog.atomic fun _ world =>
    ((), { world with status := next, writeBacks := world.writeBacks ++ [⟨event, read, world.status⟩] })

def wifiApEngineHandleEvent (event : WifiApEvent) : ApProg Unit := do
  let current ← statusGet
  match event.apply current with
  | none => pure ()
  | some next => writeBack event current next

end Events

/-- The tasks of the engine: one that makes calls, and the event loop. -/
inductive ApTask : Nat → ApProg Unit → Prop
  | calls (calls : List Call) : ApTask 0 (Prog.inTurn runCall calls)
  | events (events : List WifiApEvent) : ApTask 1 (Prog.inTurn wifiApEngineHandleEvent events)

def apSystem : System World WifiDriver where
  mayStart := ApTask
  stopped _ := false

abbrev ApRun : Config World WifiDriver → Prop := Reachable apSystem initialWorld

end MacroKeyboard.AccessPoint
