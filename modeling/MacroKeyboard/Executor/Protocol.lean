import MacroKeyboard.Executor.Engine

namespace MacroKeyboard.Executor

open Threads.Monitor

inductive Stage
  /-- nothing claimed yet, or refused without a claim -/
  | idle
  /-- busy is claimed; a failing submission is `quiet` after its release,
  `withdrawn` after clearing the flags and `restored` when nothing failed in that -/
  | claimed | quiet | withdrawn | restored
  | queued
  /-- with the worker, before the confirmation, while waiting for it, and when the
  wait saw a cancellation, its deadline pass, or the confirmation -/
  | taken | awaiting | declined | overdue | confirmed
  /-- running: before an action, with the action published, with its check
  passed, with its keys down, with its keys up again, in its delay -/
  | ready | announced | checked | holding | lifted | pausing
  /-- the plan is freed, the last release is issued, the flags are cleared -/
  | freed | silent | cleared
  /-- returned, with the flags cleared or the engine latched -/
  | done | stuck
  /-- taken from the queue by the shutdown, deleted with it, or gone with the engine -/
  | drained | lost | erased
deriving DecidableEq, Repr

inductive Holder
  | submitter | queue | worker | nobody
deriving DecidableEq, Repr

def Stage.holder : Stage → Holder
  | .idle | .claimed | .quiet | .withdrawn | .restored => .submitter
  | .queued => .queue
  | .taken | .awaiting | .declined | .overdue | .confirmed | .ready | .announced | .checked
  | .holding | .lifted | .pausing | .freed | .silent | .cleared => .worker
  | .done | .stuck | .drained | .lost | .erased => .nobody

/-- The stages in which the busy flag belongs to the submission. -/
def Stage.holdsBusy : Stage → Bool
  | .idle | .withdrawn | .restored | .cleared | .done | .erased => false
  | _ => true

/-- The part of a run that only the holder of the submission changes. -/
structure Progress where
  stage : Stage
  /-- the plan that the caller handed over -/
  handed : Option MacroPlan
  request : Option MacroExecutionRequest
  /-- the actions begun -/
  issued : Nat
  result : AppError
  /-- the terminal status was written -/
  recorded : Bool
  latched : Bool
  /-- the awaiting state was published for this submission -/
  awaited : Bool
  /-- busy was claimed while an awaiting state was still published -/
  staleClaim : Bool
deriving DecidableEq, Repr

structure Run where
  progress : Progress
  cancelled : Bool
  confirmed : Bool
  answer : Option AppError
  callerFreed : Bool
deriving DecidableEq, Repr

def freshProgress : Progress := ⟨.idle, none, none, 0, .none, false, false, false, false⟩

def freshRun : Run := ⟨freshProgress, false, false, none, false⟩

def Run.at (r : Run) (stage : Stage) : Run := { r with progress := { r.progress with stage := stage } }

def Progress.requiresConfirmation (p : Progress) : Bool :=
  p.request.any (·.requireConfirmation)

def Progress.nextAction (p : Progress) : Option MacroAction :=
  p.request.bind (fun request => request.plan.actionList[p.issued]?)

def Progress.allIssued (p : Progress) : Prop :=
  ∀ request, p.request = some request → p.issued = request.plan.actionCount

/-- The stages of the worker in which the plan is not yet freed and no key is
down. -/
def Stage.mayFree : Stage → Bool
  | .taken | .awaiting | .confirmed | .ready | .announced | .checked | .lifted | .pausing => true
  | _ => false

def Stage.readsCancellation : Stage → Bool
  | .awaiting | .announced | .holding | .lifted | .pausing => true
  | _ => false

/-- Where a run may be freed with an error. -/
def Stage.fails (stage : Stage) (error : AppError) : Prop :=
  stage.mayFree ∨ (stage = .declined ∧ error = .executionCancelled) ∨
    (stage = .overdue ∧ error = .timeout)

def Progress.finished (p : Progress) : Prop :=
  p.allIssued ∧ (p.stage = .ready ∨ p.stage = .lifted ∨ p.stage = .pausing)

/-- A submission that the engine refused, before claiming it or after cleaning
up, if need be by latching the engine. -/
def Progress.refused (p : Progress) : Prop :=
  p.request = none ∧ (p.stage = .idle ∨ p.stage = .restored ∨
    ((p.stage = .quiet ∨ p.stage = .withdrawn) ∧ p.latched))

def Run.allows (r : Run) : Event → Prop
  | .submitted _ => r.progress.stage = .idle ∧ r.progress.handed = none
  | .claimed _ => r.progress.stage = .idle ∧ r.progress.handed.isSome ∧ r.answer = none ∧
      r.callerFreed = false
  | .accepted request _ => r.progress.stage = .claimed ∧ r.answer = none ∧
      r.callerFreed = false ∧ r.progress.request = none ∧
      r.progress.handed = some request.plan ∧ validateRequest request = .ok ()
  | .withdrew succeeded =>
      if succeeded then r.progress.stage = .withdrawn ∧ r.progress.latched = false
      else (r.progress.stage = .quiet ∨ r.progress.stage = .withdrawn) ∧ r.progress.latched
  | .answered error plan => r.answer = none ∧ r.callerFreed = false ∧
      ((error = .none ∧ r.progress.request.isSome ∧ plan = ⟨none, 0⟩) ∨
        (error ≠ .none ∧ r.progress.refused ∧ r.progress.handed = some plan))
  | .callerFreed => r.callerFreed = false ∧
      ((r.answer = none ∧ r.progress.handed = none) ∨ ∃ error, r.answer = some error ∧ error ≠ .none)
  | .dequeued _ => r.progress.stage = .queued
  | .published state =>
    match r.progress.stage with
    | .quiet => state = .failed
    | .taken => state = if r.progress.requiresConfirmation then .awaitingConfirmation else .running
    | .confirmed | .ready | .lifted | .pausing => state = .running
    | .silent => state = terminalState r.progress.result
    | _ => False
  | .cancelRecorded _ => r.progress.stage.holdsBusy ∧ r.cancelled = false
  | .confirmRecorded _ => r.progress.stage.holdsBusy ∧ r.confirmed = false ∧
      (r.progress.awaited ∨ r.progress.staleClaim)
  | .notified _ => True
  | .cancelRead value => r.progress.stage.readsCancellation ∧ value = r.cancelled
  | .expired => r.progress.stage = .awaiting
  | .confirmRead value => r.progress.stage = .awaiting ∧ value = r.confirmed
  | .waited _ _ _ => r.progress.stage.mayFree ∨ r.progress.stage = .holding
  | .pressed modifiers usages _ => r.progress.stage = .checked ∧
      ∃ action, r.progress.nextAction = some action ∧ action.type ≠ .delay ∧
        action.modifiers = modifiers ∧ action.usages = usages
  | .timedAction delayMs => r.progress.stage = .checked ∧
      ∃ action, r.progress.nextAction = some action ∧ action.type = .delay ∧
        action.delayMs = delayMs
  | .released _ => r.progress.stage = .claimed ∨ r.progress.stage = .holding ∨
      r.progress.stage = .freed
  | .freed result => (result = .none ∧ r.progress.finished) ∨
      (result ≠ .none ∧ r.progress.stage.fails result)
  | .cleared => r.progress.stage = .quiet ∨ r.progress.stage = .silent
  | .latched => r.progress.stage = .quiet ∨ r.progress.stage = .withdrawn ∨
      r.progress.stage = .lifted ∨ r.progress.stage = .silent ∨ r.progress.stage = .cleared
  | .returned _ => (r.progress.stage = .silent ∨ r.progress.stage = .cleared) ∧
      (r.progress.stage = .cleared ∨ r.progress.latched) ∧ (r.progress.recorded ∨ r.progress.latched)
  | .drained => r.progress.stage = .queued
  | .lost => r.progress.stage = .queued
  | .erased => r.progress.stage.holdsBusy ∧ r.progress.stage ≠ .queued ∧
      r.progress.stage.holder ≠ .worker

/-- A clear flag passes the check before an action, a set flag ends the wait
for a confirmation. -/
def Stage.afterRead : Stage → Bool → Stage
  | .announced, false => .checked
  | .awaiting, true => .declined
  | stage, _ => stage

def Stage.afterPublished : Stage → ExecutionState → Stage
  | .taken, .awaitingConfirmation => .awaiting
  | .taken, _ | .confirmed, _ => .ready
  | .ready, _ | .lifted, _ | .pausing, _ => .announced
  | stage, _ => stage

def Stage.afterReleased : Stage → Stage
  | .claimed => .quiet
  | .holding => .lifted
  | _ => .silent

def Stage.afterCleared : Stage → Stage
  | .quiet => .withdrawn
  | _ => .cleared

def Stage.afterReturned : Stage → Stage
  | .cleared => .done
  | _ => .stuck

/-- The stage after an event, where the event is allowed. -/
def Stage.next (stage : Stage) : Event → Stage
  | .claimed _ => .claimed
  | .accepted _ _ => .queued
  | .withdrew succeeded => if succeeded then .restored else stage
  | .dequeued _ => .taken
  | .published state => stage.afterPublished state
  | .cancelRead value => stage.afterRead value
  | .expired => .overdue
  | .confirmRead value => if value then .confirmed else stage
  | .pressed _ _ _ => .holding
  | .timedAction _ => .pausing
  | .released _ => stage.afterReleased
  | .freed _ => .freed
  | .cleared => stage.afterCleared
  | .returned _ => stage.afterReturned
  | .drained => .drained
  | .lost => .lost
  | .erased => .erased
  | .submitted _ | .answered _ _ | .callerFreed | .cancelRecorded _ | .confirmRecorded _ | .notified _
  | .waited _ _ _ | .latched => stage

/-- What an event adds to the progress besides its stage. -/
def Progress.record (p : Progress) : Event → Progress
  | .submitted plan => { p with handed := some plan }
  | .claimed state => { p with staleClaim := state == .awaitingConfirmation }
  | .accepted request _ => { p with request := some request }
  | .dequeued _ => { p with issued := 0 }
  | .published state => { p with
      awaited := p.awaited || state == .awaitingConfirmation
      recorded := p.recorded || p.stage == .silent }
  | .pressed _ _ _ | .timedAction _ => { p with issued := p.issued + 1 }
  | .freed result => { p with result := result }
  | .latched => { p with latched := true }
  | .withdrew _ | .answered _ _ | .callerFreed | .cancelRecorded _ | .confirmRecorded _
  | .notified _ | .cancelRead _ | .expired | .confirmRead _ | .waited _ _ _ | .released _ | .cleared
  | .returned _ | .drained | .lost | .erased => p

/-- What an event changes, at the stages where it is allowed. -/
def Run.after (r : Run) (event : Event) : Run where
  progress := { r.progress.record event with stage := r.progress.stage.next event }
  cancelled := match event with
    | .claimed _ => false
    | .cancelRecorded _ => true
    | _ => r.cancelled
  confirmed := match event with
    | .claimed _ => false
    | .confirmRecorded _ => true
    | _ => r.confirmed
  answer := match event with
    | .answered error _ => some error
    | _ => r.answer
  callerFreed := match event with
    | .callerFreed => true
    | _ => r.callerFreed

@[simp] theorem after_stage (r : Run) (event : Event) :
    (r.after event).progress.stage = r.progress.stage.next event := rfl

open scoped Classical in
noncomputable def Run.advance (r : Run) (event : Event) : Option Run :=
  if r.allows event then some (r.after event) else none

theorem advance_eq_some {r r' : Run} {event : Event} :
    r.advance event = some r' ↔ r.allows event ∧ r' = r.after event := by
  unfold Run.advance
  split_ifs with h
  · simp [h, eq_comm]
  · simp [h]

noncomputable def runIn (log : Log Ticket Event) (t : Ticket) : Option Run :=
  runOf Run.advance freshRun log t

theorem runIn_concat_self {log : Log Ticket Event} {t : Ticket} {event : Event} {r : Run}
    (h : runIn log t = some r) (ha : r.allows event) :
    runIn (log ++ [(t, event)]) t = some (r.after event) := by
  unfold runIn
  rw [runOf_concat_self h]
  exact advance_eq_some.mpr ⟨ha, rfl⟩

theorem runIn_concat_ne {log : Log Ticket Event} {t u : Ticket} {event : Event} (h : t ≠ u) :
    runIn (log ++ [(t, event)]) u = runIn log u :=
  runOf_concat_ne h

/-- The events lead from the start of the protocol to `r`. -/
def Traces (word : List Event) (r : Run) : Prop := follow Run.advance freshRun word = some r

theorem traces_of_runIn {log : Log Ticket Event} {t : Ticket} {r : Run} (h : runIn log t = some r) :
    Traces (project log t) r := h

theorem Traces.concat {word : List Event} {r : Run} {event : Event} (h : Traces word r)
    (ha : r.allows event) : Traces (word ++ [event]) (r.after event) := by
  unfold Traces
  rw [follow_concat, show follow Run.advance freshRun word = some r from h, Option.bind_some]
  exact advance_eq_some.mpr ⟨ha, rfl⟩

theorem Traces.induction {P : List Event → Run → Prop} (hstart : P [] freshRun)
    (hstep : ∀ word r event, Traces word r → P word r → r.allows event →
      P (word ++ [event]) (r.after event))
    {word : List Event} {r : Run} (h : Traces word r) : P word r := by
  have hboth : Traces word r ∧ P word r := by
    refine follow_induction (P := fun word r => Traces word r ∧ P word r) ⟨rfl, hstart⟩ ?_ h
    rintro word r event r' ⟨htraces, hP⟩ hadv
    obtain ⟨ha, rfl⟩ := advance_eq_some.mp hadv
    exact ⟨htraces.concat ha, hstep word r event htraces hP ha⟩
  exact hboth.2

theorem Traces.past {past rest : List Event} {event : Event} {r : Run}
    (h : Traces (past ++ event :: rest) r) : ∃ r₀, Traces past r₀ ∧ r₀.allows event := by
  obtain ⟨r₀, hpast, hrest⟩ := follow_split h
  obtain ⟨r₁, hadv, -⟩ := Option.bind_eq_some_iff.mp hrest
  exact ⟨r₀, hpast, (advance_eq_some.mp hadv).1⟩

theorem request_valid {word : List Event} {r : Run} (h : Traces word r) :
    ∀ request, r.progress.request = some request → validateRequest request = .ok () := by
  refine Traces.induction (P := fun _ r => ∀ request, r.progress.request = some request →
    validateRequest request = .ok ()) nofun ?_ h
  intro word r event _ ih ha
  cases event with
  | accepted accepted late =>
    intro request hr
    cases hr
    exact ha.2.2.2.2.2
  | _ => exact ih

end MacroKeyboard.Executor
