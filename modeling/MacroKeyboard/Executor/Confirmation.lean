import MacroKeyboard.Executor.History

namespace MacroKeyboard.Executor.Confirmation

open Threads.Program Threads.Monitor

variable {word : List Event} {r : Run}

/-- The execution types or waits for its macro. -/
def isAction : Event → Bool
  | .pressed _ _ _ | .timedAction _ => true
  | _ => false

/-- A confirmation was recorded after the awaiting state was published. -/
def ConfirmedWhileAwaiting (returned : Bool → Prop) (past : List Event) : Prop :=
  ∃ front success back, past = front ++ .confirmRecorded success :: back ∧ returned success ∧
    .published .awaitingConfirmation ∈ front

/-- The worker read a confirmation before any cancellation was recorded. -/
def Consented (returned : Bool → Prop) (past : List Event) : Prop :=
  ∃ front back, past = front ++ .confirmRead true :: back ∧ ConfirmedWhileAwaiting returned front ∧
    ∀ success, .cancelRecorded success ∉ front

/-- How an execution that needs a confirmation goes: it acts only with consent,
and one that ends before its first action is announced types nothing and ends
as its confirmation did. `returned` tells which confirmations count, `excused`
when the terminal state may be missing, `fresh` when the consent counts as its own. -/
structure ConfirmationGate (returned : Bool → Prop) (excused : List Event → Prop) (fresh : Prop)
    (word : List Event) : Prop where
  consent : fresh → Always (fun past event => isAction event = true → Consented returned past) word
  silent : ∀ front code back, word = front ++ .freed code :: back →
    front.count (.published .running) ≤ 1 → ∀ event ∈ word, isAction event = false
  cause : ∀ front code back, word = front ++ .freed code :: back →
    front.count (.published .running) ≤ 1 →
    (.cancelRead true ∈ front → code = .executionCancelled) ∧ (.expired ∈ front → code = .timeout)
  ending : ∀ front code back, word = front ++ .freed code :: back →
    front.count (.published .running) ≤ 1 →
    (∀ state, .published state ∈ back → state = terminalState code) ∧
      (∀ result, .returned result ∈ back → .published (terminalState code) ∈ back ∨ excused word)

/-- The execution was accepted with a confirmation required. -/
def needsConfirmation (word : List Event) : Bool :=
  word.any fun event =>
    match event with
    | .accepted request _ => request.requireConfirmation
    | _ => false

theorem accepted_of_needs (h : needsConfirmation word = true) :
    ∃ request late, .accepted request late ∈ word ∧ request.requireConfirmation = true := by
  obtain ⟨event, hmem, hevent⟩ := List.any_eq_true.mp h
  cases event with
  | accepted request late => exact ⟨request, late, hmem, hevent⟩
  | _ => cases hevent

theorem ConfirmedWhileAwaiting.append {returned : Bool → Prop} {past more : List Event}
    (h : ConfirmedWhileAwaiting returned past) : ConfirmedWhileAwaiting returned (past ++ more) := by
  obtain ⟨front, success, back, rfl, hs, hmem⟩ := h
  exact ⟨front, success, back ++ more, by simp, hs, hmem⟩

theorem Consented.append {returned : Bool → Prop} {past more : List Event}
    (h : Consented returned past) : Consented returned (past ++ more) := by
  obtain ⟨front, back, rfl, hconfirmed, hcancel⟩ := h
  exact ⟨front, back ++ more, by simp, hconfirmed, hcancel⟩

def anyway (_ : Bool) : Prop := True

/-- The confirmation flag of a run that did not claim the engine under an
awaiting state was set while it awaited. -/
theorem confirmed_while_awaiting (h : Traces word r) (hstale : r.progress.staleClaim = false)
    (hc : r.confirmed = true) : ConfirmedWhileAwaiting anyway word := by
  revert hstale hc
  refine Traces.induction (P := fun word r => r.progress.staleClaim = false → r.confirmed = true →
    ConfirmedWhileAwaiting anyway word) nofun ?_ h
  intro word r event htraces ih ha hstale hc
  cases event with
  | claimed state => cases hc
  | confirmRecorded success =>
    have hawaited : r.progress.awaited = true := by
      refine ha.2.2.resolve_right fun hs => ?_
      have hstale' : r.progress.staleClaim = false := hstale
      rw [hstale'] at hs
      cases hs
    exact ⟨word, success, [], rfl, trivial, htraces.awaited_iff.mp hawaited⟩
  | _ => exact (ih hstale hc).append

/-- The stages of an execution that has passed its confirmation. -/
def pastConfirmation : Stage → Bool
  | .confirmed | .ready | .announced | .checked | .holding | .lifted | .pausing => true
  | _ => false

def Consumed (past : List Event) : Prop :=
  ∃ front back, past = front ++ .confirmRead true :: back ∧ ConfirmedWhileAwaiting anyway front

theorem Consumed.append {past more : List Event} (h : Consumed past) : Consumed (past ++ more) := by
  obtain ⟨front, back, rfl, hconfirmed⟩ := h
  exact ⟨front, back ++ more, by simp, hconfirmed⟩

/-- Only the reading of a confirmation leads past it. -/
theorem enters_confirmation {event : Event} (ha : r.allows event)
    (hrequires : (r.after event).progress.requiresConfirmation = true)
    (hpast : pastConfirmation (r.after event).progress.stage = true) :
    pastConfirmation r.progress.stage = true ∨
      (event = .confirmRead true ∧ r.confirmed = true) := by
  cases event with
  | confirmRead value =>
    obtain ⟨hs, hvalue⟩ := ha
    cases value with
    | true => exact Or.inr ⟨rfl, hvalue.symm⟩
    | false => exact Or.inl hpast
  | published state =>
    have hrequires' : r.progress.requiresConfirmation = true := hrequires
    cases hs : r.progress.stage <;>
      simp_all [Run.allows, Stage.next, Stage.afterPublished, pastConfirmation]
  | cancelRead value =>
    cases hs : r.progress.stage <;> cases value <;>
      simp_all [Stage.next, Stage.afterRead, pastConfirmation]
  | released result =>
    cases hs : r.progress.stage <;>
      simp_all [Stage.next, Stage.afterReleased, pastConfirmation]
  | pressed modifiers usages result => exact Or.inl (by rw [ha.1]; rfl)
  | timedAction delayMs => exact Or.inl (by rw [ha.1]; rfl)
  | withdrew succeeded => cases succeeded <;> simp_all [Stage.next, pastConfirmation]
  | cleared =>
    simp only [after_stage, Stage.next, Stage.afterCleared] at hpast
    split at hpast <;> cases hpast
  | returned result =>
    simp only [after_stage, Stage.next, Stage.afterReturned] at hpast
    split at hpast <;> cases hpast
  | _ => first | exact Or.inl hpast | cases hpast

theorem requires_before {event : Event} (hpast : pastConfirmation (r.after event).progress.stage = true)
    (hrequires : (r.after event).progress.requiresConfirmation = true) :
    r.progress.requiresConfirmation = true := by
  cases event with
  | accepted request late => cases hpast
  | _ => exact hrequires

theorem stale_before {event : Event} (hpast : pastConfirmation (r.after event).progress.stage = true)
    (hstale : (r.after event).progress.staleClaim = false) : r.progress.staleClaim = false := by
  cases event with
  | claimed state => cases hpast
  | _ => exact hstale

theorem consumed_of_past (h : Traces word r) (hstale : r.progress.staleClaim = false)
    (hrequires : r.progress.requiresConfirmation = true)
    (hpast : pastConfirmation r.progress.stage = true) : Consumed word := by
  revert hstale hrequires hpast
  refine Traces.induction (P := fun word r => r.progress.staleClaim = false →
    r.progress.requiresConfirmation = true → pastConfirmation r.progress.stage = true →
    Consumed word) (fun _ _ h => nomatch h) ?_ h
  intro word r event htraces ih ha hstale hrequires hpast
  have hstale' := stale_before hpast hstale
  rcases enters_confirmation ha hrequires hpast with hbefore | ⟨rfl, hconfirmed⟩
  · exact (ih hstale' (requires_before hpast hrequires) hbefore).append
  · exact ⟨word, [], rfl, confirmed_while_awaiting htraces hstale' hconfirmed⟩

theorem checked_of_next {event : Event} (hs : (r.after event).progress.stage = .checked) :
    r.progress.stage = .checked ∨ (r.progress.stage = .announced ∧ event = .cancelRead false) := by
  cases event with
  | cancelRead value =>
    cases hstage : r.progress.stage <;> cases value <;> simp_all [Stage.next, Stage.afterRead]
  | published state =>
    cases hstage : r.progress.stage <;> cases state <;> simp_all [Stage.next, Stage.afterPublished]
  | released result =>
    cases hstage : r.progress.stage <;> simp_all [Stage.next, Stage.afterReleased]
  | withdrew succeeded => cases succeeded <;> simp_all [Stage.next]
  | confirmRead value => cases value <;> simp_all [Stage.next]
  | cleared =>
    simp only [after_stage, Stage.next, Stage.afterCleared] at hs
    split at hs <;> cases hs
  | returned result =>
    simp only [after_stage, Stage.next, Stage.afterReturned] at hs
    split at hs <;> cases hs
  | _ => first | exact Or.inl hs | cases hs

theorem consented_of_checked (h : Traces word r) (hstale : r.progress.staleClaim = false)
    (hrequires : r.progress.requiresConfirmation = true) (hs : r.progress.stage = .checked) :
    Consented anyway word := by
  revert hstale hrequires hs
  refine Traces.induction (P := fun word r => r.progress.staleClaim = false →
    r.progress.requiresConfirmation = true → r.progress.stage = .checked → Consented anyway word)
    (fun _ _ h => nomatch h) ?_ h
  intro word r event htraces ih ha hstale hrequires hs
  have hpast : pastConfirmation (r.after event).progress.stage = true := by rw [hs]; rfl
  have hstale' := stale_before hpast hstale
  have hrequires' := requires_before hpast hrequires
  rcases checked_of_next hs with hbefore | ⟨hannounced, rfl⟩
  · exact (ih hstale' hrequires' hbefore).append
  · have hclear : r.cancelled = false := ha.2.symm
    have hnone : ∀ success, Event.cancelRecorded success ∉ word := by
      intro success hmem
      have hset := htraces.cancelled_iff.mpr ⟨success, hmem⟩
      rw [hclear] at hset
      cases hset
    obtain ⟨front, back, rfl, hconfirmed⟩ :=
      consumed_of_past htraces hstale' hrequires' (by rw [hannounced]; rfl)
    exact ⟨front, back ++ [.cancelRead false], by simp, hconfirmed,
      fun success hmem => hnone success (List.mem_append_left _ hmem)⟩

theorem consent_of_traces (h : Traces word r) (hneeds : needsConfirmation word = true)
    (hfresh : .claimed .awaitingConfirmation ∉ word) :
    Always (fun past event => isAction event = true → Consented anyway past) word := by
  intro past event rest hword haction
  rw [hword] at h
  obtain ⟨r₀, hpast, ha⟩ := h.past
  have hs : r₀.progress.stage = .checked := by
    cases event <;> first | exact ha.1 | cases haction
  refine consented_of_checked hpast ?_ ?_ hs
  · by_contra hstale
    have hmem := hpast.staleClaim (by simpa using hstale)
    exact hfresh (by rw [hword]; exact List.mem_append_left _ hmem)
  · obtain ⟨request, late, hmem, hrequire⟩ := accepted_of_needs hneeds
    have hsome : ∃ other, r₀.progress.request = some other := by
      cases hq : r₀.progress.request with
      | some other => exact ⟨other, rfl⟩
      | none => cases event <;> simp_all [Run.allows, Progress.nextAction, isAction]
    obtain ⟨other, hother⟩ := hsome
    obtain ⟨late', hmem'⟩ := (hpast.request_iff other).mpr hother
    have hsame : request = other := by
      have h₁ := (h.request_iff request).mp ⟨late, by rw [← hword]; exact hmem⟩
      have h₂ := (h.request_iff other).mp ⟨late', List.mem_append_left _ hmem'⟩
      exact Option.some.inj (h₁.symm.trans h₂)
    simp [Progress.requiresConfirmation, hother, ← hsame, hrequire]

/-- How often the running state was published before and after the first
action is announced. -/
def Shown : Stage → Nat → Prop
  | .idle, n | .claimed, n | .quiet, n | .withdrawn, n | .restored, n | .queued, n | .taken, n
  | .awaiting, n | .declined, n | .overdue, n | .confirmed, n => n = 0
  | .ready, n => n = 1
  | .announced, n | .checked, n | .holding, n | .lifted, n | .pausing, n => 2 ≤ n
  | _, _ => True

theorem shown_of_traces (h : Traces word r) :
    Shown r.progress.stage (word.count (.published .running)) := by
  refine Traces.induction (P := fun word r => Shown r.progress.stage
    (word.count (.published .running))) rfl ?_ h
  intro word r event htraces ih ha
  rw [List.count_append, after_stage]
  cases event with
  | published state =>
    cases hs : r.progress.stage <;> cases hc : r.progress.requiresConfirmation <;>
      simp_all [Run.allows, Stage.next, Stage.afterPublished, Shown]
    all_goals exact List.count_pos_iff.mp (by omega)
  | cancelRead value =>
    cases hs : r.progress.stage <;> cases value <;>
      simp_all [Run.allows, Stage.next, Stage.afterRead, Shown, Stage.readsCancellation]
  | released result =>
    rcases ha with hs | hs | hs <;> simp_all [Stage.next, Stage.afterReleased, Shown]
  | withdrew succeeded =>
    cases succeeded
    · simpa [Stage.next] using ih
    · rw [ha.1] at ih
      simpa [Stage.next, Shown] using ih
  | confirmRead value =>
    cases value
    · simpa [Stage.next] using ih
    · rw [ha.1] at ih
      simpa [Stage.next, Shown] using ih
  | cleared => rcases ha with hs | hs <;> simp_all [Stage.next, Stage.afterCleared, Shown]
  | returned result => rcases ha.1 with hs | hs <;> simp_all [Stage.next, Stage.afterReturned, Shown]
  | claimed state =>
    rw [ha.1] at ih
    simpa [Stage.next, Shown] using ih
  | accepted request late =>
    rw [ha.1] at ih
    simpa [Stage.next, Shown] using ih
  | dequeued pending =>
    rw [show r.progress.stage = .queued from ha] at ih
    simpa [Stage.next, Shown] using ih
  | expired =>
    rw [show r.progress.stage = .awaiting from ha] at ih
    simpa [Stage.next, Shown] using ih
  | pressed modifiers usages result =>
    rw [ha.1] at ih
    simpa [Stage.next, Shown] using ih
  | timedAction delayMs =>
    rw [ha.1] at ih
    simpa [Stage.next, Shown] using ih
  | freed result => trivial
  | drained => trivial
  | lost => trivial
  | erased => trivial
  | _ => simpa [Stage.next] using ih

/-- The stages of an execution whose plan is freed. -/
def isOver : Stage → Bool
  | .freed | .silent | .cleared | .done | .stuck | .erased => true
  | _ => false

theorem over_next {event : Event} (ha : r.allows event) (hover : isOver r.progress.stage = true) :
    isOver (r.progress.stage.next event) = true ∧ isAction event = false := by
  cases event with
  | published state =>
    cases hs : r.progress.stage <;>
      simp_all [Run.allows, Stage.next, Stage.afterPublished, isOver, isAction]
  | released result =>
    rcases ha with hs | hs | hs <;> simp_all [Stage.next, Stage.afterReleased, isOver, isAction]
  | cleared => rcases ha with hs | hs <;> simp_all [Stage.next, Stage.afterCleared, isOver, isAction]
  | returned result => rcases ha.1 with hs | hs <;> simp_all [Stage.next, Stage.afterReturned, isOver, isAction]
  | freed result => exact ⟨rfl, rfl⟩
  | erased => exact ⟨rfl, rfl⟩
  | latched => exact ⟨hover, rfl⟩
  | cancelRecorded success => exact ⟨hover, rfl⟩
  | confirmRecorded success => exact ⟨hover, rfl⟩
  | notified current => exact ⟨hover, rfl⟩
  | answered error plan => exact ⟨hover, rfl⟩
  | callerFreed => exact ⟨hover, rfl⟩
  | submitted plan => exact ⟨hover, rfl⟩
  | cancelRead value =>
    have hreads := ha.1
    cases hs : r.progress.stage <;> simp_all [isOver, Stage.readsCancellation]
  | waited milliseconds wokenBy result =>
    cases hs : r.progress.stage <;> simp_all [Run.allows, isOver, Stage.mayFree]
  | withdrew succeeded =>
    cases succeeded
    · exact ⟨hover, rfl⟩
    · rw [ha.1] at hover
      cases hover
  | claimed state => rw [ha.1] at hover; cases hover
  | accepted request late => rw [ha.1] at hover; cases hover
  | confirmRead value => rw [ha.1] at hover; cases hover
  | pressed modifiers usages result => rw [ha.1] at hover; cases hover
  | timedAction delayMs => rw [ha.1] at hover; cases hover
  | dequeued pending => rw [show r.progress.stage = .queued from ha] at hover; cases hover
  | expired => rw [show r.progress.stage = .awaiting from ha] at hover; cases hover
  | drained => rw [show r.progress.stage = .queued from ha] at hover; cases hover
  | lost => rw [show r.progress.stage = .queued from ha] at hover; cases hover

theorem over_of_freed (h : Traces word r) {front back : List Event} {code : AppError}
    (hword : word = front ++ .freed code :: back) :
    isOver r.progress.stage = true ∧ ∀ event ∈ back, isAction event = false := by
  revert front back
  refine Traces.induction (P := fun word r => ∀ {front back : List Event},
    word = front ++ .freed code :: back → isOver r.progress.stage = true ∧
      ∀ event ∈ back, isAction event = false) ?_ ?_ h
  · intro front back hword
    simp at hword
  intro word r event htraces ih ha front back hword
  rcases append_singleton_eq.mp hword with ⟨rfl, -, rfl⟩ | ⟨middle, rfl, hmiddle⟩
  · exact ⟨rfl, nofun⟩
  · obtain ⟨hover, hquiet⟩ := ih hmiddle
    obtain ⟨hnext, haction⟩ := over_next ha hover
    refine ⟨hnext, fun other hmem => ?_⟩
    rcases List.mem_append.mp hmem with hmem | hmem
    · exact hquiet other hmem
    · rw [List.mem_singleton.mp hmem]
      exact haction

theorem shown_of_action (h : Traces word r) {event : Event} (hmem : event ∈ word)
    (haction : isAction event = true) : 2 ≤ word.count (.published .running) := by
  obtain ⟨front, back, rfl⟩ := List.append_of_mem hmem
  obtain ⟨r₀, hpast, ha⟩ := h.past
  have hs : r₀.progress.stage = .checked := by
    cases event <;> first | exact ha.1 | cases haction
  have hshown := shown_of_traces hpast
  rw [hs] at hshown
  rw [List.count_append]
  exact Nat.le_add_right_of_le hshown

theorem broken_next {stage : Stage} {event : Event} (hbroken : stage = .declined ∨ stage = .overdue)
    (ha : r.allows event) (hs : r.progress.stage = stage) :
    stage.next event = stage ∨ isOver (stage.next event) = true := by
  rcases hbroken with rfl | rfl <;>
    cases event <;>
      simp_all [Run.allows, Stage.next, Stage.readsCancellation, isOver]

theorem declined_of_read (h : Traces word r) (hmem : .cancelRead true ∈ word)
    (hcount : word.count (.published .running) ≤ 1) :
    r.progress.stage = .declined ∨ isOver r.progress.stage = true := by
  revert hmem hcount
  refine Traces.induction (P := fun word r => Event.cancelRead true ∈ word →
    word.count (.published .running) ≤ 1 → r.progress.stage = .declined ∨
      isOver r.progress.stage = true) nofun ?_ h
  intro word r event htraces ih ha hmem hcount
  rw [List.count_append] at hcount
  rcases List.mem_append.mp hmem with hmem | hmem
  · rcases ih hmem (by omega) with hs | hover
    · rw [after_stage, hs]
      exact broken_next (Or.inl rfl) ha hs
    · exact Or.inr (over_next ha hover).1
  · rw [← List.mem_singleton.mp hmem] at ha ⊢
    have hshown := shown_of_traces htraces
    have hreads := ha.1
    cases hs : r.progress.stage with
    | awaiting => exact Or.inl (by rw [after_stage, hs]; rfl)
    | announced | holding | lifted | pausing =>
      rw [hs] at hshown
      exact absurd (show 2 ≤ word.count (.published .running) from hshown) (by omega)
    | _ => rw [hs] at hreads; cases hreads

theorem overdue_of_expired (h : Traces word r) (hmem : .expired ∈ word) :
    r.progress.stage = .overdue ∨ isOver r.progress.stage = true := by
  revert hmem
  refine Traces.induction (P := fun word r => Event.expired ∈ word → r.progress.stage = .overdue ∨
    isOver r.progress.stage = true) nofun ?_ h
  intro word r event htraces ih ha hmem
  rcases List.mem_append.mp hmem with hmem | hmem
  · rcases ih hmem with hs | hover
    · rw [after_stage, hs]
      exact broken_next (Or.inr rfl) ha hs
    · exact Or.inr (over_next ha hover).1
  · rw [← List.mem_singleton.mp hmem]
    exact Or.inl rfl

/-- A run that was broken off is freed with the error that broke it off. -/
theorem cause_of_freed (h : Traces word r) {front back : List Event} {code : AppError}
    (hword : word = front ++ .freed code :: back) (hcount : front.count (.published .running) ≤ 1) :
    (.cancelRead true ∈ front → code = .executionCancelled) ∧ (.expired ∈ front → code = .timeout) := by
  rw [hword] at h
  obtain ⟨r₀, hfront, ha⟩ := h.past
  have hnotOver : isOver r₀.progress.stage = false := by
    rcases ha with ⟨-, -, hs | hs | hs⟩ | ⟨-, hs | ⟨hs, -⟩ | ⟨hs, -⟩⟩
    all_goals first | (rw [hs]; rfl) | skip
    revert hs
    cases r₀.progress.stage <;> simp [Stage.mayFree, isOver]
  constructor
  · intro hmem
    have hs : r₀.progress.stage = .declined :=
      (declined_of_read hfront hmem hcount).resolve_right (by simp [hnotOver])
    rcases ha with ⟨-, -, hf⟩ | ⟨-, hf⟩
    · rw [hs] at hf
      simp at hf
    · rw [hs] at hf
      simpa [Stage.fails, Stage.mayFree] using hf
  · intro hmem
    have hs : r₀.progress.stage = .overdue :=
      (overdue_of_expired hfront hmem).resolve_right (by simp [hnotOver])
    rcases ha with ⟨-, -, hf⟩ | ⟨-, hf⟩
    · rw [hs] at hf
      simp at hf
    · rw [hs] at hf
      simpa [Stage.fails, Stage.mayFree] using hf

theorem over_of_recorded (h : Traces word r) (hrecorded : r.progress.recorded = true) :
    isOver r.progress.stage = true := by
  revert hrecorded
  refine Traces.induction (P := fun word r => r.progress.recorded = true →
    isOver r.progress.stage = true) nofun ?_ h
  intro word r event htraces ih ha hrecorded
  by_cases hbefore : r.progress.recorded = true
  · exact (over_next ha (ih hbefore)).1
  · cases event with
    | published state =>
      have hs : r.progress.stage = .silent := by
        simpa [Run.after, Progress.record, hbefore] using hrecorded
      rw [after_stage, hs]
      rfl
    | _ => exact absurd hrecorded hbefore

/-- What is published after the plan is freed is the terminal state, and a run
returns with it published or the engine latched. -/
theorem ending_of_freed (h : Traces word r) {front back : List Event} {code : AppError}
    (hword : word = front ++ .freed code :: back) :
    r.progress.result = code ∧ (∀ state, .published state ∈ back → state = terminalState code) ∧
      (r.progress.recorded = true → .published (terminalState code) ∈ back) ∧
      (∀ result, .returned result ∈ back →
        r.progress.recorded = true ∨ r.progress.latched = true) := by
  revert front back code
  refine Traces.induction (P := fun word r => ∀ {front back : List Event} {code : AppError},
    word = front ++ .freed code :: back → r.progress.result = code ∧
      (∀ state, .published state ∈ back → state = terminalState code) ∧
      (r.progress.recorded = true → .published (terminalState code) ∈ back) ∧
      (∀ result, .returned result ∈ back →
        r.progress.recorded = true ∨ r.progress.latched = true)) ?_ ?_ h
  · intro front back code hword
    simp at hword
  intro word r event htraces ih ha front back code hword
  rcases append_singleton_eq.mp hword with ⟨rfl, rfl, rfl⟩ | ⟨middle, rfl, hmiddle⟩
  · refine ⟨rfl, nofun, fun hrecorded => ?_, nofun⟩
    have hover := over_of_recorded htraces hrecorded
    rcases ha with ⟨-, -, hs | hs | hs⟩ | ⟨-, hs | ⟨hs, -⟩ | ⟨hs, -⟩⟩
    all_goals first | (rw [hs] at hover; cases hover) | skip
    revert hs hover
    cases r.progress.stage <;> simp [Stage.mayFree, isOver]
  · obtain ⟨hresult, hpublished, hrecorded, hreturned⟩ := ih hmiddle
    have hover := (over_of_freed htraces hmiddle).1
    cases event with
    | published state =>
      have hs : r.progress.stage = .silent ∧ state = terminalState code := by
        cases hs : r.progress.stage <;> simp_all [Run.allows, isOver]
      refine ⟨hresult, fun other hmem => ?_, fun _ => ?_, fun result hmem => ?_⟩
      · rcases List.mem_append.mp hmem with hmem | hmem
        · exact hpublished other hmem
        · rw [← hs.2, Event.published.inj (List.mem_singleton.mp hmem)]
      · rw [← hs.2]
        simp
      · refine (hreturned result ?_).imp_left fun h => by simp [Run.after, Progress.record, h]
        simpa using hmem
    | returned result =>
      refine ⟨hresult, fun other hmem => hpublished other (by simpa using hmem), fun hr =>
        List.mem_append_left _ (hrecorded hr), fun _ _ => ha.2.2⟩
    | freed other =>
      rcases ha with ⟨-, -, hs | hs | hs⟩ | ⟨-, hs | ⟨hs, -⟩ | ⟨hs, -⟩⟩
      all_goals first | (rw [hs] at hover; cases hover) | skip
      revert hs hover
      cases r.progress.stage <;> simp [Stage.mayFree, isOver]
    | latched =>
      exact ⟨hresult, fun other hmem => hpublished other (by simpa using hmem), fun hr =>
        List.mem_append_left _ (hrecorded hr), fun _ _ => Or.inr rfl⟩
    | _ =>
      exact ⟨hresult, fun other hmem => hpublished other (by simpa using hmem), fun hr =>
        List.mem_append_left _ (hrecorded hr), fun result hmem => hreturned result (by simpa using hmem)⟩

/-- Physical confirmation: the consent of a run that claimed the engine with no
awaiting state published is its own, every recorded confirmation counts, and the
terminal state may be missing when the engine is latched. -/
theorem confirmation_gate {c : Config World Env} (h : ExecutorReachable c) (t : Ticket)
    (hneeds : needsConfirmation (project c.state.log t) = true) :
    ConfirmationGate anyway (fun word => .latched ∈ word) (.claimed .awaitingConfirmation ∉ project c.state.log t)
      (project c.state.log t) := by
  obtain ⟨r, hr⟩ := traces_of_reachable h t
  refine ⟨consent_of_traces hr hneeds, ?_, fun _ _ _ => cause_of_freed hr, ?_⟩
  · intro front code back hword hcount event hmem
    by_contra haction
    rw [hword] at hmem hr
    obtain ⟨r₀, hfront, -⟩ := hr.past
    rcases List.mem_append.mp hmem with hmem | hmem
    · have hshown := shown_of_action hfront hmem (by simpa using haction)
      omega
    · rcases List.mem_cons.mp hmem with rfl | hmem
      · exact haction rfl
      · exact haction ((over_of_freed hr rfl).2 event hmem)
  · intro front code back hword _
    obtain ⟨-, hpublished, hrecorded, hreturned⟩ := ending_of_freed hr hword
    exact ⟨hpublished, fun result hmem =>
      (hreturned result hmem).imp hrecorded fun hl => hr.latched_iff.mp hl⟩

def confirmEnv : Env := { fineEnv with requireConfirmation := true }

/-- A send that waits, a confirmation with this answer of the unlock, and the
rest of the run. -/
def confirmedRun (unlockOk : Bool) : Config World Env :=
  deviceRun [.send ⟨bytes "a", 8, 15⟩, .confirm]
    (turns 2 12 confirmEnv ++ turns 0 8 confirmEnv ++
      turns 3 3 { confirmEnv with unlockOk := unlockOk } ++ turns 0 30 confirmEnv)

theorem confirmation_gate_confirmed :
    (2, Event.pressed 0 [4] .none) ∈ (confirmedRun true).state.log ∧
      (.claimed .awaitingConfirmation ∉ project (confirmedRun true).state.log 2) ∧
      ConfirmationGate anyway (fun word => .latched ∈ word)
        (.claimed .awaitingConfirmation ∉ project (confirmedRun true).state.log 2) (project (confirmedRun true).state.log 2) :=
  ⟨by decide +kernel, by decide +kernel, confirmation_gate (c := confirmedRun true) (deviceRun_reachable _ _) 2
    (by decide +kernel)⟩

theorem Consented.confirmRecorded {returned : Bool → Prop} {past : List Event}
    (h : Consented returned past) : ∃ success, returned success ∧ .confirmRecorded success ∈ past := by
  obtain ⟨front, back, rfl, ⟨front', success, back', rfl, hs, -⟩, -⟩ := h
  exact ⟨success, hs, by simp⟩

/-- A confirmation whose unlock fails is reported as a failure and still lets
the run type. -/
theorem acts_without_success : ∃ c t, ExecutorReachable c ∧
    needsConfirmation (project c.state.log t) = true ∧
    ¬ ConfirmationGate (fun success => success = true) (fun _ => False) True (project c.state.log t) := by
  refine ⟨confirmedRun false, 2, deviceRun_reachable _ _, by decide +kernel, fun hgate => ?_⟩
  have hpressed : .pressed 0 [4] .none ∈ project (confirmedRun false).state.log 2 := by decide +kernel
  have hnever : .confirmRecorded true ∉ project (confirmedRun false).state.log 2 := by decide +kernel
  obtain ⟨past, rest, hword⟩ := List.append_of_mem hpressed
  obtain ⟨success, rfl, hmem⟩ := (hgate.consent trivial past _ rest hword rfl).confirmRecorded
  exact hnever (by rw [hword]; exact List.mem_append_left _ hmem)

end MacroKeyboard.Executor.Confirmation
