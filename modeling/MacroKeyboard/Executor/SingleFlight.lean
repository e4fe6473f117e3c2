import MacroKeyboard.Executor.History

namespace MacroKeyboard.Executor.SingleFlight

open Threads.Program Threads.Monitor

variable {word : List Event} {r : Run}

/-- The engine or its shutdown frees the plan. -/
def isFree : Event → Bool
  | .freed _ | .drained => true
  | _ => false

/-- The busy flag of the execution is cleared, by itself or with the engine. -/
def isClear : Event → Bool
  | .cleared | .erased => true
  | _ => false

/-- Submissions in the queue, and the execution that has not yet given the
engine back. -/
def outstanding (w : World) : List Ticket :=
  queuedTickets w.queue ++ w.current.toList.filter (fun t => .cleared ∉ project w.log t)

/-- Who owns the plan of a submission: the engine when it reported acceptance,
the caller, with its plan intact, when it did not. -/
structure PlanOwned (word : List Event) : Prop where
  accepted : ∀ plan, .answered .none plan ∈ word → plan = ⟨none, 0⟩ ∧ .callerFreed ∉ word ∧
    ∃ request late, .accepted request late ∈ word ∧ .submitted request.plan ∈ word
  rejected : ∀ error plan, .answered error plan ∈ word → error ≠ .none →
    .submitted plan ∈ word ∧ ∀ request late, .accepted request late ∉ word
  notBoth : ∀ request late, .accepted request late ∈ word → .callerFreed ∉ word

/-- An accepted plan is freed once, and the busy flag of its execution is
cleared once, until the submission is neither queued nor executing. -/
structure Settled (w : World) (t : Ticket) : Prop where
  atMostOnce : (project w.log t).countP isFree ≤ 1 ∧ (project w.log t).countP isClear ≤ 1
  freed : t ∉ queuedTickets w.queue → w.current ≠ some t → (project w.log t).countP isFree = 1
  cleared : t ∉ queuedTickets w.queue → w.current ≠ some t →
    (project w.log t).countP isClear = 1 ∨ .latched ∈ project w.log t ∨
      (.drained ∈ project w.log t ∧ w.owner = some t)

/-- A rejected submission that cleaned up leaves the engine to the others: only
they hold it busy or have latched it. -/
structure Restored (w : World) (t : Ticket) : Prop where
  latch : .latched ∉ project w.log t
  cleared : (project w.log t).countP isClear = 1
  others : w.shutdown.engineErased = false →
    (w.engine.busy = true → ∃ u, u ≠ t ∧ w.owner = some u) ∧
      (w.engine.unavailable = true → ∃ u, u ≠ t ∧ (u, Event.latched) ∈ w.log)

structure Accounted (w : World) : Prop where
  single : (outstanding w).length ≤ 1
  owned : ∀ t, PlanOwned (project w.log t)
  settled : ∀ t request late, (t, Event.accepted request late) ∈ w.log → Settled w t
  restored : ∀ t, (t, Event.withdrew true) ∈ w.log → Restored w t

theorem handed_iff (h : Traces word r) (plan : MacroPlan) :
    .submitted plan ∈ word ↔ r.progress.handed = some plan := by
  refine Traces.induction (P := fun word r => Event.submitted plan ∈ word ↔
    r.progress.handed = some plan) (by simp [freshRun, freshProgress]) ?_ h
  intro word r event _ ih ha
  cases event with
  | submitted other =>
    have hnone : r.progress.handed = none := ha.2
    rw [hnone] at ih
    have hnot : Event.submitted plan ∉ word := fun hmem => by cases ih.mp hmem
    simp [Run.after, Progress.record, hnot, eq_comm]
  | _ => simpa [Run.after, Progress.record] using ih

theorem callerFreed_iff (h : Traces word r) : .callerFreed ∈ word ↔ r.callerFreed = true := by
  refine Traces.induction (P := fun word r => Event.callerFreed ∈ word ↔ r.callerFreed = true)
    (by simp [freshRun]) ?_ h
  intro word r event _ ih ha
  cases event <;> simp [Run.after, ih]

/-- An accepted plan is the one handed over, the caller keeps nothing to free
and hears of no error. -/
theorem request_owned (h : Traces word r) {request : MacroExecutionRequest}
    (hr : r.progress.request = some request) : r.progress.handed = some request.plan ∧
      r.callerFreed = false ∧ ∀ error, r.answer = some error → error = .none := by
  revert hr
  refine Traces.induction (P := fun _ r => r.progress.request = some request →
    r.progress.handed = some request.plan ∧ r.callerFreed = false ∧
      ∀ error, r.answer = some error → error = .none) nofun ?_ h
  intro word r event _ ih ha hr
  cases event with
  | accepted other late =>
    obtain ⟨-, hanswer, hcaller, -, hhanded, -⟩ := ha
    cases hr
    refine ⟨hhanded, hcaller, fun error herror => ?_⟩
    rw [show r.answer = some error from herror] at hanswer
    cases hanswer
  | submitted plan =>
    have hsome := (ih hr).1
    rw [ha.2] at hsome
    cases hsome
  | answered error plan =>
    obtain ⟨hhanded, hcaller, -⟩ := ih hr
    refine ⟨hhanded, hcaller, fun other hother => ?_⟩
    obtain ⟨-, -, ⟨hnone, -⟩ | ⟨-, hrefused, -⟩⟩ := ha
    · exact (Option.some.inj hother).symm.trans hnone
    · have hnone := hrefused.1
      rw [show r.progress.request = some request from hr] at hnone
      cases hnone
  | callerFreed =>
    obtain ⟨hhanded, -, hanswer⟩ := ih hr
    obtain ⟨-, ⟨-, hnone⟩ | ⟨error, herror, hne⟩⟩ := ha
    · rw [hnone] at hhanded
      cases hhanded
    · exact absurd (hanswer error herror) hne
  | _ => exact ih hr

/-- What an answer says about the plan stays true. -/
theorem answer_of_mem (h : Traces word r) {error : AppError} {plan : MacroPlan}
    (hmem : .answered error plan ∈ word) : r.answer = some error ∧
      ((error = .none ∧ r.progress.request.isSome ∧ plan = ⟨none, 0⟩) ∨
        (error ≠ .none ∧ r.progress.handed = some plan)) := by
  revert hmem
  refine Traces.induction (P := fun word r => Event.answered error plan ∈ word →
    r.answer = some error ∧ ((error = .none ∧ r.progress.request.isSome ∧ plan = ⟨none, 0⟩) ∨
      (error ≠ .none ∧ r.progress.handed = some plan))) nofun ?_ h
  intro word r event _ ih ha hmem
  cases event with
  | answered other otherPlan =>
    rcases List.mem_append.mp hmem with hmem | hmem
    · have hsome := (ih hmem).1
      rw [ha.1] at hsome
      cases hsome
    · cases List.mem_singleton.mp hmem
      exact ⟨rfl, ha.2.2.imp_right fun hrejected => ⟨hrejected.1, hrejected.2.2⟩⟩
  | submitted other =>
    obtain ⟨hanswer, hcases⟩ := ih (by simpa using hmem)
    refine ⟨hanswer, hcases.imp_right fun hrejected => ?_⟩
    rw [ha.2] at hrejected
    cases hrejected.2
  | accepted other late =>
    have hanswer := (ih (by simpa using hmem)).1
    rw [ha.2.1] at hanswer
    cases hanswer
  | _ => exact ih (by simpa using hmem)

theorem planOwned_of_traces (h : Traces word r) : PlanOwned word where
  accepted := fun plan hmem => by
    obtain ⟨-, ⟨-, hsome, rfl⟩ | ⟨hne, -⟩⟩ := answer_of_mem h hmem
    · obtain ⟨request, hr⟩ := Option.isSome_iff_exists.mp hsome
      obtain ⟨hhanded, hcaller, -⟩ := request_owned h hr
      obtain ⟨late, haccepted⟩ := (h.request_iff request).mpr hr
      refine ⟨rfl, ?_, request, late, haccepted, (handed_iff h request.plan).mpr hhanded⟩
      rw [callerFreed_iff h, hcaller]
      exact Bool.false_ne_true
    · exact absurd rfl hne
  rejected := fun error plan hmem hne => by
    obtain ⟨hanswer, ⟨hnone, -⟩ | ⟨-, hhanded⟩⟩ := answer_of_mem h hmem
    · exact absurd hnone hne
    · refine ⟨(handed_iff h plan).mpr hhanded, fun request late haccepted => hne ?_⟩
      exact (request_owned h ((h.request_iff request).mp ⟨late, haccepted⟩)).2.2 error hanswer
  notBoth := fun request late haccepted => by
    rw [callerFreed_iff h, (request_owned h ((h.request_iff request).mp ⟨late, haccepted⟩)).2.1]
    exact Bool.false_ne_true

/-- The stages in which an accepted plan is still to be freed. -/
def holdsPlan : Stage → Bool
  | .queued | .taken | .awaiting | .declined | .overdue | .confirmed | .ready | .announced | .checked
  | .holding | .lifted | .pausing => true
  | _ => false

/-- What an event takes from the plans that are still to be freed. -/
def settles : Event → Nat
  | .freed _ | .drained | .lost => 1
  | _ => 0

theorem holdsPlan_next {event : Event} (ha : r.allows event) (hs : r.progress.stage.holder ≠ .submitter) :
    (r.progress.stage.next event).holder ≠ .submitter ∧
      settles event + (holdsPlan (r.progress.stage.next event)).toNat =
        (holdsPlan r.progress.stage).toNat := by
  cases event with
  | freed result =>
    have hholds : holdsPlan r.progress.stage = true := by
      rcases ha with ⟨-, -, hs⟩ | ⟨-, hs⟩
      · rcases hs with hs | hs | hs <;> rw [hs] <;> rfl
      · rcases hs with hs | ⟨hs, -⟩ | ⟨hs, -⟩
        · revert hs
          cases r.progress.stage <;> simp [Stage.mayFree, holdsPlan]
        all_goals
          rw [hs]
          rfl
    rw [hholds]
    exact ⟨by simp [Stage.next, Stage.holder], rfl⟩
  | erased =>
    obtain ⟨hbusy, hqueued, hworker⟩ := ha
    refine ⟨by simp [Stage.next, Stage.holder], ?_⟩
    revert hs hbusy hqueued hworker
    cases r.progress.stage <;> simp [Stage.holder, Stage.holdsBusy, Stage.next, holdsPlan, settles]
  | drained =>
    rw [show r.progress.stage = .queued from ha]
    exact ⟨by simp [Stage.next, Stage.holder], rfl⟩
  | lost =>
    rw [show r.progress.stage = .queued from ha]
    exact ⟨by simp [Stage.next, Stage.holder], rfl⟩
  | dequeued pending =>
    rw [show r.progress.stage = .queued from ha]
    exact ⟨by simp [Stage.next, Stage.holder], rfl⟩
  | expired =>
    rw [show r.progress.stage = .awaiting from ha]
    exact ⟨by simp [Stage.next, Stage.holder], rfl⟩
  | claimed state => rw [ha.1] at hs; exact absurd rfl hs
  | accepted request late => rw [ha.1] at hs; exact absurd rfl hs
  | pressed modifiers usages result =>
    rw [ha.1]
    exact ⟨by simp [Stage.next, Stage.holder], rfl⟩
  | timedAction delayMs =>
    rw [ha.1]
    exact ⟨by simp [Stage.next, Stage.holder], rfl⟩
  | withdrew succeeded =>
    cases succeeded
    · exact ⟨hs, Nat.zero_add _⟩
    · rw [ha.1] at hs
      exact absurd rfl hs
  | confirmRead value =>
    cases value
    · exact ⟨hs, Nat.zero_add _⟩
    · rw [ha.1]
      exact ⟨by simp [Stage.next, Stage.holder], rfl⟩
  | cleared =>
    rcases ha with hstage | hstage <;> rw [hstage] at hs ⊢
    · exact absurd rfl hs
    · exact ⟨by simp [Stage.next, Stage.afterCleared, Stage.holder], rfl⟩
  | released result =>
    rcases ha with hstage | hstage | hstage <;> rw [hstage] at hs ⊢
    · exact absurd rfl hs
    all_goals exact ⟨by simp [Stage.next, Stage.afterReleased, Stage.holder], rfl⟩
  | returned result =>
    rcases ha.1 with hstage | hstage <;> rw [hstage]
    all_goals exact ⟨by simp [Stage.next, Stage.afterReturned, Stage.holder], rfl⟩
  | cancelRead value =>
    revert hs
    cases r.progress.stage <;> cases value <;> simp [Stage.next, Stage.afterRead, Stage.holder, holdsPlan, settles]
  | published state =>
    revert hs
    cases r.progress.stage <;> cases state <;>
      simp [Stage.next, Stage.afterPublished, Stage.holder, holdsPlan, settles]
  | _ => exact ⟨hs, Nat.zero_add _⟩

theorem settles_eq (event : Event) : settles event =
    (if isFree event then 1 else 0) + if event = .lost then 1 else 0 := by
  cases event <;> rfl

/-- The stages of a submission whose plan the engine never had. -/
def unowned : Stage → Bool
  | .idle | .claimed | .quiet | .withdrawn | .restored | .erased => true
  | _ => false

theorem unowned_next {event : Event} (ha : r.allows event) (hs : unowned r.progress.stage = true)
    (haccepted : ∀ request late, event ≠ .accepted request late) :
    unowned (r.progress.stage.next event) = true ∧ settles event = 0 := by
  have hnot : ∀ stage, unowned stage = false → r.progress.stage ≠ stage := by
    rintro stage hstage rfl
    rw [hs] at hstage
    cases hstage
  cases event with
  | accepted request late => exact absurd rfl (haccepted request late)
  | freed result =>
    rcases ha with ⟨-, -, hstage⟩ | ⟨-, hstage⟩
    · rcases hstage with hstage | hstage | hstage <;> exact absurd hstage (hnot _ rfl)
    · rcases hstage with hstage | ⟨hstage, -⟩ | ⟨hstage, -⟩
      · revert hs hstage
        cases r.progress.stage <;> simp [Stage.mayFree, unowned]
      all_goals exact absurd hstage (hnot _ rfl)
  | dequeued pending => exact absurd ha (hnot _ rfl)
  | drained => exact absurd ha (hnot _ rfl)
  | lost => exact absurd ha (hnot _ rfl)
  | expired => exact absurd ha (hnot _ rfl)
  | pressed modifiers usages result => exact absurd ha.1 (hnot _ rfl)
  | timedAction delayMs => exact absurd ha.1 (hnot _ rfl)
  | confirmRead value => exact absurd ha.1 (hnot _ rfl)
  | withdrew succeeded =>
    cases succeeded
    · exact ⟨hs, rfl⟩
    · exact ⟨rfl, rfl⟩
  | cleared =>
    rcases ha with hstage | hstage
    · exact ⟨by rw [hstage]; rfl, rfl⟩
    · exact absurd hstage (hnot _ rfl)
  | released result =>
    rcases ha with hstage | hstage | hstage
    · exact ⟨by rw [hstage]; rfl, rfl⟩
    all_goals exact absurd hstage (hnot _ rfl)
  | returned result => rcases ha.1 with hstage | hstage <;> exact absurd hstage (hnot _ rfl)
  | cancelRead value =>
    obtain ⟨hreads, -⟩ := ha
    revert hs hreads
    cases r.progress.stage <;> simp [Stage.readsCancellation, unowned]
  | published state =>
    revert hs
    cases r.progress.stage <;> simp [Stage.next, Stage.afterPublished, unowned, settles]
  | claimed state => exact ⟨rfl, rfl⟩
  | erased => exact ⟨rfl, rfl⟩
  | _ => exact ⟨hs, rfl⟩

theorem unowned_of_traces (h : Traces word r) (hr : r.progress.request = none) :
    unowned r.progress.stage = true ∧ word.countP isFree + word.count .lost = 0 := by
  revert hr
  refine Traces.induction (P := fun word r => r.progress.request = none →
    unowned r.progress.stage = true ∧ word.countP isFree + word.count .lost = 0)
    (fun _ => ⟨rfl, rfl⟩) ?_ h
  intro word r event _ ih ha hr
  have haccepted : ∀ request late, event ≠ .accepted request late := by
    rintro request late rfl
    cases hr
  have hbefore : r.progress.request = none := by
    cases event with
    | accepted request late => exact absurd rfl (haccepted request late)
    | _ => exact hr
  obtain ⟨hs, hsum⟩ := ih hbefore
  obtain ⟨hnext, hstep⟩ := unowned_next ha hs haccepted
  rw [settles_eq] at hstep
  refine ⟨hnext, ?_⟩
  simp only [List.countP_append, List.countP_singleton, List.count_append, List.count_singleton,
    beq_iff_eq]
  omega

/-- An accepted plan is freed, lost or still held, and only one of these. -/
theorem plan_conserved (h : Traces word r) (hr : r.progress.request.isSome) :
    r.progress.stage.holder ≠ .submitter ∧
      word.countP isFree + word.count .lost + (holdsPlan r.progress.stage).toNat = 1 := by
  revert hr
  refine Traces.induction (P := fun word r => r.progress.request.isSome →
    r.progress.stage.holder ≠ .submitter ∧
      word.countP isFree + word.count .lost + (holdsPlan r.progress.stage).toNat = 1)
    (fun h => absurd h (by simp [freshRun, freshProgress])) ?_ h
  intro word r event htraces ih ha hr
  by_cases hbefore : r.progress.request.isSome = true
  · obtain ⟨hs, hsum⟩ := ih hbefore
    obtain ⟨hnext, hstep⟩ := holdsPlan_next ha hs
    refine ⟨hnext, ?_⟩
    rw [settles_eq] at hstep
    simp only [List.countP_append, List.countP_singleton, List.count_append, List.count_singleton,
      after_stage, beq_iff_eq]
    omega
  · cases event with
    | accepted request late =>
      have hnone := (unowned_of_traces htraces ha.2.2.2.1).2
      refine ⟨by simp [Stage.next, Stage.holder], ?_⟩
      rw [List.countP_append, List.count_append]
      show word.countP isFree + 0 + (word.count .lost + 0) + 1 = 1
      omega
    | _ => exact absurd hr hbefore

/-- The busy flag has been cleared of every submission that had claimed it and
holds it no longer. -/
theorem clears_of_traces (h : Traces word r) : word.countP isClear =
    if r.progress.stage = .idle ∨ r.progress.stage.holdsBusy then 0 else 1 := by
  refine Traces.induction (P := fun word r => word.countP isClear =
    if r.progress.stage = .idle ∨ r.progress.stage.holdsBusy then 0 else 1) rfl ?_ h
  intro word r event _ ih ha
  rw [List.countP_append, List.countP_singleton, ih, after_stage]
  cases event with
  | published state =>
    cases r.progress.stage <;> cases state <;> rfl
  | cancelRead value => cases r.progress.stage <;> cases value <;> rfl
  | erased =>
    obtain ⟨hbusy, -⟩ := ha
    rw [if_pos (Or.inr hbusy)]
    rfl
  | cleared => rcases ha with hs | hs <;> rw [hs] <;> rfl
  | released result => rcases ha with hs | hs | hs <;> rw [hs] <;> rfl
  | returned result => rcases ha.1 with hs | hs <;> rw [hs] <;> rfl
  | withdrew succeeded =>
    cases succeeded
    · rfl
    · rw [ha.1]
      rfl
  | confirmRead value =>
    cases value
    · rfl
    · rw [ha.1]
      rfl
  | claimed state => rw [ha.1]; rfl
  | accepted request late => rw [ha.1]; rfl
  | dequeued pending => rw [show r.progress.stage = .queued from ha]; rfl
  | expired => rw [show r.progress.stage = .awaiting from ha]; rfl
  | pressed modifiers usages result => rw [ha.1]; rfl
  | timedAction delayMs => rw [ha.1]; rfl
  | lost => rw [show r.progress.stage = .queued from ha]; rfl
  | drained => rw [show r.progress.stage = .queued from ha]; rfl
  | freed result =>
    have hbusy : r.progress.stage.holdsBusy = true := by
      rcases ha with ⟨-, -, hs⟩ | ⟨-, hs⟩
      · rcases hs with hs | hs | hs <;> rw [hs] <;> rfl
      · rcases hs with hs | ⟨hs, -⟩ | ⟨hs, -⟩
        · revert hs
          cases r.progress.stage <;> simp [Stage.mayFree, Stage.holdsBusy]
        all_goals
          rw [hs]
          rfl
    rw [if_pos (Or.inr hbusy)]
    rfl
  | _ => rfl

theorem restored_of_withdrew (h : Traces word r) (hmem : .withdrew true ∈ word) :
    r.progress.latched = false ∧ r.progress.stage = .restored := by
  revert hmem
  refine Traces.induction (P := fun word r => Event.withdrew true ∈ word →
    r.progress.latched = false ∧ r.progress.stage = .restored) nofun ?_ h
  intro word r event _ ih ha hmem
  rcases List.mem_append.mp hmem with hmem | hmem
  · obtain ⟨hlatched, hs⟩ := ih hmem
    cases event <;>
      simp_all [Run.allows, Run.after, Progress.record, Stage.next, Stage.mayFree, Stage.fails,
        Progress.finished, Stage.readsCancellation, Stage.holdsBusy]
  · rw [← List.mem_singleton.mp hmem] at ha ⊢
    exact ⟨ha.2, rfl⟩

/-- What has happened to a submission in its last stages. -/
def Entered (word : List Event) : Stage → Prop
  | .cleared => .cleared ∈ word
  | .stuck => .latched ∈ word
  | .drained => .drained ∈ word
  | .lost => .lost ∈ word
  | _ => True

theorem Entered.append {stage : Stage} (h : Entered word stage) (more : List Event) :
    Entered (word ++ more) stage := by
  cases stage <;> first | exact List.mem_append_left _ h | trivial

theorem entered_of_traces (h : Traces word r) : Entered word r.progress.stage := by
  refine Traces.induction (P := fun word r => Entered word r.progress.stage) trivial ?_ h
  intro word r event htraces ih ha
  rw [after_stage]
  cases event with
  | published state =>
    have happend := ih.append [.published state]
    revert happend
    cases r.progress.stage <;> cases state <;> simp [Stage.next, Stage.afterPublished, Entered]
  | cancelRead value =>
    have happend := ih.append [.cancelRead value]
    revert happend
    cases r.progress.stage <;> cases value <;> simp [Stage.next, Stage.afterRead, Entered]
  | released result => rcases ha with hs | hs | hs <;> rw [hs] <;> trivial
  | cleared =>
    rcases ha with hs | hs
    · rw [hs]
      trivial
    · rw [hs]
      exact List.mem_append_right _ (List.mem_singleton_self _)
  | returned result =>
    obtain ⟨hs, hlatched, -⟩ := ha
    rcases hs with hs | hs
    · have hl := hlatched.resolve_left (by rw [hs]; simp)
      rw [hs]
      exact List.mem_append_left _ (htraces.latched_iff.mp hl)
    · rw [hs]
      trivial
  | drained => exact List.mem_append_right _ (List.mem_singleton_self _)
  | lost => exact List.mem_append_right _ (List.mem_singleton_self _)
  | withdrew succeeded =>
    cases succeeded
    · exact ih.append _
    · trivial
  | confirmRead value =>
    cases value
    · exact ih.append _
    · trivial
  | _ => first | exact ih.append _ | trivial

section Accounting

variable {w : World} {t : Ticket}

theorem mem_queue_of_fits (hf : Fits w t r) (hs : r.progress.stage = .queued) :
    t ∈ queuedTickets w.queue := by
  have hcount := hf.queued
  rw [if_pos hs] at hcount
  exact List.count_pos_iff.mp (by omega)

theorem queued_of_mem (hf : Fits w t r) (hmem : t ∈ queuedTickets w.queue) :
    r.progress.stage = .queued := by
  by_contra hs
  have hcount := hf.queued
  rw [if_neg hs] at hcount
  exact List.count_eq_zero.mp hcount hmem

theorem owner_of_outstanding (hw : Inv w) (hmem : t ∈ outstanding w) : w.owner = some t := by
  obtain ⟨r, hr, hf⟩ := hw.fits t
  apply hf.owner.mp
  rcases List.mem_append.mp hmem with hmem | hmem
  · rw [queued_of_mem hf hmem]
    rfl
  · obtain ⟨hcurrent, hcleared⟩ := List.mem_filter.mp hmem
    have hworker := hf.current.mpr (Option.mem_toList.mp hcurrent)
    have hne : r.progress.stage ≠ .cleared := fun hs =>
      of_decide_eq_true hcleared (by simpa [hs, Entered] using entered_of_traces (traces_of_runIn hr))
    revert hworker hne
    cases r.progress.stage <;> simp [Stage.holder, Stage.holdsBusy]

theorem outstanding_nodup (hw : Inv w) : (outstanding w).Nodup := by
  refine List.nodup_append.mpr ⟨List.nodup_iff_count_le_one.mpr fun t => ?_, ?_, ?_⟩
  · obtain ⟨r, -, hf⟩ := hw.fits t
    rw [hf.queued]
    split_ifs <;> omega
  · refine List.Nodup.filter _ ?_
    cases w.current <;> simp
  · rintro t hqueued u hcurrent rfl
    obtain ⟨r, -, hf⟩ := hw.fits t
    have hworker := hf.current.mpr (Option.mem_toList.mp (List.mem_filter.mp hcurrent).1)
    rw [queued_of_mem hf hqueued] at hworker
    cases hworker

theorem outstanding_le_one (hw : Inv w) : (outstanding w).length ≤ 1 := by
  cases howner : w.owner with
  | none =>
    have hnil : outstanding w = [] := List.eq_nil_iff_forall_not_mem.mpr fun t hmem => by
      have hsome := owner_of_outstanding hw hmem
      rw [howner] at hsome
      cases hsome
    rw [hnil]
    exact Nat.zero_le _
  | some t =>
    have hsub : outstanding w ⊆ [t] := fun u hmem => by
      have hsome := owner_of_outstanding hw hmem
      rw [howner] at hsome
      exact List.mem_singleton.mpr (Option.some.inj hsome).symm
    exact (List.Nodup.subperm (outstanding_nodup hw) hsub).length_le

/-- A submission that no thread holds any more has lost its plan only if it
reached the queue late, and the busy flag only to its own latch or to the
shutdown. -/
theorem settled_of_idle (h : Traces word r) (hr : r.progress.request.isSome) (hlost : .lost ∉ word)
    (hqueue : r.progress.stage ≠ .queued) (hworker : r.progress.stage.holder ≠ .worker) :
    word.countP isFree = 1 ∧ (r.progress.stage.holdsBusy = true →
      r.progress.stage = .stuck ∨ r.progress.stage = .drained ∨ r.progress.stage = .lost) ∧
      r.progress.stage ≠ .idle := by
  obtain ⟨hsubmitter, hsum⟩ := plan_conserved h hr
  rw [List.count_eq_zero.mpr hlost] at hsum
  revert hqueue hworker hsubmitter hsum
  cases r.progress.stage <;> simp [Stage.holder, holdsPlan, Stage.holdsBusy]

theorem settled_counts (h : Traces word r) (hr : r.progress.request.isSome) :
    word.countP isFree ≤ 1 ∧ word.countP isClear ≤ 1 := by
  obtain ⟨-, hsum⟩ := plan_conserved h hr
  refine ⟨by omega, ?_⟩
  rw [clears_of_traces h]
  split_ifs <;> omega

theorem settled_of_inv (hw : Inv w) (hlost : NoLate w.log)
    (hr : runIn w.log t = some r) (hsome : r.progress.request.isSome) : Settled w t where
  atMostOnce := settled_counts (traces_of_runIn hr) hsome
  freed := fun hqueue hcurrent => by
    have hf := hw.fits_of_run hr
    have hnone : .lost ∉ project w.log t := fun hmem =>
      hw.orderly.noLoss hlost t (mem_project.mp hmem)
    exact (settled_of_idle (traces_of_runIn hr) hsome hnone
      (fun hs => hqueue (mem_queue_of_fits hf hs)) fun hs => hcurrent (hf.current.mp hs)).1
  cleared := fun hqueue hcurrent => by
    have hf := hw.fits_of_run hr
    have htraces := traces_of_runIn hr
    have hnone : .lost ∉ project w.log t := fun hmem =>
      hw.orderly.noLoss hlost t (mem_project.mp hmem)
    obtain ⟨-, hbusy, hidle⟩ := settled_of_idle htraces hsome hnone
      (fun hs => hqueue (mem_queue_of_fits hf hs)) fun hs => hcurrent (hf.current.mp hs)
    have hentered := entered_of_traces htraces
    by_cases hholds : r.progress.stage.holdsBusy = true
    · rcases hbusy hholds with hs | hs | hs <;> rw [hs] at hentered
      · exact Or.inr (Or.inl hentered)
      · exact Or.inr (Or.inr ⟨hentered, hf.owner.mp hholds⟩)
      · exact absurd hentered hnone
    · refine Or.inl ?_
      rw [clears_of_traces htraces, if_neg (by simp [hidle, hholds])]

theorem settled_of_final (hw : Final w) (hlost : NoLate w.log) {late : Bool}
    {request : MacroExecutionRequest} (hmem : (t, Event.accepted request late) ∈ w.log) :
    Settled w t := by
  obtain ⟨r, hr, hbusy, hworker⟩ := hw.runs t
  have htraces := traces_of_runIn hr
  have hrequest := (htraces.request_iff request).mp ⟨late, mem_project.mpr hmem⟩
  have hsome : r.progress.request.isSome := by rw [hrequest]; rfl
  have hnone : .lost ∉ project w.log t := fun hmem => hw.noLoss hlost t (mem_project.mp hmem)
  have hqueued : r.progress.stage ≠ .queued := fun hs => by
    rw [hs] at hbusy
    cases hbusy
  obtain ⟨hfree, -, hidle⟩ := settled_of_idle htraces hsome hnone hqueued hworker
  refine ⟨settled_counts htraces hsome, fun _ _ => hfree, fun _ _ => Or.inl ?_⟩
  rw [clears_of_traces htraces, if_neg (by simp [hidle, hbusy])]

theorem restored_of_reachable {c : Config World Env} (h : ExecutorReachable c)
    (hmem : (t, Event.withdrew true) ∈ c.state.log) : Restored c.state t := by
  obtain ⟨r, hr⟩ := runs_of_reachable h t
  have htraces := traces_of_runIn hr
  obtain ⟨hlatched, hs⟩ := restored_of_withdrew htraces (mem_project.mpr hmem)
  have hlatch : .latched ∉ project c.state.log t := by
    rw [← htraces.latched_iff, hlatched]
    exact Bool.false_ne_true
  refine ⟨hlatch, ?_, fun herased => ?_⟩
  · rw [clears_of_traces htraces, hs]
    rfl
  · rcases inv_of_reachable h with hfinal | hw
    · have hstopped := hfinal.erased
      rw [herased] at hstopped
      cases hstopped
    · have hf := hw.fits_of_run hr
      refine ⟨fun hbusy => ?_, fun hunavailable => ?_⟩
      · rw [hw.busy] at hbusy
        obtain ⟨u, hu⟩ := Option.isSome_iff_exists.mp hbusy
        refine ⟨u, ?_, hu⟩
        rintro rfl
        have hholds := hf.owner.mpr hu
        rw [hs] at hholds
        cases hholds
      · obtain ⟨u, hu⟩ := hw.orderly.latched hunavailable
        refine ⟨u, ?_, hu⟩
        rintro rfl
        exact hlatch (mem_project.mpr hu)

/-- Single flight and plan ownership: as long as no submission enters the queue
after the shutdown found it empty, every submission is accounted for. -/
theorem accounted_of_reachable {c : Config World Env} (h : ExecutorReachable c)
    (hlate : NoLate c.state.log) : Accounted c.state where
  single := by
    rcases inv_of_reachable h with hfinal | hw
    · rw [outstanding, hfinal.queue, hfinal.current]
      exact Nat.zero_le _
    · exact outstanding_le_one hw
  owned := fun t => by
    obtain ⟨r, hr⟩ := traces_of_reachable h t
    exact planOwned_of_traces hr
  settled := fun t request late hmem => by
    rcases inv_of_reachable h with hfinal | hw
    · exact settled_of_final hfinal hlate hmem
    · obtain ⟨r, hr⟩ := runs_of_reachable h t
      have hrequest := ((traces_of_runIn hr).request_iff request).mp ⟨late, mem_project.mpr hmem⟩
      exact settled_of_inv hw hlate hr (by rw [hrequest]; rfl)
  restored := fun t hmem => restored_of_reachable h hmem

end Accounting

theorem noLate_iff {log : Log Ticket Event} : NoLate log ↔ log.all (fun entry =>
    match entry.2 with
    | .accepted _ late => !late
    | _ => true) = true := by
  rw [List.all_eq_true]
  constructor
  · rintro h ⟨t, event⟩ hmem
    cases event with
    | accepted request late =>
      cases late
      · rfl
      · exact absurd hmem (h t request)
    | _ => rfl
  · intro h t request hmem
    cases h _ hmem

/-- A send that types its macro while a second one is turned away. -/
def busyRun : Config World Env :=
  deviceRun [.send ⟨bytes "a", 8, 15⟩, .send ⟨bytes "b", 8, 15⟩]
    (turns 2 12 fineEnv ++ turns 3 12 fineEnv ++ turns 0 40 fineEnv)

theorem accounted_busyRun :
    (2, Event.freed .none) ∈ busyRun.state.log ∧ (3, Event.callerFreed) ∈ busyRun.state.log ∧
      Accounted busyRun.state :=
  ⟨by decide +kernel, by decide +kernel, accounted_of_reachable (c := busyRun) (deviceRun_reachable _ _)
    (noLate_iff.mpr (by decide +kernel))⟩

/-- A send that passes the check of the shutdown before it begins, and enters
the queue between its drain and its deletion. -/
def lateRun : Config World Env :=
  deviceRun [.send ⟨bytes "a", 8, 15⟩]
    (turns 2 9 fineEnv ++ turns 1 9 fineEnv ++ turns 0 9 fineEnv ++ turns 1 5 fineEnv ++ turns 2 3 fineEnv ++
      turns 1 3 fineEnv)

/-- A plan that was accepted late is deleted with the queue and never freed. -/
theorem late_plan_is_lost : ¬ ∀ c, ExecutorReachable c → Accounted c.state := by
  intro hall
  have hsettled := (hall lateRun (deviceRun_reachable _ _)).settled 2
  have haccepted : lateRun.state.log.any (fun entry =>
      entry.1 == 2 && match entry.2 with
        | .accepted _ _ => true
        | _ => false) = true := by decide +kernel
  obtain ⟨⟨t, event⟩, hmem, hentry⟩ := List.any_eq_true.mp haccepted
  cases event with
  | accepted request late =>
    obtain rfl : t = 2 := by simpa using hentry
    have hfreed := (hsettled request late hmem).freed (by decide +kernel) (by decide +kernel)
    exact absurd hfreed (by decide +kernel)
  | _ => simp at hentry

end MacroKeyboard.Executor.SingleFlight
