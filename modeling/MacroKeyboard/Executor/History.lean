import MacroKeyboard.Executor.Safety

namespace MacroKeyboard.Executor

open Threads.Program Threads.Monitor

variable {word : List Event} {r : Run}

theorem next_ne_idle {stage : Stage} {event : Event} (h : stage ≠ .idle) : stage.next event ≠ .idle := by
  cases event with
  | withdrew succeeded => cases succeeded <;> simp [Stage.next, h]
  | confirmRead value => cases value <;> simp [Stage.next, h]
  | cleared =>
    simp only [Stage.next, Stage.afterCleared]
    split <;> simp
  | returned result =>
    simp only [Stage.next, Stage.afterReturned]
    split <;> simp
  | published state =>
    simp only [Stage.next, Stage.afterPublished]
    split <;> simp_all
  | cancelRead value =>
    simp only [Stage.next, Stage.afterRead]
    split <;> simp_all
  | released result =>
    simp only [Stage.next, Stage.afterReleased]
    split <;> simp_all
  | _ => simp [Stage.next, h]

theorem Traces.request_iff (h : Traces word r) (request : MacroExecutionRequest) :
    (∃ late, .accepted request late ∈ word) ↔ r.progress.request = some request := by
  refine Traces.induction (P := fun word r => (∃ late, Event.accepted request late ∈ word) ↔
    r.progress.request = some request) (by simp [freshRun, freshProgress]) ?_ h
  intro word r event _ ih ha
  cases event with
  | accepted other late =>
    have hnone : r.progress.request = none := ha.2.2.2.1
    rw [hnone] at ih
    simp only [Run.after, Progress.record, Option.some.injEq, List.mem_append, List.mem_singleton,
      Event.accepted.injEq]
    constructor
    · rintro ⟨late, hmem | ⟨rfl, -⟩⟩
      · exact absurd (ih.mp ⟨late, hmem⟩) (by simp)
      · rfl
    · rintro rfl
      exact ⟨late, Or.inr ⟨rfl, rfl⟩⟩
  | _ => simpa [Run.after, Progress.record] using ih

theorem Traces.latched_iff (h : Traces word r) : r.progress.latched = true ↔ .latched ∈ word := by
  refine Traces.induction (P := fun word r => r.progress.latched = true ↔ Event.latched ∈ word)
    (by simp [freshRun, freshProgress]) ?_ h
  intro word r event _ ih ha
  cases event <;> simp [Run.after, Progress.record, ih]

theorem Traces.awaited_iff (h : Traces word r) :
    r.progress.awaited = true ↔ .published .awaitingConfirmation ∈ word := by
  refine Traces.induction (P := fun word r => r.progress.awaited = true ↔
    Event.published .awaitingConfirmation ∈ word) (by simp [freshRun, freshProgress]) ?_ h
  intro word r event _ ih ha
  cases event with
  | published state =>
    simp only [Run.after, Progress.record, Bool.or_eq_true, beq_iff_eq, ih, List.mem_append,
      List.mem_singleton, Event.published.injEq]
    rw [eq_comm (a := state)]
  | _ => simpa [Run.after, Progress.record] using ih

theorem Traces.staleClaim (h : Traces word r) (hs : r.progress.staleClaim = true) :
    .claimed .awaitingConfirmation ∈ word := by
  revert hs
  refine Traces.induction (P := fun word r => r.progress.staleClaim = true →
    Event.claimed .awaitingConfirmation ∈ word) nofun ?_ h
  intro word r event _ ih ha hs
  cases event with
  | claimed state =>
    have hstate : state = .awaitingConfirmation := by simpa [Run.after, Progress.record] using hs
    simp [hstate]
  | _ => exact List.mem_append_left _ (ih hs)

theorem Traces.idle_unflagged (h : Traces word r) (hs : r.progress.stage = .idle) (success : Bool) :
    .cancelRecorded success ∉ word ∧ .confirmRecorded success ∉ word := by
  revert hs
  refine Traces.induction (P := fun word r => r.progress.stage = .idle →
    Event.cancelRecorded success ∉ word ∧ Event.confirmRecorded success ∉ word) (by simp) ?_ h
  intro word r event _ ih ha hs
  have hi : r.progress.stage = .idle := by
    by_contra hne
    exact next_ne_idle hne hs
  have hevent : event ≠ .cancelRecorded success ∧ event ≠ .confirmRecorded success := by
    constructor <;>
    · rintro rfl
      have hbusy := ha.1
      rw [hi] at hbusy
      cases hbusy
  simp [ih hi, hevent.1.symm, hevent.2.symm]

/-- The cancellation flag of a run is set by a recorded cancellation, and stays
set. -/
theorem Traces.cancelled_iff (h : Traces word r) :
    r.cancelled = true ↔ ∃ success, .cancelRecorded success ∈ word := by
  refine Traces.induction (P := fun word r => r.cancelled = true ↔
    ∃ success, Event.cancelRecorded success ∈ word) (by simp [freshRun]) ?_ h
  intro word r event htraces ih ha
  cases event with
  | claimed state =>
    have hnone := htraces.idle_unflagged ha.1
    simp [Run.after, fun success => (hnone success).1]
  | cancelRecorded success => simp [Run.after]
  | _ => simpa [Run.after] using ih

end MacroKeyboard.Executor
