import MacroKeyboard.Executor.PlanRun

namespace MacroKeyboard.Executor

open Threads.Program Threads.Turns

variable {t : Ticket} {turns : List RunTurn} {deadline : UInt32}

theorem plays_ask {f : Env → α} {a : α} (h : Plays (Prog.ask f : Thread α) turns a) :
    ∃ turn, turns = [turn] ∧ Quiet turn ∧ a = f turn.answer := by
  obtain ⟨turn, rfl, hstep, ha⟩ := plays_atomic h
  exact ⟨turn, rfl, quiet_same (congrArg World.log hstep), ha⟩

theorem plays_read {f : World → α} {a : α} (h : Plays (Prog.read f : Thread α) turns a) :
    ∃ turn, turns = [turn] ∧ Quiet turn ∧ a = f turn.before := by
  obtain ⟨turn, rfl, hstep, ha⟩ := plays_atomic h
  exact ⟨turn, rfl, quiet_same (congrArg World.log hstep), ha⟩

theorem plays_noted {event : Event} {a : Unit} (h : Plays (noted t event) turns a) :
    ∃ turn, turns = [turn] ∧ eventsOf turn = [event] := by
  obtain ⟨turn, rfl, hstep, -⟩ := plays_atomic h
  exact ⟨turn, rfl, eventsOf_note (congrArg World.log hstep)⟩

theorem plays_waitMs {milliseconds : UInt32} {a : Except AppError Unit}
    (h : Plays (waitMs t milliseconds) turns a) : ∃ turn wokenBy, turns = [turn] ∧
      eventsOf turn = [.waited milliseconds wokenBy turn.answer.result] ∧ a = outcome turn.answer.result := by
  obtain ⟨turn, rfl, hstep, ha⟩ := plays_atomic h
  exact ⟨turn, _, rfl, eventsOf_note (congrArg World.log hstep), ha⟩

theorem plays_usbPress {modifiers : UInt8} {usages : List UInt8} {a : Except AppError Unit}
    (h : Plays (usbPress t modifiers usages) turns a) : ∃ turn, turns = [turn] ∧
      eventsOf turn = [.pressed modifiers usages turn.answer.result] ∧ a = outcome turn.answer.result := by
  obtain ⟨turn, rfl, hstep, ha⟩ := plays_atomic h
  exact ⟨turn, rfl, eventsOf_note (congrArg World.log hstep), ha⟩

theorem plays_usbReleaseAll {a : AppError} (h : Plays (usbReleaseAll t) turns a) :
    ∃ turn, turns = [turn] ∧ Quiet turn ∧ a = turn.answer.result := by
  obtain ⟨turn, rfl, hstep, ha⟩ := plays_atomic h
  exact ⟨turn, rfl, quiet_note (congrArg World.log hstep) rfl, ha⟩

theorem plays_readCancellation {a : Except AppError Bool} (h : Plays (readCancellation t) turns a) :
    ∃ turn, turns = [turn] ∧ Quiet turn ∧
      ((a = .error .internal ∧ ¬ Faultless turn) ∨ a = .ok turn.before.engine.cancellationRequested) := by
  obtain ⟨turn, rfl, hstep, ha⟩ := plays_atomic h
  by_cases hlock : (turn.answer.lockOk && turn.answer.unlockOk) = true
  · rw [if_pos hlock] at hstep ha
    exact ⟨turn, rfl, quiet_note (congrArg World.log hstep) rfl, Or.inr ha⟩
  · rw [if_neg hlock] at hstep ha
    refine ⟨turn, rfl, quiet_same (congrArg World.log hstep), Or.inl ⟨ha, fun hf => ?_⟩⟩
    rw [hf.lockOk, hf.unlockOk] at hlock
    exact hlock rfl

theorem plays_locked {body : World → α × World} {a : Except AppError α} (h : Plays (locked body) turns a) :
    ∃ turn, turns = [turn] ∧ ((turn.after = turn.before ∧ a = .error .internal ∧ ¬ Faultless turn) ∨
      (turn.after = (body turn.before).2 ∧
        ((a = .error .internal ∧ ¬ Faultless turn) ∨ a = .ok (body turn.before).1))) := by
  obtain ⟨turn, rfl, hstep, ha⟩ := plays_atomic h
  refine ⟨turn, rfl, ?_⟩
  by_cases hlock : turn.answer.lockOk = true
  · rw [if_pos hlock] at hstep ha
    refine Or.inr ⟨hstep, ?_⟩
    by_cases hunlock : turn.answer.unlockOk = true
    · exact Or.inr (ha.trans (if_pos hunlock))
    · exact Or.inl ⟨ha.trans (if_neg hunlock), fun hf => hunlock hf.unlockOk⟩
  · rw [if_neg hlock] at hstep ha
    exact Or.inl ⟨hstep, ha, fun hf => hlock hf.lockOk⟩

theorem plays_publishStatus {status : MacroExecutionStatus} {a : Except AppError Unit}
    (h : Plays (publishStatus t status) turns a) : ∃ turn, turns = [turn] ∧
      (eventsOf turn = [] ∨ eventsOf turn = [.published status.state]) ∧
      ((a = .error .internal ∧ ¬ Faultless turn) ∨ (a = .ok () ∧ eventsOf turn = [.published status.state])) := by
  obtain ⟨turn, rfl, ⟨hafter, ha, hfault⟩ | ⟨hafter, hcase⟩⟩ := plays_locked h
  · exact ⟨turn, rfl, Or.inl (eventsOf_same (congrArg World.log hafter)), Or.inl ⟨ha, hfault⟩⟩
  · have hevents : eventsOf turn = [.published status.state] := eventsOf_note (congrArg World.log hafter)
    exact ⟨turn, rfl, Or.inr hevents, hcase.imp_right fun ha => ⟨ha, hevents⟩⟩

theorem plays_recordReleaseFailure {status status' : MacroExecutionStatus} {releaseError : AppError}
    (h : Plays (recordReleaseFailure t status releaseError) turns status') :
    (∀ turn ∈ turns, Quiet turn) ∧ status'.state = status.state := by
  by_cases hnone : releaseError = .none
  · rw [recordReleaseFailure, if_pos hnone] at h
    obtain ⟨rfl, rfl⟩ := plays_ret h
    exact ⟨fun _ hmem => absurd hmem List.not_mem_nil, rfl⟩
  · rw [recordReleaseFailure, if_neg hnone] at h
    obtain ⟨first, second, _, rfl, hrecord, hrest⟩ := plays_bind h
    obtain ⟨third, fourth, _, rfl, hlatch, hret⟩ := plays_bind hrest
    obtain ⟨rfl, rfl⟩ := plays_ret hret
    obtain ⟨record, rfl, hrecorded, -⟩ := plays_atomic hrecord
    obtain ⟨latch, rfl, hlatched, -⟩ := plays_atomic hlatch
    refine ⟨?_, by split_ifs <;> rfl⟩
    simp only [List.append_nil, List.cons_append, List.nil_append, List.forall_mem_cons, List.not_mem_nil,
      IsEmpty.forall_iff, implies_true, and_true]
    refine ⟨quiet_same ?_, quiet_note (congrArg World.log hlatched) rfl⟩
    rw [hrecorded]
    split_ifs <;> rfl

end MacroKeyboard.Executor
