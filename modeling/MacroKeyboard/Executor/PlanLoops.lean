import MacroKeyboard.Executor.PlanSteps
import MacroKeyboard.PlanWellFormed

namespace MacroKeyboard.Executor

open Threads.Program Threads.Turns

variable {t : Ticket} {turns : List RunTurn} {deadline : UInt32} {result : Except AppError Unit}

def FindDeadline (deadline : UInt32) (turns : List RunTurn) : Prop :=
  ∀ turn ∈ turns, turn.before.engine.deadline = deadline

/-- The look at the cancellation flag and the deadline, before each wait and
each action: it ends the run, or it has found the deadline ahead. -/
theorem plays_check (stop : AppError → β) {next : Thread β} {b : β} (hdeadline : FindDeadline deadline turns)
    (h : Plays (do
      match ← readCancellation t with
      | .error error => pure (stop error)
      | .ok true => pure (stop .executionCancelled)
      | .ok false =>
        let now ← nowMs
        let limit ← .read (·.engine.deadline)
        if deadlineExpired now limit then pure (stop .timeout) else next) turns b) :
    (∃ error, b = stop error ∧ (∀ turn ∈ turns, Quiet turn) ∧
      ((∀ turn ∈ turns, Faultless turn) → error = .timeout) ∧
      ((∀ turn ∈ turns, Punctual deadline turn) → error ≠ .timeout)) ∨
    ∃ read clock look rest, turns = read :: clock :: look :: rest ∧ Quiet read ∧ Quiet clock ∧ Quiet look ∧
      inTime deadline clock = true ∧ Plays next rest b := by
  obtain ⟨first, others, cancelled, rfl, hread, h⟩ := plays_bind h
  obtain ⟨read, rfl, hquiet, ⟨rfl, hfault⟩ | rfl⟩ := plays_readCancellation hread
  · obtain ⟨rfl, rfl⟩ := plays_ret h
    refine Or.inl ⟨.internal, rfl, ?_, fun hall => ?_, fun _ => by decide⟩
    · rw [List.append_nil, List.forall_mem_singleton]
      exact hquiet
    · exact absurd (hall read (List.mem_append_left _ (List.mem_singleton_self _))) hfault
  · cases hflag : read.before.engine.cancellationRequested with
    | true =>
      rw [hflag] at h
      obtain ⟨rfl, rfl⟩ := plays_ret h
      refine Or.inl ⟨.executionCancelled, rfl, ?_, fun hall => ?_, fun _ => by decide⟩
      · rw [List.append_nil, List.forall_mem_singleton]
        exact hquiet
      · have hf := (hall read (List.mem_append_left _ (List.mem_singleton_self _))).notCancelled
        exact absurd (hflag.symm.trans hf) (by decide)
    | false =>
      rw [hflag] at h
      obtain ⟨second, others, now, rfl, hnow, h⟩ := plays_bind h
      obtain ⟨clock, rfl, hclock, rfl⟩ := plays_ask hnow
      obtain ⟨third, rest, limit, rfl, hlook, h⟩ := plays_bind h
      obtain ⟨look, rfl, hlooked, rfl⟩ := plays_read hlook
      have hlimit : look.before.engine.deadline = deadline :=
        hdeadline look (List.mem_append_right _ (List.mem_append_right _ List.mem_cons_self))
      rw [hlimit] at h
      by_cases hexpired : deadlineExpired clock.answer.nowMs deadline = true
      · rw [if_pos hexpired] at h
        obtain ⟨rfl, rfl⟩ := plays_ret h
        refine Or.inl ⟨.timeout, rfl, ?_, fun _ => rfl, fun hall => ?_⟩
        · rw [List.append_nil, List.singleton_append, List.singleton_append]
          simpa using ⟨hquiet, hclock, hlooked⟩
        · have hahead := (hall clock (List.mem_append_right _ (List.mem_append_left _ List.mem_cons_self))).1
          rw [inTime, hexpired] at hahead
          cases hahead
      · rw [if_neg hexpired] at h
        refine Or.inr ⟨read, clock, look, rest, rfl, hquiet, hclock, hlooked, ?_, h⟩
        rw [inTime, Bool.eq_false_of_not_eq_true hexpired, Bool.not_false]

theorem outcome_cases (code : AppError) :
    (code = .none ∧ outcome code = .ok ()) ∨ (code ≠ .none ∧ outcome code = .error code) := by
  by_cases h : code = .none
  · exact Or.inl ⟨h, if_pos h⟩
  · exact Or.inr ⟨h, if_neg h⟩

theorem sliceMs_toNat {remaining : UInt32} (h : remaining > 0) :
    let slice := if remaining > cancellationSliceMs then cancellationSliceMs else remaining
    0 < slice.toNat ∧ slice.toNat + (remaining - slice).toNat = remaining.toNat := by
  have hten : cancellationSliceMs.toNat = 10 := by decide
  rw [gt_iff_lt, UInt32.lt_iff_toNat_lt] at h
  have hpos : 0 < remaining.toNat := h
  intro slice
  have hle : slice ≤ remaining := by
    simp only [slice, gt_iff_lt]
    split_ifs with hlt
    · exact UInt32.le_of_lt hlt
    · exact UInt32.le_refl _
  rw [UInt32.toNat_sub_of_le _ _ hle]
  rw [UInt32.le_iff_toNat_le] at hle
  refine ⟨?_, by omega⟩
  simp only [slice]
  split_ifs <;> omega

theorem cancellableDelayLoop_performs {passes : Nat} {remaining : UInt32} (hpasses : remaining.toNat ≤ passes)
    (hdeadline : FindDeadline deadline turns) (h : Plays (cancellableDelayLoop t passes remaining) turns result) :
    Performs deadline false [] remaining.toNat turns result := by
  induction passes generalizing remaining turns with
  | zero =>
    obtain ⟨rfl, rfl⟩ := plays_ret h
    rw [Nat.le_zero.mp hpasses]
    exact .done
  | succ passes ih =>
    by_cases hmore : remaining > 0
    · rw [cancellableDelayLoop, if_pos hmore] at h
      obtain ⟨error, rfl, hquiet, hfault, hpunctual⟩ | ⟨read, clock, look, others, rfl, hread, hclock, hlook, hahead, h⟩ :=
        plays_check Except.error hdeadline h
      · exact .failed hquiet hfault hpunctual
      · obtain ⟨hpos, hsum⟩ := sliceMs_toNat hmore
        obtain ⟨first, rest, waited, rfl, hwait, h⟩ := plays_bind h
        obtain ⟨wait, wokenBy, rfl, hevents, rfl⟩ := plays_waitMs hwait
        have hfresh : (((false || inTime deadline read) || inTime deadline clock) || inTime deadline look ||
            inTime deadline wait) = true := by
          rw [hahead]
          simp
        have hrest : FindDeadline deadline rest := fun turn hmem => hdeadline turn (by simp [hmem])
        rw [← hsum]
        refine .cons hread (.cons hclock (.cons hlook ?_))
        rcases outcome_cases wait.answer.result with ⟨-, hok⟩ | ⟨hfault, herror⟩
        · rw [hok] at h
          exact .wait hevents hfresh (ih (by omega) hrest h)
        · rw [herror] at h
          obtain ⟨rfl, rfl⟩ := plays_ret h
          exact .waitFailed hevents hfresh hfault
    · have hzero : remaining.toNat = 0 := by
        rw [gt_iff_lt, UInt32.lt_iff_toNat_lt] at hmore
        exact Nat.eq_zero_of_not_pos hmore
      rw [cancellableDelayLoop, if_neg hmore] at h
      obtain ⟨rfl, rfl⟩ := plays_ret h
      rw [hzero]
      exact .done

theorem cancellableDelay_performs {delayMs : UInt32} (hdeadline : FindDeadline deadline turns)
    (h : Plays (cancellableDelay t delayMs) turns result) :
    Performs deadline false [] delayMs.toNat turns result :=
  cancellableDelayLoop_performs (le_refl _) hdeadline h

def plannedAction (action : MacroAction) : Issued :=
  if action.type = .delay then .delay action.delayMs else .keys action.modifiers action.usages

theorem cost_of_delay {options : MacroCompileOptions} {action : MacroAction} (h : action.type = .delay) :
    action.cost options = action.delayMs.toNat := by
  rw [MacroAction.cost, h]

theorem cost_of_keys {options : MacroCompileOptions} {action : MacroAction} (h : action.type ≠ .delay) :
    action.cost options = options.keyPressMs.toNat + options.interKeyMs.toNat := by
  unfold MacroAction.cost
  cases htype : action.type with
  | delay => exact absurd htype h
  | key => rfl
  | chord => rfl

theorem holdKeys_performs {modifiers : UInt8} {usages : List UInt8} {keyPressMs : UInt32} {press : RunTurn}
    {held : List RunTurn} (hdeadline : FindDeadline deadline held)
    (hevents : eventsOf press = [.pressed modifiers usages press.answer.result])
    (h : Plays (holdKeys t (outcome press.answer.result) keyPressMs) held result) :
    Performs deadline true [.keys modifiers usages] keyPressMs.toNat (press :: held) result := by
  rcases outcome_cases press.answer.result with ⟨-, hok⟩ | ⟨hfault, herror⟩
  · rw [hok] at h
    exact .press hevents (cancellableDelay_performs hdeadline h).freshen
  · rw [herror] at h
    obtain ⟨rfl, rfl⟩ := plays_ret h
    exact .pressFailed hevents hfault

theorem executeAction_performs {status : MacroExecutionStatus} {action : MacroAction} {keyPressMs interKeyMs : UInt32}
    {outcome : Except AppError Unit × MacroExecutionStatus} (hdeadline : FindDeadline deadline turns)
    (h : Plays (executeAction t status action keyPressMs interKeyMs) turns outcome) :
    Performs deadline true [plannedAction action] (action.cost ⟨keyPressMs, interKeyMs⟩) turns outcome.1 ∧
      outcome.2.state = status.state := by
  by_cases htype : action.type = .delay
  · rw [executeAction, if_pos htype] at h
    obtain ⟨first, second, _, rfl, hnoted, hrest⟩ := plays_bind h
    obtain ⟨third, fourth, delayed, rfl, hdelay, hret⟩ := plays_bind hrest
    obtain ⟨noted, rfl, hevents⟩ := plays_noted hnoted
    obtain ⟨rfl, rfl⟩ := plays_ret hret
    rw [plannedAction, if_pos htype, cost_of_delay htype, List.append_nil]
    refine ⟨.delay hevents (cancellableDelay_performs (fun turn hmem => ?_) hdelay), rfl⟩
    exact hdeadline turn (List.mem_append_right _ (List.mem_append_left _ hmem))
  · rw [executeAction, if_neg htype] at h
    obtain ⟨first, others, pressed, rfl, hpress, h⟩ := plays_bind h
    obtain ⟨press, rfl, hevents, rfl⟩ := plays_usbPress hpress
    obtain ⟨held, others, holding, rfl, hheld, h⟩ := plays_bind h
    obtain ⟨third, others, released, rfl, hrelease, h⟩ := plays_bind h
    obtain ⟨release, rfl, hreleased, rfl⟩ := plays_usbReleaseAll hrelease
    obtain ⟨recorded, others, status', rfl, hrecord, h⟩ := plays_bind h
    obtain ⟨hrecorded, hstate⟩ := plays_recordReleaseFailure hrecord
    rw [plannedAction, if_neg htype, cost_of_keys htype]
    have hkeys := holdKeys_performs (fun turn hmem => hdeadline turn (by simp [hmem])) hevents hheld
    have hquiet : ∀ turn ∈ release :: recorded, Quiet turn := List.forall_mem_cons.mpr ⟨hreleased, hrecorded⟩
    cases holding with
    | error error =>
      obtain ⟨rfl, rfl⟩ := plays_ret h
      refine ⟨?_, hstate⟩
      have hall : Performs deadline true ([.keys action.modifiers action.usages] ++ [])
          (keyPressMs.toNat + interKeyMs.toNat) ((press :: held) ++ release :: recorded) (.error error) :=
        (hkeys.quieted hquiet).stopped
      simpa using hall
    | ok =>
      rcases outcome_cases release.answer.result with ⟨-, hok⟩ | ⟨hfault, herror⟩
      · rw [hok] at h
        obtain ⟨rest, last, paused, rfl, hpause, h⟩ := plays_bind h
        obtain ⟨rfl, rfl⟩ := plays_ret h
        refine ⟨?_, hstate⟩
        have hpaused := cancellableDelay_performs (fun turn hmem => hdeadline turn (by simp [hmem])) hpause
        have hall := (hkeys.quieted hquiet).append hpaused
        simpa using hall
      · rw [herror] at h
        obtain ⟨rfl, rfl⟩ := plays_ret h
        refine ⟨?_, hstate⟩
        have hfailed : Performs deadline false [] interKeyMs.toNat (release :: recorded)
            (.error release.answer.result) :=
          .failed hquiet (fun hall => absurd (hall release List.mem_cons_self).succeeds hfault)
            (fun hall => (hall release List.mem_cons_self).2)
        have hall := hkeys.append hfailed
        simpa using hall

def planned (actions : List MacroAction) : List Issued := actions.map plannedAction

theorem runActions_performs {request : MacroExecutionRequest} {actions : List MacroAction} {index : Nat}
    {status : MacroExecutionStatus} {outcome : Except AppError Unit × MacroExecutionStatus}
    (hdeadline : FindDeadline deadline turns) (hrunning : status.state = .running)
    (h : Plays (runActions t request actions index status) turns outcome) :
    Performs deadline false (planned actions)
      (PlanWellFormed.totalCost ⟨request.keyPressMs, request.interKeyMs⟩ actions) turns outcome.1 := by
  induction actions generalizing index status turns with
  | nil =>
    obtain ⟨rfl, rfl⟩ := plays_ret h
    exact .done
  | cons action rest ih =>
    obtain ⟨first, others, shown, rfl, hpublish, h⟩ := plays_bind h
    obtain ⟨publish, rfl, hevents, hcase⟩ := plays_publishStatus hpublish
    have hquiet : Quiet publish := by
      rcases hevents with hevents | hevents
      · rw [Quiet, hevents]
        exact fun _ hmem => absurd hmem List.not_mem_nil
      · rw [Quiet, hevents, List.forall_mem_singleton]
        exact beq_iff_eq.mpr hrunning
    rw [show planned (action :: rest) = [plannedAction action] ++ planned rest from rfl, PlanWellFormed.totalCost,
      List.map_cons, List.sum_cons]
    rcases hcase with ⟨rfl, hfault⟩ | ⟨rfl, -⟩
    · obtain ⟨rfl, rfl⟩ := plays_ret h
      refine .failed (by simpa using hquiet) (fun hall => ?_) (fun _ => by decide)
      exact absurd (hall publish (by simp)) hfault
    · obtain ⟨error, rfl, hsilent, hfault, hpunctual⟩ | ⟨read, clock, look, others, rfl, hread, hclock, hlook, hahead, h⟩ :=
        plays_check (fun error => (Except.error error, _)) (fun turn hmem => hdeadline turn (by simp [hmem])) h
      · exact .cons hquiet (.failed hsilent hfault hpunctual)
      · obtain ⟨during, after, done, rfl, hdone, h⟩ := plays_bind h
        obtain ⟨hperforms, hstate⟩ := executeAction_performs (fun turn hmem => hdeadline turn (by simp [hmem])) hdone
        have hfresh : (((false || inTime deadline publish || inTime deadline read) || inTime deadline clock) ||
            inTime deadline look) = true := by
          rw [hahead]
          simp
        have hlead : ∀ {planned : List Issued} {cost : Nat} {part : List RunTurn} {result : Except AppError Unit},
            Performs deadline true planned cost part result →
            Performs deadline false planned cost (publish :: read :: clock :: look :: part) result := by
          intro planned cost part result hpart
          exact .cons hquiet (.cons hread (.cons hclock (.cons hlook (hfresh ▸ hpart))))
        obtain ⟨code, status'⟩ := done
        cases code with
        | error error =>
          obtain ⟨rfl, rfl⟩ := plays_ret h
          simpa using (hlead hperforms).stopped
        | ok =>
          have hafter := ih (fun turn hmem => hdeadline turn (by simp [hmem])) (hstate.trans hrunning) h
          simpa [PlanWellFormed.totalCost] using (hlead hperforms).append hafter

end MacroKeyboard.Executor
