import MacroKeyboard.Executor.Frames
import MacroKeyboard.Executor.PlanLoops

namespace MacroKeyboard.Executor

open Threads.Program Threads.Turns Threads.Monitor

def KeepsDeadline (w w' : World) : Prop := w'.engine.deadline = w.engine.deadline

theorem keepsDeadline_refl (w : World) : KeepsDeadline w w := rfl

theorem keepsDeadline_frame : EngineFrame KeepsDeadline where
  aside := congrArg MacroExecutorEngine.deadline
  latch := congrArg MacroExecutorEngine.deadline
  fault := fun _ => congrArg MacroExecutorEngine.deadline
  publish := fun _ => congrArg MacroExecutorEngine.deadline
  clear := congrArg MacroExecutorEngine.deadline

def KeepsUntilErased (w w' : World) : Prop := KeepsDeadline w w' ∨ w'.shutdown.engineErased = true

theorem keepsUntilErased_refl (w : World) : KeepsUntilErased w w := Or.inl rfl

def BeginsNothing (w w' : World) : Prop :=
  ∃ news : Log Ticket Event, w'.log = w.log ++ news ∧ ∀ entry ∈ news, entry.2.issued = none

theorem beginsNothing_same {w w' : World} (h : w'.log = w.log) : BeginsNothing w w' :=
  ⟨[], by rw [h, List.append_nil], fun _ hmem => absurd hmem List.not_mem_nil⟩

theorem beginsNothing_note {w w' : World} {t : Ticket} {event : Event} (h : w'.log = w.log ++ [(t, event)])
    (hevent : event.issued = none) : BeginsNothing w w' :=
  ⟨[(t, event)], h, fun entry hmem => by rw [List.mem_singleton.mp hmem]; exact hevent⟩

theorem issuedOf_beginsNothing {turn : RunTurn} (h : BeginsNothing turn.before turn.after) : issuedOf turn = [] := by
  obtain ⟨news, hlog, hnone⟩ := h
  rw [issuedOf, eventsOf, hlog, List.drop_left, List.filterMap_map]
  exact List.filterMap_eq_nil_iff.mpr hnone

section Nothing

variable {t : Ticket}

theorem beginsNothing_refl (w : World) : BeginsNothing w w := beginsNothing_same rfl

theorem nowMs_begins : Always BeginsNothing nowMs := always_ask beginsNothing_refl

theorem noted_begins {event : Event} (h : event.issued = none) : Always BeginsNothing (noted t event) :=
  always_atomic fun _ _ => beginsNothing_note rfl h

theorem latchEngineUnavailable_begins : Always BeginsNothing (latchEngineUnavailable t) :=
  always_atomic fun _ _ => beginsNothing_note rfl rfl

theorem publishStatus_begins {status : MacroExecutionStatus} : Always BeginsNothing (publishStatus t status) :=
  always_locked beginsNothing_refl fun _ => beginsNothing_note rfl rfl

theorem resetTerminalFlags_begins : Always BeginsNothing (resetTerminalFlags t) :=
  always_locked beginsNothing_refl fun _ => beginsNothing_note rfl rfl

theorem readCancellation_begins : Always BeginsNothing (readCancellation t) := by
  refine always_atomic fun env w => ?_
  split_ifs
  · exact beginsNothing_note rfl rfl
  · exact beginsNothing_same rfl

theorem readConfirmation_begins : Always BeginsNothing (readConfirmation t) := by
  refine always_atomic fun env w => ?_
  split_ifs
  · exact beginsNothing_note rfl rfl
  · exact beginsNothing_same rfl

theorem waitMs_begins {milliseconds : UInt32} : Always BeginsNothing (waitMs t milliseconds) :=
  always_atomic fun _ _ => beginsNothing_note rfl rfl

theorem recordReleaseFailure_begins {status : MacroExecutionStatus} {releaseError : AppError} :
    Always BeginsNothing (recordReleaseFailure t status releaseError) := by
  by_cases hnone : releaseError = .none
  · rw [recordReleaseFailure, if_pos hnone]
    exact always_pure
  · rw [recordReleaseFailure, if_neg hnone]
    refine always_bind (always_atomic fun _ w => ?_) fun _ => always_bind latchEngineUnavailable_begins fun _ => always_pure
    split_ifs <;> exact beginsNothing_same rfl

theorem finishExecution_begins {status : MacroExecutionStatus} {state : ExecutionState} {error : AppError} :
    Always BeginsNothing (finishExecution t status state error) := by
  refine always_bind (always_atomic fun _ _ => beginsNothing_note rfl rfl) fun released =>
    always_bind recordReleaseFailure_begins fun status => always_bind (always_read beginsNothing_refl) fun unavailable =>
    always_bind nowMs_begins fun now => always_bind publishStatus_begins fun shown =>
    always_bind resetTerminalFlags_begins fun cleared => always_bind ?_ fun _ => always_pure
  unfold latchUnless
  split
  · exact always_pure
  · exact latchEngineUnavailable_begins

theorem publishStep_begins {status : MacroExecutionStatus} : Always BeginsNothing (publishStep t status) := by
  refine always_bind publishStatus_begins fun shown => ?_
  cases shown with
  | error error =>
    exact always_bind (noted_begins rfl) fun _ => always_bind finishExecution_begins fun _ => always_pure
  | ok => exact always_pure

theorem awaitConfirmation_begins : Always BeginsNothing (awaitConfirmation t) := by
  refine always_bind nowMs_begins fun now => always_repeatUntil beginsNothing_refl
    (always_bind readCancellation_begins fun cancelled => ?_)
  match cancelled with
  | .error error => exact always_pure
  | .ok true => exact always_pure
  | .ok false =>
    refine always_bind readConfirmation_begins fun confirmed => ?_
    match confirmed with
    | .error error => exact always_pure
    | .ok true => exact always_pure
    | .ok false =>
      refine always_bind nowMs_begins fun later => ?_
      split_ifs
      · exact always_bind (noted_begins rfl) fun _ => always_pure
      · refine always_bind waitMs_begins fun waited => ?_
        cases waited with
        | error error => exact always_pure
        | ok => exact always_pure

theorem runConfirmationPhase_begins {status : MacroExecutionStatus} :
    Always BeginsNothing (runConfirmationPhase t status) := by
  refine always_bind awaitConfirmation_begins fun confirmed => ?_
  cases confirmed with
  | error error =>
    exact always_bind (noted_begins rfl) fun _ => always_bind finishExecution_begins fun _ => always_pure
  | ok => exact always_bind publishStep_begins fun _ => always_pure

theorem issued_beginsNothing {p : Thread α} {turns : List RunTurn} {a : α} (h : Always BeginsNothing p)
    (hplays : Plays p turns a) : issued turns = [] :=
  List.flatMap_eq_nil_iff.mpr fun turn hmem => issuedOf_beginsNothing (h.turns hplays turn hmem)

end Nothing

section Deadline

variable {t : Ticket}

theorem macroExecutorEngineSubmit_keeps {request : MacroExecutionRequest} :
    Always KeepsDeadline (macroExecutorEngineSubmit t request) := by
  refine always_bind keepsDeadline_frame.engineUnavailable fun unavailable => ?_
  split_ifs
  · exact always_pure
  · cases validateRequest request with
    | error error => exact always_pure
    | ok =>
      refine always_bind keepsDeadline_frame.nowMs fun now => always_bind (always_ask keepsDeadline_refl) fun ready => ?_
      split_ifs
      · exact always_pure
      · refine always_bind (always_atomic fun env w => ?_) fun claim => ?_
        · split_ifs <;> exact rfl
        · match claim with
          | .refused error => exact always_pure
          | .claimed false => exact always_bind keepsDeadline_frame.finishSubmissionFailure fun _ => always_pure
          | .claimed true =>
            refine always_bind (always_atomic fun env w => ?_) fun sent => ?_
            · split_ifs <;> exact rfl
            · split_ifs
              · exact always_pure
              · exact always_bind keepsDeadline_frame.finishSubmissionFailure fun _ => always_pure

theorem macroExecutorEngineCancel_keeps : Always KeepsDeadline macroExecutorEngineCancel :=
  keepsDeadline_frame.requestFlag fun _ _ _ => rfl

theorem webSendCreateHandle_keeps {request : SendRequest} : Always KeepsDeadline (webSendCreateHandle t request) := by
  refine always_bind (always_ask keepsDeadline_refl) fun callocOk => ?_
  dsimp only
  split_ifs
  · exact always_pure
  · refine always_bind (always_ask keepsDeadline_refl) fun policy => ?_
    obtain ⟨policyResult, requireConfirmation⟩ := policy
    dsimp only
    split_ifs
    · exact always_bind keepsDeadline_frame.noted fun _ => always_pure
    · refine always_bind (always_ask keepsDeadline_refl) fun identifier => ?_
      obtain ⟨uuidResult, sendId⟩ := identifier
      dsimp only
      split_ifs
      · exact always_bind keepsDeadline_frame.noted fun _ => always_pure
      · refine always_bind keepsDeadline_frame.noted fun _ => always_bind (always_bind (always_read keepsDeadline_refl) fun closing => ?_)
          fun submitted => always_bind keepsDeadline_frame.noted fun _ => ?_
        · split_ifs
          · exact always_pure
          · exact macroExecutorEngineSubmit_keeps
        · split_ifs
          · exact always_bind keepsDeadline_frame.noted fun _ => always_pure
          · exact always_pure

theorem call_keeps (call : Call) : Always KeepsDeadline (call.thread t) := by
  cases call with
  | send request => exact always_bind webSendCreateHandle_keeps fun _ => always_pure
  | cancel => exact always_bind macroExecutorEngineCancel_keeps fun _ => always_pure
  | confirm => exact always_bind (keepsDeadline_frame.requestFlag fun _ _ _ => rfl) fun _ => always_pure
  | getStatus =>
    refine always_bind (always_bind (always_read keepsDeadline_refl) fun fault =>
      always_bind keepsDeadline_frame.engineUnavailable fun unavailable => always_atomic fun env w => ?_) fun _ => always_pure
    split_ifs <;> exact rfl

theorem releaseExecutor_keeps {error : AppError} : Always KeepsUntilErased (releaseExecutor error) := by
  refine always_bind (always_ask keepsUntilErased_refl) fun released =>
    always_bind (always_repeatUntil keepsUntilErased_refl (always_atomic fun env w => ?_)) fun _ =>
    always_bind (always_atomic fun _ _ => Or.inl rfl) fun _ =>
    always_bind (always_atomic fun _ _ => Or.inr rfl) fun signalFailed => always_pure
  split <;> exact Or.inl rfl

theorem lifecycleTask_keeps : Always KeepsUntilErased lifecycleTask := by
  refine always_repeatUntil keepsUntilErased_refl (always_bind (always_ask keepsUntilErased_refl) fun again => ?_)
  split_ifs
  · refine always_bind (always_bind (always_read keepsUntilErased_refl) fun erased => ?_) fun _ => always_pure
    split_ifs
    · exact always_pure
    · refine always_bind (always_atomic fun _ _ => Or.inl rfl) fun _ =>
        always_bind (always_read keepsUntilErased_refl) fun running => ?_
      split_ifs
      · refine always_bind (always_bind (macroExecutorEngineCancel_keeps.mono fun _ _ h => Or.inl h) fun cancelled =>
          always_bind (always_atomic fun env w => ?_) fun sent => always_bind (always_atomic fun env w => ?_) fun stopped => ?_)
          fun outcome => ?_
        · split_ifs <;> exact Or.inl rfl
        · split_ifs <;> exact Or.inl rfl
        · split_ifs <;> exact always_pure
        · obtain ⟨stopped, error⟩ := outcome
          dsimp only
          split_ifs
          · exact always_bind (always_atomic fun _ _ => Or.inl rfl) fun _ => always_pure
          · exact always_bind (always_atomic fun _ _ => Or.inl rfl) fun _ => releaseExecutor_keeps
      · exact releaseExecutor_keeps
  · exact always_pure

theorem mayStart_keeps {n : Nat} {p : Thread Unit} (h : MayStart n p) (hn : n ≠ 0) : Always KeepsUntilErased p := by
  cases h with
  | worker => exact absurd rfl hn
  | lifecycle => exact lifecycleTask_keeps
  | call n c => exact (call_keeps c).mono fun _ _ h => Or.inl h

/-- Until the device stops, a step of any thread but the worker leaves the
deadline of the engine alone. -/
theorem others_keep_deadline {c : Config World Env} (h : ExecutorReachable c) {i : Nat} {p : Thread Unit}
    (hi : i ≠ 0) (hp : c.threads[i]? = some p) (env : Env) : KeepsUntilErased c.state (p.step env c.state).2 :=
  ((always_of_reachable keepsUntilErased_refl
    (fun i p hstart hi => mayStart_keeps (show MayStart i p from hstart) hi) h hp hi).step keepsUntilErased_refl env c.state).1

end Deadline

end MacroKeyboard.Executor
