import MacroKeyboard.Executor.Task
import MacroKeyboard.Threads.Turns

namespace MacroKeyboard.Executor

open Threads.Program Threads.Turns

section Atoms

variable {R : World → World → Prop} {α : Type}

theorem always_pure {a : α} : Always R (pure a : Thread α) := trivial

theorem always_ask {f : Env → α} (hR : ∀ w, R w w) : Always R (Prog.ask f : Thread α) :=
  always_atomic fun _ w => hR w

theorem always_read {f : World → α} (hR : ∀ w, R w w) : Always R (Prog.read f : Thread α) :=
  always_atomic fun _ w => hR w

theorem always_locked {body : World → α × World} (hR : ∀ w, R w w) (h : ∀ w, R w (body w).2) :
    Always R (locked body) := by
  refine always_atomic fun env w => ?_
  split_ifs
  · exact h w
  · exact h w
  · exact hR w

end Atoms

/-- A relation that the steps of an execution keep, the setting of its deadline
apart: they leave the engine alone, latch it, store a release fault, publish a
status or clear the flags. -/
structure EngineFrame (R : World → World → Prop) : Prop where
  aside : ∀ {w w' : World}, w'.engine = w.engine → R w w'
  latch : ∀ {w w' : World}, w'.engine = { w.engine with unavailable := true } → R w w'
  fault : ∀ {w w' : World} (error : AppError),
    w'.engine = { w.engine with releaseFaultError := error } → R w w'
  publish : ∀ {w w' : World} (status : MacroExecutionStatus),
    w'.engine = { w.engine with status := status } → R w w'
  clear : ∀ {w w' : World},
    w'.engine = { w.engine with busy := false, cancellationRequested := false, confirmedRequested := false } →
      R w w'

namespace EngineFrame

variable {R : World → World → Prop} (frame : EngineFrame R) {t : Ticket}
include frame

theorem refl (w : World) : R w w := frame.aside rfl

theorem nowMs : Always R nowMs := always_ask frame.refl

theorem noted {event : Event} : Always R (noted t event) := always_atomic fun _ _ => frame.aside rfl

theorem engineUnavailable : Always R engineUnavailable := always_read frame.refl

theorem latchEngineUnavailable : Always R (latchEngineUnavailable t) := always_atomic fun _ _ => frame.latch rfl

theorem usbReleaseAll : Always R (usbReleaseAll t) := always_atomic fun _ _ => frame.aside rfl

theorem waitMs {milliseconds : UInt32} : Always R (waitMs t milliseconds) :=
  always_atomic fun _ _ => frame.aside rfl

theorem publishStatus {status : MacroExecutionStatus} : Always R (publishStatus t status) :=
  always_locked frame.refl fun _ => frame.publish status rfl

theorem resetTerminalFlags : Always R (resetTerminalFlags t) :=
  always_locked frame.refl fun _ => frame.clear rfl

theorem readCancellation : Always R (readCancellation t) := by
  refine always_atomic fun env w => ?_
  split_ifs <;> exact frame.aside rfl

theorem readConfirmation : Always R (readConfirmation t) := by
  refine always_atomic fun env w => ?_
  split_ifs <;> exact frame.aside rfl

theorem recordReleaseFailure {status : MacroExecutionStatus} {releaseError : AppError} :
    Always R (recordReleaseFailure t status releaseError) := by
  by_cases hnone : releaseError = .none
  · rw [Executor.recordReleaseFailure, if_pos hnone]
    exact always_pure
  · rw [Executor.recordReleaseFailure, if_neg hnone]
    refine always_bind (always_atomic fun _ w => ?_) fun _ => always_bind frame.latchEngineUnavailable fun _ => always_pure
    split_ifs
    · exact frame.fault releaseError rfl
    · exact frame.refl w

theorem latchUnless {publishResult resetResult : Except AppError Unit} :
    Always R (latchUnless t publishResult resetResult) := by
  unfold Executor.latchUnless
  split
  · exact always_pure
  · exact frame.latchEngineUnavailable

theorem finishExecution {status : MacroExecutionStatus} {state : ExecutionState} {error : AppError} :
    Always R (finishExecution t status state error) :=
  always_bind frame.usbReleaseAll fun _ => always_bind frame.recordReleaseFailure fun _ =>
    always_bind frame.engineUnavailable fun _ => always_bind frame.nowMs fun _ =>
    always_bind frame.publishStatus fun _ => always_bind frame.resetTerminalFlags fun _ =>
    always_bind frame.latchUnless fun _ => always_pure

theorem finishSubmissionFailure {request : MacroExecutionRequest} {error : AppError} :
    Always R (finishSubmissionFailure t request error) :=
  always_bind frame.nowMs fun _ => always_bind frame.usbReleaseAll fun _ =>
    always_bind frame.recordReleaseFailure fun _ => always_bind frame.engineUnavailable fun _ =>
    always_bind frame.publishStatus fun _ => always_bind frame.resetTerminalFlags fun _ =>
    always_bind frame.latchUnless fun _ => always_bind frame.noted fun _ => always_pure

theorem publishStep {status : MacroExecutionStatus} : Always R (publishStep t status) := by
  refine always_bind frame.publishStatus fun shown => ?_
  cases shown with
  | error error =>
    exact always_bind frame.noted fun _ => always_bind frame.finishExecution fun _ => always_pure
  | ok => exact always_pure

theorem cancellableDelayLoop (passes : Nat) (remaining : UInt32) :
    Always R (cancellableDelayLoop t passes remaining) := by
  induction passes generalizing remaining with
  | zero => exact always_pure
  | succ passes ih =>
    by_cases hmore : remaining > 0
    · rw [Executor.cancellableDelayLoop, if_pos hmore]
      refine always_bind frame.readCancellation fun cancelled => ?_
      rcases cancelled with error | _ | _
      · exact always_pure
      · refine always_bind frame.nowMs fun now => always_bind (always_read frame.refl) fun limit => ?_
        by_cases hexpired : deadlineExpired now limit = true
        · rw [if_pos hexpired]
          exact always_pure
        · rw [if_neg hexpired]
          refine always_bind frame.waitMs fun waited => ?_
          cases waited with
          | error error => exact always_pure
          | ok => exact ih _
      · exact always_pure
    · rw [Executor.cancellableDelayLoop, if_neg hmore]
      exact always_pure

theorem executeAction {status : MacroExecutionStatus} {action : MacroAction} {keyPressMs interKeyMs : UInt32} :
    Always R (executeAction t status action keyPressMs interKeyMs) := by
  rw [Executor.executeAction]
  split_ifs
  · exact always_bind frame.noted fun _ => always_bind (frame.cancellableDelayLoop _ _) fun _ => always_pure
  · refine always_bind (always_atomic fun _ _ => frame.aside rfl) fun pressed => always_bind ?_ fun held =>
      always_bind frame.usbReleaseAll fun released => always_bind frame.recordReleaseFailure fun status => ?_
    · cases pressed with
      | error error => exact always_pure
      | ok => exact frame.cancellableDelayLoop _ _
    · cases held with
      | error error => exact always_pure
      | ok =>
        cases outcome released with
        | error error => exact always_pure
        | ok => exact always_bind (frame.cancellableDelayLoop _ _) fun _ => always_pure

theorem runActions {request : MacroExecutionRequest} (actions : List MacroAction) (index : Nat)
    (status : MacroExecutionStatus) : Always R (runActions t request actions index status) := by
  induction actions generalizing index status with
  | nil => exact always_pure
  | cons action rest ih =>
    rw [Executor.runActions]
    refine always_bind frame.publishStatus fun shown => ?_
    cases shown with
    | error error => exact always_pure
    | ok =>
      refine always_bind frame.readCancellation fun cancelled => ?_
      rcases cancelled with error | _ | _
      · exact always_pure
      · refine always_bind frame.nowMs fun now => always_bind (always_read frame.refl) fun limit => ?_
        split_ifs
        · exact always_pure
        · refine always_bind frame.executeAction fun done => ?_
          obtain ⟨code, status⟩ := done
          cases code with
          | error error => exact always_pure
          | ok => exact ih _ _
      · exact always_pure

theorem awaitConfirmation : Always R (awaitConfirmation t) := by
  refine always_bind frame.nowMs fun now => always_repeatUntil frame.refl
    (always_bind frame.readCancellation fun cancelled => ?_)
  rcases cancelled with error | _ | _
  · exact always_pure
  · refine always_bind frame.readConfirmation fun confirmed => ?_
    rcases confirmed with error | _ | _
    · exact always_pure
    · refine always_bind frame.nowMs fun later => ?_
      split_ifs
      · exact always_bind frame.noted fun _ => always_pure
      · refine always_bind frame.waitMs fun waited => ?_
        cases waited with
        | error error => exact always_pure
        | ok => exact always_pure
    · exact always_pure
  · exact always_pure

theorem runConfirmationPhase {status : MacroExecutionStatus} : Always R (runConfirmationPhase t status) := by
  refine always_bind frame.awaitConfirmation fun confirmed => ?_
  cases confirmed with
  | error error =>
    exact always_bind frame.noted fun _ => always_bind frame.finishExecution fun _ => always_pure
  | ok => exact always_bind frame.publishStep fun _ => always_pure

theorem requestFlag {allowed already : World → Bool} {set : World → World} {event : Bool → Event}
    (hset : ∀ w t event, R w ((set w).note t event)) :
    Always R (requestFlag (recordFlag allowed already set event)) := by
  refine always_bind frame.engineUnavailable fun unavailable => ?_
  split_ifs
  · exact always_pure
  · refine always_bind (always_atomic fun env w => ?_) fun recording => ?_
    · split_ifs
      all_goals first | exact frame.refl w | exact hset w _ _
    · cases recording with
      | refused error => exact always_pure
      | recorded ticket =>
        refine always_bind (always_atomic fun env w => ?_) fun _ => always_pure
        split_ifs <;> exact frame.aside rfl

section Worker

variable (hdeadline : ∀ (w : World) (deadline : UInt32),
  R w { w with engine := { w.engine with deadline := deadline } })
include hdeadline

theorem runPlan {request : MacroExecutionRequest} {status : MacroExecutionStatus} :
    Always R (runPlan t request status) := by
  refine always_bind frame.nowMs fun started => always_bind (always_atomic fun _ w => hdeadline w _) fun _ =>
    always_bind (frame.runActions _ _ _) fun done => ?_
  obtain ⟨code, status⟩ := done
  exact always_bind frame.noted fun _ => always_bind frame.finishExecution fun _ => always_pure

theorem macroExecutorEngineExecute {request : MacroExecutionRequest} :
    Always R (macroExecutorEngineExecute t request) := by
  unfold Executor.macroExecutorEngineExecute
  cases validateRequest request with
  | error error => exact always_pure
  | ok =>
    refine always_bind frame.publishStep fun shown => ?_
    cases shown with
    | some result => exact always_pure
    | none =>
      dsimp only
      split_ifs
      · refine always_bind frame.runConfirmationPhase fun confirmed => ?_
        obtain ⟨ended, status⟩ := confirmed
        cases ended with
        | some result => exact always_pure
        | none => exact frame.runPlan hdeadline
      · exact frame.runPlan hdeadline

theorem executorTask : Always R executorTask := by
  refine always_bind (always_repeatUntil frame.refl (always_bind (always_atomic fun env w => ?_) fun message => ?_))
    fun _ => always_atomic fun env w => ?_
  · split
    · split <;> exact frame.aside rfl
    · exact frame.refl w
  · rcases message with _ | ⟨t, request⟩ | _
    · exact always_pure
    · exact always_bind (frame.macroExecutorEngineExecute hdeadline) fun result =>
        always_bind (always_atomic fun _ _ => frame.aside rfl) fun _ => always_pure
    · exact always_pure
  · split <;> exact frame.aside rfl

end Worker

end EngineFrame

end MacroKeyboard.Executor
