import MacroKeyboard.Executor.EngineValid

namespace MacroKeyboard.Executor

open Threads.Program Threads.Monitor Threads.RelyGuarantee

variable {t : Ticket} {request : MacroExecutionRequest} {φ φ' : Progress → Prop}

theorem mayFree_busy {s : Stage} (h : s.mayFree = true) : s.holder = .worker ∧ s.holdsBusy = true := by
  cases s <;> simp_all [Stage.mayFree, Stage.holder, Stage.holdsBusy]

theorem fails_busy {s : Stage} {error : AppError} (h : s.fails error) :
    s.holder = .worker ∧ s.holdsBusy = true := by
  rcases h with h | ⟨rfl, -⟩ | ⟨rfl, -⟩
  · exact mayFree_busy h
  · exact ⟨rfl, rfl⟩
  · exact ⟨rfl, rfl⟩

theorem failed_freed {error : AppError} (he : error ≠ .none) (h : ∀ p, φ p → p.stage.fails error) :
    EventMoves 0 t (.freed error) φ (FreedWith error) := by
  intro r _ hφ
  obtain ⟨hworker, hbusy⟩ := fails_busy (h _ hφ)
  exact ⟨Or.inr ⟨he, h _ hφ⟩, { r.progress with stage := .freed, result := error }, rfl,
    ⟨hworker.symm, hbusy.symm, rfl, rfl, id, rfl⟩, rfl, rfl⟩

theorem valid_failRun {error : AppError} {status : MacroExecutionStatus} {state : ExecutionState}
    {α : Type} {k : Except AppError Unit → Thread α} {Q : α → World → Prop} (he : error ≠ .none)
    (hstate : state = terminalState error) (h : ∀ p, φ p → p.stage.fails error)
    (hk : ∀ result, Valid (threadLogic 0) (k result) (Holding 0 t Over) Q) :
    Valid (threadLogic 0)
      ((planFree t error).bind fun _ => (finishExecution t status state error).bind k)
      (Holding 0 t φ) Q :=
  valid_bind (valid_planFree (failed_freed he h)) fun _ => valid_bind (valid_finishExecution hstate) hk

/-- What a step that may end the execution leaves: the run where it should go
on, or an execution that is over. -/
def Onward (t : Ticket) (φ : Progress → Prop) : Option AppError → World → Prop
  | none => Holding 0 t φ
  | some _ => Holding 0 t Over

theorem valid_publishStep {status : MacroExecutionStatus}
    (hmoves : EventMoves 0 t (.published status.state) φ φ')
    (hfree : ∀ p, φ p ∨ φ' p → p.stage.mayFree = true)
    (hawaiting : ∀ p, φ' p → status.state = .awaitingConfirmation → p.awaited = true) :
    Valid (threadLogic 0) (publishStep t status) (Holding 0 t φ) (Onward t φ') := by
  refine valid_bind_result (valid_publishStatus hmoves
    (fun p hp => (mayFree_busy (hfree p (Or.inl hp))).2) hawaiting) (fun _ => ?_) (fun error he => ?_)
  · exact valid_ret fun _ _ hP => hP
  · obtain rfl : error = .internal := he
    exact valid_failRun nofun rfl (fun p hp => Or.inl (hfree p hp)) fun _ => valid_ret fun _ _ hP => hP

theorem running_published {stage stage' : Stage}
    (h : stage = .confirmed ∧ stage' = .ready ∨
      (stage = .ready ∨ stage = .lifted ∨ stage = .pausing) ∧ stage' = .announced) {n : Nat} :
    EventMoves 0 t (.published .running) (Stands request stage n) (Stands request stage' n) := by
  rintro r - ⟨hs, hrequest, hissued⟩
  have hafter : r.after (.published .running) = r.at stage' ∧ r.allows (.published .running) ∧
      stage'.holder = stage.holder ∧ stage'.holdsBusy = stage.holdsBusy := by
    rcases h with ⟨rfl, rfl⟩ | ⟨rfl | rfl | rfl, rfl⟩ <;>
      simp [Run.after, Run.at, Run.allows, Stage.next, Stage.afterPublished, Progress.record, hs,
        Stage.holder, Stage.holdsBusy]
  obtain ⟨hafter, hallows, hholder, hbusy⟩ := hafter
  exact ⟨hallows, { r.progress with stage := stage' }, hafter, moves_stage hs hholder hbusy, rfl,
    hrequest, hissued⟩

/-- The confirmation phase goes on with the run confirmed and published as
running, or ends the execution. -/
theorem valid_runConfirmationPhase {status : MacroExecutionStatus} :
    Valid (threadLogic 0) (runConfirmationPhase t status)
      (Holding 0 t (Awaits request))
      (fun result w => (result.1 = none → result.2.state = .running) ∧
        Onward t (Stands request .ready 0) result.1 w) := by
  refine valid_bind valid_awaitConfirmation fun waited => ?_
  rcases waited with error | _
  · refine valid_pure_and fun he => ?_
    refine valid_failRun he ?_ (fun p hp => hp.1) fun _ => valid_ret fun _ _ hP => ⟨nofun, hP⟩
    cases error <;> first | rfl | exact absurd rfl he
  · refine valid_bind (valid_publishStep (running_published (Or.inl ⟨rfl, rfl⟩)) ?_ ?_)
      fun ended => valid_ret fun _ _ hP => ⟨fun _ => rfl, hP⟩
    · rintro p (h | h) <;> rw [h.1] <;> rfl
    · exact fun _ _ h => nomatch h

/-- Between two actions, after the first `n` of them. -/
def Ran (request : MacroExecutionRequest) (n : Nat) (p : Progress) : Prop :=
  (p.stage = .lifted ∨ p.stage = .pausing) ∧ p.request = some request ∧ p.issued = n

theorem checked_timed {action : MacroAction} {n : Nat}
    (hnext : request.plan.actionList[n]? = some action) (ht : action.type = .delay) :
    EventMoves 0 t (.timedAction action.delayMs) (Stands request .checked n)
      (Stands request .pausing (n + 1)) := by
  rintro r - ⟨hs, hrequest, hissued⟩
  refine ⟨⟨hs, action, ?_, ht, rfl⟩,
    { r.progress with stage := .pausing, issued := r.progress.issued + 1 }, rfl,
    ⟨by rw [hs]; rfl, by rw [hs]; rfl, rfl, rfl, id, rfl⟩, rfl, hrequest, by rw [← hissued]⟩
  rw [Progress.nextAction, hrequest, Option.bind_some, hissued, hnext]

theorem checked_pressed {action : MacroAction} {n : Nat} {result : AppError}
    (hnext : request.plan.actionList[n]? = some action) (ht : action.type ≠ .delay) :
    EventMoves 0 t (.pressed action.modifiers action.usages result) (Stands request .checked n)
      (Stands request .holding (n + 1)) := by
  rintro r - ⟨hs, hrequest, hissued⟩
  refine ⟨⟨hs, action, ?_, ht, rfl, rfl⟩,
    { r.progress with stage := .holding, issued := r.progress.issued + 1 }, rfl,
    ⟨by rw [hs]; rfl, by rw [hs]; rfl, rfl, rfl, id, rfl⟩, rfl, hrequest, by rw [← hissued]⟩
  rw [Progress.nextAction, hrequest, Option.bind_some, hissued, hnext]

theorem holding_released {n : Nat} {result : AppError} :
    EventMoves 0 t (.released result) (Stands request .holding n) (Stands request .lifted n) := by
  rintro r - ⟨hs, hrequest, hissued⟩
  exact ⟨Or.inr (Or.inl hs), { r.progress with stage := .lifted }, by simp [Run.after, Stage.next,
    Stage.afterReleased, Progress.record, hs], moves_stage hs rfl rfl, rfl, hrequest, hissued⟩

/-- What an action leaves: the run after one more action, and a status of the
same state. -/
def AfterAction (t : Ticket) (request : MacroExecutionRequest) (n : Nat) (state : ExecutionState)
    (result : Except AppError Unit × MacroExecutionStatus) (w : World) : Prop :=
  result.2.state = state ∧
    OnResult 0 t NotNone (fun _ => Ran request n) (Ran request n) result.1 w

theorem onResult_ran {stage : Stage} (hs : stage = .lifted ∨ stage = .pausing) {n : Nat}
    {result : Except AppError Unit} {w : World}
    (h : OnResult 0 t NotNone (fun _ => Stands request stage n) (Stands request stage n) result w) :
    OnResult 0 t NotNone (fun _ => Ran request n) (Ran request n) result w := by
  have hran : ∀ p, Stands request stage n p → Ran request n p := fun p hp =>
    ⟨hs.imp hp.1.trans hp.1.trans, hp.2⟩
  cases result with
  | ok _ => exact Holding.imp h hran
  | error error => exact ⟨h.1, h.2.imp hran⟩

theorem valid_holdKeys {n : Nat} {keyPressMs : UInt32} (pressResult : Except AppError Unit) :
    Valid (threadLogic 0) (holdKeys t pressResult keyPressMs)
      (OnResult 0 t NotNone (fun _ => Stands request .holding n) (Stands request .holding n) pressResult)
      (OnResult 0 t NotNone (fun _ => Stands request .holding n) (Stands request .holding n)) := by
  cases pressResult with
  | ok _ => exact valid_cancellableDelay fun p hp => by rw [hp.1]; rfl
  | error error => exact valid_ret fun _ _ hP => hP

/-- One action begins exactly once, and its keys are up again when it ends. -/
theorem valid_executeAction {status : MacroExecutionStatus} {action : MacroAction} {n : Nat}
    {keyPressMs interKeyMs : UInt32} (hnext : request.plan.actionList[n]? = some action) :
    Valid (threadLogic 0) (executeAction t status action keyPressMs interKeyMs)
      (Holding 0 t (Stands request .checked n)) (AfterAction t request (n + 1) status.state) := by
  unfold executeAction
  split
  · next ht =>
    refine valid_bind (valid_noted (checked_timed hnext ht) trivial) fun _ => ?_
    refine valid_bind (valid_cancellableDelay fun p hp => by rw [hp.1]; rfl) fun result => ?_
    exact valid_ret fun w _ hP => ⟨rfl, onResult_ran (Or.inr rfl) hP⟩
  · next ht =>
    have hrelease : ∀ k : MacroExecutionStatus → AppError →
        Thread (Except AppError Unit × MacroExecutionStatus),
        (∀ status' code, status'.state = status.state → Valid (threadLogic 0) (k status' code)
          (Holding 0 t (Stands request .lifted (n + 1)))
          (AfterAction t request (n + 1) status.state)) →
        Valid (threadLogic 0)
          ((usbReleaseAll t).bind fun code => (recordReleaseFailure t status code).bind fun status =>
            k status code)
          (Holding 0 t (Stands request .holding (n + 1)))
          (AfterAction t request (n + 1) status.state) :=
      fun k hk => valid_bind (valid_usbReleaseAll fun _ => holding_released) fun code =>
        valid_bind (valid_recordReleaseFailure_state (fun _ _ hp => hp)
            fun _ p hp => ⟨by rw [hp.1]; rfl, hp⟩)
          fun status' => valid_pure_and (hk status' code)
    have hended : ∀ (error : AppError) (status' : MacroExecutionStatus), error ≠ .none →
        status'.state = status.state → Valid (threadLogic 0) (.ret (.error error, status') :
            Thread (Except AppError Unit × MacroExecutionStatus))
          (Holding 0 t (Stands request .lifted (n + 1)))
          (AfterAction t request (n + 1) status.state) :=
      fun error status he hs => valid_ret fun _ _ hP =>
        ⟨hs, he, hP.imp fun p hp => ⟨Or.inl hp.1, hp.2⟩⟩
    refine valid_bind (valid_usbPress fun _ => checked_pressed hnext ht) fun pressResult =>
      valid_bind (valid_holdKeys pressResult) fun held => ?_
    cases held with
    | error error =>
      exact valid_pure_and fun he => hrelease _ fun status' code => hended error status' he
    | ok _ =>
      refine hrelease _ fun status' code hstate => ?_
      unfold outcome
      split_ifs with hcode
      · refine valid_bind (valid_cancellableDelay fun p hp => by rw [hp.1]; rfl) fun result => ?_
        exact valid_ret fun w _ hP => ⟨hstate, onResult_ran (Or.inl rfl) hP⟩
      · exact hended code status' hcode hstate

/-- Before the next action, after the first `n` of them. -/
def Between (request : MacroExecutionRequest) (n : Nat) (p : Progress) : Prop :=
  (p.stage = .ready ∨ p.stage = .lifted ∨ p.stage = .pausing) ∧ p.request = some request ∧
    p.issued = n

def Breakable (request : MacroExecutionRequest) (p : Progress) : Prop :=
  p.stage.mayFree = true ∧ p.request = some request

theorem Stands.breakable {stage : Stage} {n : Nat} {p : Progress} (h : Stands request stage n p)
    (hs : stage.mayFree = true) : Breakable request p := ⟨by rw [h.1]; exact hs, h.2.1⟩

theorem between_published {n : Nat} :
    EventMoves 0 t (.published .running) (Between request n) (Stands request .announced n) := by
  rintro r hheld ⟨hs, hrequest, hissued⟩
  exact running_published (Or.inr ⟨hs, rfl⟩) r hheld ⟨rfl, hrequest, hissued⟩

/-- The action loop: each pass begins the next action of the plan, and only a
loop that began them all ends without an error. -/
theorem valid_runActions : ∀ (actions : List MacroAction) (n : Nat) (status : MacroExecutionStatus),
    status.state = .running → request.plan.actionList.drop n = actions →
    n ≤ request.plan.actionCount →
    Valid (threadLogic 0) (runActions t request actions n status) (Holding 0 t (Between request n))
      (fun result => OnResult 0 t NotNone (fun _ => Between request request.plan.actionCount)
        (Breakable request) result.1) := by
  intro actions
  induction actions with
  | nil =>
    intro n status _ hdrop hn
    refine valid_ret fun w hw hP => ?_
    obtain ⟨r, hr, hheld, hcaller, hs, hrequest, hissued⟩ := hP
    have hle : request.plan.actionCount ≤ n := List.drop_eq_nil_iff.mp hdrop
    exact ⟨r, hr, hheld, hcaller, hs, hrequest, by omega⟩
  | cons action rest ih =>
    intro n status hrunning hdrop _
    have hnext : request.plan.actionList[n]? = some action := by
      rw [← List.head?_drop, hdrop]
      rfl
    have hrest : request.plan.actionList.drop (n + 1) = rest := by
      rw [← List.tail_drop, hdrop]
      rfl
    have hbroken : ∀ (error : AppError) (status : MacroExecutionStatus) (φ : Progress → Prop),
        error ≠ .none → (∀ p, φ p → Breakable request p) → Valid (threadLogic 0)
          (.ret (.error error, status) : Thread (Except AppError Unit × MacroExecutionStatus))
          (Holding 0 t φ) (fun result => OnResult 0 t NotNone
            (fun _ => Between request request.plan.actionCount) (Breakable request) result.1) :=
      fun error status φ he h => valid_ret fun _ _ hP => ⟨he, hP.imp h⟩
    have hbetween : ∀ p, Between request n p → Breakable request p := by
      rintro p ⟨hs | hs | hs, hrequest, -⟩ <;> exact ⟨by rw [hs]; rfl, hrequest⟩
    have hannounced : ∀ p, Stands request .announced n p → Breakable request p :=
      fun p hp => hp.breakable rfl
    have hread : ∀ p, Stands request .announced n p → p.stage.readsCancellation = true ∧
        ∀ cancelled : Bool, (if cancelled then Stands request .announced n else Stands request .checked n)
          { p with stage := p.stage.afterRead cancelled } := by
      rintro p ⟨hs, hp⟩
      refine ⟨by rw [hs]; rfl, fun cancelled => ?_⟩
      rw [hs]
      cases cancelled with
      | true => exact ⟨rfl, hp⟩
      | false => exact ⟨rfl, hp⟩
    unfold runActions
    refine valid_bind_result (valid_publishStatus (by rw [hrunning]; exact between_published)
      (fun p hp => (mayFree_busy (hbetween p hp).1).2) (fun p _ h => by rw [hrunning] at h; cases h))
      (fun _ => ?_) (fun error he => hbroken error _ _ (by rw [he]; nofun) ?_)
    · refine valid_bind_result (valid_readCancellation hread) (fun cancelled => ?_)
        (fun error he => hbroken error _ _ (by rw [he]; nofun) hannounced)
      cases cancelled with
      | true => exact hbroken _ _ _ nofun hannounced
      | false =>
        refine valid_bind valid_nowMs fun now =>
          valid_bind (valid_read stable_holding _) fun deadline => ?_
        split
        · exact hbroken _ _ _ nofun fun p hp => hp.breakable rfl
        · refine valid_bind (valid_executeAction hnext) fun outcome => ?_
          obtain ⟨result, status'⟩ := outcome
          cases result with
          | error error =>
            refine valid_pure_and fun _ => valid_pure_and fun he => hbroken error status' _ he ?_
            rintro p ⟨hs | hs, hrequest, -⟩ <;> exact ⟨by rw [hs]; rfl, hrequest⟩
          | ok _ =>
            refine valid_pure_and fun hstate => (ih (n + 1) status' (hstate.trans hrunning) hrest
              ?_).pre fun w _ hP => Holding.imp hP fun p hp => ⟨Or.inr hp.1, hp.2⟩
            exact (List.getElem?_eq_some_iff.mp hnext).1
    · rintro p (hp | hp)
      · exact hbetween p hp
      · exact hannounced p hp

theorem between_freed : EventMoves 0 t (.freed .none) (Between request request.plan.actionCount)
    (FreedWith .none) := by
  rintro r - ⟨hs, hrequest, hissued⟩
  have hfree : r.progress.stage.mayFree = true := by
    rcases hs with h | h | h <;> rw [h] <;> rfl
  obtain ⟨hworker, hbusy⟩ := mayFree_busy hfree
  refine ⟨Or.inl ⟨rfl, fun other ho => ?_, hs⟩,
    { r.progress with stage := .freed, result := .none }, rfl,
    ⟨hworker.symm, hbusy.symm, rfl, rfl, id, rfl⟩, rfl, rfl⟩
  rw [hrequest] at ho
  cases ho
  exact hissued

theorem valid_setDeadline {deadline : UInt32} :
    Valid (threadLogic 0) (setDeadline deadline) (Holding 0 t φ) (fun _ => Holding 0 t φ) :=
  valid_atomic (fun _ => stable_holding) (action_same (fun _ _ => rfl)
    (fun _ _ => ⟨rfl, rfl, rfl, rfl, rfl, rfl, rfl, rfl, rfl⟩) (fun _ _ => rfl) fun _ _ hP => hP)

theorem valid_runPlan {status : MacroExecutionStatus} (hrunning : status.state = .running) :
    Valid (threadLogic 0) (runPlan t request status) (Holding 0 t (Stands request .ready 0))
      (fun _ => Holding 0 t Over) := by
  have hactions : ∀ status : MacroExecutionStatus, status.state = .running →
      Valid (threadLogic 0) (runActions t request request.plan.actionList 0 status)
        (Holding 0 t (Stands request .ready 0)) (fun result => OnResult 0 t NotNone
          (fun _ => Between request request.plan.actionCount) (Breakable request) result.1) :=
    fun status hs => (valid_runActions request.plan.actionList 0 status hs rfl (Nat.zero_le _)).pre
      fun _ _ hP => Holding.imp hP fun p hp => ⟨Or.inl hp.1, hp.2⟩
  refine valid_bind valid_nowMs fun started => valid_bind valid_setDeadline fun _ => ?_
  refine valid_bind (hactions { status with startedMs := started } hrunning) fun outcome => ?_
  obtain ⟨result, status'⟩ := outcome
  cases result with
  | error error =>
    exact valid_pure_and fun he => valid_failRun he rfl (fun p hp => Or.inl hp.1) fun _ =>
      valid_ret fun _ _ hP => hP
  | ok _ =>
    exact valid_bind (valid_planFree between_freed) fun _ =>
      valid_bind (valid_finishExecution rfl) fun _ => valid_ret fun _ _ hP => hP

theorem taken_awaiting (hc : request.requireConfirmation = true) :
    EventMoves 0 t (.published .awaitingConfirmation) (Taken request)
      (Awaits request) := by
  rintro r - ⟨hs, hrequest, hissued⟩
  exact ⟨by simp [Run.allows, hs, Progress.requiresConfirmation, hrequest, hc],
    { r.progress with stage := .awaiting, awaited := true }, by simp [Run.after, Stage.next,
      Stage.afterPublished, Progress.record, hs],
    ⟨by rw [hs]; rfl, by rw [hs]; rfl, rfl, rfl, fun _ => rfl, rfl⟩, ⟨rfl, hrequest, hissued⟩, rfl⟩

theorem taken_running (hc : request.requireConfirmation = false) :
    EventMoves 0 t (.published .running) (Taken request) (Stands request .ready 0) := by
  rintro r - ⟨hs, hrequest, hissued⟩
  exact ⟨by simp [Run.allows, hs, Progress.requiresConfirmation, hrequest, hc],
    { r.progress with stage := .ready }, by simp [Run.after, Stage.next, Stage.afterPublished,
      Progress.record, hs], moves_stage hs rfl rfl, rfl,
    hrequest, hissued⟩

/-- An execution that the worker has taken ends over: its plan freed once, its
keys released, its flags cleared or the engine latched. -/
theorem valid_execute :
    Valid (threadLogic 0) (macroExecutorEngineExecute t request) (Holding 0 t (Taken request))
      (fun _ => Holding 0 t Over) := by
  unfold macroExecutorEngineExecute
  cases hv : validateRequest request with
  | error error =>
    refine valid_ret fun w _ ⟨r, hr, _, _, hs, hrequest, _⟩ => ?_
    have hok := request_valid (traces_of_runIn hr) request hrequest
    rw [hv] at hok
    cases hok
  | ok _ =>
    cases hc : request.requireConfirmation with
    | true =>
      refine valid_bind (valid_publishStep (taken_awaiting hc) ?_ fun p hp _ => hp.2) fun ended => ?_
      · rintro p (hp | hp)
        · rw [hp.1]; rfl
        · rw [hp.1.1]; rfl
      cases ended with
      | some result => exact valid_ret fun _ _ hP => hP
      | none =>
        refine valid_bind valid_runConfirmationPhase fun result => ?_
        obtain ⟨ended, status⟩ := result
        refine valid_pure_and fun hrunning => ?_
        cases ended with
        | some result => exact valid_ret fun _ _ hP => hP
        | none => exact valid_runPlan (hrunning rfl)
    | false =>
      refine valid_bind (valid_publishStep (taken_running hc) ?_ fun _ _ h => nomatch h) fun ended => ?_
      · rintro p (hp | hp)
        · rw [hp.1]; rfl
        · rw [hp.1]; rfl
      cases ended with
      | some result => exact valid_ret fun _ _ hP => hP
      | none => exact valid_runPlan rfl

end MacroKeyboard.Executor
