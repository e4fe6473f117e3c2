import MacroKeyboard.Executor.Handover

namespace MacroKeyboard.Executor

open Threads.Program Threads.Monitor Threads.RelyGuarantee

variable {i : Nat} {t : Ticket} {φ φ' : Progress → Prop} {α : Type}

theorem moves_stage {p : Progress} {s s' : Stage} (hs : p.stage = s) (hholder : s'.holder = s.holder)
    (hbusy : s'.holdsBusy = s.holdsBusy) : Moves p { p with stage := s' } :=
  ⟨by rw [hs]; exact hholder, by rw [hs]; exact hbusy, rfl, rfl, id, rfl⟩

theorem valid_engineUnavailable :
    Valid (threadLogic i) engineUnavailable (Holding i t φ) (fun _ => Holding i t φ) :=
  valid_read stable_holding _

theorem valid_nowMs : Valid (threadLogic i) nowMs (Holding i t φ) (fun _ => Holding i t φ) :=
  valid_ask stable_holding _

theorem valid_bind_result {p : Thread (Except AppError α)} {β : Type}
    {k : Except AppError α → Thread β} {P : World → Prop} {codes : AppError → Prop}
    {ok : α → Progress → Prop} {Q : β → World → Prop}
    (hp : Valid (threadLogic i) p P (OnResult i t codes ok φ))
    (hok : ∀ a, Valid (threadLogic i) (k (.ok a)) (Holding i t (ok a)) Q)
    (hfailed : ∀ error, codes error → Valid (threadLogic i) (k (.error error)) (Holding i t φ) Q) :
    Valid (threadLogic i) (p.bind k) P Q := by
  refine valid_bind hp fun result => ?_
  cases result with
  | ok a => exact hok a
  | error error => exact valid_pure_and (hfailed error)

theorem valid_latchUnless {publishResult resetResult : Except AppError Unit}
    (hok : publishResult = .ok () → resetResult = .ok () → ∀ p, φ p → φ' p)
    (h : ∀ p, φ p → p.stage.mayLatch = true ∧ φ' { p with latched := true }) :
    Valid (threadLogic i) (latchUnless t publishResult resetResult) (Holding i t φ)
      (fun _ => Holding i t φ') := by
  unfold latchUnless
  split
  · exact valid_ret fun _ _ hP => hP.imp (hok rfl rfl)
  · exact valid_latchEngineUnavailable h

section Finish

variable {request : MacroExecutionRequest} {result : AppError}

def FreedWith (result : AppError) (p : Progress) : Prop := p.stage = .freed ∧ p.result = result

def SilentWith (result : AppError) (p : Progress) : Prop := p.stage = .silent ∧ p.result = result

theorem freed_released {code : AppError} :
    EventMoves i t (.released code) (FreedWith result) (SilentWith result) := by
  rintro r - ⟨hs, hres⟩
  exact ⟨by simp [Run.allows, hs], { r.progress with stage := .silent },
    by simp [Run.after, Stage.next, Stage.afterReleased, Progress.record, hs], moves_stage hs rfl rfl,
    rfl, hres⟩

theorem terminalState_ne_awaiting {code : AppError} : terminalState code ≠ .awaitingConfirmation := by
  cases code <;> decide

theorem silent_published {state : ExecutionState} (hstate : state = terminalState result) :
    EventMoves i t (.published state) (SilentWith result)
      (fun p => p.stage = .silent ∧ p.recorded = true) := by
  rintro r - ⟨hs, hres⟩
  refine ⟨by simp [Run.allows, hs, hres, hstate], { r.progress with recorded := true },
    ?_, ⟨rfl, rfl, rfl, rfl, id, rfl⟩, hs, rfl⟩
  have hne : state ≠ .awaitingConfirmation := fun h => terminalState_ne_awaiting (hstate.symm.trans h)
  simp [Run.after, Stage.next, Stage.afterPublished, Progress.record, hs, hne]

/-- The end of `finish_execution`, whether the terminal state was published or
not. -/
theorem valid_clearAndLatch {publishResult : Except AppError Unit} :
    Valid (threadLogic 0)
      (do
        let resetResult ← resetTerminalFlags t
        latchUnless t publishResult resetResult
        pure (firstFailure publishResult resetResult))
      (Holding 0 t (fun p => p.stage = .silent ∧ (publishResult = .ok () → p.recorded = true)))
      (fun _ => Holding 0 t Over) := by
  have hreset : Valid (threadLogic 0) (resetTerminalFlags t)
      (Holding 0 t (fun p => p.stage = .silent ∧ (publishResult = .ok () → p.recorded = true)))
      (OnResult 0 t Internal (fun _ p => p.stage = .cleared ∧ (publishResult = .ok () → p.recorded = true))
        (fun p => (p.stage = .silent ∨ p.stage = .cleared))) := by
    have h : Valid (threadLogic 0) (resetTerminalFlags t)
        (Holding 0 t (fun p => p.stage = .silent ∧ (publishResult = .ok () → p.recorded = true)))
        (OnResult 0 t Internal (fun _ p => p.stage = .cleared ∧ (publishResult = .ok () → p.recorded = true)) _) :=
      valid_resetTerminalFlags fun p hp => Or.inr ⟨hp.1, rfl, hp.2⟩
    refine h.post fun result w _ hres => ?_
    cases result with
    | ok _ => exact hres
    | error error => exact ⟨hres.1, hres.2.imp fun p hp => hp.imp And.left And.left⟩
  refine valid_bind_result hreset (fun _ => ?_) (fun error _ => ?_)
  · refine valid_bind (valid_latchUnless (fun hok _ p hp => ?_) fun p hp => ⟨?_, ?_⟩)
      fun _ => valid_ret fun _ _ h => h
    · exact ⟨Or.inr hp.1, Or.inl hp.1, Or.inl (hp.2 hok)⟩
    · rw [hp.1]
      rfl
    · exact ⟨Or.inr hp.1, Or.inl hp.1, Or.inr rfl⟩
  · refine valid_bind (valid_latchUnless (fun _ he => nomatch he) fun p hp => ⟨?_, ?_⟩)
      fun _ => valid_ret fun _ _ h => h
    · rcases hp with h | h <;> rw [h] <;> rfl
    · exact ⟨hp, Or.inr rfl, Or.inr rfl⟩

/-- `finish_execution` ends with the flags cleared or the engine latched,
whatever fails in it. -/
theorem valid_finishExecution {status : MacroExecutionStatus} {state : ExecutionState}
    (hstate : state = terminalState result) :
    Valid (threadLogic 0) (finishExecution t status state result) (Holding 0 t (FreedWith result))
      (fun _ => Holding 0 t Over) := by
  refine valid_bind (valid_usbReleaseAll fun _ => freed_released) fun releaseResult => ?_
  refine valid_bind (valid_recordReleaseFailure fun p hp => ⟨by rw [hp.1]; rfl, hp⟩) fun status => ?_
  refine valid_bind valid_engineUnavailable fun unavailable => valid_bind valid_nowMs fun now => ?_
  refine valid_bind_result (valid_publishStatus (silent_published hstate)
    (fun p hp => by rw [hp.1]; rfl) fun p _ hs => ?_) (fun _ => ?_) (fun error _ => ?_)
  · exact absurd (hstate.symm.trans hs) terminalState_ne_awaiting
  · exact valid_clearAndLatch.pre fun _ _ h => h.imp fun p hp => ⟨hp.1, fun _ => hp.2⟩
  · refine valid_clearAndLatch.pre fun _ _ h => h.imp fun p hp => ⟨?_, nofun⟩
    exact hp.elim And.left And.left

/-- The stages in which the worker waits out a delay. -/
def Stage.delays : Stage → Bool
  | .holding | .lifted | .pausing => true
  | _ => false

theorem delays_worker {s : Stage} (h : s.delays = true) : s.holder = .worker ∧
    s.readsCancellation = true ∧ (s.mayFree = true ∨ s = .holding) := by
  cases s <;> simp_all [Stage.delays, Stage.holder, Stage.readsCancellation, Stage.mayFree]

theorem afterRead_delays {s : Stage} (h : s.delays = true) (cancelled : Bool) :
    s.afterRead cancelled = s := by
  cases s <;> first | rfl | cases h

theorem valid_readCancellation_delaying (h : ∀ p, φ p → p.stage.delays = true) :
    Valid (threadLogic i) (readCancellation t) (Holding i t φ)
      (OnResult i t Internal (fun _ => φ) φ) :=
  valid_readCancellation fun p hp => ⟨(delays_worker (h p hp)).2.1, fun cancelled => by
    rw [afterRead_delays (h p hp)]
    exact hp⟩

theorem valid_waitMs_delaying (h : ∀ p, φ p → p.stage.delays = true) {milliseconds : UInt32} :
    Valid (threadLogic i) (waitMs t milliseconds) (Holding i t φ) (OnResult i t NotNone (fun _ => φ) φ) :=
  valid_waitMs fun p hp => ⟨(delays_worker (h p hp)).1, (delays_worker (h p hp)).2.2⟩

theorem valid_cancellableDelayLoop (h : ∀ p, φ p → p.stage.delays = true) :
    ∀ passes remaining, Valid (threadLogic i) (cancellableDelayLoop t passes remaining)
      (Holding i t φ) (OnResult i t NotNone (fun _ => φ) φ) := by
  have hfailed : ∀ error : AppError, NotNone error → Valid (threadLogic i)
      (.ret (.error error) : Thread (Except AppError Unit)) (Holding i t φ)
      (OnResult i t NotNone (fun _ => φ) φ) := fun error he => valid_ret fun _ _ hP => ⟨he, hP⟩
  have hinternal : ∀ error : AppError, Internal error → _ := fun error he =>
    hfailed error (he ▸ nofun)
  intro passes
  induction passes with
  | zero => exact fun _ => valid_ret fun _ _ hP => hP
  | succ passes ih =>
    intro remaining
    unfold cancellableDelayLoop
    split
    · refine valid_bind_result (valid_readCancellation_delaying h) (fun cancelled => ?_) hinternal
      cases cancelled with
      | true => exact hfailed _ nofun
      | false =>
        refine valid_bind valid_nowMs fun now => valid_bind (valid_read stable_holding _) fun deadline => ?_
        dsimp only
        split
        · exact hfailed _ nofun
        · exact valid_bind_result (valid_waitMs_delaying h) (fun _ => ih _) hfailed
    · exact valid_ret fun _ _ hP => hP

theorem valid_cancellableDelay (h : ∀ p, φ p → p.stage.delays = true) {delayMs : UInt32} :
    Valid (threadLogic i) (cancellableDelay t delayMs) (Holding i t φ)
      (OnResult i t NotNone (fun _ => φ) φ) :=
  valid_cancellableDelayLoop h _ _

def Stands (request : MacroExecutionRequest) (stage : Stage) (issued : Nat) (p : Progress) : Prop :=
  p.stage = stage ∧ p.request = some request ∧ p.issued = issued

def Awaits (request : MacroExecutionRequest) (p : Progress) : Prop :=
  Stands request .awaiting 0 p ∧ p.awaited = true

/-- How the wait for a confirmation fails: a cancellation and an expiry show in
its error. -/
def Unconfirmed (request : MacroExecutionRequest) (error : AppError) (p : Progress) : Prop :=
  p.stage.fails error ∧ p.request = some request

/-- What the wait for a confirmation ends with. -/
def Waited (t : Ticket) (request : MacroExecutionRequest) : Except AppError Unit → World → Prop
  | .ok () => Holding 0 t (Stands request .confirmed 0)
  | .error error => fun w => error ≠ .none ∧ Holding 0 t (Unconfirmed request error) w

theorem stable_waited (result : Except AppError Unit) :
    Stable (threadLogic 0) (Waited t request result) := by
  cases result with
  | ok _ => exact stable_holding
  | error error => exact fun w w' hw hw' hr h => ⟨h.1, stable_holding w w' hw hw' hr h.2⟩

theorem awaits_afterRead {p : Progress} (h : Awaits request p) (cancelled : Bool) :
    (if cancelled then Unconfirmed request .executionCancelled else Awaits request)
      { p with stage := p.stage.afterRead cancelled } := by
  have hs : p.stage = .awaiting := h.1.1
  rw [hs]
  cases cancelled with
  | true => exact ⟨Or.inr (Or.inl ⟨rfl, rfl⟩), h.1.2.1⟩
  | false => exact ⟨⟨rfl, h.1.2⟩, h.2⟩

theorem awaits_expired :
    EventMoves 0 t .expired (Awaits request) (Unconfirmed request .timeout) := by
  rintro r - ⟨⟨hs, hrequest, -⟩, -⟩
  exact ⟨hs, { r.progress with stage := .overdue }, rfl, moves_stage hs rfl rfl,
    Or.inr (Or.inr ⟨rfl, rfl⟩), hrequest⟩

/-- The wait for a confirmation ends confirmed, or with the error that ended it. -/
theorem valid_awaitConfirmation :
    Valid (threadLogic 0) (awaitConfirmation t) (Holding 0 t (Awaits request)) (Waited t request) := by
  have hends : ∀ (error : AppError) (φ : Progress → Prop), error ≠ .none →
      (∀ p, φ p → Unconfirmed request error p) → Valid (threadLogic 0)
        (.ret (some (.error error)) : Thread (Option (Except AppError Unit))) (Holding 0 t φ)
        (fun result => result.elim (Holding 0 t (Awaits request)) (Waited t request)) :=
    fun error φ he h => valid_ret fun _ _ hP => ⟨he, hP.imp h⟩
  have hawaits : ∀ (error : AppError) (p : Progress), Awaits request p → Unconfirmed request error p :=
    fun error p hp => ⟨Or.inl (by rw [hp.1.1]; rfl), hp.1.2.1⟩
  have hinternal : ∀ error : AppError, Internal error → _ := fun error he =>
    hends error _ (by rw [he]; nofun) (hawaits error)
  refine valid_bind valid_nowMs fun now => ?_
  refine valid_repeatUntil stable_holding stable_waited ?_
  refine valid_bind_result (valid_readCancellation fun p hp => ⟨by rw [hp.1.1]; rfl, awaits_afterRead hp⟩)
    (fun cancelled => ?_) hinternal
  cases cancelled with
  | true => exact hends _ _ nofun fun _ hp => hp
  | false =>
    have hread : Valid (threadLogic 0) (readConfirmation t) (Holding 0 t (Awaits request))
        (OnResult 0 t Internal (fun confirmed => if confirmed then Stands request .confirmed 0
          else Awaits request) (Awaits request)) :=
      valid_readConfirmation fun p hp => ⟨hp.1.1, rfl, hp.1.2⟩
    refine valid_bind_result hread (fun confirmed => ?_) hinternal
    cases confirmed with
    | true => exact valid_ret fun _ _ hP => hP
    | false =>
      refine valid_bind valid_nowMs fun now => ?_
      split
      · exact valid_bind (valid_noted awaits_expired trivial) fun _ =>
          hends _ _ nofun fun _ hp => hp
      · exact valid_bind_result
          (valid_waitMs fun p hp => ⟨by rw [hp.1.1]; rfl, Or.inl (by rw [hp.1.1]; rfl)⟩)
          (fun _ => valid_ret fun _ _ hP => hP) fun error he => hends error _ he (hawaits error)

end Finish

end MacroKeyboard.Executor
