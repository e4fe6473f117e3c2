import MacroKeyboard.Executor.EngineValid

namespace MacroKeyboard.Executor

open Threads.Program Threads.Monitor Threads.RelyGuarantee

variable {t : Ticket} {plan : MacroPlan} {request : MacroExecutionRequest}

/-- A submission that cleans up after itself: where it stands, and whether it
has latched the engine. -/
def Withdrawing (plan : MacroPlan) (stage : Stage → Prop) (latched : Bool) (p : Progress) : Prop :=
  stage p.stage ∧ p.handed = some plan ∧ p.request = none ∧ p.latched = latched

def Refused (plan : MacroPlan) (p : Progress) : Prop := p.refused ∧ p.handed = some plan

def Leaving (stage : Stage) : Prop := stage = .quiet ∨ stage = .withdrawn

theorem claimed_released {result : AppError} :
    EventMoves t t (.released result) (Claimed plan) (Withdrawing plan (· = .quiet) false) := by
  rintro r - ⟨hs, hhanded, hrequest, hlatched⟩
  exact ⟨Or.inl hs, { r.progress with stage := .quiet }, by simp [Run.after, Stage.next,
    Stage.afterReleased, Progress.record, hs], moves_stage hs rfl rfl, rfl, hhanded, hrequest, hlatched⟩

theorem quiet_published {latched : Bool} :
    EventMoves t t (.published .failed) (Withdrawing plan (· = .quiet) latched)
      (Withdrawing plan (· = .quiet) latched) := by
  intro r _ hφ
  have hs : r.progress.stage = .quiet := hφ.1
  exact ⟨by simp [Run.allows, hs], { r.progress with stage := .quiet }, by simp [Run.after, Stage.next,
    Stage.afterPublished, Progress.record, hs], moves_stage hs rfl rfl, rfl, hφ.2⟩

theorem withdrew_restored :
    EventMoves t t (.withdrew true) (Withdrawing plan (· = .withdrawn) false) (Refused plan) := by
  rintro r - ⟨hs, hhanded, hrequest, hlatched⟩
  exact ⟨⟨hs, hlatched⟩, { r.progress with stage := .restored }, rfl, moves_stage hs rfl rfl,
    ⟨hrequest, Or.inr (Or.inl rfl)⟩, hhanded⟩

theorem withdrew_latched :
    EventMoves t t (.withdrew false) (Withdrawing plan Leaving true) (Refused plan) := by
  rintro r - ⟨hs, hhanded, hrequest, hlatched⟩
  exact ⟨⟨hs, hlatched⟩, r.progress, rfl, Moves.refl _, ⟨hrequest, Or.inr (Or.inr ⟨hs, hlatched⟩)⟩,
    hhanded⟩

theorem Withdrawing.latch {stage : Stage → Prop} {latched : Bool} {p : Progress}
    (hstage : ∀ s, stage s → Leaving s) (h : Withdrawing plan stage latched p) :
    p.stage.mayLatch = true ∧ Withdrawing plan Leaving true { p with latched := true } := by
  obtain ⟨hs, hhanded, hrequest, -⟩ := h
  refine ⟨?_, hstage _ hs, hhanded, hrequest, rfl⟩
  rcases hstage _ hs with h | h <;> rw [h] <;> rfl

theorem valid_recordWithdrawing {status : MacroExecutionStatus} (releaseResult : AppError) :
    Valid (threadLogic t) (recordReleaseFailure t status releaseResult)
      (Holding t t (Withdrawing plan (· = .quiet) false)) (fun status' w =>
        status'.state = status.state ∧
          Holding t t (Withdrawing plan (· = .quiet) (releaseResult != .none)) w) := by
  refine valid_recordReleaseFailure_state ?_ ?_
  · rintro rfl p hp
    exact hp
  · intro hr p hp
    have hlatched : (releaseResult != .none) = true := by simpa using hr
    rw [hlatched]
    exact ⟨by rw [hp.1]; rfl, hp.1, hp.2.1, hp.2.2.1, rfl⟩

theorem valid_resetWithdrawn {latched : Bool} :
    Valid (threadLogic t) (resetTerminalFlags t) (Holding t t (Withdrawing plan (· = .quiet) latched))
      (OnResult t t Internal (fun _ => Withdrawing plan (· = .withdrawn) latched)
        (Withdrawing plan Leaving latched)) := by
  have h : Valid (threadLogic t) (resetTerminalFlags t)
      (Holding t t (Withdrawing plan (· = .quiet) latched))
      (OnResult t t Internal (fun _ => Withdrawing plan (· = .withdrawn) latched) _) :=
    valid_resetTerminalFlags fun p hp => Or.inl ⟨hp.1, rfl, hp.2⟩
  refine h.post fun result w _ hres => ?_
  cases result with
  | ok _ => exact hres
  | error error =>
    exact ⟨hres.1, hres.2.imp fun p hp => hp.elim (fun h => ⟨Or.inl h.1, h.2⟩) fun h => ⟨Or.inr h.1, h.2⟩⟩

/-- The end of `finish_submission_failure`, from the clearing of the flags on. -/
theorem valid_withdraw {releaseResult primaryError : AppError} {publishResult : Except AppError Unit} :
    Valid (threadLogic t)
      (do
        let resetResult ← resetTerminalFlags t
        latchUnless t publishResult resetResult
        noted t (.withdrew (releaseResult == .none && publishResult.isOk && resetResult.isOk))
        pure primaryError)
      (Holding t t (Withdrawing plan (· = .quiet) (releaseResult != .none)))
      (fun error w => error = primaryError ∧ Holding t t (Refused plan) w) := by
  have hleave : ∀ s, s = Stage.withdrawn → Leaving s := fun s hs => Or.inr hs
  have hend : ∀ (succeeded : Bool) (φ : Progress → Prop),
      EventMoves t t (.withdrew succeeded) φ (Refused plan) →
      Valid (threadLogic t)
        ((noted t (.withdrew succeeded)).bind fun _ => (.ret primaryError : Thread AppError))
        (Holding t t φ) (fun error w => error = primaryError ∧ Holding t t (Refused plan) w) :=
    fun succeeded φ h => valid_bind (valid_noted h trivial) fun _ => valid_ret fun _ _ hP => ⟨rfl, hP⟩
  refine valid_bind_result valid_resetWithdrawn (fun _ => ?_) (fun error _ => ?_)
  · cases publishResult with
    | ok _ =>
      refine valid_bind (M := fun _ => Holding t t (Withdrawing plan (· = .withdrawn)
        (releaseResult != .none))) (valid_ret fun _ _ hP => hP) fun _ => ?_
      by_cases hr : releaseResult = .none
      · subst hr
        exact hend true _ withdrew_restored
      · have hsucceeded : (releaseResult == .none) = false := by simpa using hr
        have hlatched : (releaseResult != .none) = true := by simpa using hr
        rw [hsucceeded, hlatched]
        exact (hend false _ withdrew_latched).pre fun _ _ hP => hP.imp fun p hp =>
          ⟨hleave _ hp.1, hp.2⟩
    | error error =>
      refine valid_bind (valid_latchEngineUnavailable fun p hp => hp.latch hleave) fun _ => ?_
      have hsucceeded : (releaseResult == .none && (Except.error error : Except AppError Unit).isOk &&
          (Except.ok () : Except AppError Unit).isOk) = false := by
        simp [Except.isOk, Except.toBool]
      rw [hsucceeded]
      exact hend false _ withdrew_latched
  · have hlatch : latchUnless t publishResult (.error error) = latchEngineUnavailable t := by
      unfold latchUnless
      split
      · next h => cases h
      · rfl
    rw [hlatch]
    refine valid_bind (valid_latchEngineUnavailable fun p hp => hp.latch fun s hs => hs) fun _ => ?_
    have hsucceeded : (releaseResult == .none && publishResult.isOk &&
        (Except.error error : Except AppError Unit).isOk) = false := by
      simp [Except.isOk, Except.toBool]
    rw [hsucceeded]
    exact hend false _ withdrew_latched

/-- A submission that fails after its claim gives the engine back, or latches
it when something in that fails. -/
theorem valid_finishSubmissionFailure {primaryError : AppError} :
    Valid (threadLogic t) (finishSubmissionFailure t request primaryError) (Holding t t (Claimed plan))
      (fun error w => error = primaryError ∧ Holding t t (Refused plan) w) := by
  refine valid_bind valid_nowMs fun now => ?_
  refine valid_bind (valid_usbReleaseAll fun _ => claimed_released) fun releaseResult => ?_
  refine valid_bind (valid_recordWithdrawing releaseResult) fun status => ?_
  refine valid_pure_and fun hstate => ?_
  refine valid_bind valid_engineUnavailable fun unavailable => ?_
  refine valid_bind_result (valid_publishStatus (by rw [hstate]; exact quiet_published)
    (fun p hp => by rw [hp.1]; rfl) (fun p _ h => by rw [hstate] at h; cases h))
    (fun _ => valid_withdraw) (fun error _ => ?_)
  exact valid_withdraw.pre fun _ _ hP => hP.imp fun p hp => hp.elim id id

/-- What a submission leaves of the plan handed over: taken, or intact. -/
def Submitted (t : Ticket) (plan : MacroPlan) (result : AppError × MacroExecutionRequest)
    (w : World) : Prop :=
  (result.1 = .none → result.2.plan = ⟨none, 0⟩ ∧ Accepted t w) ∧
    (result.1 ≠ .none → result.2.plan = plan ∧ Holding t t (Refused plan) w)

theorem submitted_refused (request : MacroExecutionRequest) {error : AppError} {w : World} (he : error ≠ .none)
    (h : Holding t t (Refused request.plan) w) : Submitted t request.plan (error, request) w :=
  ⟨fun hn => absurd hn he, fun _ => ⟨rfl, h⟩⟩

theorem Unclaimed.refused {p : Progress} (h : Unclaimed plan p) : Refused plan p := by
  rw [h]
  exact ⟨⟨rfl, Or.inl rfl⟩, rfl⟩

theorem valid_failSubmission (request : MacroExecutionRequest) :
    Valid (threadLogic t)
      ((finishSubmissionFailure t request .internal).bind fun error =>
        (.ret (error, request) : Thread (AppError × MacroExecutionRequest)))
      (Holding t t (Claimed request.plan)) (Submitted t request.plan) := by
  refine valid_bind valid_finishSubmissionFailure fun error => valid_ret fun w _ hP => ?_
  obtain ⟨rfl, h⟩ := hP
  exact submitted_refused request nofun h

/-- The engine owns the plan from an accepted submission on, and no other. -/
theorem valid_macroExecutorEngineSubmit :
    Valid (threadLogic t) (macroExecutorEngineSubmit t request)
      (Holding t t (Unclaimed request.plan)) (Submitted t request.plan) := by
  have hrefused : ∀ error : AppError, error ≠ .none → Valid (threadLogic t)
      (.ret (error, request) : Thread (AppError × MacroExecutionRequest))
      (Holding t t (Unclaimed request.plan)) (Submitted t request.plan) :=
    fun error he => valid_ret fun _ _ hP => submitted_refused request he (hP.imp fun _ => Unclaimed.refused)
  refine valid_bind valid_engineUnavailable fun unavailable => ?_
  split
  · exact hrefused _ nofun
  cases hv : validateRequest request with
  | error error =>
    refine hrefused error ?_
    unfold validateRequest at hv
    split at hv
    · cases hv
      nofun
    · cases hv
  | ok _ =>
    refine valid_bind valid_nowMs fun now => ?_
    refine valid_bind (valid_ask stable_holding _) fun ready => ?_
    split
    · exact valid_ret fun _ _ hP =>
        submitted_refused { request with acceptedMs := now } nofun
          (hP.imp fun _ => Unclaimed.refused)
    refine valid_bind valid_claimEngine fun claim => ?_
    rcases claim with error | unlocked
    · exact valid_pure_and fun he => valid_ret fun _ _ hP =>
        submitted_refused { request with acceptedMs := now } he
          (hP.imp fun _ => Unclaimed.refused)
    cases unlocked with
    | false => exact valid_failSubmission { request with acceptedMs := now }
    | true =>
      have hv' : validateRequest { request with acceptedMs := now } = .ok () := hv
      refine valid_bind (valid_queueSend hv') fun sent => ?_
      cases sent with
      | false => exact valid_failSubmission { request with acceptedMs := now }
      | true => exact valid_ret fun _ _ hP => ⟨fun _ => ⟨rfl, hP⟩, fun he => absurd rfl he⟩

theorem valid_macroExecutorSubmit :
    Valid (threadLogic t) (macroExecutorSubmit t request)
      (Holding t t (Unclaimed request.plan)) (Submitted t request.plan) := by
  refine valid_bind (valid_read stable_holding _) fun shuttingDown => ?_
  split
  · exact valid_ret fun _ _ hP => submitted_refused request nofun (hP.imp fun _ => Unclaimed.refused)
  · exact valid_macroExecutorEngineSubmit

theorem step_caller {w : World} {event : Event} {r : Run} (hw : Inv w)
    (hr : runIn w.log t = some r) (ha : r.allows event)
    (hafter : ∃ answer freed, r.after event = { r with answer := answer, callerFreed := freed })
    (hplain : Plain event) :
    Inv (w.note t event) ∧ guarantee t w (w.note t event) := by
  obtain ⟨answer, freed, hafter⟩ := hafter
  refine ⟨inv_note_similar hw hr ha rfl (sameShared_note w _) rfl ?_ hplain,
    guarantee_note hr ha rfl ?_ (fun _ => rfl) rfl⟩
  · rw [hafter]
    exact ⟨rfl, Iff.rfl, Iff.rfl, rfl, rfl, rfl, id, id, rfl⟩
  · rw [hafter]
    exact ⟨Or.inl rfl, fun _ => rfl, Or.inr rfl⟩

def Answered (t : Ticket) (error : AppError) (w : World) : Prop :=
  ∃ r, runIn w.log t = some r ∧ r.answer = some error ∧ r.callerFreed = false

theorem stable_answered {error : AppError} : Stable (threadLogic t) (Answered t error) := by
  rintro w w' - - ⟨j, hj, hg⟩ ⟨r, hr, ha, hc⟩
  obtain ⟨r', hr', hrespects⟩ := hg.runs t r hr
  obtain ⟨ha', hc'⟩ := hrespects.caller.resolve_right hj
  exact ⟨r', hr', ha'.trans ha, hc'.trans hc⟩

theorem refused_submitter {p : Progress} (h : p.refused) : p.stage.holder = .submitter := by
  rcases h.2 with h | h | ⟨h | h, -⟩ <;> rw [h] <;> rfl

theorem valid_answered {error : AppError} {request' : MacroExecutionRequest} :
    Valid (threadLogic t) (noted t (.answered error request'.plan)) (Submitted t plan (error, request'))
      (fun _ w => error ≠ .none → Answered t error w) := by
  refine valid_atomic (fun _ w w' hw hw' hr h he => stable_answered w w' hw hw' hr (h he)) ?_
  rintro e w hw ⟨hok, hrefused⟩
  by_cases he : error = .none
  · obtain ⟨hplan, r, hr, hsome, ha, hc⟩ := hok he
    have hallows : r.allows (.answered error request'.plan) := ⟨ha, hc, Or.inl ⟨he, hsome, hplan⟩⟩
    obtain ⟨hinv, hguar⟩ := step_caller hw hr hallows ⟨_, _, rfl⟩ trivial
    exact ⟨hinv, hguar, fun hne => absurd he hne⟩
  · obtain ⟨hplan, r, hr, hheld, hcaller, hp, hhanded⟩ := hrefused he
    obtain ⟨ha, hc⟩ := hcaller (refused_submitter hp)
    have hallows : r.allows (.answered error request'.plan) :=
      ⟨ha, hc, Or.inr ⟨he, hp, hhanded.trans (congrArg some hplan.symm)⟩⟩
    obtain ⟨hinv, hguar⟩ := step_caller hw hr hallows ⟨_, _, rfl⟩ trivial
    exact ⟨hinv, hguar, fun _ => ⟨_, runIn_concat_self hr hallows, rfl, hc⟩⟩

theorem valid_callerFreed {P : World → Prop}
    (h : ∀ w, Inv w → P w → ∃ r, runIn w.log t = some r ∧ r.allows .callerFreed) :
    Valid (threadLogic t) (noted t .callerFreed) P (fun _ _ => True) := by
  refine valid_atomic (fun _ => stable_true) ?_
  intro e w hw hP
  obtain ⟨r, hr, ha⟩ := h w hw hP
  obtain ⟨hinv, hguar⟩ := step_caller hw hr ha ⟨_, _, rfl⟩ trivial
  exact ⟨hinv, hguar, trivial⟩

def Fresh (p : Progress) : Prop := p = freshProgress

theorem fresh_submitted : EventMoves t t (.submitted plan) Fresh (Unclaimed plan) := by
  rintro r - hφ
  have hp : r.progress = freshProgress := hφ
  exact ⟨⟨by rw [hp]; rfl, by rw [hp]; rfl⟩, { r.progress with handed := some plan }, rfl,
    ⟨rfl, rfl, rfl, rfl, id, rfl⟩, by rw [hp]; rfl⟩

theorem valid_freedUnsent :
    Valid (threadLogic t) (noted t .callerFreed) (Holding t t Fresh) (fun _ _ => True) := by
  refine valid_callerFreed fun w hw hP => ?_
  obtain ⟨r, hr, hheld, hcaller, hφ⟩ := hP
  obtain ⟨ha, hc⟩ := hcaller (by rw [hφ]; rfl)
  exact ⟨r, hr, hc, Or.inl ⟨ha, by rw [hφ]; rfl⟩⟩

theorem valid_freedAnswered {error : AppError} (he : error ≠ .none) :
    Valid (threadLogic t) (noted t .callerFreed) (Answered t error) (fun _ _ => True) := by
  refine valid_callerFreed fun w hw hP => ?_
  obtain ⟨r, hr, ha, hc⟩ := hP
  exact ⟨r, hr, hc, Or.inr ⟨error, ha, he⟩⟩

/-- A send request frees its compiled plan exactly when the engine did not take
it. -/
theorem valid_webSendCreateHandle {body : SendRequest} :
    Valid (threadLogic t) (webSendCreateHandle t body) (Holding t t Fresh) (fun _ _ => True) := by
  have hfreed : ∀ result : WebSendCreateResult, Valid (threadLogic t)
      ((noted t .callerFreed).bind fun _ => (.ret result : Thread WebSendCreateResult))
      (Holding t t Fresh) (fun _ _ => True) :=
    fun result => valid_bind valid_freedUnsent fun _ => valid_ret fun _ _ h => h
  refine valid_bind (valid_ask stable_holding _) fun callocOk => ?_
  dsimp only
  split
  · exact valid_ret fun _ _ _ => trivial
  refine valid_bind (valid_ask stable_holding _) fun policy => ?_
  split
  · exact hfreed _
  refine valid_bind (valid_ask stable_holding _) fun uuid => ?_
  split
  · exact hfreed _
  refine valid_bind (valid_noted fresh_submitted trivial) fun _ => ?_
  refine valid_bind valid_macroExecutorSubmit fun result => ?_
  refine valid_bind valid_answered fun _ => ?_
  split
  · next he =>
    exact (valid_bind (valid_freedAnswered he) fun _ => valid_ret fun _ _ h => h).pre
      fun _ _ h => h he
  · exact valid_ret fun _ _ _ => trivial

end MacroKeyboard.Executor
