import MacroKeyboard.Executor.Frames
import MacroKeyboard.Executor.SendRoutes
import MacroKeyboard.Threads.Parts

namespace MacroKeyboard.Executor

open Threads.Program Threads.Turns Threads.RelyGuarantee
open Threads.Monitor (append_singleton_eq)

def KeepsReset (w w' : World) : Prop :=
  (w.engine.busy = false → w'.engine.busy = false) ∧ (w.engine.unavailable = true → w'.engine.unavailable = true)

theorem keepsReset_refl (w : World) : KeepsReset w w := ⟨id, id⟩

theorem keepsReset_frame : EngineFrame KeepsReset where
  aside := fun h => by unfold KeepsReset; rw [h]; exact ⟨id, id⟩
  latch := fun h => by unfold KeepsReset; rw [h]; exact ⟨id, fun _ => rfl⟩
  fault := fun _ h => by unfold KeepsReset; rw [h]; exact ⟨id, id⟩
  publish := fun _ h => by unfold KeepsReset; rw [h]; exact ⟨id, id⟩
  clear := fun h => by unfold KeepsReset; rw [h]; exact ⟨fun _ => rfl, id⟩

theorem FlagsReset.kept {w w' : World} (h : FlagsReset w) (hkeeps : KeepsReset w w') : FlagsReset w' :=
  h.imp hkeeps.1 hkeeps.2

theorem executorTask_keepsReset : Always KeepsReset executorTask :=
  keepsReset_frame.executorTask fun _ _ => ⟨id, id⟩

theorem macroExecutorEngineConfirm_keepsReset : Always KeepsReset macroExecutorEngineConfirm :=
  keepsReset_frame.requestFlag fun _ _ _ => ⟨id, id⟩

theorem macroExecutorEngineCancel_keepsReset : Always KeepsReset macroExecutorEngineCancel :=
  keepsReset_frame.requestFlag fun _ _ _ => ⟨id, id⟩

/-- What a request proves against: the other tasks keep the flags reset, and its
own steps change the executor as `guar` says. -/
def requestLogic (guar : World → World → Prop) : Logic World where
  inv := fun _ => True
  halt := fun _ => False
  rely := KeepsReset
  guar := guar

section Request

variable {guar : World → World → Prop} {owed : Prop} {t : Ticket}

def Owing (owed : Prop) (w : World) : Prop := owed → FlagsReset w

def Idle (owed : Prop) (w : World) : Prop := owed → w.engine.busy = false

theorem stable_owing : Stable (requestLogic guar) (Owing owed) :=
  fun _ _ _ _ hr h howed => (h howed).kept hr

theorem stable_idle : Stable (requestLogic guar) (Idle owed) :=
  fun _ _ _ _ hr h howed => hr.1 (h howed)

theorem stable_const {P : Prop} : Stable (requestLogic guar) (fun _ => P) := fun _ _ _ _ _ h => h

theorem stable_and {P Q : World → Prop} (hP : Stable (requestLogic guar) P) (hQ : Stable (requestLogic guar) Q) :
    Stable (requestLogic guar) (fun w => P w ∧ Q w) :=
  fun w w' hw hw' hr h => ⟨hP w w' hw hw' hr h.1, hQ w w' hw hw' hr h.2⟩

theorem valid_still {α : Type} {p : Thread α} {P : World → Prop} (hP : Stable (requestLogic guar) P)
    (hguar : ∀ w, guar w w) (h : Always Eq p) : Valid (requestLogic guar) p P (fun _ => P) :=
  valid_of_always hP (fun w w' _ hPw heq => by
    subst heq
    exact ⟨trivial, hguar w, hPw⟩) h

theorem macroExecutorEngineGetStatus_still : Always Eq macroExecutorEngineGetStatus := by
  refine always_bind (always_read Eq.refl) fun fault => always_bind (always_read Eq.refl) fun unavailable =>
    always_atomic fun env w => ?_
  split_ifs <;> rfl

theorem engineUnavailable_owing (hguar : ∀ w, guar w w) : Valid (requestLogic guar) engineUnavailable (Owing owed)
    (fun unavailable w => Owing owed w ∧ (unavailable = false → Idle owed w)) := by
  refine valid_atomic (fun unavailable => stable_and stable_owing ?_) fun env w _ h => ⟨trivial, hguar w, h, ?_⟩
  · exact fun w w' hw hw' hr h hfalse => stable_idle w w' hw hw' hr (h hfalse)
  · intro hfalse howed
    refine (h howed).resolve_right fun hunavailable => ?_
    cases hunavailable.symm.trans hfalse

/-- A cancellation after a terminal report changes nothing. -/
theorem macroExecutorEngineCancel_owing (hguar : ∀ w w', (owed → w' = w) → guar w w') :
    Valid (requestLogic guar) macroExecutorEngineCancel (Owing owed) (fun _ => Owing owed) := by
  have hrefl : ∀ w, guar w w := fun w => hguar w w fun _ => rfl
  refine valid_bind (engineUnavailable_owing hrefl) fun unavailable => ?_
  cases unavailable with
  | true => exact valid_ret fun w _ h => h.1
  | false =>
    have hrecord : Valid (requestLogic guar) (recordFlag (·.engine.busy) (·.engine.cancellationRequested)
        (fun w => { w with engine := { w.engine with cancellationRequested := true } }) .cancelRecorded)
        (fun w => Owing owed w ∧ (false = false → Idle owed w))
        (fun recording w => Owing owed w ∧ ∀ ticket, recording = .recorded ticket → ¬ owed) := by
      refine valid_atomic (fun recording => stable_and stable_owing stable_const) fun env w _ h => ?_
      obtain ⟨howing, hidle⟩ := h
      by_cases hlock : env.lockOk = true
      · by_cases hbusy : w.engine.busy = true
        · have hnot : ¬ owed := fun howed => by
            rw [hidle rfl howed] at hbusy
            cases hbusy
          exact ⟨trivial, hguar _ _ fun howed => absurd howed hnot, fun howed => absurd howed hnot, fun _ _ => hnot⟩
        · simp only [hlock, hbusy, if_true, Bool.not_false]
          exact ⟨trivial, hrefl w, howing, fun ticket h => by split_ifs at h⟩
      · rw [if_neg hlock]
        exact ⟨trivial, hrefl w, howing, fun ticket h => by cases h⟩
    refine valid_bind hrecord fun recording => ?_
    cases recording with
    | refused error => exact valid_ret fun w _ h => h.1
    | recorded ticket =>
      refine valid_bind (M := fun _ => Owing owed) ?_ fun _ => valid_ret fun w _ h => h
      refine valid_atomic (fun _ => stable_owing) fun env w _ h => ?_
      have hnot := h.2 ticket rfl
      exact ⟨trivial, hguar _ _ fun howed => absurd howed hnot, fun howed => absurd howed hnot⟩

theorem webSendCancelHandle_owing (hguar : ∀ w w', (owed → w' = w) → guar w w') :
    Valid (requestLogic guar) webSendCancelHandle (Owing owed) (fun _ => Owing owed) := by
  have hrefl : ∀ w, guar w w := fun w => hguar w w fun _ => rfl
  refine valid_bind (valid_still stable_owing hrefl macroExecutorEngineGetStatus_still) fun status => ?_
  by_cases hidle : status.state = .idle
  · rw [if_pos hidle]
    exact valid_ret fun _ _ h => h
  · rw [if_neg hidle]
    exact valid_bind (macroExecutorEngineCancel_owing hguar) fun _ => valid_ret fun _ _ h => h

theorem webSendGetHandle_owing (hrefl : ∀ w, guar w w) (cached : UInt32) :
    Valid (requestLogic guar) (webSendGetHandle cached) (Owing owed) (fun _ => Owing owed) :=
  valid_bind (valid_still stable_owing hrefl macroExecutorEngineGetStatus_still) fun _ => valid_ret fun _ _ h => h

/-- The end of a submission that fails after it has claimed the engine. -/
theorem finishSubmissionFailure_resets {request : MacroExecutionRequest} {error : AppError} :
    Valid (requestLogic fun _ _ => True) (finishSubmissionFailure t request error) (fun _ => True)
      (fun result w => result = error ∧ FlagsReset w) := by
  have hfree : ∀ {α : Type} {p : Thread α}, Always KeepsReset p →
      Valid (requestLogic fun _ _ => True) p (fun _ => True) (fun _ _ => True) := fun h =>
    valid_of_always stable_const (fun _ _ _ _ _ => ⟨trivial, trivial, trivial⟩) h
  refine valid_bind (hfree keepsReset_frame.nowMs) fun now => valid_bind (hfree keepsReset_frame.usbReleaseAll)
    fun released => valid_bind (hfree keepsReset_frame.recordReleaseFailure) fun status =>
    valid_bind (hfree keepsReset_frame.engineUnavailable) fun unavailable =>
    valid_bind (hfree keepsReset_frame.publishStatus) fun shown => ?_
  have hreset : Valid (requestLogic fun _ _ => True) (resetTerminalFlags t) (fun _ => True)
      (fun cleared w => cleared = .ok () → w.engine.busy = false) := by
    refine valid_atomic (fun cleared w w' _ _ hr h hok => hr.1 (h hok)) fun env w _ _ => ⟨trivial, trivial, ?_⟩
    by_cases hlock : env.lockOk = true
    · rw [if_pos hlock]
      exact fun _ => rfl
    · rw [if_neg hlock]
      exact fun h => by cases h
  have hstable : Stable (requestLogic fun _ _ => True) FlagsReset := fun w w' _ _ hr h => h.kept hr
  refine valid_bind hreset fun cleared => valid_bind (M := fun _ => FlagsReset) ?_ fun _ =>
    valid_bind (M := fun _ => FlagsReset) (valid_of_always hstable
      (fun w w' _ h hkeeps => ⟨trivial, trivial, h.kept hkeeps⟩) keepsReset_frame.noted)
    fun _ => valid_ret fun w _ h => ⟨rfl, h⟩
  have hlatch : Valid (requestLogic fun _ _ => True) (latchEngineUnavailable t)
      (fun w => cleared = .ok () → w.engine.busy = false) (fun _ => FlagsReset) :=
    valid_atomic (fun _ => hstable) fun env w _ _ => ⟨trivial, trivial, Or.inr rfl⟩
  rcases shown with error | ⟨⟩ <;> rcases cleared with error' | ⟨⟩
  · exact hlatch
  · exact hlatch
  · exact hlatch
  · exact valid_ret fun w _ h => Or.inl (h rfl)

def SubmitAnswer (owed : Prop) (error : AppError) (w : World) : Prop :=
  owed → error ≠ .executorBusy ∧ (error = .none ∨ FlagsReset w)

theorem SubmitAnswer.kept {error : AppError} {w w' : World} (h : SubmitAnswer owed error w) (hkeeps : KeepsReset w w') :
    SubmitAnswer owed error w' :=
  fun howed => ⟨(h howed).1, (h howed).2.imp_right fun hreset => hreset.kept hkeeps⟩

theorem stable_submitAnswer {error : AppError} : Stable (requestLogic guar) (SubmitAnswer owed error) :=
  fun _ _ _ _ hr h => h.kept hr

theorem claimEngine_idle : Valid (requestLogic fun _ _ => True) (claimEngine t) (Idle owed)
    (fun claim w => ∀ error, claim = .refused error → error ≠ .none ∧ SubmitAnswer owed error w) := by
  refine valid_atomic (fun claim w w' _ _ hr h error hclaim =>
    ⟨(h error hclaim).1, (h error hclaim).2.kept hr⟩) fun env w _ hidle => ⟨trivial, trivial, ?_⟩
  by_cases hlock : env.lockOk = true
  · rw [if_pos hlock]
    by_cases hbusy : w.engine.busy = true
    · rw [if_pos hbusy]
      rintro error ⟨⟩
      refine ⟨by split_ifs <;> decide, fun howed => ?_⟩
      rw [hidle howed] at hbusy
      cases hbusy
    · rw [if_neg hbusy]
      exact fun error h => by cases h
  · rw [if_neg hlock]
    rintro error ⟨⟩
    exact ⟨by decide, fun howed => ⟨by decide, Or.inr (Or.inl (hidle howed))⟩⟩

theorem validateRequest_error {request : MacroExecutionRequest} {error : AppError}
    (h : validateRequest request = .error error) : error = .invalidArgument := by
  unfold validateRequest at h
  split_ifs at h
  cases h
  rfl

/-- A submission is not rejected as busy while the flags are reset, and leaves
them reset unless it is accepted. -/
theorem macroExecutorEngineSubmit_owing {request : MacroExecutionRequest} :
    Valid (requestLogic fun _ _ => True) (macroExecutorEngineSubmit t request) (Owing owed)
      (fun outcome => SubmitAnswer owed outcome.1) := by
  have hkept : ∀ {error : AppError} {w : World}, error ≠ .executorBusy → Owing owed w → SubmitAnswer owed error w :=
    fun hne h howed => ⟨hne, Or.inr (h howed)⟩
  refine valid_bind (engineUnavailable_owing fun _ => trivial) fun unavailable => ?_
  cases unavailable with
  | true => exact valid_ret fun w _ h => hkept (by simp) h.1
  | false =>
    refine Valid.pre (P := Idle owed) ?_ fun w _ h => h.2 rfl
    cases hvalid : validateRequest request with
    | error error =>
      rw [validateRequest_error hvalid]
      exact valid_ret fun w _ h howed => ⟨by simp, Or.inr (Or.inl (h howed))⟩
    | ok =>
      refine valid_bind (valid_still stable_idle (fun _ => trivial) (always_ask Eq.refl)) fun now =>
        valid_bind (valid_still stable_idle (fun _ => trivial) (always_ask Eq.refl)) fun ready => ?_
      have hfailed : ∀ {request : MacroExecutionRequest} {P : World → Prop},
          Valid (requestLogic fun _ _ => True) (do
            let error ← finishSubmissionFailure t request .internal
            pure (error, request)) P (fun outcome => SubmitAnswer owed outcome.1) := fun {request P} =>
        (valid_bind finishSubmissionFailure_resets fun error => valid_ret fun w _ h _ => by
          rw [h.1]
          exact ⟨by simp, Or.inr h.2⟩).pre fun _ _ _ => trivial
      split_ifs
      · exact valid_ret fun w _ h howed => ⟨by simp, Or.inr (Or.inl (h howed))⟩
      · refine valid_bind claimEngine_idle fun claim => ?_
        rcases claim with error | unlocked
        · exact valid_ret fun w _ h => (h error rfl).2
        · cases unlocked with
          | false => exact hfailed
          | true =>
            refine valid_bind (M := fun _ _ => True) (valid_atomic (fun _ => stable_const)
              fun env w _ _ => ⟨trivial, trivial, trivial⟩) fun sent => ?_
            split_ifs
            · exact valid_ret fun w _ _ _ => ⟨by simp, Or.inl rfl⟩
            · exact hfailed

theorem mapSubmitError_busy {error : AppError} (h : mapSubmitError error = .busy) : error = .executorBusy := by
  unfold mapSubmitError at h
  split at h <;> first | rfl | cases h

theorem valid_kept {α : Type} {p : Thread α} {P : World → Prop} (hP : Stable (requestLogic fun _ _ => True) P)
    (hkept : ∀ w w', P w → KeepsReset w w' → P w') (h : Always KeepsReset p) :
    Valid (requestLogic fun _ _ => True) p P (fun _ => P) :=
  valid_of_always hP (fun w w' _ hPw hkeeps => ⟨trivial, trivial, hkept w w' hPw hkeeps⟩) h

theorem webSendCreateHandle_owing (request : SendRequest) :
    Valid (requestLogic fun _ _ => True) (webSendCreateHandle t request) (Owing owed)
      (fun result w => owed → result ≠ .busy ∧ (result = .ok ∨ FlagsReset w)) := by
  have howes : ∀ {α : Type} {p : Thread α}, Always KeepsReset p →
      Valid (requestLogic fun _ _ => True) p (Owing owed) (fun _ => Owing owed) :=
    valid_kept stable_owing fun w w' h hkeeps howed => (h howed).kept hkeeps
  have hask : ∀ {α : Type} (f : Env → α), Valid (requestLogic fun _ _ => True) (Prog.ask f) (Owing owed)
      (fun _ => Owing owed) := fun f => howes (always_ask keepsReset_refl)
  have hanswer : ∀ {result : WebSendCreateResult}, result ≠ .busy →
      Valid (requestLogic fun _ _ => True) (pure result : Thread WebSendCreateResult) (Owing owed)
        (fun result w => owed → result ≠ .busy ∧ (result = .ok ∨ FlagsReset w)) := fun hne =>
    valid_ret fun w _ h howed => ⟨hne, Or.inr (h howed)⟩
  unfold webSendCreateHandle
  refine valid_bind (hask _) fun callocOk => ?_
  dsimp only
  split_ifs
  · exact hanswer (by decide)
  · refine valid_bind (hask _) fun policy => ?_
    obtain ⟨policyResult, requireConfirmation⟩ := policy
    dsimp only
    split_ifs
    · exact valid_bind (howes keepsReset_frame.noted) fun _ => hanswer (by decide)
    · refine valid_bind (hask _) fun identifier => ?_
      obtain ⟨uuidResult, sendId⟩ := identifier
      dsimp only
      split_ifs
      · exact valid_bind (howes keepsReset_frame.noted) fun _ => hanswer (by decide)
      · refine valid_bind (howes keepsReset_frame.noted) fun _ =>
          valid_bind (M := fun outcome => SubmitAnswer owed outcome.1) ?_ fun submitted => ?_
        · refine valid_bind (howes (always_read keepsReset_refl)) fun closing => ?_
          split_ifs
          · exact valid_ret fun w _ h howed => ⟨by simp, Or.inr (h howed)⟩
          · exact macroExecutorEngineSubmit_owing
        · obtain ⟨error, request⟩ := submitted
          have hnoted : ∀ {event : Event}, Valid (requestLogic fun _ _ => True) (noted t event)
              (SubmitAnswer owed error) (fun _ => SubmitAnswer owed error) :=
            valid_kept stable_submitAnswer (fun w w' h hkeeps => h.kept hkeeps)
              keepsReset_frame.noted
          refine valid_bind hnoted fun _ => ?_
          split_ifs with hne
          · refine valid_bind hnoted fun _ => valid_ret fun w _ h howed => ?_
            obtain ⟨hbusy, hreset⟩ := h howed
            exact ⟨fun hmapped => hbusy (mapSubmitError_busy hmapped), Or.inr (hreset.resolve_left hne)⟩
          · exact valid_ret fun w _ _ _ => ⟨by decide, Or.inl rfl⟩

end Request

/-- The history ends in a terminal report after which no send was accepted. -/
def Pending (served : List Served) : Prop :=
  ∃ front outcome found middle, served = front ++ .reported outcome found :: middle ∧
    ReportsTerminal outcome found ∧ ∀ t, .created t .ok ∉ middle

section History

variable {served : List Served} {entry : Served}

theorem settled_concat (hsettled : Settled served) (hentry : Pending served → ¬ entry.Disturbs) :
    Settled (served ++ [entry]) := by
  intro front outcome found middle last rest hserved hterminal hnone
  rcases append_singleton_eq.mp hserved with ⟨-, hfront, rfl⟩ | ⟨others, rfl, hbefore⟩
  · exact hentry ⟨front, outcome, found, middle, hfront.symm, hterminal, hnone⟩
  · exact hsettled front outcome found middle last others hbefore hterminal hnone

theorem pending_of_concat (h : Pending (served ++ [entry])) :
    (Pending served ∧ ∀ t, entry ≠ .created t .ok) ∨
      ∃ outcome found, entry = .reported outcome found ∧ ReportsTerminal outcome found := by
  obtain ⟨front, outcome, found, middle, hserved, hterminal, hnone⟩ := h
  rcases append_singleton_eq.mp hserved with ⟨-, -, hlast⟩ | ⟨others, rfl, hbefore⟩
  · exact Or.inr ⟨outcome, found, hlast.symm, hterminal⟩
  · refine Or.inl ⟨⟨front, outcome, found, others, hbefore, hterminal, fun t hmem => hnone t ?_⟩, fun t heq => hnone t ?_⟩
    · exact List.mem_append_left _ hmem
    · rw [heq]
      exact List.mem_append_right _ (List.mem_singleton.mpr rfl)

theorem ReportedWhenReset.front (h : ReportedWhenReset (served ++ [entry])) : ReportedWhenReset served :=
  fun outcome found hmem => h outcome found (List.mem_append_left _ hmem)

end History

def SettledWhenReset (s : SendWorld) : Prop := ReportedWhenReset s.served → Settled s.served

def Beside (s s' : SendWorld) : Prop :=
  s'.served = s.served ∧ s'.touched = s.touched ∧ KeepsReset s.executor s'.executor

theorem beside_refl (s : SendWorld) : Beside s s := ⟨rfl, rfl, keepsReset_refl _⟩

def sendLogic (thread : Nat) : Logic SendWorld where
  inv := SettledWhenReset
  halt := fun _ => False
  rely := fun s s' => thread = 1 → Beside s s'
  guar := fun s s' => thread ≠ 1 → Beside s s'

def Owed (served : List Served) : Prop := ReportedWhenReset served ∧ Pending served

def Waiting (s : SendWorld) : Prop := Owing (Owed s.served) s.executor

theorem stable_waiting : Stable (sendLogic 1) Waiting := by
  intro s s' _ _ hr h
  obtain ⟨hserved, -, hkeeps⟩ := hr rfl
  unfold Waiting
  rw [hserved]
  exact fun howed => (h howed).kept hkeeps

theorem waiting_answer {s : SendWorld} (entry : Served) (hinv : SettledWhenReset s)
    (hquiet : Owed s.served → ¬ entry.Disturbs)
    (hflags : Owed s.served → (∀ t, entry ≠ .created t .ok) → FlagsReset s.executor)
    (hfound : ∀ outcome found, entry = .reported outcome found → found = s.executor) :
    SettledWhenReset (s.answer entry) ∧ Waiting (s.answer entry) := by
  refine ⟨fun hreset => settled_concat (hinv hreset.front) fun hpending => hquiet ⟨hreset.front, hpending⟩, ?_⟩
  rintro ⟨hreset, hpending⟩
  rcases pending_of_concat hpending with ⟨hbefore, hother⟩ | ⟨outcome, found, rfl, hterminal⟩
  · exact hflags ⟨hreset.front, hbefore⟩ hother
  · have hmem : .reported outcome found ∈ s.served ++ [.reported outcome found] :=
      List.mem_append_right _ (List.mem_singleton.mpr rfl)
    have hflagsReset := hreset outcome found hmem hterminal
    rwa [hfound outcome found rfl] at hflagsReset

theorem valid_within {α : Type} (guar : Prop → World → World → Prop) {T : Prop → Bool → Prop}
    (hT : ∀ owed w w' touched, guar owed w w' → T owed touched → T owed (touched || decide (w' ≠ w)))
    {p : Thread α} {Q : Prop → α → World → Prop}
    (h : ∀ owed, Valid (requestLogic (guar owed)) p (Owing owed) (Q owed)) :
    Valid (sendLogic 1) (within p) (fun s => T (Owed s.served) s.touched ∧ Waiting s)
      (fun a s => T (Owed s.served) s.touched ∧ Q (Owed s.served) a s.executor) := by
  have hfixed : ∀ served₀, Valid (sendLogic 1) (within p)
      (fun s => (s.served = served₀ ∧ T (Owed served₀) s.touched) ∧ Owing (Owed served₀) s.executor)
      (fun a s => (s.served = served₀ ∧ T (Owed served₀) s.touched) ∧ Q (Owed served₀) a s.executor) := by
    intro served₀
    refine valid_zoom (fun _ h => h) (fun _ _ => trivial) (fun s s' _ _ hr hF => ?_) (fun s w hinv hF hguar => ?_)
      (h (Owed served₀))
    · obtain ⟨hserved, htouched, hkeeps⟩ := hr rfl
      exact ⟨⟨hserved.trans hF.1, htouched ▸ hF.2⟩, hkeeps⟩
    · exact ⟨rfl, hinv, fun hne => absurd rfl hne, hF.1, hT _ _ _ _ hguar hF.2⟩
  refine (valid_exists fun served₀ => (hfixed served₀).post fun a s _ hs => ?_).pre fun s _ hs =>
    ⟨s.served, ⟨rfl, hs.1⟩, hs.2⟩
  rw [hs.1.1]
  exact ⟨hs.1.2, hs.2⟩

theorem stable_quiet {Q : Prop → Bool → World → Prop}
    (hQ : ∀ owed touched w w', KeepsReset w w' → Q owed touched w → Q owed touched w') :
    Stable (sendLogic 1) (fun s => Q (Owed s.served) s.touched s.executor) := by
  intro s s' _ _ hr h
  obtain ⟨hserved, htouched, hkeeps⟩ := hr rfl
  rw [hserved, htouched]
  exact hQ _ _ _ _ hkeeps h

/-- A step of the server that only changes what it keeps besides the executor
and its history. -/
theorem serve_aside {α : Type} {f : Env → SendWorld → α × SendWorld}
    (h : ∀ e s, (f e s).2.served = s.served ∧ (f e s).2.executor = s.executor) {T : Bool → Prop}
    (hT : ∀ e s, T (f e s).2.touched) :
    Valid (sendLogic 1) (Prog.atomic f) Waiting (fun _ s => T s.touched ∧ Waiting s) := by
  refine valid_atomic (fun _ => ?_) fun e s hinv hs => ⟨?_, fun hne => absurd rfl hne, hT e s, ?_⟩
  · exact stable_quiet (Q := fun owed touched w => T touched ∧ Owing owed w) fun _ _ _ _ hkeeps h =>
      ⟨h.1, fun howed => (h.2 howed).kept hkeeps⟩
  · show ReportedWhenReset _ → Settled _
    rw [(h e s).1]
    exact hinv
  · unfold Waiting
    rw [(h e s).1, (h e s).2]
    exact hs

theorem serve_waiting (t : Ticket) (call : SendCall) :
    Valid (sendLogic 1) (call.serve t) Waiting (fun _ => Waiting) := by
  have hanswered : ∀ _ : Unit, Stable (sendLogic 1) Waiting := fun _ => stable_waiting
  cases call with
  | create request =>
    refine valid_bind ((valid_within (fun _ _ _ => True) (T := fun _ _ => True) (fun _ _ _ _ _ _ => trivial)
      fun owed => webSendCreateHandle_owing request).pre fun s _ h => ⟨trivial, h⟩) fun result => ?_
    refine valid_atomic hanswered fun e s hinv hs => ?_
    obtain ⟨-, hresult⟩ := hs
    have hnext : SettledWhenReset (s.answer (.created t result)) ∧ Waiting (s.answer (.created t result)) := by
      refine waiting_answer _ hinv (fun howed => (hresult howed).1) (fun howed hother => ?_) fun _ _ h => by cases h
      exact (hresult howed).2.resolve_left fun hok => hother t (by rw [hok])
    dsimp only
    split_ifs <;> exact ⟨hnext.1, fun hne => absurd rfl hne, hnext.2⟩
  | get =>
    refine valid_bind (serve_aside (T := fun _ => True) (fun _ _ => ⟨rfl, rfl⟩) fun _ _ => trivial) fun cached =>
      valid_bind (valid_within (fun _ _ _ => True) (T := fun _ _ => True) (fun _ _ _ _ _ _ => trivial)
        fun owed => webSendGetHandle_owing (fun _ => trivial) cached) fun outcome => ?_
    refine valid_atomic hanswered fun e s hinv hs => ?_
    obtain ⟨hsettled, hwaiting⟩ := waiting_answer (.reported outcome s.executor) hinv (fun _ => id)
      (fun howed _ => hs.2 howed) fun _ _ h => by cases h; rfl
    exact ⟨hsettled, fun hne => absurd rfl hne, hwaiting⟩
  | cancel =>
    refine valid_bind (serve_aside (T := fun touched => touched = false) (fun _ _ => ⟨rfl, rfl⟩) fun _ _ => rfl) fun _ =>
      valid_bind ((valid_within (fun owed w w' => owed → w' = w) (T := fun owed touched => owed → touched = false)
        (fun owed w w' touched hguar hT howed => by rw [hT howed, hguar howed]; simp)
        fun owed => webSendCancelHandle_owing fun _ _ h => h).pre fun s _ h => ⟨fun _ => h.1, h.2⟩) fun result => ?_
    refine valid_atomic hanswered fun e s hinv hs => ?_
    obtain ⟨hsettled, hwaiting⟩ := waiting_answer (.cancelled result s.touched) hinv
      (fun howed htouched => by rw [hs.1 howed] at htouched; cases htouched) (fun howed _ => hs.2 howed)
      fun _ _ h => by cases h
    exact ⟨hsettled, fun hne => absurd rfl hne, hwaiting⟩

theorem serverTask_waiting (t : Ticket) (calls : List SendCall) :
    Valid (sendLogic 1) (serverTask t calls) Waiting (fun _ => Waiting) := by
  induction calls generalizing t with
  | nil => exact valid_ret fun _ _ h => h
  | cons call rest ih => exact valid_bind (serve_waiting t call) fun _ => ih (t + 1)

theorem beside_always {α : Type} {p : Thread α} (h : Always KeepsReset p) : Always Beside (beside p) := by
  unfold beside
  refine always_zoom beside_refl ?_ h
  exact fun _ _ hkeeps => ⟨rfl, rfl, hkeeps⟩

theorem valid_beside {i : Nat} {p : Thread Unit} (h : Always KeepsReset p) :
    Valid (sendLogic i) (beside p) (fun _ => True) (fun _ _ => True) := by
  refine valid_of_always (fun _ _ _ _ _ h => h) (fun s s' hinv _ hbeside => ⟨?_, fun _ => hbeside, trivial⟩)
    (beside_always h)
  show ReportedWhenReset _ → Settled _
  rw [hbeside.1]
  exact hinv

def sendPre (thread : Nat) (s : SendWorld) : Prop := thread = 1 → Waiting s

theorem sendLogic_compatible : Compatible sendLogic SettledWhenReset (fun _ => False) sendPre where
  inv_eq := fun _ => rfl
  halt_eq := fun _ => rfl
  mutual_rely := fun i j _ _ hij hguar hj => hguar fun hi => hij (hi.trans hj.symm)
  pre_stable := fun i s s' hs hs' hr h hi => by
    subst hi
    exact stable_waiting s s' hs hs' hr (h rfl)

theorem maySend_valid {i : Nat} {p : SendThread Unit} (h : MaySend i p) :
    Valid (sendLogic i) p (sendPre i) (fun _ _ => True) := by
  cases h with
  | worker => exact (valid_beside executorTask_keepsReset).pre fun _ _ _ => trivial
  | server calls => exact ((serverTask_waiting 2 calls).post fun _ _ _ _ => trivial).pre fun _ _ h => h rfl
  | confirm n =>
    exact (valid_beside (always_bind macroExecutorEngineConfirm_keepsReset fun _ => always_pure)).pre fun _ _ _ => trivial
  | cancel n =>
    exact (valid_beside (always_bind macroExecutorEngineCancel_keepsReset fun _ => always_pure)).pre fun _ _ _ => trivial

/-- When a terminal state is only reported after the worker has reset the flags,
the executor is ready for the next send, and a late cancellation changes
nothing. -/
theorem terminal_is_ready {c : Config SendWorld Env} (h : SendReachable c)
    (hreset : ReportedWhenReset c.state.served) : Settled c.state.served := by
  have hinitial : SettledWhenReset initialSend := fun _ front outcome found middle entry rest hserved _ _ => by
    have hlength := congrArg List.length hserved
    simp [initialSend] at hlength
  have hwaiting : ∀ i, sendPre i initialSend := fun i _ howed => Or.inl rfl
  exact ((invariant_reachable sendLogic_compatible (fun _ h => h.elim) (fun _ _ hp => maySend_valid hp)
    hinitial hwaiting h).resolve_left id).inv_holds hreset

/-- The worker, the server with these requests, and nobody at the console, after
a schedule. -/
def sendRun (calls : List SendCall) (schedule : List (Nat × Env)) : Config SendWorld Env :=
  Config.runSchedule sendSystem.stopped ⟨initialSend, [beside executorTask, serverTask 2 calls]⟩ schedule

theorem sendRun_reachable (calls : List SendCall) (schedule : List (Nat × Env)) :
    SendReachable (sendRun calls schedule) := by
  have hempty : SendReachable ⟨initialSend, []⟩ := .init
  have hstarted : SendReachable ⟨initialSend, [] ++ [beside executorTask, serverTask 2 calls]⟩ := by
    refine reachable_start hempty rfl fun i p hp => ?_
    rcases i with _ | _ | i
    · cases hp
      exact .worker
    · cases hp
      exact .server calls
    · cases hp
  exact reachable_runSchedule hstarted schedule

theorem reportsTerminal_iff {view : WebSendStatusView} {found : World} :
    ReportsTerminal (.ok view) found ↔ view.state ∈ terminalTexts ∧
      (latestAccepted found.log).map (·.executionId) = some view.id := by
  constructor
  · rintro ⟨view', request, hview, hstate, hlatest, hid⟩
    cases hview
    exact ⟨hstate, by rw [hlatest, hid]; rfl⟩
  · rintro ⟨hstate, hid⟩
    obtain ⟨request, hlatest, hid⟩ := Option.map_eq_some_iff.mp hid
    exact ⟨view, request, rfl, hstate, hlatest, hid.symm⟩

theorem reportedWhenReset_of_all {served : List Served}
    (h : served.all (fun entry =>
      match entry with
      | .reported _ found => !found.engine.busy
      | _ => true) = true) : ReportedWhenReset served := by
  intro outcome found hmem _
  have hreport := List.all_eq_true.mp h _ hmem
  exact Or.inl (by simpa using hreport)

def letterA : SendRequest := ⟨bytes "a", 8, 15⟩

/-- A send whose end is reported, a late cancellation of it and the next send. -/
def patientRun : Config SendWorld Env :=
  sendRun [.create letterA, .get, .cancel, .create letterA]
    (turns 1 14 fineEnv ++ turns 0 32 fineEnv ++ turns 1 40 fineEnv)

theorem terminal_is_ready_patient : patientRun.state.served.length = 4 ∧ Settled patientRun.state.served :=
  ⟨by decide +kernel, terminal_is_ready (sendRun_reachable _ _) (reportedWhenReset_of_all (by decide +kernel))⟩

def hastyRun : Config SendWorld Env :=
  sendRun [.create letterA, .get, .create letterA] (turns 1 14 fineEnv ++ turns 0 28 fineEnv ++ turns 1 20 fineEnv)

def hastyWorld : World := (sendRun [.create letterA] (turns 1 14 fineEnv ++ turns 0 28 fineEnv)).state.executor

def letterOver : WebSendStatusView where
  id := fineEnv.uuid
  state := "completed"
  actionIndex := 0
  actionCount := 1
  estimatedDurationMs := 23
  cancellationRequested := false
  error := ""
  releaseError := ""

/-- After the report that the send is completed the next one is rejected as
busy. -/
theorem busy_after_report : ¬ ∀ c, SendReachable c → Settled c.state.served := by
  intro hall
  have hserved : hastyRun.state.served = [.created 2 .ok, .reported (.ok letterOver) hastyWorld, .created 4 .busy] := by
    decide +kernel
  have hterminal : ReportsTerminal (.ok letterOver) hastyWorld :=
    reportsTerminal_iff.mpr ⟨by decide +kernel, by decide +kernel⟩
  exact hall hastyRun (sendRun_reachable _ _) [.created 2 .ok] (.ok letterOver) hastyWorld [] (.created 4 .busy) []
    hserved hterminal (fun t hmem => by cases hmem) rfl

end MacroKeyboard.Executor
