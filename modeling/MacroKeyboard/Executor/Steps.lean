import MacroKeyboard.Executor.Invariant

namespace MacroKeyboard.Executor

open Threads.Program Threads.Monitor Threads.RelyGuarantee

/-- `thread` alone may move submission `t` on. -/
def heldBy (thread : Nat) (t : Ticket) (stage : Stage) : Prop :=
  match stage.holder with
  | .submitter => thread = t
  | .worker => thread = 0
  | _ => False

/-- The assertion of the thread that holds submission `t`: what `φ` says of its
progress, and that a submitter has not answered yet. -/
def Holding (thread : Nat) (t : Ticket) (φ : Progress → Prop) (w : World) : Prop :=
  ∃ r, runIn w.log t = some r ∧ heldBy thread t r.progress.stage ∧
    (r.progress.stage.holder = .submitter → r.answer = none ∧ r.callerFreed = false) ∧ φ r.progress

variable {i : Nat} {t : Ticket} {φ φ' : Progress → Prop} {α : Type}

theorem heldBy_mayMove {stage : Stage} (h : heldBy i t stage) : mayMove i t stage := by
  unfold heldBy at h
  unfold mayMove
  split at h <;> simp_all

theorem heldBy_unique {stage : Stage} (h : heldBy i t stage) {j : Nat} (hj : mayMove j t stage) :
    j = i := by
  unfold heldBy at h
  unfold mayMove at hj
  split at h <;> simp_all

theorem stable_holding : Stable (threadLogic i) (Holding i t φ) := by
  rintro w w' - - ⟨j, hj, hg⟩ ⟨r, hr, hheld, hcaller, hφ⟩
  obtain ⟨r', hr', hrespects⟩ := hg.runs t r hr
  have hp : r'.progress = r.progress :=
    hrespects.progress.resolve_right fun hm => hj (heldBy_unique hheld hm)
  refine ⟨r', hr', by rw [hp]; exact hheld, fun hs => ?_, by rw [hp]; exact hφ⟩
  rw [hp] at hs
  obtain ⟨ha, hc⟩ := hcaller hs
  rcases hrespects.caller with ⟨ha', hc'⟩ | hjt
  · rw [ha', hc']
    exact ⟨ha, hc⟩
  · refine absurd (hjt.trans ?_) hj
    unfold heldBy at hheld
    rw [hs] at hheld
    exact hheld.symm

theorem Holding.imp {w : World} (h : Holding i t φ w) (himp : ∀ p, φ p → φ' p) :
    Holding i t φ' w := by
  obtain ⟨r, hr, hheld, hcaller, hφ⟩ := h
  exact ⟨r, hr, hheld, hcaller, himp _ hφ⟩

/-- The two outcomes of a fallible call of the holder, which fails with one of
these codes. -/
def OnResult (thread : Nat) (t : Ticket) (codes : AppError → Prop) (ok : α → Progress → Prop)
    (failed : Progress → Prop) : Except AppError α → World → Prop
  | .ok a => Holding thread t (ok a)
  | .error error => fun w => codes error ∧ Holding thread t failed w

def NotNone (error : AppError) : Prop := error ≠ .none

def Internal (error : AppError) : Prop := error = .internal

theorem stable_onResult {codes : AppError → Prop} {ok : α → Progress → Prop}
    (result : Except AppError α) : Stable (threadLogic i) (OnResult i t codes ok φ result) := by
  cases result with
  | ok a => exact stable_holding
  | error error => exact fun w w' hw hw' hr h => ⟨h.1, stable_holding w w' hw hw' hr h.2⟩

theorem onResult_outcome {ok : Unit → Progress → Prop} {code : AppError} {w : World}
    (hok : Holding i t (ok ()) w) (hfailed : Holding i t φ w) :
    OnResult i t NotNone ok φ (outcome code) w := by
  unfold outcome
  split_ifs with h
  · exact hok
  · exact ⟨h, hfailed⟩

/-- A step of one submission under the same holder, with the busy flag kept or
not held at all. -/
structure Moves (p p' : Progress) : Prop where
  holder : p'.stage.holder = p.stage.holder
  holdsBusy : p'.stage.holdsBusy = p.stage.holdsBusy
  request : p'.request = p.request
  latched : p'.latched = p.latched
  awaited : p.awaited = true → p'.awaited = true
  staleClaim : p'.staleClaim = p.staleClaim

theorem Moves.refl (p : Progress) : Moves p p := ⟨rfl, rfl, rfl, rfl, id, rfl⟩

theorem Moves.caller {p p' : Progress} (h : Moves p p') {P : Prop}
    (hc : p.stage.holder = .submitter → P) : p'.stage.holder = .submitter → P :=
  fun hs => hc (h.holder.symm.trans hs)

theorem heldBy_congr {s s' : Stage} (h : s'.holder = s.holder) (hs : heldBy i t s) : heldBy i t s' := by
  unfold heldBy at *
  rwa [h]

theorem heldBy_ne_queued {s : Stage} (h : heldBy i t s) : s ≠ .queued := by
  rintro rfl
  exact h

theorem Moves.similar {r : Run} {p' : Progress} (h : Moves r.progress p')
    (hheld : heldBy i t r.progress.stage) : Similar r { r with progress := p' } where
  holdsBusy := h.holdsBusy
  worker := by simp only [h.holder]
  queued := by
    have h1 := heldBy_ne_queued hheld
    have h2 := heldBy_ne_queued (heldBy_congr h.holder hheld)
    simp only [h1, h2]
  request := h.request
  cancelled := rfl
  confirmed := rfl
  latched := fun hl => by rw [← h.latched]; exact hl
  awaited := h.awaited
  staleClaim := h.staleClaim

theorem respects_progress {r : Run} {p' : Progress} (hm : mayMove i t r.progress.stage)
    (hrequest : p'.request = r.progress.request) :
    Respects i t r { r with progress := p' } :=
  ⟨Or.inr hm, fun _ => hrequest, Or.inl ⟨rfl, rfl⟩⟩

/-- The event of a step moves the holder's progress from `φ` to `φ'`. -/
def EventMoves (i : Nat) (t : Ticket) (event : Event) (φ φ' : Progress → Prop) : Prop :=
  ∀ r : Run, heldBy i t r.progress.stage → φ r.progress → r.allows event ∧
    ∃ p', r.after event = { r with progress := p' } ∧ Moves r.progress p' ∧ φ' p'

/-- An event recorded by the holder of a submission, when nothing shared
changes with it. -/
theorem action_event (event : Env → Event) {f : Env → World → α × World} {Q : α → World → Prop}
    (hmoves : ∀ e, EventMoves i t (event e) φ φ')
    (hlog : ∀ e w, (f e w).2.log = w.log ++ [(t, event e)])
    (hsame : ∀ e w, SameShared w (f e w).2)
    (hn : ∀ e w, (f e w).2.notifications = w.notifications)
    (hplain : ∀ e, Plain (event e))
    (hQ : ∀ e w, Holding i t φ' (f e w).2 → Q (f e w).1 (f e w).2) :
    Action (threadLogic i) (Holding i t φ) f Q := by
  rintro e w hw ⟨r, hr, hheld, hcaller, hφ⟩
  obtain ⟨ha, p', hafter, hm, hφ'⟩ := hmoves e r hheld hφ
  refine ⟨?_, ?_, hQ e w ?_⟩
  · refine inv_note_similar hw hr ha (hlog e w) (hsame e w) (hn e w) ?_ (hplain e)
    rw [hafter]
    exact hm.similar hheld
  · refine guarantee_note hr ha (hlog e w) ?_ (fun _ => (hsame e w).current) (hsame e w).shutdown
    rw [hafter]
    exact respects_progress (heldBy_mayMove hheld) hm.request
  · refine ⟨r.after (event e), by rw [hlog]; exact runIn_concat_self hr ha, ?_⟩
    rw [hafter]
    exact ⟨heldBy_congr hm.holder hheld, hm.caller hcaller, hφ'⟩

theorem action_same {P : World → Prop} {f : Env → World → α × World} {Q : α → World → Prop}
    (hlog : ∀ e w, (f e w).2.log = w.log) (hsame : ∀ e w, SameShared w (f e w).2)
    (hn : ∀ e w, (f e w).2.notifications = w.notifications)
    (hQ : ∀ e w, P w → Q (f e w).1 (f e w).2) : Action (threadLogic i) P f Q :=
  fun e w hw hP => ⟨inv_same hw (hsame e w) (hlog e w) (hn e w),
    guarantee_same (hlog e w) (hsame e w).current (hsame e w).shutdown, hQ e w hP⟩

theorem SameShared.refl (w : World) : SameShared w w := ⟨rfl, rfl, rfl, rfl, rfl, rfl, rfl, rfl, rfl⟩

theorem valid_ask {P : World → Prop} (hP : Stable (threadLogic i) P) (f : Env → α) :
    Valid (threadLogic i) (.ask f : Thread α) P (fun _ => P) :=
  valid_atomic (fun _ => hP) (action_same (fun _ _ => rfl) (fun _ w => .refl w) (fun _ _ => rfl)
    fun _ _ h => h)

theorem valid_read {P : World → Prop} (hP : Stable (threadLogic i) P) (f : World → α) :
    Valid (threadLogic i) (.read f : Thread α) P (fun _ => P) :=
  valid_atomic (fun _ => hP) (action_same (fun _ _ => rfl) (fun _ w => .refl w) (fun _ _ => rfl)
    fun _ _ h => h)

theorem sameShared_note (w : World) (event : Event) : SameShared w (w.note t event) :=
  ⟨rfl, rfl, rfl, rfl, rfl, rfl, rfl, rfl, rfl⟩

theorem valid_noted {event : Event} (h : EventMoves i t event φ φ')
    (hplain : Plain event) :
    Valid (threadLogic i) (noted t event) (Holding i t φ) (fun _ => Holding i t φ') :=
  valid_atomic (fun _ => stable_holding) (action_event (fun _ => event) (fun _ => h)
    (fun _ _ => rfl) (fun _ w => sameShared_note w _) (fun _ _ => rfl) (fun _ => hplain)
    fun _ _ h => h)

theorem valid_planFree {result : AppError} (h : EventMoves i t (.freed result) φ φ') :
    Valid (threadLogic i) (planFree t result) (Holding i t φ) (fun _ => Holding i t φ') :=
  valid_noted h trivial

theorem valid_usbPress {modifiers : UInt8} {usages : List UInt8}
    (h : ∀ result, EventMoves i t (.pressed modifiers usages result) φ φ') :
    Valid (threadLogic i) (usbPress t modifiers usages) (Holding i t φ)
      (OnResult i t NotNone (fun _ => φ') φ') :=
  valid_atomic stable_onResult (action_event
    (fun e => .pressed modifiers usages e.result) (fun e => h e.result) (fun _ _ => rfl)
    (fun _ w => sameShared_note w _) (fun _ _ => rfl) (fun _ => trivial)
    fun _ _ h => onResult_outcome h h)

theorem valid_usbReleaseAll (h : ∀ result, EventMoves i t (.released result) φ φ') :
    Valid (threadLogic i) (usbReleaseAll t) (Holding i t φ) (fun _ => Holding i t φ') :=
  valid_atomic (fun _ => stable_holding) (action_event (fun e => .released e.result)
    (fun e => h e.result) (fun _ _ => rfl) (fun _ w => sameShared_note w _) (fun _ _ => rfl)
    (fun _ => trivial) fun _ _ h => h)

/-- The general step of one submission: an event together with a change of the
shared state that its new run fits. -/
theorem step_of_note {w w' : World} (event : Event) {r : Run} {Q : Prop} (hw : Inv w)
    (hr : runIn w.log t = some r) (ha : r.allows event) (hlog : w'.log = w.log ++ [(t, event)])
    (hrespects : Respects i t r (r.after event))
    (hself : Fits w t r → Fits w' t (r.after event))
    (hothers : ∀ u s, u ≠ t → Fits w u s → Fits w' u s)
    (hbusy : w'.engine.busy = w'.owner.isSome)
    (hpending : CleanLog w.log → Clean t event → ∀ u, w'.current = some u →
      ∀ n ∈ w'.notifications, n = u)
    (hwoken : CleanLog w.log → ∀ milliseconds wokenBy result,
      event = .waited milliseconds wokenBy result → ∀ n ∈ wokenBy, n = t)
    (hcurrent : i ≠ 0 → w'.current = w.current) (hshutdown : w'.shutdown = w.shutdown)
    (horderly : Orderly w')
    (hQ : runIn w'.log t = some (r.after event) → Q) : Inv w' ∧ guarantee i w w' ∧ Q :=
  ⟨inv_note hw hr ha hlog (hself (hw.fits_of_run hr)) hothers hbusy hpending hwoken horderly,
    guarantee_note hr ha hlog hrespects hcurrent hshutdown,
    hQ (by rw [hlog]; exact runIn_concat_self hr ha)⟩

theorem Inv.current_eq {w : World} (hw : Inv w) {r : Run} (hr : runIn w.log t = some r)
    (hheld : r.progress.stage.holder = .worker) : w.current = some t :=
  (hw.fits_of_run hr).current.mp hheld

theorem Inv.owner_eq {w : World} (hw : Inv w) {r : Run} (hr : runIn w.log t = some r)
    (hbusy : r.progress.stage.holdsBusy = true) : w.owner = some t :=
  (hw.fits_of_run hr).owner.mp hbusy

/-- A wait takes every pending notification; in a clean run they are all for
the execution that waits. -/
theorem valid_waitMs {milliseconds : UInt32}
    (hstage : ∀ p, φ p → p.stage.holder = .worker ∧ (p.stage.mayFree = true ∨ p.stage = .holding)) :
    Valid (threadLogic i) (waitMs t milliseconds) (Holding i t φ) (OnResult i t NotNone (fun _ => φ) φ) := by
  refine valid_atomic stable_onResult ?_
  rintro e w hw ⟨r, hr, hheld, hcaller, hφ⟩
  obtain ⟨hworker, hstage⟩ := hstage _ hφ
  have hcurrent := hw.current_eq hr hworker
  have hsame : SameShared w ({ w with notifications := [] }.note t
      (.waited milliseconds w.notifications e.result)) := ⟨rfl, rfl, rfl, rfl, rfl, rfl, rfl, rfl, rfl⟩
  exact step_of_note (.waited milliseconds w.notifications e.result) hw hr hstage
    rfl (Respects.refl i t r) hsame.fits (fun _ _ _ => hsame.fits) hw.busy
    (fun _ _ _ _ n hn => absurd hn List.not_mem_nil)
    (fun hc _ _ _ he => by cases he; exact hw.pending hc t hcurrent) (fun _ => rfl) rfl
    (hsame.orderly hw.orderly rfl nofun)
    (fun hr' => onResult_outcome ⟨r, hr', hheld, hcaller, hφ⟩ ⟨r, hr', hheld, hcaller, hφ⟩)

theorem moves_afterRead (p : Progress) (cancelled : Bool) :
    Moves p { p with stage := p.stage.afterRead cancelled } := by
  refine ⟨?_, ?_, rfl, rfl, id, rfl⟩ <;>
    cases p.stage <;> cases cancelled <;> rfl

theorem readsCancellation_worker {s : Stage} (h : s.readsCancellation = true) :
    s.holder = .worker ∧ s.holdsBusy = true := by
  cases s <;> simp_all [Stage.readsCancellation, Stage.holder, Stage.holdsBusy]

theorem valid_readCancellation {ψ : Bool → Progress → Prop}
    (h : ∀ p, φ p → p.stage.readsCancellation = true ∧
      ∀ cancelled, ψ cancelled { p with stage := p.stage.afterRead cancelled }) :
    Valid (threadLogic i) (readCancellation t) (Holding i t φ) (OnResult i t Internal ψ φ) := by
  refine valid_atomic stable_onResult ?_
  rintro e w hw ⟨r, hr, hheld, hcaller, hφ⟩
  obtain ⟨hreads, hψ⟩ := h _ hφ
  obtain ⟨hworker, hbusy⟩ := readsCancellation_worker hreads
  have hflag := ((hw.fits_of_run hr).flags (hw.owner_eq hr hbusy)).1
  have hm := moves_afterRead r.progress w.engine.cancellationRequested
  dsimp only
  split_ifs with hlock
  · have ha : r.allows (.cancelRead w.engine.cancellationRequested) := ⟨hreads, hflag⟩
    exact ⟨inv_note_similar hw hr ha rfl (sameShared_note w _) rfl (hm.similar hheld) trivial,
      guarantee_note hr ha rfl (respects_progress (heldBy_mayMove hheld) hm.request) (fun _ => rfl) rfl,
      _, runIn_concat_self hr ha, heldBy_congr hm.holder hheld, hm.caller hcaller, hψ _⟩
  · exact ⟨hw, guarantee_same rfl rfl rfl, rfl, r, hr, hheld, hcaller, hφ⟩

/-- A read of the confirmation flag: a set flag ends the wait for it. -/
theorem valid_readConfirmation
    (h : ∀ p, φ p → p.stage = .awaiting ∧ φ' { p with stage := .confirmed }) :
    Valid (threadLogic i) (readConfirmation t) (Holding i t φ)
      (OnResult i t Internal (fun confirmed => if confirmed then φ' else φ) φ) := by
  refine valid_atomic stable_onResult ?_
  rintro e w hw ⟨r, hr, hheld, hcaller, hφ⟩
  obtain ⟨hstage, hφ'⟩ := h _ hφ
  have hbusy : r.progress.stage.holdsBusy = true := by rw [hstage]; rfl
  have hflag := ((hw.fits_of_run hr).flags (hw.owner_eq hr hbusy)).2
  dsimp only
  split_ifs with hlock
  · have ha : r.allows (.confirmRead w.engine.confirmedRequested) := ⟨hstage, hflag⟩
    cases hval : w.engine.confirmedRequested with
    | true =>
      rw [hval] at ha
      have hm : Moves r.progress { r.progress with stage := .confirmed } := by
        constructor <;> simp [hstage, Stage.holder, Stage.holdsBusy]
      exact ⟨inv_note_similar hw hr ha rfl (sameShared_note w _) rfl (hm.similar hheld) trivial,
        guarantee_note hr ha rfl (respects_progress (heldBy_mayMove hheld) rfl) (fun _ => rfl) rfl,
        r.at .confirmed, runIn_concat_self hr ha, heldBy_congr hm.holder hheld, hm.caller hcaller, hφ'⟩
    | false =>
      rw [hval] at ha
      exact ⟨inv_note_similar hw hr ha rfl (sameShared_note w _) rfl
          ((Moves.refl r.progress).similar hheld) trivial,
        guarantee_note hr ha rfl (Respects.refl i t r) (fun _ => rfl) rfl,
        r, runIn_concat_self hr ha, hheld, hcaller, hφ⟩
  · exact ⟨hw, guarantee_same rfl rfl rfl, rfl, r, hr, hheld, hcaller, hφ⟩

theorem owner_unique {w : World} (hw : Inv w) {r : Run} (hr : runIn w.log t = some r)
    (hbusy : r.progress.stage.holdsBusy = true) {u : Ticket} (hu : u ≠ t) : w.owner ≠ some u := by
  rw [hw.owner_eq hr hbusy]
  exact fun h => hu (Option.some.inj h).symm

theorem valid_locked {body : World → Unit × World}
    (h : Action (threadLogic i) (Holding i t φ) (fun _ : Env => body) (fun _ => Holding i t φ')) :
    Valid (threadLogic i) (locked body) (Holding i t φ)
      (OnResult i t Internal (fun _ => φ') (fun p => φ p ∨ φ' p)) := by
  refine valid_atomic stable_onResult ?_
  intro e w hw hP
  by_cases hlock : e.lockOk = true
  · obtain ⟨hinv, hguar, hQ⟩ := h e w hw hP
    simp only [hlock, if_true]
    refine ⟨hinv, hguar, ?_⟩
    by_cases hunlock : e.unlockOk = true
    · simp only [hunlock, if_true]
      exact hQ
    · simp only [hunlock, Bool.false_eq_true, if_false]
      exact ⟨rfl, hQ.imp fun _ => Or.inr⟩
  · simp only [hlock, Bool.false_eq_true, if_false]
    exact ⟨hw, guarantee_same rfl rfl rfl, rfl, hP.imp fun _ => Or.inl⟩

/-- Only the submission that holds the engine publishes, and it publishes an
awaiting state only when it awaits. -/
theorem valid_publishStatus {status : MacroExecutionStatus}
    (hmoves : EventMoves i t (.published status.state) φ φ')
    (hbusy : ∀ p, φ p → p.stage.holdsBusy = true)
    (hawaiting : ∀ p, φ' p → status.state = .awaitingConfirmation → p.awaited = true) :
    Valid (threadLogic i) (publishStatus t status) (Holding i t φ)
      (OnResult i t Internal (fun _ => φ') (fun p => φ p ∨ φ' p)) := by
  refine valid_locked ?_
  rintro e w hw ⟨r, hr, hheld, hcaller, hφ⟩
  obtain ⟨ha, p', hafter, hm, hφ'⟩ := hmoves r hheld hφ
  refine step_of_note (.published status.state) hw hr ha rfl ?_ (fun hf => ?_) (fun u s hu hf => ?_)
    hw.busy (fun hc _ => hw.pending hc) (fun _ _ _ _ he => nomatch he) (fun _ => rfl) rfl
    (hw.orderly.step rfl rfl hw.orderly.exited (List.Subset.refl _) nofun Or.inl) (fun hr' => ?_)
  · rw [hafter]
    exact respects_progress (heldBy_mayMove hheld) hm.request
  · have hf' : Fits w t (r.after (.published status.state)) := by
      rw [hafter]
      exact (hm.similar hheld).fits hf
    refine ⟨hf'.owner, hf'.current, hf'.queued, hf'.request, hf'.flags, hf'.latched, ?_⟩
    intro _ hs
    rw [hafter]
    exact Or.inl (hawaiting _ hφ' hs)
  · exact ⟨hf.owner, hf.current, hf.queued, hf.request, hf.flags, hf.latched,
      fun ho _ => absurd ho (owner_unique hw hr (hbusy _ hφ) hu)⟩
  · refine ⟨r.after (.published status.state), hr', ?_⟩
    rw [hafter]
    exact ⟨heldBy_congr hm.holder hheld, hm.caller hcaller, hφ'⟩

/-- The holder of the engine gives the busy flag back, and the next stage does
not hold it. -/
theorem valid_resetTerminalFlags
    (h : ∀ p, φ p → (p.stage = .quiet ∧ φ' { p with stage := .withdrawn }) ∨
      (p.stage = .silent ∧ φ' { p with stage := .cleared })) :
    Valid (threadLogic i) (resetTerminalFlags t) (Holding i t φ)
      (OnResult i t Internal (fun _ => φ') (fun p => φ p ∨ φ' p)) := by
  refine valid_locked ?_
  rintro e w hw ⟨r, hr, hheld, hcaller, hφ⟩
  have hstages : ∃ stage : Stage, r.after .cleared = r.at stage ∧ r.allows .cleared ∧
      r.progress.stage.holdsBusy = true ∧ stage.holdsBusy = false ∧
      stage.holder = r.progress.stage.holder ∧ r.progress.stage ≠ .queued ∧ stage ≠ .queued ∧
      φ' { r.progress with stage := stage } := by
    rcases h _ hφ with ⟨hs, hφ'⟩ | ⟨hs, hφ'⟩
    · exact ⟨.withdrawn, by simp [Run.after, Run.at, Stage.next, Stage.afterCleared, Progress.record, hs], Or.inl hs,
        by simp [hs, Stage.holdsBusy], rfl,
        by simp [hs, Stage.holder], by simp [hs], by simp, hφ'⟩
    · exact ⟨.cleared, by simp [Run.after, Run.at, Stage.next, Stage.afterCleared, Progress.record, hs], Or.inr hs,
        by simp [hs, Stage.holdsBusy], rfl,
        by simp [hs, Stage.holder], by simp [hs], by simp, hφ'⟩
  obtain ⟨stage, hafter, ha, hbusy, hfree, hholder, hq, hq', hφ'⟩ := hstages
  refine step_of_note .cleared hw hr ha rfl ?_ (fun hf => ?_) (fun u s hu hf => ?_)
    rfl (fun hc _ => hw.pending hc) (fun _ _ _ _ he => nomatch he) (fun _ => rfl) rfl
    (hw.orderly.step rfl rfl hw.orderly.exited (List.Subset.refl _) nofun Or.inl) (fun hr' => ?_)
  · rw [hafter]
    exact respects_progress (heldBy_mayMove hheld) rfl
  · rw [hafter]
    refine ⟨?_, ?_, ?_, hf.request, nofun, hf.latched, nofun⟩
    · exact ⟨fun hb => absurd hb (by simp [Run.at, hfree]), nofun⟩
    · simpa [Run.at, hholder] using hf.current
    · simpa [Run.at, hq, hq'] using hf.queued
  · refine ⟨?_, hf.current, hf.queued, hf.request, nofun, hf.latched, nofun⟩
    exact ⟨fun hb => absurd (hf.owner.mp hb) (owner_unique hw hr hbusy hu), nofun⟩
  · refine ⟨r.after .cleared, hr', ?_⟩
    rw [hafter]
    exact ⟨heldBy_congr hholder hheld, fun h => hcaller (hholder.symm.trans h), hφ'⟩

/-- The stages in which a failed release or a failed cleanup latches the engine. -/
def Stage.mayLatch : Stage → Bool
  | .quiet | .withdrawn | .lifted | .silent | .cleared => true
  | _ => false

theorem allows_latched {r : Run} (h : r.progress.stage.mayLatch = true) : r.allows .latched := by
  unfold Run.allows
  cases hs : r.progress.stage <;> simp_all [Stage.mayLatch]

theorem valid_latchEngineUnavailable
    (h : ∀ p, φ p → p.stage.mayLatch = true ∧ φ' { p with latched := true }) :
    Valid (threadLogic i) (latchEngineUnavailable t) (Holding i t φ) (fun _ => Holding i t φ') := by
  refine valid_atomic (fun _ => stable_holding) ?_
  rintro e w hw ⟨r, hr, hheld, hcaller, hφ⟩
  obtain ⟨hmay, hφ'⟩ := h _ hφ
  have ha := allows_latched hmay
  have hfits : ∀ u s s', s'.progress = { s.progress with latched := s'.progress.latched } →
      s'.cancelled = s.cancelled → s'.confirmed = s.confirmed → Fits w u s →
      Fits ({ w with engine := { w.engine with unavailable := true } }.note t .latched) u s' := by
    intro u s s' hp hc hk hf
    refine ⟨?_, ?_, ?_, ?_, ?_, fun _ => rfl, ?_⟩
    · rw [hp]; exact hf.owner
    · rw [hp]; exact hf.current
    · rw [hp]; exact hf.queued
    · rw [hp]; exact hf.request
    · rw [hc, hk]; exact hf.flags
    · rw [hp]; exact hf.awaiting
  exact step_of_note .latched hw hr ha rfl (respects_progress (heldBy_mayMove hheld) rfl)
    (hfits t r (r.after .latched) rfl rfl rfl) (fun u s _ => hfits u s s rfl rfl rfl) hw.busy
    (fun hc _ => hw.pending hc) (fun _ _ _ _ he => nomatch he)
    (fun _ => rfl) rfl
    (hw.orderly.step rfl rfl hw.orderly.exited (List.Subset.refl _) nofun fun _ => Or.inr rfl)
    (fun hr' => ⟨r.after .latched, hr', hheld, hcaller, hφ'⟩)

/-- Recording a release failure latches the engine, and changes no state of the
status it returns. -/
theorem valid_recordReleaseFailure_state {status : MacroExecutionStatus} {releaseError : AppError}
    (hnone : releaseError = .none → ∀ p, φ p → φ' p)
    (h : releaseError ≠ .none → ∀ p, φ p → p.stage.mayLatch = true ∧ φ' { p with latched := true }) :
    Valid (threadLogic i) (recordReleaseFailure t status releaseError) (Holding i t φ)
      (fun status' w => status'.state = status.state ∧ Holding i t φ' w) := by
  unfold recordReleaseFailure
  by_cases herror : releaseError = .none
  · rw [if_pos herror]
    exact valid_ret fun _ _ hP => ⟨rfl, hP.imp (hnone herror)⟩
  · rw [if_neg herror]
    have hcas : Valid (threadLogic i) (.atomic fun _ w =>
        if w.engine.releaseFaultError = .none then
          ((), { w with engine := { w.engine with releaseFaultError := releaseError } })
        else ((), w) : Thread Unit) (Holding i t φ) (fun _ => Holding i t φ) := by
      refine valid_atomic (fun _ => stable_holding) (action_same (fun _ w => ?_) (fun _ w => ?_)
        (fun _ w => ?_) (fun _ w hP => ?_))
      all_goals dsimp only
      all_goals split_ifs
      all_goals first
        | rfl
        | exact ⟨rfl, rfl, rfl, rfl, rfl, rfl, rfl, rfl, rfl⟩
        | exact hP
    refine valid_bind hcas fun _ => valid_bind (valid_latchEngineUnavailable (h herror)) fun _ =>
      valid_ret fun _ _ hP => ⟨?_, hP⟩
    split_ifs <;> rfl

theorem valid_recordReleaseFailure {status : MacroExecutionStatus} {releaseError : AppError}
    (h : ∀ p, φ p → p.stage.mayLatch = true ∧ φ { p with latched := true }) :
    Valid (threadLogic i) (recordReleaseFailure t status releaseError) (Holding i t φ)
      (fun _ => Holding i t φ) :=
  (valid_recordReleaseFailure_state (fun _ _ hp => hp) fun _ => h).post fun _ _ _ => And.right

end MacroKeyboard.Executor
