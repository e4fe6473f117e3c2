import MacroKeyboard.Executor.Steps

namespace MacroKeyboard.Executor

open Threads.Program Threads.Monitor Threads.RelyGuarantee

variable {t : Ticket} {φ : Progress → Prop}

def Unclaimed (plan : MacroPlan) (p : Progress) : Prop := p = { freshProgress with handed := some plan }

def Claimed (plan : MacroPlan) (p : Progress) : Prop :=
  p.stage = .claimed ∧ p.handed = some plan ∧ p.request = none ∧ p.latched = false

/-- The submission was accepted and its caller has not heard of it. -/
def Accepted (t : Ticket) (w : World) : Prop :=
  ∃ r, runIn w.log t = some r ∧ r.progress.request.isSome = true ∧ r.answer = none ∧
    r.callerFreed = false

theorem stable_accepted : Stable (threadLogic t) (Accepted t) := by
  rintro w w' - - ⟨j, hj, hg⟩ ⟨r, hr, hsome, ha, hc⟩
  obtain ⟨r', hr', hrespects⟩ := hg.runs t r hr
  obtain ⟨ha', hc'⟩ := hrespects.caller.resolve_right hj
  exact ⟨r', hr', by rw [hrespects.request hsome]; exact hsome, ha'.trans ha, hc'.trans hc⟩

theorem no_owner_of_not_busy {w : World} (hw : Inv w) (h : w.engine.busy = false) : w.owner = none := by
  have hb := hw.busy
  rw [h] at hb
  exact Option.isSome_eq_false_iff.mp hb.symm |> Option.isNone_iff_eq_none.mp

/-- The lock section of a submission claims an engine that nobody holds. -/
theorem valid_claimEngine {plan : MacroPlan} :
    Valid (threadLogic t) (claimEngine t) (Holding t t (Unclaimed plan)) (fun claim =>
      match claim with
      | .refused error => fun w => error ≠ .none ∧ Holding t t (Unclaimed plan) w
      | .claimed _ => Holding t t (Claimed plan)) := by
  refine valid_atomic (fun claim => ?_) ?_
  · cases claim with
    | refused error => exact fun w w' hw hw' hr h => ⟨h.1, stable_holding w w' hw hw' hr h.2⟩
    | claimed _ => exact stable_holding
  rintro e w hw ⟨r, hr, hheld, hcaller, hφ⟩
  dsimp only
  split_ifs with hlock hbusy hunlock
  · exact ⟨hw, guarantee_same rfl rfl rfl, nofun, r, hr, hheld, hcaller, hφ⟩
  · exact ⟨hw, guarantee_same rfl rfl rfl, nofun, r, hr, hheld, hcaller, hφ⟩
  · have hnone := no_owner_of_not_busy hw (by simpa using hbusy)
    obtain ⟨ha, hc⟩ := hcaller (by rw [hφ]; rfl)
    have hallows : r.allows (.claimed w.engine.status.state) := ⟨by rw [hφ]; rfl, by rw [hφ]; rfl, ha, hc⟩
    have hp : r.progress = { freshProgress with handed := some plan } := hφ
    refine step_of_note (.claimed w.engine.status.state) hw hr hallows rfl
      ⟨Or.inr (heldBy_mayMove hheld), fun _ => rfl, Or.inl ⟨rfl, rfl⟩⟩ (fun hf => ?_)
      (fun u s hu hf => ?_) rfl (fun hc _ => hw.pending hc) (fun _ _ _ _ he => nomatch he)
      (fun _ => rfl) rfl (hw.orderly.step rfl rfl hw.orderly.exited (List.Subset.refl _) nofun Or.inl)
      (fun hr' => ⟨r.after (.claimed w.engine.status.state), hr', rfl, fun _ => ⟨ha, hc⟩, rfl, ?_⟩)
    · refine ⟨by simp [Stage.next, Stage.holdsBusy], ?_, ?_, ?_, fun _ => ⟨rfl, rfl⟩, ?_, ?_⟩
      · simpa [Stage.next, Stage.holder, hp, freshProgress] using hf.current
      · simpa [Stage.next, hp, freshProgress] using hf.queued
      · simpa [Run.after, Progress.record, hp, freshProgress] using hf.request
      · simp [Run.after, Stage.next, Progress.record, hp, freshProgress]
      · exact fun _ hs => Or.inr (by simpa [Run.after, Progress.record] using hs)
    · refine ⟨?_, hf.current, hf.queued, hf.request, ?_, hf.latched, ?_⟩
      · rw [hf.owner, hnone]
        simp [Ne.symm hu]
      · exact fun ho => absurd (Option.some.inj ho) (Ne.symm hu)
      · exact fun ho => absurd (Option.some.inj ho) (Ne.symm hu)
    · simp [Run.after, Stage.next, Progress.record, hp, freshProgress]
  · exact ⟨hw, guarantee_same rfl rfl rfl, nofun, r, hr, hheld, hcaller, hφ⟩

theorem queuedTickets_append (front back : List MacroExecutorMessage) :
    queuedTickets (front ++ back) = queuedTickets front ++ queuedTickets back :=
  List.filterMap_append

theorem orderly_sent {w w' : World} {request : MacroExecutionRequest} {platformOk full : Bool} (h : Orderly w)
    (hsend : (platformOk && !w.shutdown.queueDeleted && full) = true)
    (hlog : w'.log = w.log ++ [(t, .accepted request w.shutdown.queueDrained)])
    (hs : w'.shutdown = w.shutdown) (hc : w'.current = w.current)
    (hengine : w'.engine = w.engine) : Orderly w' where
  stopped := by rw [hs]; exact h.stopped
  gone := by rw [hs]; exact h.gone
  exited := by rw [hs, hc]; exact h.exited
  deleted := fun hd => by
    rw [hs] at hd
    simp [hd] at hsend
  drained := fun hlate hd => by
    rw [hs] at hd
    rw [hlog, hd] at hlate
    exact absurd (by simp) (hlate t request)
  noLoss := by rw [hlog]; exact h.noLoss.concat nofun
  latched := fun hu => by
    rw [hengine] at hu
    obtain ⟨u, hmem⟩ := h.latched hu
    exact ⟨u, by rw [hlog]; exact List.mem_append_left _ hmem⟩

/-- A message that a submission puts in the queue is handed to the worker. -/
theorem valid_queueSend {request : MacroExecutionRequest} (hvalid : validateRequest request = .ok ()) :
    Valid (threadLogic t) (queueSend t request) (Holding t t (Claimed request.plan)) (fun sent =>
      match sent with
      | true => Accepted t
      | false => Holding t t (Claimed request.plan)) := by
  refine valid_atomic (fun sent => by cases sent <;> [exact stable_holding; exact stable_accepted]) ?_
  rintro e w hw ⟨r, hr, hheld, hcaller, hstage, hhanded, hnone, hlatched⟩
  dsimp only
  split_ifs with hsend
  · obtain ⟨ha, hc⟩ := hcaller (by rw [hstage]; rfl)
    have hallows : r.allows (.accepted request w.shutdown.queueDrained) :=
      ⟨hstage, ha, hc, hnone, hhanded, hvalid⟩
    refine step_of_note (.accepted request w.shutdown.queueDrained) hw hr hallows rfl
      ⟨Or.inr (heldBy_mayMove hheld), fun h => by simp [hnone] at h, Or.inl ⟨rfl, rfl⟩⟩
      (fun hf => ?_) (fun u s hu hf => ?_) hw.busy (fun hc _ => hw.pending hc)
      (fun _ _ _ _ he => nomatch he) (fun _ => rfl) rfl (orderly_sent hw.orderly hsend rfl rfl rfl rfl)
      (fun hr' => ⟨_, hr', rfl, ha, hc⟩)
    · refine ⟨?_, ?_, ?_, ?_, hf.flags, ?_, hf.awaiting⟩
      · simpa [Run.after, Stage.next, Progress.record, Stage.holdsBusy, hstage] using hf.owner
      · simpa [Run.after, Stage.next, Progress.record, Stage.holder, hstage] using hf.current
      · have hcount : (queuedTickets w.queue).count t = 0 := by simpa [hstage] using hf.queued
        rw [show (r.after (.accepted request w.shutdown.queueDrained)).progress.stage = .queued from rfl, if_pos rfl,
          World.note_queue, queuedTickets_append, List.count_append, hcount]
        simp [queuedTickets]
      · intro other hother
        simp only [World.note_queue, List.mem_append, List.mem_singleton,
          MacroExecutorMessage.execute.injEq] at hother
        rcases hother with hother | ⟨-, rfl⟩
        · have hsome := hf.request other hother
          simp [hnone] at hsome
        · rfl
      · simp [Run.after, Progress.record, hlatched]
    · refine ⟨hf.owner, hf.current, ?_, ?_, hf.flags, hf.latched, hf.awaiting⟩
      · rw [← hf.queued, World.note_queue, queuedTickets_append, List.count_append]
        simp [queuedTickets, Ne.symm hu]
      · intro other hother
        simp only [World.note_queue, List.mem_append, List.mem_singleton,
          MacroExecutorMessage.execute.injEq] at hother
        exact hf.request other (hother.resolve_right fun h => hu h.1)
  · exact ⟨hw, guarantee_same rfl rfl rfl, r, hr, hheld, hcaller, hstage, hhanded, hnone, hlatched⟩

/-- Recording a flag for the submission that holds the engine leaves everything
else alone, whichever thread does it. -/
theorem inv_recordFlag {i : Nat} {w w' : World} {event : Event} {t : Ticket} {r : Run} (hw : Inv w)
    (hr : runIn w.log t = some r) (ho : w.owner = some t) (ha : r.allows event)
    (hlog : w'.log = w.log ++ [(t, event)]) (hprogress : (r.after event).progress = r.progress)
    (hanswer : (r.after event).answer = r.answer)
    (hfreed : (r.after event).callerFreed = r.callerFreed)
    (howner : w'.owner = w.owner) (hcurrent : w'.current = w.current) (hqueue : w'.queue = w.queue)
    (hs : w'.shutdown = w.shutdown) (hn : w'.notifications = w.notifications) (hbusy : w'.engine.busy = w.engine.busy)
    (hstatus : w'.engine.status = w.engine.status)
    (hunavailable : w'.engine.unavailable = w.engine.unavailable)
    (hflags : w'.engine.cancellationRequested = (r.after event).cancelled ∧
      w'.engine.confirmedRequested = (r.after event).confirmed)
    (hplain : Plain event) : Inv w' ∧ guarantee i w w' := by
  have hothers : ∀ u s, u ≠ t → Fits w u s → Fits w' u s := by
    intro u s hu hf
    refine ⟨by rw [howner]; exact hf.owner, by rw [hcurrent]; exact hf.current,
      by rw [hqueue]; exact hf.queued, by rw [hqueue]; exact hf.request, ?_,
      by rw [hunavailable]; exact hf.latched, by rw [howner, hstatus]; exact hf.awaiting⟩
    rw [howner, ho]
    exact fun h => absurd (Option.some.inj h).symm hu
  have hself : Fits w t r → Fits w' t (r.after event) := by
    intro hf
    refine ⟨?_, ?_, ?_, ?_, fun _ => hflags, ?_, ?_⟩
    · rw [hprogress, howner]; exact hf.owner
    · rw [hprogress, hcurrent]; exact hf.current
    · rw [hprogress, hqueue]; exact hf.queued
    · rw [hprogress, hqueue]; exact hf.request
    · rw [hprogress, hunavailable]; exact hf.latched
    · rw [hprogress, howner, hstatus]; exact hf.awaiting
  obtain ⟨hinv, hguar, -⟩ := step_of_note (i := i) (Q := True) event hw hr ha hlog
    ⟨Or.inl hprogress, fun _ => by rw [hprogress], Or.inl ⟨hanswer, hfreed⟩⟩ hself hothers
    (by rw [hbusy, howner]; exact hw.busy) (by rw [hcurrent, hn]; exact fun hc _ => hw.pending hc)
    (fun _ _ _ _ he => by subst he; exact hplain.elim) (fun _ => hcurrent) hs
    (hw.orderly.step hlog hs (by rw [hcurrent]; exact hw.orderly.exited)
      (by rw [hqueue]; exact List.Subset.refl _) (by rintro rfl; exact hplain)
      (by rw [hunavailable]; exact Or.inl)) (fun _ => trivial)
  exact ⟨hinv, hguar⟩

theorem stable_true {i : Nat} : Stable (threadLogic i) (fun _ => True) := fun _ _ _ _ _ _ => trivial

theorem owner_of_busy {w : World} (hw : Inv w) (h : w.engine.busy = true) :
    ∃ t r, w.owner = some t ∧ runIn w.log t = some r ∧ r.progress.stage.holdsBusy = true ∧
      Fits w t r := by
  have hb := hw.busy
  rw [h] at hb
  obtain ⟨t, ht⟩ := Option.isSome_iff_exists.mp hb.symm
  obtain ⟨r, hr, hf⟩ := hw.fits t
  exact ⟨t, r, ht, hr, hf.owner.mpr ht, hf⟩

variable {i : Nat}

theorem valid_notifyExecutor :
    Valid (threadLogic i) (notifyExecutor t) (fun _ => True) (fun _ _ => True) := by
  refine valid_atomic (fun _ => stable_true) ?_
  intro e w hw _
  dsimp only
  split_ifs
  · obtain ⟨r, hr, -⟩ := hw.fits t
    have hsame : SameShared w ({ w with notifications := w.notifications ++ [t] }.note t
        (.notified w.current)) := ⟨rfl, rfl, rfl, rfl, rfl, rfl, rfl, rfl, rfl⟩
    refine step_of_note (.notified w.current) hw hr trivial rfl (Respects.refl i t r)
      hsame.fits (fun _ _ _ => hsame.fits) hw.busy ?_ (fun _ _ _ _ he => nomatch he) (fun _ => rfl)
      rfl (hsame.orderly hw.orderly rfl nofun) (fun _ => trivial)
    intro hc hclean u hu n hn
    rcases List.mem_append.mp hn with hn | hn
    · exact hw.pending hc u hu n hn
    · rw [List.mem_singleton.mp hn]
      have hu' : w.current = some u := hu
      rcases hclean with hnone | hsome
      · rw [hnone] at hu'
        cases hu'
      · rw [hu'] at hsome
        exact (Option.some.inj hsome).symm
  · exact ⟨hw, guarantee_same rfl rfl rfl, trivial⟩

theorem valid_requestFlag {recording : Thread Recording}
    (h : Valid (threadLogic i) recording (fun _ => True) (fun _ _ => True)) :
    Valid (threadLogic i) (requestFlag recording) (fun _ => True) (fun _ _ => True) := by
  refine valid_bind (valid_read stable_true _) fun unavailable => ?_
  split_ifs
  · exact valid_ret fun _ _ h => h
  · refine valid_bind h fun answer => ?_
    cases answer with
    | refused error => exact valid_ret fun _ _ h => h
    | recorded ticket =>
      exact valid_bind valid_notifyExecutor fun _ => valid_ret fun _ _ h => h

theorem valid_recordFlag {allowed already : World → Bool} {set : World → World} {event : Bool → Event}
    (h : ∀ w success, Inv w → allowed w = true → already w = false → ∃ t, w.owner = some t ∧
      Inv ((set w).note t (event success)) ∧ guarantee i w ((set w).note t (event success))) :
    Valid (threadLogic i) (recordFlag allowed already set event) (fun _ => True)
      (fun _ _ => True) := by
  refine valid_atomic (fun _ => stable_true) ?_
  intro e w hw _
  dsimp only
  have hrefused : Inv w ∧ guarantee i w w ∧ True := ⟨hw, guarantee_same rfl rfl rfl, trivial⟩
  by_cases hlock : e.lockOk = true
  · rw [if_pos hlock]
    by_cases hallowed : allowed w = true
    · rw [if_neg (by simp [hallowed])]
      by_cases halready : already w = true
      · rw [if_pos halready]
        exact hrefused
      · rw [if_neg halready]
        obtain ⟨t, ho, hinv, hguar⟩ := h w e.unlockOk hw hallowed (by simpa using halready)
        rw [ho, Option.getD_some]
        exact ⟨hinv, hguar, trivial⟩
    · rw [if_pos (by simpa using hallowed)]
      exact hrefused
  · rw [if_neg hlock]
    exact hrefused

theorem valid_cancel :
    Valid (threadLogic i) macroExecutorEngineCancel (fun _ => True) (fun _ _ => True) := by
  refine valid_requestFlag (valid_recordFlag fun w success hw hbusy hset => ?_)
  obtain ⟨t, r, ho, hr, hholds, hf⟩ := owner_of_busy hw hbusy
  obtain ⟨hc, hk⟩ := hf.flags ho
  have ha : r.allows (.cancelRecorded success) := ⟨hholds, hc.symm.trans hset⟩
  exact ⟨t, ho, inv_recordFlag hw hr ho ha rfl rfl rfl rfl rfl rfl rfl rfl rfl rfl rfl rfl ⟨rfl, hk⟩
    trivial⟩

theorem valid_confirm :
    Valid (threadLogic i) macroExecutorEngineConfirm (fun _ => True) (fun _ _ => True) := by
  refine valid_requestFlag (valid_recordFlag fun w success hw hallowed hset => ?_)
  rw [Bool.and_eq_true, beq_iff_eq] at hallowed
  obtain ⟨t, r, ho, hr, hholds, hf⟩ := owner_of_busy hw hallowed.1
  obtain ⟨hc, hk⟩ := hf.flags ho
  have ha : r.allows (.confirmRecorded success) := ⟨hholds, hk.symm.trans hset, hf.awaiting ho hallowed.2⟩
  exact ⟨t, ho, inv_recordFlag hw hr ho ha rfl rfl rfl rfl rfl rfl rfl rfl rfl rfl rfl rfl ⟨hc, rfl⟩
    trivial⟩

theorem valid_getStatus :
    Valid (threadLogic i) macroExecutorEngineGetStatus (fun _ => True) (fun _ _ => True) := by
  refine valid_bind (valid_read stable_true _) fun _ => valid_bind (valid_read stable_true _) fun _ =>
    valid_atomic (fun _ => stable_true) ?_
  intro e w hw _
  have hsame : ∀ status : MacroExecutionStatus, (threadLogic i).inv (status, w).2 ∧
      (threadLogic i).guar w (status, w).2 ∧ True := fun _ => ⟨hw, guarantee_same rfl rfl rfl, trivial⟩
  dsimp only
  split
  · exact hsame _
  · exact hsame _

def WorkerFree (w : World) : Prop := w.current = none ∧ w.shutdown.workerExited = false

theorem stable_workerFree : Stable (threadLogic 0) WorkerFree := by
  rintro w w' - - ⟨j, hj, hg⟩ h
  obtain ⟨hcurrent, hexited⟩ := hg.worker hj
  exact ⟨hcurrent.trans h.1, hexited.trans h.2⟩

def Taken (request : MacroExecutionRequest) (p : Progress) : Prop :=
  p.stage = .taken ∧ p.request = some request ∧ p.issued = 0

theorem run_of_head {w : World} (hw : Inv w) {t : Ticket} {request : MacroExecutionRequest}
    {rest : List MacroExecutorMessage} (hq : w.queue = .execute t request :: rest) :
    ∃ r, runIn w.log t = some r ∧ Fits w t r ∧ r.progress.stage = .queued ∧
      r.progress.request = some request ∧ (queuedTickets rest).count t = 0 := by
  obtain ⟨r, hr, hf⟩ := hw.fits t
  have hcount := hf.queued
  have hhead : queuedTickets w.queue = t :: queuedTickets rest := by rw [hq]; rfl
  rw [hhead, List.count_cons_self] at hcount
  have hstage : r.progress.stage = .queued := by
    by_contra hne
    rw [if_neg hne] at hcount
    omega
  rw [if_pos hstage] at hcount
  exact ⟨r, hr, hf, hstage, hf.request request (by rw [hq]; exact List.mem_cons_self), by omega⟩

theorem count_queued_cons {u t : Ticket} {request : MacroExecutionRequest}
    {rest queue : List MacroExecutorMessage} (hq : queue = .execute t request :: rest) (hu : u ≠ t) :
    (queuedTickets rest).count u = (queuedTickets queue).count u := by
  have hhead : queuedTickets queue = t :: queuedTickets rest := by rw [hq]; rfl
  rw [hhead, List.count_cons_of_ne (Ne.symm hu)]

theorem Fits.popped {w w' : World} {u t : Ticket} {request : MacroExecutionRequest}
    {rest : List MacroExecutorMessage} {s : Run} (hf : Fits w u s) (hu : u ≠ t)
    (hq : w.queue = .execute t request :: rest) (hqueue : w'.queue = rest)
    (howner : w'.owner = w.owner) (hcurrent : s.progress.stage.holder = .worker ↔ w'.current = some u)
    (hengine : w'.engine = w.engine) : Fits w' u s := by
  refine ⟨by rw [howner]; exact hf.owner, hcurrent, ?_, ?_, by rw [howner, hengine]; exact hf.flags,
    by rw [hengine]; exact hf.latched, by rw [howner, hengine]; exact hf.awaiting⟩
  · rw [hqueue, count_queued_cons hq hu]
    exact hf.queued
  · intro other hother
    rw [hqueue] at hother
    exact hf.request other (by rw [hq]; exact List.mem_cons_of_mem _ hother)

theorem inv_popStop {w : World} (hw : Inv w) {rest : List MacroExecutorMessage}
    (hq : w.queue = .stop :: rest) : Inv { w with queue := rest } := by
  have hsub : rest ⊆ w.queue := by rw [hq]; exact List.subset_cons_self _ _
  have ho := hw.orderly
  refine ⟨fun t => ?_, hw.busy, hw.pending, hw.woken, ho.stopped, ho.gone, ho.exited, fun hd => ?_,
    fun hlate hd => queuedTickets_of_subset hsub (ho.drained hlate hd), ho.noLoss, ho.latched⟩
  · obtain ⟨r, hr, hf⟩ := hw.fits t
    refine ⟨r, hr, hf.owner, hf.current, ?_, fun other hother => hf.request other (hsub hother),
      hf.flags, hf.latched, hf.awaiting⟩
    rw [← hf.queued, hq]
    rfl
  · rw [ho.deleted hd] at hsub
    exact List.subset_nil.mp hsub

/-- The worker takes the next request, which no other thread can touch from
then on. -/
theorem valid_queueReceive :
    Valid (threadLogic 0) queueReceive WorkerFree (fun message =>
      match message with
      | some (.execute t request) => Holding 0 t (Taken request)
      | _ => WorkerFree) := by
  refine valid_atomic (fun message => ?_) ?_
  · rcases message with _ | (_ | _)
    · exact stable_workerFree
    · exact stable_holding
    · exact stable_workerFree
  intro e w hw hfree
  dsimp only
  split_ifs
  · split
    · exact ⟨hw, guarantee_same rfl rfl rfl, hfree⟩
    · next rest hq => exact ⟨inv_popStop hw hq, guarantee_same rfl rfl rfl, hfree⟩
    · next t request rest hq =>
      obtain ⟨r, hr, hf, hstage, hrequest, hcount⟩ := run_of_head hw hq
      refine step_of_note (.dequeued w.notifications) hw hr hstage rfl
        ⟨Or.inr ?_, fun _ => rfl, Or.inl ⟨rfl, rfl⟩⟩ (fun hf => ?_) (fun u s hu hf => ?_) hw.busy ?_
        (fun _ _ _ _ he => nomatch he) (fun h => absurd rfl h) rfl
        (hw.orderly.step rfl rfl (fun h => by rw [hfree.2] at h; cases h)
          (by rw [hq]; exact List.subset_cons_self _ _) nofun Or.inl)
        (fun hr' => ⟨_, hr', rfl, nofun, rfl, hrequest, rfl⟩)
      · simp [mayMove, hstage, Stage.holder]
      · refine ⟨?_, by simp [World.note, Stage.next, Stage.holder], ?_, ?_, hf.flags, hf.latched,
          hf.awaiting⟩
        · simpa [Run.after, Stage.next, Progress.record, Stage.holdsBusy, hstage] using hf.owner
        · simpa [World.note, Stage.next] using hcount
        · intro other hother
          exact absurd (mem_queuedTickets.mpr ⟨other, hother⟩) (List.count_eq_zero.mp hcount)
      · refine hf.popped hu hq rfl rfl ⟨fun h => ?_, fun h => ?_⟩ rfl
        · have hcurrent := hf.current.mp h
          rw [hfree.1] at hcurrent
          cases hcurrent
        · exact absurd (Option.some.inj h) (Ne.symm hu)
      · intro _ hclean u hu n hn
        rw [← Option.some.inj hu]
        exact hclean n hn
  · exact ⟨hw, guarantee_same rfl rfl rfl, hfree⟩

/-- The progress of an execution that is over: its flags are cleared and its
terminal state recorded, or the engine is latched. -/
def Over (p : Progress) : Prop :=
  (p.stage = .silent ∨ p.stage = .cleared) ∧ (p.stage = .cleared ∨ p.latched = true) ∧
    (p.recorded = true ∨ p.latched = true)

theorem valid_executionReturned {result : AppError} :
    Valid (threadLogic 0) (executionReturned t result) (Holding 0 t Over) (fun _ => WorkerFree) := by
  refine valid_atomic (fun _ => stable_workerFree) ?_
  rintro e w hw ⟨r, hr, hheld, hcaller, hstage, hcleared, hrecorded⟩
  have hworker : r.progress.stage.holder = .worker := by
    rcases hstage with h | h <;> rw [h] <;> rfl
  have hcurrent := hw.current_eq hr hworker
  refine step_of_note (.returned result) hw hr ⟨hstage, hcleared, hrecorded⟩ rfl
    ⟨Or.inr (heldBy_mayMove hheld), fun _ => rfl, Or.inl ⟨rfl, rfl⟩⟩ (fun hf => ?_) (fun u s hu hf => ?_)
    hw.busy (fun _ _ _ h => by cases h) (fun _ _ _ _ he => by cases he) (fun h => absurd rfl h) rfl
    (hw.orderly.step rfl rfl (fun _ => rfl) (List.Subset.refl _) (by simp) Or.inl)
    (fun _ => ⟨rfl, ?_⟩)
  · rcases hstage with hs | hs
    · have hafter : r.after (.returned result) = r.at .stuck := by
        simp [Run.after, Run.at, Stage.next, Stage.afterReturned, Progress.record, hs]
      rw [hafter]
      refine ⟨?_, ⟨fun h => (by cases h), fun h => (by cases h)⟩, ?_, hf.request, hf.flags, hf.latched, hf.awaiting⟩
      · simpa [Run.at, Stage.holdsBusy, hs] using hf.owner
      · simpa [Run.at, hs] using hf.queued
    · have hafter : r.after (.returned result) = r.at .done := by
        simp [Run.after, Run.at, Stage.next, Stage.afterReturned, Progress.record, hs]
      rw [hafter]
      refine ⟨?_, ⟨fun h => (by cases h), fun h => (by cases h)⟩, ?_, hf.request, hf.flags, hf.latched, hf.awaiting⟩
      · simpa [Run.at, Stage.holdsBusy, hs] using hf.owner
      · simpa [Run.at, hs] using hf.queued
  · refine ⟨hf.owner, ⟨fun h => ?_, fun h => by cases h⟩, hf.queued, hf.request, hf.flags, hf.latched, hf.awaiting⟩
    have hu' := hf.current.mp h
    rw [hcurrent] at hu'
    exact absurd (Option.some.inj hu').symm hu
  · by_contra hexited
    have hnone := hw.orderly.exited (by simpa using hexited)
    rw [hcurrent] at hnone
    cases hnone

end MacroKeyboard.Executor
