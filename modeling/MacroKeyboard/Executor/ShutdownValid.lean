import MacroKeyboard.Executor.Handover

namespace MacroKeyboard.Executor

open Threads.Program Threads.Monitor Threads.RelyGuarantee

variable {i : Nat}

def Exited (w : World) : Prop := w.shutdown.workerExited = true

def Drained (w : World) : Prop := Exited w ∧ w.shutdown.queueDrained = true

def Deleted (w : World) : Prop := Exited w ∧ w.shutdown.queueDeleted = true

theorem stable_exited : Stable (threadLogic i) Exited :=
  fun _ _ _ _ ⟨_, _, hg⟩ h => hg.advances.exited h

theorem stable_drained : Stable (threadLogic i) Drained :=
  fun _ _ _ _ ⟨_, _, hg⟩ h => ⟨hg.advances.exited h.1, hg.advances.drained h.2⟩

theorem stable_deleted : Stable (threadLogic i) Deleted :=
  fun _ _ _ _ ⟨_, _, hg⟩ h => ⟨hg.advances.exited h.1, hg.advances.deleted h.2⟩

theorem step_shutdown {w : World} {s : ShutdownProgress} (hw : Inv w)
    (hadvances : Advances w.shutdown s)
    (hworker : i ≠ 0 → s.workerExited = w.shutdown.workerExited)
    (horderly : Orderly { w with shutdown := s }) :
    Inv { w with shutdown := s } ∧ guarantee i w { w with shutdown := s } := by
  refine ⟨⟨fun t => ?_, hw.busy, hw.pending, hw.woken, horderly⟩,
    guarantee_of_log rfl (fun h => ⟨rfl, hworker h⟩) hadvances⟩
  obtain ⟨r, hr, hf⟩ := hw.fits t
  exact ⟨r, hr, hf.owner, hf.current, hf.queued, hf.request, hf.flags, hf.latched, hf.awaiting⟩

theorem valid_exitTask : Valid (threadLogic 0) exitTask WorkerFree (fun _ _ => True) := by
  refine valid_atomic (fun _ => stable_true) ?_
  rintro e w hw ⟨hcurrent, -⟩
  have ho := hw.orderly
  dsimp only
  split
  · obtain ⟨hinv, hguar⟩ := step_shutdown (i := 0)
      (s := { w.shutdown with executorStopped := true, workerExited := true }) hw
      ⟨fun _ => rfl, id, id⟩ (fun h => absurd rfl h)
      ⟨fun _ => rfl, fun _ => rfl, fun _ => hcurrent, ho.deleted, ho.drained, ho.noLoss, ho.latched⟩
    exact ⟨hinv, hguar, trivial⟩
  · obtain ⟨hinv, hguar⟩ := step_shutdown (i := 0)
      (s := { w.shutdown with executorStopSignalFailed := true, workerExited := true }) hw
      ⟨fun _ => rfl, id, id⟩ (fun h => absurd rfl h)
      ⟨fun _ => rfl, fun _ => rfl, fun _ => hcurrent, ho.deleted, ho.drained, ho.noLoss, ho.latched⟩
    exact ⟨hinv, hguar, trivial⟩

theorem valid_queueSendStop :
    Valid (threadLogic i) queueSendStop (fun _ => True) (fun _ _ => True) := by
  refine valid_atomic (fun _ => stable_true) ?_
  intro e w hw _
  have ho := hw.orderly
  have hsame : queuedTickets (w.queue ++ [.stop]) = queuedTickets w.queue := by
    rw [queuedTickets_append]
    exact List.append_nil _
  dsimp only
  split
  · next hsend =>
    refine ⟨⟨fun t => ?_, hw.busy, hw.pending, hw.woken, ho.stopped, ho.gone, ho.exited,
      fun hd => ?_, fun hlate hd => ?_, ho.noLoss, ho.latched⟩, guarantee_same rfl rfl rfl, trivial⟩
    · obtain ⟨r, hr, hf⟩ := hw.fits t
      refine ⟨r, hr, hf.owner, hf.current, ?_, fun other hother => ?_, hf.flags, hf.latched,
        hf.awaiting⟩
      · rw [hsame]
        exact hf.queued
      · exact hf.request other (by simpa using hother)
    · have hd' : w.shutdown.queueDeleted = true := hd
      simp [hd'] at hsend
    · rw [hsame]
      exact ho.drained hlate hd
  · exact ⟨hw, guarantee_same rfl rfl rfl, trivial⟩

theorem valid_takeExecutorStopped :
    Valid (threadLogic 1) takeExecutorStopped (fun _ => True)
      (fun stopped w => stopped = true → Exited w) := by
  refine valid_atomic (fun stopped => ?_) ?_
  · exact fun w w' hw hw' hr h hs => stable_exited w w' hw hw' hr (h hs)
  intro e w hw _
  have ho := hw.orderly
  dsimp only
  split
  · next htaken =>
    rw [Bool.and_eq_true] at htaken
    have hexited := ho.stopped htaken.2
    obtain ⟨hinv, hguar⟩ := step_shutdown (i := 1)
      (s := { w.shutdown with executorStopped := false }) hw ⟨id, id, id⟩ (fun _ => rfl)
      ⟨nofun, ho.gone, ho.exited, ho.deleted, ho.drained, ho.noLoss, ho.latched⟩
    exact ⟨hinv, hguar, fun _ => hexited⟩
  · exact ⟨hw, guarantee_same rfl rfl rfl, nofun⟩

theorem valid_stopExecutorTask :
    Valid (threadLogic 1) stopExecutorTask (fun _ => True)
      (fun result w => result.1 = true → Exited w) := by
  refine valid_bind valid_cancel fun cancelResult => ?_
  refine valid_bind valid_queueSendStop fun sent => ?_
  refine valid_bind valid_takeExecutorStopped fun stopped => ?_
  cases stopped with
  | true => exact valid_ret fun _ _ h _ => h rfl
  | false => exact valid_ret fun _ _ _ h => nomatch h

theorem valid_clearTaskHandle : Valid (threadLogic 1) clearTaskHandle Exited (fun _ => Exited) := by
  refine valid_atomic (fun _ => stable_exited) ?_
  intro e w hw hexited
  have ho := hw.orderly
  obtain ⟨hinv, hguar⟩ := step_shutdown (i := 1)
    (s := { w.shutdown with taskHandle := false }) hw ⟨id, id, id⟩ (fun _ => rfl)
    ⟨ho.stopped, fun _ => hexited, ho.exited, ho.deleted, ho.drained, ho.noLoss, ho.latched⟩
  exact ⟨hinv, hguar, hexited⟩

/-- The shutdown takes a request from the queue and frees its plan. -/
theorem valid_drainStep :
    Valid (threadLogic 1) drainStep Exited
      (fun result => result.elim Exited (fun _ => Drained)) := by
  refine valid_atomic (fun result => by cases result <;> [exact stable_exited; exact stable_drained]) ?_
  intro e w hw hexited
  have ho := hw.orderly
  dsimp only
  split
  · next hq =>
    obtain ⟨hinv, hguar⟩ := step_shutdown (i := 1)
      (s := { w.shutdown with queueDrained := true }) hw ⟨id, fun _ => rfl, id⟩ (fun _ => rfl)
      ⟨ho.stopped, ho.gone, ho.exited, ho.deleted, fun _ _ => by rw [hq]; rfl, ho.noLoss, ho.latched⟩
    exact ⟨hinv, hguar, hexited, rfl⟩
  · next rest hq => exact ⟨inv_popStop hw hq, guarantee_same rfl rfl rfl, hexited⟩
  · next t request rest hq =>
    obtain ⟨r, hr, hf, hstage, hrequest, hcount⟩ := run_of_head hw hq
    refine step_of_note .drained hw hr hstage rfl ⟨Or.inr ?_, fun _ => rfl, Or.inl ⟨rfl, rfl⟩⟩
      (fun hf => ?_) (fun u s hu hf => ?_) hw.busy (fun hc _ => hw.pending hc)
      (fun _ _ _ _ he => nomatch he) (fun _ => rfl) rfl
      (ho.step rfl rfl ho.exited (by rw [hq]; exact List.subset_cons_self _ _) nofun Or.inl)
      (fun _ => hexited)
    · simp [mayMove, hstage, Stage.holder]
    · refine ⟨?_, ?_, ?_, ?_, hf.flags, hf.latched, hf.awaiting⟩
      · simpa [Stage.next, Stage.holdsBusy, hstage] using hf.owner
      · simpa [Stage.next, Stage.holder, hstage] using hf.current
      · simpa [World.note, Stage.next] using hcount
      · intro other hother
        exact absurd (mem_queuedTickets.mpr ⟨other, hother⟩) (List.count_eq_zero.mp hcount)
    · exact hf.popped hu hq rfl rfl hf.current rfl

theorem valid_drainPendingPlans :
    Valid (threadLogic 1) drainPendingPlans Exited (fun _ => Drained) :=
  valid_repeatUntil stable_exited (fun _ => stable_drained) valid_drainStep

/-- At most one submission is in the queue, because it holds the engine. -/
theorem queuedTickets_eq {w : World} (hw : Inv w) :
    queuedTickets w.queue = [] ∨ ∃ t, queuedTickets w.queue = [t] ∧ w.owner = some t := by
  have hone : ∀ t ∈ queuedTickets w.queue, w.owner = some t ∧ (queuedTickets w.queue).count t = 1 := by
    intro t ht
    obtain ⟨r, hr, hf⟩ := hw.fits t
    have hpos := List.count_pos_iff.mpr ht
    have hcount := hf.queued
    by_cases hs : r.progress.stage = .queued
    · rw [if_pos hs] at hcount
      exact ⟨hf.owner.mp (by rw [hs]; rfl), hcount⟩
    · rw [if_neg hs] at hcount
      omega
  cases hl : queuedTickets w.queue with
  | nil => exact Or.inl rfl
  | cons t rest =>
    rw [hl] at hone
    obtain ⟨ho, hcount⟩ := hone t List.mem_cons_self
    refine Or.inr ⟨t, ?_, ho⟩
    cases rest with
    | nil => rfl
    | cons u rest =>
      have hu := (hone u (by simp)).1
      rw [ho] at hu
      rw [Option.some.inj hu] at hcount
      simp at hcount

/-- What the deletion of the queue does to the submission still in it. -/
theorem inv_queueLost {w : World} (hw : Inv w) (hdrained : w.shutdown.queueDrained = true) :
    Inv { w with queue := [], log := w.log ++ (queuedTickets w.queue).map (·, Event.lost) } ∧
      guarantee 1 w
        { w with queue := [], log := w.log ++ (queuedTickets w.queue).map (·, Event.lost) } := by
  have ho := hw.orderly
  have hempty : ∀ t other, MacroExecutorMessage.execute t other ∉ ([] : List MacroExecutorMessage) :=
    fun _ _ => List.not_mem_nil
  rcases queuedTickets_eq hw with hnil | ⟨t, hone, ho'⟩
  · rw [hnil, List.map_nil, List.append_nil]
    refine ⟨⟨fun t => ?_, hw.busy, hw.pending, hw.woken, ho.stopped, ho.gone, ho.exited, fun _ => rfl,
      fun _ _ => rfl, ho.noLoss, ho.latched⟩, guarantee_same rfl rfl rfl⟩
    obtain ⟨r, hr, hf⟩ := hw.fits t
    refine ⟨r, hr, hf.owner, hf.current, ?_, fun other h => absurd h (hempty t other), hf.flags,
      hf.latched, hf.awaiting⟩
    rw [← hf.queued, hnil]
    rfl
  · rw [hone, List.map_singleton]
    obtain ⟨r, hr, hf⟩ := hw.fits t
    have hcount : ∀ u, (queuedTickets w.queue).count u = if t = u then 1 else 0 := by
      intro u
      rw [hone, List.count_singleton]
      simp
    have hstage : r.progress.stage = .queued := by
      have h := hf.queued
      rw [hcount, if_pos rfl] at h
      by_contra hne
      rw [if_neg hne] at h
      omega
    have horderly : Orderly { w with queue := [], log := w.log ++ [(t, Event.lost)] } := by
      refine ⟨ho.stopped, ho.gone, ho.exited, fun _ => rfl, fun _ _ => rfl, fun hlate => ?_, fun hu => ?_⟩
      · have hnil := ho.drained hlate.of_append hdrained
        rw [hone] at hnil
        cases hnil
      · obtain ⟨u, hmem⟩ := ho.latched hu
        exact ⟨u, List.mem_append_left _ hmem⟩
    have hstep : Inv { w with queue := [], log := w.log ++ [(t, Event.lost)] } ∧
        guarantee 1 w { w with queue := [], log := w.log ++ [(t, Event.lost)] } ∧ True := by
      refine step_of_note .lost hw hr hstage rfl
        ⟨Or.inr (by simp [mayMove, hstage, Stage.holder]), fun _ => rfl, Or.inl ⟨rfl, rfl⟩⟩
        (fun hf => ?_) (fun u s hu hf => ?_) hw.busy (fun hc _ => hw.pending hc)
        (fun _ _ _ _ he => nomatch he) (fun _ => rfl) rfl horderly (fun _ => trivial)
      · refine ⟨?_, ?_, ?_, fun other h => absurd h (hempty t other), hf.flags, hf.latched, hf.awaiting⟩
        · simpa [Stage.next, Stage.holdsBusy, hstage] using hf.owner
        · simpa [Stage.next, Stage.holder, hstage] using hf.current
        · simp [Stage.next, queuedTickets]
      · refine ⟨hf.owner, hf.current, ?_, fun other h => absurd h (hempty u other), hf.flags,
          hf.latched, hf.awaiting⟩
        rw [← hf.queued, hcount, if_neg (Ne.symm hu)]
        rfl
    exact ⟨hstep.1, hstep.2.1⟩

theorem valid_queueDelete : Valid (threadLogic 1) queueDelete Drained (fun _ => Deleted) := by
  refine valid_atomic (fun _ => stable_deleted) ?_
  rintro e w hw ⟨hexited, hdrained⟩
  obtain ⟨hlost, hguar⟩ := inv_queueLost hw hdrained
  have ho := hlost.orderly
  obtain ⟨hinv, hguar'⟩ := step_shutdown (i := 1) (s := { w.shutdown with queueDeleted := true }) hlost
    ⟨id, id, fun _ => rfl⟩ (fun _ => rfl)
    ⟨ho.stopped, ho.gone, ho.exited, fun _ => rfl, ho.drained, ho.noLoss, ho.latched⟩
  exact ⟨hinv, hguar.trans hguar', hexited, rfl⟩

/-- The engine is erased when no execution runs and none is queued, so at most
a submission that claimed it loses the busy flag with it. -/
theorem valid_eraseEngine {Q : Bool → World → Prop} :
    Valid (threadLogic 1) eraseEngine Deleted Q := by
  refine valid_halting ?_
  rintro e w hw ⟨hexited, hdeleted⟩
  have ho := hw.orderly
  have hcurrent := ho.exited hexited
  have hqueue := ho.deleted hdeleted
  have hnotWorker : ∀ t r, Fits w t r → r.progress.stage.holder ≠ .worker := by
    intro t r hf h
    have hsome := hf.current.mp h
    rw [hcurrent] at hsome
    cases hsome
  cases howner : w.owner with
  | none =>
    refine ⟨fun t => ?_, hqueue, hcurrent, ?_, ?_, rfl⟩
    · obtain ⟨r, hr, hf⟩ := hw.fits t
      refine ⟨r, by simpa [howner] using hr, ?_, hnotWorker t r hf⟩
      by_contra hbusy
      have hsome := hf.owner.mp (by simpa using hbusy)
      rw [howner] at hsome
      cases hsome
    · simpa [howner] using hw.woken
    · simpa [howner] using ho.noLoss
  | some t =>
    refine ⟨fun u => ?_, hqueue, hcurrent, ?_, ?_, rfl⟩
    · obtain ⟨r, hr, hf⟩ := hw.fits u
      by_cases hu : u = t
      · subst hu
        have hbusy := hf.owner.mpr howner
        have hqueued : r.progress.stage ≠ .queued := by
          intro h
          have hcount := hf.queued
          rw [if_pos h, hqueue] at hcount
          cases hcount
        have ha : r.allows .erased := ⟨hbusy, hqueued, hnotWorker u r hf⟩
        have hr' : runIn (w.log ++ [(u, Event.erased)]) u = some (r.at .erased) :=
          runIn_concat_self hr ha
        exact ⟨r.at .erased, by simpa [howner] using hr', rfl, nofun⟩
      · have hr' : runIn (w.log ++ [(t, Event.erased)]) u = some r :=
          (runIn_concat_ne (Ne.symm hu)).trans hr
        refine ⟨r, by simpa [howner] using hr', ?_, hnotWorker u r hf⟩
        by_contra hbusy
        have hsome := hf.owner.mp (by simpa using hbusy)
        rw [howner] at hsome
        exact hu (Option.some.inj hsome).symm
    · have hwoken : OwnWakeUps (w.log ++ [(t, Event.erased)]) :=
        hw.woken.concat fun _ _ _ _ h => nomatch h
      simpa [howner] using hwoken
    · have hnoLoss : NoLoss (w.log ++ [(t, Event.erased)]) := ho.noLoss.concat nofun
      simpa [howner] using hnoLoss

theorem valid_releaseExecutor {firstError : AppError} {Q : AppError → World → Prop} :
    Valid (threadLogic 1) (releaseExecutor firstError) Exited Q := by
  refine valid_bind (valid_ask stable_exited _) fun releaseResult => ?_
  refine valid_bind valid_drainPendingPlans fun _ => valid_bind valid_queueDelete fun _ => ?_
  exact valid_bind (M := fun _ _ => False) valid_eraseEngine fun _ => valid_false

theorem valid_setShutdown {state : ExecutorShutdownState} :
    Valid (threadLogic i) (setShutdown state) (fun _ => True) (fun _ _ => True) :=
  valid_atomic (fun _ => stable_true) (action_same (fun _ _ => rfl)
    (fun _ _ => ⟨rfl, rfl, rfl, rfl, rfl, rfl, rfl, rfl, rfl⟩) (fun _ _ => rfl) fun _ _ _ => trivial)

theorem valid_beginShutdown :
    Valid (threadLogic i) beginShutdown (fun _ => True) (fun _ _ => True) :=
  valid_atomic (fun _ => stable_true) (action_same (fun _ _ => rfl)
    (fun _ _ => ⟨rfl, rfl, rfl, rfl, rfl, rfl, rfl, rfl, rfl⟩) (fun _ _ => rfl) fun _ _ _ => trivial)

theorem valid_readTaskHandle :
    Valid (threadLogic i) (.read (·.shutdown.taskHandle) : Thread Bool) (fun _ => True)
      (fun handle w => handle = false → Exited w) := by
  refine valid_atomic (fun handle => ?_) fun e w hw _ =>
    ⟨hw, guarantee_same rfl rfl rfl, fun h => hw.orderly.gone h⟩
  exact fun w w' hw hw' hr h hf => stable_exited w w' hw hw' hr (h hf)

theorem valid_macroExecutorDeinit :
    Valid (threadLogic 1) macroExecutorDeinit (fun _ => True) (fun _ _ => True) := by
  refine valid_bind (valid_read stable_true _) fun erased => ?_
  cases erased with
  | true => exact valid_ret fun _ _ h => h
  | false =>
    refine valid_bind valid_beginShutdown fun _ => valid_bind valid_readTaskHandle fun handle => ?_
    cases handle with
    | false => exact valid_releaseExecutor.pre fun _ _ h => h rfl
    | true =>
      refine (valid_bind valid_stopExecutorTask fun result => ?_).pre fun _ _ _ => trivial
      obtain ⟨stopped, firstError⟩ := result
      cases stopped with
      | false =>
        exact (valid_bind valid_setShutdown fun _ => valid_ret fun _ _ _ => trivial).pre
          fun _ _ _ => trivial
      | true =>
        exact (valid_bind valid_clearTaskHandle fun _ => valid_releaseExecutor).pre fun _ _ h => h rfl

theorem valid_lifecycleTask : Valid (threadLogic 1) lifecycleTask (fun _ => True) (fun _ _ => True) := by
  refine valid_repeatUntil stable_true (fun _ => stable_true) ?_
  refine valid_bind (valid_ask stable_true _) fun again => ?_
  cases again with
  | true => exact valid_bind valid_macroExecutorDeinit fun _ => valid_ret fun _ _ h => h
  | false => exact valid_ret fun _ _ h => h

end MacroKeyboard.Executor
