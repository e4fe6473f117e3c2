import MacroKeyboard.Executor.Task
import MacroKeyboard.Executor.Protocol
import MacroKeyboard.Threads.RelyGuarantee

namespace MacroKeyboard.Executor

open Threads.Program Threads.Monitor Threads.RelyGuarantee

/-- The log follows the protocol of submission `t`, and the shared state is
what the run of `t` says it is. -/
structure Fits (w : World) (t : Ticket) (r : Run) : Prop where
  owner : r.progress.stage.holdsBusy = true ↔ w.owner = some t
  current : r.progress.stage.holder = .worker ↔ w.current = some t
  queued : (queuedTickets w.queue).count t = if r.progress.stage = .queued then 1 else 0
  request : ∀ request, MacroExecutorMessage.execute t request ∈ w.queue →
    r.progress.request = some request
  flags : w.owner = some t → w.engine.cancellationRequested = r.cancelled ∧
    w.engine.confirmedRequested = r.confirmed
  latched : r.progress.latched = true → w.engine.unavailable = true
  awaiting : w.owner = some t → w.engine.status.state = .awaitingConfirmation →
    r.progress.awaited = true ∨ r.progress.staleClaim = true

/-- An event that leaves no stale wake-up or stale awaiting state behind: the
worker takes a request with no notification of another one pending, a
notification comes while no other execution runs, and busy is claimed while no
awaiting state shows. -/
def Clean (t : Ticket) : Event → Prop
  | .dequeued pending => ∀ n ∈ pending, n = t
  | .notified current => current = none ∨ current = some t
  | .claimed published => published ≠ .awaitingConfirmation
  | _ => True

def CleanLog (log : Log Ticket Event) : Prop := ∀ t event, (t, event) ∈ log → Clean t event

/-- In a clean run every wake-up is for the execution that waited. -/
def OwnWakeUps (log : Log Ticket Event) : Prop :=
  CleanLog log → ∀ t milliseconds wokenBy result,
    (t, Event.waited milliseconds wokenBy result) ∈ log → ∀ n ∈ wokenBy, n = t

def NoLate (log : Log Ticket Event) : Prop := ∀ t request, (t, Event.accepted request true) ∉ log

def NoLoss (log : Log Ticket Event) : Prop := NoLate log → ∀ t, (t, Event.lost) ∉ log

/-- How the shutdown stands to the worker, the queue and the engine. -/
structure Orderly (w : World) : Prop where
  stopped : w.shutdown.executorStopped = true → w.shutdown.workerExited = true
  gone : w.shutdown.taskHandle = false → w.shutdown.workerExited = true
  exited : w.shutdown.workerExited = true → w.current = none
  deleted : w.shutdown.queueDeleted = true → w.queue = []
  drained : NoLate w.log → w.shutdown.queueDrained = true → queuedTickets w.queue = []
  noLoss : NoLoss w.log
  latched : w.engine.unavailable = true → ∃ t, (t, Event.latched) ∈ w.log

structure Inv (w : World) : Prop where
  fits : ∀ t, ∃ r, runIn w.log t = some r ∧ Fits w t r
  busy : w.engine.busy = w.owner.isSome
  pending : CleanLog w.log → ∀ t, w.current = some t → ∀ n ∈ w.notifications, n = t
  woken : OwnWakeUps w.log
  orderly : Orderly w

/-- What holds once the engine is erased: nobody holds it or runs. -/
structure Final (w : World) : Prop where
  runs : ∀ t, ∃ r, runIn w.log t = some r ∧ r.progress.stage.holdsBusy = false ∧
    r.progress.stage.holder ≠ .worker
  queue : w.queue = []
  current : w.current = none
  woken : OwnWakeUps w.log
  noLoss : NoLoss w.log
  erased : w.shutdown.engineErased = true

/-- Which thread may move submission `t` on from a stage: its own thread until
it is queued, then the worker or, from the queue, the shutdown. -/
def mayMove (thread : Nat) (t : Ticket) (stage : Stage) : Prop :=
  match stage.holder with
  | .submitter => thread = t
  | .queue => thread = 0 ∨ thread = 1
  | .worker => thread = 0
  | .nobody => False

/-- What a step of `thread` may do to the run of submission `t`. -/
structure Respects (thread : Nat) (t : Ticket) (r r' : Run) : Prop where
  progress : r'.progress = r.progress ∨ mayMove thread t r.progress.stage
  request : r.progress.request.isSome → r'.progress.request = r.progress.request
  caller : (r'.answer = r.answer ∧ r'.callerFreed = r.callerFreed) ∨ thread = t

/-- What any thread may do to the shutdown: it only goes on. -/
structure Advances (s s' : ShutdownProgress) : Prop where
  exited : s.workerExited = true → s'.workerExited = true
  drained : s.queueDrained = true → s'.queueDrained = true
  deleted : s.queueDeleted = true → s'.queueDeleted = true

structure guarantee (thread : Nat) (w w' : World) : Prop where
  runs : ∀ t r, runIn w.log t = some r → ∃ r', runIn w'.log t = some r' ∧ Respects thread t r r'
  worker : thread ≠ 0 →
    w'.current = w.current ∧ w'.shutdown.workerExited = w.shutdown.workerExited
  advances : Advances w.shutdown w'.shutdown

def threadLogic (thread : Nat) : Logic World where
  inv := Inv
  halt := Final
  rely := fun w w' => ∃ other, other ≠ thread ∧ guarantee other w w'
  guar := guarantee thread

theorem Respects.refl (thread : Nat) (t : Ticket) (r : Run) : Respects thread t r r :=
  ⟨Or.inl rfl, fun _ => rfl, Or.inl ⟨rfl, rfl⟩⟩

theorem Advances.refl (s : ShutdownProgress) : Advances s s := ⟨id, id, id⟩

theorem guarantee_of_log {thread : Nat} {w w' : World} (h : w'.log = w.log)
    (hworker : thread ≠ 0 →
      w'.current = w.current ∧ w'.shutdown.workerExited = w.shutdown.workerExited)
    (hadvances : Advances w.shutdown w'.shutdown) : guarantee thread w w' :=
  ⟨fun t r hr => ⟨r, by rw [h]; exact hr, Respects.refl thread t r⟩, hworker, hadvances⟩

theorem guarantee_same {thread : Nat} {w w' : World} (h : w'.log = w.log)
    (hc : w'.current = w.current) (hs : w'.shutdown = w.shutdown) : guarantee thread w w' :=
  guarantee_of_log h (fun _ => ⟨hc, by rw [hs]⟩) (by rw [hs]; exact Advances.refl _)

theorem guarantee_note {thread : Nat} {w w' : World} {t : Ticket} {event : Event} {r : Run}
    (hr : runIn w.log t = some r) (ha : r.allows event) (hlog : w'.log = w.log ++ [(t, event)])
    (hrespects : Respects thread t r (r.after event)) (hc : thread ≠ 0 → w'.current = w.current)
    (hs : w'.shutdown = w.shutdown) : guarantee thread w w' := by
  refine ⟨fun u s hs => ?_, fun h => ⟨hc h, by rw [hs]⟩, by rw [hs]; exact Advances.refl _⟩
  by_cases hu : u = t
  · subst hu
    rw [hr] at hs
    cases hs
    exact ⟨r.after event, by rw [hlog]; exact runIn_concat_self hr ha, hrespects⟩
  · exact ⟨s, by rw [hlog, runIn_concat_ne (Ne.symm hu)]; exact hs, Respects.refl thread u s⟩

theorem Respects.trans {thread : Nat} {t : Ticket} {r r' r'' : Run} (h : Respects thread t r r')
    (h' : Respects thread t r' r'') : Respects thread t r r'' where
  progress := by
    rcases h.progress with hp | hm
    · rw [← hp]
      exact h'.progress
    · exact Or.inr hm
  request := fun hs => (h'.request (by rw [h.request hs]; exact hs)).trans (h.request hs)
  caller := by
    rcases h.caller with hc | hc
    · rw [← hc.1, ← hc.2]
      exact h'.caller
    · exact Or.inr hc

theorem guarantee.trans {thread : Nat} {w w' w'' : World} (h : guarantee thread w w')
    (h' : guarantee thread w' w'') : guarantee thread w w'' where
  runs := fun t r hr => by
    obtain ⟨r', hr', hrespects⟩ := h.runs t r hr
    obtain ⟨r'', hr'', hrespects'⟩ := h'.runs t r' hr'
    exact ⟨r'', hr'', hrespects.trans hrespects'⟩
  worker := fun ht => ⟨(h'.worker ht).1.trans (h.worker ht).1, (h'.worker ht).2.trans (h.worker ht).2⟩
  advances := ⟨fun hs => h'.advances.exited (h.advances.exited hs),
    fun hs => h'.advances.drained (h.advances.drained hs),
    fun hs => h'.advances.deleted (h.advances.deleted hs)⟩

theorem mem_queuedTickets {queue : List MacroExecutorMessage} {t : Ticket} :
    t ∈ queuedTickets queue ↔ ∃ request, MacroExecutorMessage.execute t request ∈ queue := by
  unfold queuedTickets
  rw [List.mem_filterMap]
  constructor
  · rintro ⟨message, hmem, hm⟩
    cases message with
    | execute u request =>
      cases hm
      exact ⟨request, hmem⟩
    | stop => cases hm
  · rintro ⟨request, hmem⟩
    exact ⟨_, hmem, rfl⟩

theorem queuedTickets_of_subset {front back : List MacroExecutorMessage} (h : front ⊆ back)
    (hb : queuedTickets back = []) : queuedTickets front = [] := by
  refine List.eq_nil_iff_forall_not_mem.mpr fun t ht => ?_
  obtain ⟨request, hmem⟩ := mem_queuedTickets.mp ht
  have hback := mem_queuedTickets.mpr ⟨request, h hmem⟩
  rw [hb] at hback
  exact List.not_mem_nil hback

theorem NoLate.of_append {front back : Log Ticket Event} (h : NoLate (front ++ back)) :
    NoLate front := fun t request hmem => h t request (List.mem_append_left _ hmem)

theorem NoLoss.concat {log : Log Ticket Event} {t : Ticket} {event : Event} (h : NoLoss log)
    (hlost : event ≠ .lost) : NoLoss (log ++ [(t, event)]) := by
  intro hlate u hmem
  rcases List.mem_append.mp hmem with hmem | hmem
  · exact h hlate.of_append u hmem
  · simp only [List.mem_singleton, Prod.mk.injEq] at hmem
    exact hlost hmem.2.symm

theorem Orderly.step {w w' : World} {t : Ticket} {event : Event} (h : Orderly w)
    (hlog : w'.log = w.log ++ [(t, event)]) (hs : w'.shutdown = w.shutdown)
    (hcurrent : w.shutdown.workerExited = true → w'.current = none) (hqueue : w'.queue ⊆ w.queue)
    (hlost : event ≠ .lost)
    (hlatched : w'.engine.unavailable = true → w.engine.unavailable = true ∨ event = .latched) :
    Orderly w' where
  stopped := by rw [hs]; exact h.stopped
  gone := by rw [hs]; exact h.gone
  exited := by rw [hs]; exact hcurrent
  deleted := fun hd => by
    rw [hs] at hd
    rw [h.deleted hd] at hqueue
    exact List.subset_nil.mp hqueue
  drained := fun hlate hd => by
    rw [hs] at hd
    rw [hlog] at hlate
    exact queuedTickets_of_subset hqueue (h.drained hlate.of_append hd)
  noLoss := by rw [hlog]; exact h.noLoss.concat hlost
  latched := fun hu => by
    rw [hlog]
    rcases hlatched hu with hu | rfl
    · obtain ⟨u, hmem⟩ := h.latched hu
      exact ⟨u, List.mem_append_left _ hmem⟩
    · exact ⟨t, by simp⟩

/-- Two states that differ in nothing the runs are compared with. -/
structure SameShared (w w' : World) : Prop where
  owner : w'.owner = w.owner
  current : w'.current = w.current
  queue : w'.queue = w.queue
  shutdown : w'.shutdown = w.shutdown
  busy : w'.engine.busy = w.engine.busy
  cancellation : w'.engine.cancellationRequested = w.engine.cancellationRequested
  confirmation : w'.engine.confirmedRequested = w.engine.confirmedRequested
  state : w'.engine.status.state = w.engine.status.state
  unavailable : w'.engine.unavailable = w.engine.unavailable

theorem SameShared.fits {w w' : World} (h : SameShared w w') {t : Ticket} {r : Run}
    (hf : Fits w t r) : Fits w' t r where
  owner := by rw [h.owner]; exact hf.owner
  current := by rw [h.current]; exact hf.current
  queued := by rw [h.queue]; exact hf.queued
  request := by rw [h.queue]; exact hf.request
  flags := by rw [h.owner, h.cancellation, h.confirmation]; exact hf.flags
  latched := by rw [h.unavailable]; exact hf.latched
  awaiting := by rw [h.owner, h.state]; exact hf.awaiting

theorem SameShared.orderly {w w' : World} (h : SameShared w w') {t : Ticket} {event : Event}
    (hw : Orderly w) (hlog : w'.log = w.log ++ [(t, event)]) (hlost : event ≠ .lost) : Orderly w' :=
  hw.step hlog h.shutdown (by rw [h.current]; exact hw.exited) (by rw [h.queue]; exact List.Subset.refl _)
    hlost (by rw [h.unavailable]; exact Or.inl)

theorem inv_same {w w' : World} (h : Inv w) (hs : SameShared w w') (hlog : w'.log = w.log)
    (hn : w'.notifications = w.notifications) : Inv w' where
  fits := fun t => by
    obtain ⟨r, hr, hf⟩ := h.fits t
    exact ⟨r, by rw [hlog]; exact hr, hs.fits hf⟩
  busy := by rw [hs.busy, hs.owner]; exact h.busy
  pending := by rw [hlog, hs.current, hn]; exact h.pending
  woken := by rw [hlog]; exact h.woken
  orderly := by
    obtain ⟨h1, h2, h3, h4, h5, h6, h7⟩ := h.orderly
    constructor <;> simp only [hs.shutdown, hs.current, hs.queue, hs.unavailable, hlog] <;> assumption

theorem CleanLog.of_concat {log : Log Ticket Event} {entry : Ticket × Event}
    (h : CleanLog (log ++ [entry])) : CleanLog log :=
  fun t event he => h t event (List.mem_append_left _ he)

theorem CleanLog.last {log : Log Ticket Event} {t : Ticket} {event : Event}
    (h : CleanLog (log ++ [(t, event)])) : Clean t event :=
  h t event (by simp)

theorem OwnWakeUps.concat {log : Log Ticket Event} {t : Ticket} {event : Event} (h : OwnWakeUps log)
    (hwoken : CleanLog log → ∀ milliseconds wokenBy result,
      event = .waited milliseconds wokenBy result → ∀ n ∈ wokenBy, n = t) :
    OwnWakeUps (log ++ [(t, event)]) := by
  intro hc u milliseconds wokenBy result hmem
  rcases List.mem_append.mp hmem with hmem | hmem
  · exact h hc.of_concat u milliseconds wokenBy result hmem
  · simp only [List.mem_singleton, Prod.mk.injEq] at hmem
    obtain ⟨rfl, rfl⟩ := hmem
    exact hwoken hc.of_concat milliseconds wokenBy result rfl

/-- One more event of submission `t`: it must be allowed, the new run of `t`
must fit the new state and the runs of the others must still fit. -/
theorem inv_note {w w' : World} {t : Ticket} {event : Event} {r : Run} (h : Inv w)
    (hr : runIn w.log t = some r) (ha : r.allows event) (hlog : w'.log = w.log ++ [(t, event)])
    (hself : Fits w' t (r.after event))
    (hothers : ∀ u s, u ≠ t → Fits w u s → Fits w' u s)
    (hbusy : w'.engine.busy = w'.owner.isSome)
    (hpending : CleanLog w.log → Clean t event → ∀ u, w'.current = some u →
      ∀ n ∈ w'.notifications, n = u)
    (hwoken : CleanLog w.log → ∀ milliseconds wokenBy result,
      event = .waited milliseconds wokenBy result → ∀ n ∈ wokenBy, n = t)
    (horderly : Orderly w') : Inv w' where
  fits := fun u => by
    by_cases hu : u = t
    · subst hu
      exact ⟨r.after event, by rw [hlog]; exact runIn_concat_self hr ha, hself⟩
    · obtain ⟨s, hs, hf⟩ := h.fits u
      exact ⟨s, by rw [hlog, runIn_concat_ne (Ne.symm hu)]; exact hs, hothers u s hu hf⟩
  busy := hbusy
  pending := fun hc => by
    rw [hlog] at hc
    exact hpending hc.of_concat hc.last
  woken := by rw [hlog]; exact h.woken.concat hwoken
  orderly := horderly

/-- Two runs that the shared state cannot tell apart. -/
structure Similar (r r' : Run) : Prop where
  holdsBusy : r'.progress.stage.holdsBusy = r.progress.stage.holdsBusy
  worker : r'.progress.stage.holder = .worker ↔ r.progress.stage.holder = .worker
  queued : r'.progress.stage = .queued ↔ r.progress.stage = .queued
  request : r'.progress.request = r.progress.request
  cancelled : r'.cancelled = r.cancelled
  confirmed : r'.confirmed = r.confirmed
  latched : r'.progress.latched = true → r.progress.latched = true
  awaited : r.progress.awaited = true → r'.progress.awaited = true
  staleClaim : r'.progress.staleClaim = r.progress.staleClaim

theorem Similar.fits {w : World} {t : Ticket} {r r' : Run} (h : Similar r r') (hf : Fits w t r) :
    Fits w t r' where
  owner := by rw [h.holdsBusy]; exact hf.owner
  current := by rw [h.worker]; exact hf.current
  queued := by simp only [h.queued]; exact hf.queued
  request := by rw [h.request]; exact hf.request
  flags := by rw [h.cancelled, h.confirmed]; exact hf.flags
  latched := fun hl => hf.latched (h.latched hl)
  awaiting := fun ho hs => by
    rw [h.staleClaim]
    exact (hf.awaiting ho hs).imp_left h.awaited

/-- An event that tells nothing of wake-ups and of losses. -/
def Plain : Event → Prop
  | .waited _ _ _ | .lost => False
  | _ => True

theorem inv_note_similar {w w' : World} {t : Ticket} {event : Event} {r : Run} (h : Inv w)
    (hr : runIn w.log t = some r) (ha : r.allows event) (hlog : w'.log = w.log ++ [(t, event)])
    (hs : SameShared w w') (hn : w'.notifications = w.notifications)
    (hsim : Similar r (r.after event))
    (hplain : Plain event) : Inv w' := by
  obtain ⟨r₀, hr₀, hf⟩ := h.fits t
  rw [hr] at hr₀
  cases hr₀
  refine inv_note h hr ha hlog (hsim.fits (hs.fits hf)) (fun u s _ hfu => hs.fits hfu) ?_ ?_ ?_
    (hs.orderly h.orderly hlog (by rintro rfl; exact hplain))
  · rw [hs.busy, hs.owner]
    exact h.busy
  · rw [hs.current, hn]
    exact fun hc _ => h.pending hc
  · rintro _ milliseconds wokenBy result rfl
    exact hplain.elim

theorem Inv.fits_of_run {w : World} (h : Inv w) {t : Ticket} {r : Run} (hr : runIn w.log t = some r) :
    Fits w t r := by
  obtain ⟨r₀, hr₀, hf⟩ := h.fits t
  rw [hr] at hr₀
  cases hr₀
  exact hf

end MacroKeyboard.Executor
