import MacroKeyboard.Async.Dispatch
import MacroKeyboard.Threads.RelyGuarantee

namespace MacroKeyboard.Async

open Threads.Program Threads.Monitor Threads.RelyGuarantee

section Histories

def begun : List AsyncEvent := [.arrived, .claimed, .allocated, .taken]

/-- The whole history of a request: it is answered once, it is completed if it was taken
over, what was allocated for it is freed, and the flag is released if it was claimed. -/
inductive Settled : List AsyncEvent → Prop
  | refused (sent : Bool) : Settled [.arrived, .answered sent]
  | unread (sent : Bool) : Settled [.arrived, .claimed, .released, .answered sent]
  | unallocated (sent : Bool) : Settled [.arrived, .claimed, .bodyFreed, .released, .answered sent]
  | unbegun (sent : Bool) :
    Settled [.arrived, .claimed, .allocated, .bodyFreed, .itemFreed, .released, .answered sent]
  | unqueued (sent succeeded : Bool) :
    Settled (begun ++ [.answered sent, .completed succeeded, .bodyFreed, .itemFreed, .released])
  | served (sent succeeded : Bool) :
    Settled (begun ++ [.queued false, .received, .answered sent, .bodyFreed, .itemFreed, .completed succeeded, .released])

def stranded : List AsyncEvent := begun ++ [.queued true]

def Shaped (history : List AsyncEvent) : Prop := (∃ rest, Settled (history ++ rest)) ∨ history = stranded

def handedOver (history : List AsyncEvent) : Bool :=
  history.any fun event =>
    match event with
    | .queued _ => true
    | _ => false

def Working (history : List AsyncEvent) : Prop := .received ∈ history ∧ .released ∉ history

def Unreleased (history : List AsyncEvent) : Prop := .claimed ∈ history ∧ .released ∉ history

instance (history : List AsyncEvent) : Decidable (Working history) :=
  inferInstanceAs (Decidable (.received ∈ history ∧ .released ∉ history))

instance (history : List AsyncEvent) : Decidable (Unreleased history) :=
  inferInstanceAs (Decidable (.claimed ∈ history ∧ .released ∉ history))

/-- An event that neither claims nor releases, and hands nothing over. -/
def AsyncEvent.quiet : AsyncEvent → Bool
  | .allocated | .taken | .answered _ | .bodyFreed | .itemFreed | .completed _ => true
  | .arrived | .claimed | .queued _ | .received | .released => false

variable {history : List AsyncEvent} {event : AsyncEvent}

theorem Shaped.of_settled (rest : List AsyncEvent) (h : Settled (history ++ rest)) : Shaped history := Or.inl ⟨rest, h⟩

theorem handedOver_append (front back : List AsyncEvent) :
    handedOver (front ++ back) = (handedOver front || handedOver back) := List.any_append

theorem handedOver_quiet (h : event.quiet = true) : handedOver (history ++ [event]) = handedOver history := by
  rw [handedOver_append]
  cases event <;> first | exact Bool.or_false _ | cases h

theorem mem_concat_quiet (h : event.quiet = true) {other : AsyncEvent} (hother : other.quiet = false) :
    other ∈ history ++ [event] ↔ other ∈ history := by
  rw [List.mem_append, List.mem_singleton, or_iff_left_iff_imp]
  rintro rfl
  rw [h] at hother
  cases hother

end Histories

section Logic

/-- What holds of the state between any two steps. -/
structure Inv (s : AsyncState) : Prop where
  fresh : ∀ n, s.arrivals ≤ n → s.history n = []
  shaped : ∀ n, Shaped (s.history n)
  /-- a request that was queued for the worker is in the queue -/
  waiting : ∀ n, s.history n = begun ++ [.queued false] → s.asyncQueue = .live [some n]
  items : ∀ items, s.asyncQueue = .live items →
    items = [] ∨ items = [none] ∨ ∃ n late, items = [some n] ∧ s.history n = begun ++ [.queued late]
  late : ∀ n, .queued true ∈ s.history n → s.workerExited = true
  exited : s.workerExited = true → ∀ n, s.history n ≠ begun ++ [.queued false] ∧ ¬ Working (s.history n)
  /-- the worker has left before a stop goes on -/
  stopped : s.asyncStopped = some true ∨ (∀ items, s.asyncQueue ≠ .live items) ∨ s.flagReset = true →
    s.workerExited = true
  flag : s.flagReset = false → ∀ n, Unreleased (s.history n) → s.asyncInFlight = true
  single : s.flagReset = false → ∀ n m, Unreleased (s.history n) → Unreleased (s.history m) → n = m
  faulted : s.faulted = true → s.workerExited = true

/-- What each task leaves alone: the server's task has the requests that are not handed
over, the worker those that are, and the task that stops both has none. -/
structure guarantee (thread : Nat) (s s' : AsyncState) : Prop where
  server : thread ≠ 0 → s'.arrivals = s.arrivals ∧
    ∀ n, handedOver (s.history n) = false → s'.history n = s.history n
  worker : thread ≠ 1 → s'.workerExited = s.workerExited ∧
    ∀ n, s'.history n = s.history n ∨ (handedOver (s.history n) = false ∧ .received ∉ s'.history n)
  exited : s.workerExited = true → s'.workerExited = true

def threadLogic (thread : Nat) : Logic AsyncState where
  inv := Inv
  halt := fun s => s.faulted = true ∧ Inv s
  rely := fun s s' => ∃ other, other ≠ thread ∧ guarantee other s s'
  guar := guarantee thread

theorem history_note_self (s : AsyncState) (n : Request) (event : AsyncEvent) :
    (s.note n event).history n = s.history n ++ [event] := by
  rw [AsyncState.history, AsyncState.note, project_append, project_singleton_self, AsyncState.history]

theorem history_note_ne {n m : Request} (h : m ≠ n) (s : AsyncState) (event : AsyncEvent) :
    (s.note n event).history m = s.history m := by
  rw [AsyncState.history, AsyncState.note, project_append, project_singleton_ne h.symm, List.append_nil, AsyncState.history]

theorem guarantee_same {thread : Nat} {s s' : AsyncState} (hlog : s'.log = s.log) (harrivals : s'.arrivals = s.arrivals)
    (hexited : s'.workerExited = s.workerExited) : guarantee thread s s' := by
  have hhistory (n : Request) : s'.history n = s.history n := by rw [AsyncState.history, hlog, AsyncState.history]
  exact ⟨fun _ => ⟨harrivals, fun n _ => hhistory n⟩, fun _ => ⟨hexited, fun n => Or.inl (hhistory n)⟩,
    fun h => hexited.trans h⟩

end Logic

section Steps

variable {s s' : AsyncState} {n : Request} {history : List AsyncEvent} {event : AsyncEvent}

theorem history_of_log (s' : AsyncState) (hlog : s'.log = s.log ++ [(n, event)]) (h : s.history n = history) :
    s'.history n = history ++ [event] ∧ ∀ m, m ≠ n → s'.history m = s.history m := by
  have hnote (m : Request) : s'.history m = (s.note n event).history m := by rw [AsyncState.history, hlog]; rfl
  refine ⟨?_, fun m hm => ?_⟩
  · rw [hnote, history_note_self, h]
  · rw [hnote, history_note_ne hm]

/-- What a step has to show that records one event of a request. -/
theorem inv_noted (hs : Inv s) (h : s.history n = history) (hlog : s'.log = s.log ++ [(n, event)])
    (harrivals : s.arrivals ≤ s'.arrivals ∧ n < s'.arrivals) (hexited : s'.workerExited = s.workerExited)
    (hfaulted : s'.faulted = s.faulted)
    (hstopped : s'.asyncStopped = some true ∨ (∀ items, s'.asyncQueue ≠ .live items) ∨ s'.flagReset = true →
      s.workerExited = true)
    (hreset : s'.flagReset = s.flagReset) (hshaped : Shaped (history ++ [event]))
    (hwaiting : ∀ m, s'.history m = begun ++ [.queued false] → s'.asyncQueue = .live [some m])
    (hitems : ∀ items, s'.asyncQueue = .live items →
      items = [] ∨ items = [none] ∨ ∃ m late, items = [some m] ∧ s'.history m = begun ++ [.queued late])
    (hlate : .queued true ∈ history ++ [event] → s.workerExited = true)
    (hexit : s.workerExited = true → history ++ [event] ≠ begun ++ [.queued false] ∧ ¬ Working (history ++ [event]))
    (hflag : s.flagReset = false → Unreleased (history ++ [event]) → s'.asyncInFlight = true)
    (hothers : s.flagReset = false → ∀ m, m ≠ n → Unreleased (s.history m) →
      s'.asyncInFlight = true ∧ ¬ Unreleased (history ++ [event])) : Inv s' := by
  obtain ⟨hself, hsame⟩ := history_of_log s' hlog h
  refine ⟨fun m hm => ?_, fun m => ?_, hwaiting, hitems, fun m hmem => ?_, fun hexit' m => ?_, fun hstop => ?_,
    fun hzero m hm => ?_, fun hzero m m' hm hm' => ?_, ?_⟩
  · have hne : m ≠ n := fun heq => absurd hm (Nat.not_le.mpr (heq ▸ harrivals.2))
    rw [hsame m hne]
    exact hs.fresh m (harrivals.1.trans hm)
  · by_cases hne : m = n
    · rw [hne, hself]
      exact hshaped
    · rw [hsame m hne]
      exact hs.shaped m
  · rw [hexited]
    by_cases hne : m = n
    · rw [hne, hself] at hmem
      exact hlate hmem
    · rw [hsame m hne] at hmem
      exact hs.late m hmem
  · rw [hexited] at hexit'
    by_cases hne : m = n
    · rw [hne, hself]
      exact hexit hexit'
    · rw [hsame m hne]
      exact hs.exited hexit' m
  · rw [hexited]
    exact hstopped hstop
  · rw [hreset] at hzero
    by_cases hne : m = n
    · rw [hne, hself] at hm
      exact hflag hzero hm
    · rw [hsame m hne] at hm
      exact (hothers hzero m hne hm).1
  · rw [hreset] at hzero
    by_cases hne : m = n
    · by_cases hne' : m' = n
      · exact hne.trans hne'.symm
      · rw [hsame m' hne'] at hm'
        rw [hne, hself] at hm
        exact absurd hm (hothers hzero m' hne' hm').2
    · rw [hsame m hne] at hm
      by_cases hne' : m' = n
      · rw [hne', hself] at hm'
        exact absurd hm' (hothers hzero m hne hm).2
      · rw [hsame m' hne'] at hm'
        exact hs.single hzero m m' hm hm'
  · rw [hfaulted, hexited]
    exact hs.faulted

theorem queue_noted (s' : AsyncState) (hs : Inv s) (h : s.history n = history) (hlog : s'.log = s.log ++ [(n, event)])
    (hqueue : s'.asyncQueue = s.asyncQueue) (hnot : ∀ late, history ≠ begun ++ [.queued late])
    (hevent : ∀ late, event ≠ .queued late) :
    (∀ m, s'.history m = begun ++ [.queued false] → s'.asyncQueue = .live [some m]) ∧
    ∀ items, s'.asyncQueue = .live items →
      items = [] ∨ items = [none] ∨ ∃ m late, items = [some m] ∧ s'.history m = begun ++ [.queued late] := by
  obtain ⟨hself, hsame⟩ := history_of_log s' hlog h
  constructor
  · intro m hm
    rw [hqueue]
    by_cases hne : m = n
    · rw [hne, hself] at hm
      exact absurd (List.append_inj' hm rfl).2 (by simpa using hevent false)
    · exact hs.waiting m (hsame m hne ▸ hm)
  · intro items hitems
    rw [hqueue] at hitems
    obtain hnil | hsentinel | ⟨m, late, heq, hm⟩ := hs.items items hitems
    · exact Or.inl hnil
    · exact Or.inr (Or.inl hsentinel)
    · have hne : m ≠ n := fun hmn => by
        rw [hmn, h] at hm
        exact hnot late hm
      exact Or.inr (Or.inr ⟨m, late, heq, hsame m hne ▸ hm⟩)

theorem lt_arrivals (hs : Inv s) (h : s.history n = history) (hne : history ≠ []) : n < s.arrivals := by
  by_contra hle
  rw [hs.fresh n (Nat.le_of_not_lt hle)] at h
  exact hne h.symm

/-- An event that only the holder of a request sees. -/
theorem inv_quiet (hs : Inv s) (h : s.history n = history) (hne : history ≠ []) (hquiet : event.quiet = true)
    (hnot : ∀ late, history ≠ begun ++ [.queued late]) (hshaped : Shaped (history ++ [event])) :
    Inv (s.note n event) := by
  have hmem {other : AsyncEvent} (hother : other.quiet = false) : other ∈ history ++ [event] ↔ other ∈ history :=
    mem_concat_quiet hquiet hother
  have hunreleased : Unreleased (history ++ [event]) ↔ Unreleased history := by
    rw [Unreleased, Unreleased, hmem rfl, hmem rfl]
  obtain ⟨hwaiting, hitems⟩ := queue_noted (s.note n event) hs h rfl rfl hnot
    (fun late heq => by rw [heq] at hquiet; cases hquiet)
  have hlt : n < s.arrivals := lt_arrivals hs h hne
  refine inv_noted hs h rfl ⟨le_rfl, hlt⟩ rfl rfl hs.stopped rfl hshaped hwaiting hitems ?_ ?_ ?_ ?_
  · rw [hmem rfl, ← h]
    exact hs.late n
  · intro hexit
    refine ⟨fun heq => ?_, ?_⟩
    · have hlast : event = .queued false := by simpa using (List.append_inj' heq rfl).2
      rw [hlast] at hquiet
      cases hquiet
    · rw [Working, hmem rfl, hmem rfl, ← h]
      exact (hs.exited hexit n).2
  · intro hzero hm
    rw [hunreleased, ← h] at hm
    exact hs.flag hzero n hm
  · intro hzero m hm hother
    refine ⟨hs.flag hzero m hother, fun hself => ?_⟩
    rw [hunreleased, ← h] at hself
    exact hm (hs.single hzero m n hother hself)

theorem inv_released (hs : Inv s) (h : s.history n = history) (hclaimed : Unreleased history)
    (hnot : ∀ late, history ≠ begun ++ [.queued late]) (hshaped : Shaped (history ++ [.released])) :
    Inv ({ s with asyncInFlight := false }.note n .released) := by
  have hne : history ≠ [] := fun heq => by
    rw [heq] at hclaimed
    exact absurd hclaimed.1 List.not_mem_nil
  have hlt : n < s.arrivals := lt_arrivals hs h hne
  have hreleased : ¬ Unreleased (history ++ [.released]) := fun hself => hself.2 (by simp)
  obtain ⟨hwaiting, hitems⟩ := queue_noted ({ s with asyncInFlight := false }.note n .released) hs h rfl rfl hnot
    fun _ heq => by cases heq
  refine inv_noted hs h rfl ⟨le_rfl, hlt⟩ rfl rfl hs.stopped rfl hshaped hwaiting hitems (fun hmem => ?_) (fun hexit => ?_)
    (fun _ hself => absurd hself hreleased) fun hzero m hm hother => ?_
  · have hold : .queued true ∈ history := by simpa using hmem
    exact hs.late n (h ▸ hold)
  · refine ⟨fun heq => ?_, fun hworking => hworking.2 (by simp)⟩
    simpa using (List.append_inj' heq rfl).2
  · exact absurd (hs.single hzero m n hother (h ▸ hclaimed)) hm

theorem guarantee_server {s s' : AsyncState} (h : s.history n = history) (hown : handedOver history = false)
    (hlog : s'.log = s.log ++ [(n, event)]) (hexited : s'.workerExited = s.workerExited)
    (hevent : event ≠ .received) (hreceived : .received ∉ history) : guarantee 0 s s' := by
  obtain ⟨hself, hsame⟩ := history_of_log s' hlog h
  refine ⟨fun hne => absurd rfl hne, fun _ => ⟨hexited, fun m => ?_⟩, fun hexit => hexited.trans hexit⟩
  by_cases hm : m = n
  · refine Or.inr ⟨by rw [hm, h, hown], ?_⟩
    rw [hm, hself, List.mem_append, List.mem_singleton, not_or]
    exact ⟨hreceived, fun heq => hevent heq.symm⟩
  · exact Or.inl (hsame m hm)

theorem guarantee_worker {s s' : AsyncState} (h : s.history n = history) (hown : handedOver history = true)
    (hlog : s'.log = s.log ++ [(n, event)]) (harrivals : s'.arrivals = s.arrivals)
    (hexited : s'.workerExited = s.workerExited) : guarantee 1 s s' := by
  obtain ⟨-, hsame⟩ := history_of_log s' hlog h
  refine ⟨fun _ => ⟨harrivals, fun m hm => hsame m fun heq => ?_⟩, fun hne => absurd rfl hne, fun hexit => hexited.trans hexit⟩
  rw [heq, h, hown] at hm
  cases hm

end Steps

section Server

variable {n : Request} {history : List AsyncEvent}

theorem stable_server (hown : handedOver history = false) :
    Stable (threadLogic 0) (fun s : AsyncState => s.history n = history) := by
  rintro s s' - - ⟨other, hne, hguar⟩ h
  exact ((hguar.server hne).2 n (h ▸ hown)).trans h

theorem stable_true (thread : Nat) : Stable (threadLogic thread) (fun _ : AsyncState => True) := fun _ _ _ _ _ _ => trivial

theorem not_waiting (hown : handedOver history = false) (late : Bool) : history ≠ begun ++ [.queued late] := fun heq => by
  rw [heq] at hown
  cases hown

theorem valid_server_noted {event : AsyncEnv → AsyncEvent} (hne : history ≠ []) (hown : handedOver history = false)
    (hreceived : .received ∉ history) (hquiet : ∀ e, (event e).quiet = true)
    (hshaped : ∀ e, Shaped (history ++ [event e])) :
    Valid (threadLogic 0) (noted n event) (fun s => s.history n = history)
      (fun _ s => ∃ e, s.history n = history ++ [event e]) := by
  have hstable : Stable (threadLogic 0) (fun s : AsyncState => ∃ e, s.history n = history ++ [event e]) := by
    rintro s s' hs hs' hrely ⟨e, h⟩
    exact ⟨e, stable_server ((handedOver_quiet (hquiet e)).trans hown) s s' hs hs' hrely h⟩
  refine valid_atomic (fun _ => hstable) fun e s hs h => ?_
  have hself : (s.note n (event e)).history n = history ++ [event e] := by rw [history_note_self, h]
  refine ⟨inv_quiet hs h hne (hquiet e) (not_waiting hown) (hshaped e), ?_, e, hself⟩
  exact guarantee_server h hown rfl rfl (fun heq => by have hq := hquiet e; rw [heq] at hq; cases hq) hreceived

theorem valid_answer (hne : history ≠ []) (hown : handedOver history = false) (hreceived : .received ∉ history)
    (hsettled : ∀ sent, Settled (history ++ [.answered sent])) :
    Valid (threadLogic 0) (answer n) (fun s => s.history n = history) (fun _ _ => True) :=
  (valid_server_noted hne hown hreceived (fun _ => rfl) fun e => Or.inl ⟨[], by simpa using hsettled e.sent⟩).post
    fun _ _ _ _ => trivial

theorem valid_server_event {event : AsyncEvent} (hne : history ≠ []) (hown : handedOver history = false)
    (hreceived : .received ∉ history) (hquiet : event.quiet = true) (hshaped : Shaped (history ++ [event])) :
    Valid (threadLogic 0) (noted n fun _ => event) (fun s => s.history n = history)
      (fun _ s => s.history n = history ++ [event]) :=
  (valid_server_noted hne hown hreceived (fun _ => hquiet) fun _ => hshaped).post fun _ _ _ ⟨_, h⟩ => h

theorem valid_server_release (hown : handedOver history = false) (hreceived : .received ∉ history)
    (hclaimed : Unreleased history) (hshaped : Shaped (history ++ [.released])) :
    Valid (threadLogic 0) (releaseInFlight n) (fun s => s.history n = history)
      (fun _ s => s.history n = history ++ [.released]) := by
  have hafter : handedOver (history ++ [.released]) = false := by rw [handedOver_append, hown]; rfl
  refine valid_atomic (fun _ => stable_server hafter) fun e s hs h => ?_
  refine ⟨inv_released hs h hclaimed (not_waiting hown) hshaped, guarantee_server h hown rfl rfl nofun hreceived, ?_⟩
  exact (history_of_log _ rfl h).1

theorem valid_arrive : Valid (threadLogic 0) arrive (fun _ => True) (fun n s => s.history n = [.arrived]) := by
  refine valid_atomic (fun n => stable_server rfl) fun e s hs _ => ?_
  have h : s.history s.arrivals = [] := hs.fresh s.arrivals le_rfl
  obtain ⟨hwaiting, hitems⟩ :=
    queue_noted ({ s with arrivals := s.arrivals + 1 }.note s.arrivals .arrived) hs h rfl rfl nofun
      fun _ heq => by cases heq
  have hunclaimed : ¬ Unreleased ([] ++ [AsyncEvent.arrived]) := fun hself => by simp [Unreleased] at hself
  refine ⟨inv_noted hs h rfl ⟨Nat.le_succ _, Nat.lt_succ_self _⟩ rfl rfl hs.stopped rfl
    (.of_settled [.answered true] (.refused true)) hwaiting hitems (fun hmem => by simp at hmem)
    (fun _ => ⟨by decide, fun hworking => by simp [Working] at hworking⟩) (fun _ hself => absurd hself hunclaimed)
    fun hzero m _ hother => ⟨hs.flag hzero m hother, hunclaimed⟩,
    guarantee_server h rfl rfl rfl nofun List.not_mem_nil, (history_of_log _ rfl h).1⟩

theorem valid_claim : Valid (threadLogic 0) (claimInFlight n) (fun s => s.history n = [.arrived])
    (fun claimed s => s.history n = if claimed then [.arrived, .claimed] else [.arrived]) := by
  refine valid_atomic (fun claimed => by cases claimed <;> exact stable_server rfl) fun e s hs h => ?_
  cases hflag : s.asyncInFlight with
  | true => exact ⟨hs, guarantee_same rfl rfl rfl, h⟩
  | false =>
    have hlt : n < s.arrivals := lt_arrivals hs h (by simp)
    obtain ⟨hwaiting, hitems⟩ :=
      queue_noted ({ s with asyncInFlight := true }.note n .claimed) hs h rfl rfl (not_waiting rfl)
        fun _ heq => by cases heq
    refine ⟨inv_noted hs h rfl ⟨le_rfl, hlt⟩ rfl rfl hs.stopped rfl
      (.of_settled [.released, .answered true] (.unread true)) hwaiting hitems (fun hmem => by simp at hmem)
      (fun _ => ⟨by decide, fun hworking => by simp [Working] at hworking⟩) (fun _ _ => rfl) fun hzero m _ hother => ?_,
      guarantee_server h rfl rfl rfl nofun (by simp), (history_of_log _ rfl h).1⟩
    have htrue := hs.flag hzero m hother
    rw [hflag] at htrue
    cases htrue

end Server

end MacroKeyboard.Async
