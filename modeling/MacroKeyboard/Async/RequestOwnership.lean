import MacroKeyboard.Async.Ownership
import MacroKeyboard.Threads.Parts

namespace MacroKeyboard.Async

open Threads.Program Threads.Monitor Threads.RelyGuarantee

theorem valid_ending {α : Type} {L : Logic AsyncState} {f : AsyncEnv → AsyncState → α × AsyncState} {P : AsyncState → Prop}
    {Q : α → AsyncState → Prop} (hQ : ∀ a, Stable L (Q a)) (h : Ending L P f Q) : Valid L (Prog.atomic f) P Q :=
  ⟨Q, hQ, h, fun _ _ _ hq => hq⟩

theorem valid_read {α : Type} {thread : Nat} {P : AsyncState → Prop} (hP : Stable (threadLogic thread) P)
    (f : AsyncState → α) : Valid (threadLogic thread) (Prog.read f : AsyncThread α) P (fun _ => P) :=
  valid_atomic (fun _ => hP) fun _ _ hs h => ⟨hs, guarantee_same rfl rfl rfl, h⟩

theorem valid_ask {α : Type} {thread : Nat} {P : AsyncState → Prop} (hP : Stable (threadLogic thread) P)
    (f : AsyncEnv → α) : Valid (threadLogic thread) (Prog.ask f : AsyncThread α) P (fun _ => P) :=
  valid_atomic (fun _ => hP) fun _ _ hs h => ⟨hs, guarantee_same rfl rfl rfl, h⟩

theorem inv_faulted {s : AsyncState} (hs : Inv s) (hqueue : ∀ items, s.asyncQueue ≠ .live items) :
    Inv { s with faulted := true } :=
  ⟨hs.fresh, hs.shaped, hs.waiting, hs.items, hs.late, hs.exited, hs.stopped, hs.flag, hs.single,
    fun _ => hs.stopped (Or.inr (Or.inl hqueue))⟩

section Server

variable {n : Request}

def enqueued (s : AsyncState) (n : Request) : AsyncState :=
  { s with asyncQueue := .live [some n] }.note n (.queued s.workerExited)

theorem inv_enqueued {s : AsyncState} (hs : Inv s) (h : s.history n = begun) (hqueue : s.asyncQueue = .live []) :
    Inv (enqueued s n) := by
  have hlog : (enqueued s n).log = s.log ++ [(n, .queued s.workerExited)] := rfl
  obtain ⟨hself, hsame⟩ := history_of_log _ hlog h
  have hlt : n < s.arrivals := lt_arrivals hs h (by decide)
  have hunreleased : Unreleased (s.history n) := h ▸ (by decide : Unreleased begun)
  refine inv_noted hs h hlog ⟨le_rfl, hlt⟩ rfl rfl (fun hstop => ?_) rfl ?_ (fun m hm => ?_) (fun items hitems => ?_)
    (fun hmem => by simpa [begun] using hmem) (fun hexit => ?_) (fun hzero _ => hs.flag hzero n hunreleased)
    fun hzero m hm hother => absurd (hs.single hzero m n hother hunreleased) hm
  · refine hs.stopped (hstop.imp id (Or.imp (fun hlive => ?_) id))
    exact absurd rfl (hlive [some n])
  · cases s.workerExited with
    | true => exact Or.inr rfl
    | false => exact .of_settled _ (.served true true)
  · by_cases hne : m = n
    · rw [hne]
      rfl
    · have hlive := hs.waiting m (hsame m hne ▸ hm)
      rw [hqueue] at hlive
      cases hlive
  · cases hitems
    exact Or.inr (Or.inr ⟨n, s.workerExited, rfl, hself⟩)
  · rw [hexit]
    exact ⟨by decide, fun hworking => by simp [Working, begun] at hworking⟩

theorem valid_queueSend : Valid (threadLogic 0) (queueSend n) (fun s => s.history n = begun)
    (fun sent s => sent = false → s.history n = begun) := by
  have hstable (sent : Bool) : Stable (threadLogic 0) (fun s : AsyncState => sent = false → s.history n = begun) :=
    fun s s' hs hs' hrely h hsent => stable_server rfl s s' hs hs' hrely (h hsent)
  refine valid_ending hstable fun e s hs h => ?_
  split
  next items hqueue =>
    split
    next hroom =>
      have hempty : items = [] := by
        rw [Bool.and_eq_true, List.isEmpty_iff] at hroom
        exact hroom.2
      rw [hempty] at hqueue
      have hguar : guarantee 0 s (enqueued s n) := guarantee_server h rfl rfl rfl nofun (by decide)
      exact Or.inr ⟨inv_enqueued hs h hqueue, hguar, nofun⟩
    · exact Or.inr ⟨hs, guarantee_same rfl rfl rfl, fun _ => h⟩
  next hqueue => exact Or.inl ⟨rfl, inv_faulted hs fun items hlive => by rw [hqueue] at hlive; cases hlive⟩
  next hqueue => exact Or.inl ⟨rfl, inv_faulted hs fun items hlive => by rw [hqueue] at hlive; cases hlive⟩

theorem valid_abandonClaim {history : List AsyncEvent} (hown : handedOver history = false) (hreceived : .received ∉ history)
    (hclaimed : Unreleased history) (hsettled : ∀ sent, Settled (history ++ [.released, .answered sent])) :
    Valid (threadLogic 0) (abandonClaim n) (fun s => s.history n = history) (fun _ _ => True) := by
  have hafter : handedOver (history ++ [.released]) = false := by rw [handedOver_append, hown]; rfl
  refine valid_bind (valid_server_release hown hreceived hclaimed (.of_settled [.answered true] ?_)) fun _ =>
    valid_answer (by simp) hafter (by simpa using hreceived) fun sent => ?_
  · simpa using hsettled true
  · simpa using hsettled sent

theorem valid_allocateItem : Valid (threadLogic 0) (allocateItem n) (fun s => s.history n = [.arrived, .claimed])
    (fun allocated s => s.history n = if allocated then [.arrived, .claimed, .allocated] else [.arrived, .claimed]) := by
  refine valid_atomic (fun allocated => by cases allocated <;> exact stable_server rfl) fun e s hs h => ?_
  split
  · refine ⟨inv_quiet hs h (by simp) rfl (not_waiting rfl) (.of_settled _ (.unbegun true)), ?_, ?_⟩
    · exact guarantee_server h rfl rfl rfl nofun (by decide)
    · exact (history_note_self s n .allocated).trans (by rw [h]; rfl)
  · exact ⟨hs, guarantee_same rfl rfl rfl, h⟩

theorem valid_asyncHandlerBegin :
    Valid (threadLogic 0) (asyncHandlerBegin n) (fun s => s.history n = [.arrived, .claimed, .allocated])
      (fun begins s => s.history n = if begins then begun else [.arrived, .claimed, .allocated]) := by
  refine valid_atomic (fun begins => by cases begins <;> exact stable_server rfl) fun e s hs h => ?_
  split
  · refine ⟨inv_quiet hs h (by simp) rfl (not_waiting rfl) (.of_settled _ (.unqueued true true)), ?_, ?_⟩
    · exact guarantee_server h rfl rfl rfl nofun (by decide)
    · exact (history_note_self s n .taken).trans (by rw [h]; rfl)
  · exact ⟨hs, guarantee_same rfl rfl rfl, h⟩

theorem valid_unqueued : Valid (threadLogic 0) (do
      answer n
      asyncHandlerComplete n
      freeBody n
      freeItem n
      releaseInFlight n) (fun s => s.history n = begun) (fun _ _ => True) := by
  refine valid_bind (valid_server_noted (by decide) rfl (by decide) (fun _ => rfl) fun e =>
    .of_settled _ (.unqueued e.sent true)) fun _ => valid_exists fun e => ?_
  refine valid_bind (valid_server_noted (by simp) rfl (by simp [begun]) (fun _ => rfl) fun e' =>
    .of_settled _ (.unqueued e.sent e'.completes)) fun _ => valid_exists fun e' => ?_
  refine valid_bind (valid_server_event (by simp) rfl (by simp [begun]) rfl
    (.of_settled _ (.unqueued e.sent e'.completes))) fun _ => ?_
  refine valid_bind (valid_server_event (by simp) rfl (by simp [begun]) rfl
    (.of_settled _ (.unqueued e.sent e'.completes))) fun _ => ?_
  refine (valid_server_release rfl (by simp [begun]) (by simp [Unreleased, begun]) ?_).post fun _ _ _ _ => trivial
  exact .of_settled [] (.unqueued e.sent e'.completes)

/-- Whatever fails, the request that the server's task handles gets a whole history, or
is handed over. -/
theorem valid_dispatch : Valid (threadLogic 0) webServerAsyncDispatch (fun _ => True) (fun _ _ => True) := by
  have harrived {n : Request} : Valid (threadLogic 0) (answer n) (fun s => s.history n = [.arrived]) (fun _ _ => True) :=
    valid_answer (by simp) rfl (by decide) .refused
  refine valid_bind valid_arrive fun n => ?_
  refine valid_bind (valid_read (stable_server rfl) _) fun missing => ?_
  split
  · exact harrived
  refine valid_bind (valid_read (stable_server rfl) _) fun missing => ?_
  split
  · exact harrived
  refine valid_bind valid_claim fun claimed => ?_
  cases claimed with
  | false => exact harrived
  | true =>
    refine valid_bind (valid_ask (stable_server rfl) _) fun bodyResult => ?_
    split
    · exact valid_abandonClaim rfl (by decide) (by decide) .unread
    refine valid_bind valid_allocateItem fun allocated => ?_
    cases allocated with
    | false =>
      refine valid_bind (valid_server_event (by simp) rfl (by decide) rfl ?_) fun _ =>
        valid_abandonClaim rfl (by decide) (by decide) .unallocated
      exact .of_settled _ (.unallocated true)
    | true =>
      refine valid_bind valid_asyncHandlerBegin fun begins => ?_
      cases begins with
      | false =>
        refine valid_bind (valid_server_event (by simp) rfl (by decide) rfl (.of_settled _ (.unbegun true))) fun _ => ?_
        refine valid_bind (valid_server_event (by simp) rfl (by decide) rfl (.of_settled _ (.unbegun true))) fun _ => ?_
        exact valid_abandonClaim rfl (by decide) (by decide) .unbegun
      | true =>
        refine valid_bind valid_queueSend fun sent => ?_
        cases sent with
        | true => exact valid_ret fun _ _ _ => trivial
        | false => exact valid_unqueued.pre fun s _ h => h rfl

end Server

section Worker

variable {n : Request} {history : List AsyncEvent}

def Idle (s : AsyncState) : Prop := s.workerExited = false ∧ ∀ m, ¬ Working (s.history m)

def Busy (n : Request) (history : List AsyncEvent) (s : AsyncState) : Prop :=
  s.workerExited = false ∧ s.history n = history ∧ ∀ m, m ≠ n → ¬ Working (s.history m)

theorem not_working_of_rely {s s' : AsyncState} {other : Nat} (hne : other ≠ 1) (hguar : guarantee other s s') {m : Request}
    (h : ¬ Working (s.history m)) : ¬ Working (s'.history m) := by
  obtain hsame | ⟨-, hreceived⟩ := (hguar.worker hne).2 m
  · rwa [hsame]
  · exact fun hworking => hreceived hworking.1

theorem stable_idle : Stable (threadLogic 1) Idle := by
  rintro s s' - - ⟨other, hne, hguar⟩ ⟨hexited, hidle⟩
  exact ⟨(hguar.worker hne).1.trans hexited, fun m => not_working_of_rely hne hguar (hidle m)⟩

theorem stable_busy (hown : handedOver history = true) : Stable (threadLogic 1) (Busy n history) := by
  rintro s s' - - ⟨other, hne, hguar⟩ ⟨hexited, h, hidle⟩
  refine ⟨(hguar.worker hne).1.trans hexited, ?_, fun m hm => not_working_of_rely hne hguar (hidle m hm)⟩
  obtain hsame | ⟨hnot, -⟩ := (hguar.worker hne).2 n
  · exact hsame.trans h
  · rw [h, hown] at hnot
    cases hnot

theorem stable_exited {thread : Nat} : Stable (threadLogic thread) (fun s : AsyncState => s.workerExited = true) := by
  rintro s s' - - ⟨other, -, hguar⟩ h
  exact hguar.exited h

theorem Busy.note {s : AsyncState} {event : AsyncEvent} (h : Busy n history s) :
    Busy n (history ++ [event]) (s.note n event) := by
  obtain ⟨hself, hsame⟩ := history_of_log (s.note n event) rfl h.2.1
  exact ⟨h.1, hself, fun m hm => hsame m hm ▸ h.2.2 m hm⟩

theorem valid_worker_noted {event : AsyncEnv → AsyncEvent} (hown : handedOver history = true)
    (hreceived : .received ∈ history) (hquiet : ∀ e, (event e).quiet = true)
    (hshaped : ∀ e, Shaped (history ++ [event e])) :
    Valid (threadLogic 1) (noted n event) (Busy n history) (fun _ s => ∃ e, Busy n (history ++ [event e]) s) := by
  have hne : history ≠ [] := fun heq => by
    rw [heq] at hreceived
    exact absurd hreceived List.not_mem_nil
  have hnot (late : Bool) : history ≠ begun ++ [.queued late] := fun heq => by
    rw [heq] at hreceived
    simp [begun] at hreceived
  refine valid_atomic (fun _ => ?_) fun e s hs h => ⟨?_, ?_, e, h.note⟩
  · rintro s s' hs hs' hrely ⟨e, h⟩
    exact ⟨e, stable_busy ((handedOver_quiet (hquiet e)).trans hown) s s' hs hs' hrely h⟩
  · exact inv_quiet hs h.2.1 hne (hquiet e) hnot (hshaped e)
  · exact guarantee_worker h.2.1 hown rfl rfl rfl

theorem valid_worker_event {event : AsyncEvent} (hown : handedOver history = true)
    (hreceived : .received ∈ history) (hquiet : event.quiet = true) (hshaped : Shaped (history ++ [event])) :
    Valid (threadLogic 1) (noted n fun _ => event) (Busy n history) (fun _ => Busy n (history ++ [event])) :=
  (valid_worker_noted hown hreceived (fun _ => hquiet) fun _ => hshaped).post fun _ _ _ ⟨_, h⟩ => h

theorem valid_worker_release (hown : handedOver history = true) (hreceived : .received ∈ history)
    (hclaimed : Unreleased history) (hshaped : Shaped (history ++ [.released])) :
    Valid (threadLogic 1) (releaseInFlight n) (Busy n history) (fun _ => Idle) := by
  have hnot (late : Bool) : history ≠ begun ++ [.queued late] := fun heq => by
    rw [heq] at hreceived
    simp [begun] at hreceived
  refine valid_atomic (fun _ => stable_idle) fun e s hs h => ?_
  refine ⟨inv_released hs h.2.1 hclaimed hnot hshaped, guarantee_worker h.2.1 hown rfl rfl rfl, h.1, fun m => ?_⟩
  obtain ⟨hself, hsame⟩ := history_of_log ({ s with asyncInFlight := false }.note n .released) rfl h.2.1
  by_cases hm : m = n
  · rw [hm, hself]
    exact fun hworking => hworking.2 (by simp)
  · rw [hsame m hm]
    exact h.2.2 m hm

theorem inv_sentinel {s : AsyncState} (hs : Inv s) (h : Idle s) {rest : List (Option Request)}
    (hqueue : s.asyncQueue = .live (none :: rest)) : Inv { s with asyncQueue := .live rest, workerExited := true } ∧
      guarantee 1 s { s with asyncQueue := .live rest, workerExited := true } := by
  have hrest : rest = [] := by
    obtain heq | heq | ⟨m, late, heq, -⟩ := hs.items _ hqueue
    · cases heq
    · exact (List.cons.inj heq).2
    · cases heq
  have hnone (m : Request) : s.history m ≠ begun ++ [.queued false] := fun hm => by
    have hlive := hs.waiting m hm
    rw [hqueue] at hlive
    cases hlive
  constructor
  · exact ⟨hs.fresh, hs.shaped, fun m hm => absurd hm (hnone m), fun items hitems => Or.inl (by cases hitems; exact hrest),
      fun _ _ => rfl, fun _ m => ⟨hnone m, h.2 m⟩, fun _ => rfl, hs.flag, hs.single, fun _ => rfl⟩
  · exact ⟨fun _ => ⟨rfl, fun _ _ => rfl⟩, fun hne => absurd rfl hne, fun _ => rfl⟩

theorem inv_taken {s : AsyncState} (hs : Inv s) (h : Idle s) {rest : List (Option Request)}
    (hqueue : s.asyncQueue = .live (some n :: rest)) :
    Inv ({ s with asyncQueue := .live rest }.note n .received) ∧
      guarantee 1 s ({ s with asyncQueue := .live rest }.note n .received) ∧
      Busy n (begun ++ [.queued false, .received]) ({ s with asyncQueue := .live rest }.note n .received) := by
  obtain ⟨hrest, hwait⟩ : rest = [] ∧ s.history n = begun ++ [.queued false] := by
    obtain heq | heq | ⟨m, late, heq, hm⟩ := hs.items _ hqueue
    · cases heq
    · cases heq
    · cases heq
      refine ⟨rfl, ?_⟩
      cases late with
      | false => exact hm
      | true =>
        have hexited := hs.late n (by rw [hm]; simp)
        rw [h.1] at hexited
        cases hexited
  have hlt : n < s.arrivals := lt_arrivals hs hwait (by decide)
  have hunreleased : Unreleased (s.history n) := hwait ▸ (by decide : Unreleased (begun ++ [.queued false]))
  obtain ⟨hself, hsame⟩ := history_of_log ({ s with asyncQueue := .live rest }.note n .received) rfl hwait
  refine ⟨inv_noted hs hwait rfl ⟨le_rfl, hlt⟩ rfl rfl (fun hstop => ?_) rfl (.of_settled _ (.served true true)) (fun m hm => ?_)
    (fun items hitems => ?_) (fun hmem => ?_) (fun hexit => ?_) (fun hzero _ => hs.flag hzero n hunreleased)
    fun hzero m hm hother => absurd (hs.single hzero m n hother hunreleased) hm,
    guarantee_worker hwait rfl rfl rfl rfl, h.1, hself, fun m hm => ?_⟩
  · refine hs.stopped (hstop.imp id (Or.imp (fun hlive => ?_) id))
    exact absurd rfl (hlive rest)
  · have hne : m ≠ n := fun heq => by
      rw [heq, hself] at hm
      exact absurd hm (by decide)
    have hlive := hs.waiting m (hsame m hne ▸ hm)
    rw [hqueue] at hlive
    cases hlive
    exact absurd rfl hne
  · cases hitems
    exact Or.inl hrest
  · simp [begun] at hmem
  · rw [h.1] at hexit
    cases hexit
  · rw [hsame m hm]
    exact h.2 m

/-- The worker takes an item that was queued while it was there, or the sentinel, with
which no request can be waiting: the queue holds one item. -/
theorem valid_queueReceive : Valid (threadLogic 1) queueReceive Idle (fun item =>
    match item with
    | none => fun s => s.workerExited = true
    | some n => Busy n (begun ++ [.queued false, .received])) := by
  have hstable (item : Option Request) : Stable (threadLogic 1) (match item with
      | none => fun s : AsyncState => s.workerExited = true
      | some n => Busy n (begun ++ [.queued false, .received])) := by
    cases item with
    | none => exact stable_exited
    | some n => exact stable_busy rfl
  refine valid_repeatUntil stable_idle hstable (valid_ending (fun result => ?_) fun e s hs h => ?_)
  · cases result with
    | none => exact stable_idle
    | some item => exact hstable item
  split
  · exact Or.inr ⟨hs, guarantee_same rfl rfl rfl, h⟩
  next rest hqueue =>
    split
    · exact Or.inr ⟨(inv_sentinel hs h hqueue).1, (inv_sentinel hs h hqueue).2, rfl⟩
    · exact Or.inr ⟨hs, guarantee_same rfl rfl rfl, h⟩
  next n rest hqueue =>
    split
    · exact Or.inr (inv_taken hs h hqueue)
    · exact Or.inr ⟨hs, guarantee_same rfl rfl rfl, h⟩
  next hqueue => exact Or.inl ⟨rfl, inv_faulted hs fun items hlive => by rw [hqueue] at hlive; cases hlive⟩
  next hqueue => exact Or.inl ⟨rfl, inv_faulted hs fun items hlive => by rw [hqueue] at hlive; cases hlive⟩

theorem valid_webApiHandleCallWithBody : Valid (threadLogic 1) (webApiHandleCallWithBody n)
    (Busy n (begun ++ [.queued false, .received]))
    (fun _ s => ∃ sent, Busy n (begun ++ [.queued false, .received, .answered sent, .bodyFreed]) s) := by
  refine valid_bind (valid_worker_noted rfl (by decide) (fun _ => rfl) fun e => .of_settled _ (.served e.sent true))
    fun _ => valid_exists fun e => ?_
  refine (valid_worker_event rfl (by simp) rfl (.of_settled _ (.served e.sent true))).post fun _ _ _ h => ?_
  exact ⟨e.sent, h⟩

theorem valid_asyncWorker : Valid (threadLogic 1) asyncWorker Idle (fun _ _ => True) := by
  refine valid_bind (M := fun _ s => s.workerExited = true) (valid_repeatUntil stable_idle (fun _ => stable_exited) ?_)
    fun _ => ?_
  · refine valid_bind valid_queueReceive fun item => ?_
    cases item with
    | none => exact valid_ret fun _ _ h => h
    | some n =>
      refine valid_bind valid_webApiHandleCallWithBody fun _ => valid_exists fun sent => ?_
      refine valid_bind (valid_worker_event rfl (by simp) rfl (.of_settled _ (.served sent true))) fun _ => ?_
      refine valid_bind (valid_worker_noted rfl (by simp [begun]) (fun _ => rfl) fun e =>
        .of_settled _ (.served sent e.completes)) fun _ => valid_exists fun e => ?_
      refine valid_bind (valid_worker_release rfl (by simp [begun]) (by simp [Unreleased, begun]) ?_) fun _ =>
        valid_ret fun _ _ h => h
      exact .of_settled [] (.served sent e.completes)
  · refine (valid_atomic (fun _ => stable_true 1) fun e s hs h => ?_).post fun _ _ _ _ => trivial
    dsimp only
    split
    · exact ⟨⟨hs.fresh, hs.shaped, hs.waiting, hs.items, hs.late, hs.exited, fun _ => h, hs.flag, hs.single, hs.faulted⟩,
        guarantee_same rfl rfl rfl, trivial⟩
    · exact ⟨hs, guarantee_same rfl rfl rfl, trivial⟩

end Worker

section Control

theorem inv_stopping {s : AsyncState} (hs : Inv s) (hqueue : s.asyncQueue = .live []) :
    Inv { s with asyncQueue := .live [none] } := by
  refine ⟨hs.fresh, hs.shaped, fun m hm => ?_, fun items hitems => ?_, hs.late, hs.exited, fun hstop => ?_, hs.flag,
    hs.single, hs.faulted⟩
  · have hlive := hs.waiting m hm
    rw [hqueue] at hlive
    cases hlive
  · cases hitems
    exact Or.inr (Or.inl rfl)
  · refine hs.stopped (hstop.imp id (Or.imp (fun hlive => ?_) id))
    exact absurd rfl (hlive [none])

theorem valid_sendSentinel : Valid (threadLogic 2) sendSentinel (fun _ => True) (fun _ _ => True) := by
  refine valid_repeatUntil (stable_true 2) (fun _ => stable_true 2) (valid_ending (fun result => ?_) fun e s hs _ => ?_)
  · cases result <;> exact stable_true 2
  split
  next hqueue =>
    split
    · exact Or.inr ⟨inv_stopping hs hqueue, guarantee_same rfl rfl rfl, trivial⟩
    · exact Or.inr ⟨hs, guarantee_same rfl rfl rfl, by split <;> trivial⟩
  · exact Or.inr ⟨hs, guarantee_same rfl rfl rfl, by split <;> trivial⟩
  next hqueue => exact Or.inl ⟨rfl, inv_faulted hs fun items hlive => by rw [hqueue] at hlive; cases hlive⟩
  next hqueue => exact Or.inl ⟨rfl, inv_faulted hs fun items hlive => by rw [hqueue] at hlive; cases hlive⟩

theorem valid_takeStopped : Valid (threadLogic 2) takeStopped (fun _ => True) (fun taken =>
    match taken with
    | true => fun s => s.workerExited = true
    | false => fun _ => True) := by
  have hstable (taken : Bool) : Stable (threadLogic 2) (match taken with
      | true => fun s : AsyncState => s.workerExited = true
      | false => fun _ => True) := by
    cases taken with
    | true => exact stable_exited
    | false => exact stable_true 2
  refine valid_repeatUntil (stable_true 2) hstable (valid_atomic (fun result => ?_) fun e s hs _ => ?_)
  · cases result with
    | none => exact stable_true 2
    | some taken => exact hstable taken
  split
  next hgiven =>
    have hexited := hs.stopped (Or.inl hgiven.1)
    exact ⟨⟨hs.fresh, hs.shaped, hs.waiting, hs.items, hs.late, hs.exited, fun _ => hexited, hs.flag, hs.single,
      hs.faulted⟩, guarantee_same rfl rfl rfl, hexited⟩
  · exact ⟨hs, guarantee_same rfl rfl rfl, by split <;> trivial⟩

theorem valid_cleanup {f : AsyncState → AsyncState}
    (hf : ∀ s, Inv s → s.workerExited = true → Inv (f s))
    (hsame : ∀ s, (f s).log = s.log ∧ (f s).arrivals = s.arrivals ∧ (f s).workerExited = s.workerExited) :
    Valid (threadLogic 2) (.atomic fun _ s => ((), f s) : AsyncThread Unit) (fun s => s.workerExited = true)
      (fun _ s => s.workerExited = true) := by
  refine valid_atomic (fun _ => stable_exited) fun e s hs h => ?_
  obtain ⟨hlog, harrivals, hexited⟩ := hsame s
  exact ⟨hf s hs h, guarantee_same hlog harrivals hexited, hexited.trans h⟩

theorem not_waiting_of_exited {s : AsyncState} (hs : Inv s) (h : s.workerExited = true) (m : Request) :
    s.history m ≠ begun ++ [.queued false] := (hs.exited h m).1

theorem valid_stop : Valid (threadLogic 2) webServerAsyncStop (fun _ => True) (fun _ _ => True) := by
  refine valid_bind (valid_read (stable_true 2) _) fun missing => ?_
  split
  · exact valid_ret fun _ _ _ => trivial
  split
  · exact valid_ret fun _ _ _ => trivial
  refine valid_bind valid_sendSentinel fun sent => ?_
  cases sent with
  | false => exact valid_ret fun _ _ _ => trivial
  | true =>
    refine valid_bind valid_takeStopped fun taken => ?_
    cases taken with
    | false => exact valid_ret fun _ _ _ => trivial
    | true =>
      have hdropped {s : AsyncState} (hs : Inv s) (h : s.workerExited = true) {queue : QueueHandle}
          (hqueue : ∀ items, queue ≠ .live items) : Inv { s with asyncQueue := queue } :=
        ⟨hs.fresh, hs.shaped, fun m hm => absurd hm (not_waiting_of_exited hs h m),
          fun items hitems => absurd hitems (hqueue items), hs.late, hs.exited, fun _ => h, hs.flag, hs.single, hs.faulted⟩
      refine valid_bind (valid_cleanup (fun s hs h => ?_) fun _ => ⟨rfl, rfl, rfl⟩) fun _ => ?_
      · exact ⟨hs.fresh, hs.shaped, hs.waiting, hs.items, hs.late, hs.exited, fun _ => h, hs.flag, hs.single, hs.faulted⟩
      refine valid_bind (valid_cleanup (fun s hs h => hdropped hs h nofun) fun _ => ⟨rfl, rfl, rfl⟩) fun _ => ?_
      refine valid_bind (valid_cleanup (fun s hs h => hdropped hs h nofun) fun _ => ⟨rfl, rfl, rfl⟩) fun _ => ?_
      refine valid_bind (valid_cleanup (fun s hs h => ?_) fun _ => ⟨rfl, rfl, rfl⟩) fun _ => ?_
      · exact ⟨hs.fresh, hs.shaped, hs.waiting, hs.items, hs.late, hs.exited, fun _ => h, hs.flag, hs.single, hs.faulted⟩
      refine valid_bind (valid_cleanup (fun s hs h => ?_) fun _ => ⟨rfl, rfl, rfl⟩) fun _ => valid_ret fun _ _ _ => trivial
      exact ⟨hs.fresh, hs.shaped, hs.waiting, hs.items, hs.late, hs.exited, fun _ => h, nofun, nofun, hs.faulted⟩

end Control

section Runs

def beforeStart : Nat → AsyncState → Prop
  | 1 => Idle
  | _ => fun _ => True

theorem valid_forever {thread : Nat} {body : AsyncThread Unit}
    (h : Valid (threadLogic thread) body (fun _ => True) (fun _ _ => True)) :
    Valid (threadLogic thread) (.repeatUntil do body; pure (none : Option Unit)) (fun _ => True) (fun _ _ => True) :=
  valid_repeatUntil (stable_true thread) (fun _ => stable_true thread)
    (valid_bind h fun _ => valid_ret fun _ _ _ => trivial)

theorem valid_task {thread : Nat} {p : AsyncThread Unit} (h : AsyncTask thread p) :
    Valid (threadLogic thread) p (beforeStart thread) (fun _ _ => True) := by
  cases h with
  | server => exact valid_forever valid_dispatch
  | worker => exact valid_asyncWorker
  | control =>
    exact valid_repeatUntil (stable_true 2) (fun _ => stable_true 2)
      (valid_bind valid_stop fun _ => valid_ret fun _ _ _ => trivial)

theorem compatible : Compatible threadLogic Inv (fun s => s.faulted = true ∧ Inv s) beforeStart where
  inv_eq := fun _ => rfl
  halt_eq := fun _ => rfl
  mutual_rely := fun i _ _ _ hij hg => ⟨i, hij, hg⟩
  pre_stable := fun i => by
    match i with
    | 0 => exact stable_true 0
    | 1 => exact stable_idle
    | n + 2 => exact stable_true (n + 2)

theorem history_started (n : Request) : startedState.history n = [] := rfl

theorem inv_started : Inv startedState where
  fresh := fun _ _ => rfl
  shaped := fun _ => .of_settled _ (.refused true)
  waiting := fun n hn => by rw [history_started] at hn; cases hn
  items := fun items hitems => Or.inl (by cases hitems; rfl)
  late := fun n hn => by rw [history_started] at hn; cases hn
  exited := nofun
  stopped := fun h => by
    obtain h | h | h := h
    · cases h
    · exact absurd rfl (h [])
    · cases h
  flag := fun _ n hn => by rw [history_started] at hn; exact absurd hn.1 List.not_mem_nil
  single := fun _ n _ hn _ => by rw [history_started] at hn; exact absurd hn.1 List.not_mem_nil
  faulted := nofun

theorem beforeStart_started (i : Nat) : beforeStart i startedState := by
  match i with
  | 0 => trivial
  | 1 => exact ⟨rfl, fun n hn => absurd hn.1 (by rw [history_started]; exact List.not_mem_nil)⟩
  | n + 2 => trivial

theorem inv_of_reachable {c : Config AsyncState AsyncEnv} (h : Reachable asyncSystem startedState c) : Inv c.state :=
  (invariant_reachable compatible (fun _ ht => ht.1) (fun _ _ hp => valid_task hp) inv_started beforeStart_started h).elim
    (·.2) (·.inv_holds)

end Runs

section Results

def isAnswer : AsyncEvent → Bool
  | .answered _ => true
  | _ => false

def isCompletion : AsyncEvent → Bool
  | .completed _ => true
  | _ => false

/-- Nothing is done twice: answering, completing what was taken over, freeing the body
and the item, and releasing a claim. -/
structure Once (history : List AsyncEvent) : Prop where
  answered : history.countP isAnswer ≤ 1
  completed : history.countP isCompletion ≤ history.count .taken
  body : history.count .bodyFreed ≤ 1
  item : history.count .itemFreed ≤ history.count .allocated
  released : history.count .released ≤ history.count .claimed

instance (history : List AsyncEvent) : Decidable (Once history) :=
  decidable_of_iff (history.countP isAnswer ≤ 1 ∧ history.countP isCompletion ≤ history.count .taken ∧
      history.count .bodyFreed ≤ 1 ∧ history.count .itemFreed ≤ history.count .allocated ∧
      history.count .released ≤ history.count .claimed)
    ⟨fun h => ⟨h.1, h.2.1, h.2.2.1, h.2.2.2.1, h.2.2.2.2⟩, fun h => ⟨h.1, h.2, h.3, h.4, h.5⟩⟩

theorem Settled.once {history : List AsyncEvent} (h : Settled history) : ∀ front ∈ history.inits, Once front := by
  cases h with
  | refused sent => cases sent <;> decide
  | unread sent => cases sent <;> decide
  | unallocated sent => cases sent <;> decide
  | unbegun sent => cases sent <;> decide
  | unqueued sent succeeded => cases sent <;> cases succeeded <;> decide
  | served sent succeeded => cases sent <;> cases succeeded <;> decide

theorem Shaped.once {history : List AsyncEvent} (h : Shaped history) : Once history := by
  obtain ⟨rest, hsettled⟩ | rfl := h
  · exact hsettled.once history ((List.mem_inits _ _).mpr (List.prefix_append history rest))
  · decide

theorem Shaped.handedOver {history : List AsyncEvent} (h : Shaped history) (hover : handedOver history = true)
    (hwaiting : history ≠ begun ++ [.queued false]) (hworking : ¬ Working history) :
    Settled history ∨ history = stranded := by
  obtain ⟨rest, hsettled⟩ | hstranded := h
  · left
    have hmem : history ∈ (history ++ rest).inits := (List.mem_inits _ _).mpr (List.prefix_append history rest)
    generalize history ++ rest = whole at hsettled hmem
    have hall : ∀ front ∈ whole.inits, Async.handedOver front = true → front ≠ begun ++ [.queued false] →
        ¬ Working front → front = whole := by
      cases hsettled with
      | refused sent => cases sent <;> decide
      | unread sent => cases sent <;> decide
      | unallocated sent => cases sent <;> decide
      | unbegun sent => cases sent <;> decide
      | unqueued sent succeeded => cases sent <;> cases succeeded <;> decide
      | served sent succeeded => cases sent <;> cases succeeded <;> decide
    exact hall history hmem hover hwaiting hworking ▸ hsettled
  · exact Or.inr hstranded

end Results

/-- Over every interleaving of the server's task, the worker and any number of stops,
whatever fails: no request is answered, completed, freed or released twice, and its
history is on the way to a whole one unless it was queued after the worker had left.
Until a stop succeeds the in-flight flag belongs to one request at most. Once the worker
has left, which it has when a stop succeeds or the queue is used when it is not there,
every request that was handed over to it is served to the end or was queued too late. -/
theorem request_ownership {c : Config AsyncState AsyncEnv} (h : Reachable asyncSystem startedState c) :
    (∀ n, Once (c.state.history n) ∧ Shaped (c.state.history n)) ∧
    (c.state.flagReset = false → ∀ n m, Unreleased (c.state.history n) → Unreleased (c.state.history m) → n = m) ∧
    (c.state.flagReset = true ∨ c.state.faulted = true → c.state.workerExited = true) ∧
    (c.state.workerExited = true → ∀ n, handedOver (c.state.history n) = true →
      Settled (c.state.history n) ∨ c.state.history n = stranded) := by
  have hinv := inv_of_reachable h
  refine ⟨fun n => ⟨(hinv.shaped n).once, hinv.shaped n⟩, hinv.single, fun hstop => ?_, fun hexited n hover => ?_⟩
  · exact hstop.elim (fun hreset => hinv.stopped (Or.inr (Or.inr hreset))) hinv.faulted
  · exact (hinv.shaped n).handedOver hover (hinv.exited hexited n).1 (hinv.exited hexited n).2

def fineEnv : AsyncEnv where
  platformOk := true
  timedOut := false
  allocates := true
  begins := true
  bodyResult := .none
  sent := true
  completes := true

def turns (task count : Nat) : List (Nat × AsyncEnv) := List.replicate count (task, fineEnv)

/-- The subsystem after a schedule of its tasks. -/
def asyncRun (schedule : List (Nat × AsyncEnv)) : Config AsyncState AsyncEnv :=
  Config.runSchedule asyncSystem.stopped
    ⟨startedState, [.repeatUntil do webServerAsyncDispatch; pure (none : Option Unit), asyncWorker,
      .repeatUntil do let _ ← webServerAsyncStop; pure (none : Option Unit)]⟩ schedule

theorem asyncRun_reachable (schedule : List (Nat × AsyncEnv)) :
    Reachable asyncSystem startedState (asyncRun schedule) := by
  refine reachable_runSchedule ?_ schedule
  have hempty : Reachable asyncSystem startedState ⟨startedState, []⟩ := .init
  refine reachable_start hempty rfl fun i p hp => ?_
  rcases i with _ | _ | _ | i <;> cases hp
  · exact .server
  · exact .worker
  · exact .control

/-- One request is served, and a stop comes between the claim of the next one and its
place in the queue. -/
def stoppedRun : Config AsyncState AsyncEnv :=
  asyncRun (turns 0 9 ++ turns 1 8 ++ turns 0 6 ++ turns 2 4 ++ turns 1 5 ++ turns 0 3 ++ turns 2 7)

theorem request_ownership_stopped :
    stoppedRun.state.flagReset = true ∧
    handedOver (stoppedRun.state.history 0) = true ∧ handedOver (stoppedRun.state.history 1) = true ∧
    ∀ n, handedOver (stoppedRun.state.history n) = true →
      Settled (stoppedRun.state.history n) ∨ stoppedRun.state.history n = stranded := by
  have hreset : stoppedRun.state.flagReset = true := by decide +kernel
  have hresult := request_ownership (c := stoppedRun) (asyncRun_reachable _)
  exact ⟨hreset, by decide +kernel, by decide +kernel, hresult.2.2.2 (hresult.2.2.1 (Or.inl hreset))⟩

end MacroKeyboard.Async
