import MacroKeyboard.Executor.Timing

namespace MacroKeyboard.Executor

open Threads.Program Threads.Turns

/-- Nothing goes wrong in the step, and no cancellation is asked for. -/
structure Faultless (turn : RunTurn) : Prop where
  lockOk : turn.answer.lockOk = true
  unlockOk : turn.answer.unlockOk = true
  succeeds : turn.answer.result = .none
  notCancelled : turn.before.engine.cancellationRequested = false

/-- The step would find the deadline ahead, and the platform does not answer
that it timed out. -/
def Punctual (deadline : UInt32) (turn : RunTurn) : Prop :=
  inTime deadline turn = true ∧ turn.answer.result ≠ .timeout

/-- An event that begins no action, waits for nothing and shows no other state
than running. -/
def Event.quiet : Event → Bool
  | .pressed _ _ _ | .timedAction _ | .waited _ _ _ => false
  | .published state => state == .running
  | _ => true

def Quiet (turn : RunTurn) : Prop := ∀ event ∈ eventsOf turn, event.quiet = true

theorem eventsOf_same {turn : RunTurn} (h : turn.after.log = turn.before.log) : eventsOf turn = [] := by
  rw [eventsOf, h, List.drop_length, List.map_nil]

theorem eventsOf_note {turn : RunTurn} {t : Ticket} {event : Event}
    (h : turn.after.log = turn.before.log ++ [(t, event)]) : eventsOf turn = [event] := by
  rw [eventsOf, h, List.drop_left, List.map_singleton]

theorem quiet_same {turn : RunTurn} (h : turn.after.log = turn.before.log) : Quiet turn := by
  rw [Quiet, eventsOf_same h]
  exact fun _ hmem => absurd hmem List.not_mem_nil

theorem quiet_note {turn : RunTurn} {t : Ticket} {event : Event}
    (h : turn.after.log = turn.before.log ++ [(t, event)]) (hquiet : event.quiet = true) : Quiet turn := by
  rw [Quiet, eventsOf_note h, List.forall_mem_singleton]
  exact hquiet

theorem Event.quiet_facts {event : Event} (h : event.quiet = true) : event.issued = none ∧
    event.requested = 0 ∧ event.isWait = false ∧ event.isPress = false ∧
    ∀ state, event.published? = some state → state = .running := by
  cases event with
  | pressed modifiers usages result => cases h
  | timedAction delayMs => cases h
  | waited milliseconds wokenBy result => cases h
  | published state =>
    refine ⟨rfl, rfl, rfl, rfl, ?_⟩
    intro shown hshown
    cases hshown
    exact eq_of_beq h
  | _ => exact ⟨rfl, rfl, rfl, rfl, fun _ hshown => by cases hshown⟩

namespace Quiet

variable {turn : RunTurn}

theorem issuedOf (h : Quiet turn) : issuedOf turn = [] :=
  List.filterMap_eq_nil_iff.mpr fun event hmem => (Event.quiet_facts (h event hmem)).1

theorem requestedOf (h : Quiet turn) : requestedOf turn = 0 := by
  apply List.sum_eq_zero
  intro milliseconds hmem
  obtain ⟨event, hevent, rfl⟩ := List.mem_map.mp hmem
  exact (Event.quiet_facts (h event hevent)).2.1

theorem waits (h : Quiet turn) : waits turn = false :=
  List.any_eq_false.mpr fun event hmem => by rw [(Event.quiet_facts (h event hmem)).2.2.1]; exact Bool.false_ne_true

theorem presses (h : Quiet turn) : presses turn = false :=
  List.any_eq_false.mpr fun event hmem => by
    rw [(Event.quiet_facts (h event hmem)).2.2.2.1]
    exact Bool.false_ne_true

theorem publishedOf (h : Quiet turn) : ∀ state ∈ publishedOf turn, state = .running := by
  intro state hmem
  obtain ⟨event, hevent, hshown⟩ := List.mem_filterMap.mp hmem
  exact (Event.quiet_facts (h event hevent)).2.2.2.2 state hshown

end Quiet

section QuietTurns

variable {turns : List RunTurn}

theorem issued_quiet (h : ∀ turn ∈ turns, Quiet turn) : issued turns = [] :=
  List.flatMap_eq_nil_iff.mpr fun turn hmem => (h turn hmem).issuedOf

theorem requested_quiet (h : ∀ turn ∈ turns, Quiet turn) : requested turns = 0 := by
  apply List.sum_eq_zero
  intro milliseconds hmem
  obtain ⟨turn, hturn, rfl⟩ := List.mem_map.mp hmem
  exact (h turn hturn).requestedOf

theorem published_quiet (h : ∀ turn ∈ turns, Quiet turn) : ∀ state ∈ published turns, state = .running := by
  intro state hmem
  obtain ⟨turn, hturn, hshown⟩ := List.mem_flatMap.mp hmem
  exact (h turn hturn).publishedOf state hshown

theorem guarded_quiet {deadline : UInt32} {fresh : Bool} (h : ∀ turn ∈ turns, Quiet turn) :
    Guarded deadline fresh turns := by
  induction turns generalizing fresh with
  | nil => trivial
  | cons turn rest ih =>
    obtain ⟨hturn, hrest⟩ := List.forall_mem_cons.mp h
    refine ⟨fun hacts => ?_, ih hrest⟩
    rw [hturn.waits, hturn.presses] at hacts
    cases hacts

end QuietTurns

/-- What a part of a run does towards the actions it is to begin and the time it
is to wait, when its steps find this deadline. -/
structure Performs (deadline : UInt32) (fresh : Bool) (planned : List Issued) (cost : Nat)
    (turns : List RunTurn) (result : Except AppError Unit) : Prop where
  issued_prefix : issued turns <+: planned
  requested_le : requested turns ≤ cost
  completed : result = .ok () → issued turns = planned ∧ requested turns = cost
  faultless : (∀ turn ∈ turns, Faultless turn) → result = .ok () ∨ result = .error .timeout
  punctual : (∀ turn ∈ turns, Punctual deadline turn) → result ≠ .error .timeout
  guarded : Guarded deadline fresh turns
  shows : ∀ state ∈ published turns, state = .running

namespace Performs

variable {deadline : UInt32} {fresh : Bool} {planned later : List Issued} {cost more : Nat}
  {turn : RunTurn} {turns rest : List RunTurn} {result : Except AppError Unit}

theorem done : Performs deadline fresh [] 0 [] (.ok ()) where
  issued_prefix := List.prefix_rfl
  requested_le := le_refl _
  completed := fun _ => ⟨rfl, rfl⟩
  faultless := fun _ => Or.inl rfl
  punctual := fun _ h => by cases h
  guarded := trivial
  shows := fun _ hmem => absurd hmem List.not_mem_nil

theorem cons (hquiet : Quiet turn)
    (h : Performs deadline (fresh || inTime deadline turn) planned cost rest result) :
    Performs deadline fresh planned cost (turn :: rest) result where
  issued_prefix := by
    rw [issued_cons, hquiet.issuedOf]
    exact h.issued_prefix
  requested_le := by
    rw [requested_cons, hquiet.requestedOf, Nat.zero_add]
    exact h.requested_le
  completed := by
    rw [issued_cons, hquiet.issuedOf, requested_cons, hquiet.requestedOf, Nat.zero_add]
    exact h.completed
  faultless := fun hall => h.faultless (List.forall_mem_cons.mp hall).2
  punctual := fun hall => h.punctual (List.forall_mem_cons.mp hall).2
  guarded := by
    refine ⟨fun hacts => ?_, ?_⟩
    · rw [hquiet.waits, hquiet.presses] at hacts
      cases hacts
    · rw [hquiet.waits, Bool.not_false, Bool.and_true]
      exact h.guarded
  shows := by
    rw [published_cons]
    intro state hmem
    exact (List.mem_append.mp hmem).elim (hquiet.publishedOf state) (h.shows state)

theorem failed {error : AppError} (hquiet : ∀ turn ∈ turns, Quiet turn)
    (hfault : (∀ turn ∈ turns, Faultless turn) → error = .timeout)
    (hpunctual : (∀ turn ∈ turns, Punctual deadline turn) → error ≠ .timeout) :
    Performs deadline fresh planned cost turns (.error error) where
  issued_prefix := by
    rw [issued_quiet hquiet]
    exact List.nil_prefix
  requested_le := by
    rw [requested_quiet hquiet]
    exact Nat.zero_le _
  completed := fun h => by cases h
  faultless := fun hall => Or.inr (congrArg Except.error (hfault hall))
  punctual := fun hall h => hpunctual hall (Except.error.inj h)
  guarded := guarded_quiet hquiet
  shows := published_quiet hquiet

theorem append (hfirst : Performs deadline fresh planned cost turns (.ok ()))
    (hsecond : Performs deadline false later more rest result) :
    Performs deadline fresh (planned ++ later) (cost + more) (turns ++ rest) result where
  issued_prefix := by
    rw [issued_append, (hfirst.completed rfl).1]
    exact (List.prefix_append_right_inj planned).mpr hsecond.issued_prefix
  requested_le := by
    rw [requested_append]
    exact Nat.add_le_add hfirst.requested_le hsecond.requested_le
  completed := by
    intro h
    rw [issued_append, requested_append, (hfirst.completed rfl).1, (hfirst.completed rfl).2,
      (hsecond.completed h).1, (hsecond.completed h).2]
    exact ⟨rfl, rfl⟩
  faultless := fun hall => hsecond.faultless (List.forall_mem_append.mp hall).2
  punctual := fun hall => hsecond.punctual (List.forall_mem_append.mp hall).2
  guarded := guarded_append hfirst.guarded hsecond.guarded
  shows := by
    rw [published_append, List.forall_mem_append]
    exact ⟨hfirst.shows, hsecond.shows⟩

theorem stopped {error : AppError} (h : Performs deadline fresh planned cost turns (.error error)) :
    Performs deadline fresh (planned ++ later) (cost + more) turns (.error error) where
  issued_prefix := h.issued_prefix.trans (List.prefix_append planned later)
  requested_le := h.requested_le.trans (Nat.le_add_right _ _)
  completed := fun hok => by cases hok
  faultless := h.faultless
  punctual := h.punctual
  guarded := h.guarded
  shows := h.shows

theorem quieted (h : Performs deadline fresh planned cost turns result) (hquiet : ∀ turn ∈ rest, Quiet turn) :
    Performs deadline fresh planned cost (turns ++ rest) result where
  issued_prefix := by
    rw [issued_append, issued_quiet hquiet, List.append_nil]
    exact h.issued_prefix
  requested_le := by
    rw [requested_append, requested_quiet hquiet, Nat.add_zero]
    exact h.requested_le
  completed := by
    rw [issued_append, issued_quiet hquiet, List.append_nil, requested_append, requested_quiet hquiet, Nat.add_zero]
    exact h.completed
  faultless := fun hall => h.faultless (List.forall_mem_append.mp hall).1
  punctual := fun hall => h.punctual (List.forall_mem_append.mp hall).1
  guarded := guarded_append h.guarded (guarded_quiet hquiet)
  shows := by
    rw [published_append, List.forall_mem_append]
    exact ⟨h.shows, published_quiet hquiet⟩

theorem press {modifiers : UInt8} {usages : List UInt8} {answer : AppError}
    (hevents : eventsOf turn = [.pressed modifiers usages answer])
    (h : Performs deadline true planned cost rest result) :
    Performs deadline true (.keys modifiers usages :: planned) cost (turn :: rest) result where
  issued_prefix := by
    rw [issued_cons, issuedOf, hevents]
    exact List.cons_prefix_cons.mpr ⟨rfl, h.issued_prefix⟩
  requested_le := by
    rw [requested_cons, requestedOf, hevents]
    exact (Nat.zero_add _).trans_le h.requested_le
  completed := by
    intro hok
    rw [issued_cons, requested_cons, issuedOf, requestedOf, hevents, (h.completed hok).1, (h.completed hok).2]
    exact ⟨rfl, Nat.zero_add _⟩
  faultless := fun hall => h.faultless (List.forall_mem_cons.mp hall).2
  punctual := fun hall => h.punctual (List.forall_mem_cons.mp hall).2
  guarded := by
    refine ⟨fun _ => rfl, ?_⟩
    rw [waits, hevents]
    exact h.guarded
  shows := by
    rw [published_cons, publishedOf, hevents]
    exact h.shows

theorem delay {milliseconds : UInt32} (hevents : eventsOf turn = [.timedAction milliseconds])
    (h : Performs deadline false planned cost rest result) :
    Performs deadline fresh (.delay milliseconds :: planned) cost (turn :: rest) result where
  issued_prefix := by
    rw [issued_cons, issuedOf, hevents]
    exact List.cons_prefix_cons.mpr ⟨rfl, h.issued_prefix⟩
  requested_le := by
    rw [requested_cons, requestedOf, hevents]
    exact (Nat.zero_add _).trans_le h.requested_le
  completed := by
    intro hok
    rw [issued_cons, requested_cons, issuedOf, requestedOf, hevents, (h.completed hok).1, (h.completed hok).2]
    exact ⟨rfl, Nat.zero_add _⟩
  faultless := fun hall => h.faultless (List.forall_mem_cons.mp hall).2
  punctual := fun hall => h.punctual (List.forall_mem_cons.mp hall).2
  guarded := by
    refine ⟨?_, h.guarded.fresh fun hfalse => absurd hfalse Bool.false_ne_true⟩
    rw [waits, presses, hevents]
    exact fun hacts => by cases hacts
  shows := by
    rw [published_cons, publishedOf, hevents]
    exact h.shows

theorem wait {milliseconds : UInt32} {wokenBy : List Ticket} {answer : AppError}
    (hevents : eventsOf turn = [.waited milliseconds wokenBy answer])
    (hfresh : (fresh || inTime deadline turn) = true)
    (h : Performs deadline false planned cost rest result) :
    Performs deadline fresh planned (milliseconds.toNat + cost) (turn :: rest) result where
  issued_prefix := by
    rw [issued_cons, issuedOf, hevents]
    exact h.issued_prefix
  requested_le := by
    rw [requested_cons, requestedOf, hevents]
    exact Nat.add_le_add_left h.requested_le _
  completed := by
    intro hok
    rw [issued_cons, requested_cons, issuedOf, requestedOf, hevents, (h.completed hok).1, (h.completed hok).2]
    exact ⟨rfl, rfl⟩
  faultless := fun hall => h.faultless (List.forall_mem_cons.mp hall).2
  punctual := fun hall => h.punctual (List.forall_mem_cons.mp hall).2
  guarded := by
    refine ⟨fun _ => hfresh, ?_⟩
    rw [waits, hevents]
    exact h.guarded.fresh fun hfalse => absurd hfalse Bool.false_ne_true
  shows := by
    rw [published_cons, publishedOf, hevents]
    exact h.shows

theorem waitFailed {milliseconds : UInt32} {wokenBy : List Ticket}
    (hevents : eventsOf turn = [.waited milliseconds wokenBy turn.answer.result])
    (hfresh : (fresh || inTime deadline turn) = true) (hfault : turn.answer.result ≠ .none) :
    Performs deadline fresh planned (milliseconds.toNat + cost) [turn] (.error turn.answer.result) where
  issued_prefix := by
    rw [issued_cons, issuedOf, hevents]
    exact List.nil_prefix
  requested_le := by
    rw [requested_cons, requestedOf, hevents]
    exact Nat.add_le_add_left (Nat.zero_le _) _
  completed := fun h => by cases h
  faultless := fun hall => absurd (hall turn List.mem_cons_self).succeeds hfault
  punctual := fun hall h => (hall turn List.mem_cons_self).2 (Except.error.inj h)
  guarded := ⟨fun _ => hfresh, trivial⟩
  shows := by
    rw [published_cons, publishedOf, hevents]
    exact fun _ hmem => absurd hmem List.not_mem_nil

theorem pressFailed {modifiers : UInt8} {usages : List UInt8}
    (hevents : eventsOf turn = [.pressed modifiers usages turn.answer.result])
    (hfault : turn.answer.result ≠ .none) :
    Performs deadline true (.keys modifiers usages :: planned) cost [turn] (.error turn.answer.result) where
  issued_prefix := by
    rw [issued_cons, issuedOf, hevents]
    exact List.cons_prefix_cons.mpr ⟨rfl, List.nil_prefix⟩
  requested_le := by
    rw [requested_cons, requestedOf, hevents]
    exact Nat.zero_le _
  completed := fun h => by cases h
  faultless := fun hall => absurd (hall turn List.mem_cons_self).succeeds hfault
  punctual := fun hall h => (hall turn List.mem_cons_self).2 (Except.error.inj h)
  guarded := ⟨fun _ => rfl, trivial⟩
  shows := by
    rw [published_cons, publishedOf, hevents]
    exact fun _ hmem => absurd hmem List.not_mem_nil

theorem freshen (h : Performs deadline false planned cost turns result) :
    Performs deadline fresh planned cost turns result :=
  { h with guarded := h.guarded.fresh fun hfalse => absurd hfalse Bool.false_ne_true }

end Performs

end MacroKeyboard.Executor
