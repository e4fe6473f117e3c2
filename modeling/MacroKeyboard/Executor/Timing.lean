import MacroKeyboard.Executor.Engine
import MacroKeyboard.Threads.Turns

namespace MacroKeyboard.Executor

open Threads.Turns

abbrev RunTurn : Type := Turn World Env

def eventsOf (turn : RunTurn) : List Event :=
  (turn.after.log.drop turn.before.log.length).map Prod.snd

/-- An action begun: keys pressed, or a delay. -/
inductive Issued
  | keys (modifiers : UInt8) (usages : List UInt8)
  | delay (milliseconds : UInt32)
deriving DecidableEq, Repr

def Event.issued : Event → Option Issued
  | .pressed modifiers usages _ => some (.keys modifiers usages)
  | .timedAction delayMs => some (.delay delayMs)
  | _ => none

def Event.requested : Event → Nat
  | .waited milliseconds _ _ => milliseconds.toNat
  | _ => 0

def Event.published? : Event → Option ExecutionState
  | .published state => some state
  | _ => none

def Event.isWait : Event → Bool
  | .waited _ _ _ => true
  | _ => false

def Event.isPress : Event → Bool
  | .pressed _ _ _ => true
  | _ => false

def issuedOf (turn : RunTurn) : List Issued := (eventsOf turn).filterMap Event.issued

def requestedOf (turn : RunTurn) : Nat := ((eventsOf turn).map Event.requested).sum

def publishedOf (turn : RunTurn) : List ExecutionState := (eventsOf turn).filterMap Event.published?

def waits (turn : RunTurn) : Bool := (eventsOf turn).any Event.isWait

def presses (turn : RunTurn) : Bool := (eventsOf turn).any Event.isPress

def issued (turns : List RunTurn) : List Issued := turns.flatMap issuedOf

def requested (turns : List RunTurn) : Nat := (turns.map requestedOf).sum

def published (turns : List RunTurn) : List ExecutionState := turns.flatMap publishedOf

@[simp] theorem issued_nil : issued [] = [] := rfl
@[simp] theorem requested_nil : requested [] = 0 := rfl
@[simp] theorem published_nil : published [] = [] := rfl

@[simp] theorem issued_cons (turn : RunTurn) (rest : List RunTurn) :
    issued (turn :: rest) = issuedOf turn ++ issued rest := rfl

@[simp] theorem requested_cons (turn : RunTurn) (rest : List RunTurn) :
    requested (turn :: rest) = requestedOf turn + requested rest := by
  simp [requested]

@[simp] theorem published_cons (turn : RunTurn) (rest : List RunTurn) :
    published (turn :: rest) = publishedOf turn ++ published rest := rfl

@[simp] theorem issued_append (first second : List RunTurn) :
    issued (first ++ second) = issued first ++ issued second := List.flatMap_append

@[simp] theorem requested_append (first second : List RunTurn) :
    requested (first ++ second) = requested first + requested second := by
  simp [requested]

@[simp] theorem published_append (first second : List RunTurn) :
    published (first ++ second) = published first ++ published second := List.flatMap_append

/-- The time that passes beyond the waits asked for. -/
def overshoot : List RunTurn → Nat
  | [] => 0
  | turn :: rest =>
    match rest with
    | [] => 0
    | next :: _ => next.time - turn.time - requestedOf turn + overshoot rest

/-- The time that passes outside the waits. -/
def ownTime : List RunTurn → Nat
  | [] => 0
  | turn :: rest =>
    match rest with
    | [] => 0
    | next :: _ => (if waits turn then 0 else next.time - turn.time) + ownTime rest

def WaitsWithin (longest : Nat) (turns : List RunTurn) : Prop :=
  turns.IsChain (fun turn next => waits turn → next.time - turn.time ≤ longest)

/-- Time does not run backwards, and every step that reads the clock finds the
time in its 32 bits, counted from `start`. -/
def Clocked (start : UInt32) (turns : List RunTurn) : Prop :=
  turns.IsChain (fun turn next => turn.time ≤ next.time) ∧
    ∀ turn ∈ turns, turn.answer.nowMs = start + UInt32.ofNat turn.time

instance (longest : Nat) (turns : List RunTurn) : Decidable (WaitsWithin longest turns) :=
  inferInstanceAs (Decidable (turns.IsChain _))

instance (start : UInt32) (turns : List RunTurn) : Decidable (Clocked start turns) :=
  inferInstanceAs (Decidable (turns.IsChain _ ∧ ∀ turn ∈ turns, _))

theorem Clocked.tail {start : UInt32} {turn : RunTurn} {rest : List RunTurn} (h : Clocked start (turn :: rest)) :
    Clocked start rest :=
  ⟨h.1.tail, fun next hmem => h.2 next (List.mem_cons_of_mem _ hmem)⟩

theorem Clocked.le_of_mem {start : UInt32} {turn : RunTurn} {rest : List RunTurn}
    (h : Clocked start (turn :: rest)) : ∀ next ∈ rest, turn.time ≤ next.time := by
  induction rest generalizing turn with
  | nil => exact fun _ hmem => absurd hmem List.not_mem_nil
  | cons next rest ih =>
    have hfirst : turn.time ≤ next.time := (List.isChain_cons_cons.mp h.1).1
    rw [List.forall_mem_cons]
    exact ⟨hfirst, fun other hmem => le_trans hfirst (ih h.tail other hmem)⟩

theorem elapsed_le {start : UInt32} {turn : RunTurn} {rest : List RunTurn} (h : Clocked start (turn :: rest)) :
    ∀ next ∈ turn :: rest,
      next.time ≤ turn.time + requested (turn :: rest) + overshoot (turn :: rest) := by
  induction rest generalizing turn with
  | nil =>
    intro next hmem
    rw [List.mem_singleton.mp hmem]
    omega
  | cons second rest ih =>
    intro next hmem
    have hfirst : turn.time ≤ second.time := (List.isChain_cons_cons.mp h.1).1
    rw [requested_cons, overshoot]
    cases hmem with
    | head => omega
    | tail _ hmem =>
      have hnext := ih h.tail next hmem
      omega

def deadlineFrom (started : UInt32) : UInt32 := started + Limits.executorAbsoluteDeadlineMs

def inTime (deadline : UInt32) (turn : RunTurn) : Bool := !deadlineExpired turn.answer.nowMs deadline

theorem deadlineExpired_elapsed (start : UInt32) (origin elapsed : Nat) :
    deadlineExpired (start + UInt32.ofNat (origin + elapsed)) (deadlineFrom (start + UInt32.ofNat origin)) =
      decide ((elapsed + (2 ^ 32 - 310000)) % 2 ^ 32 < 2 ^ 31) := by
  have hlimit : Limits.executorAbsoluteDeadlineMs.toNat = 310000 := by decide
  have hstart := start.toNat_lt
  unfold deadlineExpired deadlineFrom
  rw [UInt32.toNat_sub, UInt32.toNat_add, UInt32.toNat_add, UInt32.toNat_add, hlimit,
    UInt32.toNat_ofNat', UInt32.toNat_ofNat']
  have heq : (2 ^ 32 - ((start.toNat + origin % 2 ^ 32) % 2 ^ 32 + 310000) % 2 ^ 32 +
      (start.toNat + (origin + elapsed) % 2 ^ 32) % 2 ^ 32) % 2 ^ 32 = (elapsed + (2 ^ 32 - 310000)) % 2 ^ 32 := by
    omega
  rw [heq]

theorem inTime_of_early {start : UInt32} {origin : Nat} {turn : RunTurn}
    (hclock : turn.answer.nowMs = start + UInt32.ofNat turn.time) (hle : origin ≤ turn.time)
    (h : turn.time < origin + 310000) : inTime (deadlineFrom (start + UInt32.ofNat origin)) turn = true := by
  obtain ⟨elapsed, htime⟩ := Nat.exists_eq_add_of_le hle
  have hlate : ¬ (elapsed + (2 ^ 32 - 310000)) % 2 ^ 32 < 2 ^ 31 := by omega
  rw [inTime, hclock, htime, deadlineExpired_elapsed, decide_eq_false hlate, Bool.not_false]

/-- A step that finds the deadline ahead is early, unless the comparison has
wrapped around. -/
theorem early_of_inTime {start : UInt32} {origin : Nat} {turn : RunTurn}
    (hclock : turn.answer.nowMs = start + UInt32.ofNat turn.time) (hle : origin ≤ turn.time)
    (hwrap : turn.time < origin + 310000 + 2 ^ 31)
    (h : inTime (deadlineFrom (start + UInt32.ofNat origin)) turn = true) : turn.time < origin + 310000 := by
  obtain ⟨elapsed, htime⟩ := Nat.exists_eq_add_of_le hle
  rw [inTime, hclock, htime, deadlineExpired_elapsed, Bool.not_eq_true', decide_eq_false_iff_not] at h
  omega

/-- Every wait and every press comes after a step that found the deadline
ahead, with no wait in between. `fresh` tells whether there has been such a
step before the first of the turns. -/
def Guarded (deadline : UInt32) : Bool → List RunTurn → Prop
  | _, [] => True
  | fresh, turn :: rest =>
    ((waits turn || presses turn) → (fresh || inTime deadline turn)) ∧
      Guarded deadline ((fresh || inTime deadline turn) && !waits turn) rest

theorem Guarded.fresh {deadline : UInt32} {fresh other : Bool} {turns : List RunTurn}
    (h : Guarded deadline fresh turns) (hle : fresh → other) : Guarded deadline other turns := by
  induction turns generalizing fresh other with
  | nil => trivial
  | cons turn rest ih =>
    refine ⟨fun hacts => ?_, ih h.2 ?_⟩
    · have hfresh := h.1 hacts
      rw [Bool.or_eq_true] at hfresh ⊢
      exact hfresh.imp_left hle
    · simp only [Bool.and_eq_true, Bool.or_eq_true]
      exact fun hboth => ⟨hboth.1.imp_left hle, hboth.2⟩

theorem guarded_append {deadline : UInt32} {fresh : Bool} {first second : List RunTurn}
    (hfirst : Guarded deadline fresh first) (hsecond : Guarded deadline false second) :
    Guarded deadline fresh (first ++ second) := by
  induction first generalizing fresh with
  | nil => exact hsecond.fresh (fun h => absurd h Bool.false_ne_true)
  | cons turn rest ih => exact ⟨hfirst.1, ih hfirst.2⟩

theorem early_of_fresh {start : UInt32} {origin longest spent : Nat} {fresh : Bool} {turn : RunTurn}
    (hread : turn.answer.nowMs = start + UInt32.ofNat turn.time) (horigin : origin ≤ turn.time)
    (hlongest : longest + spent ≤ 2 ^ 31)
    (hnow : turn.time < origin + 310000 + spent + (if fresh then 0 else longest))
    (h : (fresh || inTime (deadlineFrom (start + UInt32.ofNat origin)) turn) = true) :
    turn.time < origin + 310000 + spent := by
  rw [Bool.or_eq_true] at h
  rcases h with hfresh | hahead
  · rwa [if_pos hfresh, Nat.add_zero] at hnow
  · have hwrap : turn.time < origin + 310000 + 2 ^ 31 := by
      split_ifs at hnow <;> omega
    have htime := early_of_inTime hread horigin hwrap hahead
    omega

/-- In a guarded run no key goes down later than the deadline and the time of
its own steps allow, when no wait is so long that the comparison wraps around. -/
theorem press_early {start : UInt32} {origin longest spent : Nat} {fresh : Bool} {turn : RunTurn} {rest : List RunTurn}
    (hguarded : Guarded (deadlineFrom (start + UInt32.ofNat origin)) fresh (turn :: rest))
    (hclock : Clocked start (turn :: rest)) (hwaits : WaitsWithin longest (turn :: rest))
    (hlongest : longest + spent + ownTime (turn :: rest) ≤ 2 ^ 31) (horigin : origin ≤ turn.time)
    (hnow : turn.time < origin + 310000 + spent + (if fresh then 0 else longest)) :
    ∀ next ∈ turn :: rest, presses next →
      next.time < origin + 310000 + spent + ownTime (turn :: rest) := by
  induction rest generalizing turn fresh spent with
  | nil =>
    intro next hmem hpress
    rw [List.mem_singleton.mp hmem] at hpress ⊢
    have hfresh := hguarded.1 (by rw [hpress, Bool.or_true])
    have htime := early_of_fresh (hclock.2 turn List.mem_cons_self) horigin (by omega) hnow hfresh
    omega
  | cons second rest ih =>
    have hstep : turn.time ≤ second.time := (List.isChain_cons_cons.mp hclock.1).1
    have hearly := early_of_fresh (hclock.2 turn List.mem_cons_self) horigin (by omega) hnow
    intro next hmem hpress
    cases hmem with
    | head =>
      have htime := hearly (hguarded.1 (by rw [hpress, Bool.or_true]))
      omega
    | tail _ hmem =>
      by_cases hw : waits turn
      · -- the wait takes the time, and the next look at the deadline is not yet fresh
        have hwait : second.time - turn.time ≤ longest := (List.isChain_cons_cons.mp hwaits).1 hw
        have hbefore := hearly (hguarded.1 (by rw [hw, Bool.true_or]))
        have hrest := hguarded.2
        rw [hw, Bool.not_true, Bool.and_false] at hrest
        rw [ownTime, if_pos hw, Nat.zero_add] at hlongest ⊢
        exact ih hrest hclock.tail hwaits.tail hlongest (by omega) (by rw [if_neg Bool.false_ne_true]; omega)
          next hmem hpress
      · -- the step's own time is spent, and the look at the deadline stays fresh
        have hrest := hguarded.2
        rw [Bool.eq_false_of_not_eq_true hw, Bool.not_false, Bool.and_true] at hrest
        rw [ownTime, if_neg hw] at hlongest ⊢
        have hlater : second.time < origin + 310000 + (spent + (second.time - turn.time)) +
            (if (fresh || inTime (deadlineFrom (start + UInt32.ofNat origin)) turn) then 0 else longest) := by
          split_ifs with hfresh
          · have htime := hearly hfresh
            omega
          · have hstale : ¬ fresh = true := fun h => hfresh (by rw [h, Bool.true_or])
            rw [if_neg hstale] at hnow
            omega
        have hnext := ih hrest hclock.tail hwaits.tail (by omega) (by omega) hlater next hmem hpress
        omega

end MacroKeyboard.Executor
