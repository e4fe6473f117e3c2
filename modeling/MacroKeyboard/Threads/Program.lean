import Mathlib

namespace Threads.Program

/-- A sequential thread over a shared state `σ`. An `act` is one indivisible
step whose outcome may depend on an answer of the environment; a `loop` repeats
its body until the body yields a value. -/
inductive Prog (σ ε : Type) : Type → Type 1
  | ret {α : Type} (a : α) : Prog σ ε α
  | act {α β : Type} (f : ε → σ → β × σ) (k : β → Prog σ ε α) : Prog σ ε α
  | loop {α β : Type} (body : Prog σ ε (Option β)) (k : β → Prog σ ε α) : Prog σ ε α

variable {σ ε α β : Type}

namespace Prog

def bind : Prog σ ε α → (α → Prog σ ε β) → Prog σ ε β
  | .ret a, g => g a
  | .act f k, g => .act f (fun b => (k b).bind g)
  | .loop body k, g => .loop body (fun b => (k b).bind g)

instance : Monad (Prog σ ε) where
  pure := .ret
  bind := .bind

def atomic (f : ε → σ → α × σ) : Prog σ ε α := .act f .ret

def ask (f : ε → α) : Prog σ ε α := atomic (fun e s => (f e, s))

def read (f : σ → α) : Prog σ ε α := atomic (fun _ s => (f s, s))

/-- Repeat `body` until it yields a value. -/
def repeatUntil (body : Prog σ ε (Option α)) : Prog σ ε α := .loop body .ret

/-- One step of a thread: an action is performed, a loop is unrolled once. -/
def step (e : ε) : Prog σ ε α → σ → Prog σ ε α × σ
  | .ret a, s => (.ret a, s)
  | .act f k, s => (k (f e s).1, (f e s).2)
  | .loop body k, s =>
    (body.bind (fun result =>
      match result with
      | none => .loop body k
      | some b => k b), s)

/-- The programs of a list, one after the other. -/
def inTurn {ι : Type} (program : ι → Prog σ ε Unit) : List ι → Prog σ ε Unit
  | [] => .ret ()
  | item :: rest => (program item).bind fun _ => inTurn program rest

/-- A program over a part of the state, run within the whole. -/
def zoom {τ δ : Type} (surroundings : ε → δ) (get : σ → τ) (set : τ → σ → σ) {α : Type} : Prog τ δ α → Prog σ ε α
  | .ret a => .ret a
  | .act f k =>
    .act (fun e s => ((f (surroundings e) (get s)).1, set (f (surroundings e) (get s)).2 s))
      (fun b => (k b).zoom surroundings get set)
  | .loop body k => .loop (body.zoom surroundings get set) (fun b => (k b).zoom surroundings get set)

@[simp] theorem pure_eq (a : α) : (pure a : Prog σ ε α) = .ret a := rfl

@[simp] theorem bind_eq (p : Prog σ ε α) (g : α → Prog σ ε β) : p >>= g = p.bind g := rfl

end Prog

/-- A shared state and the threads that run over it. -/
structure Config (σ ε : Type) where
  state : σ
  threads : List (Prog σ ε Unit)

/-- A system of threads: the programs that thread number `i` may run, and the
states in which it has stopped for good. -/
structure System (σ ε : Type) where
  mayStart : Nat → Prog σ ε Unit → Prop
  stopped : σ → Bool

/-- Until the system stops, any thread may take the next step, with any answer
of the environment, and a new thread may start at any time. -/
inductive Step (S : System σ ε) : Config σ ε → Config σ ε → Prop
  | run {c : Config σ ε} {i : Nat} {p : Prog σ ε Unit} (e : ε) (hs : S.stopped c.state = false)
      (h : c.threads[i]? = some p) :
      Step S c ⟨(p.step e c.state).2, c.threads.set i (p.step e c.state).1⟩
  | start {c : Config σ ε} {p : Prog σ ε Unit} (hs : S.stopped c.state = false)
      (h : S.mayStart c.threads.length p) : Step S c ⟨c.state, c.threads ++ [p]⟩

inductive Reachable (S : System σ ε) (s : σ) : Config σ ε → Prop
  | init : Reachable S s ⟨s, []⟩
  | step {c d : Config σ ε} (h : Reachable S s c) (hs : Step S c d) : Reachable S s d

variable {S : System σ ε} {s : σ}

/-- Let thread `i` take one step; nothing happens when it does not exist or the
system has stopped. -/
def Config.runThread (stopped : σ → Bool) (c : Config σ ε) (choice : Nat × ε) : Config σ ε :=
  if stopped c.state then c
  else
    match c.threads[choice.1]? with
    | none => c
    | some p => ⟨(p.step choice.2 c.state).2, c.threads.set choice.1 (p.step choice.2 c.state).1⟩

/-- Follow a schedule: the thread of each step with the answer it gets. -/
def Config.runSchedule (stopped : σ → Bool) (c : Config σ ε) (schedule : List (Nat × ε)) :
    Config σ ε :=
  schedule.foldl (Config.runThread stopped) c

theorem reachable_start {c : Config σ ε} (h : Reachable S s c) (hs : S.stopped c.state = false)
    {programs : List (Prog σ ε Unit)}
    (hp : ∀ i p, programs[i]? = some p → S.mayStart (c.threads.length + i) p) :
    Reachable S s ⟨c.state, c.threads ++ programs⟩ := by
  induction programs generalizing c with
  | nil => simpa using h
  | cons p rest ih =>
    have hfirst : Reachable S s ⟨c.state, c.threads ++ [p]⟩ := h.step (.start hs (hp 0 p rfl))
    have hrest := ih hfirst hs fun i q hq => by
      have h' := hp (i + 1) q hq
      simpa only [List.length_append, List.length_singleton, Nat.add_assoc, Nat.add_comm 1] using h'
    simpa using hrest

theorem reachable_runSchedule {c : Config σ ε} (h : Reachable S s c)
    (schedule : List (Nat × ε)) : Reachable S s (c.runSchedule S.stopped schedule) := by
  induction schedule generalizing c with
  | nil => exact h
  | cons choice rest ih =>
    refine ih ?_
    unfold Config.runThread
    split_ifs with hs
    · exact h
    · split
      · exact h
      · next p hp => exact h.step (.run choice.2 (by simpa using hs) hp)

end Threads.Program
