import MacroKeyboard.Threads.RelyGuarantee

namespace Threads.Restarts

open Threads.Program Threads.RelyGuarantee

variable {σ ε α β : Type}

/-- The configurations of a system of threads that may be restarted: its threads
are lost, and it goes on from a state that the last one restarts in. -/
inductive Lifetime (S : System σ ε) (initial : σ → Prop) (restarts : σ → σ → Prop) : Config σ ε → Prop
  | start {s : σ} (h : initial s) : Lifetime S initial restarts ⟨s, []⟩
  | step {c d : Config σ ε} (h : Lifetime S initial restarts c) (hs : Step S c d) : Lifetime S initial restarts d
  | restart {c : Config σ ε} {s : σ} (h : Lifetime S initial restarts c) (hr : restarts c.state s) :
    Lifetime S initial restarts ⟨s, []⟩

section Parallel

variable {logic : Nat → Logic σ} {inv halt : σ → Prop} {pre : Nat → σ → Prop} {S : System σ ε}
  {initial : σ → Prop} {restarts : σ → σ → Prop}

theorem between_nil {s : σ} (hinv : inv s) (hpre : ∀ i, pre i s) :
    Between logic inv pre (⟨s, []⟩ : Config σ ε) :=
  ⟨hinv, fun i p hp => by simp at hp, fun i _ => hpre i⟩

/-- The parallel rule over restarts: a restart has only to establish the
invariant again. -/
theorem invariant_lifetime (hlogic : Compatible logic inv halt pre) (hhalt : ∀ t, ¬ halt t)
    (hvalid : ∀ i p, S.mayStart i p → Valid (logic i) p (pre i) (fun _ _ => True))
    (hinitial : ∀ s, initial s → inv s ∧ ∀ i, pre i s)
    (hrestarts : ∀ s s', inv s → restarts s s' → inv s' ∧ ∀ i, pre i s') {c : Config σ ε}
    (h : Lifetime S initial restarts c) : Between logic inv pre c := by
  induction h with
  | start h => exact between_nil (hinitial _ h).1 (hinitial _ h).2
  | step _ hs ih =>
    cases hs with
    | run e _ hi => exact (between_run hlogic ih e hi).resolve_left (hhalt _)
    | start _ hp => exact between_start hlogic ih (hvalid _ _ hp)
  | restart _ hr ih =>
    obtain ⟨hinv, hpre⟩ := hrestarts _ _ ih.inv_holds hr
    exact between_nil hinv hpre

theorem lifetime_runSchedule {c : Config σ ε} (h : Lifetime S initial restarts c)
    (schedule : List (Nat × ε)) : Lifetime S initial restarts (c.runSchedule S.stopped schedule) := by
  induction schedule generalizing c with
  | nil => exact h
  | cons choice rest ih =>
    refine ih ?_
    unfold Config.runThread
    split_ifs with hs
    · exact h
    · split
      · exact h
      · next p hp => exact h.step (.run choice.2 (by simpa using hs) hp)

theorem lifetime_start {c : Config σ ε} (h : Lifetime S initial restarts c) (hs : S.stopped c.state = false)
    {programs : List (Prog σ ε Unit)}
    (hp : ∀ i p, programs[i]? = some p → S.mayStart (c.threads.length + i) p) :
    Lifetime S initial restarts ⟨c.state, c.threads ++ programs⟩ := by
  induction programs generalizing c with
  | nil => simpa using h
  | cons p rest ih =>
    have hfirst : Lifetime S initial restarts ⟨c.state, c.threads ++ [p]⟩ := h.step (.start hs (hp 0 p rfl))
    have hrest := ih hfirst hs fun i q hq => by
      have h' := hp (i + 1) q hq
      simpa only [List.length_append, List.length_singleton, Nat.add_assoc, Nat.add_comm 1] using h'
    simpa using hrest

end Parallel

/-- A program composed of others, in sequence and in loops. -/
inductive Composed (leaf : (α : Type) → Prog σ ε α → Prop) : (α : Type) → Prog σ ε α → Prop
  | leaf {α : Type} {p : Prog σ ε α} (h : leaf α p) : Composed leaf α p
  | ret {α : Type} (a : α) : Composed leaf α (.ret a)
  | bind {α β : Type} {p : Prog σ ε β} {g : β → Prog σ ε α} (hp : Composed leaf β p)
    (hg : ∀ b, Composed leaf α (g b)) : Composed leaf α (p.bind g)
  | loop {α : Type} {body : Prog σ ε (Option α)} (h : Composed leaf (Option α) body) :
    Composed leaf α (.repeatUntil body)

section Composed

variable {leaf leaf' : (α : Type) → Prog σ ε α → Prop}

/-- Programs composed of the parts are composed of what the parts are composed
of. -/
theorem Composed.trans {p : Prog σ ε α} (h : Composed leaf α p) (hleaf : ∀ α p, leaf α p → Composed leaf' α p) :
    Composed leaf' α p := by
  induction h with
  | leaf h => exact hleaf _ _ h
  | ret a => exact .ret a
  | bind _ _ ihp ihg => exact .bind ihp ihg
  | loop _ ih => exact .loop ih

/-- A program over a part of the state is composed of steps that change that
part alone. -/
theorem composed_zoom {τ δ : Type} {surroundings : ε → δ} {get : σ → τ} {set : τ → σ → σ}
    (hleaf : ∀ (β : Type) (f : δ → τ → β × τ), leaf β (Prog.atomic (fun e s =>
      ((f (surroundings e) (get s)).1, set (f (surroundings e) (get s)).2 s))))
    (p : Prog τ δ α) : Composed leaf α (p.zoom surroundings get set) := by
  induction p with
  | ret a => exact .ret a
  | act f k ih => exact .bind (.leaf (hleaf _ f)) ih
  | loop body k ihbody ih => exact .bind (.loop ihbody) ih

theorem valid_of_composed {L : Logic σ} {P : σ → Prop} {p : Prog σ ε α} (hP : Stable L P)
    (hleaf : ∀ (β : Type) (q : Prog σ ε β), leaf β q → Valid L q P (fun _ => P)) (h : Composed leaf α p) :
    Valid L p P (fun _ => P) := by
  induction h with
  | leaf h => exact hleaf _ _ h
  | ret a => exact valid_ret fun _ _ h => h
  | bind _ _ ihp ihg => exact valid_bind ihp ihg
  | loop _ ih =>
    refine valid_repeatUntil hP (fun _ => hP) (ih.post fun result s _ hPs => ?_)
    cases result <;> exact hPs

/-- An invariant that every indivisible step keeps holds in every run over
restarts. -/
theorem invariant_of_composed {S : System σ ε} {initial : σ → Prop} {restarts : σ → σ → Prop} {inv : σ → Prop}
    {leaf : Nat → (α : Type) → Prog σ ε α → Prop}
    (hthreads : ∀ i p, S.mayStart i p → Composed (leaf i) Unit p)
    (hleaf : ∀ i (β : Type) q, leaf i β q → ∃ f, q = Prog.atomic f ∧ ∀ e s, inv s → inv (f e s).2)
    (hinitial : ∀ s, initial s → inv s) (hrestarts : ∀ s s', inv s → restarts s s' → inv s')
    {c : Config σ ε} (h : Lifetime S initial restarts c) : inv c.state := by
  have hstable : Stable (⟨inv, fun _ => False, fun _ _ => True, fun _ _ => True⟩ : Logic σ) (fun _ => True) :=
    fun _ _ _ _ _ _ => trivial
  have hcompatible : Compatible (fun _ : Nat => (⟨inv, fun _ => False, fun _ _ => True, fun _ _ => True⟩ : Logic σ))
      inv (fun _ => False) (fun _ _ => True) :=
    ⟨fun _ => rfl, fun _ => rfl, fun _ _ _ _ _ _ => trivial, fun _ => hstable⟩
  refine (invariant_lifetime hcompatible (fun _ h => h) (fun i p hp => ?_) (fun s hs => ⟨hinitial s hs, fun _ => trivial⟩)
    (fun s s' hs hr => ⟨hrestarts s s' hs hr, fun _ => trivial⟩) h).inv_holds
  refine valid_of_composed hstable (fun β q hq => ?_) (hthreads i p hp)
  obtain ⟨f, rfl, hf⟩ := hleaf i β q hq
  exact valid_atomic (fun _ => hstable) fun e s hs _ => ⟨hf e s hs, trivial, trivial⟩

end Composed

end Threads.Restarts
