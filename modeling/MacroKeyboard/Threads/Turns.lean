import MacroKeyboard.Threads.Program

namespace Threads.Turns

open Threads.Program

/-- One step of a thread among others: when it is taken, the state it finds,
the answer it gets and the state it leaves. -/
structure Turn (σ ε : Type) where
  time : Nat
  before : σ
  answer : ε
  after : σ
deriving DecidableEq, Repr

variable {σ ε α β : Type}

/-- The program returns the value after these turns. Between two of them the
other threads may do anything to the state. -/
inductive Plays : {α : Type} → Prog σ ε α → List (Turn σ ε) → α → Prop
  | ret {α : Type} (a : α) : Plays (.ret a) [] a
  | act {α β : Type} {f : ε → σ → β × σ} {k : β → Prog σ ε α} {turn : Turn σ ε}
    {rest : List (Turn σ ε)} {a : α} (hstep : turn.after = (f turn.answer turn.before).2)
    (h : Plays (k (f turn.answer turn.before).1) rest a) : Plays (.act f k) (turn :: rest) a
  | loop {α β : Type} {body : Prog σ ε (Option β)} {k : β → Prog σ ε α} {turn : Turn σ ε}
    {rest : List (Turn σ ε)} {a : α} (hstep : turn.after = turn.before)
    (h : Plays (body.bind (fun result =>
      match result with
      | none => .loop body k
      | some b => k b)) rest a) : Plays (.loop body k) (turn :: rest) a

theorem plays_ret {a b : α} {turns : List (Turn σ ε)} (h : Plays (.ret b) turns a) : turns = [] ∧ a = b := by
  cases h
  exact ⟨rfl, rfl⟩

theorem plays_act {f : ε → σ → β × σ} {k : β → Prog σ ε α} {turns : List (Turn σ ε)} {a : α}
    (h : Plays (.act f k) turns a) : ∃ turn rest, turns = turn :: rest ∧
      turn.after = (f turn.answer turn.before).2 ∧ Plays (k (f turn.answer turn.before).1) rest a := by
  cases h with
  | act hstep h => exact ⟨_, _, rfl, hstep, h⟩

theorem plays_atomic {f : ε → σ → α × σ} {turns : List (Turn σ ε)} {a : α}
    (h : Plays (Prog.atomic f) turns a) : ∃ turn, turns = [turn] ∧
      turn.after = (f turn.answer turn.before).2 ∧ a = (f turn.answer turn.before).1 := by
  obtain ⟨turn, rest, rfl, hstep, hrest⟩ := plays_act h
  obtain ⟨rfl, rfl⟩ := plays_ret hrest
  exact ⟨turn, rfl, hstep, rfl⟩

theorem bind_assoc {γ : Type} (p : Prog σ ε α) (g : α → Prog σ ε β) (k : β → Prog σ ε γ) :
    (p.bind g).bind k = p.bind (fun a => (g a).bind k) := by
  induction p with
  | ret a => rfl
  | act f next ih =>
    apply congrArg (Prog.act f)
    funext b
    exact ih b g
  | loop body next _ ih =>
    apply congrArg (Prog.loop body)
    funext b
    exact ih b g

theorem bind_unrolled {γ : Type} (body : Prog σ ε (Option γ)) (k : γ → Prog σ ε α) (g : α → Prog σ ε β) :
    (body.bind (fun result =>
      match result with
      | none => .loop body k
      | some b => k b)).bind g =
    body.bind (fun result =>
      match result with
      | none => .loop body (fun b => (k b).bind g)
      | some b => (k b).bind g) := by
  rw [bind_assoc]
  apply congrArg (Prog.bind body)
  funext result
  cases result <;> rfl

theorem plays_bind_aux {q : Prog σ ε β} {turns : List (Turn σ ε)} {b : β} (h : Plays q turns b) :
    ∀ {α : Type} {p : Prog σ ε α} {g : α → Prog σ ε β}, p.bind g = q → ∃ first second a,
      turns = first ++ second ∧ Plays p first a ∧ Plays (g a) second b := by
  induction h with
  | ret b =>
    intro α p g hq
    cases p with
    | ret a => exact ⟨[], [], a, rfl, .ret a, (show g a = .ret b from hq) ▸ .ret b⟩
    | act f k => cases hq
    | loop body k => cases hq
  | @act _ f k turn rest a hstep h ih =>
    intro α p g hq
    cases p with
    | ret a => exact ⟨[], turn :: rest, a, rfl, .ret a, (show g a = .act f k from hq) ▸ .act hstep h⟩
    | act f k =>
      cases hq
      obtain ⟨first, second, a, rfl, hfirst, hsecond⟩ := ih rfl
      exact ⟨turn :: first, second, a, rfl, .act hstep hfirst, hsecond⟩
    | loop body k => cases hq
  | @loop _ body k turn rest a hstep h ih =>
    intro α p g hq
    cases p with
    | ret a => exact ⟨[], turn :: rest, a, rfl, .ret a, (show g a = .loop body k from hq) ▸ .loop hstep h⟩
    | act f k => cases hq
    | loop body k =>
      cases hq
      obtain ⟨first, second, a, rfl, hfirst, hsecond⟩ := ih (bind_unrolled body k g)
      exact ⟨turn :: first, second, a, rfl, .loop hstep hfirst, hsecond⟩

theorem plays_bind {p : Prog σ ε α} {g : α → Prog σ ε β} {turns : List (Turn σ ε)} {b : β}
    (h : Plays (p.bind g) turns b) : ∃ first second a, turns = first ++ second ∧ Plays p first a ∧
      Plays (g a) second b := by
  exact plays_bind_aux h rfl

theorem plays_repeatUntil {body : Prog σ ε (Option α)} {turns : List (Turn σ ε)} {a : α}
    (h : Plays (Prog.repeatUntil body) turns a) :
    ∃ before last, turns = before ++ last ∧ Plays body last (some a) := by
  generalize hlen : turns.length = count
  induction count using Nat.strong_induction_on generalizing turns with
  | _ count ih =>
    cases h with
    | @loop _ _ _ turn rest _ hstep h =>
      obtain ⟨pass, others, result, rfl, hpass, hrest⟩ := plays_bind h
      cases result with
      | none =>
        have hshort : others.length < count := by
          rw [← hlen, List.length_cons, List.length_append]
          omega
        obtain ⟨before, last, rfl, hlast⟩ := ih _ hshort hrest rfl
        exact ⟨turn :: (pass ++ before), last, by simp, hlast⟩
      | some b =>
        obtain ⟨rfl, rfl⟩ := plays_ret hrest
        exact ⟨[turn], pass, by simp, hpass⟩

/-- Every step of the program changes the state as `R` allows, whatever it
finds and is answered. -/
def Always (R : σ → σ → Prop) {ε : Type} : {α : Type} → Prog σ ε α → Prop
  | _, .ret _ => True
  | _, .act f k => (∀ e s, R s (f e s).2) ∧ ∀ b, Always R (k b)
  | _, .loop body k => (∀ s, R s s) ∧ Always R body ∧ ∀ b, Always R (k b)

variable {R : σ → σ → Prop}

theorem always_atomic {f : ε → σ → α × σ} (h : ∀ e s, R s (f e s).2) : Always R (Prog.atomic f) :=
  ⟨h, fun _ => trivial⟩

theorem always_bind {p : Prog σ ε α} {g : α → Prog σ ε β} (hp : Always R p) (hg : ∀ a, Always R (g a)) :
    Always R (p.bind g) := by
  induction p with
  | ret a => exact hg a
  | act f k ih => exact ⟨hp.1, fun b => ih b (hp.2 b) hg⟩
  | loop body k _ ih => exact ⟨hp.1, hp.2.1, fun b => ih b (hp.2.2 b) hg⟩

theorem always_repeatUntil {body : Prog σ ε (Option α)} (hR : ∀ s, R s s) (h : Always R body) :
    Always R (Prog.repeatUntil body) :=
  ⟨hR, h, fun _ => trivial⟩

theorem Always.mono {R' : σ → σ → Prop} {p : Prog σ ε α} (h : Always R p) (himp : ∀ s s', R s s' → R' s s') :
    Always R' p := by
  induction p with
  | ret a => trivial
  | act f k ih => exact ⟨fun e s => himp _ _ (h.1 e s), fun b => ih b (h.2 b)⟩
  | loop body k ihbody ih => exact ⟨fun s => himp _ _ (h.1 s), ihbody h.2.1, fun b => ih b (h.2.2 b)⟩

theorem Always.unrolled {body : Prog σ ε (Option β)} {k : β → Prog σ ε α} (h : Always R (.loop body k)) :
    Always R (body.bind (fun result =>
      match result with
      | none => .loop body k
      | some b => k b)) := by
  refine always_bind h.2.1 fun result => ?_
  cases result with
  | none => exact h
  | some b => exact h.2.2 b

theorem Always.step {p : Prog σ ε α} (h : Always R p) (hR : ∀ s, R s s) (e : ε) (s : σ) :
    R s (p.step e s).2 ∧ Always R (p.step e s).1 := by
  cases p with
  | ret a => exact ⟨hR s, trivial⟩
  | act f k => exact ⟨h.1 e s, h.2 _⟩
  | loop body k => exact ⟨h.1 s, h.unrolled⟩

theorem Always.turns {p : Prog σ ε α} (h : Always R p) {turns : List (Turn σ ε)} {a : α}
    (hplays : Plays p turns a) : ∀ turn ∈ turns, R turn.before turn.after := by
  induction hplays with
  | ret a => exact fun _ hmem => absurd hmem List.not_mem_nil
  | act hstep _ ih =>
    rw [List.forall_mem_cons, hstep]
    exact ⟨h.1 _ _, ih (h.2 _)⟩
  | loop hstep _ ih =>
    rw [List.forall_mem_cons, hstep]
    exact ⟨h.1 _, ih h.unrolled⟩

/-- What is always so of the programs that may start as thread `i` is so of
what is left of them in every run. -/
theorem always_of_reachable {S : System σ ε} {s : σ} {which : Nat → Prop} (hR : ∀ s, R s s)
    (hstart : ∀ i p, S.mayStart i p → which i → Always R p) {c : Config σ ε} (h : Reachable S s c) {i : Nat}
    {p : Prog σ ε Unit} (hp : c.threads[i]? = some p) (hi : which i) : Always R p := by
  induction h generalizing i p with
  | init => cases hp
  | @step c d h hs ih =>
    cases hs with
    | @run j q e hs hq =>
      by_cases hj : j = i
      · subst hj
        have hlt := (List.getElem?_eq_some_iff.mp hq).1
        rw [List.getElem?_set_self hlt] at hp
        cases hp
        exact ((ih hq hi).step hR e _).2
      · rw [List.getElem?_set_ne hj] at hp
        exact ih hp hi
    | @start q hs hq =>
      rcases Nat.lt_trichotomy i c.threads.length with hlt | heq | hgt
      · rw [List.getElem?_append_left hlt] at hp
        exact ih hp hi
      · rw [heq, List.getElem?_concat_length] at hp
        cases hp
        exact hstart i _ (heq ▸ hq) hi
      · have hlen : (c.threads ++ [q]).length ≤ i := by
          rw [List.length_append, List.length_singleton]
          exact hgt
        rw [List.getElem?_eq_none hlen] at hp
        cases hp

/-- What is left of a program after these turns of it. -/
inductive Leaves : Prog σ ε α → List (Turn σ ε) → Prog σ ε α → Prop
  | refl (p : Prog σ ε α) : Leaves p [] p
  | step {p q : Prog σ ε α} {turn : Turn σ ε} {rest : List (Turn σ ε)}
    (hstep : turn.after = (p.step turn.answer turn.before).2)
    (h : Leaves (p.step turn.answer turn.before).1 rest q) : Leaves p (turn :: rest) q

theorem Leaves.concat {p q : Prog σ ε α} {turns : List (Turn σ ε)} (h : Leaves p turns q) {turn : Turn σ ε}
    (hstep : turn.after = (q.step turn.answer turn.before).2) :
    Leaves p (turns ++ [turn]) (q.step turn.answer turn.before).1 := by
  induction h with
  | refl p => exact .step hstep (.refl _)
  | step hfirst _ ih => exact .step hfirst (ih hstep)

theorem leaves_bind {p : Prog σ ε α} {g : α → Prog σ ε β} {turns : List (Turn σ ε)} {q : Prog σ ε β}
    (h : Leaves (p.bind g) turns q) : (∃ rest, Leaves p turns rest ∧ q = rest.bind g) ∨
      ∃ first second a, turns = first ++ second ∧ Plays p first a ∧ Leaves (g a) second q := by
  induction turns generalizing p with
  | nil =>
    cases h
    exact .inl ⟨p, .refl p, rfl⟩
  | cons turn turns ih =>
    cases p with
    | ret a => exact .inr ⟨[], turn :: turns, a, rfl, .ret a, h⟩
    | act f k =>
      cases h with
      | step hstep hrest =>
        rcases ih hrest with ⟨rest, hleaves, rfl⟩ | ⟨first, second, a, rfl, hplays, hleaves⟩
        · exact .inl ⟨rest, .step hstep hleaves, rfl⟩
        · exact .inr ⟨turn :: first, second, a, rfl, .act hstep hplays, hleaves⟩
    | loop body k =>
      cases h with
      | step hstep hrest =>
        have hunrolled : Leaves (((Prog.loop body k).step turn.answer turn.before).1.bind g) turns q :=
          (congrArg (Leaves · turns q) (bind_unrolled body k g)).mpr hrest
        rcases ih hunrolled with ⟨rest, hleaves, rfl⟩ | ⟨first, second, a, rfl, hplays, hleaves⟩
        · exact .inl ⟨rest, .step hstep hleaves, rfl⟩
        · exact .inr ⟨turn :: first, second, a, rfl, .loop hstep hplays, hleaves⟩

/-- A run goes on from `c`, and thread `i` takes these turns in it. -/
inductive RunsOn (S : System σ ε) (i : Nat) (c : Config σ ε) : List (Turn σ ε) → Config σ ε → Prop
  | here : RunsOn S i c [] c
  | own {turns : List (Turn σ ε)} {d : Config σ ε} {p : Prog σ ε Unit} (time : Nat) (e : ε) (h : RunsOn S i c turns d)
    (hs : S.stopped d.state = false) (hp : d.threads[i]? = some p) :
    RunsOn S i c (turns ++ [⟨time, d.state, e, (p.step e d.state).2⟩])
      ⟨(p.step e d.state).2, d.threads.set i (p.step e d.state).1⟩
  | other {turns : List (Turn σ ε)} {d : Config σ ε} {j : Nat} {q : Prog σ ε Unit} (e : ε) (h : RunsOn S i c turns d)
    (hs : S.stopped d.state = false) (hj : j ≠ i) (hq : d.threads[j]? = some q) :
    RunsOn S i c turns ⟨(q.step e d.state).2, d.threads.set j (q.step e d.state).1⟩
  | start {turns : List (Turn σ ε)} {d : Config σ ε} {q : Prog σ ε Unit} (h : RunsOn S i c turns d)
    (hs : S.stopped d.state = false) (hq : S.mayStart d.threads.length q) :
    RunsOn S i c turns ⟨d.state, d.threads ++ [q]⟩

section Runs

variable {S : System σ ε} {s : σ} {i : Nat} {c d : Config σ ε} {turns : List (Turn σ ε)}

theorem RunsOn.reachable (h : RunsOn S i c turns d) (hc : Reachable S s c) : Reachable S s d := by
  induction h with
  | here => exact hc
  | own time e _ hs hp ih => exact ih.step (.run e hs hp)
  | other e _ hs _ hq ih => exact ih.step (.run e hs hq)
  | start _ hs hq ih => exact ih.step (.start hs hq)

theorem RunsOn.leaves (h : RunsOn S i c turns d) {p : Prog σ ε Unit} (hp : c.threads[i]? = some p) :
    ∃ q, d.threads[i]? = some q ∧ Leaves p turns q := by
  induction h with
  | here => exact ⟨p, hp, .refl p⟩
  | own time e _ _ hown ih =>
    obtain ⟨q, hq, hleaves⟩ := ih
    rw [hq] at hown
    cases hown
    refine ⟨_, List.getElem?_set_self (List.getElem?_eq_some_iff.mp hq).1, hleaves.concat ?_⟩
    rfl
  | other e _ _ hj _ ih =>
    obtain ⟨q, hq, hleaves⟩ := ih
    exact ⟨q, by rw [List.getElem?_set_ne hj]; exact hq, hleaves⟩
  | start _ _ _ ih =>
    obtain ⟨q, hq, hleaves⟩ := ih
    exact ⟨q, by rw [List.getElem?_append_left (List.getElem?_eq_some_iff.mp hq).1]; exact hq, hleaves⟩

/-- What the other threads leave alone until the system stops is between two turns of a
thread as the first of them left it. -/
theorem RunsOn.chain {γ : Type} (get : σ → γ) (hothers : ∀ {d : Config σ ε}, Reachable S s d → ∀ {j : Nat}
      {q : Prog σ ε Unit}, j ≠ i → d.threads[j]? = some q → ∀ e,
      get (q.step e d.state).2 = get d.state ∨ S.stopped (q.step e d.state).2 = true)
    (hc : Reachable S s c) (h : RunsOn S i c turns d) :
    turns.IsChain (fun turn next => get next.before = get turn.after) ∧
      ∀ last ∈ turns.getLast?, get d.state = get last.after ∨ S.stopped d.state = true := by
  induction h with
  | here => exact ⟨.nil, fun last hlast => by cases hlast⟩
  | own time e _ hs _ ih =>
    refine ⟨List.isChain_append.mpr ⟨ih.1, List.isChain_singleton _, ?_⟩, ?_⟩
    · intro last hlast next hnext
      cases hnext
      exact (ih.2 last hlast).resolve_right (by rw [hs]; exact Bool.false_ne_true)
    · intro last hlast
      rw [List.getLast?_concat] at hlast
      cases hlast
      exact .inl rfl
  | other e h hs hj hq ih =>
    refine ⟨ih.1, fun last hlast => ?_⟩
    have hbefore := (ih.2 last hlast).resolve_right (by rw [hs]; exact Bool.false_ne_true)
    exact (hothers (h.reachable hc) hj hq e).imp_left fun hkept => hkept.trans hbefore
  | start _ _ _ ih => exact ih

end Runs

/-- The program played alone with these answers at these times. -/
def play : List (Nat × ε) → Prog σ ε α → σ → Option (List (Turn σ ε) × α)
  | _, .ret a, _ => some ([], a)
  | [], _, _ => none
  | (time, e) :: rest, p, s =>
    (play rest (p.step e s).1 (p.step e s).2).map
      (fun outcome => (⟨time, s, e, (p.step e s).2⟩ :: outcome.1, outcome.2))

theorem plays_of_play {answers : List (Nat × ε)} {p : Prog σ ε α} {s : σ} {turns : List (Turn σ ε)} {a : α}
    (h : play answers p s = some (turns, a)) : Plays p turns a := by
  induction answers generalizing p s turns with
  | nil =>
    cases p with
    | ret b =>
      cases h
      exact .ret _
    | act f k => cases h
    | loop body k => cases h
  | cons answer rest ih =>
    cases p with
    | ret b =>
      cases h
      exact .ret _
    | act f k =>
      obtain ⟨⟨turns, b⟩, hrest, hout⟩ := Option.map_eq_some_iff.mp h
      cases hout
      exact .act rfl (ih hrest)
    | loop body k =>
      obtain ⟨⟨turns, b⟩, hrest, hout⟩ := Option.map_eq_some_iff.mp h
      cases hout
      exact .loop rfl (ih hrest)

theorem exists_of_play (answers : List (Nat × ε)) (s : σ) {p : Prog σ ε α} {P : List (Turn σ ε) → α → Prop}
    [∀ turns a, Decidable (P turns a)]
    (h : (play answers p s).any (fun outcome => decide (P outcome.1 outcome.2)) = true) :
    ∃ turns a, Plays p turns a ∧ P turns a := by
  rw [Option.any_eq_true] at h
  obtain ⟨⟨turns, a⟩, hplay, hP⟩ := h
  exact ⟨turns, a, plays_of_play hplay, of_decide_eq_true hP⟩

end Threads.Turns
