import MacroKeyboard.Threads.RelyGuarantee
import MacroKeyboard.Threads.Turns

namespace Threads.Alone

open Threads.Program Threads.RelyGuarantee Threads.Turns

variable {σ ε α β : Type}

/-- The program run by itself: from the first state it returns the value in the
second one, with some answers of the environment. -/
inductive Runs : {α : Type} → Prog σ ε α → σ → α → σ → Prop
  | ret {α : Type} (a : α) (s : σ) : Runs (.ret a) s a s
  | act {α β : Type} {f : ε → σ → β × σ} {k : β → Prog σ ε α} {s s' : σ} {a : α} (e : ε)
    (h : Runs (k (f e s).1) (f e s).2 a s') : Runs (.act f k) s a s'
  | loop {α β : Type} {body : Prog σ ε (Option β)} {k : β → Prog σ ε α} {s s' : σ} {a : α}
    (h : Runs (body.bind (fun result =>
      match result with
      | none => .loop body k
      | some b => k b)) s a s') : Runs (.loop body k) s a s'

def alone : Logic σ := ⟨fun _ => True, fun _ => False, fun s s' => s = s', fun _ _ => True⟩

theorem stable_alone (P : σ → Prop) : Stable alone P := by
  rintro s s' - - rfl h
  exact h

theorem valid_alone_atomic {f : ε → σ → α × σ} {P : σ → Prop} {Q : α → σ → Prop}
    (h : ∀ e s, P s → Q (f e s).1 (f e s).2) : Valid alone (.atomic f) P Q :=
  valid_atomic (fun _ => stable_alone _) fun e s _ hP => ⟨trivial, trivial, h e s hP⟩

theorem valid_alone_true {p : Prog σ ε α} : Valid (alone (σ := σ)) p (fun _ => True) (fun _ _ => True) := by
  induction p with
  | ret a => exact fun _ _ _ => trivial
  | act f k ih =>
    exact ⟨fun _ _ => True, fun _ => stable_alone _, fun _ _ _ _ => Or.inr ⟨trivial, trivial, trivial⟩, fun b => ih b⟩
  | loop body k ihbody ih =>
    refine ⟨fun _ => True, fun _ _ => True, stable_alone _, fun _ => stable_alone _, fun _ _ h => h, ?_, fun b => ih b⟩
    exact ihbody.post fun result _ _ _ => by cases result <;> trivial

theorem Runs.post {p : Prog σ ε α} {s s' : σ} {a : α} (h : Runs p s a s') {P : σ → Prop} {Q : α → σ → Prop}
    (hvalid : Valid alone p P Q) (hP : P s) : Q a s' := by
  induction h generalizing P with
  | ret a s => exact hvalid s trivial hP
  | act e _ ih =>
    obtain ⟨M, -, hf, hk⟩ := hvalid
    rcases hf e _ trivial hP with hhalt | ⟨-, -, hM⟩
    · exact hhalt.elim
    · exact ih (hk _) hM
  | loop _ ih =>
    obtain ⟨I, M, hI, hM, hstart, hbody, hk⟩ := hvalid
    refine ih (valid_bind hbody fun result => ?_) (hstart _ trivial hP)
    cases result with
    | none => exact ⟨I, M, hI, hM, fun _ _ h => h, hbody, hk⟩
    | some b => exact hk b

theorem runs_atomic (f : ε → σ → α × σ) (e : ε) (s : σ) : Runs (.atomic f) s (f e s).1 (f e s).2 := .act e (.ret _ _)

theorem runs_ask (f : ε → α) (e : ε) (s : σ) : Runs (.ask f) s (f e) s := .act e (.ret _ _)

theorem runs_read (f : σ → α) (e : ε) (s : σ) : Runs (.read f : Prog σ ε α) s (f s) s := .act e (.ret _ _)

theorem Runs.bind {p : Prog σ ε α} {g : α → Prog σ ε β} {s t u : σ} {a : α} {b : β} (h : Runs p s a t)
    (hg : Runs (g a) t b u) : Runs (p.bind g) s b u := by
  induction h with
  | ret a s => exact hg
  | act e _ ih => exact .act e (ih hg)
  | loop _ ih =>
    have hunrolled := ih hg
    rw [bind_assoc] at hunrolled
    refine .loop ?_
    convert hunrolled using 2
    funext result
    cases result <;> rfl

section Zoom

variable {τ δ κ : Type} {surroundings : ε → δ}

theorem zoom_bind {get : σ → τ} {set : τ → σ → σ} (p : Prog τ δ α) (g : α → Prog τ δ β) :
    (p.bind g).zoom surroundings get set =
      (p.zoom surroundings get set).bind (fun a => (g a).zoom surroundings get set) := by
  induction p with
  | ret a => rfl
  | act f k ih =>
    apply congrArg (Prog.act _)
    funext b
    exact ih b g
  | loop body k _ ih =>
    apply congrArg (Prog.loop _)
    funext b
    exact ih b g

/-- A run over a part of the state is one over the whole that leaves the rest alone. -/
theorem Runs.zoom (get : σ → τ) (set : τ → σ → σ) (rest : σ → κ)
    (hsurroundings : Function.Surjective surroundings) (hget : ∀ t s, get (set t s) = t)
    (hrest : ∀ t s, rest (set t s) = rest s) {p : Prog τ δ α} {t t' : τ} {a : α} (h : Runs p t a t') {s : σ}
    (hs : get s = t) : ∃ s', Runs (p.zoom surroundings get set) s a s' ∧ get s' = t' ∧ rest s' = rest s := by
  induction h generalizing s with
  | ret a t => exact ⟨s, .ret _ _, hs, rfl⟩
  | act d _ ih =>
    obtain ⟨e, rfl⟩ := hsurroundings d
    subst hs
    obtain ⟨s', hruns, hget', hrest'⟩ := ih (hget _ s)
    exact ⟨s', .act e hruns, hget', hrest'.trans (hrest _ _)⟩
  | loop _ ih =>
    obtain ⟨s', hruns, hget', hrest'⟩ := ih hs
    refine ⟨s', .loop ?_, hget', hrest'⟩
    rw [zoom_bind] at hruns
    convert hruns using 2
    funext result
    cases result <;> rfl

end Zoom

/-- The program run with these answers, one for each step. -/
def runWith : List ε → Prog σ ε α → σ → Option (α × σ)
  | _, .ret a, s => some (a, s)
  | [], _, _ => none
  | e :: rest, p, s => runWith rest (p.step e s).1 (p.step e s).2

theorem runs_of_step {p : Prog σ ε α} {s s' : σ} {a : α} {e : ε} (h : Runs (p.step e s).1 (p.step e s).2 a s') :
    Runs p s a s' := by
  cases p with
  | ret b => exact h
  | act f k => exact .act e h
  | loop body k => exact .loop h

theorem runs_of_runWith {answers : List ε} {p : Prog σ ε α} {s s' : σ} {a : α}
    (h : runWith answers p s = some (a, s')) : Runs p s a s' := by
  induction answers generalizing p s with
  | nil =>
    cases p with
    | ret b =>
      cases h
      exact .ret _ _
    | act f k => cases h
    | loop body k => cases h
  | cons e rest ih =>
    cases p with
    | ret b =>
      cases h
      exact .ret _ _
    | act f k => exact runs_of_step (ih h)
    | loop body k => exact runs_of_step (ih h)

end Threads.Alone
