import MacroKeyboard.Threads.Program

namespace Threads.RelyGuarantee

open Threads.Program

/-- What one thread proves against: an invariant of the shared state, the
changes other threads make to it and the changes it makes itself, and what
holds where the system stops. -/
structure Logic (σ : Type) where
  inv : σ → Prop
  halt : σ → Prop
  rely : σ → σ → Prop
  guar : σ → σ → Prop

variable {σ ε α β : Type} {L : Logic σ}

def Stable (L : Logic σ) (P : σ → Prop) : Prop :=
  ∀ s s', L.inv s → L.inv s' → L.rely s s' → P s → P s'

/-- An action from `P` keeps the invariant, changes only what the thread may
change and establishes `M` of its result. -/
def Action (L : Logic σ) (P : σ → Prop) (f : ε → σ → β × σ) (M : β → σ → Prop) : Prop :=
  ∀ e s, L.inv s → P s →
    L.inv (f e s).2 ∧ L.guar s (f e s).2 ∧ M (f e s).1 (f e s).2

/-- An action that may also stop the system. -/
def Ending (L : Logic σ) (P : σ → Prop) (f : ε → σ → β × σ) (M : β → σ → Prop) : Prop :=
  ∀ e s, L.inv s → P s → L.halt (f e s).2 ∨
    L.inv (f e s).2 ∧ L.guar s (f e s).2 ∧ M (f e s).1 (f e s).2

/-- `p` started in `P` ends in `Q`, whatever the other threads do in between. -/
def Valid (L : Logic σ) : {α : Type} → Prog σ ε α → (σ → Prop) → (α → σ → Prop) → Prop
  | _, .ret a, P, Q => ∀ s, L.inv s → P s → Q a s
  | _, .act f k, P, Q => ∃ M, (∀ b, Stable L (M b)) ∧ Ending L P f M ∧ ∀ b, Valid L (k b) (M b) Q
  | _, .loop body k, P, Q => ∃ I M, Stable L I ∧ (∀ b, Stable L (M b)) ∧
      (∀ s, L.inv s → P s → I s) ∧
      Valid L body I (fun result => result.elim I M) ∧ ∀ b, Valid L (k b) (M b) Q

theorem Valid.pre {p : Prog σ ε α} {P P' : σ → Prop} {Q : α → σ → Prop} (h : Valid L p P Q)
    (hp : ∀ s, L.inv s → P' s → P s) : Valid L p P' Q := by
  cases p with
  | ret a => exact fun s hs h' => h s hs (hp s hs h')
  | act f k =>
    obtain ⟨M, hM, hf, hk⟩ := h
    exact ⟨M, hM, fun e s hs h' => hf e s hs (hp s hs h'), hk⟩
  | loop body k =>
    obtain ⟨I, M, hI, hM, hstart, hbody, hk⟩ := h
    exact ⟨I, M, hI, hM, fun s hs h' => hstart s hs (hp s hs h'), hbody, hk⟩

theorem Valid.post {p : Prog σ ε α} {P : σ → Prop} {Q Q' : α → σ → Prop} (h : Valid L p P Q)
    (hq : ∀ a s, L.inv s → Q a s → Q' a s) : Valid L p P Q' := by
  induction p generalizing P with
  | ret a => exact fun s hs h' => hq a s hs (h s hs h')
  | act f k ih =>
    obtain ⟨M, hM, hf, hk⟩ := h
    exact ⟨M, hM, hf, fun b => ih b (hk b) hq⟩
  | loop body k _ ih =>
    obtain ⟨I, M, hI, hM, hstart, hbody, hk⟩ := h
    exact ⟨I, M, hI, hM, hstart, hbody, fun b => ih b (hk b) hq⟩

theorem valid_ret {a : α} {P : σ → Prop} {Q : α → σ → Prop} (h : ∀ s, L.inv s → P s → Q a s) :
    Valid L (.ret a : Prog σ ε α) P Q := h

theorem valid_atomic {f : ε → σ → α × σ} {P : σ → Prop} {Q : α → σ → Prop}
    (hQ : ∀ a, Stable L (Q a)) (h : Action L P f Q) : Valid L (Prog.atomic f) P Q :=
  ⟨Q, hQ, fun e s hs hP => Or.inr (h e s hs hP), fun _ _ _ hq => hq⟩

theorem valid_halting {f : ε → σ → α × σ} {P : σ → Prop} {Q : α → σ → Prop}
    (h : ∀ e s, L.inv s → P s → L.halt (f e s).2) : Valid L (Prog.atomic f) P Q :=
  ⟨fun _ _ => False, fun _ _ _ _ _ _ h => h, fun e s hs hP => Or.inl (h e s hs hP),
    fun _ _ _ h => h.elim⟩

theorem valid_bind {p : Prog σ ε α} {g : α → Prog σ ε β} {P : σ → Prop} {M : α → σ → Prop}
    {Q : β → σ → Prop} (hp : Valid L p P M) (hg : ∀ a, Valid L (g a) (M a) Q) :
    Valid L (p.bind g) P Q := by
  induction p generalizing P with
  | ret a => exact (hg a).pre hp
  | act f k ih =>
    obtain ⟨N, hN, hf, hk⟩ := hp
    exact ⟨N, hN, hf, fun b => ih b (hk b) hg⟩
  | loop body k _ ih =>
    obtain ⟨I, N, hI, hN, hstart, hbody, hk⟩ := hp
    exact ⟨I, N, hI, hN, hstart, hbody, fun b => ih b (hk b) hg⟩

theorem valid_repeatUntil {body : Prog σ ε (Option α)} {I : σ → Prop} {Q : α → σ → Prop}
    (hI : Stable L I) (hQ : ∀ a, Stable L (Q a))
    (hbody : Valid L body I (fun result => result.elim I Q)) :
    Valid L (Prog.repeatUntil body) I Q :=
  ⟨I, Q, hI, hQ, fun _ _ h => h, hbody, fun _ _ _ h => h⟩

theorem valid_inTurn {ι : Type} {program : ι → Prog σ ε Unit} {I : σ → Prop}
    (h : ∀ item, Valid L (program item) I (fun _ => I)) (items : List ι) :
    Valid L (Prog.inTurn program items) I (fun _ => I) := by
  induction items with
  | nil => exact valid_ret fun _ _ hI => hI
  | cons item rest ih => exact valid_bind (h item) fun _ => ih

theorem valid_false {p : Prog σ ε α} {Q : α → σ → Prop} : Valid L p (fun _ => False) Q := by
  induction p with
  | ret a => exact fun _ _ h => h.elim
  | act f k ih =>
    exact ⟨fun _ _ => False, fun _ _ _ _ _ _ h => h, fun _ _ _ h => h.elim, fun b => ih b⟩
  | loop body k ihbody ih =>
    refine ⟨fun _ => False, fun _ _ => False, fun _ _ _ _ _ h => h, fun _ _ _ _ _ _ h => h,
      fun _ _ h => h, ?_, fun b => ih b⟩
    exact ihbody

theorem valid_pure_and {p : Prog σ ε α} {c : Prop} {P : σ → Prop} {Q : α → σ → Prop}
    (h : c → Valid L p P Q) : Valid L p (fun s => c ∧ P s) Q := by
  by_cases hc : c
  · exact (h hc).pre fun _ _ h => h.2
  · exact valid_false.pre fun _ _ h => hc h.1

/-- Whatever the thread yields satisfies `R`. -/
def Yields (R : α → Prop) {ε : Type} : Prog σ ε α → Prop
  | .ret a => R a
  | .act _ k => ∀ b, Yields R (k b)
  | .loop _ k => ∀ b, Yields R (k b)

theorem yields_atomic (f : ε → σ → α × σ) : Yields (fun _ => True) (Prog.atomic f) := fun _ => trivial

theorem yields_bind {R : β → Prop} {M : α → Prop} {p : Prog σ ε α} {g : α → Prog σ ε β} (hp : Yields M p)
    (hg : ∀ a, M a → Yields R (g a)) : Yields R (p.bind g) := by
  induction p with
  | ret a => exact hg a hp
  | act f k ih => exact fun b => ih b (hp b) hg
  | loop body k _ ih => exact fun b => ih b (hp b) hg

theorem Valid.yields {p : Prog σ ε α} {P : σ → Prop} {Q : α → σ → Prop} {R : α → Prop} (h : Valid L p P Q)
    (hR : Yields R p) : Valid L p P (fun a s => R a ∧ Q a s) := by
  induction p generalizing P with
  | ret a => exact fun s hs h' => ⟨hR, h s hs h'⟩
  | act f k ih =>
    obtain ⟨M, hM, hf, hk⟩ := h
    exact ⟨M, hM, hf, fun b => ih b (hk b) (hR b)⟩
  | loop body k _ ih =>
    obtain ⟨I, M, hI, hM, hstart, hbody, hk⟩ := h
    exact ⟨I, M, hI, hM, hstart, hbody, fun b => ih b (hk b) (hR b)⟩

theorem valid_step {p : Prog σ ε α} {P : σ → Prop} {Q : α → σ → Prop} {e : ε} {s : σ}
    (h : Valid L p P Q) (hP : Stable L P) (hs : L.inv s) (hPs : P s) :
    L.halt (p.step e s).2 ∨
      (∃ P', Stable L P' ∧ Valid L (p.step e s).1 P' Q ∧ P' (p.step e s).2) ∧
        L.inv (p.step e s).2 ∧ ((p.step e s).2 = s ∨ L.guar s (p.step e s).2) := by
  cases p with
  | ret a => exact Or.inr ⟨⟨P, hP, h, hPs⟩, hs, Or.inl rfl⟩
  | act f k =>
    obtain ⟨M, hM, hf, hk⟩ := h
    rcases hf e s hs hPs with hhalt | ⟨hinv, hguar, hpost⟩
    · exact Or.inl hhalt
    · exact Or.inr ⟨⟨M _, hM _, hk _, hpost⟩, hinv, Or.inr hguar⟩
  | loop body k =>
    obtain ⟨I, M, hI, hM, hstart, hbody, hk⟩ := h
    refine Or.inr ⟨⟨I, hI, valid_bind hbody fun result => ?_, hstart s hs hPs⟩, hs, Or.inl rfl⟩
    cases result with
    | none => exact ⟨I, M, hI, hM, fun _ _ h => h, hbody, hk⟩
    | some b => exact hk b

section Parallel

variable {logic : Nat → Logic σ} {inv halt : σ → Prop} {pre : Nat → σ → Prop} {S : System σ ε}
  {s : σ}

/-- What holds between two steps of a family of threads: the invariant, an
assertion from which each running thread is valid, and the precondition of each
thread that has not started. -/
structure Between (logic : Nat → Logic σ) (inv : σ → Prop) (pre : Nat → σ → Prop)
    (c : Config σ ε) : Prop where
  inv_holds : inv c.state
  running : ∀ i p, c.threads[i]? = some p → ∃ P, Stable (logic i) P ∧
    Valid (logic i) p P (fun _ _ => True) ∧ P c.state
  waiting : ∀ i, c.threads.length ≤ i → pre i c.state

/-- The threads share an invariant and a final assertion, and what each one
guarantees is what the others rely on. -/
structure Compatible (logic : Nat → Logic σ) (inv halt : σ → Prop) (pre : Nat → σ → Prop) : Prop where
  inv_eq : ∀ i, (logic i).inv = inv
  halt_eq : ∀ i, (logic i).halt = halt
  mutual_rely : ∀ i j t t', i ≠ j → (logic i).guar t t' → (logic j).rely t t'
  pre_stable : ∀ i, Stable (logic i) (pre i)

theorem between_run (hlogic : Compatible logic inv halt pre) {c : Config σ ε}
    (h : Between logic inv pre c) {i : Nat} {p : Prog σ ε Unit} (e : ε)
    (hi : c.threads[i]? = some p) : halt (p.step e c.state).2 ∨
      Between logic inv pre ⟨(p.step e c.state).2, c.threads.set i (p.step e c.state).1⟩ := by
  obtain ⟨P, hP, hvalid, hPc⟩ := h.running i p hi
  have hc : ∀ j, (logic j).inv c.state := fun j => by rw [hlogic.inv_eq]; exact h.inv_holds
  rcases valid_step (e := e) hvalid hP (hc i) hPc with hhalt | ⟨hnext, hinv, hguar⟩
  · exact Or.inl (by rw [← hlogic.halt_eq i]; exact hhalt)
  refine Or.inr ?_
  rw [hlogic.inv_eq] at hinv
  have hkeep : ∀ j P, j ≠ i → Stable (logic j) P → P c.state → P (p.step e c.state).2 := by
    intro j P hj hst hPj
    rcases hguar with heq | hguar
    · rwa [heq]
    · exact hst _ _ (hc j) (by rw [hlogic.inv_eq]; exact hinv)
        (hlogic.mutual_rely i j _ _ (Ne.symm hj) hguar) hPj
  have hlt : i < c.threads.length := (List.getElem?_eq_some_iff.mp hi).1
  refine ⟨hinv, ?_, ?_⟩
  · intro j q hq
    by_cases hj : j = i
    · subst hj
      rw [List.getElem?_set_self hlt, Option.some.injEq] at hq
      rw [← hq]
      exact hnext
    · rw [List.getElem?_set_ne (Ne.symm hj)] at hq
      obtain ⟨P', hP', hvalid', hP'c⟩ := h.running j q hq
      exact ⟨P', hP', hvalid', hkeep j P' hj hP' hP'c⟩
  · intro j hj
    rw [List.length_set] at hj
    exact hkeep j (pre j) (by omega) (hlogic.pre_stable j) (h.waiting j hj)

theorem between_start (hlogic : Compatible logic inv halt pre) {c : Config σ ε}
    (h : Between logic inv pre c) {p : Prog σ ε Unit}
    (hp : Valid (logic c.threads.length) p (pre c.threads.length) (fun _ _ => True)) :
    Between logic inv pre ⟨c.state, c.threads ++ [p]⟩ := by
  refine ⟨h.inv_holds, ?_, ?_⟩
  · intro i q hq
    by_cases hi : i < c.threads.length
    · rw [List.getElem?_append_left hi] at hq
      exact h.running i q hq
    · have hlen : i = c.threads.length := by
        have hlt := (List.getElem?_eq_some_iff.mp hq).1
        simp only [List.length_append, List.length_singleton] at hlt
        omega
      subst hlen
      rw [List.getElem?_concat_length, Option.some.injEq] at hq
      rw [← hq]
      exact ⟨pre _, hlogic.pre_stable _, hp, h.waiting _ le_rfl⟩
  · intro i hi
    simp only [List.length_append, List.length_singleton] at hi
    exact h.waiting i (by omega)

/-- The parallel rule: compatible threads keep the invariant in every reachable
state, up to the one in which the system stops. -/
theorem invariant_reachable (hlogic : Compatible logic inv halt pre)
    (hhalt : ∀ t, halt t → S.stopped t = true)
    (hvalid : ∀ i p, S.mayStart i p → Valid (logic i) p (pre i) (fun _ _ => True))
    (hinit : inv s) (hpre_init : ∀ i, pre i s) {c : Config σ ε} (h : Reachable S s c) :
    halt c.state ∨ Between logic inv pre c := by
  induction h with
  | init => exact Or.inr ⟨hinit, fun i p hp => by simp at hp, fun i _ => hpre_init i⟩
  | @step c d _ hs ih =>
    have hlive : S.stopped c.state = false → Between logic inv pre c := fun hc =>
      ih.resolve_left fun hh => by rw [hhalt _ hh] at hc; cases hc
    cases hs with
    | run e hc hi => exact between_run hlogic (hlive hc) e hi
    | start hc hp => exact Or.inr (between_start hlogic (hlive hc) (hvalid _ _ hp))

end Parallel

end Threads.RelyGuarantee
