import MacroKeyboard.Threads.RelyGuarantee

namespace Threads.RelyGuarantee

open Threads.Program

variable {σ ε : Type} {logic : Nat → Logic σ} {inv halt : σ → Prop} {pre post : Nat → σ → Prop} {S : System σ ε} {s : σ}

/-- As `Between`, for threads that end in a postcondition. -/
structure Concluding (logic : Nat → Logic σ) (inv : σ → Prop) (pre post : Nat → σ → Prop) (c : Config σ ε) : Prop where
  inv_holds : inv c.state
  running : ∀ i p, c.threads[i]? = some p → ∃ P, Stable (logic i) P ∧
    Valid (logic i) p P (fun _ => post i) ∧ P c.state
  waiting : ∀ i, c.threads.length ≤ i → pre i c.state

theorem Concluding.kept (hlogic : Compatible logic inv halt pre) {c : Config σ ε} (h : Concluding logic inv pre post c)
    {i : Nat} {t : σ} (ht : inv t) (hguar : t = c.state ∨ (logic i).guar c.state t) {j : Nat} (hj : j ≠ i) {P : σ → Prop}
    (hP : Stable (logic j) P) (hPc : P c.state) : P t := by
  obtain rfl | hguar := hguar
  · exact hPc
  · refine hP c.state t ?_ ?_ (hlogic.mutual_rely i j _ _ hj.symm hguar) hPc
    · rw [hlogic.inv_eq]
      exact h.inv_holds
    · rwa [hlogic.inv_eq]

theorem concluding_run (hlogic : Compatible logic inv halt pre) {c : Config σ ε} (h : Concluding logic inv pre post c)
    {i : Nat} {p : Prog σ ε Unit} (e : ε) (hi : c.threads[i]? = some p) :
    halt (p.step e c.state).2 ∨
      Concluding logic inv pre post ⟨(p.step e c.state).2, c.threads.set i (p.step e c.state).1⟩ := by
  obtain ⟨P, hP, hvalid, hPc⟩ := h.running i p hi
  have hinv : (logic i).inv c.state := by rw [hlogic.inv_eq]; exact h.inv_holds
  obtain hhalt | ⟨hnext, hinv', hguar⟩ := valid_step (e := e) hvalid hP hinv hPc
  · exact Or.inl (by rwa [← hlogic.halt_eq i])
  rw [hlogic.inv_eq] at hinv'
  refine Or.inr ⟨hinv', fun j q hq => ?_, fun j hj => ?_⟩
  · by_cases hji : j = i
    · rw [hji, List.getElem?_set_self (List.getElem?_eq_some_iff.mp hi).1, Option.some.injEq] at hq
      rw [hji, ← hq]
      exact hnext
    · rw [List.getElem?_set_ne (Ne.symm hji)] at hq
      obtain ⟨R, hR, hvalid', hRc⟩ := h.running j q hq
      exact ⟨R, hR, hvalid', h.kept hlogic hinv' hguar hji hR hRc⟩
  · have hlt := (List.getElem?_eq_some_iff.mp hi).1
    rw [List.length_set] at hj
    exact h.kept hlogic hinv' hguar (by omega) (hlogic.pre_stable j) (h.waiting j hj)

theorem concluding_start (hlogic : Compatible logic inv halt pre) {c : Config σ ε} (h : Concluding logic inv pre post c)
    {p : Prog σ ε Unit}
    (hp : Valid (logic c.threads.length) p (pre c.threads.length) (fun _ => post c.threads.length)) :
    Concluding logic inv pre post ⟨c.state, c.threads ++ [p]⟩ := by
  refine ⟨h.inv_holds, fun i q hq => ?_, fun i hi => ?_⟩
  · obtain hlt | heq | hgt := lt_trichotomy i c.threads.length
    · rw [List.getElem?_append_left hlt] at hq
      exact h.running i q hq
    · rw [heq, List.getElem?_concat_length, Option.some.injEq] at hq
      rw [heq, ← hq]
      exact ⟨pre _, hlogic.pre_stable _, hp, h.waiting _ le_rfl⟩
    · rw [List.getElem?_eq_none (by simpa using hgt)] at hq
      cases hq
  · rw [List.length_append, List.length_singleton] at hi
    exact h.waiting i (by omega)

theorem concluding_reachable (hlogic : Compatible logic inv halt pre) (hhalt : ∀ t, halt t → S.stopped t = true)
    (hvalid : ∀ i p, S.mayStart i p → Valid (logic i) p (pre i) (fun _ => post i)) (hinit : inv s)
    (hpre : ∀ i, pre i s) {c : Config σ ε} (h : Reachable S s c) : halt c.state ∨ Concluding logic inv pre post c := by
  induction h with
  | init => exact Or.inr ⟨hinit, fun i p hp => by simp at hp, fun i _ => hpre i⟩
  | @step c d _ hstep ih =>
    have hlive (hc : S.stopped c.state = false) : Concluding logic inv pre post c := by
      refine ih.resolve_left fun hhalted => ?_
      rw [hhalt c.state hhalted] at hc
      cases hc
    cases hstep with
    | run e hc hi => exact concluding_run hlogic (hlive hc) e hi
    | start hc hp => exact Or.inr (concluding_start hlogic (hlive hc) (hvalid _ _ hp))

theorem Concluding.ended (hlogic : Compatible logic inv halt pre) {c : Config σ ε} (h : Concluding logic inv pre post c)
    {i : Nat} (hi : c.threads[i]? = some (.ret ())) : post i c.state := by
  obtain ⟨P, -, hvalid, hPc⟩ := h.running i _ hi
  refine hvalid c.state ?_ hPc
  rw [hlogic.inv_eq]
  exact h.inv_holds

theorem Concluding.kept_run (hlogic : Compatible logic inv halt pre) (hhalt : ∀ t, ¬ halt t) {c : Config σ ε}
    (h : Concluding logic inv pre post c) {i : Nat} {p : Prog σ ε Unit} (e : ε) (hi : c.threads[i]? = some p) {j : Nat}
    (hj : j ≠ i) {P : σ → Prop} (hP : Stable (logic j) P) (hPc : P c.state) : P (p.step e c.state).2 := by
  obtain ⟨R, hR, hvalid, hRc⟩ := h.running i p hi
  have hinv : (logic i).inv c.state := by rw [hlogic.inv_eq]; exact h.inv_holds
  obtain hhalted | ⟨-, hinv', hguar⟩ := valid_step (e := e) hvalid hR hinv hRc
  · rw [hlogic.halt_eq] at hhalted
    exact absurd hhalted (hhalt _)
  · rw [hlogic.inv_eq] at hinv'
    exact h.kept hlogic hinv' hguar hj hP hPc

section Toward

variable {α : Type} {P : σ → Prop} {D : Prog σ ε α → Prop}

/-- The program goes on while `P` holds, and a step that ends `P` leaves a program of
`D`, which its loops are from the start. -/
def Toward (P : σ → Prop) (D : Prog σ ε α → Prop) : Prog σ ε α → Prop
  | .ret _ => True
  | .act f k => (∀ e s, P s → P (f e s).2 ∨ D (k (f e s).1)) ∧ ∀ b, Toward P D (k b)
  | .loop body k => D (.loop body k)

/-- Where a thread is: on its way, or in a program of `D`. -/
def Arriving (P : σ → Prop) (D : Prog σ ε α → Prop) (p : Prog σ ε α) (s : σ) : Prop := P s ∧ Toward P D p ∨ D p

theorem arriving_step (hD : ∀ p e s, D p → D (p.step e s).1) {p : Prog σ ε α} {e : ε} {s : σ}
    (h : Arriving P D p s) : Arriving P D (p.step e s).1 (p.step e s).2 := by
  obtain ⟨hP, htoward⟩ | hDp := h
  · cases p with
    | ret a => exact Or.inl ⟨hP, trivial⟩
    | act f k =>
      obtain hkeeps | hDk := htoward.1 e s hP
      · exact Or.inl ⟨hkeeps, htoward.2 _⟩
      · exact Or.inr hDk
    | loop body k => exact Or.inr (hD _ e s htoward)
  · exact Or.inr (hD p e s hDp)

/-- Every thread of a run is on its way or has arrived. -/
theorem arriving_reachable (hlogic : Compatible logic inv halt pre) (hhalt : ∀ t, ¬ halt t)
    (hvalid : ∀ i p, S.mayStart i p → Valid (logic i) p (pre i) (fun _ => post i)) (hinit : inv s) (hpre : ∀ i, pre i s)
    {P : Nat → σ → Prop} {D : Nat → Prog σ ε Unit → Prop} (hP : ∀ i, Stable (logic i) (P i)) (hstart : ∀ i t, pre i t → P i t)
    (hD : ∀ i p e t, D i p → D i (p.step e t).1) (htoward : ∀ i p, S.mayStart i p → Toward (P i) (D i) p)
    {c : Config σ ε} (h : Reachable S s c) {i : Nat} {p : Prog σ ε Unit} (hi : c.threads[i]? = some p) :
    Arriving (P i) (D i) p c.state := by
  induction h generalizing i p with
  | init => simp at hi
  | @step c d hc hstep ih =>
    have hconcluding := (concluding_reachable hlogic (fun t ht => absurd ht (hhalt t)) hvalid hinit hpre hc).resolve_left
      (hhalt _)
    cases hstep with
    | @run j q e hs hj =>
      by_cases hij : i = j
      · subst hij
        rw [List.getElem?_set_self (List.getElem?_eq_some_iff.mp hj).1, Option.some.injEq] at hi
        rw [← hi]
        exact arriving_step (hD i) (ih hj)
      · rw [List.getElem?_set_ne (Ne.symm hij)] at hi
        exact (ih hi).imp_left fun hway => ⟨hconcluding.kept_run hlogic hhalt e hj hij (hP i) hway.1, hway.2⟩
    | @start q hs hq =>
      obtain hlt | heq | hgt := lt_trichotomy i c.threads.length
      · rw [List.getElem?_append_left hlt] at hi
        exact ih hi
      · rw [heq, List.getElem?_concat_length, Option.some.injEq] at hi
        rw [heq, ← hi]
        exact Or.inl ⟨hstart _ _ (hconcluding.waiting _ le_rfl), htoward _ _ hq⟩
      · rw [List.getElem?_eq_none (by simpa using hgt)] at hi
        cases hi

end Toward

end Threads.RelyGuarantee
