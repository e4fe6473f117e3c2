import MacroKeyboard.Threads.Parts

namespace Threads.RelyGuarantee

open Threads.Program Threads.Turns

variable {σ τ ε δ α : Type}

theorem always_true (p : Prog σ ε α) : Always (fun _ _ => True) p := by
  induction p with
  | ret a => trivial
  | act f k ih => exact ⟨fun _ _ => trivial, ih⟩
  | loop body k ihbody ih => exact ⟨fun _ => trivial, ihbody, ih⟩

theorem valid_and {L : Logic σ} {p : Prog σ ε α} {P P' : σ → Prop} {Q Q' : α → σ → Prop} (h : Valid L p P Q)
    (h' : Valid L p P' Q') : Valid L p (fun s => P s ∧ P' s) (fun a s => Q a s ∧ Q' a s) := by
  have hstable : ∀ {R R' : σ → Prop}, Stable L R → Stable L R' → Stable L (fun s => R s ∧ R' s) := by
    intro R R' hR hR' s s' hs hs' hrely hboth
    exact ⟨hR s s' hs hs' hrely hboth.1, hR' s s' hs hs' hrely hboth.2⟩
  induction p generalizing P P' with
  | ret a => exact fun s hs hboth => ⟨h s hs hboth.1, h' s hs hboth.2⟩
  | act f k ih =>
    obtain ⟨M, hM, hf, hk⟩ := h
    obtain ⟨M', hM', hf', hk'⟩ := h'
    refine ⟨fun b s => M b s ∧ M' b s, fun b => hstable (hM b) (hM' b), ?_, fun b => ih b (hk b) (hk' b)⟩
    intro e s hs hboth
    rcases hf e s hs hboth.1 with hhalt | ⟨hinv, hguar, hpost⟩
    · exact Or.inl hhalt
    · exact (hf' e s hs hboth.2).imp_right fun hnext => ⟨hinv, hguar, hpost, hnext.2.2⟩
  | loop body k ihbody ih =>
    obtain ⟨I, M, hI, hM, hstart, hbody, hk⟩ := h
    obtain ⟨I', M', hI', hM', hstart', hbody', hk'⟩ := h'
    refine ⟨fun s => I s ∧ I' s, fun b s => M b s ∧ M' b s, hstable hI hI', fun b => hstable (hM b) (hM' b),
      fun s hs hboth => ⟨hstart s hs hboth.1, hstart' s hs hboth.2⟩,
      (ihbody hbody hbody').post fun result s _ hresult => ?_, fun b => ih b (hk b) (hk' b)⟩
    cases result <;> exact hresult

section Unless

variable {L : Logic σ} {K : Logic τ} {surroundings : ε → δ} {get : σ → τ} {set : τ → σ → σ} {D F : σ → Prop}

/-- What is proved of a program over a part of the state holds within the whole, unless the
others have disturbed it. -/
theorem valid_zoom_unless (hhalt : ∀ t, ¬ K.halt t) (hinv : ∀ s, L.inv s → K.inv (get s))
    (hrely : ∀ s s', L.inv s → L.inv s' → L.rely s s' → F s → F s' ∧ (D s → D s') ∧ (D s' ∨ K.rely (get s) (get s')))
    (hset : ∀ s t, L.inv s → F s →
      get (set t s) = t ∧ L.inv (set t s) ∧ L.guar s (set t s) ∧ F (set t s) ∧ (D s → D (set t s)))
    {p : Prog τ δ α} {P : τ → Prop} {Q : α → τ → Prop} (h : Valid K p P Q) :
    Valid L (p.zoom surroundings get set) (fun s => F s ∧ (D s ∨ P (get s))) (fun a s => F s ∧ (D s ∨ Q a (get s))) := by
  have hstable : ∀ {P : τ → Prop}, Stable K P → Stable L (fun s => F s ∧ (D s ∨ P (get s))) := by
    intro P hP s s' hs hs' hr hh
    obtain ⟨hF, hkeeps, hsame⟩ := hrely s s' hs hs' hr hh.1
    refine ⟨hF, ?_⟩
    rcases hh.2 with hD | hPs
    · exact Or.inl (hkeeps hD)
    · exact hsame.imp_right fun hget => hP _ _ (hinv s hs) (hinv s' hs') hget hPs
  induction p generalizing P with
  | ret a => exact fun s hs hh => ⟨hh.1, hh.2.imp_right (h _ (hinv s hs))⟩
  | act f k ih =>
    obtain ⟨M, hM, hf, hk⟩ := h
    refine ⟨fun b s => F s ∧ (D s ∨ M b (get s)), fun b => hstable (hM b), fun e s hs hh => Or.inr ?_,
      fun b => ih b (hk b)⟩
    obtain ⟨hget, hnext, hguar, hF, hkeeps⟩ := hset s (f (surroundings e) (get s)).2 hs hh.1
    refine ⟨hnext, hguar, hF, ?_⟩
    rcases hh.2 with hD | hP
    · exact Or.inl (hkeeps hD)
    · have hpost := ((hf (surroundings e) _ (hinv s hs) hP).resolve_left (hhalt _)).2.2
      exact Or.inr (hget.symm ▸ hpost)
  | loop body k ihbody ih =>
    obtain ⟨I, M, hI, hM, hstart, hbody, hk⟩ := h
    refine ⟨fun s => F s ∧ (D s ∨ I (get s)), fun b s => F s ∧ (D s ∨ M b (get s)), hstable hI, fun b => hstable (hM b),
      fun s hs hh => ⟨hh.1, hh.2.imp_right (hstart _ (hinv s hs))⟩, (ihbody hbody).post fun result s _ hresult => ?_,
      fun b => ih b (hk b)⟩
    cases result <;> exact hresult

end Unless

end Threads.RelyGuarantee
