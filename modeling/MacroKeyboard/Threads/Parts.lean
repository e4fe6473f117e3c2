import MacroKeyboard.Threads.RelyGuarantee
import MacroKeyboard.Threads.Turns

namespace Threads.RelyGuarantee

open Threads.Program Threads.Turns

variable {σ ε α : Type} {L : Logic σ}

theorem valid_of_always {R : σ → σ → Prop} {P : σ → Prop} {p : Prog σ ε α} (hP : Stable L P)
    (hstep : ∀ s s', L.inv s → P s → R s s' → L.inv s' ∧ L.guar s s' ∧ P s') (h : Always R p) :
    Valid L p P (fun _ => P) := by
  induction p with
  | ret a => exact fun _ _ h => h
  | act f k ih =>
    exact ⟨fun _ => P, fun _ => hP, fun e s hs hPs => Or.inr (hstep s _ hs hPs (h.1 e s)), fun b => ih b (h.2 b)⟩
  | loop body k ihbody ih =>
    refine ⟨P, fun _ => P, hP, fun _ => hP, fun _ _ h => h, (ihbody h.2.1).post fun result s _ hPs => ?_,
      fun b => ih b (h.2.2 b)⟩
    cases result <;> exact hPs

theorem valid_exists {ι : Type} {p : Prog σ ε α} {P : ι → σ → Prop} {Q : α → σ → Prop}
    (h : ∀ x, Valid L p (P x) Q) : Valid L p (fun s => ∃ x, P x s) Q := by
  induction p generalizing P with
  | ret a => exact fun s hs ⟨x, hx⟩ => h x s hs hx
  | act f k ih =>
    choose M hM hf hk using h
    refine ⟨fun b s => ∃ x, M x b s, fun b s s' hs hs' hr ⟨x, hx⟩ => ⟨x, hM x b s s' hs hs' hr hx⟩,
      fun e s hs ⟨x, hx⟩ => ?_, fun b => ih b fun x => hk x b⟩
    exact (hf x e s hs hx).imp_right fun hnext => ⟨hnext.1, hnext.2.1, x, hnext.2.2⟩
  | loop body k ihbody ih =>
    choose I M hI hM hstart hbody hk using h
    refine ⟨fun s => ∃ x, I x s, fun b s => ∃ x, M x b s, fun s s' hs hs' hr ⟨x, hx⟩ => ⟨x, hI x s s' hs hs' hr hx⟩,
      fun b s s' hs hs' hr ⟨x, hx⟩ => ⟨x, hM x b s s' hs hs' hr hx⟩, fun s hs ⟨x, hx⟩ => ⟨x, hstart x s hs hx⟩,
      ihbody fun x => (hbody x).post fun result s _ hresult => ?_, fun b => ih b fun x => hk x b⟩
    cases result <;> exact ⟨x, hresult⟩

section Zoom

variable {τ δ : Type} {K : Logic τ} {surroundings : ε → δ} {get : σ → τ} {set : τ → σ → σ} {F : σ → Prop}

/-- What is proved of a program over a part of the state holds within the whole,
beside an assertion `F` about the rest that its steps keep. -/
theorem valid_zoom (hhalt : ∀ t, ¬ K.halt t) (hinv : ∀ s, L.inv s → K.inv (get s))
    (hrely : ∀ s s', L.inv s → L.inv s' → L.rely s s' → F s → F s' ∧ K.rely (get s) (get s'))
    (hset : ∀ s t, L.inv s → F s → K.guar (get s) t →
      get (set t s) = t ∧ L.inv (set t s) ∧ L.guar s (set t s) ∧ F (set t s))
    {p : Prog τ δ α} {P : τ → Prop} {Q : α → τ → Prop} (h : Valid K p P Q) :
    Valid L (p.zoom surroundings get set) (fun s => F s ∧ P (get s)) (fun a s => F s ∧ Q a (get s)) := by
  have hstable : ∀ {P : τ → Prop}, Stable K P → Stable L (fun s => F s ∧ P (get s)) := by
    intro P hP s s' hs hs' hr hh
    obtain ⟨hF, hget⟩ := hrely s s' hs hs' hr hh.1
    exact ⟨hF, hP _ _ (hinv s hs) (hinv s' hs') hget hh.2⟩
  induction p generalizing P with
  | ret a => exact fun s hs hh => ⟨hh.1, h _ (hinv s hs) hh.2⟩
  | act f k ih =>
    obtain ⟨M, hM, hf, hk⟩ := h
    refine ⟨fun b s => F s ∧ M b (get s), fun b => hstable (hM b), fun e s hs hh => Or.inr ?_, fun b => ih b (hk b)⟩
    obtain ⟨hnext, hguar, hpost⟩ := (hf (surroundings e) _ (hinv s hs) hh.2).resolve_left (hhalt _)
    obtain ⟨hget, hinv', hguar', hF⟩ := hset s _ hs hh.1 hguar
    exact ⟨hinv', hguar', hF, hget.symm ▸ hpost⟩
  | loop body k ihbody ih =>
    obtain ⟨I, M, hI, hM, hstart, hbody, hk⟩ := h
    refine ⟨fun s => F s ∧ I (get s), fun b s => F s ∧ M b (get s), hstable hI, fun b => hstable (hM b),
      fun s hs hh => ⟨hh.1, hstart _ (hinv s hs) hh.2⟩, (ihbody hbody).post fun result s _ hresult => ?_,
      fun b => ih b (hk b)⟩
    cases result <;> exact hresult

theorem always_zoom {R : σ → σ → Prop} {R' : τ → τ → Prop} (hrefl : ∀ s, R s s)
    (hset : ∀ s t, R' (get s) t → R s (set t s)) {p : Prog τ δ α} (h : Always R' p) :
    Always R (p.zoom surroundings get set) := by
  induction p with
  | ret a => trivial
  | act f k ih => exact ⟨fun e s => hset s _ (h.1 _ _), fun b => ih b (h.2 b)⟩
  | loop body k ihbody ih => exact ⟨hrefl, ihbody h.2.1, fun b => ih b (h.2.2 b)⟩

end Zoom

end Threads.RelyGuarantee
