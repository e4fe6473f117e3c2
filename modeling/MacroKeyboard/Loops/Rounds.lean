import Mathlib

namespace Loops.Rounds

/-- What one round of a loop does: it ends the loop, or goes on in another state. -/
inductive Round (S R : Type)
  | done (r : R)
  | next (s : S)

variable {C S R : Type}

/-- The round keeps the invariant, and ends only with a result that is allowed. -/
def Round.Holds (I : S → Prop) (Q : R → Prop) : Round S R → Prop
  | .done r => Q r
  | .next s => I s

/-- At most `fuel` rounds of a loop that makes one call in each of them, the first
one with call number `n`. -/
def rounds (body : C → S → Round S R) (calls : Nat → C) : Nat → Nat → S → Option R
  | 0, _, _ => none
  | fuel + 1, n, s =>
    match body (calls n) s with
    | .done r => some r
    | .next t => rounds body calls fuel (n + 1) t

variable {body : C → S → Round S R} {calls : Nat → C}

theorem rounds_of_done {fuel n : Nat} {s : S} {r : R} (h : body (calls n) s = .done r) :
    rounds body calls (fuel + 1) n s = some r := by
  simp only [rounds, h]

theorem rounds_of_next {fuel n : Nat} {s t : S} (h : body (calls n) s = .next t) :
    rounds body calls (fuel + 1) n s = rounds body calls fuel (n + 1) t := by
  simp only [rounds, h]

theorem rounds_post {I : S → Prop} {Q : R → Prop} (hbody : ∀ c s, I s → (body c s).Holds I Q)
    {fuel n : Nat} {s : S} {r : R} (hs : I s) (h : rounds body calls fuel n s = some r) : Q r := by
  induction fuel generalizing n s with
  | zero => cases h
  | succ fuel ih =>
    have hround := hbody (calls n) s hs
    cases hbodyRound : body (calls n) s with
    | done r' =>
      rw [rounds_of_done hbodyRound] at h
      rw [hbodyRound] at hround
      cases h
      exact hround
    | next t =>
      rw [rounds_of_next hbodyRound] at h
      rw [hbodyRound] at hround
      exact ih hround h

theorem rounds_add {fuel n : Nat} {s : S} {r : R} (k : Nat) (h : rounds body calls fuel n s = some r) :
    rounds body calls (fuel + k) n s = some r := by
  induction fuel generalizing n s with
  | zero => cases h
  | succ fuel ih =>
    rw [Nat.add_right_comm]
    cases hround : body (calls n) s with
    | done r' =>
      rw [rounds_of_done hround] at h ⊢
      exact h
    | next t =>
      rw [rounds_of_next hround] at h ⊢
      exact ih h

theorem rounds_within {I : S → Prop} (calls : Nat → C) (measure : S → Nat)
    (hbody : ∀ c s t, I s → body c s = .next t → I t ∧ measure t < measure s) {n : Nat} {s : S} (hs : I s) :
    ∃ r, rounds body calls (measure s + 1) n s = some r := by
  induction hmeasure : measure s using Nat.strong_induction_on generalizing n s with
  | _ k ih =>
    cases hround : body (calls n) s with
    | done r => exact ⟨r, rounds_of_done hround⟩
    | next t =>
      obtain ⟨ht, hless⟩ := hbody (calls n) s t hs hround
      obtain ⟨r, hr⟩ := ih (measure t) (hmeasure ▸ hless) (n := n + 1) ht rfl
      refine ⟨r, ?_⟩
      rw [rounds_of_next hround]
      have hmore := rounds_add (k - (measure t + 1)) hr
      rwa [show measure t + 1 + (k - (measure t + 1)) = k by omega] at hmore

/-- A loop whose rounds make progress unless their call is idle ends when calls that
are not idle keep coming. -/
theorem rounds_end (body : C → S → Round S R) (calls : Nat → C) (idle : C → Prop) (measure : S → Nat) (hcalls : ∀ n, ∃ m, n ≤ m ∧ ¬ idle (calls m))
    (hbody : ∀ c s t, body c s = .next t → measure t < measure s ∨ (idle c ∧ measure t ≤ measure s)) (n : Nat) (s : S) :
    ∃ fuel r, rounds body calls fuel n s = some r := by
  induction hmeasure : measure s using Nat.strong_induction_on generalizing n s with
  | _ k ih =>
    obtain ⟨m, hm, hcall⟩ := hcalls n
    obtain ⟨distance, rfl⟩ := Nat.exists_eq_add_of_le hm
    -- the induction is on the number of idle calls before the next one that is not
    induction distance generalizing n s with
    | zero =>
      cases hround : body (calls n) s with
      | done r => exact ⟨1, r, rounds_of_done hround⟩
      | next t =>
        obtain hless | ⟨hidle, -⟩ := hbody (calls n) s t hround
        · obtain ⟨fuel, r, hr⟩ := ih (measure t) (hmeasure ▸ hless) (n + 1) t rfl
          exact ⟨fuel + 1, r, (rounds_of_next hround).trans hr⟩
        · exact absurd hidle hcall
    | succ distance ihdistance =>
      cases hround : body (calls n) s with
      | done r => exact ⟨1, r, rounds_of_done hround⟩
      | next t =>
        have hle : measure t ≤ k := by
          obtain hless | ⟨-, hle⟩ := hbody (calls n) s t hround
          · omega
          · omega
        obtain ⟨fuel, r, hr⟩ : ∃ fuel r, rounds body calls fuel (n + 1) t = some r := by
          by_cases hless : measure t < k
          · exact ih (measure t) hless (n + 1) t rfl
          · apply ihdistance (n + 1) t (by omega) (by omega)
            rwa [Nat.add_right_comm]
        exact ⟨fuel + 1, r, (rounds_of_next hround).trans hr⟩

end Loops.Rounds
