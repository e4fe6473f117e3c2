import Mathlib

namespace Lockouts.SlidingWindow

variable {limit window lockout : ℕ}

section Held

def recent (window now : ℕ) (failures : List ℕ) : List ℕ := failures.filter (fun failure => now - failure < window)

/-- The end of the lockout that failures earn, the latest first: it runs from the
latest one, if as many of them as the limit lie within the window. -/
def heldUntil (limit window lockout : ℕ) (failures : List ℕ) : ℕ :=
  match failures.head?, failures[limit - 1]? with
  | some latest, some first => if latest - first < window then latest + lockout else 0
  | _, _ => 0

/-- Every failure comes after the lockout that those before it earned. -/
def Spaced (limit window lockout : ℕ) : List ℕ → Prop
  | [] => True
  | latest :: earlier =>
    heldUntil limit window lockout earlier ≤ latest ∧ (∀ failure ∈ earlier, failure ≤ latest) ∧
      Spaced limit window lockout earlier

theorem Spaced.pairwise {failures : List ℕ} (h : Spaced limit window lockout failures) :
    failures.Pairwise (fun later earlier => earlier ≤ later) := by
  induction failures with
  | nil => exact List.Pairwise.nil
  | cons latest earlier ih => exact List.pairwise_cons.mpr ⟨h.2.1, ih h.2.2⟩

end Held

section Recent

variable {now : ℕ} {failures : List ℕ}

theorem recent_recent {later : ℕ} (h : now ≤ later) (failures : List ℕ) :
    recent window later (recent window now failures) = recent window later failures := by
  rw [recent, recent, recent, List.filter_filter]
  refine List.filter_congr fun failure _ => ?_
  rw [Bool.and_eq_left_iff_imp, decide_eq_true_eq, decide_eq_true_eq]
  omega

/-- The window holds a failure at one place of an ordered list if it holds those up to it. -/
theorem lt_length_recent (hordered : failures.Pairwise (fun later earlier => earlier ≤ later)) (n : ℕ) :
    n < (recent window now failures).length ↔ ∃ failure, failures[n]? = some failure ∧ now - failure < window := by
  induction failures generalizing n with
  | nil => simp [recent]
  | cons latest earlier ih =>
    obtain ⟨hlatest, hearlier⟩ := List.pairwise_cons.mp hordered
    by_cases hin : now - latest < window
    · rw [recent, List.filter_cons_of_pos (by simpa using hin), ← recent]
      cases n with
      | zero => simp [hin]
      | succ n =>
        rw [List.length_cons, Nat.add_lt_add_iff_right, ih hearlier, List.getElem?_cons_succ]
    · have hnone : recent window now (latest :: earlier) = [] := by
        refine List.filter_eq_nil_iff.mpr fun failure hmem => ?_
        rw [decide_eq_true_eq]
        cases List.mem_cons.mp hmem with
        | inl heq => exact heq ▸ hin
        | inr hold =>
          have hle := hlatest failure hold
          omega
      rw [hnone, List.length_nil]
      refine ⟨fun h => absurd h (Nat.not_lt_zero n), fun ⟨failure, hget, hlt⟩ => ?_⟩
      have hle : failure ≤ latest := by
        cases List.mem_cons.mp (List.mem_of_getElem? hget) with
        | inl heq => exact heq.le
        | inr hold => exact hlatest failure hold
      omega

theorem recent_eq_nil (hbefore : ∀ failure ∈ failures, failure + window ≤ now) : recent window now failures = [] := by
  refine List.filter_eq_nil_iff.mpr fun failure hmem => ?_
  rw [decide_eq_true_eq]
  have hle := hbefore failure hmem
  omega

end Recent

section Lockout

variable {now : ℕ} {failures : List ℕ}

theorem heldUntil_cases (limit window lockout : ℕ) (failures : List ℕ) :
    heldUntil limit window lockout failures = 0 ∨
      ∃ latest first, failures.head? = some latest ∧ failures[limit - 1]? = some first ∧ latest - first < window ∧
        heldUntil limit window lockout failures = latest + lockout := by
  unfold heldUntil
  split
  next latest first hlatest hfirst =>
    split
    next hlt => exact Or.inr ⟨latest, first, hlatest, hfirst, hlt, rfl⟩
    · exact Or.inl rfl
  · exact Or.inl rfl

theorem le_head (hordered : failures.Pairwise (fun later earlier => earlier ≤ later)) {latest : ℕ}
    (hlatest : failures.head? = some latest) : ∀ failure ∈ failures, failure ≤ latest := by
  cases failures with
  | nil => cases hlatest
  | cons first earlier =>
    rw [List.head?_cons, Option.some_inj] at hlatest
    intro failure hmem
    cases List.mem_cons.mp hmem with
    | inl heq => exact (heq.trans hlatest).le
    | inr hold => exact hlatest ▸ (List.pairwise_cons.mp hordered).1 failure hold

theorem recent_of_held (hordered : failures.Pairwise (fun later earlier => earlier ≤ later)) (hwindow : window ≤ lockout)
    (hheld : heldUntil limit window lockout failures ≠ 0) (hover : heldUntil limit window lockout failures ≤ now) :
    recent window now failures = [] := by
  obtain hzero | ⟨latest, first, hlatest, -, -, hend⟩ := heldUntil_cases limit window lockout failures
  · exact absurd hzero hheld
  · refine recent_eq_nil fun failure hmem => ?_
    have hle := le_head hordered hlatest failure hmem
    omega

theorem length_recent_lt (hordered : failures.Pairwise (fun later earlier => earlier ≤ later)) (hlimit : 0 < limit)
    (hpast : ∀ failure ∈ failures, failure ≤ now) (hwindow : window ≤ lockout)
    (hover : heldUntil limit window lockout failures ≤ now) : (recent window now failures).length < limit := by
  by_contra hfull
  have hlast : limit - 1 < (recent window now failures).length := by omega
  obtain ⟨first, hfirst, hlt⟩ := (lt_length_recent hordered (limit - 1)).mp hlast
  cases hhead : failures.head? with
  | none =>
    rw [List.head?_eq_none_iff] at hhead
    rw [hhead] at hfirst
    cases hfirst
  | some latest =>
    have hle : first ≤ latest := le_head hordered hhead first (List.mem_of_getElem? hfirst)
    have hnow : latest ≤ now := hpast latest (List.mem_of_mem_head? hhead)
    have hheld : heldUntil limit window lockout failures = latest + lockout := by
      rw [heldUntil, hhead, hfirst]
      exact if_pos (by omega)
    omega

/-- A failure earns a lockout when it fills the window. -/
theorem heldUntil_cons (hordered : failures.Pairwise (fun later earlier => earlier ≤ later)) (hlimit : 1 < limit) :
    heldUntil limit window lockout (now :: failures) =
      if limit ≤ (recent window now failures).length + 1 then now + lockout else 0 := by
  obtain ⟨n, rfl⟩ : ∃ n, limit = n + 2 := ⟨limit - 2, by omega⟩
  have hiff : n < (recent window now failures).length ↔ ∃ failure, failures[n]? = some failure ∧ now - failure < window :=
    lt_length_recent hordered n
  rw [heldUntil, List.head?_cons]
  have hget : (now :: failures)[n + 2 - 1]? = failures[n]? := rfl
  rw [hget]
  cases hfirst : failures[n]? with
  | none =>
    rw [hfirst] at hiff
    have hnot : ¬ n < (recent window now failures).length := fun hlt => by
      obtain ⟨failure, hnone, -⟩ := hiff.mp hlt
      cases hnone
    exact (if_neg (by omega)).symm
  | some first =>
    rw [hfirst] at hiff
    have hsame : now - first < window ↔ n + 2 ≤ (recent window now failures).length + 1 := by
      constructor
      · intro hlt
        have hroom := hiff.mpr ⟨first, rfl, hlt⟩
        omega
      · intro hroom
        obtain ⟨failure, heq, hlt⟩ := hiff.mp (by omega)
        exact Option.some.inj heq ▸ hlt
    exact if_congr hsame rfl rfl

theorem Spaced.length_le (h : Spaced limit window lockout failures) (hlimit : 1 < limit)
    (hlong : window ≤ lockout) (start : ℕ) :
    (failures.filter (fun failure => start ≤ failure ∧ failure < start + window)).length ≤ limit := by
  induction failures with
  | nil => exact Nat.zero_le limit
  | cons latest earlier ih =>
    by_cases hin : start ≤ latest ∧ latest < start + window
    · have hsub : (earlier.filter (fun failure => start ≤ failure ∧ failure < start + window)).length ≤
          (recent window latest earlier).length := by
        refine List.Sublist.length_le (List.monotone_filter_right earlier fun failure hkept => ?_)
        rw [decide_eq_true_eq] at hkept ⊢
        omega
      have hroom := length_recent_lt h.2.2.pairwise (Nat.zero_lt_of_lt hlimit) h.2.1 hlong h.1
      rw [List.filter_cons_of_pos (by simpa using hin), List.length_cons]
      omega
    · rw [List.filter_cons_of_neg (by simpa using hin)]
      exact ih h.2.2

end Lockout

end Lockouts.SlidingWindow
