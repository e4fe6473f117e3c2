import Mathlib

namespace Records.Keyed

variable {α κ : Type}

section Edits

/-- One item of which `named` holds is changed to another. -/
def Changed (named : α → Prop) (R : α → α → Prop) (before after : List α) : Prop :=
  ∃ front x y back, before = front ++ x :: back ∧ named x ∧ R x y ∧ after = front ++ y :: back

/-- One item of which `named` holds is followed by a new one. -/
def Followed (named : α → Prop) (R : α → α → Prop) (before after : List α) : Prop :=
  ∃ front x y back, before = front ++ x :: back ∧ named x ∧ R x y ∧ after = front ++ x :: y :: back

/-- One item of which `named` holds is left out. -/
def Removed (named : α → Prop) (before after : List α) : Prop :=
  ∃ front x back, before = front ++ x :: back ∧ named x ∧ after = front ++ back

/-- The item at one place is put at another, and the others keep their order. -/
structure Moved (index target : Nat) (before after : List α) : Prop where
  source : index < before.length
  perm : after.Perm before
  placed : after[target]? = before[index]?
  others : after.eraseIdx target = before.eraseIdx index

theorem Removed.sublist {named : α → Prop} {before after : List α} (h : Removed named before after) : after.Sublist before := by
  obtain ⟨front, x, back, rfl, -, rfl⟩ := h
  exact List.Sublist.append_left (List.sublist_cons_self x back) front

theorem Followed.perm {named : α → Prop} {R : α → α → Prop} {before after : List α} (h : Followed named R before after) :
    ∃ x ∈ before, ∃ y, named x ∧ R x y ∧ after.Perm (y :: before) := by
  obtain ⟨front, x, y, back, rfl, hnamed, hR, rfl⟩ := h
  refine ⟨x, List.mem_append_right _ List.mem_cons_self, y, hnamed, hR, ?_⟩
  have hswap : (front ++ x :: y :: back).Perm (front ++ y :: x :: back) := (List.Perm.swap y x back).append_left front
  exact hswap.trans List.perm_middle

theorem moved_insertIdx {items : List α} {index target : Nat} {x : α} (hx : items[index]? = some x)
    (htarget : target < items.length) : Moved index target items ((items.eraseIdx index).insertIdx target x) := by
  obtain ⟨hindex, hget⟩ := List.getElem?_eq_some_iff.mp hx
  have hlength : (items.eraseIdx index).length = items.length - 1 := List.length_eraseIdx_of_lt hindex
  have hplace : target ≤ (items.eraseIdx index).length := by omega
  refine ⟨hindex, ?_, ?_, List.eraseIdx_insertIdx_self x⟩
  · have hfront : (x :: items.eraseIdx index).Perm items := hget ▸ List.getElem_cons_eraseIdx_perm hindex
    exact (List.perm_insertIdx x _ hplace).trans hfront
  · rw [List.getElem?_insertIdx_self, if_pos hplace, hx]

end Edits

section Splits

variable {front back : List α} {x y : α} {p : α → Bool}

theorem split_of_find? {items : List α} (h : items.find? p = some x) :
    ∃ front back, items = front ++ x :: back ∧ p x = true := by
  obtain ⟨hx, front, back, hsplit, -⟩ := List.find?_eq_some_iff_append.mp h
  exact ⟨front, back, hsplit, hx⟩

theorem split_of_findIdx {items : List α} (h : items[items.findIdx p]? = some x) :
    ∃ front back, items = front ++ x :: back ∧ p x = true ∧ items.findIdx p = front.length := by
  obtain ⟨hlt, hget⟩ := List.getElem?_eq_some_iff.mp h
  refine ⟨items.take (items.findIdx p), items.drop (items.findIdx p + 1), ?_, ?_, ?_⟩
  · rw [← hget, ← List.drop_eq_getElem_cons hlt, List.take_append_drop]
  · rw [← hget]
    exact List.findIdx_getElem
  · rw [List.length_take, min_eq_left hlt.le]

theorem set_split : (front ++ x :: back).set front.length y = front ++ y :: back := by
  simp

theorem insertIdx_split : (front ++ x :: back).insertIdx (front.length + 1) y = front ++ x :: y :: back := by
  induction front with
  | nil => rfl
  | cons first front ih => rw [List.cons_append, List.length_cons, List.insertIdx_succ_cons, ih, List.cons_append]

end Splits

section Keys

variable {key : α → κ} {front back : List α} {x : α}

theorem key_ne_of_split (h : ((front ++ x :: back).map key).Nodup) :
    (∀ y ∈ front, key y ≠ key x) ∧ ∀ y ∈ back, key y ≠ key x := by
  rw [List.map_append, List.map_cons, List.nodup_middle, List.nodup_cons, ← List.map_append, List.mem_map, not_exists] at h
  constructor
  · exact fun y hmem heq => h.1 y ⟨List.mem_append_left _ hmem, heq⟩
  · exact fun y hmem heq => h.1 y ⟨List.mem_append_right _ hmem, heq⟩

variable [DecidableEq κ]

theorem map_replace_split (h : ((front ++ x :: back).map key).Nodup) (next : α) :
    (front ++ x :: back).map (fun y => if key y = key x then next else y) = front ++ next :: back := by
  obtain ⟨hfront, hback⟩ := key_ne_of_split h
  have hsame {items : List α} (hne : ∀ y ∈ items, key y ≠ key x) :
      items.map (fun y => if key y = key x then next else y) = items := by
    rw [List.map_congr_left fun y hmem => if_neg (hne y hmem), List.map_id']
  rw [List.map_append, List.map_cons, if_pos rfl, hsame hfront, hsame hback]

theorem filter_ne_split (h : ((front ++ x :: back).map key).Nodup) :
    (front ++ x :: back).filter (fun y => key y ≠ key x) = front ++ back := by
  obtain ⟨hfront, hback⟩ := key_ne_of_split h
  have hsame {items : List α} (hne : ∀ y ∈ items, key y ≠ key x) : items.filter (fun y => key y ≠ key x) = items :=
    List.filter_eq_self.mpr fun y hmem => decide_eq_true (hne y hmem)
  rw [List.filter_append, List.filter_cons, if_neg (by simp), hsame hfront, hsame hback]

end Keys

theorem nodup_of_subperm {items others : List α} (h : items.Subperm others) (hothers : others.Nodup) : items.Nodup := by
  obtain ⟨middle, hperm, hsublist⟩ := h
  exact hperm.nodup_iff.mp (hothers.sublist hsublist)

end Records.Keyed
