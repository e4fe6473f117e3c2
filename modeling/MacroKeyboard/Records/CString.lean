import MacroKeyboard.Records.PaddedText

namespace Records

open Records.PaddedText

/-- A string in memory, by its bytes before the terminator. -/
structure CString where
  bytes : List UInt8
  terminated : 0 ∉ bytes

namespace CString

def readAt (text : List UInt8) (index : Nat) : Option UInt8 := (text ++ [0])[index]?

variable {text : List UInt8}

theorem readAt_of_drop {index : Nat} {b : UInt8} {rest : List UInt8} (h : text.drop index = b :: rest) :
    readAt text index = some b := by
  have hlength : index < text.length := by
    by_contra hle
    rw [List.drop_eq_nil_of_le (not_lt.mp hle)] at h
    cases h
  rw [readAt, List.getElem?_append_left hlength, ← List.head?_drop, h]
  rfl

theorem readAt_length (text : List UInt8) : readAt text text.length = some 0 := by
  rw [readAt, List.getElem?_append_right le_rfl, Nat.sub_self]
  rfl

theorem drop_cons_or_end {index : Nat} (h : index ≤ text.length) :
    (∃ b rest, text.drop index = b :: rest ∧ text.drop (index + 1) = rest) ∨ (text.drop index = [] ∧ index = text.length) := by
  cases hdrop : text.drop index with
  | nil => exact Or.inr ⟨rfl, Nat.le_antisymm h (List.drop_eq_nil_iff.mp hdrop)⟩
  | cons b rest =>
    refine Or.inl ⟨b, rest, rfl, ?_⟩
    rw [← List.drop_drop, hdrop]
    rfl

theorem textOf_of_notMem (h : 0 ∉ text) : textOf text = text := by
  rw [textOf, List.takeWhile_eq_self_iff]
  intro b hmem
  rw [bne_iff_ne]
  rintro rfl
  exact h hmem

def cleared (buffer : List UInt8) : List UInt8 := buffer.set 0 0

theorem textOf_cleared (buffer : List UInt8) : textOf (cleared buffer) = [] := by
  cases buffer <;> rfl

theorem length_cleared (buffer : List UInt8) : (cleared buffer).length = buffer.length := List.length_set

end CString

end Records
