import Mathlib

namespace Records.PaddedText

def textOf (buffer : List UInt8) : List UInt8 := buffer.takeWhile (· != 0)

def pad (length : Nat) (text : List UInt8) : List UInt8 :=
  text ++ List.replicate (length - text.length) 0

def Padded (buffer : List UInt8) : Prop :=
  ∃ text, 0 ∉ text ∧ text.length < buffer.length ∧ buffer = pad buffer.length text

theorem length_pad {length : Nat} {text : List UInt8} (h : text.length ≤ length) :
    (pad length text).length = length := by
  rw [pad, List.length_append, List.length_replicate]
  omega

theorem zero_notMem_textOf (buffer : List UInt8) : 0 ∉ textOf buffer := by
  intro hmem
  have hzero := List.mem_takeWhile_imp hmem
  simp at hzero

theorem length_textOf_le (buffer : List UInt8) : (textOf buffer).length ≤ buffer.length :=
  (List.takeWhile_sublist _).length_le

theorem textOf_append_zero {text rest : List UInt8} (h : 0 ∉ text) : textOf (text ++ 0 :: rest) = text := by
  have hall : ∀ byte ∈ text, (byte != 0) = true := fun byte hmem => by
    rw [bne_iff_ne]
    rintro rfl
    exact h hmem
  rw [textOf, List.takeWhile_append_of_pos hall]
  simp

theorem textOf_pad {length : Nat} {text : List UInt8} (h : 0 ∉ text) : textOf (pad length text) = text := by
  unfold pad
  cases hn : length - text.length with
  | zero =>
    rw [List.replicate_zero, List.append_nil, textOf, List.takeWhile_eq_self_iff]
    intro byte hmem
    rw [bne_iff_ne]
    rintro rfl
    exact h hmem
  | succ n => exact textOf_append_zero h

theorem split_of_terminated {buffer : List UInt8} (h : 0 ∈ buffer) :
    buffer = textOf buffer ++ 0 :: buffer.drop ((textOf buffer).length + 1) := by
  induction buffer with
  | nil => cases h
  | cons byte rest ih =>
    by_cases hbyte : byte = 0
    · simp [textOf, hbyte]
    · have hrest : 0 ∈ rest := (List.mem_cons.mp h).resolve_left (Ne.symm hbyte)
      have htext : textOf (byte :: rest) = byte :: textOf rest := by simp [textOf, hbyte]
      rw [htext, List.cons_append, List.length_cons, List.drop_succ_cons]
      exact congrArg (byte :: ·) (ih hrest)

theorem length_textOf_lt {buffer : List UInt8} (h : 0 ∈ buffer) : (textOf buffer).length < buffer.length := by
  have hlength := congrArg List.length (split_of_terminated h)
  rw [List.length_append, List.length_cons] at hlength
  omega

theorem padded_iff {buffer : List UInt8} : Padded buffer ↔
    0 ∈ buffer ∧ ∀ byte ∈ buffer.drop ((textOf buffer).length + 1), byte = 0 := by
  constructor
  · rintro ⟨text, hzero, hlength, hbuffer⟩
    have htext : textOf buffer = text := by rw [hbuffer, textOf_pad hzero]
    have hdrop : buffer.drop (text.length + 1) =
        (List.replicate (buffer.length - text.length) (0 : UInt8)).drop 1 := by
      rw [← List.drop_drop, hbuffer, pad, List.drop_left, ← pad, ← hbuffer]
    refine ⟨?_, fun byte hmem => ?_⟩
    · rw [hbuffer, pad, List.mem_append, List.mem_replicate]
      exact Or.inr ⟨by omega, rfl⟩
    · rw [htext, hdrop] at hmem
      exact List.eq_of_mem_replicate (List.mem_of_mem_drop hmem)
  · rintro ⟨hzero, hrest⟩
    refine ⟨textOf buffer, zero_notMem_textOf buffer, length_textOf_lt hzero, ?_⟩
    have hlength := length_textOf_lt hzero
    have htail : (0 : UInt8) :: buffer.drop ((textOf buffer).length + 1) =
        List.replicate (buffer.length - (textOf buffer).length) 0 := by
      rw [List.eq_replicate_iff, List.length_cons, List.length_drop]
      exact ⟨by omega, by simpa using hrest⟩
    rw [pad, ← htail]
    exact split_of_terminated hzero

theorem pad_textOf {buffer : List UInt8} (h : Padded buffer) : pad buffer.length (textOf buffer) = buffer := by
  obtain ⟨text, hzero, -, hbuffer⟩ := h
  have htext : textOf buffer = text := by rw [hbuffer, textOf_pad hzero]
  rw [htext]
  exact hbuffer.symm

theorem padded_pad {length : Nat} {text : List UInt8} (hzero : 0 ∉ text) (h : text.length < length) :
    Padded (pad length text) := by
  have hlength := length_pad (Nat.le_of_lt h)
  exact ⟨text, hzero, by rw [hlength]; exact h, by rw [hlength]⟩

end Records.PaddedText
