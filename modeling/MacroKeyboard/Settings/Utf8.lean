import MacroKeyboard.Json.Text
import MacroKeyboard.Settings.DeviceSettings

namespace MacroKeyboard.Settings

open Json

theorem utf8Lead_two {k : Nat} (hlow : 2 ≤ k) (h : k < 0x20) :
    utf8Lead (.ofNat (k + 0xc0)) = some (.ofNat k, 1, 0x80) := by
  have hall : ∀ bits : Fin 0x20, 2 ≤ bits.val → utf8Lead (.ofNat (bits.val + 0xc0)) = some (.ofNat bits.val, 1, 0x80) := by
    decide
  exact hall ⟨k, h⟩ hlow

theorem utf8Lead_three {k : Nat} (h : k < 0x10) : utf8Lead (.ofNat (k + 0xe0)) = some (.ofNat k, 2, 0x800) := by
  have hall : ∀ bits : Fin 0x10, utf8Lead (.ofNat (bits.val + 0xe0)) = some (.ofNat bits.val, 2, 0x800) := by decide
  exact hall ⟨k, h⟩

theorem utf8Lead_four {k : Nat} (h : k < 5) : utf8Lead (.ofNat (k + 0xf0)) = some (.ofNat k, 3, 0x10000) := by
  have hall : ∀ bits : Fin 5, utf8Lead (.ofNat (bits.val + 0xf0)) = some (.ofNat bits.val, 3, 0x10000) := by decide
  exact hall ⟨k, h⟩

theorem continuation_bits {d : Nat} (h : d < 0x40) :
    UInt8.ofNat (d + 0x80) &&& 0xc0 = 0x80 ∧ (UInt8.ofNat (d + 0x80) &&& 0x3f).toUInt32 = .ofNat d := by
  have hall : ∀ bits : Fin 0x40,
      UInt8.ofNat (bits.val + 0x80) &&& 0xc0 = 0x80 ∧ (UInt8.ofNat (bits.val + 0x80) &&& 0x3f).toUInt32 = .ofNat bits.val := by
    decide
  exact hall ⟨d, h⟩

theorem utf8Continue_cons {codePoint d : Nat} (hpoint : codePoint < 0x8000) (hd : d < 0x40) (rest : List UInt8) :
    utf8Continue (.ofNat codePoint) (.ofNat (d + 0x80) :: rest) = utf8Continue (.ofNat (codePoint * 0x40 + d)) rest := by
  obtain ⟨hmark, hbits⟩ := continuation_bits hd
  have hvalue : (UInt32.ofNat codePoint <<< 6) ||| UInt32.ofNat d = .ofNat (codePoint * 0x40 + d) := by
    apply UInt32.toNat_inj.mp
    have hshift : codePoint <<< 6 = codePoint * 0x40 := by rw [Nat.shiftLeft_eq]
    have hor := Nat.shiftLeft_add_eq_or_of_lt (show d < 2 ^ 6 from hd) codePoint
    rw [UInt32.toNat_or, UInt32.toNat_shiftLeft, UInt32.toNat_ofNat', UInt32.toNat_ofNat', UInt32.toNat_ofNat',
      Nat.mod_eq_of_lt (show codePoint < 2 ^ 32 by omega), Nat.mod_eq_of_lt (show d < 2 ^ 32 by omega),
      Nat.mod_eq_of_lt (show codePoint * 0x40 + d < 2 ^ 32 by omega), show (6 : UInt32).toNat % 32 = 6 from rfl,
      Nat.mod_eq_of_lt (show codePoint <<< 6 < 2 ^ 32 by omega), ← hor, hshift]
  rw [utf8Continue, if_neg (not_not.mpr hmark), hbits, hvalue]

theorem validUtf8Loop_sequence (sequence : List UInt8) {passes codePoint : Nat} {first : UInt8} {bits minimum : UInt32}
    {rest : List UInt8} (hfirst : 0x7f < first) (hlead : utf8Lead first = some (bits, sequence.length, minimum))
    (hcontinue : utf8Continue bits sequence = some (.ofNat codePoint)) (hlow : minimum.toNat ≤ codePoint)
    (hpoint : codePoint < 0xd800 ∨ (0xdfff < codePoint ∧ codePoint < 0x110000)) :
    validUtf8Loop (passes + 1) (first :: (sequence ++ rest)) = validUtf8Loop passes rest := by
  have htoNat : (UInt32.ofNat codePoint).toNat = codePoint := by
    rw [UInt32.toNat_ofNat', Nat.mod_eq_of_lt]
    omega
  have hbad : ¬ (UInt32.ofNat codePoint < minimum ∨ UInt32.ofNat codePoint > 0x10ffff ∨
      (0xd800 ≤ UInt32.ofNat codePoint ∧ UInt32.ofNat codePoint ≤ 0xdfff)) := by
    simp only [UInt32.lt_iff_toNat_lt, UInt32.le_iff_toNat_le, gt_iff_lt, htoNat]
    have htop : (0x10ffff : UInt32).toNat = 0x10ffff := rfl
    have hhigh : (0xd800 : UInt32).toNat = 0xd800 := rfl
    have hlast : (0xdfff : UInt32).toNat = 0xdfff := rfl
    omega
  rw [validUtf8Loop, if_neg (UInt8.not_le.mpr hfirst), hlead]
  dsimp only
  rw [if_neg (by rw [List.length_append]; omega), List.take_left, hcontinue]
  dsimp only
  rw [if_neg hbad, List.drop_left]

theorem lt_ofNat_of_lt {n : Nat} (hlow : 0x7f < n) (hhigh : n < 0x100) : 0x7f < UInt8.ofNat n := by
  rw [UInt8.lt_iff_toNat_lt, UInt8.toNat_ofNat', Nat.mod_eq_of_lt (by omega)]
  exact hlow

theorem validUtf8Loop_utf8EncodeChar (passes : Nat) (c : Char) (rest : List UInt8) :
    validUtf8Loop (passes + 1) (String.utf8EncodeChar c ++ rest) = validUtf8Loop passes rest := by
  have hvalid : c.val.toNat < 0xd800 ∨ (0xdfff < c.val.toNat ∧ c.val.toNat < 0x110000) := c.valid
  unfold String.utf8EncodeChar
  dsimp only
  generalize c.val.toNat = v at *
  split
  next h =>
    have hfirst : UInt8.ofNat v ≤ 0x7f := by
      rw [UInt8.le_iff_toNat_le, UInt8.toNat_ofNat', Nat.mod_eq_of_lt (by omega)]
      exact h
    rw [List.singleton_append, validUtf8Loop, if_pos hfirst]
  split
  next h =>
    refine validUtf8Loop_sequence [_] (lt_ofNat_of_lt (by omega) (by omega))
      (utf8Lead_two (by omega) (by omega)) ?_ (show 0x80 ≤ v by omega) hvalid
    rw [utf8Continue_cons (by omega) (by omega), utf8Continue]
    congr 2
    omega
  split
  next h =>
    refine validUtf8Loop_sequence [_, _] (lt_ofNat_of_lt (by omega) (by omega))
      (utf8Lead_three (by omega)) ?_ (show 0x800 ≤ v by omega) hvalid
    rw [utf8Continue_cons (by omega) (by omega), utf8Continue_cons (by omega) (by omega), utf8Continue]
    congr 2
    omega
  next h =>
    refine validUtf8Loop_sequence [_, _, _] (lt_ofNat_of_lt (by omega) (by omega))
      (utf8Lead_four (by omega)) ?_ (show 0x10000 ≤ v by omega) hvalid
    rw [utf8Continue_cons (by omega) (by omega), utf8Continue_cons (by omega) (by omega),
      utf8Continue_cons (by omega) (by omega), utf8Continue]
    congr 2
    omega

theorem validUtf8_utf8 (s : List Char) : validUtf8 (utf8 s) = true := by
  have hloop : ∀ passes, (utf8 s).length ≤ passes → validUtf8Loop passes (utf8 s) = true := by
    induction s with
    | nil =>
      intro passes _
      cases passes <;> rfl
    | cons c s ih =>
      intro passes h
      rw [utf8_cons, List.length_append] at h
      have hne := String.length_utf8EncodeChar c
      have hpos := Char.utf8Size_pos c
      obtain ⟨passes, rfl⟩ : ∃ n, passes = n + 1 := ⟨passes - 1, by omega⟩
      rw [utf8_cons, validUtf8Loop_utf8EncodeChar]
      exact ih passes (by omega)
  exact hloop _ le_rfl

section Accepted

theorem continuation_of_mark {b : UInt8} (h : b &&& 0xc0 = 0x80) : ∃ d < 0x40, b = .ofNat (d + 0x80) := by
  have hall : ∀ high low : Fin 0x10, UInt8.ofNat (high.val * 0x10 + low.val) &&& 0xc0 = 0x80 →
      8 ≤ high.val ∧ high.val < 0xc := by decide
  have hb : b.toNat / 0x10 * 0x10 + b.toNat % 0x10 = b.toNat := Nat.div_add_mod' _ _
  have hlt := b.toNat_lt
  have hrange := hall ⟨b.toNat / 0x10, by omega⟩ ⟨b.toNat % 0x10, by omega⟩ (by rwa [hb, UInt8.ofNat_toNat])
  dsimp only at hrange
  exact ⟨b.toNat - 0x80, by omega, by rw [Nat.sub_add_cancel (by omega), UInt8.ofNat_toNat]⟩

theorem utf8Continue_cons_eq_some {codePoint : Nat} {bits : UInt32} {b : UInt8} {rest : List UInt8}
    (hpoint : codePoint < 0x8000) (h : utf8Continue (.ofNat codePoint) (b :: rest) = some bits) :
    ∃ d < 0x40, b = .ofNat (d + 0x80) ∧ utf8Continue (.ofNat (codePoint * 0x40 + d)) rest = some bits := by
  by_cases hmark : b &&& 0xc0 = 0x80
  · obtain ⟨d, hd, rfl⟩ := continuation_of_mark hmark
    rw [utf8Continue_cons hpoint hd] at h
    exact ⟨d, hd, rfl, h⟩
  · rw [utf8Continue, if_pos hmark] at h
    cases h

theorem exists_ofNat {b low : UInt8} (h : low ≤ b) :
    ∃ k, b = .ofNat (k + low.toNat) ∧ b.toNat = k + low.toNat := by
  rw [UInt8.le_iff_toNat_le] at h
  refine ⟨b.toNat - low.toNat, ?_, (Nat.sub_add_cancel h).symm⟩
  rw [Nat.sub_add_cancel h, UInt8.ofNat_toNat]

/-- The leading bytes, by the number of bytes that follow. -/
theorem utf8Lead_eq_some {first : UInt8} {bits minimum : UInt32} {count : Nat}
    (h : utf8Lead first = some (bits, count, minimum)) :
    (∃ k, 2 ≤ k ∧ k < 0x20 ∧ first = .ofNat (k + 0xc0) ∧ bits = .ofNat k ∧ count = 1 ∧ minimum = 0x80) ∨
    (∃ k < 0x10, first = .ofNat (k + 0xe0) ∧ bits = .ofNat k ∧ count = 2 ∧ minimum = 0x800) ∨
    ∃ k < 5, first = .ofNat (k + 0xf0) ∧ bits = .ofNat k ∧ count = 3 ∧ minimum = 0x10000 := by
  have hlead := h
  unfold utf8Lead at h
  split_ifs at h with htwo hthree hfour
  · left
    obtain ⟨k, rfl, hk⟩ := exists_ofNat (UInt8.le_trans (show (0xc0 : UInt8) ≤ 0xc2 by decide) htwo.1)
    have hrange := And.intro (UInt8.le_iff_toNat_le.mp htwo.1) (UInt8.le_iff_toNat_le.mp htwo.2)
    change 0xc2 ≤ _ ∧ _ ≤ 0xdf at hrange
    rw [hk] at hrange
    change 0xc2 ≤ k + 0xc0 ∧ k + 0xc0 ≤ 0xdf at hrange
    change utf8Lead (.ofNat (k + 0xc0)) = _ at hlead
    rw [utf8Lead_two (by omega) (by omega)] at hlead
    cases hlead
    exact ⟨k, by omega, by omega, rfl, rfl, rfl, rfl⟩
  · right
    left
    obtain ⟨k, rfl, hk⟩ := exists_ofNat hthree.1
    have hrange := UInt8.le_iff_toNat_le.mp hthree.2
    rw [hk] at hrange
    change k + 0xe0 ≤ 0xef at hrange
    change utf8Lead (.ofNat (k + 0xe0)) = _ at hlead
    rw [utf8Lead_three (by omega)] at hlead
    cases hlead
    exact ⟨k, by omega, rfl, rfl, rfl, rfl⟩
  · right
    right
    obtain ⟨k, rfl, hk⟩ := exists_ofNat hfour.1
    have hrange := UInt8.le_iff_toNat_le.mp hfour.2
    rw [hk] at hrange
    change k + 0xf0 ≤ 0xf4 at hrange
    change utf8Lead (.ofNat (k + 0xf0)) = _ at hlead
    rw [utf8Lead_four (by omega)] at hlead
    cases hlead
    exact ⟨k, by omega, rfl, rfl, rfl, rfl⟩

theorem exists_char {v : Nat} (h : v < 0xd800 ∨ (0xdfff < v ∧ v < 0x110000)) : ∃ c : Char, c.val.toNat = v := by
  have hvalid : v.isValidChar := h.imp id fun hhigh => hhigh
  exact ⟨Char.ofNatAux v hvalid, rfl⟩

theorem point_of_checks {v : Nat} {minimum : UInt32} (hv : v < 2 ^ 32)
    (h : ¬ (UInt32.ofNat v < minimum ∨ UInt32.ofNat v > 0x10ffff ∨
      (0xd800 ≤ UInt32.ofNat v ∧ UInt32.ofNat v ≤ 0xdfff))) :
    minimum.toNat ≤ v ∧ (v < 0xd800 ∨ (0xdfff < v ∧ v < 0x110000)) := by
  have htoNat : (UInt32.ofNat v).toNat = v := by rw [UInt32.toNat_ofNat', Nat.mod_eq_of_lt hv]
  simp only [UInt32.lt_iff_toNat_lt, UInt32.le_iff_toNat_le, gt_iff_lt, htoNat] at h
  have htop : (0x10ffff : UInt32).toNat = 0x10ffff := rfl
  have hhigh : (0xd800 : UInt32).toNat = 0xd800 := rfl
  have hlast : (0xdfff : UInt32).toNat = 0xdfff := rfl
  omega

/-- The bytes of a sequence that passes the checks are those of a character. -/
theorem exists_char_of_sequence {first : UInt8} {bits minimum codePoint : UInt32} {count : Nat} {sequence : List UInt8}
    (hlead : utf8Lead first = some (bits, count, minimum)) (hlength : sequence.length = count)
    (hcontinue : utf8Continue bits sequence = some codePoint)
    (hgood : ¬ (codePoint < minimum ∨ codePoint > 0x10ffff ∨ (0xd800 ≤ codePoint ∧ codePoint ≤ 0xdfff))) :
    ∃ c : Char, String.utf8EncodeChar c = first :: sequence := by
  rcases utf8Lead_eq_some hlead with ⟨k, hlow, hk, rfl, rfl, rfl, rfl⟩ | ⟨k, hk, rfl, rfl, rfl, rfl⟩ |
    ⟨k, hk, rfl, rfl, rfl, rfl⟩
  · obtain ⟨b, rfl⟩ := List.length_eq_one_iff.mp hlength
    obtain ⟨d, hd, rfl, hrest⟩ := utf8Continue_cons_eq_some (by omega) hcontinue
    cases hrest
    obtain ⟨hminimum, hpoint⟩ := point_of_checks (by omega) hgood
    obtain ⟨c, hc⟩ := exists_char hpoint
    refine ⟨c, ?_⟩
    unfold String.utf8EncodeChar
    dsimp only
    rw [hc, if_neg (by omega), if_pos (by omega)]
    simp only [List.cons.injEq, and_true]
    exact ⟨congrArg UInt8.ofNat (by omega), congrArg UInt8.ofNat (by omega)⟩
  · obtain ⟨b, b', rfl⟩ := List.length_eq_two.mp hlength
    obtain ⟨d, hd, rfl, hrest⟩ := utf8Continue_cons_eq_some (by omega) hcontinue
    obtain ⟨d', hd', rfl, hrest'⟩ := utf8Continue_cons_eq_some (by omega) hrest
    cases hrest'
    obtain ⟨hminimum, hpoint⟩ := point_of_checks (by omega) hgood
    change 0x800 ≤ _ at hminimum
    obtain ⟨c, hc⟩ := exists_char hpoint
    refine ⟨c, ?_⟩
    unfold String.utf8EncodeChar
    dsimp only
    rw [hc, if_neg (by omega), if_neg (by omega), if_pos (by omega)]
    simp only [List.cons.injEq, and_true]
    exact ⟨congrArg UInt8.ofNat (by omega), congrArg UInt8.ofNat (by omega), congrArg UInt8.ofNat (by omega)⟩
  · obtain ⟨b, b', b'', rfl⟩ := List.length_eq_three.mp hlength
    obtain ⟨d, hd, rfl, hrest⟩ := utf8Continue_cons_eq_some (by omega) hcontinue
    obtain ⟨d', hd', rfl, hrest'⟩ := utf8Continue_cons_eq_some (by omega) hrest
    obtain ⟨d'', hd'', rfl, hrest''⟩ := utf8Continue_cons_eq_some (by omega) hrest'
    cases hrest''
    obtain ⟨hminimum, hpoint⟩ := point_of_checks (by omega) hgood
    change 0x10000 ≤ _ at hminimum
    obtain ⟨c, hc⟩ := exists_char hpoint
    refine ⟨c, ?_⟩
    unfold String.utf8EncodeChar
    dsimp only
    rw [hc, if_neg (by omega), if_neg (by omega), if_neg (by omega)]
    simp only [List.cons.injEq, and_true]
    exact ⟨congrArg UInt8.ofNat (by omega), congrArg UInt8.ofNat (by omega), congrArg UInt8.ofNat (by omega),
      congrArg UInt8.ofNat (by omega)⟩

/-- The bytes that the loop accepts are those of a text. -/
theorem exists_utf8_of_validUtf8Loop {passes : Nat} {text : List UInt8} (h : validUtf8Loop passes text = true) :
    ∃ s : List Char, text = utf8 s := by
  induction passes generalizing text with
  | zero =>
    cases text with
    | nil => exact ⟨[], rfl⟩
    | cons first rest => cases h
  | succ passes ih =>
    cases text with
    | nil => exact ⟨[], rfl⟩
    | cons first rest =>
      rw [validUtf8Loop] at h
      split_ifs at h with hascii
      · obtain ⟨s, rfl⟩ := ih h
        rw [UInt8.le_iff_toNat_le] at hascii
        change first.toNat ≤ 0x7f at hascii
        obtain ⟨c, hc⟩ := exists_char (v := first.toNat) (Or.inl (by omega))
        refine ⟨c :: s, ?_⟩
        rw [utf8_cons, utf8EncodeChar_of_le (by rw [Char.toNat, hc]; exact hascii), Char.toNat, hc, UInt8.ofNat_toNat,
          List.singleton_append]
      · cases hlead : utf8Lead first with
        | none =>
          rw [hlead] at h
          cases h
        | some lead =>
          obtain ⟨bits, count, minimum⟩ := lead
          rw [hlead] at h
          dsimp only at h
          split_ifs at h with hcount
          cases hcontinue : utf8Continue bits (rest.take count) with
          | none =>
            rw [hcontinue] at h
            cases h
          | some codePoint =>
            rw [hcontinue] at h
            dsimp only at h
            split_ifs at h with hgood
            have hlength : (rest.take count).length = count := List.length_take_of_le (by omega)
            obtain ⟨c, hc⟩ := exists_char_of_sequence hlead hlength hcontinue hgood
            obtain ⟨s, hs⟩ := ih h
            exact ⟨c :: s, by rw [utf8_cons, hc, ← hs, List.cons_append, List.take_append_drop]⟩

theorem validUtf8_iff {text : List UInt8} : validUtf8 text = true ↔ ∃ s : List Char, text = utf8 s :=
  ⟨exists_utf8_of_validUtf8Loop, fun ⟨s, hs⟩ => hs ▸ validUtf8_utf8 s⟩

end Accepted

end MacroKeyboard.Settings
