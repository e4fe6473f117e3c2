import Mathlib

namespace Json

abbrev Units : Type := List UInt16

def IsHigh (unit : UInt16) : Prop := 0xd800 ≤ unit ∧ unit ≤ 0xdbff
def IsLow (unit : UInt16) : Prop := 0xdc00 ≤ unit ∧ unit ≤ 0xdfff

instance (unit : UInt16) : Decidable (IsHigh unit) := inferInstanceAs (Decidable (_ ∧ _))
instance (unit : UInt16) : Decidable (IsLow unit) := inferInstanceAs (Decidable (_ ∧ _))

/-- A code point of a string: a character, or a surrogate that is not in a pair. -/
inductive CodePoint
  | scalar (c : Char)
  | lone (unit : UInt16)
deriving DecidableEq, Repr

def charOfPair (high low : UInt16) : Char :=
  .ofNat (0x10000 + (high.toNat - 0xd800) * 0x400 + (low.toNat - 0xdc00))

def codePointOfUnit (unit : UInt16) : CodePoint :=
  if IsHigh unit ∨ IsLow unit then .lone unit else .scalar (.ofNat unit.toNat)

def codePoints : Units → List CodePoint
  | [] => []
  | [unit] => [codePointOfUnit unit]
  | first :: second :: rest =>
    if IsHigh first ∧ IsLow second then .scalar (charOfPair first second) :: codePoints rest
    else codePointOfUnit first :: codePoints (second :: rest)

def utf16EncodeChar (c : Char) : Units :=
  if c.toNat < 0x10000 then [.ofNat c.toNat]
  else [.ofNat (0xd800 + (c.toNat - 0x10000) / 0x400), .ofNat (0xdc00 + (c.toNat - 0x10000) % 0x400)]

def CodePoint.units : CodePoint → Units
  | .scalar c => utf16EncodeChar c
  | .lone unit => [unit]

def utf16 (s : List Char) : Units := s.flatMap utf16EncodeChar

/-- The characters of code points that are all characters. -/
def scalars : List CodePoint → Option (List Char)
  | [] => some []
  | .scalar c :: rest => (scalars rest).map (c :: ·)
  | .lone _ :: _ => none

def textOfUnits (s : Units) : Option (List Char) := scalars (codePoints s)

theorem isHigh_iff {unit : UInt16} : IsHigh unit ↔ 0xd800 ≤ unit.toNat ∧ unit.toNat ≤ 0xdbff := by
  simp [IsHigh, UInt16.le_iff_toNat_le]

theorem isLow_iff {unit : UInt16} : IsLow unit ↔ 0xdc00 ≤ unit.toNat ∧ unit.toNat ≤ 0xdfff := by
  simp [IsLow, UInt16.le_iff_toNat_le]

theorem toNat_charOfPair {high low : UInt16} (hhigh : IsHigh high) (hlow : IsLow low) :
    (charOfPair high low).toNat = 0x10000 + (high.toNat - 0xd800) * 0x400 + (low.toNat - 0xdc00) := by
  rw [isHigh_iff] at hhigh
  rw [isLow_iff] at hlow
  rw [charOfPair, Char.toNat_ofNat, if_pos]
  right
  omega

theorem toNat_codePointOfUnit {unit : UInt16} (h : ¬ (IsHigh unit ∨ IsLow unit)) :
    (Char.ofNat unit.toNat).toNat = unit.toNat := by
  rw [isHigh_iff, isLow_iff] at h
  have hlt := unit.toNat_lt
  rw [Char.toNat_ofNat, if_pos]
  by_cases hlow : unit.toNat < 0xd800
  · exact Or.inl hlow
  · right
    omega

theorem toNat_lt_or_lt (c : Char) : c.toNat < 0xd800 ∨ (0xdfff < c.toNat ∧ c.toNat < 0x110000) := c.valid

theorem units_codePointOfUnit (unit : UInt16) : (codePointOfUnit unit).units = [unit] := by
  unfold codePointOfUnit
  split
  · rfl
  next h =>
    have hlt := unit.toNat_lt
    rw [CodePoint.units, utf16EncodeChar, toNat_codePointOfUnit h, if_pos (by omega), UInt16.ofNat_toNat]

theorem utf16EncodeChar_charOfPair {high low : UInt16} (hhigh : IsHigh high) (hlow : IsLow low) :
    utf16EncodeChar (charOfPair high low) = [high, low] := by
  rw [utf16EncodeChar, toNat_charOfPair hhigh hlow]
  rw [isHigh_iff] at hhigh
  rw [isLow_iff] at hlow
  rw [if_neg (by omega)]
  have hfirst : 0xd800 + (0x10000 + (high.toNat - 0xd800) * 0x400 + (low.toNat - 0xdc00) - 0x10000) / 0x400 =
      high.toNat := by omega
  have hsecond : 0xdc00 + (0x10000 + (high.toNat - 0xd800) * 0x400 + (low.toNat - 0xdc00) - 0x10000) % 0x400 =
      low.toNat := by omega
  rw [hfirst, hsecond, UInt16.ofNat_toNat, UInt16.ofNat_toNat]

theorem units_codePoints (s : Units) : (codePoints s).flatMap CodePoint.units = s := by
  induction s using codePoints.induct with
  | case1 => rfl
  | case2 unit => simp [codePoints, units_codePointOfUnit]
  | case3 first second rest h ih =>
    rw [codePoints, if_pos h, List.flatMap_cons, ih, CodePoint.units, utf16EncodeChar_charOfPair h.1 h.2]
    rfl
  | case4 first second rest h ih =>
    rw [codePoints, if_neg h, List.flatMap_cons, ih, units_codePointOfUnit]
    rfl

theorem codePoints_injective : Function.Injective codePoints :=
  Function.LeftInverse.injective (g := fun points : List CodePoint => points.flatMap CodePoint.units) units_codePoints

theorem codePoints_cons_unit {unit : UInt16} (h : ¬ (IsHigh unit ∨ IsLow unit)) (rest : Units) :
    codePoints (unit :: rest) = .scalar (.ofNat unit.toNat) :: codePoints rest := by
  have hpoint : codePointOfUnit unit = .scalar (.ofNat unit.toNat) := if_neg h
  cases rest with
  | nil => rw [codePoints, codePoints, hpoint]
  | cons second rest => rw [codePoints, if_neg (fun hpair => h (Or.inl hpair.1)), hpoint]

theorem codePoints_utf16 (s : List Char) : codePoints (utf16 s) = s.map .scalar := by
  induction s with
  | nil => rfl
  | cons c s ih =>
    have hc := toNat_lt_or_lt c
    rw [utf16, List.flatMap_cons, List.map_cons, ← ih, utf16, utf16EncodeChar]
    split
    next hsmall =>
      have htoNat : (UInt16.ofNat c.toNat).toNat = c.toNat := by
        rw [UInt16.toNat_ofNat']
        omega
      rw [List.singleton_append, codePoints_cons_unit, htoNat, Char.ofNat_toNat]
      rw [isHigh_iff, isLow_iff, htoNat]
      omega
    next hlarge =>
      have hfirst : (UInt16.ofNat (0xd800 + (c.toNat - 0x10000) / 0x400)).toNat =
          0xd800 + (c.toNat - 0x10000) / 0x400 := by
        rw [UInt16.toNat_ofNat']
        omega
      have hsecond : (UInt16.ofNat (0xdc00 + (c.toNat - 0x10000) % 0x400)).toNat =
          0xdc00 + (c.toNat - 0x10000) % 0x400 := by
        rw [UInt16.toNat_ofNat']
        omega
      rw [List.cons_append, List.cons_append, List.nil_append, codePoints, if_pos]
      · rw [charOfPair, hfirst, hsecond]
        have hsame : 0x10000 + (0xd800 + (c.toNat - 0x10000) / 0x400 - 0xd800) * 0x400 +
            (0xdc00 + (c.toNat - 0x10000) % 0x400 - 0xdc00) = c.toNat := by omega
        rw [hsame, Char.ofNat_toNat]
      · rw [isHigh_iff, isLow_iff, hfirst, hsecond]
        omega

theorem scalars_map (s : List Char) : scalars (s.map .scalar) = some s := by
  induction s with
  | nil => rfl
  | cons c s ih => rw [List.map_cons, scalars, ih, Option.map_some]

theorem eq_map_of_scalars {points : List CodePoint} {s : List Char} (h : scalars points = some s) :
    points = s.map .scalar := by
  induction points generalizing s with
  | nil =>
    cases h
    rfl
  | cons point rest ih =>
    cases point with
    | lone unit => cases h
    | scalar c =>
      rw [scalars, Option.map_eq_some_iff] at h
      obtain ⟨tail, htail, rfl⟩ := h
      rw [List.map_cons, ih htail]

@[simp] theorem textOfUnits_utf16 (s : List Char) : textOfUnits (utf16 s) = some s := by
  rw [textOfUnits, codePoints_utf16, scalars_map]

theorem eq_utf16_of_textOfUnits {units : Units} {s : List Char} (h : textOfUnits units = some s) : units = utf16 s :=
  codePoints_injective (by rw [codePoints_utf16, eq_map_of_scalars h])

end Json
