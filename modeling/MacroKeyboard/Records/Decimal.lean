import Mathlib

namespace Records.Decimal

/-- The last digits of a number, as that many ASCII characters. -/
def padded : Nat → Nat → List UInt8
  | 0, _ => []
  | count + 1, value => padded count (value / 10) ++ [.ofNat (0x30 + value % 10)]

/-- Read ASCII digits after the value so far, none of them beyond the bound. -/
def parse (bound : Nat) : Nat → List UInt8 → Option Nat
  | value, [] => some value
  | value, character :: rest =>
    if character < 0x30 ∨ character > 0x39 then none
    else if value > (bound - (character.toNat - 0x30)) / 10 then none
    else parse bound (value * 10 + (character.toNat - 0x30)) rest

variable {bound value : Nat}

@[simp] theorem length_padded (count value : Nat) : (padded count value).length = count := by
  induction count generalizing value with
  | zero => rfl
  | succ count ih => simp [padded, ih]

theorem padded_zero (count : Nat) : padded count 0 = List.replicate count 0x30 := by
  induction count with
  | zero => rfl
  | succ count ih =>
    rw [padded, Nat.zero_div, ih, List.replicate_succ']
    rfl

theorem parse_append (front back : List UInt8) :
    parse bound value (front ++ back) = (parse bound value front).bind (fun v => parse bound v back) := by
  induction front generalizing value with
  | nil => rfl
  | cons character rest ih =>
    rw [List.cons_append, parse, parse]
    split
    · rfl
    · split
      · rfl
      · exact ih

theorem toNat_digit {digit : Nat} (h : digit < 10) : (UInt8.ofNat (0x30 + digit)).toNat = 0x30 + digit := by
  rw [UInt8.toNat_ofNat']
  omega

theorem digit_range {digit : Nat} (h : digit < 10) :
    ¬ (UInt8.ofNat (0x30 + digit) < 0x30 ∨ UInt8.ofNat (0x30 + digit) > 0x39) := by
  simp only [gt_iff_lt, UInt8.lt_iff_toNat_lt, toNat_digit h, not_or, not_lt]
  constructor
  · exact Nat.le_add_right 48 digit
  · change 48 + digit ≤ 57
    omega

theorem parse_digit {digit : Nat} (hdigit : digit < 10) (h : value * 10 + digit ≤ bound) :
    parse bound value [.ofNat (0x30 + digit)] = some (value * 10 + digit) := by
  rw [parse, if_neg (digit_range hdigit), toNat_digit hdigit, if_neg, parse]
  · simp
  · rw [Nat.add_sub_cancel_left, not_lt, Nat.le_div_iff_mul_le (by decide)]
    omega

theorem parse_padded {count : Nat} (hdigits : value < 10 ^ count) (h : value ≤ bound) :
    parse bound 0 (padded count value) = some value := by
  induction count generalizing value with
  | zero =>
    have hzero : value = 0 := by simpa using hdigits
    rw [hzero]
    rfl
  | succ count ih =>
    have hfront : parse bound 0 (padded count (value / 10)) = some (value / 10) :=
      ih (Nat.div_lt_of_lt_mul (by rwa [Nat.pow_succ, Nat.mul_comm] at hdigits)) (le_trans (Nat.div_le_self _ _) h)
    rw [padded, parse_append, hfront, Option.bind_some, parse_digit (Nat.mod_lt _ (by decide)) (by omega)]
    congr 1
    omega

/-- What is read is within the bound, and its digits are those that were read. -/
theorem padded_of_parse (hlarge : 9 ≤ bound) {text : List UInt8} (h : parse bound 0 text = some value) :
    padded text.length value = text ∧ value ≤ bound := by
  induction text using List.reverseRecOn generalizing value with
  | nil =>
    cases h
    exact ⟨rfl, Nat.zero_le _⟩
  | append_singleton front character ih =>
    rw [parse_append, Option.bind_eq_some_iff] at h
    obtain ⟨quotient, hfront, hlast⟩ := h
    rw [parse] at hlast
    split at hlast
    · cases hlast
    next hrange =>
      split at hlast
      · cases hlast
      next hbound =>
        cases hlast
        simp only [gt_iff_lt, UInt8.lt_iff_toNat_lt, not_or, not_lt] at hrange hbound
        obtain ⟨hlow, hhigh⟩ := hrange
        have hlow : 48 ≤ character.toNat := hlow
        have hhigh : character.toNat ≤ 57 := hhigh
        have hquotient : (quotient * 10 + (character.toNat - 48)) / 10 = quotient := by omega
        have hdigit : 48 + (quotient * 10 + (character.toNat - 48)) % 10 = character.toNat := by omega
        refine ⟨?_, ?_⟩
        · rw [List.length_append, List.length_singleton, padded, hquotient, (ih hfront).1, hdigit, UInt8.ofNat_toNat]
        · rw [Nat.le_div_iff_mul_le (by decide)] at hbound
          omega

theorem lt_of_parse {text : List UInt8} (h : parse bound 0 text = some value) : value < 10 ^ text.length := by
  induction text using List.reverseRecOn generalizing value with
  | nil =>
    cases h
    exact Nat.one_pos
  | append_singleton front character ih =>
    rw [parse_append, Option.bind_eq_some_iff] at h
    obtain ⟨quotient, hfront, hlast⟩ := h
    have hquotient := ih hfront
    rw [parse] at hlast
    split_ifs at hlast with hrange hbound
    rw [parse] at hlast
    cases hlast
    rw [gt_iff_lt, UInt8.lt_iff_toNat_lt, UInt8.lt_iff_toNat_lt, not_or, not_lt, not_lt] at hrange
    have hhigh : character.toNat ≤ 57 := hrange.2
    rw [List.length_append, List.length_singleton, Nat.pow_succ]
    omega

theorem parse_replicate_append (count : Nat) (text : List UInt8) :
    parse bound 0 (List.replicate count 0x30 ++ text) = parse bound 0 text := by
  induction count with
  | zero => rfl
  | succ count ih =>
    rw [List.replicate_succ, List.cons_append, parse, if_neg (by decide), if_neg (Nat.not_lt_zero _)]
    exact ih

end Records.Decimal
