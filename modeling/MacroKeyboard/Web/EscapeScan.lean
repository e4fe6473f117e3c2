import MacroKeyboard.Json.Stringify
import MacroKeyboard.Web.JsonBody

namespace MacroKeyboard.Web

open Json

section Scan

theorem containsEmbeddedNulEscape_iff {text : List UInt8} :
    containsEmbeddedNulEscape text = true ↔ nulEscape <:+: text := by
  induction text with
  | nil => simp [containsEmbeddedNulEscape, nulEscape]
  | cons b rest ih =>
    rw [containsEmbeddedNulEscape, Bool.or_eq_true, List.isPrefixOf_iff_prefix, ih, List.infix_cons_iff]

def Separates (rest : List UInt8) : Prop := ∀ b ∈ rest.head?, b ∉ nulEscape

theorem prefix_append_of_separates {text front rest : List UInt8} (hall : ∀ b ∈ text, b ∈ nulEscape)
    (h : Separates rest) : text <+: front ++ rest ↔ text <+: front := by
  refine ⟨fun hfront => ?_, fun hfront => hfront.trans (List.prefix_append _ _)⟩
  induction front generalizing text with
  | nil =>
    cases text with
    | nil => exact List.prefix_rfl
    | cons b text =>
      cases rest with
      | nil => exact hfront
      | cons c rest =>
        rw [List.nil_append, List.cons_prefix_cons] at hfront
        exact absurd (hall b List.mem_cons_self) (hfront.1 ▸ h c rfl)
  | cons c front ih =>
    cases text with
    | nil => exact List.nil_prefix
    | cons b text =>
      rw [List.cons_append, List.cons_prefix_cons] at hfront
      rw [List.cons_prefix_cons]
      exact ⟨hfront.1, ih (fun b hmem => hall b (List.mem_cons_of_mem _ hmem)) hfront.2⟩

theorem infix_append_of_separates {front rest : List UInt8} (h : Separates rest) :
    nulEscape <:+: front ++ rest ↔ nulEscape <:+: front ∨ nulEscape <:+: rest := by
  induction front with
  | nil => simp [nulEscape]
  | cons b front ih =>
    rw [List.cons_append, List.infix_cons_iff, List.infix_cons_iff, ih, ← List.cons_append,
      prefix_append_of_separates (fun _ h => h) h, or_assoc]

theorem infix_cons_of_ne {b : UInt8} {rest : List UInt8} (h : b ≠ backslash) :
    nulEscape <:+: b :: rest ↔ nulEscape <:+: rest := by
  rw [List.infix_cons_iff, nulEscape, List.cons_prefix_cons]
  exact ⟨fun hor => hor.resolve_left fun hfront => h hfront.1.symm, Or.inr⟩

theorem infix_append_of_ne {front rest : List UInt8} (h : ∀ b ∈ front, b ≠ backslash) :
    nulEscape <:+: front ++ rest ↔ nulEscape <:+: rest := by
  induction front with
  | nil => rfl
  | cons b front ih =>
    rw [List.cons_append, infix_cons_of_ne (h b List.mem_cons_self), ih fun c hmem => h c (List.mem_cons_of_mem _ hmem)]

theorem not_infix_of_ne {text : List UInt8} (h : ∀ b ∈ text, b ≠ backslash) : ¬ nulEscape <:+: text := by
  intro hinside
  rw [← List.append_nil text, infix_append_of_ne h] at hinside
  exact absurd hinside (by simp [nulEscape])

end Scan

section Text

variable {c : Char} {rest : List UInt8}

def escapeText : List Char := ['\\', 'u', '0', '0', '0', '0']

theorem infix_short {letter : UInt8} (hletter : letter ≠ 0x75) (hne : letter ≠ backslash) :
    nulEscape <:+: [backslash, letter] ++ rest ↔ nulEscape <:+: rest := by
  rw [List.cons_append, List.cons_append, List.nil_append, List.infix_cons_iff, infix_cons_of_ne hne, nulEscape,
    List.cons_prefix_cons, List.cons_prefix_cons]
  exact ⟨fun hor => hor.resolve_left fun hfront => hletter hfront.2.1.symm, Or.inr⟩

theorem infix_backslash : nulEscape <:+: [backslash, backslash] ++ rest ↔ nulEscape <:+: backslash :: rest := by
  rw [List.cons_append, List.cons_append, List.nil_append, List.infix_cons_iff]
  refine ⟨fun hor => hor.resolve_left fun hfront => ?_, Or.inr⟩
  rw [nulEscape, List.cons_prefix_cons, List.cons_prefix_cons] at hfront
  exact absurd hfront.2.1 (by decide)

theorem hexDigit_ne_backslash {d : Nat} (h : d < 0x10) : hexDigit d ≠ backslash := by
  intro heq
  have hvalue := hexValue_hexDigit h
  rw [heq, show hexValue backslash = none by decide] at hvalue
  cases hvalue

theorem hexDigit_eq_zero {d : Nat} (h : d < 0x10) (heq : hexDigit d = 0x30) : d = 0 := by
  have hvalue := hexValue_hexDigit h
  rw [heq, show hexValue 0x30 = some 0 by decide] at hvalue
  exact (Option.some.inj hvalue).symm

theorem infix_unicode {n : Nat} (hne : n ≠ 0) (h : n < 0x10000) :
    nulEscape <:+: unicodeEscape (hexDigits n) ++ rest ↔ nulEscape <:+: rest := by
  have hplain : ∀ b ∈ (0x75 : UInt8) :: hexDigits n, b ≠ backslash := by
    simp only [hexDigits, List.forall_mem_cons, List.not_mem_nil, false_implies, implies_true, and_true]
    exact ⟨by decide, hexDigit_ne_backslash (by omega), hexDigit_ne_backslash (by omega),
      hexDigit_ne_backslash (by omega), hexDigit_ne_backslash (by omega)⟩
  rw [unicodeEscape, List.cons_append, List.infix_cons_iff, infix_append_of_ne hplain]
  refine ⟨fun hor => hor.resolve_left fun hfront => hne ?_, Or.inr⟩
  rw [nulEscape, List.cons_prefix_cons, List.cons_append, List.cons_prefix_cons, hexDigits, List.cons_append,
    List.cons_prefix_cons, List.cons_append, List.cons_prefix_cons, List.cons_append, List.cons_prefix_cons,
    List.cons_append, List.cons_prefix_cons] at hfront
  obtain ⟨-, -, hfirst, hsecond, hthird, hfourth, -⟩ := hfront
  have hfirst := hexDigit_eq_zero (by omega) hfirst.symm
  have hsecond := hexDigit_eq_zero (by omega) hsecond.symm
  have hthird := hexDigit_eq_zero (by omega) hthird.symm
  have hfourth := hexDigit_eq_zero (by omega) hfourth.symm
  omega

theorem ne_backslash_of_mem_utf8EncodeChar (h : c.toNat ≠ 0x5c) : ∀ b ∈ String.utf8EncodeChar c, b ≠ backslash := by
  rintro b hmem rfl
  exact h (toNat_of_mem_utf8EncodeChar hmem (by decide)).symm

theorem infix_escapePoint (hbackslash : c.toNat ≠ 0x5c) (hzero : c.toNat ≠ 0) :
    nulEscape <:+: escapePoint (.scalar c) ++ rest ↔ nulEscape <:+: rest := by
  unfold escapePoint
  dsimp only
  split
  · exact infix_short (by decide) (by decide)
  split
  · exact infix_short (by decide) (by decide)
  split
  · exact infix_short (by decide) (by decide)
  split
  · exact infix_short (by decide) (by decide)
  split
  · exact infix_short (by decide) (by decide)
  split
  · exact infix_short (by decide) (by decide)
  split
  next h => exact infix_unicode hzero (by omega)
  · exact infix_append_of_ne (ne_backslash_of_mem_utf8EncodeChar hbackslash)

theorem escapePoint_zero (hzero : c.toNat = 0) : escapePoint (.scalar c) = nulEscape := by
  rw [← Char.ofNat_toNat c, hzero]
  decide

def escaped (s : List Char) : List UInt8 := escapePoints (s.map .scalar)

theorem escaped_cons (c : Char) (s : List Char) : escaped (c :: s) = escapePoint (.scalar c) ++ escaped s := rfl

/-- What a character is written as begins with a backslash or with the character. -/
theorem head_escapePoint (c : Char) :
    ∃ b tail, escapePoint (.scalar c) = b :: tail ∧ (b = backslash ∨ (b < 0x80 → b.toNat = c.toNat)) := by
  have hraw : ∃ b tail, String.utf8EncodeChar c = b :: tail ∧ (b = backslash ∨ (b < 0x80 → b.toNat = c.toNat)) := by
    cases htext : String.utf8EncodeChar c with
    | nil =>
      have hlength := String.length_utf8EncodeChar c
      have hpos := Char.utf8Size_pos c
      rw [htext, List.length_nil] at hlength
      omega
    | cons b tail =>
      exact ⟨b, tail, rfl, Or.inr (toNat_of_mem_utf8EncodeChar (by rw [htext]; exact List.mem_cons_self))⟩
  have hescape (tail : List UInt8) : ∃ b rest, backslash :: tail = b :: rest ∧
      (b = backslash ∨ (b < 0x80 → b.toNat = c.toNat)) := ⟨_, _, rfl, Or.inl rfl⟩
  unfold escapePoint
  dsimp only
  split_ifs
  · exact hescape _
  · exact hescape _
  · exact hescape _
  · exact hescape _
  · exact hescape _
  · exact hescape _
  · exact hescape _
  · exact hescape _
  · exact hraw

/-- Digits and letters are written as they are, and by nothing else. -/
theorem prefix_escaped {letters : List Char} (hletters : ∀ l ∈ letters, 0x30 ≤ l.toNat ∧ l.toNat < 0x5c ∨
    0x5c < l.toNat ∧ l.toNat < 0x80) {s : List Char} : utf8 letters <+: escaped s ↔ letters <+: s := by
  induction letters generalizing s with
  | nil => simp
  | cons l letters ih =>
    have hl := hletters l List.mem_cons_self
    have hbyte : (UInt8.ofNat l.toNat).toNat = l.toNat := by
      rw [UInt8.toNat_ofNat', Nat.mod_eq_of_lt (by omega)]
    have hself : escapePoint (.scalar l) = [UInt8.ofNat l.toNat] := by
      unfold escapePoint
      dsimp only
      rw [if_neg (by omega), if_neg (by omega), if_neg (by omega), if_neg (by omega), if_neg (by omega),
        if_neg (by omega), if_neg (by omega), if_neg (by omega), utf8EncodeChar_of_le (by omega)]
    rw [utf8_cons, utf8EncodeChar_of_le (by omega), List.singleton_append]
    cases s with
    | nil => simp [escaped, escapePoints]
    | cons c s =>
      rw [escaped_cons, List.cons_prefix_cons]
      by_cases hc : l = c
      · rw [← hc, hself, List.singleton_append, List.cons_prefix_cons, ih fun k hk => hletters k (List.mem_cons_of_mem _ hk)]
        simp
      · refine ⟨fun hfront => ?_, fun hfront => absurd hfront.1 hc⟩
        obtain ⟨b, tail, heq, hb⟩ := head_escapePoint c
        rw [heq, List.cons_append, List.cons_prefix_cons] at hfront
        rw [← hfront.1, hbyte, UInt8.lt_iff_toNat_lt, hbyte] at hb
        rcases hb with hb | hb
        · have hslash := congrArg UInt8.toNat hb
          rw [hbyte, show backslash.toNat = 0x5c from rfl] at hslash
          omega
        · exact absurd (Char.toNat_inj.mp (hb (show l.toNat < 0x80 by omega))) hc

/-- The text of a string holds the escape exactly when the string has the zero
character or the characters of the escape. -/
theorem infix_escaped {s : List Char} : nulEscape <:+: escaped s ↔ Char.ofNat 0 ∈ s ∨ escapeText <:+: s := by
  induction s with
  | nil => simp [escaped, escapePoints, nulEscape, escapeText]
  | cons c s ih =>
    rw [escaped_cons, List.mem_cons, escapeText, List.infix_cons_iff, List.cons_prefix_cons]
    by_cases hzero : c.toNat = 0
    · have hc : c = Char.ofNat 0 := by rw [← hzero, Char.ofNat_toNat]
      rw [escapePoint_zero hzero]
      exact ⟨fun _ => Or.inl (Or.inl hc.symm), fun _ => List.infix_append' [] nulEscape _⟩
    · have hne : Char.ofNat 0 ≠ c := by
        rintro rfl
        exact hzero rfl
      by_cases hbackslash : c.toNat = 0x5c
      · have hc : c = '\\' := by rw [← Char.ofNat_toNat c, hbackslash]
        have hletters : utf8 ['u', '0', '0', '0', '0'] <+: escaped s ↔ ['u', '0', '0', '0', '0'] <+: s :=
          prefix_escaped (by simp)
        have hpoint : escapePoint (.scalar c) = [backslash, backslash] := by
          rw [hc]
          decide
        have hutf8 : utf8 ['u', '0', '0', '0', '0'] = [0x75, 0x30, 0x30, 0x30, 0x30] := by decide
        rw [hutf8] at hletters
        rw [hpoint, infix_backslash, List.infix_cons_iff, ih, ← hletters, nulEscape, List.cons_prefix_cons, or_iff_right hne, hc]
        simp only [true_and, backslash]
        rw [← escapeText]
        exact or_left_comm
      · have hc : '\\' ≠ c := by
          rintro rfl
          exact hbackslash rfl
        rw [infix_escapePoint hbackslash hzero, ih, ← escapeText]
        simp [hne, hc]

end Text

section Values

variable {numberText : ℚ → List UInt8}

def NoEscape (units : Units) : Prop := ¬ nulEscape <:+: escapePoints (codePoints units)

def PlainNumber (numberText : ℚ → List UInt8) (q : ℚ) : Prop := ∀ b ∈ numberText q, b ≠ backslash

theorem separates_cons {b : UInt8} (h : b ∉ nulEscape) (rest : List UInt8) : Separates (b :: rest) := by
  rintro c hc
  cases hc
  exact h

theorem infix_quoted {units : Units} : nulEscape <:+: quoted units ↔ nulEscape <:+: escapePoints (codePoints units) := by
  rw [quoted, List.cons_append, infix_cons_of_ne (by decide), infix_append_of_separates (separates_cons (by decide) [])]
  exact or_iff_left (by decide)

theorem separates_stringifyItems (items : List (Value Units)) : Separates (stringifyItems numberText items) := by
  cases items with
  | nil => exact fun _ h => by cases h
  | cons item items => exact separates_cons (by decide) _

theorem separates_stringifyMembers (members : List (Units × Value Units)) :
    Separates (stringifyMembers numberText members) := by
  cases members with
  | nil => exact fun _ h => by cases h
  | cons member members => exact separates_cons (by decide) _

theorem not_infix_cons {b : UInt8} {rest : List UInt8} (h : b ≠ backslash) :
    ¬ nulEscape <:+: b :: rest ↔ ¬ nulEscape <:+: rest :=
  not_congr (infix_cons_of_ne h)

theorem not_infix_append {front rest : List UInt8} (h : Separates rest) :
    ¬ nulEscape <:+: front ++ rest ↔ ¬ nulEscape <:+: front ∧ ¬ nulEscape <:+: rest := by
  rw [infix_append_of_separates h, not_or]

theorem not_infix_member (name : Units) {value rest : List UInt8} (h : Separates rest) :
    ¬ nulEscape <:+: quoted name ++ 0x3a :: value ++ rest ↔
      NoEscape name ∧ ¬ nulEscape <:+: value ∧ ¬ nulEscape <:+: rest := by
  rw [not_infix_append h, not_infix_append (separates_cons (by decide) _), not_infix_cons (by decide), infix_quoted,
    and_assoc, NoEscape]

mutual

theorem not_infix_stringify : (value : Value Units) → AllNumbers (PlainNumber numberText) value →
    (¬ nulEscape <:+: stringify numberText value ↔ AllStrings NoEscape value)
  | .null, _ => iff_of_true (show ¬ nulEscape <:+: ascii "null" by decide) trivial
  | .bool true, _ => iff_of_true (show ¬ nulEscape <:+: ascii "true" by decide) trivial
  | .bool false, _ => iff_of_true (show ¬ nulEscape <:+: ascii "false" by decide) trivial
  | .number q, h => iff_of_true (not_infix_of_ne h) trivial
  | .string units, _ => not_congr infix_quoted
  | .array [], _ => iff_of_true (show ¬ nulEscape <:+: [0x5b, 0x5d] by decide) trivial
  | .array (item :: items), h => by
    rw [stringify, List.cons_append, not_infix_cons (by decide), not_infix_append (separates_cons (by decide) _),
      not_infix_append (separates_stringifyItems items), not_infix_stringify item h.1, not_infix_stringifyItems items h.2]
    exact and_iff_left (by decide)
  | .object [], _ => iff_of_true (show ¬ nulEscape <:+: [0x7b, 0x7d] by decide) trivial
  | .object ((name, value) :: members), h => by
    rw [stringify, List.cons_append, not_infix_cons (by decide), not_infix_append (separates_cons (by decide) _),
      not_infix_member name (separates_stringifyMembers members), not_infix_stringify value h.1,
      not_infix_stringifyMembers members h.2]
    exact and_iff_left (by decide)

theorem not_infix_stringifyItems : (items : List (Value Units)) → AllNumbersOfItems (PlainNumber numberText) items →
    (¬ nulEscape <:+: stringifyItems numberText items ↔ AllStringsOfItems NoEscape items)
  | [], _ => iff_of_true (show ¬ nulEscape <:+: [] by decide) trivial
  | item :: items, h => by
    rw [stringifyItems, List.cons_append, not_infix_cons (by decide), not_infix_append (separates_stringifyItems items),
      not_infix_stringify item h.1, not_infix_stringifyItems items h.2]
    rfl

theorem not_infix_stringifyMembers : (members : List (Units × Value Units)) →
    AllNumbersOfMembers (PlainNumber numberText) members →
    (¬ nulEscape <:+: stringifyMembers numberText members ↔ AllStringsOfMembers NoEscape members)
  | [], _ => iff_of_true (show ¬ nulEscape <:+: [] by decide) trivial
  | (name, value) :: members, h => by
    rw [stringifyMembers, List.cons_append, List.cons_append, not_infix_cons (by decide),
      not_infix_member name (separates_stringifyMembers members), not_infix_stringify value h.1,
      not_infix_stringifyMembers members h.2]
    rfl

end

end Values

section Documents

theorem not_infix_left {front rest : List UInt8} (h : ¬ nulEscape <:+: front ++ rest) : ¬ nulEscape <:+: front :=
  fun hinside => h (hinside.trans (List.prefix_append front rest).isInfix)

theorem not_infix_right {front rest : List UInt8} (h : ¬ nulEscape <:+: front ++ rest) : ¬ nulEscape <:+: rest :=
  fun hinside => h (hinside.trans (List.suffix_append front rest).isInfix)

theorem not_infix_tail {b : UInt8} {rest : List UInt8} (h : ¬ nulEscape <:+: b :: rest) : ¬ nulEscape <:+: rest :=
  fun hinside => h (hinside.trans (List.suffix_cons b rest).isInfix)

theorem eq_zero_of_hexValue {digit : UInt8} (h : hexValue digit = some 0) : digit = 0x30 := by
  unfold hexValue at h
  simp only [UInt8.le_iff_toNat_le] at h
  have hthirty : (0x30 : UInt8).toNat = 0x30 := rfl
  have hlower : (0x61 : UInt8).toNat = 0x61 := rfl
  have hupper : (0x41 : UInt8).toNat = 0x41 := rfl
  apply UInt8.toNat_inj.mp
  split_ifs at h
  all_goals
    have hzero := Option.some.inj h
    omega

theorem eq_of_hexText_zero {digits : List UInt8} (h : HexText 0 digits) : digits = [0x30, 0x30, 0x30, 0x30] := by
  generalize hn : (0 : Nat) = n at h
  cases h with
  | @digits a b c d w x y z ha hb hc hd =>
    obtain ⟨rfl, rfl, rfl, rfl⟩ : w = 0 ∧ x = 0 ∧ y = 0 ∧ z = 0 := by omega
    rw [eq_zero_of_hexValue ha, eq_zero_of_hexValue hb, eq_zero_of_hexValue hc, eq_zero_of_hexValue hd]

theorem zero_notMem_utf16EncodeChar {c : Char} (h : 0x20 ≤ c.toNat) : 0 ∉ utf16EncodeChar c := by
  have hvalid := toNat_lt_or_lt c
  have hne {n : Nat} (hlow : 0 < n) (hhigh : n < 0x10000) : (0 : UInt16) ≠ .ofNat n := by
    intro heq
    have htoNat := congrArg UInt16.toNat heq
    rw [UInt16.toNat_ofNat', Nat.mod_eq_of_lt hhigh] at htoNat
    have hzero : (0 : UInt16).toNat = 0 := rfl
    omega
  unfold utf16EncodeChar
  split
  · simp only [List.mem_singleton]
    exact hne (by omega) (by omega)
  · simp only [List.mem_cons, List.not_mem_nil, or_false, not_or]
    exact ⟨hne (by omega) (by omega), hne (by omega) (by omega)⟩

theorem zero_notMem_of_unitsText {units : Units} {text : List UInt8} (h : UnitsText units text)
    (hescape : ¬ nulEscape <:+: text) : 0 ∉ units := by
  induction h with
  | nil => exact List.not_mem_nil
  | raw hcontrol _ _ _ ih =>
    rw [List.mem_append, not_or]
    exact ⟨zero_notMem_utf16EncodeChar hcontrol, ih (not_infix_right hescape)⟩
  | @short unit _ _ _ hletter _ ih =>
    rw [List.mem_cons, not_or]
    refine ⟨?_, ih (not_infix_tail (not_infix_tail hescape))⟩
    rintro rfl
    cases hletter
  | @unicode unit _ _ _ hdigits _ ih =>
    rw [List.mem_cons, not_or]
    refine ⟨?_, ih (not_infix_right hescape)⟩
    rintro rfl
    refine not_infix_left hescape ?_
    rw [eq_of_hexText_zero hdigits]
    exact List.infix_rfl

theorem zero_notMem_of_stringText {units : Units} {text : List UInt8} (h : StringText units text)
    (hescape : ¬ nulEscape <:+: text) : 0 ∉ units := by
  cases h with
  | quoted h => exact zero_notMem_of_unitsText h (not_infix_left (not_infix_tail hescape))

theorem zero_notMem_of_padded {units : Units} {text : List UInt8} (h : Padded (StringText units) text)
    (hescape : ¬ nulEscape <:+: text) : 0 ∉ units := by
  cases h with
  | around _ h _ => exact zero_notMem_of_stringText h (not_infix_right (not_infix_left hescape))

mutual

theorem zero_notMem_of_valueText : {value : Value Units} → {text : List UInt8} → ValueText value text →
    ¬ nulEscape <:+: text → AllStrings (0 ∉ ·) value
  | _, _, .null, _ => trivial
  | _, _, .true, _ => trivial
  | _, _, .false, _ => trivial
  | _, _, .number _, _ => trivial
  | _, _, .string h, hescape => zero_notMem_of_stringText h hescape
  | _, _, .emptyArray _, _ => trivial
  | _, _, .array h, hescape => zero_notMem_of_itemsText h (not_infix_left (not_infix_tail hescape))
  | _, _, .emptyObject _, _ => trivial
  | _, _, .object h, hescape => zero_notMem_of_membersText h (not_infix_left (not_infix_tail hescape))

theorem zero_notMem_of_itemsText : {items : List (Value Units)} → {text : List UInt8} → ItemsText items text →
    ¬ nulEscape <:+: text → AllStringsOfItems (0 ∉ ·) items
  | _, _, .last _ h _, hescape => ⟨zero_notMem_of_valueText h (not_infix_right (not_infix_left hescape)), trivial⟩
  | _, _, .cons _ h _ hrest, hescape =>
    ⟨zero_notMem_of_valueText h (not_infix_right (not_infix_left (not_infix_left hescape))),
      zero_notMem_of_itemsText hrest (not_infix_tail (not_infix_right hescape))⟩

theorem zero_notMem_of_membersText : {members : List (Units × Value Units)} → {text : List UInt8} →
    MembersText members text → ¬ nulEscape <:+: text → AllStringsOfMembers (0 ∉ ·) members
  | _, _, .last hname _ h _, hescape =>
    ⟨zero_notMem_of_padded hname (not_infix_left hescape),
      zero_notMem_of_valueText h (not_infix_right (not_infix_left (not_infix_tail (not_infix_right hescape)))), trivial⟩
  | _, _, .cons hname _ h _ hrest, hescape =>
    ⟨zero_notMem_of_padded hname (not_infix_left (not_infix_left hescape)),
      zero_notMem_of_valueText h
        (not_infix_right (not_infix_left (not_infix_tail (not_infix_right (not_infix_left hescape))))),
      zero_notMem_of_membersText hrest (not_infix_tail (not_infix_right hescape))⟩

end

theorem zero_notMem_of_documentText {value : Value Units} {text : List UInt8} (h : DocumentText value text)
    (hescape : ¬ nulEscape <:+: text) : AllStrings (0 ∉ ·) value := by
  cases h with
  | around _ h _ => exact zero_notMem_of_valueText h (not_infix_right (not_infix_left hescape))

end Documents

end MacroKeyboard.Web
