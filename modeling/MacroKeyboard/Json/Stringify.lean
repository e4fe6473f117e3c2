import MacroKeyboard.Json.Text

namespace Json

section Quote

def hexDigit (n : Nat) : UInt8 := if n < 10 then .ofNat (0x30 + n) else .ofNat (0x57 + n)

def hexDigits (n : Nat) : List UInt8 :=
  [hexDigit (n / 0x1000 % 0x10), hexDigit (n / 0x100 % 0x10), hexDigit (n / 0x10 % 0x10), hexDigit (n % 0x10)]

/-- A code point in a string literal of `JSON.stringify`. -/
def escapePoint : CodePoint → List UInt8
  | .scalar c =>
    if c.toNat = 0x08 then [backslash, 0x62]
    else if c.toNat = 0x09 then [backslash, 0x74]
    else if c.toNat = 0x0a then [backslash, 0x6e]
    else if c.toNat = 0x0c then [backslash, 0x66]
    else if c.toNat = 0x0d then [backslash, 0x72]
    else if c.toNat = 0x22 then [backslash, quote]
    else if c.toNat = 0x5c then [backslash, backslash]
    else if c.toNat < 0x20 then unicodeEscape (hexDigits c.toNat)
    else String.utf8EncodeChar c
  | .lone unit => unicodeEscape (hexDigits unit.toNat)

def escapePoints (points : List CodePoint) : List UInt8 := points.flatMap escapePoint

/-- `QuoteJSONString`, as bytes. -/
def quoted (units : Units) : List UInt8 := quote :: escapePoints (codePoints units) ++ [quote]

theorem hexValue_hexDigit {n : Nat} (h : n < 0x10) : hexValue (hexDigit n) = some n := by
  have hall : ∀ digit : Fin 0x10, hexValue (hexDigit digit) = some digit.val := by decide
  exact hall ⟨n, h⟩

theorem hexText_hexDigits {n : Nat} (h : n < 0x10000) : HexText n (hexDigits n) := by
  have hn : ((n / 0x1000 % 0x10 * 16 + n / 0x100 % 0x10) * 16 + n / 0x10 % 0x10) * 16 + n % 0x10 = n := by omega
  have htext := HexText.digits (hexValue_hexDigit (n := n / 0x1000 % 0x10) (by omega))
    (hexValue_hexDigit (n := n / 0x100 % 0x10) (by omega)) (hexValue_hexDigit (n := n / 0x10 % 0x10) (by omega))
    (hexValue_hexDigit (n := n % 0x10) (by omega))
  rw [hn] at htext
  exact htext

theorem utf16EncodeChar_of_lt {c : Char} (h : c.toNat < 0x10000) : utf16EncodeChar c = [.ofNat c.toNat] := if_pos h

theorem unitsText_escapePoints (points : List CodePoint) :
    UnitsText (points.flatMap CodePoint.units) (escapePoints points) := by
  induction points with
  | nil => exact .nil
  | cons point points ih =>
    rw [escapePoints, List.flatMap_cons, List.flatMap_cons, ← escapePoints]
    have hshort {c : Char} {n : Nat} {letter : UInt8} (hc : c.toNat = n) (hn : n < 0x10000)
        (hletter : shortEscape (.ofNat n) = some letter) :
        UnitsText (utf16EncodeChar c ++ points.flatMap CodePoint.units) ([backslash, letter] ++ escapePoints points) := by
      rw [utf16EncodeChar_of_lt (by omega), hc]
      exact .short hletter ih
    cases point with
    | lone unit => exact .unicode (hexText_hexDigits unit.toNat_lt) ih
    | scalar c =>
      unfold escapePoint CodePoint.units
      dsimp only
      split
      · exact hshort ‹_› (by decide) (by decide)
      split
      · exact hshort ‹_› (by decide) (by decide)
      split
      · exact hshort ‹_› (by decide) (by decide)
      split
      · exact hshort ‹_› (by decide) (by decide)
      split
      · exact hshort ‹_› (by decide) (by decide)
      split
      · exact hshort ‹_› (by decide) (by decide)
      split
      · exact hshort ‹_› (by decide) (by decide)
      split
      next hcontrol =>
        rw [utf16EncodeChar_of_lt (by omega)]
        refine .unicode ?_ ih
        rw [UInt16.toNat_ofNat', Nat.mod_eq_of_lt (by omega)]
        exact hexText_hexDigits (by omega)
      next hquote hbackslash hcontrol => exact .raw (by omega) hquote hbackslash ih

theorem stringText_quoted (units : Units) : StringText units (quoted units) := by
  have htext := unitsText_escapePoints (codePoints units)
  rw [units_codePoints] at htext
  exact .quoted htext

end Quote

section Numbers

def natText (n : Nat) : List UInt8 := (Nat.toDigits 10 n).map (fun digit => .ofNat digit.toNat)

theorem natText_of_lt {n : Nat} (h : n < 10) : natText n = [.ofNat (0x30 + n)] := by
  rw [natText, Nat.toDigits_of_lt_base h, List.map_singleton, Nat.toNat_digitChar_of_lt_ten h]

theorem natText_of_le {n : Nat} (h : 10 ≤ n) : natText n = natText (n / 10) ++ [.ofNat (0x30 + n % 10)] := by
  have hdigit : n % 10 < 10 := Nat.mod_lt _ (by decide)
  rw [natText, Nat.toDigits_of_base_le (by decide) h, List.map_append, List.map_singleton,
    Nat.toNat_digitChar_of_lt_ten hdigit, natText]

theorem digitsValue_append (digits : List UInt8) (digit : UInt8) :
    digitsValue (digits ++ [digit]) = digitsValue digits * 10 + (digit.toNat - 0x30) := by
  rw [digitsValue, List.foldl_append, List.foldl_cons, List.foldl_nil, ← digitsValue]

theorem toNat_ofNat_digit {n : Nat} (h : n < 10) : (UInt8.ofNat (0x30 + n)).toNat = 0x30 + n := by
  rw [UInt8.toNat_ofNat', Nat.mod_eq_of_lt (by omega)]

theorem digits_natText (n : Nat) : Digits (natText n) := by
  have hdigit {d : Nat} (h : d < 10) : 0x30 ≤ UInt8.ofNat (0x30 + d) ∧ UInt8.ofNat (0x30 + d) ≤ 0x39 := by
    rw [UInt8.le_iff_toNat_le, UInt8.le_iff_toNat_le, toNat_ofNat_digit h]
    exact ⟨Nat.le_add_right 0x30 d, show 0x30 + d ≤ 0x39 by omega⟩
  induction n using Nat.strong_induction_on with
  | _ n ih =>
    by_cases h : n < 10
    · rw [natText_of_lt h]
      exact ⟨by simp, by simpa using hdigit h⟩
    · rw [natText_of_le (by omega)]
      have hfront := ih (n / 10) (by omega)
      refine ⟨by simp, fun digit hmem => ?_⟩
      rw [List.mem_append, List.mem_singleton] at hmem
      rcases hmem with hmem | rfl
      · exact hfront.2 digit hmem
      · exact hdigit (Nat.mod_lt _ (by decide))

theorem digitsValue_natText (n : Nat) : digitsValue (natText n) = n := by
  induction n using Nat.strong_induction_on with
  | _ n ih =>
    by_cases h : n < 10
    · rw [natText_of_lt h, digitsValue, List.foldl_cons, List.foldl_nil, toNat_ofNat_digit h]
      omega
    · rw [natText_of_le (by omega), digitsValue_append, ih _ (by omega), toNat_ofNat_digit (Nat.mod_lt _ (by decide))]
      omega

theorem head_natText {n : Nat} (h : (natText n).head? = some 0x30) : natText n = [0x30] := by
  induction n using Nat.strong_induction_on with
  | _ n ih =>
    by_cases hlt : n < 10
    · rw [natText_of_lt hlt] at h ⊢
      exact congrArg (fun digit => [digit]) (Option.some.inj h)
    · -- the digits of a number of two or more digits begin as those of its tenth part
      have htenth := natText_of_le (n := n) (by omega)
      have hne := (digits_natText (n / 10)).1
      rw [htenth, List.head?_append_of_ne_nil _ hne] at h
      have hzero := digitsValue_natText (n / 10)
      rw [ih _ (by omega) h] at hzero
      have hvalue : digitsValue [0x30] = 0 := by decide
      omega

theorem numberText_natText (n : Nat) : NumberText n (natText n) := by
  have hwhole := WholeText.digits (digits_natText n) head_natText
  have htext := NumberText.decimal .none hwhole .none .none
  rw [digitsValue_natText] at htext
  simpa using htext

theorem ne_backslash_of_mem_natText {n : Nat} : ∀ b ∈ natText n, b ≠ backslash := by
  intro b hmem
  have hdigit := (digits_natText n).2 b hmem
  rintro rfl
  exact absurd hdigit.2 (by decide)

theorem length_natText_le {n k : Nat} (hk : 0 < k) (h : n < 10 ^ k) : (natText n).length ≤ k := by
  rw [natText, List.length_map]
  exact (Nat.length_toDigits_le_iff (by decide) hk).mpr h

end Numbers

section Values

mutual

/-- `JSON.stringify` of a value, as bytes, over a text for each number. -/
def stringify (numberText : ℚ → List UInt8) : Value Units → List UInt8
  | .null => ascii "null"
  | .bool true => ascii "true"
  | .bool false => ascii "false"
  | .number q => numberText q
  | .string units => quoted units
  | .array [] => [0x5b, 0x5d]
  | .array (item :: items) => 0x5b :: (stringify numberText item ++ stringifyItems numberText items) ++ [0x5d]
  | .object [] => [0x7b, 0x7d]
  | .object ((name, value) :: members) =>
    0x7b :: (quoted name ++ 0x3a :: stringify numberText value ++ stringifyMembers numberText members) ++ [0x7d]

def stringifyItems (numberText : ℚ → List UInt8) : List (Value Units) → List UInt8
  | [] => []
  | item :: items => 0x2c :: stringify numberText item ++ stringifyItems numberText items

def stringifyMembers (numberText : ℚ → List UInt8) : List (Units × Value Units) → List UInt8
  | [] => []
  | (name, value) :: members =>
    0x2c :: quoted name ++ 0x3a :: stringify numberText value ++ stringifyMembers numberText members

/-- Every number of the value has the property. -/
def AllNumbers (P : ℚ → Prop) : Value Units → Prop
  | .number q => P q
  | .array items => AllNumbersOfItems P items
  | .object members => AllNumbersOfMembers P members
  | _ => True

def AllNumbersOfItems (P : ℚ → Prop) : List (Value Units) → Prop
  | [] => True
  | item :: items => AllNumbers P item ∧ AllNumbersOfItems P items

def AllNumbersOfMembers (P : ℚ → Prop) : List (Units × Value Units) → Prop
  | [] => True
  | (_, value) :: members => AllNumbers P value ∧ AllNumbersOfMembers P members

end

mutual

theorem AllNumbers.mono {P Q : ℚ → Prop} (h : ∀ q, P q → Q q) : {value : Value Units} → AllNumbers P value →
    AllNumbers Q value
  | .null, _ | .bool _, _ | .string _, _ => trivial
  | .number q, hq => h q hq
  | .array _, hs => AllNumbersOfItems.mono h hs
  | .object _, hs => AllNumbersOfMembers.mono h hs

theorem AllNumbersOfItems.mono {P Q : ℚ → Prop} (h : ∀ q, P q → Q q) : {items : List (Value Units)} →
    AllNumbersOfItems P items → AllNumbersOfItems Q items
  | [], _ => trivial
  | _ :: _, hs => ⟨AllNumbers.mono h hs.1, AllNumbersOfItems.mono h hs.2⟩

theorem AllNumbersOfMembers.mono {P Q : ℚ → Prop} (h : ∀ q, P q → Q q) : {members : List (Units × Value Units)} →
    AllNumbersOfMembers P members → AllNumbersOfMembers Q members
  | [], _ => trivial
  | _ :: _, hs => ⟨AllNumbers.mono h hs.1, AllNumbersOfMembers.mono h hs.2⟩

end

variable {numberText : ℚ → List UInt8}

theorem whitespace_nil : Whitespace [] := by simp [Whitespace]

theorem padded_self {P : List UInt8 → Prop} {text : List UInt8} (h : P text) : Padded P text := by
  have hpadded := Padded.around whitespace_nil h whitespace_nil
  rwa [List.append_nil, List.nil_append] at hpadded

theorem itemsText_last {item : Value Units} {text : List UInt8} (h : ValueText item text) : ItemsText [item] text := by
  have hitems := ItemsText.last whitespace_nil h whitespace_nil
  rwa [List.append_nil, List.nil_append] at hitems

theorem itemsText_cons {item : Value Units} {items : List (Value Units)} {text rest : List UInt8}
    (h : ValueText item text) (hrest : ItemsText items rest) : ItemsText (item :: items) (text ++ 0x2c :: rest) := by
  have hitems := ItemsText.cons whitespace_nil h whitespace_nil hrest
  rwa [List.append_nil, List.nil_append] at hitems

theorem membersText_last (name : Units) {value : Value Units} {text : List UInt8} (h : ValueText value text) :
    MembersText [(name, value)] (quoted name ++ 0x3a :: text) := by
  have hmembers := MembersText.last (padded_self (stringText_quoted name)) whitespace_nil h whitespace_nil
  rwa [List.append_nil, List.nil_append] at hmembers

theorem membersText_cons (name : Units) {value : Value Units} {members : List (Units × Value Units)}
    {text rest : List UInt8} (h : ValueText value text) (hrest : MembersText members rest) :
    MembersText ((name, value) :: members) (quoted name ++ 0x3a :: text ++ 0x2c :: rest) := by
  have hmembers := MembersText.cons (padded_self (stringText_quoted name)) whitespace_nil h whitespace_nil hrest
  rwa [List.append_nil, List.nil_append] at hmembers

mutual

theorem valueText_stringify : (value : Value Units) → AllNumbers (fun q => NumberText q (numberText q)) value →
    ValueText value (stringify numberText value)
  | .null, _ => .null
  | .bool true, _ => .true
  | .bool false, _ => .false
  | .number _, h => .number h
  | .string units, _ => .string (stringText_quoted units)
  | .array [], _ => .emptyArray whitespace_nil
  | .array (item :: items), h => .array (itemsText_stringify items h.2 (valueText_stringify item h.1))
  | .object [], _ => .emptyObject whitespace_nil
  | .object ((name, value) :: members), h =>
    .object (membersText_stringify members h.2 name (valueText_stringify value h.1))

theorem itemsText_stringify : (items : List (Value Units)) →
    AllNumbersOfItems (fun q => NumberText q (numberText q)) items →
    ∀ {first : Value Units} {text : List UInt8}, ValueText first text →
      ItemsText (first :: items) (text ++ stringifyItems numberText items)
  | [], _, _, text, hfirst => by
    rw [stringifyItems, List.append_nil]
    exact itemsText_last hfirst
  | item :: items, h, _, text, hfirst => by
    rw [stringifyItems, List.cons_append]
    exact itemsText_cons hfirst (itemsText_stringify items h.2 (valueText_stringify item h.1))

theorem membersText_stringify : (members : List (Units × Value Units)) →
    AllNumbersOfMembers (fun q => NumberText q (numberText q)) members →
    ∀ (first : Units) {value : Value Units} {text : List UInt8}, ValueText value text →
      MembersText ((first, value) :: members) (quoted first ++ 0x3a :: text ++ stringifyMembers numberText members)
  | [], _, first, _, text, hfirst => by
    rw [stringifyMembers, List.append_nil]
    exact membersText_last first hfirst
  | (name, value) :: members, h, first, _, text, hfirst => by
    rw [stringifyMembers, List.cons_append, List.cons_append]
    exact membersText_cons first hfirst (membersText_stringify members h.2 name (valueText_stringify value h.1))

end

theorem documentText_stringify {value : Value Units} (h : AllNumbers (fun q => NumberText q (numberText q)) value) :
    DocumentText value (stringify numberText value) :=
  padded_self (valueText_stringify value h)

end Values

end Json
