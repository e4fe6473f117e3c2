import MacroKeyboard.Json.Stringify

namespace Json

section Strings

theorem utf8EncodeChar_append_inj {c d : Char} {rest rest' : List UInt8}
    (h : String.utf8EncodeChar c ++ rest = String.utf8EncodeChar d ++ rest') : c = d ∧ rest = rest' := by
  have hdecode (e : Char) (tail : List UInt8) :
      (String.utf8EncodeChar e ++ tail).toByteArray.utf8DecodeChar? 0 = some e := by
    rw [List.toByteArray_append]
    exact ByteArray.utf8DecodeChar?_utf8EncodeChar_append
  have hsame := hdecode c rest
  rw [h, hdecode d rest', Option.some.injEq] at hsame
  subst hsame
  exact ⟨rfl, List.append_cancel_left h⟩

theorem head_utf8EncodeChar {c : Char} (hquote : c.toNat ≠ 0x22) (hbackslash : c.toNat ≠ 0x5c) :
    ∃ b tail, String.utf8EncodeChar c = b :: tail ∧ b ≠ quote ∧ b ≠ backslash := by
  obtain ⟨b, tail, hbytes⟩ := List.exists_cons_of_ne_nil (l := String.utf8EncodeChar c) (by
    intro hnil
    have hlength := congrArg List.length hnil
    rw [String.length_utf8EncodeChar] at hlength
    exact absurd hlength (Char.utf8Size_pos c).ne')
  have hmem : b ∈ String.utf8EncodeChar c := hbytes ▸ List.mem_cons_self
  refine ⟨b, tail, hbytes, ?_, ?_⟩
  · rintro rfl
    exact hquote (toNat_of_mem_utf8EncodeChar hmem (by decide)).symm
  · rintro rfl
    exact hbackslash (toNat_of_mem_utf8EncodeChar hmem (by decide)).symm

theorem hexText_inj {m n : Nat} {digits : List UInt8} (hm : HexText m digits) (hn : HexText n digits) : m = n := by
  cases hm with
  | digits ha hb hc hd =>
    cases hn with
    | digits ha' hb' hc' hd' =>
      rw [ha] at ha'
      rw [hb] at hb'
      rw [hc] at hc'
      rw [hd] at hd'
      cases ha'
      cases hb'
      cases hc'
      cases hd'
      rfl

theorem HexText.length_eq {n : Nat} {digits : List UInt8} (h : HexText n digits) : digits.length = 4 := by
  cases h
  rfl

theorem unicodeEscape_inj {u v : UInt16} {digits digits' rest rest' : List UInt8} (hu : HexText u.toNat digits)
    (hv : HexText v.toNat digits') (h : unicodeEscape digits ++ rest = unicodeEscape digits' ++ rest') :
    u = v ∧ rest = rest' := by
  have htail : digits ++ rest = digits' ++ rest' := (List.cons.inj (List.cons.inj h).2).2
  obtain ⟨hdigits, hrest⟩ := List.append_inj htail (hu.length_eq.trans hv.length_eq.symm)
  subst hdigits
  exact ⟨UInt16.toNat_inj.mp (hexText_inj hu hv), hrest⟩

/-- The code unit that a letter behind a backslash stands for. -/
def unitOfLetter (letter : UInt8) : UInt16 :=
  if letter = 0x62 then 0x08
  else if letter = 0x74 then 0x09
  else if letter = 0x6e then 0x0a
  else if letter = 0x66 then 0x0c
  else if letter = 0x72 then 0x0d
  else letter.toUInt16

theorem unitOfLetter_of_shortEscape {unit : UInt16} {letter : UInt8} (h : shortEscape unit = some letter) :
    unitOfLetter letter = unit := by
  unfold shortEscape at h
  split_ifs at h <;> subst_vars <;> cases h <;> decide

theorem shortEscape_ne {unit : UInt16} : shortEscape unit ≠ some 0x75 := by
  unfold shortEscape
  split_ifs <;> decide

/-- What stands for a code point in a quoted string: its character, a letter or
four digits behind a backslash. -/
inductive EscapeOf : CodePoint → List UInt8 → Prop
  | raw {c : Char} (hcontrol : 0x20 ≤ c.toNat) (hquote : c.toNat ≠ 0x22) (hbackslash : c.toNat ≠ 0x5c) :
    EscapeOf (.scalar c) (String.utf8EncodeChar c)
  | short {c : Char} {letter : UInt8} (hsmall : c.toNat < 0x10000)
    (hletter : shortEscape (.ofNat c.toNat) = some letter) : EscapeOf (.scalar c) [backslash, letter]
  | unicode {point : CodePoint} {unit : UInt16} (hunit : point.units = [unit]) :
    EscapeOf point (unicodeEscape (hexDigits unit.toNat))

theorem escapeOf_escapePoint (point : CodePoint) : EscapeOf point (escapePoint point) := by
  cases point with
  | lone unit => exact .unicode rfl
  | scalar c =>
    have hshort {n : Nat} {letter : UInt8} (hc : c.toNat = n) (hn : n < 0x10000)
        (hletter : shortEscape (.ofNat n) = some letter) : EscapeOf (.scalar c) [backslash, letter] :=
      .short (by omega) (by rw [hc, hletter])
    unfold escapePoint
    dsimp only
    split
    · exact hshort ‹_› (by decide) (by decide)
    split
    · exact hshort ‹_› (by decide) (by decide)
    split
    · exact hshort ‹_› (by decide) (by decide)
    split
    · exact hshort ‹_› (by decide) (by decide)
    split
    · exact hshort ‹_› (by decide) (by decide)
    split
    · exact hshort ‹_› (by decide) (by decide)
    split
    · exact hshort ‹_› (by decide) (by decide)
    split
    next hcontrol =>
      have hunit : CodePoint.units (.scalar c) = [UInt16.ofNat c.toNat] := utf16EncodeChar_of_lt (by omega)
      have hescape := EscapeOf.unicode hunit
      rwa [UInt16.toNat_ofNat', Nat.mod_eq_of_lt (by omega)] at hescape
    next hquote hbackslash hcontrol => exact .raw (by omega) hquote hbackslash

/-- The code units of a literal begin with the code point that its text begins
with. -/
theorem unitsText_escape {point : CodePoint} {escape : List UInt8} (hescape : EscapeOf point escape) {units : Units}
    {text rest rest' : List UInt8} (h : UnitsText units text)
    (heq : text ++ quote :: rest = escape ++ rest') :
    ∃ tail tailText, units = point.units ++ tail ∧ UnitsText tail tailText ∧ tailText ++ quote :: rest = rest' := by
  cases hescape with
  | @raw c hcontrol hquote hbackslash =>
    obtain ⟨b, front, hbytes, hb, hb'⟩ := head_utf8EncodeChar hquote hbackslash
    cases h with
    | nil =>
      rw [hbytes] at heq
      exact absurd (List.cons.inj heq).1.symm hb
    | raw _ _ _ h =>
      rw [List.append_assoc] at heq
      obtain ⟨rfl, hrest⟩ := utf8EncodeChar_append_inj heq
      exact ⟨_, _, rfl, h, hrest⟩
    | short _ _ =>
      rw [hbytes] at heq
      exact absurd (List.cons.inj heq).1.symm hb'
    | unicode _ _ =>
      rw [hbytes] at heq
      exact absurd (List.cons.inj heq).1.symm hb'
  | @short c letter hsmall hletter =>
    cases h with
    | nil => exact absurd (List.cons.inj heq).1 (by decide)
    | raw _ hquote' hbackslash' _ =>
      obtain ⟨b, front, hbytes, hb, hb'⟩ := head_utf8EncodeChar hquote' hbackslash'
      rw [hbytes] at heq
      exact absurd (List.cons.inj heq).1 hb'
    | short hletter' h =>
      obtain ⟨hsame, hrest⟩ := List.cons.inj (List.cons.inj heq).2
      rw [hsame] at hletter'
      rw [← unitOfLetter_of_shortEscape hletter', unitOfLetter_of_shortEscape hletter]
      exact ⟨_, _, by rw [CodePoint.units, utf16EncodeChar_of_lt hsmall]; rfl, h, hrest⟩
    | unicode _ _ =>
      obtain ⟨hsame, -⟩ := List.cons.inj (List.cons.inj heq).2
      rw [← hsame] at hletter
      exact absurd hletter shortEscape_ne
  | @unicode point unit hunit =>
    cases h with
    | nil => exact absurd (List.cons.inj heq).1 (by decide)
    | raw _ hquote' hbackslash' _ =>
      obtain ⟨b, front, hbytes, hb, hb'⟩ := head_utf8EncodeChar hquote' hbackslash'
      rw [hbytes] at heq
      exact absurd (List.cons.inj heq).1 hb'
    | short hletter' h =>
      obtain ⟨hsame, -⟩ := List.cons.inj (List.cons.inj heq).2
      rw [hsame] at hletter'
      exact absurd hletter' shortEscape_ne
    | unicode hdigits h =>
      rw [List.append_assoc] at heq
      obtain ⟨rfl, hrest⟩ := unicodeEscape_inj hdigits (hexText_hexDigits unit.toNat_lt) heq
      exact ⟨_, _, by rw [hunit]; rfl, h, hrest⟩

theorem unitsText_unique {points : List CodePoint} {units : Units} {text rest rest' : List UInt8}
    (h : UnitsText units text) (heq : text ++ quote :: rest = escapePoints points ++ quote :: rest') :
    units = points.flatMap CodePoint.units ∧ rest = rest' := by
  induction points generalizing units text with
  | nil =>
    cases h with
    | nil => exact ⟨rfl, (List.cons.inj heq).2⟩
    | raw _ hquote' hbackslash' _ =>
      obtain ⟨b, front, hbytes, hb, hb'⟩ := head_utf8EncodeChar hquote' hbackslash'
      rw [hbytes] at heq
      exact absurd (List.cons.inj heq).1 hb
    | short _ _ => exact absurd (List.cons.inj heq).1 (by decide)
    | unicode _ _ => exact absurd (List.cons.inj heq).1 (by decide)
  | cons point points ih =>
    rw [escapePoints, List.flatMap_cons, List.append_assoc, ← escapePoints] at heq
    obtain ⟨tail, tailText, rfl, htail, hrest⟩ := unitsText_escape (escapeOf_escapePoint point) h heq
    obtain ⟨rfl, hrest⟩ := ih htail hrest
    exact ⟨rfl, hrest⟩

theorem stringText_unique {units units' : Units} {text rest rest' : List UInt8} (h : StringText units' text)
    (heq : text ++ rest = quoted units ++ rest') : units' = units ∧ rest = rest' := by
  cases h with
  | quoted h =>
    rw [quoted, List.append_assoc, List.append_assoc, List.cons_append, List.cons_append] at heq
    obtain ⟨rfl, hrest⟩ := unitsText_unique h (List.cons.inj heq).2
    exact ⟨units_codePoints units, hrest⟩

end Strings

section Numbers

def IsDigit (b : UInt8) : Prop := 0x30 ≤ b ∧ b ≤ 0x39

instance (b : UInt8) : Decidable (IsDigit b) := inferInstanceAs (Decidable (_ ∧ _))

def Stops (rest : List UInt8) : Prop :=
  ∀ b, rest.head? = some b → ¬ IsDigit b ∧ b ≠ 0x2e ∧ b ≠ 0x65 ∧ b ≠ 0x45

theorem digits_append_inj {digits digits' rest rest' : List UInt8} (h : ∀ b ∈ digits, IsDigit b)
    (h' : ∀ b ∈ digits', IsDigit b) (hrest : ∀ b, rest.head? = some b → ¬ IsDigit b)
    (hrest' : ∀ b, rest'.head? = some b → ¬ IsDigit b) (heq : digits ++ rest = digits' ++ rest') :
    digits = digits' ∧ rest = rest' := by
  induction digits generalizing digits' with
  | nil =>
    cases digits' with
    | nil => exact ⟨rfl, heq⟩
    | cons b digits' =>
      rw [List.nil_append] at heq
      exact absurd (h' b List.mem_cons_self) (hrest b (by rw [heq]; rfl))
  | cons b digits ih =>
    cases digits' with
    | nil =>
      rw [List.nil_append] at heq
      exact absurd (h b List.mem_cons_self) (hrest' b (by rw [← heq]; rfl))
    | cons b' digits' =>
      obtain ⟨rfl, htail⟩ := List.cons.inj heq
      obtain ⟨rfl, hsame⟩ := ih (fun c hc => h c (List.mem_cons_of_mem _ hc))
        (fun c hc => h' c (List.mem_cons_of_mem _ hc)) htail
      exact ⟨rfl, hsame⟩

theorem numberText_unique {q : ℚ} {n : ℕ} {text rest rest' : List UInt8} (h : NumberText q text)
    (heq : text ++ rest = natText n ++ rest') (hrest : Stops rest) (hrest' : Stops rest') :
    q = n ∧ rest = rest' := by
  cases h with
  | @decimal sign fraction whole exponent signText wholeText fractionText exponentText hsign hwhole hfraction hexponent =>
    obtain ⟨hne, hdigits⟩ := digits_natText n
    obtain ⟨first, others, hfirst⟩ := List.exists_cons_of_ne_nil hne
    cases hsign with
    | minus =>
      rw [hfirst] at heq
      have hminus := hdigits first (hfirst ▸ List.mem_cons_self)
      rw [← (List.cons.inj heq).1] at hminus
      exact absurd hminus (by decide)
    | none =>
      cases hwhole with
      | @digits digits hwhole _ =>
        have hexponentHead : ∀ b, (exponentText ++ rest).head? = some b → ¬ IsDigit b := by
          cases hexponent with
          | none => exact fun b hb => (hrest b hb).1
          | plain hletter _ =>
            rintro b ⟨⟩
            rcases hletter with rfl | rfl <;> decide
          | plus hletter _ =>
            rintro b ⟨⟩
            rcases hletter with rfl | rfl <;> decide
          | minus hletter _ =>
            rintro b ⟨⟩
            rcases hletter with rfl | rfl <;> decide
        have hhead : ∀ b, (fractionText ++ (exponentText ++ rest)).head? = some b → ¬ IsDigit b := by
          cases hfraction with
          | none => exact hexponentHead
          | point _ =>
            rintro b ⟨⟩
            decide
        rw [List.nil_append, List.append_assoc, List.append_assoc] at heq
        obtain ⟨hsame, htail⟩ := digits_append_inj hwhole.2 hdigits hhead (fun b hb => (hrest' b hb).1) heq
        cases hfraction with
        | point _ => exact absurd rfl (hrest' 0x2e (by rw [← htail]; rfl)).2.1
        | none =>
          rw [List.nil_append] at htail
          have hletter {letter : UInt8} {tail : List UInt8} (hletter : letter = 0x65 ∨ letter = 0x45)
              (htail : letter :: tail = rest') : False := by
            have hstop := hrest' letter (by rw [← htail]; rfl)
            rcases hletter with rfl | rfl
            · exact hstop.2.2.1 rfl
            · exact hstop.2.2.2 rfl
          cases hexponent with
          | none =>
            refine ⟨?_, htail⟩
            rw [hsame, digitsValue_natText]
            simp
          | plain h _ => exact (hletter h htail).elim
          | plus h _ => exact (hletter h htail).elim
          | minus h _ => exact (hletter h htail).elim

end Numbers

section Values

def IsWhite (b : UInt8) : Prop := b = 0x20 ∨ b = 0x09 ∨ b = 0x0a ∨ b = 0x0d

instance (b : UInt8) : Decidable (IsWhite b) := inferInstanceAs (Decidable (_ ∨ _))

/-- The first byte of a text tells which kind of value it is. -/
inductive Leads : Value Units → UInt8 → Prop
  | null : Leads .null 0x6e
  | true : Leads (.bool .true) 0x74
  | false : Leads (.bool .false) 0x66
  | number {q : ℚ} {b : UInt8} (h : b = 0x2d ∨ IsDigit b) : Leads (.number q) b
  | string {units : Units} : Leads (.string units) 0x22
  | array {items : List (Value Units)} : Leads (.array items) 0x5b
  | object {members : List (Units × Value Units)} : Leads (.object members) 0x7b

theorem leads_of_valueText {value : Value Units} {text : List UInt8} (h : ValueText value text) :
    ∃ b tail, text = b :: tail ∧ Leads value b := by
  cases h with
  | null => exact ⟨_, _, rfl, .null⟩
  | true => exact ⟨_, _, rfl, .true⟩
  | false => exact ⟨_, _, rfl, .false⟩
  | number h =>
    cases h with
    | decimal hsign hwhole _ _ =>
      cases hsign with
      | minus => exact ⟨_, _, rfl, .number (Or.inl rfl)⟩
      | none =>
        cases hwhole with
        | @digits digits h _ =>
          obtain ⟨b, tail, rfl⟩ := List.exists_cons_of_ne_nil h.1
          exact ⟨_, _, rfl, .number (Or.inr (h.2 b List.mem_cons_self))⟩
  | string h =>
    cases h
    exact ⟨_, _, rfl, .string⟩
  | emptyArray _ => exact ⟨_, _, rfl, .array⟩
  | array _ => exact ⟨_, _, rfl, .array⟩
  | emptyObject _ => exact ⟨_, _, rfl, .object⟩
  | object _ => exact ⟨_, _, rfl, .object⟩

theorem Leads.spec {value : Value Units} {b : UInt8} (h : Leads value b) : ¬ IsWhite b ∧ b ≠ 0x5d ∧ b ≠ 0x7d := by
  cases h with
  | number h =>
    rcases h with rfl | hdigit
    · exact ⟨by decide, by decide, by decide⟩
    · refine ⟨?_, ?_, ?_⟩
      · rintro (rfl | rfl | rfl | rfl) <;> exact absurd hdigit (by decide)
      · rintro rfl
        exact absurd hdigit (by decide)
      · rintro rfl
        exact absurd hdigit (by decide)
  | _ => exact ⟨by decide, by decide, by decide⟩

theorem whitespace_append_cons {front rest tail : List UInt8} {b : UInt8} (hfront : Whitespace front)
    (hb : ¬ IsWhite b) (heq : front ++ rest = b :: tail) : front = [] ∧ rest = b :: tail := by
  cases front with
  | nil => exact ⟨rfl, heq⟩
  | cons c front =>
    have hc := hfront c List.mem_cons_self
    rw [(List.cons.inj heq).1] at hc
    exact absurd hc hb

theorem stops_cons {b : UInt8} {rest : List UInt8} (h : ¬ IsDigit b ∧ b ≠ 0x2e ∧ b ≠ 0x65 ∧ b ≠ 0x45) :
    Stops (b :: rest) := by
  rintro c ⟨⟩
  exact h

theorem stops_whitespace {back rest : List UInt8} (hback : Whitespace back) (hrest : Stops rest) :
    Stops (back ++ rest) := by
  cases back with
  | nil => exact hrest
  | cons b back => exact stops_cons (by rcases hback b List.mem_cons_self with rfl | rfl | rfl | rfl <;> decide)

theorem stops_comma (rest : List UInt8) : Stops (0x2c :: rest) := stops_cons (by decide)

variable {numberText : ℚ → List UInt8}

def WritesNatural (numberText : ℚ → List UInt8) (q : ℚ) : Prop := ∃ n : ℕ, q = n ∧ numberText q = natText n

theorem WritesNatural.numberText_of {q : ℚ} (h : WritesNatural numberText q) : NumberText q (numberText q) := by
  obtain ⟨n, rfl, htext⟩ := h
  rw [htext]
  exact numberText_natText n

/-- The text is written for no other value, whatever comes behind it. -/
def Determines (numberText : ℚ → List UInt8) (value : Value Units) : Prop :=
  ∀ ⦃other : Value Units⦄ ⦃text rest rest' : List UInt8⦄, ValueText other text →
    text ++ rest = stringify numberText value ++ rest' → Stops rest → Stops rest' → other = value ∧ rest = rest'

theorem leads_stringify {value : Value Units} (h : AllNumbers (WritesNatural numberText) value) :
    ∃ b tail, stringify numberText value = b :: tail ∧ Leads value b :=
  leads_of_valueText (valueText_stringify value (h.mono fun _ hq => hq.numberText_of))

theorem front_stringify {value : Value Units} (h : AllNumbers (WritesNatural numberText) value)
    {front rest rest' : List UInt8} (hfront : Whitespace front)
    (heq : front ++ rest = stringify numberText value ++ rest') :
    front = [] ∧ rest = stringify numberText value ++ rest' := by
  obtain ⟨b, tail, hbytes, hleads⟩ := leads_stringify h
  rw [hbytes, List.cons_append] at heq ⊢
  exact whitespace_append_cons hfront hleads.spec.1 heq

theorem head_of_whitespace {back rest tail : List UInt8} {b c : UInt8} (hback : Whitespace back) (hc : ¬ IsWhite c)
    (hne : b ≠ c) (heq : back ++ b :: rest = c :: tail) : False := by
  obtain ⟨-, hrest⟩ := whitespace_append_cons hback hc heq
  exact hne (List.cons.inj hrest).1

theorem quoted_eq_cons (units : Units) : quoted units = quote :: (escapePoints (codePoints units) ++ [quote]) := rfl

theorem name_unique {name name' : Units} {nameText rest rest' : List UInt8}
    (h : Padded (StringText name') nameText) (heq : nameText ++ 0x3a :: rest = quoted name ++ 0x3a :: rest') :
    name' = name ∧ rest = rest' := by
  cases h with
  | around hfront htext hback =>
    rw [quoted_eq_cons, List.cons_append, List.append_assoc, List.append_assoc] at heq
    obtain ⟨rfl, hrest⟩ := whitespace_append_cons hfront (by decide) heq
    rw [← List.cons_append, ← quoted_eq_cons] at hrest
    obtain ⟨rfl, hcolon⟩ := stringText_unique htext hrest
    obtain ⟨rfl, hsame⟩ := whitespace_append_cons hback (by decide) hcolon
    exact ⟨rfl, (List.cons.inj hsame).2⟩

theorem not_itemsText {items : List (Value Units)} {text rest tail : List UInt8} (h : ItemsText items text)
    (heq : text ++ rest = 0x5d :: tail) : False := by
  have hitem {item : Value Units} {front itemText behind : List UInt8} (hfront : Whitespace front)
      (h : ValueText item itemText) (heq : front ++ (itemText ++ behind) = 0x5d :: tail) : False := by
    obtain ⟨rfl, hrest⟩ := whitespace_append_cons hfront (by decide) heq
    obtain ⟨b, others, rfl, hleads⟩ := leads_of_valueText h
    exact hleads.spec.2.1 (List.cons.inj hrest).1
  cases h with
  | last hfront h _ =>
    rw [List.append_assoc, List.append_assoc] at heq
    exact hitem hfront h heq
  | cons hfront h _ _ =>
    rw [List.append_assoc, List.append_assoc, List.append_assoc] at heq
    exact hitem hfront h heq

theorem not_membersText {members : List (Units × Value Units)} {text rest tail : List UInt8}
    (h : MembersText members text) (heq : text ++ rest = 0x7d :: tail) : False := by
  have hname {name : Units} {nameText behind : List UInt8} (h : Padded (StringText name) nameText)
      (heq : nameText ++ behind = 0x7d :: tail) : False := by
    cases h with
    | around hfront htext _ =>
      cases htext with
      | quoted _ =>
        rw [List.append_assoc, List.append_assoc] at heq
        exact head_of_whitespace hfront (by decide) (by decide) heq
  cases h with
  | last hnameText _ _ _ =>
    rw [List.append_assoc] at heq
    exact hname hnameText heq
  | cons hnameText _ _ _ _ =>
    rw [List.append_assoc, List.append_assoc] at heq
    exact hname hnameText heq

def kind : Value Units → Nat
  | .null => 0
  | .bool true => 1
  | .bool false => 2
  | .number _ => 3
  | .string _ => 4
  | .array _ => 5
  | .object _ => 6

def kindOfByte (b : UInt8) : Nat :=
  if b = 0x6e then 0 else if b = 0x74 then 1 else if b = 0x66 then 2 else if b = 0x22 then 4
  else if b = 0x5b then 5 else if b = 0x7b then 6 else 3

theorem Leads.kind_eq {value : Value Units} {b : UInt8} (h : Leads value b) : kind value = kindOfByte b := by
  cases h with
  | number h =>
    have hne {letter : UInt8} (hsign : letter ≠ 0x2d) (hdigit : ¬ IsDigit letter) : b ≠ letter := by
      rintro rfl
      exact h.elim hsign hdigit
    rw [kindOfByte, if_neg (hne (by decide) (by decide)), if_neg (hne (by decide) (by decide)),
      if_neg (hne (by decide) (by decide)), if_neg (hne (by decide) (by decide)),
      if_neg (hne (by decide) (by decide)), if_neg (hne (by decide) (by decide))]
    rfl
  | _ => rfl

theorem kind_unique (value : Value Units) {other : Value Units} (hnumbers : AllNumbers (WritesNatural numberText) value)
    {text rest rest' : List UInt8} (h : ValueText other text) (heq : text ++ rest = stringify numberText value ++ rest') :
    kind other = kind value := by
  obtain ⟨b, tail, rfl, hleads⟩ := leads_of_valueText h
  obtain ⟨b', tail', hbytes, hleads'⟩ := leads_stringify hnumbers
  rw [hbytes] at heq
  obtain ⟨rfl, -⟩ := List.cons.inj heq
  exact hleads.kind_eq.trans hleads'.kind_eq.symm

theorem determines_literal {value : Value Units} (literal : List UInt8) (hkind : ∀ other, kind other = kind value →
    other = value) (hliteral : stringify numberText value = literal) (htext : ∀ text, ValueText value text → text = literal)
    (hnumbers : AllNumbers (WritesNatural numberText) value) : Determines numberText value := by
  intro other text rest rest' h heq _ _
  obtain rfl := hkind other (kind_unique value hnumbers h heq)
  rw [hliteral, htext text h] at heq
  exact ⟨rfl, List.append_cancel_left heq⟩

theorem determines_number {q : ℚ} (h : WritesNatural numberText q) : Determines numberText (.number q) := by
  intro other text rest rest' hother heq hrest hrest'
  have hkind := kind_unique (.number q) h hother heq
  obtain ⟨n, rfl, htext⟩ := h
  cases hother with
  | number hnumber =>
    rw [stringify, htext] at heq
    obtain ⟨rfl, hsame⟩ := numberText_unique hnumber heq hrest hrest'
    exact ⟨rfl, hsame⟩
  | _ => cases hkind

theorem determines_string (units : Units) : Determines numberText (.string units) := by
  intro other text rest rest' hother heq _ _
  have hkind := kind_unique (.string units) trivial hother heq
  cases hother with
  | string hstring =>
    obtain ⟨rfl, hsame⟩ := stringText_unique hstring heq
    exact ⟨rfl, hsame⟩
  | _ => cases hkind

theorem determines_emptyArray : Determines numberText (.array []) := by
  intro other text rest rest' hother heq _ _
  have hkind := kind_unique (.array []) trivial hother heq
  cases hother with
  | emptyArray hwhite =>
    simp only [stringify, List.cons_append, List.append_assoc, List.nil_append] at heq
    obtain ⟨rfl, hsame⟩ := whitespace_append_cons hwhite (by decide) (List.cons.inj heq).2
    exact ⟨rfl, (List.cons.inj hsame).2⟩
  | array hitems =>
    simp only [stringify, List.cons_append, List.append_assoc, List.nil_append] at heq
    exact (not_itemsText hitems (List.cons.inj heq).2).elim
  | _ => cases hkind

theorem determines_emptyObject : Determines numberText (.object []) := by
  intro other text rest rest' hother heq _ _
  have hkind := kind_unique (.object []) trivial hother heq
  cases hother with
  | emptyObject hwhite =>
    simp only [stringify, List.cons_append, List.append_assoc, List.nil_append] at heq
    obtain ⟨rfl, hsame⟩ := whitespace_append_cons hwhite (by decide) (List.cons.inj heq).2
    exact ⟨rfl, (List.cons.inj hsame).2⟩
  | object hmembers =>
    simp only [stringify, List.cons_append, List.append_assoc, List.nil_append] at heq
    exact (not_membersText hmembers (List.cons.inj heq).2).elim
  | _ => cases hkind

mutual

/-- What `JSON.stringify` makes of a value is the text of no other, when its numbers
are natural ones. -/
theorem determines_stringify : (value : Value Units) → AllNumbers (WritesNatural numberText) value →
    Determines numberText value
  | .null, h => determines_literal (ascii "null") (fun other hkind => by
      cases other with
      | null => rfl
      | bool b => cases b <;> cases hkind
      | _ => cases hkind) rfl (fun text htext => by cases htext; rfl) h
  | .bool true, h => determines_literal (ascii "true") (fun other hkind => by
      cases other with
      | bool b => cases b <;> first | rfl | cases hkind
      | _ => cases hkind) rfl (fun text htext => by cases htext; rfl) h
  | .bool false, h => determines_literal (ascii "false") (fun other hkind => by
      cases other with
      | bool b => cases b <;> first | rfl | cases hkind
      | _ => cases hkind) rfl (fun text htext => by cases htext; rfl) h
  | .number _, h => determines_number h
  | .string units, _ => determines_string units
  | .array [], _ => determines_emptyArray
  | .array (item :: items), h => by
    intro other text rest rest' hother heq _ _
    have hkind := kind_unique (.array (item :: items)) h hother heq
    cases hother with
    | emptyArray hwhite =>
      rw [stringify] at heq
      simp only [List.cons_append, List.append_assoc, List.nil_append] at heq
      obtain ⟨rfl, hsame⟩ := front_stringify h.1 hwhite (List.cons.inj heq).2
      obtain ⟨b, tail, hbytes, hleads⟩ := leads_stringify h.1
      rw [hbytes] at hsame
      exact absurd (List.cons.inj hsame).1.symm hleads.spec.2.1
    | array hitems =>
      rw [stringify] at heq
      simp only [List.cons_append, List.append_assoc, List.nil_append] at heq
      obtain ⟨rfl, hsame⟩ := determines_items items h.2 h.1 (determines_stringify item h.1) hitems (List.cons.inj heq).2
      exact ⟨rfl, hsame⟩
    | _ => cases hkind
  | .object [], _ => determines_emptyObject
  | .object ((name, value) :: members), h => by
    intro other text rest rest' hother heq _ _
    have hkind := kind_unique (.object ((name, value) :: members)) h hother heq
    cases hother with
    | emptyObject hwhite =>
      rw [stringify, List.cons_append, List.cons_append, quoted_eq_cons] at heq
      simp only [List.append_assoc, List.cons_append] at heq
      exact (head_of_whitespace hwhite (by decide) (by decide) (List.cons.inj heq).2).elim
    | object hmembers =>
      rw [stringify] at heq
      simp only [List.append_assoc, List.cons_append] at heq
      obtain ⟨rfl, hsame⟩ := determines_members members h.2 h.1 (determines_stringify value h.1) hmembers
        (List.cons.inj heq).2
      exact ⟨rfl, hsame⟩
    | _ => cases hkind

theorem determines_items : (items : List (Value Units)) → AllNumbersOfItems (WritesNatural numberText) items →
    ∀ ⦃first : Value Units⦄, AllNumbers (WritesNatural numberText) first → Determines numberText first →
    ∀ ⦃others : List (Value Units)⦄ ⦃text rest rest' : List UInt8⦄, ItemsText others text →
      text ++ 0x5d :: rest = stringify numberText first ++ (stringifyItems numberText items ++ 0x5d :: rest') →
      others = first :: items ∧ rest = rest'
  | [], _ => by
    intro first hnumbers hfirst others text rest rest' hothers heq
    cases hothers with
    | last hfront h hback =>
      rw [List.append_assoc, List.append_assoc] at heq
      obtain ⟨rfl, hsame⟩ := front_stringify hnumbers hfront heq
      obtain ⟨rfl, hbehind⟩ := hfirst h hsame (stops_whitespace hback (stops_cons (by decide))) (stops_cons (by decide))
      obtain ⟨rfl, hclose⟩ := whitespace_append_cons hback (by decide) hbehind
      exact ⟨rfl, (List.cons.inj hclose).2⟩
    | cons hfront h hback hrest =>
      simp only [List.append_assoc, List.cons_append] at heq
      obtain ⟨rfl, hsame⟩ := front_stringify hnumbers hfront heq
      obtain ⟨rfl, hbehind⟩ := hfirst h hsame (stops_whitespace hback (stops_comma _)) (stops_cons (by decide))
      exact (head_of_whitespace hback (by decide) (by decide) hbehind).elim
  | item :: items, hitems => by
    intro first hnumbers hfirst others text rest rest' hothers heq
    rw [stringifyItems, List.cons_append] at heq
    cases hothers with
    | last hfront h hback =>
      rw [List.append_assoc, List.append_assoc] at heq
      obtain ⟨rfl, hsame⟩ := front_stringify hnumbers hfront heq
      obtain ⟨rfl, hbehind⟩ := hfirst h hsame (stops_whitespace hback (stops_cons (by decide))) (stops_comma _)
      exact (head_of_whitespace hback (by decide) (by decide) hbehind).elim
    | cons hfront h hback hrest =>
      simp only [List.append_assoc, List.cons_append] at heq
      obtain ⟨rfl, hsame⟩ := front_stringify hnumbers hfront heq
      obtain ⟨rfl, hbehind⟩ := hfirst h hsame (stops_whitespace hback (stops_comma _)) (stops_comma _)
      obtain ⟨rfl, hcomma⟩ := whitespace_append_cons hback (by decide) hbehind
      obtain ⟨rfl, hclose⟩ := determines_items items hitems.2 hitems.1 (determines_stringify item hitems.1) hrest
        (List.cons.inj hcomma).2
      exact ⟨rfl, hclose⟩

theorem determines_members : (members : List (Units × Value Units)) →
    AllNumbersOfMembers (WritesNatural numberText) members →
    ∀ ⦃name : Units⦄ ⦃first : Value Units⦄, AllNumbers (WritesNatural numberText) first → Determines numberText first →
    ∀ ⦃others : List (Units × Value Units)⦄ ⦃text rest rest' : List UInt8⦄, MembersText others text →
      text ++ 0x7d :: rest = quoted name ++ 0x3a :: (stringify numberText first ++
        (stringifyMembers numberText members ++ 0x7d :: rest')) →
      others = (name, first) :: members ∧ rest = rest'
  | [], _ => by
    intro name first hnumbers hfirst others text rest rest' hothers heq
    cases hothers with
    | last hname hfront h hback =>
      simp only [List.append_assoc, List.cons_append] at heq
      obtain ⟨rfl, hvalue⟩ := name_unique hname heq
      obtain ⟨rfl, hsame⟩ := front_stringify hnumbers hfront hvalue
      obtain ⟨rfl, hbehind⟩ := hfirst h hsame (stops_whitespace hback (stops_cons (by decide))) (stops_cons (by decide))
      obtain ⟨rfl, hclose⟩ := whitespace_append_cons hback (by decide) hbehind
      exact ⟨rfl, (List.cons.inj hclose).2⟩
    | cons hname hfront h hback hrest =>
      simp only [List.append_assoc, List.cons_append] at heq
      obtain ⟨rfl, hvalue⟩ := name_unique hname heq
      obtain ⟨rfl, hsame⟩ := front_stringify hnumbers hfront hvalue
      obtain ⟨rfl, hbehind⟩ := hfirst h hsame (stops_whitespace hback (stops_comma _)) (stops_cons (by decide))
      exact (head_of_whitespace hback (by decide) (by decide) hbehind).elim
  | (next, value) :: members, hmembers => by
    intro name first hnumbers hfirst others text rest rest' hothers heq
    rw [stringifyMembers] at heq
    cases hothers with
    | last hname hfront h hback =>
      simp only [List.append_assoc, List.cons_append] at heq
      obtain ⟨rfl, hvalue⟩ := name_unique hname heq
      obtain ⟨rfl, hsame⟩ := front_stringify hnumbers hfront hvalue
      obtain ⟨rfl, hbehind⟩ := hfirst h hsame (stops_whitespace hback (stops_cons (by decide))) (stops_comma _)
      exact (head_of_whitespace hback (by decide) (by decide) hbehind).elim
    | cons hname hfront h hback hrest =>
      simp only [List.append_assoc, List.cons_append] at heq
      obtain ⟨rfl, hvalue⟩ := name_unique hname heq
      obtain ⟨rfl, hsame⟩ := front_stringify hnumbers hfront hvalue
      obtain ⟨rfl, hbehind⟩ := hfirst h hsame (stops_whitespace hback (stops_comma _)) (stops_comma _)
      obtain ⟨rfl, hcomma⟩ := whitespace_append_cons hback (by decide) hbehind
      obtain ⟨rfl, hclose⟩ := determines_members members hmembers.2 hmembers.1 (determines_stringify value hmembers.1)
        hrest (List.cons.inj hcomma).2
      exact ⟨rfl, hclose⟩

end

/-- The document that `JSON.stringify` writes of a value with natural numbers is a
document of no other value. -/
theorem documentText_unique {value other : Value Units} (h : AllNumbers (WritesNatural numberText) value)
    (hother : DocumentText other (stringify numberText value)) : other = value := by
  generalize htext : stringify numberText value = document at hother
  cases hother with
  | @around front text back hfront hvalue hback =>
    have heq : front ++ (text ++ back) = stringify numberText value ++ [] := by
      rw [htext, List.append_nil, List.append_assoc]
    obtain ⟨-, hsame⟩ := front_stringify h hfront heq
    have hend : Stops [] := fun b hb => by cases hb
    have hstop := stops_whitespace hback hend
    rw [List.append_nil] at hstop
    exact (determines_stringify value h hvalue hsame hstop hend).1

end Values

end Json
