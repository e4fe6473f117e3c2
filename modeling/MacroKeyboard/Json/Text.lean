import Mathlib
import MacroKeyboard.Json.Units

namespace Json

/-- A value, over a type of strings. The members of an object are in order, and may
share a name. -/
inductive Value (σ : Type)
  | null
  | bool (b : Bool)
  | number (q : ℚ)
  | string (s : σ)
  | array (items : List (Value σ))
  | object (members : List (σ × Value σ))

section Strings

variable {σ : Type}

mutual

/-- Every string of the value has the property, the names of its members too. -/
def AllStrings (P : σ → Prop) : Value σ → Prop
  | .string s => P s
  | .array items => AllStringsOfItems P items
  | .object members => AllStringsOfMembers P members
  | _ => True

def AllStringsOfItems (P : σ → Prop) : List (Value σ) → Prop
  | [] => True
  | item :: items => AllStrings P item ∧ AllStringsOfItems P items

def AllStringsOfMembers (P : σ → Prop) : List (σ × Value σ) → Prop
  | [] => True
  | (name, value) :: members => P name ∧ AllStrings P value ∧ AllStringsOfMembers P members

end

mutual

theorem allStrings_and {P Q : σ → Prop} : (value : Value σ) →
    (AllStrings (fun s => P s ∧ Q s) value ↔ AllStrings P value ∧ AllStrings Q value)
  | .null | .bool _ | .number _ => ⟨fun _ => ⟨trivial, trivial⟩, fun _ => trivial⟩
  | .string _ => Iff.rfl
  | .array items => allStringsOfItems_and items
  | .object members => allStringsOfMembers_and members

theorem allStringsOfItems_and {P Q : σ → Prop} : (items : List (Value σ)) →
    (AllStringsOfItems (fun s => P s ∧ Q s) items ↔ AllStringsOfItems P items ∧ AllStringsOfItems Q items)
  | [] => ⟨fun _ => ⟨trivial, trivial⟩, fun _ => trivial⟩
  | item :: items => (and_congr (allStrings_and item) (allStringsOfItems_and items)).trans and_and_and_comm

theorem allStringsOfMembers_and {P Q : σ → Prop} : (members : List (σ × Value σ)) →
    (AllStringsOfMembers (fun s => P s ∧ Q s) members ↔ AllStringsOfMembers P members ∧ AllStringsOfMembers Q members)
  | [] => ⟨fun _ => ⟨trivial, trivial⟩, fun _ => trivial⟩
  | (_, value) :: members =>
    (and_congr Iff.rfl ((and_congr (allStrings_and value) (allStringsOfMembers_and members)).trans and_and_and_comm)).trans
      and_and_and_comm

end

mutual

theorem AllStrings.mono {P Q : σ → Prop} (h : ∀ s, P s → Q s) : {value : Value σ} → AllStrings P value → AllStrings Q value
  | .null, _ | .bool _, _ | .number _, _ => trivial
  | .string s, hs => h s hs
  | .array _, hs => AllStringsOfItems.mono h hs
  | .object _, hs => AllStringsOfMembers.mono h hs

theorem AllStringsOfItems.mono {P Q : σ → Prop} (h : ∀ s, P s → Q s) : {items : List (Value σ)} →
    AllStringsOfItems P items → AllStringsOfItems Q items
  | [], _ => trivial
  | _ :: _, hs => ⟨AllStrings.mono h hs.1, AllStringsOfItems.mono h hs.2⟩

theorem AllStringsOfMembers.mono {P Q : σ → Prop} (h : ∀ s, P s → Q s) : {members : List (σ × Value σ)} →
    AllStringsOfMembers P members → AllStringsOfMembers Q members
  | [], _ => trivial
  | _ :: _, hs => ⟨h _ hs.1, AllStrings.mono h hs.2.1, AllStringsOfMembers.mono h hs.2.2⟩

end

theorem allStringsOfMembers_iff {P : σ → Prop} {members : List (σ × Value σ)} :
    AllStringsOfMembers P members ↔ ∀ member ∈ members, P member.1 ∧ AllStrings P member.2 := by
  induction members with
  | nil => simp [AllStringsOfMembers]
  | cons member members ih => simp [AllStringsOfMembers, ih, and_assoc]

end Strings

section Bytes

def ascii (s : String) : List UInt8 := s.toList.map (fun c => c.toNat.toUInt8)

def utf8 (s : List Char) : List UInt8 := s.flatMap String.utf8EncodeChar

@[simp] theorem utf8_nil : utf8 [] = [] := rfl

@[simp] theorem utf8_cons (c : Char) (s : List Char) : utf8 (c :: s) = String.utf8EncodeChar c ++ utf8 s := rfl

def backslash : UInt8 := 0x5c
def quote : UInt8 := 0x22

theorem utf8EncodeChar_of_le {c : Char} (h : c.toNat ≤ 0x7f) : String.utf8EncodeChar c = [UInt8.ofNat c.toNat] := by
  unfold String.utf8EncodeChar
  exact if_pos h

theorem le_of_mem_utf8EncodeChar {c : Char} (h : 0x7f < c.toNat) {b : UInt8} (hmem : b ∈ String.utf8EncodeChar c) :
    0x80 ≤ b := by
  have hbyte (n : Nat) (hlow : 0x80 ≤ n) (hhigh : n < 0x100) : 0x80 ≤ UInt8.ofNat n := by
    rw [UInt8.le_iff_toNat_le, UInt8.toNat_ofNat', Nat.mod_eq_of_lt (by omega)]
    exact hlow
  have hval : ¬ c.val.toNat ≤ 127 := by
    have hsame : c.val.toNat = c.toNat := rfl
    omega
  unfold String.utf8EncodeChar at hmem
  dsimp only at hmem
  rw [if_neg hval] at hmem
  split at hmem
  · simp only [List.mem_cons, List.not_mem_nil, or_false] at hmem
    rcases hmem with rfl | rfl <;> exact hbyte _ (by omega) (by omega)
  · split at hmem
    · simp only [List.mem_cons, List.not_mem_nil, or_false] at hmem
      rcases hmem with rfl | rfl | rfl <;> exact hbyte _ (by omega) (by omega)
    · simp only [List.mem_cons, List.not_mem_nil, or_false] at hmem
      rcases hmem with rfl | rfl | rfl | rfl <;> exact hbyte _ (by omega) (by omega)

theorem toNat_of_mem_utf8EncodeChar {c : Char} {b : UInt8} (hmem : b ∈ String.utf8EncodeChar c) (hlow : b < 0x80) :
    b.toNat = c.toNat := by
  by_cases h : c.toNat ≤ 0x7f
  · rw [utf8EncodeChar_of_le h, List.mem_singleton] at hmem
    rw [hmem, UInt8.toNat_ofNat', Nat.mod_eq_of_lt (by omega)]
  · exact absurd hlow (UInt8.not_lt.mpr (le_of_mem_utf8EncodeChar (by omega) hmem))

theorem utf8_injective : Function.Injective utf8 := by
  intro s t h
  have hencode : s.utf8Encode = t.utf8Encode := congrArg List.toByteArray h
  have hdecode := congrArg ByteArray.utf8Decode? hencode
  rw [List.utf8Decode?_utf8Encode, List.utf8Decode?_utf8Encode] at hdecode
  simpa using hdecode

end Bytes

section Literals

def hexValue (digit : UInt8) : Option Nat :=
  if 0x30 ≤ digit ∧ digit ≤ 0x39 then some (digit.toNat - 0x30)
  else if 0x61 ≤ digit ∧ digit ≤ 0x66 then some (digit.toNat - 0x57)
  else if 0x41 ≤ digit ∧ digit ≤ 0x46 then some (digit.toNat - 0x37)
  else none

inductive HexText : Nat → List UInt8 → Prop
  | digits {a b c d : UInt8} {w x y z : Nat} (ha : hexValue a = some w) (hb : hexValue b = some x)
    (hc : hexValue c = some y) (hd : hexValue d = some z) : HexText (((w * 16 + x) * 16 + y) * 16 + z) [a, b, c, d]

/-- The letter that stands for a code unit after a backslash. -/
def shortEscape (unit : UInt16) : Option UInt8 :=
  if unit = 0x22 then some 0x22
  else if unit = 0x5c then some 0x5c
  else if unit = 0x2f then some 0x2f
  else if unit = 0x08 then some 0x62
  else if unit = 0x0c then some 0x66
  else if unit = 0x0a then some 0x6e
  else if unit = 0x0d then some 0x72
  else if unit = 0x09 then some 0x74
  else none

def unicodeEscape (digits : List UInt8) : List UInt8 := backslash :: 0x75 :: digits

/-- The ways to write the code units of a string. -/
inductive UnitsText : Units → List UInt8 → Prop
  | nil : UnitsText [] []
  | raw {c : Char} {units : Units} {text : List UInt8} (hcontrol : 0x20 ≤ c.toNat) (hquote : c.toNat ≠ 0x22)
    (hbackslash : c.toNat ≠ 0x5c) (h : UnitsText units text) :
    UnitsText (utf16EncodeChar c ++ units) (String.utf8EncodeChar c ++ text)
  | short {unit : UInt16} {units : Units} {letter : UInt8} {text : List UInt8} (hletter : shortEscape unit = some letter)
    (h : UnitsText units text) : UnitsText (unit :: units) (backslash :: letter :: text)
  | unicode {unit : UInt16} {units : Units} {digits text : List UInt8} (hdigits : HexText unit.toNat digits)
    (h : UnitsText units text) : UnitsText (unit :: units) (unicodeEscape digits ++ text)

inductive StringText : Units → List UInt8 → Prop
  | quoted {units : Units} {text : List UInt8} (h : UnitsText units text) : StringText units (quote :: text ++ [quote])

end Literals

section Numbers

def digitsValue (digits : List UInt8) : Nat := digits.foldl (fun value digit => value * 10 + (digit.toNat - 0x30)) 0

def Digits (digits : List UInt8) : Prop := digits ≠ [] ∧ ∀ digit ∈ digits, 0x30 ≤ digit ∧ digit ≤ 0x39

inductive SignText : ℚ → List UInt8 → Prop
  | none : SignText 1 []
  | minus : SignText (-1) [0x2d]

/-- The digits before the point, with no leading zero. -/
inductive WholeText : Nat → List UInt8 → Prop
  | digits {digits : List UInt8} (h : Digits digits) (hzero : digits.head? = some 0x30 → digits = [0x30]) :
    WholeText (digitsValue digits) digits

inductive FractionText : ℚ → List UInt8 → Prop
  | none : FractionText 0 []
  | point {digits : List UInt8} (h : Digits digits) :
    FractionText (digitsValue digits / 10 ^ digits.length) (0x2e :: digits)

inductive ExponentText : ℤ → List UInt8 → Prop
  | none : ExponentText 0 []
  | plain {letter : UInt8} {digits : List UInt8} (hletter : letter = 0x65 ∨ letter = 0x45) (h : Digits digits) :
    ExponentText (digitsValue digits) (letter :: digits)
  | plus {letter : UInt8} {digits : List UInt8} (hletter : letter = 0x65 ∨ letter = 0x45) (h : Digits digits) :
    ExponentText (digitsValue digits) (letter :: 0x2b :: digits)
  | minus {letter : UInt8} {digits : List UInt8} (hletter : letter = 0x65 ∨ letter = 0x45) (h : Digits digits) :
    ExponentText (-(digitsValue digits : ℤ)) (letter :: 0x2d :: digits)

inductive NumberText : ℚ → List UInt8 → Prop
  | decimal {sign fraction : ℚ} {whole : Nat} {exponent : ℤ} {signText wholeText fractionText exponentText : List UInt8}
    (hsign : SignText sign signText) (hwhole : WholeText whole wholeText) (hfraction : FractionText fraction fractionText)
    (hexponent : ExponentText exponent exponentText) :
    NumberText (sign * (whole + fraction) * 10 ^ exponent) (signText ++ wholeText ++ fractionText ++ exponentText)

end Numbers

section Values

def Whitespace (text : List UInt8) : Prop := ∀ b ∈ text, b = 0x20 ∨ b = 0x09 ∨ b = 0x0a ∨ b = 0x0d

inductive Padded (P : List UInt8 → Prop) : List UInt8 → Prop
  | around {front text back : List UInt8} (hfront : Whitespace front) (htext : P text) (hback : Whitespace back) :
    Padded P (front ++ text ++ back)

mutual

inductive ValueText : Value Units → List UInt8 → Prop
  | null : ValueText .null (ascii "null")
  | true : ValueText (.bool .true) (ascii "true")
  | false : ValueText (.bool .false) (ascii "false")
  | number {q : ℚ} {text : List UInt8} (h : NumberText q text) : ValueText (.number q) text
  | string {units : Units} {text : List UInt8} (h : StringText units text) : ValueText (.string units) text
  | emptyArray {text : List UInt8} (h : Whitespace text) : ValueText (.array []) (0x5b :: text ++ [0x5d])
  | array {items : List (Value Units)} {text : List UInt8} (h : ItemsText items text) :
    ValueText (.array items) (0x5b :: text ++ [0x5d])
  | emptyObject {text : List UInt8} (h : Whitespace text) : ValueText (.object []) (0x7b :: text ++ [0x7d])
  | object {members : List (Units × Value Units)} {text : List UInt8} (h : MembersText members text) :
    ValueText (.object members) (0x7b :: text ++ [0x7d])

inductive ItemsText : List (Value Units) → List UInt8 → Prop
  | last {item : Value Units} {front text back : List UInt8} (hfront : Whitespace front)
    (h : ValueText item text) (hback : Whitespace back) : ItemsText [item] (front ++ text ++ back)
  | cons {item : Value Units} {items : List (Value Units)} {front text back rest : List UInt8}
    (hfront : Whitespace front) (h : ValueText item text) (hback : Whitespace back) (hrest : ItemsText items rest) :
    ItemsText (item :: items) (front ++ text ++ back ++ 0x2c :: rest)

inductive MembersText : List (Units × Value Units) → List UInt8 → Prop
  | last {name : Units} {value : Value Units} {nameText text : List UInt8}
    (hname : Padded (StringText name) nameText) {front back : List UInt8} (hfront : Whitespace front)
    (h : ValueText value text) (hback : Whitespace back) :
    MembersText [(name, value)] (nameText ++ 0x3a :: (front ++ text ++ back))
  | cons {name : Units} {value : Value Units} {members : List (Units × Value Units)}
    {nameText text rest : List UInt8} (hname : Padded (StringText name) nameText) {front back : List UInt8}
    (hfront : Whitespace front) (h : ValueText value text) (hback : Whitespace back) (hrest : MembersText members rest) :
    MembersText ((name, value) :: members) (nameText ++ 0x3a :: (front ++ text ++ back) ++ 0x2c :: rest)

end

def DocumentText (value : Value Units) : List UInt8 → Prop := Padded (ValueText value)

end Values

section Nul

def NulFree (text : List UInt8) : Prop := 0 ∉ text

instance (text : List UInt8) : Decidable (NulFree text) := inferInstanceAs (Decidable (0 ∉ text))

theorem nulFree_append {front back : List UInt8} : NulFree (front ++ back) ↔ NulFree front ∧ NulFree back := by
  simp [NulFree]

theorem nulFree_cons {b : UInt8} {text : List UInt8} : NulFree (b :: text) ↔ b ≠ 0 ∧ NulFree text := by
  simp [NulFree, eq_comm]

theorem nulFree_nil : NulFree [] := by simp [NulFree]

theorem nulFree_of_forall {P : UInt8 → Prop} {text : List UInt8} (h : ∀ b ∈ text, P b) (hzero : ¬ P 0) : NulFree text :=
  fun hmem => hzero (h 0 hmem)

theorem Whitespace.nulFree {text : List UInt8} (h : Whitespace text) : NulFree text :=
  nulFree_of_forall h (by decide)

theorem Digits.nulFree {digits : List UInt8} (h : Digits digits) : NulFree digits :=
  nulFree_of_forall h.2 (by decide)

theorem HexText.nulFree {n : Nat} {digits : List UInt8} (h : HexText n digits) : NulFree digits := by
  have hne (digit : UInt8) (w : Nat) (h : hexValue digit = some w) : digit ≠ 0 := by
    rintro rfl
    simp [hexValue] at h
  cases h with
  | digits ha hb hc hd =>
    simp only [nulFree_cons]
    exact ⟨hne _ _ ha, hne _ _ hb, hne _ _ hc, hne _ _ hd, nulFree_nil⟩

theorem UnitsText.nulFree {units : Units} {text : List UInt8} (h : UnitsText units text) : NulFree text := by
  induction h with
  | nil => exact nulFree_nil
  | raw hcontrol _ _ _ ih =>
    refine nulFree_append.mpr ⟨fun hmem => ?_, ih⟩
    have hzero := toNat_of_mem_utf8EncodeChar hmem (by decide)
    simp only [UInt8.toNat_zero] at hzero
    omega
  | @short unit _ letter _ hletter _ ih =>
    have hne : letter ≠ 0 := by
      rintro rfl
      unfold shortEscape at hletter
      split_ifs at hletter <;> cases hletter
    simp only [nulFree_cons]
    exact ⟨by decide, hne, ih⟩
  | unicode hdigits _ ih =>
    simp only [unicodeEscape, List.cons_append, nulFree_append, nulFree_cons]
    exact ⟨by decide, by decide, hdigits.nulFree, ih⟩

theorem StringText.nulFree {units : Units} {text : List UInt8} (h : StringText units text) : NulFree text := by
  cases h with
  | quoted h =>
    simp only [nulFree_cons, nulFree_append, List.cons_append]
    exact ⟨by decide, h.nulFree, by decide, nulFree_nil⟩

theorem NumberText.nulFree {q : ℚ} {text : List UInt8} (h : NumberText q text) : NulFree text := by
  cases h with
  | decimal hsign hwhole hfraction hexponent =>
    simp only [nulFree_append]
    refine ⟨⟨⟨?_, ?_⟩, ?_⟩, ?_⟩
    · cases hsign with
      | none => exact nulFree_nil
      | minus => exact nulFree_cons.mpr ⟨by decide, nulFree_nil⟩
    · cases hwhole with
      | digits h _ => exact h.nulFree
    · cases hfraction with
      | none => exact nulFree_nil
      | point h => exact nulFree_cons.mpr ⟨by decide, h.nulFree⟩
    · cases hexponent with
      | none => exact nulFree_nil
      | plain hletter h =>
        refine nulFree_cons.mpr ⟨?_, h.nulFree⟩
        rcases hletter with rfl | rfl <;> decide
      | plus hletter h =>
        simp only [nulFree_cons]
        refine ⟨?_, by decide, h.nulFree⟩
        rcases hletter with rfl | rfl <;> decide
      | minus hletter h =>
        simp only [nulFree_cons]
        refine ⟨?_, by decide, h.nulFree⟩
        rcases hletter with rfl | rfl <;> decide

theorem Padded.nulFree {P : List UInt8 → Prop} (hP : ∀ text, P text → NulFree text) {text : List UInt8}
    (h : Padded P text) : NulFree text := by
  cases h with
  | around hfront htext hback =>
    simp only [nulFree_append]
    exact ⟨⟨hfront.nulFree, hP _ htext⟩, hback.nulFree⟩

mutual

theorem ValueText.nulFree : {value : Value Units} → {text : List UInt8} → ValueText value text → NulFree text
  | _, _, .null => by decide
  | _, _, .true => by decide
  | _, _, .false => by decide
  | _, _, .number h => h.nulFree
  | _, _, .string h => h.nulFree
  | _, _, .emptyArray h => by
    simp only [nulFree_cons, nulFree_append, List.cons_append]
    exact ⟨by decide, h.nulFree, by decide, nulFree_nil⟩
  | _, _, .array h => by
    simp only [nulFree_cons, nulFree_append, List.cons_append]
    exact ⟨by decide, h.nulFree, by decide, nulFree_nil⟩
  | _, _, .emptyObject h => by
    simp only [nulFree_cons, nulFree_append, List.cons_append]
    exact ⟨by decide, h.nulFree, by decide, nulFree_nil⟩
  | _, _, .object h => by
    simp only [nulFree_cons, nulFree_append, List.cons_append]
    exact ⟨by decide, h.nulFree, by decide, nulFree_nil⟩

theorem ItemsText.nulFree : {items : List (Value Units)} → {text : List UInt8} → ItemsText items text → NulFree text
  | _, _, .last hfront h hback => by
    simp only [nulFree_append]
    exact ⟨⟨hfront.nulFree, h.nulFree⟩, hback.nulFree⟩
  | _, _, .cons hfront h hback hrest => by
    simp only [nulFree_append, nulFree_cons]
    exact ⟨⟨⟨hfront.nulFree, h.nulFree⟩, hback.nulFree⟩, by decide, hrest.nulFree⟩

theorem MembersText.nulFree : {members : List (Units × Value Units)} → {text : List UInt8} →
    MembersText members text → NulFree text
  | _, _, .last hname hfront h hback => by
    simp only [nulFree_append, nulFree_cons]
    exact ⟨hname.nulFree fun _ => StringText.nulFree, by decide, ⟨hfront.nulFree, h.nulFree⟩, hback.nulFree⟩
  | _, _, .cons hname hfront h hback hrest => by
    simp only [nulFree_append, nulFree_cons]
    exact ⟨⟨hname.nulFree fun _ => StringText.nulFree, by decide, ⟨hfront.nulFree, h.nulFree⟩, hback.nulFree⟩,
      by decide, hrest.nulFree⟩

end

theorem DocumentText.nulFree {value : Value Units} {text : List UInt8} (h : DocumentText value text) :
    NulFree text :=
  Padded.nulFree (fun _ => ValueText.nulFree) h

end Nul

end Json
