import MacroKeyboard.Webapp.TokensAgree

namespace MacroKeyboard.Webapp

open Json

open FirmwareCompiler hiding delayPrefix

open MacroCompiler (Position MacroCompileError errorAt validDirectiveText parseDirective numberOfDigits namedDirectiveKey
  inheritedProperties)

section Characters

variable {unit other : UInt16} {directive : Units}

theorem toNat_toUInt8_of_lt (h : unit < 0x80) : unit.toUInt8.toNat = unit.toNat := by
  have hlt : unit.toNat < 0x80 := UInt16.lt_iff_toNat_lt.mp h
  rw [UInt16.toNat_toUInt8, Nat.mod_eq_of_lt (by omega)]

theorem toUInt8_inj (h : unit < 0x80) (hother : other < 0x80) (hsame : unit.toUInt8 = other.toUInt8) : unit = other := by
  rw [← UInt16.toNat_inj, ← toNat_toUInt8_of_lt h, hsame, toNat_toUInt8_of_lt hother]

theorem map_toUInt8_inj {text said : Units} (h : ∀ unit ∈ text, unit < 0x80) (hsaid : ∀ unit ∈ said, unit < 0x80)
    (hsame : text.map UInt16.toUInt8 = said.map UInt16.toUInt8) : text = said := by
  induction text generalizing said with
  | nil => exact (List.map_eq_nil_iff.mp hsame.symm).symm
  | cons unit text ih =>
    cases said with
    | nil => cases hsame
    | cons other said =>
      rw [List.map_cons, List.map_cons, List.cons.injEq] at hsame
      rw [List.forall_mem_cons] at h hsaid
      rw [toUInt8_inj h.1 hsaid.1 hsame.1, ih h.2 hsaid.2 hsame.2]

def InDirective (unit : UInt16) : Prop :=
  0x21 ≤ unit ∧ unit ≤ 0x7e ∧ unit ≠ MacroCompiler.openBrace ∧ unit ≠ MacroCompiler.closeBrace

theorem InDirective.ascii (h : InDirective unit) : unit < 0x80 := UInt16.lt_of_le_of_lt h.2.1 (by decide)

theorem invalidCharacter_iff (h : unit < 0x80) : (unit.toUInt8 ≤ asciiSpace || asciiDelete ≤ unit.toUInt8 ||
    unit.toUInt8 == openBrace || unit.toUInt8 == closeBrace) = false ↔ InDirective unit := by
  have hall : ∀ n < 0x80, ((UInt16.ofNat n).toUInt8 ≤ asciiSpace || asciiDelete ≤ (UInt16.ofNat n).toUInt8 ||
      (UInt16.ofNat n).toUInt8 == openBrace || (UInt16.ofNat n).toUInt8 == closeBrace) = false ↔
      0x21 ≤ UInt16.ofNat n ∧ UInt16.ofNat n ≤ 0x7e ∧ UInt16.ofNat n ≠ MacroCompiler.openBrace ∧
        UInt16.ofNat n ≠ MacroCompiler.closeBrace := by
    decide +kernel
  have hunit := hall unit.toNat (UInt16.lt_iff_toNat_lt.mp h)
  rwa [UInt16.ofNat_toNat] at hunit

theorem ascii_of_encoded (h : ∀ byte ∈ encoded directive, byte < 0x80) : ∀ unit ∈ directive, unit < 0x80 := by
  induction directive with
  | nil => exact fun _ hmem => absurd hmem List.not_mem_nil
  | cons unit rest ih =>
    have hunit : unit < 0x80 := by
      by_contra hge
      obtain ⟨byte, tail, hencoded, hbyte⟩ := encoded_cons_of_le (UInt16.not_lt.mp hge) rest
      exact UInt8.not_lt.mpr hbyte (h byte (hencoded ▸ List.mem_cons_self))
    rw [encoded_cons hunit, List.forall_mem_cons] at h
    exact List.forall_mem_cons.mpr ⟨hunit, ih h.2⟩

theorem hasInvalidCharacter_iff :
    v2DirectiveHasInvalidCharacter (encoded directive) = false ↔ ∀ unit ∈ directive, InDirective unit := by
  have hbytes (hascii : ∀ unit ∈ directive, unit < 0x80) :
      v2DirectiveHasInvalidCharacter (encoded directive) = false ↔ ∀ unit ∈ directive, InDirective unit := by
    rw [v2DirectiveHasInvalidCharacter, encoded_of_ascii hascii, List.any_eq_false, List.forall_mem_map]
    refine forall₂_congr fun unit hmem => ?_
    rw [Bool.not_eq_true]
    exact invalidCharacter_iff (hascii unit hmem)
  constructor
  · intro h
    refine (hbytes (ascii_of_encoded fun byte hmem => ?_)).mp h
    rw [v2DirectiveHasInvalidCharacter, List.any_eq_false] at h
    have hbyte := h byte hmem
    simp only [Bool.not_eq_true, Bool.or_eq_false_iff, decide_eq_false_iff_not] at hbyte
    exact UInt8.lt_trans (UInt8.not_le.mp hbyte.1.1.2) (by decide)
  · exact fun h => (hbytes fun unit hmem => (h unit hmem).ascii).mpr h

theorem not_whitespace (hlow : 0x21 ≤ unit) (hhigh : unit ≤ 0x7e) : MacroCompiler.isWhitespace unit = false := by
  have hall : ∀ n < 0x80, 0x21 ≤ UInt16.ofNat n → UInt16.ofNat n ≤ 0x7e →
      MacroCompiler.isWhitespace (UInt16.ofNat n) = false := by
    decide +kernel
  have hascii : unit < 0x80 := UInt16.lt_of_le_of_lt hhigh (by decide)
  have hunit := hall unit.toNat (UInt16.lt_iff_toNat_lt.mp hascii)
  rw [UInt16.ofNat_toNat] at hunit
  exact hunit hlow hhigh

theorem validDirectiveText_iff (hclose : MacroCompiler.closeBrace ∉ directive) :
    validDirectiveText directive = true ↔ directive ≠ [] ∧ ∀ unit ∈ directive, InDirective unit := by
  simp only [validDirectiveText, Bool.and_eq_true, Bool.not_eq_true', Bool.or_eq_false_iff, beq_eq_false_iff_ne,
    List.contains_eq_mem, decide_eq_false_iff_not, List.any_eq_false, List.all_eq_true, decide_eq_true_eq, ne_eq,
    List.length_eq_zero_iff, Bool.not_eq_true]
  constructor
  · rintro ⟨⟨⟨hne, hopen⟩, -⟩, hrange⟩
    refine ⟨hne, fun unit hmem => ⟨(hrange unit hmem).1, (hrange unit hmem).2, ?_, ?_⟩⟩
    · exact fun heq => hopen (heq ▸ hmem)
    · exact fun heq => hclose (heq ▸ hmem)
  · rintro ⟨hne, hall⟩
    refine ⟨⟨⟨hne, fun hmem => (hall _ hmem).2.2.1 rfl⟩, fun unit hmem => ?_⟩, fun unit hmem => ?_⟩
    · exact not_whitespace (hall unit hmem).1 (hall unit hmem).2.1
    · exact ⟨(hall unit hmem).1, (hall unit hmem).2.1⟩

end Characters

section Names

open Keymap

variable {directive : Units}

/-- The lookup of an ASCII name in a table is that of its bytes in the table with
the bytes of its names. -/
theorem lookup_map {α : Type} {table : List (Units × α)} (htable : table.all (fun row => row.1.all (· < 0x80)) = true)
    (h : ∀ unit ∈ directive, unit < 0x80) :
    (table.map (Prod.map (List.map UInt16.toUInt8) id)).lookup (directive.map UInt16.toUInt8) = table.lookup directive := by
  induction table with
  | nil => rfl
  | cons row table ih =>
    rw [List.all_cons, Bool.and_eq_true] at htable
    have hrow : ∀ unit ∈ row.1, unit < 0x80 := by simpa using htable.1
    have hsame : (directive.map UInt16.toUInt8 == row.1.map UInt16.toUInt8) = (directive == row.1) := by
      rw [Bool.eq_iff_iff, beq_iff_eq, beq_iff_eq]
      exact ⟨map_toUInt8_inj h hrow, congrArg _⟩
    rw [List.map_cons, List.lookup_cons, List.lookup_cons, ih htable.2, ← hsame]
    rfl

theorem modifierBits_map : MacroCompiler.modifierBits.map (Prod.map (List.map UInt16.toUInt8) id) =
    [(bytes "CTRL", modLeftCtrl), (bytes "SHIFT", modLeftShift), (bytes "ALT", modLeftAlt), (bytes "GUI", modLeftGui)] := by
  decide

theorem namedKeys_map :
    MacroCompiler.namedKeys.map (Prod.map (List.map UInt16.toUInt8) id) = Keymap.namedKeys := by
  decide

theorem ascii_modifierBits : MacroCompiler.modifierBits.all (fun row => row.1.all (· < 0x80)) = true := by decide +kernel

theorem ascii_namedKeys : MacroCompiler.namedKeys.all (fun row => row.1.all (· < 0x80)) = true := by decide +kernel

theorem modifier_same (h : ∀ unit ∈ directive, unit < 0x80) :
    macroKeymapUsModifier (directive.map UInt16.toUInt8) = MacroCompiler.modifierBits.lookup directive := by
  rw [← lookup_map ascii_modifierBits h, modifierBits_map]
  generalize directive.map UInt16.toUInt8 = name
  by_cases hctrl : name = bytes "CTRL"
  · rw [hctrl]
    rfl
  by_cases hshift : name = bytes "SHIFT"
  · rw [hshift]
    rfl
  by_cases halt : name = bytes "ALT"
  · rw [halt]
    rfl
  by_cases hgui : name = bytes "GUI"
  · rw [hgui]
    rfl
  simp only [macroKeymapUsModifier, List.lookup_cons, List.lookup_nil, hctrl, hshift, halt, hgui, if_false, beq_false_of_ne,
    ne_eq, not_false_eq_true]

theorem named_same (h : ∀ unit ∈ directive, unit < 0x80) :
    (if 1 < (directive.map UInt16.toUInt8).length ∧ isUppercaseDecimalToken (directive.map UInt16.toUInt8) then
      macroKeymapUsNamed (directive.map UInt16.toUInt8) else none) =
      (MacroCompiler.namedKeys.lookup directive).map (⟨0, ·⟩) := by
  rw [← lookup_map ascii_namedKeys h, namedKeys_map]
  generalize directive.map UInt16.toUInt8 = name
  have hnames : ∀ row ∈ Keymap.namedKeys, 1 < row.1.length ∧ isUppercaseDecimalToken row.1 = true := by decide
  unfold macroKeymapUsNamed
  cases hlookup : Keymap.namedKeys.lookup name with
  | some usage => exact if_pos (hnames _ (mem_of_lookup hlookup))
  | none =>
    dsimp only
    by_cases hname : 1 < name.length ∧ isUppercaseDecimalToken name = true
    · rw [if_pos hname]
      match name, hname with
      | [character], hname => exact absurd hname.1 (Nat.lt_irrefl 1)
      | [], _ => rfl
      | first :: second :: rest, _ => rfl
    · rw [if_neg hname]
      rfl

/-- Both compilers have the same names, but for the properties that the tables of
the browser inherit. -/
theorem namedDirective_same (h : ∀ unit ∈ directive, unit < 0x80) :
    macroKeymapUsV2NamedDirective (directive.map UInt16.toUInt8) =
      match MacroCompiler.modifierBits.lookup directive with
      | some modifier => some ⟨modifier, 0⟩
      | none => (MacroCompiler.namedKeys.lookup directive).map (⟨0, ·⟩) := by
  rw [macroKeymapUsV2NamedDirective, modifier_same h]
  cases MacroCompiler.modifierBits.lookup directive with
  | some modifier => rfl
  | none => exact named_same h

theorem inherited_unnamed (h : directive ∈ inheritedProperties) :
    macroKeymapUsV2NamedDirective (directive.map UInt16.toUInt8) = none := by
  have hall : ∀ name ∈ inheritedProperties, macroKeymapUsV2NamedDirective (name.map UInt16.toUInt8) = none := by decide
  exact hall directive h

end Names

section Delays

variable {text directive : Units}

theorem le_foldl_digits (digits : Units) (value : Nat) :
    value ≤ digits.foldl (fun value digit => value * 10 + (digit.toNat - 0x30)) value := by
  induction digits generalizing value with
  | nil => exact le_rfl
  | cons digit digits ih =>
    rw [List.foldl_cons]
    exact le_trans (by omega) (ih _)

theorem isDigit_iff {unit : UInt16} : isDigit unit = true ↔ 0x30 ≤ unit.toNat ∧ unit.toNat ≤ 0x39 := by
  rw [isDigit, Bool.and_eq_true, decide_eq_true_eq, decide_eq_true_eq]
  rfl

theorem overflow_iff (value : UInt32) {digit : UInt32} (hdigit : digit.toNat ≤ 9) :
    value > (uint32Max - digit) / 10 ↔ uint32Max.toNat < value.toNat * 10 + digit.toNat := by
  have hmax : uint32Max.toNat = 4294967295 := rfl
  have hsub : (uint32Max - digit).toNat = 4294967295 - digit.toNat := by
    rw [UInt32.toNat_sub_of_le _ _ (UInt32.le_iff_toNat_le.mpr (by omega)), hmax]
  rw [gt_iff_lt, UInt32.lt_iff_toNat_lt, UInt32.toNat_div, hsub, hmax, Nat.div_lt_iff_lt_mul (by decide)]
  have hten : (10 : UInt32).toNat = 10 := rfl
  rw [hten]
  omega

/-- The firmware reads the leading digits, and looks at the first character behind
them only when their number fits. -/
theorem v2DelayDigits_map (h : ∀ unit ∈ text, unit < 0x80) (value : UInt32) :
    v2DelayDigits (text.map UInt16.toUInt8) value =
      let number := (text.takeWhile isDigit).foldl (fun value digit => value * 10 + (digit.toNat - 0x30)) value.toNat
      if uint32Max.toNat < number then .error .macroLimit
      else if text.all isDigit then .ok (.ofNat number) else .error .macroSyntax := by
  induction text generalizing value with
  | nil =>
    have hvalue : ¬ uint32Max.toNat < value.toNat := Nat.not_lt.mpr (Nat.le_of_lt_succ value.toNat_lt)
    simp [v2DelayDigits, hvalue]
  | cons unit text ih =>
    rw [List.forall_mem_cons] at h
    have hbyte := toNat_toUInt8_of_lt h.1
    have hrange : (unit.toUInt8 < 0x30 ∨ 0x39 < unit.toUInt8) ↔ ¬ isDigit unit = true := by
      rw [isDigit_iff, UInt8.lt_iff_toNat_lt, UInt8.lt_iff_toNat_lt, hbyte, not_and_or, Nat.not_le, Nat.not_le]
      rfl
    rw [List.map_cons, v2DelayDigits]
    by_cases hdigit : isDigit unit = true
    · have hbounds := isDigit_iff.mp hdigit
      have hvalue : ((unit.toUInt8 - 0x30).toUInt32).toNat = unit.toNat - 0x30 := by
        rw [UInt8.toNat_toUInt32, UInt8.toNat_sub_of_le _ _ (UInt8.le_iff_toNat_le.mpr (by rw [hbyte]; exact hbounds.1)),
          hbyte]
        rfl
      rw [if_neg (mt hrange.mp (not_not.mpr hdigit)), List.takeWhile_cons_of_pos hdigit, List.all_cons, hdigit,
        Bool.true_and]
      dsimp only
      rw [List.foldl_cons]
      by_cases hover : uint32Max.toNat < value.toNat * 10 + (unit.toNat - 0x30)
      · rw [if_pos ((overflow_iff value (by omega)).mpr (by rwa [hvalue])),
          if_pos (lt_of_lt_of_le hover (le_foldl_digits _ _))]
      · have hsum : (value * 10 + (unit.toUInt8 - 0x30).toUInt32).toNat = value.toNat * 10 + (unit.toNat - 0x30) := by
          have hmax : uint32Max.toNat = 4294967295 := rfl
          have hten : (10 : UInt32).toNat = 10 := rfl
          rw [UInt32.toNat_add, UInt32.toNat_mul, hvalue, hten]
          omega
        rw [if_neg (mt (overflow_iff value (by omega)).mp (by rwa [hvalue])), ih h.2, hsum]
    · rw [if_pos (hrange.mpr hdigit), List.takeWhile_cons_of_neg hdigit, List.all_cons, Bool.eq_false_iff.mpr hdigit]
      have hvalue : ¬ uint32Max.toNat < value.toNat := Nat.not_lt.mpr (Nat.le_of_lt_succ value.toNat_lt)
      simp [hvalue]

end Delays

section Directives

open MacroCompiler (delayPrefix)

variable {source directive : Units} {position : Position}

/-- A delay of digits only that does not fit the buffer of the firmware. -/
def LongDelay (directive : Units) : Prop :=
  delayPrefix <+: directive ∧ (directive.drop delayPrefix.length).all isDigit = true ∧
    directiveBufferBytes ≤ directive.length

/-- A delay whose leading digits do not fit the number of the firmware, with a
character behind them that is no digit. -/
def OverflowingDelay (directive : Units) : Prop :=
  delayPrefix <+: directive ∧ (directive.drop delayPrefix.length).all isDigit = false ∧
    directive.length < directiveBufferBytes ∧
    uint32Max.toNat < numberOfDigits ((directive.drop delayPrefix.length).takeWhile isDigit)

/-- The directives of legal characters that the two compilers take differently:
the names of the properties that every object of the browser inherits, and two
kinds of delays that both of them mean to reject. -/
def Divergent (directive : Units) : Prop :=
  validDirectiveText directive = true ∧
    (directive ∈ inheritedProperties ∨ LongDelay directive ∨ OverflowingDelay directive)

instance : DecidablePred LongDelay := fun _ => inferInstanceAs (Decidable (_ ∧ _))
instance : DecidablePred OverflowingDelay := fun _ => inferInstanceAs (Decidable (_ ∧ _))
instance : DecidablePred Divergent := fun _ => inferInstanceAs (Decidable (_ ∧ _))

theorem inherited_no_delay : ∀ name ∈ inheritedProperties, ¬ delayPrefix <+: name := by decide +kernel

theorem inherited_no_modifier : ∀ name ∈ inheritedProperties, MacroCompiler.modifierBits.lookup name = none := by
  decide +kernel

theorem prefix_map (h : ∀ unit ∈ directive, unit < 0x80) :
    (directive.map UInt16.toUInt8).take FirmwareCompiler.delayPrefix.length = FirmwareCompiler.delayPrefix ↔
      delayPrefix <+: directive := by
  have hmap : FirmwareCompiler.delayPrefix = delayPrefix.map UInt16.toUInt8 := by decide
  have hall : delayPrefix.all (· < 0x80) = true := by decide +kernel
  have hdelay : ∀ unit ∈ delayPrefix, unit < 0x80 := by simpa using hall
  rw [hmap, List.length_map, ← List.map_take, List.prefix_iff_eq_take]
  constructor
  · exact fun hsame => (map_toUInt8_inj (fun unit hmem => h unit (List.mem_of_mem_take hmem)) hdelay hsame).symm
  · intro hsame
    rw [← hsame]

/-- What the firmware makes of a delay. -/
theorem v2ParseDelay_map (h : ∀ unit ∈ directive, unit < 0x80) (hdelay : delayPrefix <+: directive) :
    v2ParseDelay (directive.map UInt16.toUInt8) =
      let digits := directive.drop delayPrefix.length
      let number := numberOfDigits (digits.takeWhile isDigit)
      if digits = [] then .error .macroSyntax
      else if uint32Max.toNat < number then .error .macroLimit
      else if digits.all isDigit = false then .error .macroSyntax
      else if number < 1 ∨ v2Limits.delayDirectiveMaxMs < number then .error .macroLimit
      else .ok ⟨.delay, 0, [], .ofNat number⟩ := by
  have hsix : FirmwareCompiler.delayPrefix.length = delayPrefix.length := by decide
  have hempty : ((directive.map UInt16.toUInt8).length ≤ FirmwareCompiler.delayPrefix.length ∨
      (directive.map UInt16.toUInt8).take FirmwareCompiler.delayPrefix.length ≠ FirmwareCompiler.delayPrefix) ↔
      directive.drop delayPrefix.length = [] := by
    rw [or_iff_left (not_not.mpr ((prefix_map h).mpr hdelay)), List.length_map, hsix, List.drop_eq_nil_iff]
  have hascii : ∀ unit ∈ directive.drop delayPrefix.length, unit < 0x80 :=
    fun unit hmem => h unit (List.mem_of_mem_drop hmem)
  rw [v2ParseDelay, hsix, ← List.map_drop, v2DelayDigits_map hascii 0]
  rw [hsix] at hempty
  dsimp only
  revert hempty
  generalize directive.drop delayPrefix.length = digits
  intro hempty
  have hnumber : (digits.takeWhile isDigit).foldl (fun value digit => value * 10 + (digit.toNat - 0x30)) (0 : UInt32).toNat =
    numberOfDigits (digits.takeWhile isDigit) := rfl
  rw [hnumber]
  generalize numberOfDigits (digits.takeWhile isDigit) = number
  by_cases hnil : digits = []
  · rw [if_pos (hempty.mpr hnil), if_pos hnil]
  rw [if_neg (mt hempty.mp hnil), if_neg hnil]
  by_cases hover : uint32Max.toNat < number
  · rw [if_pos hover, if_pos hover]
  rw [if_neg hover, if_neg hover]
  cases digits.all isDigit with
  | false => rfl
  | true =>
    have hnat : (UInt32.ofNat number).toNat = number := by
      have hmax : uint32Max.toNat = 4294967295 := rfl
      rw [UInt32.toNat_ofNat', Nat.mod_eq_of_lt (by omega)]
    have hrange : (UInt32.ofNat number = 0 ∨ UInt32.ofNat number > Limits.delayDirectiveMaxMs) ↔
        (number < 1 ∨ v2Limits.delayDirectiveMaxMs < number) := by
      rw [← UInt32.toNat_inj, gt_iff_lt, UInt32.lt_iff_toNat_lt, hnat, Nat.lt_one_iff]
      rfl
    simp only [reduceIte, Bool.true_eq_false, hrange]

theorem parseDirective_delay (hdelay : delayPrefix <+: directive) : parseDirective directive position =
    let digits := directive.drop delayPrefix.length
    if digits = [] ∨ digits.all isDigit = false then .error (errorAt position .macroSyntax "invalid delay directive")
    else if numberOfDigits digits < 1 ∨ v2Limits.delayDirectiveMaxMs < numberOfDigits digits then
      .error (errorAt position .macroLimit "delay is outside the allowed range")
    else .ok (.delay (numberOfDigits digits)) := by
  rw [parseDirective, if_pos (List.isPrefixOf_iff_prefix.mpr hdelay)]
  dsimp only
  generalize directive.drop delayPrefix.length = digits
  have hrange : (maxSafeInteger < numberOfDigits digits ∨ numberOfDigits digits < 1 ∨
      v2Limits.delayDirectiveMaxMs < numberOfDigits digits) ↔
      (numberOfDigits digits < 1 ∨ v2Limits.delayDirectiveMaxMs < numberOfDigits digits) := by
    refine or_iff_right_of_imp fun hsafe => Or.inr (lt_trans ?_ hsafe)
    decide
  simp only [hrange, Bool.not_eq_true]

theorem same_invalidDirective (h : At source position) (hclose : MacroCompiler.closeBrace ∉ directive)
    (hinvalid : ¬ validDirectiveText directive = true) : SameDirective source position directive := by
  have hcheck : (encoded directive).length = 0 ∨ (encoded directive).length ≥ directiveBufferBytes ∨
      v2DirectiveHasInvalidCharacter (encoded directive) = true := by
    by_contra hnone
    rw [not_or, not_or, Bool.not_eq_true] at hnone
    refine hinvalid ((validDirectiveText_iff hclose).mpr ⟨?_, hasInvalidCharacter_iff.mp hnone.2.2⟩)
    rintro rfl
    exact hnone.1 rfl
  rw [SameDirective, checkedDirective, if_pos hinvalid, v2ParseDirective, if_pos hcheck]
  exact h.same .macroSyntax _ _

theorem inDirective_of_valid (hvalid : validDirectiveText directive = true)
    (hclose : MacroCompiler.closeBrace ∉ directive) : ∀ unit ∈ directive, unit < 0x80 :=
  fun unit hmem => (((validDirectiveText_iff hclose).mp hvalid).2 unit hmem).ascii

theorem v2ParseDirective_valid (hvalid : validDirectiveText directive = true)
    (hclose : MacroCompiler.closeBrace ∉ directive) (offset : Nat) :
    v2ParseDirective (encoded source) offset (encoded directive) =
    if directiveBufferBytes ≤ directive.length then
      .error (v2Fail (encoded source) offset "invalid directive" .macroSyntax)
    else if delayPrefix <+: directive then
      match v2ParseDelay (directive.map UInt16.toUInt8) with
      | .error .macroLimit => .error (v2Fail (encoded source) offset "delay is outside the allowed range" .macroLimit)
      | .error code => .error (v2Fail (encoded source) offset "invalid delay directive" code)
      | .ok action => .ok action
    else
      match Keymap.macroKeymapUsV2NamedDirective (directive.map UInt16.toUInt8) with
      | none => .error (v2Fail (encoded source) offset "unknown key directive" .macroSyntax)
      | some key => .ok (v2KeyAction key) := by
  obtain ⟨hne, hall⟩ := (validDirectiveText_iff hclose).mp hvalid
  have hascii : ∀ unit ∈ directive, unit < 0x80 := fun unit hmem => (hall unit hmem).ascii
  have hcheck : ((encoded directive).length = 0 ∨ (encoded directive).length ≥ directiveBufferBytes ∨
      v2DirectiveHasInvalidCharacter (encoded directive) = true) ↔ directiveBufferBytes ≤ directive.length := by
    rw [hasInvalidCharacter_iff.mpr hall, encoded_of_ascii hascii, List.length_map, List.length_eq_zero_iff]
    simp [hne]
  rw [encoded_of_ascii hascii] at hcheck ⊢
  unfold v2ParseDirective
  exact if_congr hcheck rfl (if_congr (prefix_map hascii) rfl rfl)

theorem not_sameError {message said : String} {code : MacroCompiler.ErrorCode} {sent : AppError} {offset : Nat}
    (hcode : sent ≠ code.appError) :
    ¬ SameError (errorAt position code message) (v2Fail (encoded source) offset said sent) :=
  fun h => hcode h.1

theorem checkedDirective_valid (hvalid : validDirectiveText directive = true) :
    checkedDirective directive position = parseDirective directive position :=
  if_neg (not_not.mpr hvalid)

theorem divergent_delay (hvalid : validDirectiveText directive = true) (hdelay : delayPrefix <+: directive) :
    Divergent directive ↔ LongDelay directive ∨ OverflowingDelay directive := by
  rw [Divergent, and_iff_right hvalid, or_iff_right]
  exact fun hmem => inherited_no_delay directive hmem hdelay

theorem divergent_named (hvalid : validDirectiveText directive = true) (hdelay : ¬ delayPrefix <+: directive) :
    Divergent directive ↔ directive ∈ inheritedProperties := by
  rw [Divergent, and_iff_right hvalid, or_iff_left]
  exact fun h => h.elim (fun hlong => hdelay hlong.1) fun hover => hdelay hover.1

theorem sameDirective_longDelay (h : At source position) (hvalid : validDirectiveText directive = true)
    (hclose : MacroCompiler.closeBrace ∉ directive) (hdelay : delayPrefix <+: directive)
    (hlong : directiveBufferBytes ≤ directive.length) :
    SameDirective source position directive ↔ ¬ Divergent directive := by
  have hover : ¬ OverflowingDelay directive := fun hover => absurd hover.2.2.1 (Nat.not_lt.mpr hlong)
  have hne : directive.drop delayPrefix.length ≠ [] := by
    rw [Ne, List.drop_eq_nil_iff, Nat.not_le]
    exact lt_of_lt_of_le (by decide) hlong
  rw [divergent_delay hvalid hdelay, or_iff_left hover, LongDelay, and_iff_right hdelay, and_iff_left hlong, SameDirective,
    checkedDirective_valid hvalid, parseDirective_delay hdelay, v2ParseDirective_valid hvalid hclose, if_pos hlong]
  dsimp only
  by_cases hdigits : (directive.drop delayPrefix.length).all isDigit = true
  · rw [if_neg (not_or.mpr ⟨hne, by rw [hdigits]; exact nofun⟩)]
    refine iff_of_false ?_ (not_not.mpr hdigits)
    split
    · exact not_sameError nofun
    · exact id
  · rw [if_pos (Or.inr (Bool.eq_false_iff.mpr hdigits))]
    exact iff_of_true (h.same .macroSyntax _ _) hdigits

/-- A delay that fits the buffer, unless its digits overflow. -/
theorem sameDirective_delay (h : At source position) (hvalid : validDirectiveText directive = true)
    (hclose : MacroCompiler.closeBrace ∉ directive) (hdelay : delayPrefix <+: directive)
    (hlong : ¬ directiveBufferBytes ≤ directive.length) :
    SameDirective source position directive ↔ ¬ Divergent directive := by
  have hnot : ¬ LongDelay directive := fun hlongDelay => hlong hlongDelay.2.2
  rw [divergent_delay hvalid hdelay, or_iff_right hnot, OverflowingDelay, and_iff_right hdelay,
    and_iff_right (Nat.not_le.mp hlong), SameDirective, checkedDirective_valid hvalid, parseDirective_delay hdelay,
    v2ParseDirective_valid hvalid hclose, if_neg hlong, if_pos hdelay,
    v2ParseDelay_map (inDirective_of_valid hvalid hclose) hdelay]
  dsimp only
  generalize directive.drop delayPrefix.length = digits
  by_cases hnil : digits = []
  · subst hnil
    exact iff_of_true (h.same .macroSyntax _ _) fun hover => absurd hover.1 (by decide)
  cases hdigits : digits.all isDigit with
  | false =>
    rw [if_pos (Or.inr rfl), if_neg hnil]
    by_cases hover : uint32Max.toNat < numberOfDigits (digits.takeWhile isDigit)
    · rw [if_pos hover]
      exact iff_of_false (not_sameError nofun) (not_not.mpr ⟨rfl, hover⟩)
    · rw [if_neg hover, if_pos rfl]
      exact iff_of_true (h.same .macroSyntax _ _) fun hboth => hover hboth.2
  | true =>
    have htake : digits.takeWhile isDigit = digits := List.takeWhile_eq_self_iff.mpr (List.all_eq_true.mp hdigits)
    rw [htake, if_neg (not_or.mpr ⟨hnil, nofun⟩), if_neg hnil]
    refine iff_of_true ?_ fun hboth => absurd hboth.1 nofun
    generalize numberOfDigits digits = number
    by_cases hrange : number < 1 ∨ v2Limits.delayDirectiveMaxMs < number
    · rw [if_pos hrange]
      have herror : (if uint32Max.toNat < number then Except.error AppError.macroLimit
          else if true = false then .error .macroSyntax
          else if number < 1 ∨ v2Limits.delayDirectiveMaxMs < number then .error .macroLimit
          else .ok (⟨.delay, 0, [], .ofNat number⟩ : MacroAction)) = .error .macroLimit := by
        rw [if_pos hrange, if_neg (Bool.noConfusion : ¬ true = false), ite_self]
      rw [herror]
      exact h.same .macroLimit _ _
    · have hfits : ¬ uint32Max.toNat < number := by
        have hmax : uint32Max.toNat = 4294967295 := rfl
        have hlimit : v2Limits.delayDirectiveMaxMs = 10000 := rfl
        omega
      rw [if_neg hrange, if_neg hfits, if_neg (Bool.noConfusion : ¬ true = false), if_neg hrange]
      have hnat : (UInt32.ofNat number).toNat = number := by
        have hmax : uint32Max.toNat = 4294967295 := rfl
        rw [UInt32.toNat_ofNat', Nat.mod_eq_of_lt (by omega)]
      have hsame := SameAction.delay (.ofNat number)
      rw [hnat] at hsame
      exact hsame

theorem length_names : MacroCompiler.modifierBits.all (fun row => row.1.length < directiveBufferBytes) = true ∧
    MacroCompiler.namedKeys.all (fun row => row.1.length < directiveBufferBytes) = true ∧
    inheritedProperties.all (fun name => name.length < directiveBufferBytes) = true := by
  decide +kernel

theorem lookup_none_of_long {α : Type} {table : List (Units × α)}
    (htable : table.all (fun row => row.1.length < directiveBufferBytes) = true)
    (hlong : directiveBufferBytes ≤ directive.length) : table.lookup directive = none := by
  cases hlookup : table.lookup directive with
  | none => rfl
  | some a =>
    have hrow := List.all_eq_true.mp htable _ (Keymap.mem_of_lookup hlookup)
    exact absurd (of_decide_eq_true hrow) (Nat.not_lt.mpr hlong)

theorem sameDirective_named (h : At source position) (hvalid : validDirectiveText directive = true)
    (hclose : MacroCompiler.closeBrace ∉ directive) (hdelay : ¬ delayPrefix <+: directive) :
    SameDirective source position directive ↔ ¬ Divergent directive := by
  have hnamed : ¬ List.isPrefixOf delayPrefix directive = true := mt List.isPrefixOf_iff_prefix.mp hdelay
  rw [divergent_named hvalid hdelay, SameDirective, checkedDirective_valid hvalid, parseDirective, if_neg hnamed,
    v2ParseDirective_valid hvalid hclose, if_neg hdelay, namedDirectiveKey]
  by_cases hinherited : directive ∈ inheritedProperties
  · rw [inherited_no_modifier directive hinherited, inherited_unnamed hinherited]
    refine iff_of_false ?_ (not_not.mpr hinherited)
    simp only [if_pos hinherited]
    split <;> exact id
  · refine iff_of_true ?_ hinherited
    by_cases hlong : directiveBufferBytes ≤ directive.length
    · rw [if_pos hlong, lookup_none_of_long length_names.1 hlong, lookup_none_of_long length_names.2.1 hlong]
      simp only [if_neg hinherited, Option.map_none]
      exact h.same .macroSyntax _ _
    · rw [if_neg hlong, namedDirective_same (inDirective_of_valid hvalid hclose)]
      cases MacroCompiler.modifierBits.lookup directive with
      | some modifier => exact SameAction.key 0 modifier
      | none =>
        simp only [if_neg hinherited]
        cases MacroCompiler.namedKeys.lookup directive with
        | some usage => exact SameAction.key usage 0
        | none => exact h.same .macroSyntax _ _

/-- Both compilers make the same of a directive exactly when it is not one of the
three kinds. -/
theorem sameDirective_iff (h : At source position) (hclose : MacroCompiler.closeBrace ∉ directive) :
    SameDirective source position directive ↔ ¬ Divergent directive := by
  by_cases hvalid : validDirectiveText directive = true
  · by_cases hdelay : delayPrefix <+: directive
    · by_cases hlong : directiveBufferBytes ≤ directive.length
      · exact sameDirective_longDelay h hvalid hclose hdelay hlong
      · exact sameDirective_delay h hvalid hclose hdelay hlong
    · exact sameDirective_named h hvalid hclose hdelay
  · exact iff_of_true (same_invalidDirective h hclose hvalid) fun hdivergent => hvalid hdivergent.1

/-- The error of the firmware, and what the browser may do instead. -/
def Differ (sent : AppError) (browser : Except MacroCompileError MacroCompiler.MacroAction) : Prop :=
  (sent = .macroSyntax ∧ ∀ failure, browser = .error failure → failure.code = .macroLimit) ∨
    (sent = .macroLimit ∧ ∃ failure, browser = .error failure ∧ failure.code = .macroSyntax)

/-- The firmware rejects a divergent directive, which the browser takes, or rejects with
the other error. -/
theorem divergent_differ (source : Units) (position : Position) (offset : Nat)
    (hclose : MacroCompiler.closeBrace ∉ directive) (hdivergent : Divergent directive) : ∃ error, v2ParseDirective (encoded source) offset (encoded directive) = .error error ∧
      Differ error.code (checkedDirective directive position) := by
  obtain ⟨hvalid, hkind⟩ := hdivergent
  rw [checkedDirective_valid hvalid, v2ParseDirective_valid hvalid hclose]
  rcases hkind with hinherited | ⟨hdelay, hdigits, hlong⟩ | ⟨hdelay, hdigits, hshort, hover⟩
  · have hdelay := inherited_no_delay directive hinherited
    have hbrowser : parseDirective directive position = .ok (.key 0 .inherited) := by
      rw [parseDirective, if_neg (mt List.isPrefixOf_iff_prefix.mp hdelay), namedDirectiveKey,
        inherited_no_modifier directive hinherited]
      dsimp only
      rw [if_pos hinherited]
    rw [if_neg hdelay, inherited_unnamed hinherited, hbrowser]
    dsimp only
    rw [← apply_ite Except.error]
    refine ⟨_, rfl, Or.inl ⟨?_, nofun⟩⟩
    split <;> rfl
  · rw [if_pos hlong, parseDirective_delay hdelay]
    refine ⟨_, rfl, Or.inl ⟨rfl, fun failure hfailure => ?_⟩⟩
    dsimp only at hfailure
    have hne : directive.drop delayPrefix.length ≠ [] := by
      rw [Ne, List.drop_eq_nil_iff, Nat.not_le]
      exact lt_of_lt_of_le (by decide) hlong
    rw [if_neg (not_or.mpr ⟨hne, by rw [hdigits]; exact nofun⟩)] at hfailure
    split at hfailure
    · cases hfailure
      rfl
    · cases hfailure
  · rw [if_neg (Nat.not_le.mpr hshort), if_pos hdelay, v2ParseDelay_map (inDirective_of_valid hvalid hclose) hdelay,
      parseDirective_delay hdelay]
    dsimp only
    have hne : directive.drop delayPrefix.length ≠ [] := by
      intro hnil
      rw [hnil] at hdigits
      cases hdigits
    rw [if_neg hne, if_pos hover, if_pos (Or.inr hdigits)]
    exact ⟨_, rfl, Or.inr ⟨rfl, _, rfl, rfl⟩⟩

end Directives

end MacroKeyboard.Webapp
