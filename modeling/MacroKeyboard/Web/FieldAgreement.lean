import MacroKeyboard.Json.Stringify
import MacroKeyboard.Settings.RecordText
import MacroKeyboard.Web.RequestFields
import MacroKeyboard.Web.SetupSubmit

namespace MacroKeyboard.Web

open Json Settings Auth Webapp JsValue

section Parsed

mutual

/-- No object of the value has two members of one name. -/
def Distinct : Value Units → Prop
  | .array items => DistinctItems items
  | .object members => (members.map (·.1)).Nodup ∧ DistinctMembers members
  | _ => True

def DistinctItems : List (Value Units) → Prop
  | [] => True
  | item :: items => Distinct item ∧ DistinctItems items

def DistinctMembers : List (Units × Value Units) → Prop
  | [] => True
  | (_, value) :: members => Distinct value ∧ DistinctMembers members

end

variable {round : ℚ → ℚ}

theorem get_parsed (members : List (Units × Value Units)) (name : Units) :
    get (members.map (fun entry => (entry.1, parsed round entry.2))) name =
      ((member members name).map (parsed round)).getD .undefined := by
  unfold JsValue.get
  rw [member, List.find?_map, Option.map_map, Option.map_map]
  rfl

theorem hasOwn_parsed (members : List (Units × Value Units)) (name : Units) :
    hasOwn (members.map (fun entry => (entry.1, parsed round entry.2))) name = (member members name).isSome := by
  rw [hasOwn, member, Option.isSome_map, List.isSome_find?, List.any_map]
  rfl

mutual

theorem parsed_toJson : {value : JsValue} → {json : Value Units} → value.Proper → value.toJson = some json →
    AllNumbers (fun q => round q = q) json → parsed round json = value
  | .null, _, _, rfl, _ => rfl
  | .bool _, _, _, rfl, _ => rfl
  | .number q, _, _, rfl, h => congrArg JsValue.number h
  | .string _, _, _, rfl, _ => rfl
  | .array items, json, hproper, hjson, hnumbers => by
    rw [toJson, Option.map_eq_some_iff] at hjson
    obtain ⟨texts, hitems, rfl⟩ := hjson
    rw [parsed, parsedItems_toJson hproper hitems hnumbers]
  | .record members, json, hproper, hjson, hnumbers => by
    rw [toJson, Option.map_eq_some_iff] at hjson
    obtain ⟨texts, hmembers, rfl⟩ := hjson
    obtain ⟨hnames, hall⟩ := members_toJson hproper.2 hmembers hnumbers
    have hnodup := hproper.1
    rw [← hnames] at hnodup
    rw [parsed_object hnodup, hall]

theorem parsedItems_toJson : {items : List JsValue} → {texts : List (Value Units)} → ProperItems items →
    itemsToJson items = some texts → AllNumbersOfItems (fun q => round q = q) texts → parsedItems round texts = items
  | [], _, _, rfl, _ => rfl
  | item :: items, texts, hproper, hjson, hnumbers => by
    rw [itemsToJson] at hjson
    simp only [Option.bind_eq_bind, Option.bind_eq_some_iff, Option.some.injEq] at hjson
    obtain ⟨first, hfirst, rest, hrest, rfl⟩ := hjson
    rw [parsedItems, parsed_toJson hproper.1 hfirst hnumbers.1, parsedItems_toJson hproper.2 hrest hnumbers.2]

theorem members_toJson : {members : List (Units × JsValue)} → {texts : List (Units × Value Units)} →
    ProperMembers members → membersToJson members = some texts →
    AllNumbersOfMembers (fun q => round q = q) texts →
    texts.map (·.1) = members.map (·.1) ∧ texts.map (fun entry => (entry.1, parsed round entry.2)) = members
  | [], _, _, rfl, _ => ⟨rfl, rfl⟩
  | (name, value) :: members, texts, hproper, hjson, hnumbers => by
    rw [membersToJson] at hjson
    simp only [Option.bind_eq_bind, Option.bind_eq_some_iff, Option.some.injEq] at hjson
    obtain ⟨first, hfirst, rest, hrest, rfl⟩ := hjson
    obtain ⟨hnames, hall⟩ := members_toJson hproper.2 hrest hnumbers.2
    rw [List.map_cons, List.map_cons, List.map_cons, hnames, hall, parsed_toJson hproper.1 hfirst hnumbers.1]
    exact ⟨rfl, rfl⟩

end

mutual

theorem distinct_of_toJson : {value : JsValue} → {json : Value Units} → value.Proper → value.toJson = some json →
    Distinct json
  | .null, _, _, rfl => trivial
  | .bool _, _, _, rfl => trivial
  | .number _, _, _, rfl => trivial
  | .string _, _, _, rfl => trivial
  | .array items, json, hproper, hjson => by
    rw [toJson, Option.map_eq_some_iff] at hjson
    obtain ⟨texts, hitems, rfl⟩ := hjson
    exact distinctItems_of_toJson hproper hitems
  | .record members, json, hproper, hjson => by
    rw [toJson, Option.map_eq_some_iff] at hjson
    obtain ⟨texts, hmembers, rfl⟩ := hjson
    obtain ⟨hnames, hall⟩ := distinctMembers_of_toJson hproper.2 hmembers
    exact ⟨hnames ▸ hproper.1, hall⟩

theorem distinctItems_of_toJson : {items : List JsValue} → {texts : List (Value Units)} → ProperItems items →
    itemsToJson items = some texts → DistinctItems texts
  | [], _, _, rfl => trivial
  | item :: items, texts, hproper, hjson => by
    rw [itemsToJson] at hjson
    simp only [Option.bind_eq_bind, Option.bind_eq_some_iff, Option.some.injEq] at hjson
    obtain ⟨first, hfirst, rest, hrest, rfl⟩ := hjson
    exact ⟨distinct_of_toJson hproper.1 hfirst, distinctItems_of_toJson hproper.2 hrest⟩

theorem distinctMembers_of_toJson : {members : List (Units × JsValue)} → {texts : List (Units × Value Units)} →
    ProperMembers members → membersToJson members = some texts →
    texts.map (·.1) = members.map (·.1) ∧ DistinctMembers texts
  | [], _, _, rfl => ⟨rfl, trivial⟩
  | (name, value) :: members, texts, hproper, hjson => by
    rw [membersToJson] at hjson
    simp only [Option.bind_eq_bind, Option.bind_eq_some_iff, Option.some.injEq] at hjson
    obtain ⟨first, hfirst, rest, hrest, rfl⟩ := hjson
    obtain ⟨hnames, hall⟩ := distinctMembers_of_toJson hproper.2 hrest
    rw [List.map_cons, List.map_cons, hnames]
    exact ⟨rfl, distinct_of_toJson hproper.1 hfirst, hall⟩

end

theorem distinctMembers_iff {members : List (Units × Value Units)} :
    DistinctMembers members ↔ ∀ entry ∈ members, Distinct entry.2 := by
  induction members with
  | nil => simp [DistinctMembers]
  | cons entry members ih => simp [DistinctMembers, ih]

end Parsed

section Patterns

theorem matchesPattern_iff {pattern : List (UInt16 → Bool)} {units : Units} :
    matchesPattern pattern units = true ↔ units.length = pattern.length ∧
      ∀ index < pattern.length, pattern.getD index (fun _ => false) (units.getD index 0) = true := by
  induction pattern generalizing units with
  | nil => cases units <;> simp [matchesPattern]
  | cons accepts pattern ih =>
    cases units with
    | nil => simp [matchesPattern]
    | cons unit units =>
      rw [matchesPattern, Bool.and_eq_true, ih, List.length_cons, List.length_cons, Nat.add_right_cancel_iff]
      constructor
      · rintro ⟨hfirst, hlength, hall⟩
        refine ⟨hlength, fun index hindex => ?_⟩
        cases index with
        | zero => exact hfirst
        | succ index => exact hall index (by simpa using hindex)
      · rintro ⟨hlength, hall⟩
        exact ⟨hall 0 (by simp), hlength, fun index hindex => hall (index + 1) (by simpa using hindex)⟩

theorem ascii_encodings {s : List Char} (h : ∀ c ∈ s, c.toNat < 0x80) :
    utf16 s = s.map (fun c => .ofNat c.toNat) ∧ utf8 s = s.map (fun c => .ofNat c.toNat) := by
  induction s with
  | nil => exact ⟨rfl, rfl⟩
  | cons c s ih =>
    have hc := h c List.mem_cons_self
    obtain ⟨hunits, hbytes⟩ := ih fun d hmem => h d (List.mem_cons_of_mem _ hmem)
    rw [utf16] at hunits
    rw [utf16, List.flatMap_cons, hunits, utf8_cons, hbytes, utf16EncodeChar_of_lt (by omega),
      utf8EncodeChar_of_le (by omega)]
    exact ⟨rfl, rfl⟩

theorem ascii_of_utf8 {s : List Char} (h : ∀ b ∈ utf8 s, b < 0x80) : ∀ c ∈ s, c.toNat < 0x80 := by
  intro c hmem
  by_contra hlarge
  obtain ⟨b, tail, heq, hb⟩ : ∃ b tail, String.utf8EncodeChar c = b :: tail ∧ 0x80 ≤ b := by
    cases htext : String.utf8EncodeChar c with
    | nil =>
      have hlength := String.length_utf8EncodeChar c
      have hpos := Char.utf8Size_pos c
      rw [htext, List.length_nil] at hlength
      omega
    | cons b tail =>
      exact ⟨b, tail, rfl, le_of_mem_utf8EncodeChar (c := c) (by omega) (by rw [htext]; exact List.mem_cons_self)⟩
  have hbyte := h b (List.mem_flatMap.mpr ⟨c, hmem, by rw [heq]; exact List.mem_cons_self⟩)
  exact absurd hbyte (UInt8.not_lt.mpr hb)

theorem ascii_of_utf16 {s : List Char} (h : ∀ unit ∈ utf16 s, unit < 0x80) : ∀ c ∈ s, c.toNat < 0x80 := by
  intro c hmem
  have hvalid := toNat_lt_or_lt c
  by_contra hlarge
  have hsmall {n : Nat} (hlow : 0x80 ≤ n) (hhigh : n < 0x10000) (hin : UInt16.ofNat n ∈ utf16EncodeChar c) : False := by
    have hunit := h _ (List.mem_flatMap.mpr ⟨c, hmem, hin⟩)
    rw [UInt16.lt_iff_toNat_lt, UInt16.toNat_ofNat', Nat.mod_eq_of_lt hhigh] at hunit
    have htop : (0x80 : UInt16).toNat = 0x80 := rfl
    omega
  by_cases hplane : c.toNat < 0x10000
  · exact hsmall (by omega) hplane (by rw [utf16EncodeChar_of_lt hplane]; exact List.mem_cons_self)
  · refine hsmall (n := 0xd800 + (c.toNat - 0x10000) / 0x400) (by omega) (by omega) ?_
    rw [utf16EncodeChar, if_neg hplane]
    exact List.mem_cons_self

theorem lt_of_matches {pattern : List (UInt16 → Bool)} (hascii : ∀ accepts ∈ pattern, ∀ unit, accepts unit = true → unit < 0x80)
    {units : Units} (h : matchesPattern pattern units = true) : ∀ unit ∈ units, unit < 0x80 := by
  induction pattern generalizing units with
  | nil =>
    cases units with
    | nil => exact fun _ hmem => by cases hmem
    | cons unit units => cases h
  | cons accepts pattern ih =>
    cases units with
    | nil => exact fun _ hmem => by cases hmem
    | cons unit units =>
      rw [matchesPattern, Bool.and_eq_true] at h
      rw [List.forall_mem_cons]
      exact ⟨hascii accepts List.mem_cons_self unit h.1,
        ih (fun other hmem => hascii other (List.mem_cons_of_mem _ hmem)) h.2⟩

def SameCharacter (unit : UInt16) (byte : UInt8) : Prop := unit.toNat = byte.toNat

theorem sameCharacter_getD {s : List Char} (h : ∀ c ∈ s, c.toNat < 0x80) (index : Nat) :
    SameCharacter ((utf16 s).getD index 0) ((utf8 s).getD index 0) := by
  obtain ⟨hunits, hbytes⟩ := ascii_encodings h
  rw [hunits, hbytes, List.getD_eq_getElem?_getD, List.getD_eq_getElem?_getD, List.getElem?_map, List.getElem?_map]
  cases hc : s[index]? with
  | none => rfl
  | some c =>
    have hlt := h c (List.mem_of_getElem? hc)
    rw [SameCharacter, Option.map_some, Option.map_some, Option.getD_some, Option.getD_some, UInt16.toNat_ofNat',
      UInt8.toNat_ofNat', Nat.mod_eq_of_lt (by omega), Nat.mod_eq_of_lt (by omega)]

theorem length_ascii {s : List Char} (h : ∀ c ∈ s, c.toNat < 0x80) : (utf16 s).length = (utf8 s).length := by
  obtain ⟨hunits, hbytes⟩ := ascii_encodings h
  rw [hunits, hbytes, List.length_map, List.length_map]

variable {unit : UInt16} {byte : UInt8}

theorem SameCharacter.isDigit (h : SameCharacter unit byte) : isDigit unit = (0x30 ≤ byte && byte ≤ 0x39) := by
  unfold SameCharacter at h
  simp only [Webapp.isDigit, UInt16.le_iff_toNat_le, UInt8.le_iff_toNat_le, h]
  rfl

theorem SameCharacter.isLowerHex (h : SameCharacter unit byte) :
    isLowerHex unit = ((0x30 ≤ byte && byte ≤ 0x39) || (0x61 ≤ byte && byte ≤ 0x66)) := by
  rw [Webapp.isLowerHex, h.isDigit]
  unfold SameCharacter at h
  simp only [UInt16.le_iff_toNat_le, UInt8.le_iff_toNat_le, h]
  rfl

theorem SameCharacter.beq (h : SameCharacter unit byte) {n : Nat} (hn : n < 0x100) :
    (unit == .ofNat n) = (byte == .ofNat n) := by
  unfold SameCharacter at h
  have hunit : (UInt16.ofNat n).toNat = n := by
    rw [UInt16.toNat_ofNat', Nat.mod_eq_of_lt (by omega)]
  have hbyte : (UInt8.ofNat n).toNat = n := by
    rw [UInt8.toNat_ofNat', Nat.mod_eq_of_lt (by omega)]
  rw [Bool.eq_iff_iff, beq_iff_eq, beq_iff_eq, ← UInt16.toNat_inj, ← UInt8.toNat_inj, hunit, hbyte, h]

theorem lowerHex_of_isFour (h : isFour unit = true) : isLowerHex unit = true := by
  rw [beq_iff_eq.mp h]
  decide

theorem lowerHex_of_isVariant (h : isVariant unit = true) : isLowerHex unit = true := by
  unfold isVariant at h
  simp only [Bool.or_eq_true, beq_iff_eq] at h
  rcases h with ((rfl | rfl) | rfl) | rfl <;> decide

theorem uuidV4Pattern_getD {index : Nat} (h : index < uuidTextBytes) : uuidV4Pattern.getD index (fun _ => false) =
    if index ∈ uuidHyphenIndexes then isHyphen else if index = uuidVersionIndex then isFour
      else if index = uuidVariantIndex then isVariant else isLowerHex := by
  unfold uuidTextBytes at h
  interval_cases index <;> rfl

/-- The positions of an identifier, for the units of the pattern. -/
theorem matches_uuidV4Pattern {s : List Char} (h : ∀ c ∈ s, c.toNat < 0x80) :
    matchesPattern uuidV4Pattern (utf16 s) = true ↔ validUuidV4 (utf8 s) = true := by
  have hclass (index : Nat) := sameCharacter_getD h index
  have hfour : isFour ((utf16 s).getD uuidVersionIndex 0) = ((utf8 s).getD uuidVersionIndex 0 == 0x34) :=
    (hclass uuidVersionIndex).beq (n := 0x34) (by decide)
  have hvariant : isVariant ((utf16 s).getD uuidVariantIndex 0) =
      ((utf8 s).getD uuidVariantIndex 0 == 0x38 || (utf8 s).getD uuidVariantIndex 0 == 0x39 ||
        (utf8 s).getD uuidVariantIndex 0 == 0x61 || (utf8 s).getD uuidVariantIndex 0 == 0x62) := by
    have hsame := hclass uuidVariantIndex
    have height : _ = ((utf8 s).getD uuidVariantIndex 0 == 0x38) := hsame.beq (n := 0x38) (by decide)
    have hnine : _ = ((utf8 s).getD uuidVariantIndex 0 == 0x39) := hsame.beq (n := 0x39) (by decide)
    have ha : _ = ((utf8 s).getD uuidVariantIndex 0 == 0x61) := hsame.beq (n := 0x61) (by decide)
    have hb : _ = ((utf8 s).getD uuidVariantIndex 0 == 0x62) := hsame.beq (n := 0x62) (by decide)
    rw [← height, ← hnine, ← ha, ← hb]
    rfl
  have hhyphen (index : Nat) : isHyphen ((utf16 s).getD index 0) = ((utf8 s).getD index 0 == 0x2d) :=
    (hclass index).beq (n := 0x2d) (by decide)
  rw [matchesPattern_iff, length_ascii h, validUuidV4, uuidCharacters, Bool.and_eq_true, Bool.and_eq_true,
    Bool.and_eq_true, beq_iff_eq, List.all_eq_true, ← hfour, ← hvariant]
  constructor
  · rintro ⟨hlength, hall⟩
    have hat (index : Nat) (hindex : index < uuidTextBytes) := hall index hindex
    refine ⟨hlength, ⟨fun index hindex => ?_, ?_⟩, ?_⟩
    · have hindex := List.mem_range.mp hindex
      have hmatch := hat index hindex
      rw [uuidV4Pattern_getD hindex] at hmatch
      dsimp only
      rw [← hhyphen, ← (hclass index).isLowerHex]
      split_ifs at hmatch ⊢
      · exact hmatch
      · exact lowerHex_of_isFour hmatch
      · exact lowerHex_of_isVariant hmatch
      · exact hmatch
    · have hmatch := hat uuidVersionIndex (by decide)
      rw [uuidV4Pattern_getD (by decide)] at hmatch
      exact hmatch
    · have hmatch := hat uuidVariantIndex (by decide)
      rw [uuidV4Pattern_getD (by decide)] at hmatch
      exact hmatch
  · rintro ⟨hlength, ⟨hall, hversion⟩, hvariant⟩
    refine ⟨hlength, fun index hindex => ?_⟩
    have hmatch := hall index (List.mem_range.mpr hindex)
    dsimp only at hmatch
    rw [← hhyphen, ← (hclass index).isLowerHex] at hmatch
    rw [uuidV4Pattern_getD hindex]
    split_ifs at hmatch ⊢ with hmark hfourth heighth
    · exact hmatch
    · rw [hfourth]
      exact hversion
    · rw [heighth]
      exact hvariant
    · exact hmatch

theorem lt_of_isDigit (h : isDigit unit = true) : unit < 0x80 := by
  simp only [isDigit, Bool.and_eq_true, decide_eq_true_eq] at h
  exact UInt16.lt_of_le_of_lt h.2 (by decide)

theorem lt_of_isLowerHex (h : isLowerHex unit = true) : unit < 0x80 := by
  simp only [isLowerHex, Bool.or_eq_true, Bool.and_eq_true, decide_eq_true_eq] at h
  rcases h with h | h
  · exact lt_of_isDigit h
  · exact UInt16.lt_of_le_of_lt h.2 (by decide)

theorem lt_of_uuidV4Pattern {accepts : UInt16 → Bool} (hmem : accepts ∈ uuidV4Pattern) {unit : UInt16}
    (h : accepts unit = true) : unit < 0x80 := by
  simp only [uuidV4Pattern, List.mem_append, List.mem_replicate, List.mem_cons, List.not_mem_nil, or_false] at hmem
  have hclass : accepts = isLowerHex ∨ accepts = isHyphen ∨ accepts = isFour ∨ accepts = isVariant := by tauto
  rcases hclass with rfl | rfl | rfl | rfl
  · exact lt_of_isLowerHex h
  · rw [beq_iff_eq.mp h]
    decide
  · exact lt_of_isLowerHex (lowerHex_of_isFour h)
  · exact lt_of_isLowerHex (lowerHex_of_isVariant h)

variable {units : Units} {text : List UInt8}

theorem lt_of_le_0x7f {byte : UInt8} (h : byte ≤ 0x7f) : byte < 0x80 := UInt8.lt_of_le_of_lt h (by decide)

theorem matches_uuid_iff (h : decodedString units = some text) :
    matchesPattern uuidV4Pattern units = true ↔ validUuidV4 text = true := by
  obtain ⟨s, rfl, rfl⟩ := eq_of_decodedString h
  constructor
  · intro hmatch
    have hascii := ascii_of_utf16 (lt_of_matches (fun _ hmem _ => lt_of_uuidV4Pattern hmem) hmatch)
    exact (matches_uuidV4Pattern hascii).mp hmatch
  · intro hvalid
    have hparts := hvalid
    rw [validUuidV4, Bool.and_eq_true, beq_iff_eq] at hparts
    have hascii := ascii_of_utf8 fun b hmem => lt_of_le_0x7f (ascii_of_uuidCharacters hparts.1 hparts.2 b hmem)
    exact (matches_uuidV4Pattern hascii).mpr hvalid

theorem matches_setupCodePattern {s : List Char} (h : ∀ c ∈ s, c.toNat < 0x80) :
    matchesPattern setupCodePattern (utf16 s) = true ↔ validSetupCode (utf8 s) = true := by
  have hdigit (index : Nat) (hindex : index < setupCodePattern.length) :
      setupCodePattern.getD index (fun _ => false) = isDigit := by
    rw [setupCodePattern, List.length_replicate] at hindex
    interval_cases index <;> rfl
  rw [matchesPattern_iff, length_ascii h, validSetupCode, Bool.and_eq_true, decide_eq_true_eq, List.all_eq_true]
  refine and_congr_right fun hlength => ?_
  have hlength : (utf8 s).length = setupCodePattern.length := hlength
  constructor
  · intro hall b hmem
    obtain ⟨index, hindex, rfl⟩ := List.getElem_of_mem hmem
    have hmatch := hall index (by omega)
    rw [hdigit index (by omega), (sameCharacter_getD h index).isDigit, List.getD_eq_getElem _ _ hindex] at hmatch
    exact hmatch
  · intro hall index hindex
    rw [hdigit index hindex, (sameCharacter_getD h index).isDigit, List.getD_eq_getElem _ _ (by omega)]
    exact hall _ (List.getElem_mem _)

theorem matches_setupCode_iff (h : decodedString units = some text) :
    matchesPattern setupCodePattern units = true ↔ validSetupCode text = true := by
  obtain ⟨s, rfl, rfl⟩ := eq_of_decodedString h
  constructor
  · intro hmatch
    refine (matches_setupCodePattern (ascii_of_utf16 (lt_of_matches (fun accepts hmem unit hunit => ?_) hmatch))).mp hmatch
    rw [List.eq_of_mem_replicate hmem] at hunit
    exact lt_of_isDigit hunit
  · intro hvalid
    have hparts := hvalid
    rw [validSetupCode, Bool.and_eq_true, decide_eq_true_eq, List.all_eq_true] at hparts
    refine (matches_setupCodePattern (ascii_of_utf8 fun b hmem => ?_)).mpr hvalid
    have hb := hparts.2 b hmem
    rw [Bool.and_eq_true, decide_eq_true_eq, decide_eq_true_eq] at hb
    exact UInt8.lt_of_le_of_lt hb.2 (by decide)

end Patterns

end MacroKeyboard.Web
