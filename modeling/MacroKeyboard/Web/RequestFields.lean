import MacroKeyboard.Settings.Utf8
import MacroKeyboard.Web.SettingsPut
import MacroKeyboard.Webapp.RequestGuards

namespace MacroKeyboard.Web

open Json Settings Webapp JsValue

section Strings

variable {units : Units} {text : List UInt8}

theorem eq_of_decodedString (h : decodedString units = some text) : ∃ s, units = utf16 s ∧ text = utf8 s := by
  rw [decodedString, Option.map_eq_some_iff] at h
  obtain ⟨s, hs, rfl⟩ := h
  exact ⟨s, eq_utf16_of_textOfUnits hs, rfl⟩

theorem decodedString_eq_iff {s : List Char} : decodedString units = some (utf8 s) ↔ units = utf16 s := by
  refine ⟨fun h => ?_, fun h => by rw [h, decodedString_utf16]⟩
  obtain ⟨t, rfl, htext⟩ := eq_of_decodedString h
  rw [utf8_injective htext]

theorem decodedString_injective {other : Units} (h : decodedString units = some text)
    (hother : decodedString other = some text) : units = other := by
  obtain ⟨s, rfl, rfl⟩ := eq_of_decodedString h
  exact (decodedString_eq_iff.mp hother).symm

theorem zero_mem_utf16 {s : List Char} (h : 0 ∈ utf8 s) : 0 ∈ utf16 s := by
  rw [utf8, List.mem_flatMap] at h
  obtain ⟨c, hc, hmem⟩ := h
  have hzero := toNat_of_mem_utf8EncodeChar hmem (by decide)
  rw [utf16, List.mem_flatMap]
  refine ⟨c, hc, ?_⟩
  rw [utf16EncodeChar, if_pos (by rw [← hzero]; decide), ← hzero]
  exact List.mem_cons_self

theorem nulFree_of_decodedString (hzero : 0 ∉ units) (h : decodedString units = some text) : NulFree text := by
  obtain ⟨s, rfl, rfl⟩ := eq_of_decodedString h
  exact fun hmem => hzero (zero_mem_utf16 hmem)

theorem byteLength_of_decodedString (h : decodedString units = some text) : byteLength units = text.length := by
  obtain ⟨s, rfl, rfl⟩ := eq_of_decodedString h
  rw [byteLength, codePoints_utf16, List.flatMap_map]
  rfl

theorem validView_of_decodedString (hzero : 0 ∉ units) (h : decodedString units = some text) (minimum maximum : Nat) :
    validView text minimum maximum = (minimum ≤ byteLength units && byteLength units ≤ maximum) := by
  have hfree := nulFree_of_decodedString hzero h
  have hlength := byteLength_of_decodedString h
  obtain ⟨s, rfl, rfl⟩ := eq_of_decodedString h
  have hcontains : (utf8 s).contains 0 = false := by
    rw [List.contains_eq_mem, decide_eq_false_iff_not]
    exact hfree
  rw [validView, validUtf8_utf8, hcontains, hlength, Bool.not_false, Bool.and_true, Bool.and_true]

end Strings

section Members

variable {round : ℚ → ℚ} {members : List (Units × Value Units)} {read : List (List UInt8 × CJson)}

def member (members : List (Units × Value Units)) (name : Units) : Option (Value Units) :=
  (members.find? (fun entry => entry.1 = name)).map (·.2)

theorem decodedMembers_cons {name : Units} {value : Value Units}
    (h : decodedMembers round ((name, value) :: members) = some read) :
    ∃ text item rest, decodedString name = some text ∧ decoded round value = some item ∧
      decodedMembers round members = some rest ∧ read = (text, item) :: rest := by
  rw [decodedMembers] at h
  simp only [Option.bind_eq_bind, Option.bind_eq_some_iff, Option.some.injEq] at h
  obtain ⟨text, htext, item, hitem, rest, hrest, rfl⟩ := h
  exact ⟨text, item, rest, htext, hitem, hrest, rfl⟩

theorem names_decoded (h : decodedMembers round members = some read) (hzero : AllStringsOfMembers (0 ∉ ·) members) :
    (members.map (·.1)).map decodedString = (read.map (fun entry => cString entry.1)).map some := by
  induction members generalizing read with
  | nil =>
    cases h
    rfl
  | cons entry members ih =>
    obtain ⟨text, item, rest, htext, -, hrest, rfl⟩ := decodedMembers_cons h
    rw [List.map_cons, List.map_cons, List.map_cons, List.map_cons, ih hrest hzero.2.2, htext,
      cString_of_nulFree (nulFree_of_decodedString hzero.1 htext)]

theorem getObjectItem_decoded (h : decodedMembers round members = some read)
    (hzero : AllStringsOfMembers (0 ∉ ·) members) (name : List Char) :
    getObjectItem read (utf8 name) = (member members (utf16 name)).bind (decoded round) := by
  induction members generalizing read with
  | nil =>
    cases h
    rfl
  | cons entry members ih =>
    obtain ⟨text, item, rest, htext, hitem, hrest, rfl⟩ := decodedMembers_cons h
    have htail := ih hrest hzero.2.2
    rw [getObjectItem, member] at htail
    rw [getObjectItem, member, List.find?_cons, List.find?_cons,
      cString_of_nulFree (nulFree_of_decodedString hzero.1 htext)]
    by_cases hname : text = utf8 name
    · rw [hname, decodedString_eq_iff] at htext
      rw [decide_eq_true hname, decide_eq_true htext]
      exact hitem.symm
    · have hother : entry.1 ≠ utf16 name := by
        intro heq
        rw [heq, decodedString_utf16] at htext
        exact hname (Option.some.inj htext).symm
      rw [decide_eq_false hname, decide_eq_false hother]
      exact htail

theorem mem_of_member {name : Units} {value : Value Units} (h : member members name = some value) :
    (name, value) ∈ members := by
  rw [member, Option.map_eq_some_iff] at h
  obtain ⟨entry, hfind, rfl⟩ := h
  have hname := List.find?_some hfind
  rw [decide_eq_true_eq] at hname
  rw [← hname]
  exact List.mem_of_find?_eq_some hfind

theorem decoded_of_mem (h : decodedMembers round members = some read) {name : Units} {value : Value Units}
    (hmem : (name, value) ∈ members) : ∃ item, decoded round value = some item := by
  induction members generalizing read with
  | nil => cases hmem
  | cons entry members ih =>
    obtain ⟨_, item, _, -, hitem, hrest, -⟩ := decodedMembers_cons h
    rcases List.mem_cons.mp hmem with rfl | hmem
    · exact ⟨item, hitem⟩
    · exact ih hrest hmem

end Members

section Names

theorem fieldsOnce_iff {fields seen : List (List UInt8)} {read : List (List UInt8 × CJson)} :
    fieldsOnce fields seen read = true ↔ (read.map (fun entry => cString entry.1)).Nodup ∧
      ∀ name ∈ read.map (fun entry => cString entry.1), name ∈ fields ∧ name ∉ seen := by
  induction read generalizing seen with
  | nil => simp [fieldsOnce]
  | cons entry read ih =>
    rw [fieldsOnce, Bool.and_eq_true, Bool.and_eq_true, decide_eq_true_eq, decide_eq_true_eq, ih, List.map_cons,
      List.nodup_cons, List.forall_mem_cons]
    constructor
    · rintro ⟨hentry, hnodup, hrest⟩
      refine ⟨⟨fun hmem => (hrest _ hmem).2 List.mem_cons_self, hnodup⟩, hentry, fun name hmem => ?_⟩
      exact ⟨(hrest name hmem).1, fun hseen => (hrest name hmem).2 (List.mem_cons_of_mem _ hseen)⟩
    · rintro ⟨⟨hfirst, hnodup⟩, hentry, hrest⟩
      refine ⟨hentry, hnodup, fun name hmem => ⟨(hrest name hmem).1, fun hseen => ?_⟩⟩
      rcases List.mem_cons.mp hseen with rfl | hseen
      · exact hfirst hmem
      · exact (hrest name hmem).2 hseen

theorem exactFields_iff {fields : List (List UInt8)} {read : List (List UInt8 × CJson)} :
    exactFields fields read = true ↔ (read.map (fun entry => cString entry.1)).Nodup ∧
      (∀ name ∈ read.map (fun entry => cString entry.1), name ∈ fields) ∧ read.length = fields.length := by
  rw [exactFields, Bool.and_eq_true, fieldsOnce_iff, beq_iff_eq, and_assoc]
  simp

theorem hasExactKeys_iff {members : List (Units × JsValue)} {keys : List Units} (hkeys : keys.Nodup) :
    hasExactKeys members keys = true ↔ (members.map (·.1)).Nodup ∧ (∀ name ∈ members.map (·.1), name ∈ keys) ∧
      members.length = keys.length := by
  rw [hasExactKeys, decide_eq_true_eq, sorted_eq_iff]
  constructor
  · intro h
    refine ⟨h.nodup_iff.mpr hkeys, fun name hmem => h.mem_iff.mp hmem, ?_⟩
    rw [← h.length_eq, List.length_map]
  · rintro ⟨hnodup, hall, hlength⟩
    refine (List.subperm_of_subset hnodup hall).perm_of_length_le ?_
    rw [List.length_map, hlength]

variable {round : ℚ → ℚ} {members : List (Units × Value Units)} {read : List (List UInt8 × CJson)}

theorem decodedString_of_mem (h : decodedMembers round members = some read)
    (hzero : AllStringsOfMembers (0 ∉ ·) members) {name : Units} (hmem : name ∈ members.map (·.1)) :
    ∃ text ∈ read.map (fun entry => cString entry.1), decodedString name = some text := by
  have hdecoded := List.mem_map_of_mem (f := decodedString) hmem
  rw [names_decoded h hzero, List.mem_map] at hdecoded
  obtain ⟨text, htext, heq⟩ := hdecoded
  exact ⟨text, htext, heq.symm⟩

theorem name_of_mem (h : decodedMembers round members = some read) (hzero : AllStringsOfMembers (0 ∉ ·) members)
    {text : List UInt8} (hmem : text ∈ read.map (fun entry => cString entry.1)) :
    ∃ name ∈ members.map (·.1), decodedString name = some text := by
  have hdecoded := List.mem_map_of_mem (f := some) hmem
  rw [← names_decoded h hzero, List.mem_map] at hdecoded
  exact hdecoded

theorem utf16_injective : Function.Injective utf16 := fun s t h => by
  have htexts := congrArg textOfUnits h
  rwa [textOfUnits_utf16, textOfUnits_utf16, Option.some.injEq] at htexts

theorem mem_fields_iff {name : Units} {text : List UInt8} (h : decodedString name = some text)
    (fields : List (List Char)) : text ∈ fields.map utf8 ↔ name ∈ fields.map utf16 := by
  obtain ⟨s, rfl, rfl⟩ := eq_of_decodedString h
  rw [List.mem_map_of_injective utf8_injective, List.mem_map_of_injective utf16_injective]

theorem forall_names_decoded (h : decodedMembers round members = some read)
    (hzero : AllStringsOfMembers (0 ∉ ·) members) (fields : List (List Char)) :
    (∀ text ∈ read.map (fun entry => cString entry.1), text ∈ fields.map utf8) ↔
      ∀ name ∈ members.map (·.1), name ∈ fields.map utf16 := by
  constructor
  · intro hall name hmem
    obtain ⟨text, htext, heq⟩ := decodedString_of_mem h hzero hmem
    exact (mem_fields_iff heq fields).mp (hall text htext)
  · intro hall text hmem
    obtain ⟨name, hname, heq⟩ := name_of_mem h hzero hmem
    exact (mem_fields_iff heq fields).mpr (hall name hname)

theorem nodup_names_decoded (h : decodedMembers round members = some read)
    (hzero : AllStringsOfMembers (0 ∉ ·) members) :
    (read.map (fun entry => cString entry.1)).Nodup ↔ (members.map (·.1)).Nodup := by
  rw [← List.nodup_map_iff (Option.some_injective _), ← names_decoded h hzero]
  refine ⟨List.Nodup.of_map _, List.Nodup.map_on fun name hname other hother heq => ?_⟩
  obtain ⟨text, -, htext⟩ := decodedString_of_mem h hzero hname
  exact decodedString_injective htext (heq ▸ htext)

theorem length_decoded (h : decodedMembers round members = some read) (hzero : AllStringsOfMembers (0 ∉ ·) members) :
    read.length = members.length := by
  have hlength := congrArg List.length (names_decoded h hzero)
  simpa using hlength.symm

end Names

end MacroKeyboard.Web
