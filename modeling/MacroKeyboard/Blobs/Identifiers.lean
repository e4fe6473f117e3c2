import MacroKeyboard.Blobs.Scan
import MacroKeyboard.Json.Stringify

namespace MacroKeyboard.Blobs

open Json Records.Decimal

section Printing

/-- `snprintf` of a text into a buffer of that size, when it fits. -/
def printed (size : Nat) (text : List UInt8) : Option (List UInt8) := if text.length < size then some text else none

def blobCreatedJsonMaxBytes : Nat := 128

/-- The identifier that `add_blob_list_entry` puts in the list. -/
def blobIdText (entry : BlobEntry) : Option (List UInt8) := printed (blobIdDigits + 1) (natText entry.id)

/-- The body that `send_blob_created` prints. -/
def blobCreatedJson (entry : BlobEntry) : Option (List UInt8) :=
  printed blobCreatedJsonMaxBytes
    (bytes "\x7b\"id\":\"" ++ natText entry.id ++ bytes "\",\"sizeBytes\":" ++ natText entry.storedBytes ++ bytes "\x7d")

end Printing

section Parsing

def webApiBlobItemPrefix : List UInt8 := bytes "/api/v1/blob/"
def webApiBlobIdDigits : Nat := 20

def webApiParseBlobId (uri : List UInt8) : Option Nat :=
  if ¬ webApiBlobItemPrefix.isPrefixOf uri ∨ 0x3f ∈ uri ∨ 0x23 ∈ uri ∨ 0x25 ∈ uri ∨ bytes "//" <:+: uri ∨
      bytes ".." <:+: uri then none
  else
    let value := uri.drop webApiBlobItemPrefix.length
    if value.length = 0 ∨ value.length > webApiBlobIdDigits ∨ value.head? = some 0x30 then none
    else parse uint64Max 0 value

theorem not_infix_append {b : UInt8} {front text : List UInt8} (hfront : ¬ [b, b] <:+: front) (htext : b ∉ text) :
    ¬ [b, b] <:+: front ++ text := by
  induction front with
  | nil => exact fun h => htext (h.subset List.mem_cons_self)
  | cons first front ih =>
    rw [List.infix_cons_iff, not_or] at hfront
    rw [List.cons_append, List.infix_cons_iff, not_or]
    refine ⟨fun h => ?_, ih hfront.2⟩
    rw [List.cons_prefix_cons] at h
    cases front with
    | nil => exact htext (h.2.subset List.mem_cons_self)
    | cons second front =>
      rw [List.cons_append, List.cons_prefix_cons] at h
      exact hfront.1 (List.cons_prefix_cons.mpr ⟨h.1, List.cons_prefix_cons.mpr ⟨h.2.1, List.nil_prefix⟩⟩)

end Parsing

section Digits

theorem head_natText_ne {value : Nat} (h : 0 < value) : (natText value).head? ≠ some 0x30 := by
  intro hhead
  have hvalue := digitsValue_natText value
  rw [head_natText hhead] at hvalue
  have hzero : digitsValue [0x30] = 0 := by decide
  omega

theorem padded_eq_natText {count value : Nat} (hcount : 0 < count) (h : value < 10 ^ count) :
    padded count value = List.replicate (count - (natText value).length) 0x30 ++ natText value := by
  induction count generalizing value with
  | zero => cases hcount
  | succ count ih =>
    rw [padded]
    by_cases hsmall : value < 10
    · rw [natText_of_lt hsmall, List.length_singleton, Nat.add_sub_cancel, Nat.div_eq_of_lt hsmall, Nat.mod_eq_of_lt hsmall]
      congr 1
      exact padded_zero count
    · have hpositive : 0 < count := by
        by_contra hzero
        rw [Nat.eq_zero_of_not_pos hzero] at h
        omega
      have hquotient : value / 10 < 10 ^ count := Nat.div_lt_of_lt_mul (by rwa [Nat.pow_succ, Nat.mul_comm] at h)
      have hfront := ih hpositive hquotient
      rw [hfront, natText_of_le (n := value) (by omega), List.length_append, List.length_singleton, Nat.add_sub_add_right,
        List.append_assoc]

theorem parse_natText {bound value count : Nat} (hcount : 0 < count) (h : value < 10 ^ count) (hbound : value ≤ bound) :
    parse bound 0 (natText value) = some value := by
  rw [← parse_replicate_append (count - (natText value).length), ← padded_eq_natText hcount h]
  exact parse_padded h hbound

theorem natText_of_parse {bound value : Nat} {text : List UInt8} (hlarge : 9 ≤ bound)
    (h : parse bound 0 text = some value) (hne : text ≠ []) (hhead : text.head? ≠ some 0x30) : text = natText value := by
  have htext := (padded_of_parse hlarge h).1
  rw [padded_eq_natText (List.length_pos_iff.mpr hne) (lt_of_parse h)] at htext
  cases hzeros : text.length - (natText value).length with
  | zero =>
    rw [hzeros, List.replicate_zero, List.nil_append] at htext
    exact htext.symm
  | succ zeros =>
    rw [hzeros, List.replicate_succ, List.cons_append] at htext
    rw [← htext] at hhead
    exact absurd rfl hhead

theorem notMem_natText {b : UInt8} (h : b < 0x30 ∨ 0x39 < b) (value : Nat) : b ∉ natText value := by
  intro hmem
  have hdigit := (digits_natText value).2 b hmem
  rw [UInt8.le_iff_toNat_le, UInt8.le_iff_toNat_le] at hdigit
  rw [UInt8.lt_iff_toNat_lt, UInt8.lt_iff_toNat_lt] at h
  omega

end Digits

section Codecs

def IsBlobId (blobId : Nat) : Prop := 0 < blobId ∧ blobId ≤ uint64Max

theorem length_natText_blobId {blobId : Nat} (h : IsBlobId blobId) : (natText blobId).length ≤ blobIdDigits :=
  length_natText_le (by decide) (lt_of_le_of_lt h.2 (by decide))

theorem blobIdText_eq {entry : BlobEntry} (h : IsBlobId entry.id) : blobIdText entry = some (natText entry.id) :=
  if_pos (Nat.lt_succ_of_le (length_natText_blobId h))

theorem webApiParseBlobId_natText {blobId : Nat} (h : IsBlobId blobId) :
    webApiParseBlobId (webApiBlobItemPrefix ++ natText blobId) = some blobId := by
  have hslash : ¬ bytes "//" <:+: webApiBlobItemPrefix ++ natText blobId :=
    not_infix_append (by decide) (notMem_natText (by decide) blobId)
  have hdot : ¬ bytes ".." <:+: webApiBlobItemPrefix ++ natText blobId :=
    not_infix_append (by decide) (notMem_natText (by decide) blobId)
  have hmem {b : UInt8} (hfront : b ∉ webApiBlobItemPrefix) (hb : b < 0x30 ∨ 0x39 < b) :
      b ∉ webApiBlobItemPrefix ++ natText blobId := by
    rw [List.mem_append, not_or]
    exact ⟨hfront, notMem_natText hb blobId⟩
  have hshape : ¬ (¬ webApiBlobItemPrefix.isPrefixOf (webApiBlobItemPrefix ++ natText blobId) ∨
      0x3f ∈ webApiBlobItemPrefix ++ natText blobId ∨ 0x23 ∈ webApiBlobItemPrefix ++ natText blobId ∨
      0x25 ∈ webApiBlobItemPrefix ++ natText blobId ∨ bytes "//" <:+: webApiBlobItemPrefix ++ natText blobId ∨
      bytes ".." <:+: webApiBlobItemPrefix ++ natText blobId) := by
    simp only [not_or, not_not]
    exact ⟨List.isPrefixOf_iff_prefix.mpr (List.prefix_append _ _), hmem (by decide) (by decide),
      hmem (by decide) (by decide), hmem (by decide) (by decide), hslash, hdot⟩
  rw [webApiParseBlobId, if_neg hshape]
  dsimp only
  have hsmall : blobId < 10 ^ blobIdDigits := lt_of_le_of_lt h.2 (by decide)
  rw [List.drop_left, if_neg, parse_natText (by decide) hsmall h.2]
  simp only [not_or, not_lt]
  exact ⟨fun hnil => (digits_natText blobId).1 (List.length_eq_zero_iff.mp hnil), length_natText_blobId h,
    head_natText_ne h.1⟩

theorem webApiParseBlobId_eq_some {uri : List UInt8} {blobId : Nat} (h : webApiParseBlobId uri = some blobId) :
    IsBlobId blobId ∧ uri = webApiBlobItemPrefix ++ natText blobId := by
  rw [webApiParseBlobId] at h
  dsimp only at h
  split_ifs at h with hshape hvalue
  simp only [not_or, not_not] at hshape hvalue
  obtain ⟨rest, rfl⟩ := List.isPrefixOf_iff_prefix.mp hshape.1
  rw [List.drop_left] at h hvalue
  have hne : rest ≠ [] := fun hnil => hvalue.1 (List.length_eq_zero_iff.mpr hnil)
  have htext := natText_of_parse (by decide) h hne hvalue.2.2
  refine ⟨⟨Nat.pos_of_ne_zero ?_, (padded_of_parse (by decide) h).2⟩, by rw [htext]⟩
  rintro rfl
  rw [htext] at hvalue
  exact hvalue.2.2 rfl

theorem parseFilename_or_temporary (name : Name) : parseFilename name = none ∨ parseTemporaryFilename name = none := by
  cases h : parseTemporaryFilename name with
  | none => exact Or.inr rfl
  | some blobId =>
    rw [(parseTemporaryFilename_eq_some h).1]
    exact Or.inl (parseFilename_temporary blobId)

theorem parseTemporaryFilename_iff {name : Name} {blobId : Nat} : parseTemporaryFilename name = some blobId ↔
    ∃ final, parseFilename final = some blobId ∧ name = final ++ bytes ".tmp" := by
  constructor
  · intro h
    obtain ⟨hname, hpositive, hmax⟩ := parseTemporaryFilename_eq_some h
    exact ⟨formatFilename blobId, parseFilename_format hpositive hmax, hname⟩
  · rintro ⟨final, hfinal, rfl⟩
    obtain ⟨hname, hpositive, hmax⟩ := parseFilename_eq_some hfinal
    rw [hname, ← formatTemporaryFilename]
    exact parseTemporaryFilename_format hpositive hmax

theorem blobCreatedJson_eq {entry : BlobEntry} (h : IsBlobId entry.id) (hsize : entry.storedBytes ≤ sizeMax) :
    blobCreatedJson entry = some (bytes "\x7b\"id\":\"" ++ natText entry.id ++ bytes "\",\"sizeBytes\":" ++
      natText entry.storedBytes ++ bytes "\x7d") := by
  refine if_pos ?_
  have hid := length_natText_blobId h
  have hstored : (natText entry.storedBytes).length ≤ 10 :=
    length_natText_le (by decide) (lt_of_le_of_lt hsize (by decide))
  have hfront : (bytes "\x7b\"id\":\"").length = 7 := by decide
  have hmiddle : (bytes "\",\"sizeBytes\":").length = 14 := by decide
  have hback : (bytes "\x7d").length = 1 := by decide
  rw [List.length_append, List.length_append, List.length_append, List.length_append, hfront, hmiddle, hback]
  rw [blobIdDigits] at hid
  rw [blobCreatedJsonMaxBytes]
  omega

/-- The codecs of identifiers: names of files, temporary names, and paths of requests. -/
theorem identifier_codecs :
    (∀ name blobId, parseFilename name = some blobId ↔ IsBlobId blobId ∧ name = formatFilename blobId) ∧
    (∀ name, parseFilename name = none ∨ parseTemporaryFilename name = none) ∧
    (∀ name blobId, parseTemporaryFilename name = some blobId ↔
      ∃ final, parseFilename final = some blobId ∧ name = final ++ bytes ".tmp") ∧
    (∀ entry : BlobEntry, IsBlobId entry.id → ∃ text, blobIdText entry = some text ∧
      (∀ uri, webApiParseBlobId uri = some entry.id ↔ uri = webApiBlobItemPrefix ++ text) ∧
      (entry.storedBytes ≤ sizeMax → blobCreatedJson entry = some (bytes "\x7b\"id\":\"" ++ text ++
        bytes "\",\"sizeBytes\":" ++ natText entry.storedBytes ++ bytes "\x7d"))) ∧
    ∀ uri blobId, webApiParseBlobId uri = some blobId → IsBlobId blobId := by
  refine ⟨fun name blobId => ⟨fun h => ?_, fun h => ?_⟩, parseFilename_or_temporary,
    fun name blobId => parseTemporaryFilename_iff, fun entry h => ?_, fun uri blobId h => (webApiParseBlobId_eq_some h).1⟩
  · obtain ⟨hname, hpositive, hmax⟩ := parseFilename_eq_some h
    exact ⟨⟨hpositive, hmax⟩, hname⟩
  · rw [h.2]
    exact parseFilename_format h.1.1 h.1.2
  · refine ⟨natText entry.id, blobIdText_eq h, fun uri => ⟨fun huri => (webApiParseBlobId_eq_some huri).2, ?_⟩,
      blobCreatedJson_eq h⟩
    rintro rfl
    exact webApiParseBlobId_natText h

end Codecs

end MacroKeyboard.Blobs
