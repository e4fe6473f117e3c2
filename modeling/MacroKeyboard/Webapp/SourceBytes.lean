import MacroKeyboard.FirmwareCompiler
import MacroKeyboard.Webapp.MacroCompiler

namespace MacroKeyboard.Webapp

open Json

section Encoding

/-- The bytes of a string for `TextEncoder`. -/
def encoded (units : Units) : List UInt8 := (codePoints units).flatMap encodedPoint

theorem byteLength_eq (units : Units) : byteLength units = (encoded units).length := rfl

@[simp] theorem encoded_nil : encoded [] = [] := rfl

theorem not_surrogate_of_lt {unit : UInt16} (h : unit < 0x80) : ¬ (IsHigh unit ∨ IsLow unit) := by
  rw [isHigh_iff, isLow_iff]
  have hlt : unit.toNat < 0x80 := h
  omega

theorem encodedPoint_of_lt {unit : UInt16} (h : unit < 0x80) :
    encodedPoint (.scalar (.ofNat unit.toNat)) = [unit.toUInt8] := by
  have hlt : unit.toNat < 0x80 := h
  have hchar := toNat_codePointOfUnit (not_surrogate_of_lt h)
  rw [encodedPoint, utf8EncodeChar_of_le (by omega), hchar]
  rfl

theorem encoded_cons {unit : UInt16} (h : unit < 0x80) (rest : Units) :
    encoded (unit :: rest) = unit.toUInt8 :: encoded rest := by
  rw [encoded, codePoints_cons_unit (not_surrogate_of_lt h), List.flatMap_cons, encodedPoint_of_lt h, ← encoded]
  rfl

theorem encoded_append {front : Units} (h : ∀ unit ∈ front, unit < 0x80) (rest : Units) :
    encoded (front ++ rest) = front.map UInt16.toUInt8 ++ encoded rest := by
  induction front with
  | nil => rfl
  | cons unit front ih =>
    rw [List.cons_append, encoded_cons (h unit List.mem_cons_self), List.map_cons, List.cons_append,
      ih fun other hmem => h other (List.mem_cons_of_mem _ hmem)]

theorem encoded_of_ascii {units : Units} (h : ∀ unit ∈ units, unit < 0x80) : encoded units = units.map UInt16.toUInt8 := by
  have happend := encoded_append h []
  rwa [List.append_nil, encoded_nil, List.append_nil] at happend

theorem codePoints_append {unit : UInt16} (h : unit < 0x80) (front rest : Units) :
    codePoints (front ++ unit :: rest) = codePoints front ++ codePoints (unit :: rest) := by
  induction front using codePoints.induct with
  | case1 => rfl
  | case2 first =>
    have hpair : ¬ (IsHigh first ∧ IsLow unit) := fun hpair => not_surrogate_of_lt h (Or.inr hpair.2)
    exact if_neg hpair
  | case3 first second front hpair ih =>
    rw [List.cons_append, List.cons_append, codePoints, if_pos hpair, ih, codePoints, if_pos hpair, List.cons_append]
  | case4 first second front hpair ih =>
    rw [List.cons_append] at ih
    rw [List.cons_append, List.cons_append, codePoints, if_neg hpair, ih, codePoints, if_neg hpair, List.cons_append]

theorem encoded_append_cons {unit : UInt16} (h : unit < 0x80) (front rest : Units) :
    encoded (front ++ unit :: rest) = encoded front ++ unit.toUInt8 :: encoded rest := by
  rw [← encoded_cons h, encoded, codePoints_append h, List.flatMap_append]
  rfl

theorem eq_of_mem_encodedPoint {unit : UInt16} {byte : UInt8}
    (h : byte ∈ encodedPoint (codePointOfUnit unit)) (hlow : byte < 0x80) : byte.toUInt16 = unit := by
  unfold codePointOfUnit at h
  split at h
  · simp only [encodedPoint, List.mem_cons, List.not_mem_nil, or_false] at h
    rcases h with rfl | rfl | rfl <;> exact absurd hlow (by decide)
  next hscalar =>
    have hbyte := toNat_of_mem_utf8EncodeChar h hlow
    rw [toNat_codePointOfUnit hscalar] at hbyte
    rw [← UInt16.toNat_inj, UInt8.toNat_toUInt16, hbyte]

theorem not_mem_encodedPoint_pair {high low : UInt16} (hhigh : IsHigh high) (hlow : IsLow low) {byte : UInt8}
    (h : byte ∈ String.utf8EncodeChar (charOfPair high low)) : ¬ byte < 0x80 := by
  intro hbyte
  have hsame := toNat_of_mem_utf8EncodeChar h hbyte
  rw [toNat_charOfPair hhigh hlow] at hsame
  have hlt := byte.toNat_lt
  omega

theorem mem_of_mem_encoded {units : Units} {byte : UInt8} (h : byte ∈ encoded units) (hlow : byte < 0x80) :
    byte.toUInt16 ∈ units := by
  unfold encoded at h
  induction units using codePoints.induct with
  | case1 => cases h
  | case2 unit =>
    rw [codePoints, List.flatMap_singleton] at h
    rw [eq_of_mem_encodedPoint h hlow]
    exact List.mem_singleton_self unit
  | case3 first second rest hpair ih =>
    rw [codePoints, if_pos hpair, List.flatMap_cons, List.mem_append] at h
    cases h with
    | inl h => exact absurd hlow (not_mem_encodedPoint_pair hpair.1 hpair.2 h)
    | inr h => exact List.mem_cons_of_mem _ (List.mem_cons_of_mem _ (ih h))
  | case4 first second rest hpair ih =>
    rw [codePoints, if_neg hpair, List.flatMap_cons, List.mem_append] at h
    cases h with
    | inl h =>
      rw [eq_of_mem_encodedPoint h hlow]
      exact List.mem_cons_self
    | inr h => exact List.mem_cons_of_mem _ (ih h)

/-- A text that does not begin with an ASCII character begins with a byte that is
not one. -/
theorem encoded_cons_of_le {unit : UInt16} (h : 0x80 ≤ unit) (rest : Units) :
    ∃ byte tail, encoded (unit :: rest) = byte :: tail ∧ 0x80 ≤ byte := by
  have hpoint : ∀ point more, (∀ byte ∈ encodedPoint point, ¬ byte < 0x80) → encodedPoint point ≠ [] →
      codePoints (unit :: rest) = point :: more →
      ∃ byte tail, encoded (unit :: rest) = byte :: tail ∧ 0x80 ≤ byte := by
    intro point more hbytes hne hpoints
    cases hencoded : encodedPoint point with
    | nil => exact absurd hencoded hne
    | cons byte tail =>
      refine ⟨byte, tail ++ more.flatMap encodedPoint, ?_, ?_⟩
      · rw [encoded, hpoints, List.flatMap_cons, hencoded, List.cons_append]
      · exact UInt8.not_lt.mp (hbytes byte (by rw [hencoded]; exact List.mem_cons_self))
  have hunit : ∀ byte ∈ encodedPoint (codePointOfUnit unit), ¬ byte < 0x80 := by
    intro byte hmem hlow
    have hsame := eq_of_mem_encodedPoint hmem hlow
    rw [← hsame, UInt16.le_iff_toNat_le, UInt8.toNat_toUInt16] at h
    exact absurd h (Nat.not_le.mpr hlow)
  have hne : ∀ point, encodedPoint point ≠ [] := by
    intro point
    cases point with
    | lone unit => simp [encodedPoint]
    | scalar c => exact String.utf8EncodeChar_ne_nil
  cases rest with
  | nil => exact hpoint _ [] hunit (hne _) rfl
  | cons second rest =>
    by_cases hpair : IsHigh unit ∧ IsLow second
    · refine hpoint (.scalar (charOfPair unit second)) (codePoints rest) (fun byte hmem => ?_) (hne _)
        (by rw [codePoints, if_pos hpair])
      rw [encodedPoint] at hmem
      exact not_mem_encodedPoint_pair hpair.1 hpair.2 hmem
    · exact hpoint _ _ hunit (hne _) (by rw [codePoints, if_neg hpair])

theorem head_encoded {byte : UInt8} (hlow : byte < 0x80) (units : Units) :
    (encoded units).head? = some byte ↔ units.head? = some byte.toUInt16 := by
  cases units with
  | nil => simp
  | cons unit rest =>
    rw [List.head?_cons, Option.some_inj]
    by_cases h : unit < 0x80
    · rw [encoded_cons h, List.head?_cons, Option.some_inj]
      constructor
      · rintro rfl
        have hlt : unit.toNat < 0x80 := UInt16.lt_iff_toNat_lt.mp h
        rw [← UInt16.toNat_inj, UInt8.toNat_toUInt16, UInt16.toNat_toUInt8]
        omega
      · rintro rfl
        rw [UInt8.toUInt8_toUInt16]
    · obtain ⟨first, tail, hencoded, hfirst⟩ := encoded_cons_of_le (UInt16.not_lt.mp h) rest
      rw [hencoded, List.head?_cons, Option.some_inj]
      constructor
      · rintro rfl
        exact absurd hlow (UInt8.not_lt.mpr hfirst)
      · rintro rfl
        refine absurd ?_ h
        rw [UInt16.lt_iff_toNat_lt, UInt8.toNat_toUInt16]
        exact UInt8.lt_iff_toNat_lt.mp hlow

theorem findIdx?_split {α : Type} [BEq α] [LawfulBEq α] {front rest : List α} {a : α} (h : a ∉ front) :
    (front ++ a :: rest).findIdx? (· == a) = some front.length := by
  induction front with
  | nil =>
    rw [List.nil_append, List.findIdx?_cons, beq_self_eq_true]
    rfl
  | cons b front ih =>
    rw [List.mem_cons, not_or] at h
    have hne : (b == a) = false := by simpa using Ne.symm h.1
    rw [List.cons_append, List.findIdx?_cons, hne, ih h.2]
    rfl

theorem findIdx?_none {α : Type} [BEq α] [LawfulBEq α] {units : List α} {a : α} (h : a ∉ units) :
    units.findIdx? (· == a) = none := by
  rw [List.findIdx?_eq_none_iff]
  rintro b hmem
  rw [beq_eq_false_iff_ne]
  rintro rfl
  exact h hmem

end Encoding

section Positions

open FirmwareCompiler

open MacroCompiler (Position nextAscii nextLine)

/-- A position behind ASCII characters, where the bytes of the source have the same
offset, line and column. -/
structure At (source : Units) (position : Position) : Prop where
  le : position.index ≤ source.length
  ascii : ∀ unit ∈ source.take position.index, unit < 0x80
  byteOffset : position.byteOffset = position.index
  located : v2Locate (encoded source) position.index = ⟨position.line, position.column⟩

variable {source : Units} {position : Position} {unit : UInt16} {chunk rest : Units}

theorem foldl_advance {units : Units} (line column : Nat)
    (h : ∀ unit ∈ units, unit < 0x80 ∧ unit ≠ MacroCompiler.asciiLineFeed) :
    (units.map UInt16.toUInt8).foldl SourcePosition.advance ⟨line, column⟩ = ⟨line, column + units.length⟩ := by
  induction units generalizing column with
  | nil => rfl
  | cons unit units ih =>
    have hne : unit.toUInt8 ≠ asciiLineFeed := by
      intro heq
      refine (h unit List.mem_cons_self).2 ?_
      have hlt : unit.toNat < 0x80 := UInt16.lt_iff_toNat_lt.mp (h unit List.mem_cons_self).1
      have hsame := congrArg UInt8.toNat heq
      rw [UInt16.toNat_toUInt8, Nat.mod_eq_of_lt (by omega)] at hsame
      rw [← UInt16.toNat_inj, hsame]
      rfl
    rw [List.map_cons, List.foldl_cons, SourcePosition.advance, if_neg hne,
      ih _ fun other hmem => h other (List.mem_cons_of_mem _ hmem), List.length_cons, Nat.add_assoc,
      Nat.add_comm 1]

theorem at_startPosition (source : Units) : At source MacroCompiler.startPosition where
  le := Nat.zero_le _
  ascii := by simp [MacroCompiler.startPosition]
  byteOffset := rfl
  located := rfl

namespace At

theorem encoded_eq (h : At source position) : encoded source =
    (source.take position.index).map UInt16.toUInt8 ++ encoded (source.drop position.index) := by
  rw [← encoded_append h.ascii, List.take_append_drop]

theorem length_map_take (h : At source position) :
    ((source.take position.index).map UInt16.toUInt8).length = position.index := by
  rw [List.length_map, List.length_take, min_eq_left h.le]

theorem drop_encoded (h : At source position) :
    (encoded source).drop position.index = encoded (source.drop position.index) := by
  rw [h.encoded_eq, List.drop_left' h.length_map_take]

theorem length_encoded (h : At source position) :
    (encoded source).length = position.index + (encoded (source.drop position.index)).length := by
  conv_lhs => rw [h.encoded_eq]
  rw [List.length_append, h.length_map_take]

theorem byteAt_eq (h : At source position) :
    byteAt (encoded source) position.index = (encoded (source.drop position.index)).headD 0 := by
  rw [byteAt, ← h.drop_encoded, List.getD_eq_getElem?_getD, List.headD_eq_head?_getD, List.head?_drop]

theorem getElem?_eq (h : source.drop position.index = unit :: rest) : source[position.index]? = some unit := by
  rw [← List.head?_drop, h, List.head?_cons]

theorem getElem?_succ_eq (h : source.drop position.index = unit :: rest) :
    source[position.index + 1]? = rest.head? := by
  rw [← List.head?_drop, ← List.drop_drop, h, List.drop_one, List.tail_cons]

theorem byteAt_of_cons (h : At source position) (hdrop : source.drop position.index = unit :: rest)
    (hunit : unit < 0x80) : byteAt (encoded source) position.index = unit.toUInt8 := by
  rw [h.byteAt_eq, hdrop, encoded_cons hunit, List.headD_cons]

theorem drop_succ_encoded (h : At source position) (hdrop : source.drop position.index = unit :: rest)
    (hunit : unit < 0x80) : (encoded source).drop (position.index + 1) = encoded rest := by
  rw [← List.drop_drop, h.drop_encoded, hdrop, encoded_cons hunit, List.drop_one, List.tail_cons]

theorem followedBy_iff (h : At source position) (hdrop : source.drop position.index = unit :: rest)
    (hunit : unit < 0x80) (byte : UInt8) (hlow : byte < 0x80) :
    followedBy (encoded source) position.index byte ↔ rest.head? = some byte.toUInt16 := by
  rw [← head_encoded hlow, ← h.drop_succ_encoded hdrop hunit, List.head?_drop, followedBy, byteAt,
    List.getD_eq_getElem?_getD]
  constructor
  · rintro ⟨hlt, rfl⟩
    rw [List.getElem?_eq_getElem hlt, Option.getD_some]
  · intro hsome
    obtain ⟨hlt, -⟩ := List.getElem?_eq_some_iff.mp hsome
    exact ⟨hlt, by rw [hsome, Option.getD_some]⟩

theorem ascii_append (h : At source position) (hdrop : source.drop position.index = chunk ++ rest)
    (hchunk : ∀ unit ∈ chunk, unit < 0x80) :
    ∀ unit ∈ source.take (position.index + chunk.length), unit < 0x80 := by
  intro unit hmem
  rw [List.take_add, hdrop, List.take_left, List.mem_append] at hmem
  exact hmem.elim (h.ascii unit) (hchunk unit)

theorem le_append (hle : position.index ≤ source.length) (hdrop : source.drop position.index = chunk ++ rest) :
    position.index + chunk.length ≤ source.length := by
  have hlength := congrArg List.length hdrop
  rw [List.length_drop, List.length_append] at hlength
  omega

theorem v2Locate_append (h : At source position) (hdrop : source.drop position.index = chunk ++ rest)
    (hchunk : ∀ unit ∈ chunk, unit < 0x80) : v2Locate (encoded source) (position.index + chunk.length) =
      (chunk.map UInt16.toUInt8).foldl SourcePosition.advance ⟨position.line, position.column⟩ := by
  have htake : (encoded source).take (position.index + chunk.length) =
      (encoded source).take position.index ++ chunk.map UInt16.toUInt8 := by
    rw [List.take_add, h.drop_encoded, hdrop, encoded_append hchunk, List.take_left' (List.length_map _)]
  rw [v2Locate, htake, List.foldl_append, ← v2Locate, h.located]

theorem next (h : At source position) (hdrop : source.drop position.index = chunk ++ rest)
    (hchunk : ∀ unit ∈ chunk, unit < 0x80 ∧ unit ≠ MacroCompiler.asciiLineFeed) :
    At source (nextAscii position chunk) where
  le := le_append h.le hdrop
  ascii := h.ascii_append hdrop fun unit hmem => (hchunk unit hmem).1
  byteOffset := congrArg (· + chunk.length) h.byteOffset
  located := by
    refine (h.v2Locate_append hdrop fun unit hmem => (hchunk unit hmem).1).trans ?_
    exact foldl_advance position.line position.column hchunk

theorem line (h : At source position)
    (hdrop : source.drop position.index = chunk ++ MacroCompiler.asciiLineFeed :: rest)
    (hchunk : ∀ unit ∈ chunk, unit < 0x80 ∧ unit ≠ MacroCompiler.asciiLineFeed) :
    At source (nextLine position (chunk.length + 1)) := by
  have hall : ∀ unit ∈ chunk ++ [MacroCompiler.asciiLineFeed], unit < 0x80 := by
    intro unit hmem
    rw [List.mem_append, List.mem_singleton] at hmem
    exact hmem.elim (fun hmem => (hchunk unit hmem).1) fun heq => heq ▸ by decide
  have hsplit : source.drop position.index = (chunk ++ [MacroCompiler.asciiLineFeed]) ++ rest := by
    rw [hdrop, List.append_assoc, List.singleton_append]
  have hlength : (chunk ++ [MacroCompiler.asciiLineFeed]).length = chunk.length + 1 := by
    rw [List.length_append, List.length_singleton]
  rw [← hlength]
  refine ⟨le_append h.le hsplit, h.ascii_append hsplit hall, congrArg (· + _) h.byteOffset, ?_⟩
  refine (h.v2Locate_append hsplit hall).trans ?_
  rw [List.map_append, List.foldl_append, foldl_advance position.line position.column hchunk]
  rfl

end At

end Positions

end MacroKeyboard.Webapp
