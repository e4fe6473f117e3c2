import MacroKeyboard.Executor.Task
import MacroKeyboard.Web.RequestsAgree
import MacroKeyboard.Webapp.CompilersAgree

namespace MacroKeyboard.Web

open Json Webapp Executor FirmwareCompiler

open LiteralText (TimingsOk)

section Body

def sourceField : List UInt8 := MacroKeyboard.bytes "source"
def keyPressMsField : List UInt8 := MacroKeyboard.bytes "keyPressMs"
def interKeyMsField : List UInt8 := MacroKeyboard.bytes "interKeyMs"

def exactSendFields (members : List (List UInt8 × CJson)) : Bool :=
  exactFields [sourceField, keyPressMsField, interKeyMsField] members

def numberToBoundedMs : Option CJson → Option UInt32
  | some (.number q) =>
    if q < 0 ∨ q > (uint32Max.toNat : ℚ) then none
    else
      let candidate := UInt32.ofNat ⌊q⌋.toNat
      if (candidate.toNat : ℚ) ≠ q then none else some candidate
  | _ => none

/-- `populate_request` of a send. -/
def populateSendRequest (members : List (List UInt8 × CJson)) : Option SendRequest := do
  let source ← stringViewFromItem (getObjectItem members sourceField)
  let keyPressMs ← numberToBoundedMs (getObjectItem members keyPressMsField)
  let interKeyMs ← numberToBoundedMs (getObjectItem members interKeyMsField)
  some { source, keyPressMs, interKeyMs }

/-- The request that `web_send_create_handle` compiles. -/
def sendRequestOfBody (parse : CJsonParse) (capacity : Nat) (body : List UInt8) : Option SendRequest :=
  match parseExactBody parse capacity body with
  | some (.object members) => if exactSendFields members then populateSendRequest members else none
  | _ => none

/-- The request that `send_create_handler` takes from a body, whose length it checks
before it reads it. -/
def sendTaken (parse : CJsonParse) (body : List UInt8) : Option SendRequest :=
  if body.length = 0 ∨ body.length > jsonBodyMaxBytes then none
  else sendRequestOfBody parse (jsonBodyMaxBytes + 1) body

/-- The request that the page of the macros makes of one. -/
def sendValue (source : Units) (timings : MacroCompileOptions) : Value Units :=
  .object [(property "source", .string source), (property "keyPressMs", .number timings.keyPressMs.toNat),
    (property "interKeyMs", .number timings.interKeyMs.toNat)]

end Body

section Reading

variable {parse : CJsonParse} {round : ℚ → ℚ} {numberText : ℚ → List UInt8} {source : Units} {timings : MacroCompileOptions}

theorem numberToBoundedMs_toNat (timing : UInt32) :
    numberToBoundedMs (some (.number (timing.toNat : ℚ))) = some timing := by
  have hmax : uint32Max.toNat = 2 ^ 32 - 1 := by decide
  have hlt := timing.toNat_lt
  have hle : ¬ ((timing.toNat : ℚ) < 0 ∨ (timing.toNat : ℚ) > (uint32Max.toNat : ℚ)) := by
    rw [not_or, not_lt, gt_iff_lt, not_lt, Nat.cast_le]
    exact ⟨Nat.cast_nonneg _, by omega⟩
  rw [numberToBoundedMs, if_neg hle, Int.floor_natCast, Int.toNat_natCast, UInt32.ofNat_toNat]
  exact if_neg (not_not.mpr rfl)

theorem plainText_property {name : String} (hzero : Char.ofNat 0 ∉ name.toList) (hescape : ¬ escapeText <:+: name.toList) :
    PlainText (property name) :=
  ⟨name.toList, textOfUnits_utf16 _, hzero, hescape⟩

theorem allStrings_sendValue : AllStrings PlainText (sendValue source timings) ↔ PlainText source := by
  have hsource : PlainText (property "source") := plainText_property (by decide) (by decide)
  have hkeyPress : PlainText (property "keyPressMs") := plainText_property (by decide) (by decide)
  have hinterKey : PlainText (property "interKeyMs") := plainText_property (by decide) (by decide)
  simp [sendValue, AllStrings, AllStringsOfMembers, hsource, hkeyPress, hinterKey]

theorem encoded_utf16 (text : List Char) : encoded (utf16 text) = utf8 text := by
  rw [encoded, codePoints_utf16, List.flatMap_map]
  rfl

theorem nulFree_of_plainText (h : PlainText source) : NulFree (encoded source) := by
  have hzero := zero_notMem_of_plainText h
  obtain ⟨text, htext, -, -⟩ := h
  rw [eq_utf16_of_textOfUnits htext] at hzero ⊢
  rw [encoded_utf16]
  exact fun hmem => hzero (zero_mem_utf16 hmem)

theorem decoded_sendValue (hround : ∀ n : ℕ, n ≤ 10000 → round n = n) (htimings : TimingsOk timings)
    (h : PlainText source) : decoded round (sendValue source timings) =
      some (.object [(sourceField, .string (encoded source)), (keyPressMsField, .number timings.keyPressMs.toNat),
        (interKeyMsField, .number timings.interKeyMs.toNat)]) := by
  have hpress : round (timings.keyPressMs.toNat : ℚ) = timings.keyPressMs.toNat := hround _ htimings.1
  have hinter : round (timings.interKeyMs.toNat : ℚ) = timings.interKeyMs.toNat := hround _ htimings.2
  have hsource : decodedString (property "source") = some sourceField := by decide
  have hkeyPress : decodedString (property "keyPressMs") = some keyPressMsField := by decide
  have hinterKey : decodedString (property "interKeyMs") = some interKeyMsField := by decide
  have htext : decodedString source = some (encoded source) := by
    obtain ⟨text, htext, -, -⟩ := h
    rw [eq_utf16_of_textOfUnits htext, encoded_utf16, decodedString_utf16]
  simp only [sendValue, decoded, decodedMembers, hsource, hkeyPress, hinterKey, htext, hpress, hinter, Option.map_some,
    Option.bind_eq_bind, Option.bind_some]

variable (timings) in
theorem populateSendRequest_sent (h : PlainText source) :
    populateSendRequest [(sourceField, .string (encoded source)), (keyPressMsField, .number timings.keyPressMs.toNat),
      (interKeyMsField, .number timings.interKeyMs.toNat)] =
      some ⟨encoded source, timings.keyPressMs, timings.interKeyMs⟩ := by
  have hitems (source : CJson) (keyPress interKey : CJson) :
      getObjectItem [(sourceField, source), (keyPressMsField, keyPress), (interKeyMsField, interKey)] sourceField = some source ∧
      getObjectItem [(sourceField, source), (keyPressMsField, keyPress), (interKeyMsField, interKey)] keyPressMsField =
        some keyPress ∧
      getObjectItem [(sourceField, source), (keyPressMsField, keyPress), (interKeyMsField, interKey)] interKeyMsField =
        some interKey := ⟨rfl, rfl, rfl⟩
  rw [populateSendRequest, (hitems _ _ _).1, (hitems _ _ _).2.1, (hitems _ _ _).2.2, numberToBoundedMs_toNat,
    numberToBoundedMs_toNat, stringViewFromItem, cString_of_nulFree (nulFree_of_plainText h)]
  rfl

theorem exactSendFields_sent (source keyPress interKey : CJson) :
    exactSendFields [(sourceField, source), (keyPressMsField, keyPress), (interKeyMsField, interKey)] = true := rfl

def sentBody (numberText : ℚ → List UInt8) (source : Units) (timings : MacroCompileOptions) : List UInt8 :=
  stringify numberText (sendValue source timings)

theorem allNumbers_sendValue {P : ℚ → Prop} (hpress : P timings.keyPressMs.toNat) (hinter : P timings.interKeyMs.toNat) :
    AllNumbers P (sendValue source timings) :=
  ⟨trivial, hpress, hinter, trivial⟩

variable (source) in
theorem sentBody_document (hnumber : ∀ n : ℕ, n ≤ 10000 → numberText n = natText n) (htimings : TimingsOk timings) :
    DocumentText (sendValue source timings) (sentBody numberText source timings) ∧
      AllNumbers (PlainNumber numberText) (sendValue source timings) := by
  have hpress : numberText timings.keyPressMs.toNat = natText timings.keyPressMs.toNat := hnumber _ htimings.1
  have hinter : numberText timings.interKeyMs.toNat = natText timings.interKeyMs.toNat := hnumber _ htimings.2
  refine ⟨documentText_stringify (allNumbers_sendValue ?_ ?_), allNumbers_sendValue ?_ ?_⟩
  · rw [hpress]
    exact numberText_natText _
  · rw [hinter]
    exact numberText_natText _
  · rw [PlainNumber, hpress]
    exact ne_backslash_of_mem_natText
  · rw [PlainNumber, hinter]
    exact ne_backslash_of_mem_natText

/-- The body is taken exactly when its source is plain and it fits, and then as it is. -/
theorem sendTaken_sentBody (hround : ∀ n : ℕ, n ≤ 10000 → round n = n)
    (hnumber : ∀ n : ℕ, n ≤ 10000 → numberText n = natText n) (htimings : TimingsOk timings)
    (hparse : DocumentText (sendValue source timings) (sentBody numberText source timings) →
      parse (sentBody numberText source timings) = decoded round (sendValue source timings)) (request : SendRequest) :
    sendTaken parse (sentBody numberText source timings) = some request ↔
      (PlainText source ∧ (sentBody numberText source timings).length ≤ jsonBodyMaxBytes) ∧
        request = ⟨encoded source, timings.keyPressMs, timings.interKeyMs⟩ := by
  obtain ⟨hdocument, hplain⟩ := sentBody_document source hnumber htimings
  have hne : sentBody numberText source timings ≠ [] := ne_nil_of_object hdocument
  by_cases hlength : (sentBody numberText source timings).length > jsonBodyMaxBytes
  · rw [sendTaken, if_pos (.inr hlength)]
    exact iff_of_false (fun hsome => by cases hsome) fun h => Nat.not_le.mpr hlength h.1.2
  have hread : sendTaken parse (sentBody numberText source timings) =
      sendRequestOfBody parse (jsonBodyMaxBytes + 1) (sentBody numberText source timings) :=
    if_neg (not_or.mpr ⟨mt List.length_eq_zero_iff.mp hne, hlength⟩)
  rw [hread, sendRequestOfBody,
    parseExactBody_of_document hdocument hne (Nat.lt_succ_of_le (Nat.not_lt.mp hlength)), hparse hdocument]
  by_cases htext : PlainText source
  · have hescape := ((allStrings_plainText_iff round hplain).mp (allStrings_sendValue.mpr htext)).2
    rw [← sentBody] at hescape
    rw [hescape, decoded_sendValue hround htimings htext]
    have hfields := exactSendFields_sent (.string (encoded source)) (.number timings.keyPressMs.toNat)
      (.number timings.interKeyMs.toNat)
    have hpopulated := populateSendRequest_sent timings htext
    simp only [Bool.false_eq_true, if_false, hfields, if_true, hpopulated, Option.some.injEq]
    exact ⟨fun h => ⟨⟨htext, Nat.not_lt.mp hlength⟩, h.symm⟩, fun h => h.2.symm⟩
  -- A surrogate without its partner is no text, and the escape is looked for first.
  have hnone : (if containsEmbeddedNulEscape (sentBody numberText source timings) then none
      else decoded round (sendValue source timings)) = none := by
    by_contra hsome
    rw [← ne_eq, Option.ne_none_iff_exists'] at hsome
    obtain ⟨item, hitem⟩ := hsome
    rw [Option.ite_none_left_eq_some, Bool.not_eq_true] at hitem
    exact htext (allStrings_sendValue.mp ((allStrings_plainText_iff round hplain).mpr ⟨⟨item, hitem.2⟩, hitem.1⟩))
  rw [hnone]
  exact iff_of_false (fun hsome => by cases hsome) fun h => htext h.1.1

end Reading

section Copying

def copying : Units := property "a\x7bENTER\x7d[\x7bCTRL\x7dc]"

def escaping : Units := property "\\u0000"

def parseSent (source : Units) : CJsonParse := fun body =>
  if body = sentBody wholeText source ⟨8, 15⟩ then decoded id (sendValue source ⟨8, 15⟩) else none

end Copying

end MacroKeyboard.Web
