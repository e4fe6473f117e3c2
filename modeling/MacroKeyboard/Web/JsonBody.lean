import MacroKeyboard.Json.Text
import MacroKeyboard.Limits

namespace MacroKeyboard.Web

open Json

def jsonBodyMaxBytes : Nat := 8192

abbrev CJson : Type := Value (List UInt8)

/-- `cJSON_ParseWithLengthOpts` of a whole document. -/
abbrev CJsonParse : Type := List UInt8 → Option CJson

def decodedString (units : Units) : Option (List UInt8) := (textOfUnits units).map utf8

mutual

/-- What `cJSON` makes of a value, with its numbers rounded to what it holds. -/
def decoded (round : ℚ → ℚ) : Value Units → Option CJson
  | .null => some .null
  | .bool b => some (.bool b)
  | .number q => some (.number (round q))
  | .string units => (decodedString units).map .string
  | .array items => (decodedItems round items).map .array
  | .object members => (decodedMembers round members).map .object

def decodedItems (round : ℚ → ℚ) : List (Value Units) → Option (List CJson)
  | [] => some []
  | item :: rest => do
    let item ← decoded round item
    let rest ← decodedItems round rest
    some (item :: rest)

def decodedMembers (round : ℚ → ℚ) : List (Units × Value Units) → Option (List (List UInt8 × CJson))
  | [] => some []
  | (name, value) :: rest => do
    let name ← decodedString name
    let value ← decoded round value
    let rest ← decodedMembers round rest
    some ((name, value) :: rest)

end

@[simp] theorem decodedString_utf16 (s : List Char) : decodedString (utf16 s) = some (utf8 s) := by
  rw [decodedString, textOfUnits_utf16, Option.map_some]

def cString (text : List UInt8) : List UInt8 := text.takeWhile (· ≠ 0)

theorem cString_of_nulFree {text : List UInt8} (h : NulFree text) : cString text = text := by
  rw [cString, List.takeWhile_eq_self_iff]
  intro b hmem
  rw [decide_eq_true_eq]
  rintro rfl
  exact h hmem

section Body

/-- `bounded_body_length`: the text of a body in a buffer of this capacity, with
zeros behind it. -/
def boundedBody (capacity : Nat) (body : List UInt8) : Option (List UInt8) :=
  if capacity ≤ (cString body).length ∨ cString body = [] then none else some (cString body)

def nulEscape : List UInt8 := [0x5c, 0x75, 0x30, 0x30, 0x30, 0x30]

def containsEmbeddedNulEscape : List UInt8 → Bool
  | [] => false
  | b :: rest => nulEscape.isPrefixOf (b :: rest) || containsEmbeddedNulEscape rest

/-- The body of a request as a document, read into a buffer of this capacity. -/
def parseExactBody (parse : CJsonParse) (capacity : Nat) (body : List UInt8) : Option CJson :=
  match boundedBody capacity body with
  | none => none
  | some text => if containsEmbeddedNulEscape text then none else parse text

theorem parseExactBody_of_document {parse : CJsonParse} {value : Value Units} {body : List UInt8}
    (h : DocumentText value body) (hne : body ≠ []) {capacity : Nat} (hfits : body.length < capacity) :
    parseExactBody parse capacity body = if containsEmbeddedNulEscape body then none else parse body := by
  have hbody : boundedBody capacity body = some body := by
    rw [boundedBody, cString_of_nulFree h.nulFree, if_neg (not_or.mpr ⟨by omega, hne⟩)]
  rw [parseExactBody, hbody]

end Body

section Fields

/-- The names of an object are among the fields, and none comes twice. -/
def fieldsOnce (fields seen : List (List UInt8)) : List (List UInt8 × CJson) → Bool
  | [] => true
  | (name, _) :: rest =>
    cString name ∈ fields && cString name ∉ seen && fieldsOnce fields (cString name :: seen) rest

def exactFields (fields : List (List UInt8)) (members : List (List UInt8 × CJson)) : Bool :=
  fieldsOnce fields [] members && members.length == fields.length

/-- `cJSON_GetObjectItemCaseSensitive`. -/
def getObjectItem (members : List (List UInt8 × CJson)) (name : List UInt8) : Option CJson :=
  (members.find? (fun member => cString member.1 = name)).map (·.2)

def stringViewFromItem : Option CJson → Option (List UInt8)
  | some (.string text) => some (cString text)
  | _ => none

end Fields

end MacroKeyboard.Web
