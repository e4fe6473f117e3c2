import MacroKeyboard.Web.RequestRoutes

namespace MacroKeyboard.Web

open Json Settings Auth Webapp JsValue

section Plain

variable {round : ℚ → ℚ} {units : Units}

/-- A string that is a text without the zero character and without the characters of
its escape. -/
def PlainText (units : Units) : Prop :=
  ∃ text, textOfUnits units = some text ∧ Char.ofNat 0 ∉ text ∧ ¬ escapeText <:+: text

theorem plainText_iff : PlainText units ↔ (∃ text, textOfUnits units = some text) ∧ NoEscape units := by
  have hescape {text : List Char} (h : textOfUnits units = some text) :
      NoEscape units ↔ Char.ofNat 0 ∉ text ∧ ¬ escapeText <:+: text := by
    rw [NoEscape, eq_map_of_scalars h, ← escaped, infix_escaped, not_or]
  constructor
  · rintro ⟨text, htext, hplain⟩
    exact ⟨⟨text, htext⟩, (hescape htext).mpr hplain⟩
  · rintro ⟨⟨text, htext⟩, hplain⟩
    exact ⟨text, htext, (hescape htext).mp hplain⟩

theorem zero_notMem_of_plainText (h : PlainText units) : 0 ∉ units := by
  obtain ⟨text, htext, hzero, -⟩ := h
  rw [eq_utf16_of_textOfUnits htext, utf16, List.mem_flatMap]
  rintro ⟨c, hc, hmem⟩
  by_cases hcontrol : 0x20 ≤ c.toNat
  · exact zero_notMem_utf16EncodeChar hcontrol hmem
  · rw [utf16EncodeChar_of_lt (by omega), List.mem_singleton] at hmem
    have htoNat := congrArg UInt16.toNat hmem
    rw [UInt16.toNat_ofNat', Nat.mod_eq_of_lt (by omega)] at htoNat
    apply hzero
    rw [show (0 : Nat) = c.toNat from htoNat, Char.ofNat_toNat]
    exact hc

mutual

theorem decoded_isSome_iff : (value : Value Units) →
    ((∃ item, decoded round value = some item) ↔ AllStrings (fun units => ∃ text, textOfUnits units = some text) value)
  | .null => iff_of_true ⟨_, rfl⟩ trivial
  | .bool _ => iff_of_true ⟨_, rfl⟩ trivial
  | .number _ => iff_of_true ⟨_, rfl⟩ trivial
  | .string units => by simp [decoded, decodedString, AllStrings]
  | .array items => by
    rw [AllStrings, ← decodedItems_isSome_iff items, decoded]
    simp
  | .object members => by
    rw [AllStrings, ← decodedMembers_isSome_iff members, decoded]
    simp

theorem decodedItems_isSome_iff : (items : List (Value Units)) →
    ((∃ read, decodedItems round items = some read) ↔
      AllStringsOfItems (fun units => ∃ text, textOfUnits units = some text) items)
  | [] => iff_of_true ⟨_, rfl⟩ trivial
  | item :: items => by
    rw [AllStringsOfItems, ← decoded_isSome_iff item, ← decodedItems_isSome_iff items, decodedItems]
    simp [Option.bind_eq_some_iff]

theorem decodedMembers_isSome_iff : (members : List (Units × Value Units)) →
    ((∃ read, decodedMembers round members = some read) ↔
      AllStringsOfMembers (fun units => ∃ text, textOfUnits units = some text) members)
  | [] => iff_of_true ⟨_, rfl⟩ trivial
  | (name, value) :: members => by
    rw [AllStringsOfMembers, ← decoded_isSome_iff value, ← decodedMembers_isSome_iff members, decodedMembers]
    simp [Option.bind_eq_some_iff, decodedString]

end

variable (round) in
theorem allStrings_plainText_iff {numberText : ℚ → List UInt8} {value : Value Units}
    (hnumbers : AllNumbers (PlainNumber numberText) value) : AllStrings PlainText value ↔
      (∃ item, decoded round value = some item) ∧ containsEmbeddedNulEscape (stringify numberText value) = false := by
  have hplain : PlainText = fun units => (∃ text, textOfUnits units = some text) ∧ NoEscape units :=
    funext fun units => propext plainText_iff
  rw [hplain, allStrings_and, decoded_isSome_iff, ← not_infix_stringify value hnumbers,
    ← containsEmbeddedNulEscape_iff, Bool.not_eq_true]

end Plain

section Agreement

/-- What a body says: the value that it is a document of, if there is one. -/
inductive Says (body : List UInt8) : Option (Value Units) → Prop
  | document {json : Value Units} (h : DocumentText json body) : Says body (some json)
  | other (h : ∀ json, ¬ DocumentText json body) : Says body none

abbrev JavaScriptValue : Type := { value : JsValue // value.Proper }

variable {parse : CJsonParse} {round : ℚ → ℚ} {numberText : ℚ → List UInt8} {device : ReadyDevice} {route : RequestRoute}

theorem object_of_guards {x : JsValue} {json : Value Units} (h : guards route x = true) (hjson : x.toJson = some json) :
    ∃ members, json = .object members := by
  have hrecord : ∃ members, x = .record members := by
    cases x with
    | record members => exact ⟨members, rfl⟩
    | _ => cases route <;> cases h
  obtain ⟨members, rfl⟩ := hrecord
  rw [toJson, Option.map_eq_some_iff] at hjson
  obtain ⟨texts, -, rfl⟩ := hjson
  exact ⟨texts, rfl⟩

/-- What a guard accepts is taken as it is exactly when its texts are plain. -/
theorem taken_stringify_iff (hround : ∀ n : ℕ, n ≤ 100 → round n = n) (hnumber : ∀ n : ℕ, n ≤ 100 → numberText n = natText n)
    {x : JsValue} (hproper : x.Proper) (h : guards route x = true) {json : Value Units} (hjson : x.toJson = some json)
    (hparse : DocumentText json (stringify numberText json) → parse (stringify numberText json) = decoded round json) :
    (∃ request, taken device parse route (stringify numberText json) = some request ∧ sentBy route x = some request) ↔
      AllStrings PlainText json := by
  obtain ⟨written, hwritten, hsmall, hlength⟩ := sends_route hnumber hproper h
  cases hwritten.symm.trans hjson
  have hdocument : DocumentText json (stringify numberText json) := by
    refine documentText_stringify (hsmall.mono fun q hq => ?_)
    obtain ⟨n, rfl, hn⟩ := hq
    rw [hnumber n hn]
    exact numberText_natText n
  have hplain : AllNumbers (PlainNumber numberText) json := hsmall.mono fun q hq => by
    obtain ⟨n, rfl, hn⟩ := hq
    rw [PlainNumber, hnumber n hn]
    exact ne_backslash_of_mem_natText
  have hparsed : parsed round json = x := parsed_toJson hproper hjson (hsmall.mono fun q hq => by
    obtain ⟨n, rfl, hn⟩ := hq
    exact hround n hn)
  have hne : stringify numberText json ≠ [] := by
    obtain ⟨members, rfl⟩ := object_of_guards h hjson
    exact ne_nil_of_object hdocument
  simp only [taken_iff, parseExactBody_of_document hdocument hne (Nat.lt_succ_of_le hlength), hparse hdocument,
    allStrings_plainText_iff round hplain]
  constructor
  · rintro ⟨request, ⟨-, hread, -⟩, -⟩
    split at hread
    · cases hread
    next hescape =>
      obtain ⟨item, hitem, -⟩ := Option.bind_eq_some_iff.mp hread
      exact ⟨⟨item, hitem⟩, Bool.not_eq_true _ ▸ hescape⟩
  · rintro ⟨⟨item, hitem⟩, hescape⟩
    have hzero : AllStrings (0 ∉ ·) json :=
      ((allStrings_plainText_iff round hplain).mpr ⟨⟨item, hitem⟩, hescape⟩).mono fun _ => zero_notMem_of_plainText
    have hdistinct := distinct_of_toJson hproper hjson
    rw [← hparsed] at h ⊢
    obtain ⟨request, hread, hvalid, hsent⟩ := (agrees_route round route).taken hitem hzero hdistinct h
    refine ⟨request, ⟨⟨hne, hlength⟩, ?_, hvalid⟩, hsent⟩
    rw [if_neg (by rw [hescape]; decide), hitem]
    exact hread

theorem accepted_iff {body : List UInt8} {said : Option (Value Units)} (hmeant : Says body said)
    (hparse : parse body = said.bind (decoded round)) {request : Requested route}
    (h : taken device parse route body = some request) :
    (∃ json, said = some json ∧ guards route (parsed round json) = true) ↔ NulFree body := by
  constructor
  · rintro ⟨json, rfl, -⟩
    cases hmeant with
    | document hdocument => exact hdocument.nulFree
  · intro hfree
    obtain ⟨⟨hne, hlength⟩, hread, hvalid⟩ := taken_iff.mp h
    have hbounded : boundedBody (jsonBodyMaxBytes + 1) body = some body := by
      rw [boundedBody, cString_of_nulFree hfree, if_neg (not_or.mpr ⟨by omega, hne⟩)]
    rw [parseExactBody, hbounded] at hread
    dsimp only at hread
    split at hread
    · cases hread
    next hescape =>
      rw [hparse] at hread
      obtain ⟨item, hitem, hitemRead⟩ := Option.bind_eq_some_iff.mp hread
      obtain ⟨json, rfl, hdecoded⟩ := Option.bind_eq_some_iff.mp hitem
      cases hmeant with
      | document hdocument =>
        have hzero := zero_notMem_of_documentText hdocument (mt containsEmbeddedNulEscape_iff.mpr hescape)
        exact ⟨json, rfl, (agrees_route round route).accepted hdecoded hzero hitemRead hvalid⟩

/-- What the guard of a route accepts is taken by the firmware, as the same request,
exactly when its texts are plain; and a body that the firmware takes is accepted by
the guard exactly when it has no zero byte. -/
theorem requests_agree (parse : CJsonParse) (round : ℚ → ℚ) (numberText : ℚ → List UInt8)
    (hround : ∀ n : ℕ, n ≤ 100 → round n = n) (hnumber : ∀ n : ℕ, n ≤ 100 → numberText n = natText n)
    (device : ReadyDevice) (route : RequestRoute) :
    (∀ x : JavaScriptValue, guards route x.val = true → ∃ json, x.val.toJson = some json ∧
      ((DocumentText json (stringify numberText json) → parse (stringify numberText json) = decoded round json) →
        ((∃ request, taken device parse route (stringify numberText json) = some request ∧
            sentBy route x.val = some request) ↔ AllStrings PlainText json))) ∧
    ∀ body said, Says body said → parse body = said.bind (decoded round) →
      ∀ request, taken device parse route body = some request →
        ((∃ json, said = some json ∧ guards route (parsed round json) = true) ↔ NulFree body) := by
  refine ⟨fun x h => ?_, fun body said hmeant hparse request h => accepted_iff hmeant hparse h⟩
  obtain ⟨json, hjson, -, -⟩ := sends_route hnumber x.property h
  exact ⟨json, hjson, taken_stringify_iff hround hnumber x.property h hjson⟩

section Naming

def readyDevice : ReadyDevice where
  fresh := .initUnprovisioned
  fresh_valid := by decide +kernel
  fresh_unprovisioned := rfl
  material := passwordOf Device.Runs.runningSettings
  current := Device.Runs.runningSettings
  current_valid := by decide +kernel
  current_provisioned := rfl
  iterations := by decide

def naming (name : String) : Value Units := .object [(property "deviceName", .string (property name))]

def namingValue (name : String) : JavaScriptValue :=
  ⟨.record [(property "deviceName", .string (property name))], by simp [Proper, ProperMembers]⟩

def wholeText (q : ℚ) : List UInt8 := natText q.num.toNat

def namingBody (name : String) : List UInt8 := stringify wholeText (naming name)

def parseNaming (name : String) : CJsonParse := fun body =>
  if body = namingBody name then decoded id (naming name) else none

theorem requests_agree_desk : ∃ request, taken readyDevice (parseNaming "desk") .settings (namingBody "desk") = some request ∧
    sentBy .settings (namingValue "desk").val = some request := by
  have hagree := requests_agree (parseNaming "desk") id wholeText (fun _ _ => rfl)
    (fun n _ => by rw [wholeText, Rat.num_natCast, Int.toNat_natCast]) readyDevice .settings
  obtain ⟨json, hjson, hiff⟩ := hagree.1 (namingValue "desk") (by decide +kernel)
  cases hjson
  refine (hiff fun _ => if_pos rfl).mpr ⟨?_, ?_, trivial⟩
  · exact ⟨"deviceName".toList, textOfUnits_utf16 _, by decide, by decide⟩
  · exact ⟨"desk".toList, textOfUnits_utf16 _, by decide, by decide⟩

/-- A name that the guard accepts is refused by the firmware. -/
theorem accepted_name_refused : guards .settings (namingValue "\\u0000").val = true ∧
    (namingValue "\\u0000").val.toJson = some (naming "\\u0000") ∧
    DocumentText (naming "\\u0000") (namingBody "\\u0000") ∧
    parseNaming "\\u0000" (namingBody "\\u0000") = decoded id (naming "\\u0000") ∧
    taken readyDevice (parseNaming "\\u0000") .settings (namingBody "\\u0000") = none := by
  refine ⟨by decide +kernel, rfl, documentText_stringify ⟨trivial, trivial⟩, if_pos rfl, ?_⟩
  show settingsTaken readyDevice (parseNaming "\\u0000") (namingBody "\\u0000") = none
  decide +kernel

end Naming

end Agreement

end MacroKeyboard.Web
