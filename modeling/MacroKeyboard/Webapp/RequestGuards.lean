import MacroKeyboard.Json.Text

namespace MacroKeyboard.Webapp

open Json

/-- A value of the script. A record is an object with the prototype of objects, by
its own properties in their order; `other` is a function, a symbol, a big integer
or an object with another prototype. -/
inductive JsValue
  | undefined | null | notFinite | other
  | bool (b : Bool)
  | number (q : ℚ)
  | string (units : Units)
  | array (items : List JsValue)
  | record (members : List (Units × JsValue))

namespace JsValue

mutual

/-- No record of the value has two properties of one name. -/
def Proper : JsValue → Prop
  | .array items => ProperItems items
  | .record members => (members.map (·.1)).Nodup ∧ ProperMembers members
  | _ => True

def ProperItems : List JsValue → Prop
  | [] => True
  | item :: items => item.Proper ∧ ProperItems items

def ProperMembers : List (Units × JsValue) → Prop
  | [] => True
  | (_, value) :: members => value.Proper ∧ ProperMembers members

/-- The value that `JSON.stringify` writes, of one that JSON has. -/
def toJson : JsValue → Option (Value Units)
  | .null => some .null
  | .bool b => some (.bool b)
  | .number q => some (.number q)
  | .string units => some (.string units)
  | .array items => (itemsToJson items).map .array
  | .record members => (membersToJson members).map .object
  | .undefined | .notFinite | .other => none

def itemsToJson : List JsValue → Option (List (Value Units))
  | [] => some []
  | item :: items => do
    let item ← item.toJson
    let items ← itemsToJson items
    some (item :: items)

def membersToJson : List (Units × JsValue) → Option (List (Units × Value Units))
  | [] => some []
  | (name, value) :: members => do
    let value ← value.toJson
    let members ← membersToJson members
    some ((name, value) :: members)

end

def get (members : List (Units × JsValue)) (name : Units) : JsValue :=
  ((members.find? (fun member => member.1 = name)).map (·.2)).getD .undefined

def hasOwn (members : List (Units × JsValue)) (name : Units) : Bool := members.any (fun member => member.1 = name)

/-- A member set in an object that `JSON.parse` builds. -/
def setMember (name : Units) (value : JsValue) : List (Units × JsValue) → List (Units × JsValue)
  | [] => [(name, value)]
  | member :: members =>
    if member.1 = name then (name, value) :: members else member :: setMember name value members

mutual

/-- What `JSON.parse` makes of a value, with its numbers rounded to what the script
holds. -/
def parsed (round : ℚ → ℚ) : Value Units → JsValue
  | .null => .null
  | .bool b => .bool b
  | .number q => .number (round q)
  | .string units => .string units
  | .array items => .array (parsedItems round items)
  | .object members => .record (parsedMembers round [] members)

def parsedItems (round : ℚ → ℚ) : List (Value Units) → List JsValue
  | [] => []
  | item :: items => parsed round item :: parsedItems round items

/-- The members after those set before, each replacing one of its name. -/
def parsedMembers (round : ℚ → ℚ) : List (Units × JsValue) → List (Units × Value Units) → List (Units × JsValue)
  | before, [] => before
  | before, (name, value) :: members =>
    parsedMembers round (setMember name (parsed round value) before) members

end

end JsValue

section Guards

open JsValue

def property (name : String) : Units := utf16 name.toList

/-- The names in the order of `sort`, by code units. -/
def sorted (names : List Units) : List Units := names.mergeSort (fun a b => decide (a ≤ b))

def hasExactKeys (members : List (Units × JsValue)) (keys : List Units) : Bool :=
  sorted (members.map (·.1)) = sorted keys

def hasOnlyAllowedKeys (members : List (Units × JsValue)) (keys : List Units) : Bool :=
  members.all (fun member => keys.contains member.1)

/-- The bytes of a code point for `TextEncoder`. -/
def encodedPoint : CodePoint → List UInt8
  | .scalar c => String.utf8EncodeChar c
  | .lone _ => [0xef, 0xbf, 0xbd]

def byteLength (units : Units) : Nat := ((codePoints units).flatMap encodedPoint).length

def isStringWithinBytes (value : JsValue) (minimum maximum : Nat) : Bool :=
  match value with
  | .string units => minimum ≤ byteLength units && byteLength units ≤ maximum
  | _ => false

/-- The string matches the pattern, one class for each code unit. -/
def matchesPattern : List (UInt16 → Bool) → Units → Bool
  | [], [] => true
  | accepts :: pattern, unit :: units => accepts unit && matchesPattern pattern units
  | _, _ => false

def isDigit (unit : UInt16) : Bool := 0x30 ≤ unit && unit ≤ 0x39
def isLowerHex (unit : UInt16) : Bool := isDigit unit || (0x61 ≤ unit && unit ≤ 0x66)
def isHyphen (unit : UInt16) : Bool := unit == 0x2d
def isFour (unit : UInt16) : Bool := unit == 0x34
def isVariant (unit : UInt16) : Bool := unit == 0x38 || unit == 0x39 || unit == 0x61 || unit == 0x62

def setupCodePattern : List (UInt16 → Bool) := List.replicate 8 isDigit

def uuidV4Pattern : List (UInt16 → Bool) :=
  List.replicate 8 isLowerHex ++ [isHyphen] ++ List.replicate 4 isLowerHex ++ [isHyphen, isFour] ++
    List.replicate 3 isLowerHex ++ [isHyphen, isVariant] ++ List.replicate 3 isLowerHex ++ [isHyphen] ++
    List.replicate 12 isLowerHex

def matchesString (pattern : List (UInt16 → Bool)) : JsValue → Bool
  | .string units => matchesPattern pattern units
  | _ => false

def isCanonicalUuidV4 (value : JsValue) : Bool := matchesString uuidV4Pattern value

def maxSafeInteger : ℕ := 2 ^ 53 - 1

def isBoundedInteger (value : JsValue) (minimum maximum : ℕ) : Bool :=
  match value with
  | .number q => q.den = 1 && |q| ≤ maxSafeInteger && (minimum : ℚ) ≤ q && q ≤ maximum
  | _ => false

def isBoolean : JsValue → Bool
  | .bool _ => true
  | _ => false

def isNull : JsValue → Bool
  | .null => true
  | _ => false

namespace v2Limits

def adminPasswordMinBytes : Nat := 12
def adminPasswordMaxBytes : Nat := 128
def snapshotRetentionTargetMax : Nat := 100
def macroSourceMaxBytes : Nat := 4096
def compiledActionsMax : Nat := 4096
def delayDirectiveMaxMs : Nat := 10000
def keyPressMaxMs : Nat := 10000
def interKeyMaxMs : Nat := 10000
def estimatedDurationMaxMs : Nat := 300000

end v2Limits

def isAdminPassword (value : JsValue) : Bool :=
  isStringWithinBytes value v2Limits.adminPasswordMinBytes v2Limits.adminPasswordMaxBytes

def isNetworkCredentials : JsValue → Bool
  | .record members =>
    hasExactKeys members [property "passphrase", property "ssid"] &&
      isStringWithinBytes (get members (property "ssid")) 1 32 &&
      isStringWithinBytes (get members (property "passphrase")) 8 63
  | _ => false

def setupKeys : List Units :=
  [property "adminPassword", property "apPassphrase", property "apSsid", property "deviceName",
    property "requireSerialConfirmation", property "setupCode"]

def isSetupRequest : JsValue → Bool
  | .record members =>
    hasExactKeys members setupKeys &&
      matchesString setupCodePattern (get members (property "setupCode")) &&
      isStringWithinBytes (get members (property "deviceName")) 1 32 &&
      isStringWithinBytes (get members (property "apSsid")) 1 32 &&
      isStringWithinBytes (get members (property "apPassphrase")) 8 63 &&
      isAdminPassword (get members (property "adminPassword")) &&
      isBoolean (get members (property "requireSerialConfirmation"))
  | _ => false

def optionalField (members : List (Units × JsValue)) (key : String) (validator : JsValue → Bool) : Bool :=
  !hasOwn members (property key) || validator (get members (property key))

def settingsUpdateKeys : List Units :=
  [property "accessPoint", property "deviceName", property "lastSelectedPackageId",
    property "requireSerialConfirmation", property "snapshotRetentionTarget", property "station"]

def isSettingsUpdateRequest : JsValue → Bool
  | .record members =>
    0 < members.length && hasOnlyAllowedKeys members settingsUpdateKeys &&
      optionalField members "deviceName" (fun candidate => isStringWithinBytes candidate 1 32) &&
      optionalField members "requireSerialConfirmation" isBoolean &&
      optionalField members "snapshotRetentionTarget"
        (fun candidate => isBoundedInteger candidate 0 v2Limits.snapshotRetentionTargetMax) &&
      optionalField members "lastSelectedPackageId" (fun candidate => isNull candidate || isCanonicalUuidV4 candidate) &&
      optionalField members "accessPoint" isNetworkCredentials &&
      optionalField members "station" (fun candidate => isNull candidate || isNetworkCredentials candidate)
  | _ => false

def passwordChangeKeys : List Units := [property "currentPassword", property "newPassword"]

def isPasswordChangeRequest : JsValue → Bool
  | .record members =>
    hasExactKeys members passwordChangeKeys && isAdminPassword (get members (property "currentPassword")) &&
      isAdminPassword (get members (property "newPassword"))
  | _ => false

end Guards

section Lemmas

open JsValue

theorem pairwise_sorted (names : List Units) : (sorted names).Pairwise (fun a b => decide (a ≤ b) = true) := by
  refine List.pairwise_mergeSort (fun a b c hab hbc => ?_) (fun a b => ?_) names
  · exact decide_eq_true (List.le_trans (of_decide_eq_true hab) (of_decide_eq_true hbc))
  · rw [Bool.or_eq_true, decide_eq_true_eq, decide_eq_true_eq]
    exact List.le_total a b

theorem sorted_eq_iff {names keys : List Units} : sorted names = sorted keys ↔ names.Perm keys := by
  constructor
  · intro h
    exact (List.mergeSort_perm names _).symm.trans ((List.Perm.of_eq h).trans (List.mergeSort_perm keys _))
  · intro h
    have hperm : (sorted names).Perm (sorted keys) :=
      (List.mergeSort_perm names _).trans (h.trans (List.mergeSort_perm keys _).symm)
    refine hperm.eq_of_pairwise (fun a b _ _ hab hba => ?_) (pairwise_sorted names) (pairwise_sorted keys)
    exact List.le_antisymm (of_decide_eq_true hab) (of_decide_eq_true hba)

theorem isBoundedInteger_iff {q : ℚ} {maximum : ℕ} (hsafe : maximum ≤ maxSafeInteger) :
    isBoundedInteger (.number q) 0 maximum = true ↔ ∃ n : ℕ, q = n ∧ n ≤ maximum := by
  simp only [isBoundedInteger, Bool.and_eq_true, decide_eq_true_eq, Nat.cast_zero]
  constructor
  · rintro ⟨⟨⟨hden, -⟩, hlow⟩, hhigh⟩
    have hnum : (q.num.toNat : ℤ) = q.num := Int.toNat_of_nonneg (Rat.num_nonneg.mpr hlow)
    have hq : q = (q.num.toNat : ℚ) := by
      rw [← Int.cast_natCast, hnum]
      exact (Rat.coe_int_num_of_den_eq_one hden).symm
    refine ⟨q.num.toNat, hq, ?_⟩
    rw [hq] at hhigh
    exact_mod_cast hhigh
  · rintro ⟨n, rfl, hn⟩
    refine ⟨⟨⟨Rat.den_natCast n, ?_⟩, Nat.cast_nonneg n⟩, by exact_mod_cast hn⟩
    rw [abs_of_nonneg (Nat.cast_nonneg n)]
    exact_mod_cast hn.trans hsafe

variable {round : ℚ → ℚ}

theorem setMember_of_notMem {name : Units} {value : JsValue} {before : List (Units × JsValue)}
    (h : name ∉ before.map (·.1)) : setMember name value before = before ++ [(name, value)] := by
  induction before with
  | nil => rfl
  | cons entry before ih =>
    rw [List.map_cons, List.mem_cons, not_or] at h
    rw [setMember, if_neg (Ne.symm h.1), ih h.2, List.cons_append]

theorem parsedMembers_append {before : List (Units × JsValue)} {members : List (Units × Value Units)}
    (h : (before.map (·.1) ++ members.map (·.1)).Nodup) :
    parsedMembers round before members = before ++ members.map (fun entry => (entry.1, parsed round entry.2)) := by
  induction members generalizing before with
  | nil => rw [parsedMembers, List.map_nil, List.append_nil]
  | cons entry members ih =>
    have hnew : entry.1 ∉ before.map (·.1) := by
      intro hmem
      exact (List.nodup_append.mp h).2.2 _ hmem _ List.mem_cons_self rfl
    rw [parsedMembers, setMember_of_notMem hnew, ih, List.append_assoc, List.map_cons, List.singleton_append]
    rw [List.map_append, List.append_assoc]
    exact h

theorem parsed_object {members : List (Units × Value Units)} (h : (members.map (·.1)).Nodup) :
    parsed round (.object members) = .record (members.map (fun entry => (entry.1, parsed round entry.2))) := by
  rw [parsed, parsedMembers_append (by simpa using h), List.nil_append]

theorem get_of_mem {members : List (Units × JsValue)} (hnodup : (members.map (·.1)).Nodup) {entry : Units × JsValue}
    (h : entry ∈ members) : get members entry.1 = entry.2 := by
  unfold JsValue.get
  cases hfind : members.find? (fun member => member.1 = entry.1) with
  | none =>
    rw [List.find?_eq_none] at hfind
    exact absurd (decide_eq_true rfl) (hfind entry h)
  | some found =>
    have hname := List.find?_some hfind
    rw [decide_eq_true_eq] at hname
    rw [List.inj_on_of_nodup_map hnodup (List.mem_of_find?_eq_some hfind) h hname]
    rfl

end Lemmas

end MacroKeyboard.Webapp
