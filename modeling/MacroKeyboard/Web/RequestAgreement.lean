import MacroKeyboard.Web.EscapeScan
import MacroKeyboard.Web.FieldAgreement
import MacroKeyboard.Web.Passwords

namespace MacroKeyboard.Web

open Json Settings Auth Webapp JsValue

section Sent

/-- The text that a value of the script sends, as bytes. -/
def sentText : JsValue → Option (List UInt8)
  | .string units => decodedString units
  | _ => none

def sentFlag : JsValue → Option Bool
  | .bool b => some b
  | _ => none

def sentTarget : JsValue → Option UInt8
  | .number q => if ((UInt8.ofNat ⌊q⌋.toNat).toNat : ℚ) = q then some (.ofNat ⌊q⌋.toNat) else none
  | _ => none

def sentNullable {α : Type} (sent : JsValue → Option α) : JsValue → Option (Option α)
  | .null => some none
  | value => (sent value).map some

def sentNetwork : JsValue → Option NetworkCredentials
  | .record members => do
    let ssid ← sentText (get members (property "ssid"))
    let passphrase ← sentText (get members (property "passphrase"))
    some { ssid, passphrase }
  | _ => none

def sentOptional {α : Type} (members : List (Units × JsValue)) (key : String) (sent : JsValue → Option α) :
    Option (Option α) :=
  if hasOwn members (property key) then (sent (get members (property key))).map some else some none

def sentSetup : JsValue → Option SetupRequest
  | .record members => do
    let setupCode ← sentText (get members (property "setupCode"))
    let deviceName ← sentText (get members (property "deviceName"))
    let apSsid ← sentText (get members (property "apSsid"))
    let apPassphrase ← sentText (get members (property "apPassphrase"))
    let adminPassword ← sentText (get members (property "adminPassword"))
    let requireSerialConfirmation ← sentFlag (get members (property "requireSerialConfirmation"))
    some { setupCode, deviceName, apSsid, apPassphrase, adminPassword, requireSerialConfirmation }
  | _ => none

def sentSettings : JsValue → Option SettingsUpdateRequest
  | .record members => do
    let deviceName ← sentOptional members "deviceName" sentText
    let requireSerialConfirmation ← sentOptional members "requireSerialConfirmation" sentFlag
    let snapshotRetentionTarget ← sentOptional members "snapshotRetentionTarget" sentTarget
    let lastSelectedPackageId ← sentOptional members "lastSelectedPackageId" (sentNullable sentText)
    let accessPoint ← sentOptional members "accessPoint" sentNetwork
    let station ← sentOptional members "station" (sentNullable sentNetwork)
    some
      { deviceName, requireSerialConfirmation, snapshotRetentionTarget, lastSelectedPackageId, accessPoint, station }
  | _ => none

def sentPasswords : JsValue → Option (List UInt8 × List UInt8)
  | .record members => do
    let currentPassword ← sentText (get members (property "currentPassword"))
    let newPassword ← sentText (get members (property "newPassword"))
    some (currentPassword, newPassword)
  | _ => none

end Sent

section Fields

/-- The guard of a field, what it sends, and how the firmware reads it and checks the
value: what the guard accepts is read and valid, and what is read and valid is
accepted, with the same value. -/
structure Agrees {α : Type} (round : ℚ → ℚ) (guard : JsValue → Bool) (sent : JsValue → Option α)
    (read : CJson → Option α) (valid : α → Prop) : Prop where
  absent : guard .undefined = false
  taken : ∀ {value item}, decoded round value = some item → AllStrings (0 ∉ ·) value → Distinct value →
    guard (parsed round value) = true → ∃ a, read item = some a ∧ valid a ∧ sent (parsed round value) = some a
  accepted : ∀ {value item a}, decoded round value = some item → AllStrings (0 ∉ ·) value → read item = some a →
    valid a → guard (parsed round value) = true

variable {round : ℚ → ℚ} {value : Value Units} {item : CJson}

/-- The value that an item of the firmware was decoded from. -/
def Behind (round : ℚ → ℚ) (value : Value Units) : CJson → Prop
  | .null => value = .null
  | .bool b => value = .bool b
  | .number q => ∃ written, value = .number written ∧ q = round written
  | .string text => ∃ units, value = .string units ∧ decodedString units = some text
  | .array read => ∃ items, value = .array items ∧ decodedItems round items = some read
  | .object read => ∃ members, value = .object members ∧ decodedMembers round members = some read

theorem behind_of_decoded (h : decoded round value = some item) : Behind round value item := by
  cases value with
  | number q =>
    cases h
    exact ⟨q, rfl, rfl⟩
  | string units =>
    rw [decoded, Option.map_eq_some_iff] at h
    obtain ⟨text, htext, rfl⟩ := h
    exact ⟨units, rfl, htext⟩
  | array items =>
    rw [decoded, Option.map_eq_some_iff] at h
    obtain ⟨read, hread, rfl⟩ := h
    exact ⟨items, rfl, hread⟩
  | object members =>
    rw [decoded, Option.map_eq_some_iff] at h
    obtain ⟨read, hread, rfl⟩ := h
    exact ⟨members, rfl, hread⟩
  | _ =>
    cases h
    rfl

theorem decoded_of_object {members : List (Units × Value Units)} (h : decoded round (.object members) = some item) :
    ∃ read, item = .object read ∧ decodedMembers round members = some read := by
  rw [decoded, Option.map_eq_some_iff] at h
  obtain ⟨read, hread, rfl⟩ := h
  exact ⟨read, rfl, hread⟩

/-- A field that is a string, with the tests of its two sides. -/
theorem agrees_string {guard : JsValue → Bool} {valid : List UInt8 → Prop}
    (hstring : ∀ x, guard x = true → ∃ units, x = .string units)
    (htests : ∀ units text, 0 ∉ units → decodedString units = some text → (guard (.string units) = true ↔ valid text)) :
    Agrees round guard sentText (fun item => stringViewFromItem (some item)) valid where
  absent := by
    by_contra h
    obtain ⟨units, heq⟩ := hstring _ (Bool.not_eq_false _ ▸ h)
    cases heq
  taken := by
    intro value item hdecoded hzero _ hguard
    obtain ⟨units, heq⟩ := hstring _ hguard
    cases value with
    | string source =>
      rw [decoded, Option.map_eq_some_iff] at hdecoded
      obtain ⟨text, htext, rfl⟩ := hdecoded
      refine ⟨text, ?_, (htests source text hzero htext).mp hguard, htext⟩
      rw [stringViewFromItem, cString_of_nulFree (nulFree_of_decodedString hzero htext)]
    | _ =>
      unfold parsed at heq
      cases heq
  accepted := by
    intro value item a hdecoded hzero hread hvalid
    cases item with
    | string text =>
      obtain ⟨units, rfl, htext⟩ := behind_of_decoded hdecoded
      rw [stringViewFromItem, cString_of_nulFree (nulFree_of_decodedString hzero htext)] at hread
      cases hread
      exact (htests units a hzero htext).mpr hvalid
    | _ => cases hread

theorem agrees_text (minimum maximum : Nat) :
    Agrees round (isStringWithinBytes · minimum maximum) sentText (fun item => stringViewFromItem (some item))
      (fun text => validView text minimum maximum = true) := by
  refine agrees_string (fun x h => ?_) fun units text hzero htext => ?_
  · cases x with
    | string units => exact ⟨units, rfl⟩
    | _ => cases h
  · rw [validView_of_decodedString hzero htext]
    rfl

theorem agrees_setupCode : Agrees round (matchesString setupCodePattern) sentText
    (fun item => stringViewFromItem (some item)) (fun code => validSetupCode code = true) := by
  refine agrees_string (fun x h => ?_) fun units text _ htext => matches_setupCode_iff htext
  cases x with
  | string units => exact ⟨units, rfl⟩
  | _ => cases h

theorem agrees_uuid : Agrees round isCanonicalUuidV4 sentText (fun item => stringViewFromItem (some item))
    (fun uuid => validUuidV4 uuid = true) := by
  refine agrees_string (fun x h => ?_) fun units text _ htext => matches_uuid_iff htext
  cases x with
  | string units => exact ⟨units, rfl⟩
  | _ => cases h

theorem agrees_flag : Agrees round isBoolean sentFlag readRequireConfirmation (fun _ => True) where
  absent := rfl
  taken := by
    intro value item hdecoded _ _ hguard
    cases value with
    | bool b =>
      cases hdecoded
      exact ⟨b, rfl, trivial, rfl⟩
    | _ =>
      unfold parsed at hguard
      cases hguard
  accepted := by
    intro value item a hdecoded _ hread _
    cases item with
    | bool b =>
      rw [show value = .bool b from behind_of_decoded hdecoded]
      rfl
    | _ => cases hread

theorem ofNat_floor (target : UInt8) : UInt8.ofNat ⌊(target.toNat : ℚ)⌋.toNat = target := by
  rw [Int.floor_natCast, Int.toNat_natCast, UInt8.ofNat_toNat]

theorem readSnapshotRetentionTarget_iff {q : ℚ} {target : UInt8} :
    readSnapshotRetentionTarget (.number q) = some target ↔ q = target.toNat := by
  unfold readSnapshotRetentionTarget settingsRetentionRawMax
  dsimp only
  constructor
  · intro h
    split at h
    · cases h
    split at h
    · cases h
    next heq =>
      cases h
      exact (not_not.mp heq).symm
  · rintro rfl
    have hlt := target.toNat_lt
    have hhigh : (target.toNat : ℚ) ≤ 255 := by exact_mod_cast (by omega : target.toNat ≤ 255)
    rw [if_neg (not_or.mpr ⟨not_lt.mpr (Nat.cast_nonneg _), not_lt.mpr hhigh⟩), ofNat_floor, if_neg (not_not.mpr rfl)]

theorem sentTarget_eq (target : UInt8) : sentTarget (.number target.toNat) = some target := by
  rw [sentTarget, ofNat_floor, if_pos rfl]

theorem agrees_target : Agrees round (isBoundedInteger · 0 v2Limits.snapshotRetentionTargetMax) sentTarget
    readSnapshotRetentionTarget (fun target => target ≤ Limits.snapshotRetentionTargetMax) where
  absent := rfl
  taken := by
    intro value item hdecoded _ _ hguard
    cases value with
    | number q =>
      cases hdecoded
      obtain ⟨n, hn, hmax⟩ := (isBoundedInteger_iff (by decide)).mp hguard
      unfold v2Limits.snapshotRetentionTargetMax at hmax
      have htoNat : (UInt8.ofNat n).toNat = n := by
        rw [UInt8.toNat_ofNat', Nat.mod_eq_of_lt (by omega)]
      have hq : round q = (UInt8.ofNat n).toNat := by rw [hn, htoNat]
      refine ⟨.ofNat n, readSnapshotRetentionTarget_iff.mpr hq, ?_, ?_⟩
      · rw [UInt8.le_iff_toNat_le, htoNat]
        exact hmax
      · rw [parsed, hq]
        exact sentTarget_eq _
    | _ =>
      unfold parsed at hguard
      cases hguard
  accepted := by
    intro value item a hdecoded _ hread hvalid
    cases item with
    | number q =>
      obtain ⟨written, rfl, rfl⟩ := behind_of_decoded hdecoded
      refine (isBoundedInteger_iff (by decide)).mpr ⟨a.toNat, readSnapshotRetentionTarget_iff.mp hread, ?_⟩
      rw [UInt8.le_iff_toNat_le] at hvalid
      exact hvalid
    | _ => cases hread

theorem parsed_ne_null (h : value ≠ .null) : isNull (parsed round value) = false := by
  cases value with
  | null => exact absurd rfl h
  | _ => rfl

theorem sentNullable_of_ne {α : Type} {sent : JsValue → Option α} {x : JsValue} (h : isNull x = false) :
    sentNullable sent x = (sent x).map some := by
  cases x with
  | null => cases h
  | _ => rfl

theorem Agrees.nullable {α : Type} {guard : JsValue → Bool} {sent : JsValue → Option α} {read : CJson → Option α}
    {valid : α → Prop} (h : Agrees round guard sent read valid) {readNullable : CJson → Option (Option α)}
    (hnull : readNullable .null = some none) (hother : ∀ item, item ≠ .null → readNullable item = (read item).map some) :
    Agrees round (fun x => isNull x || guard x) (sentNullable sent) readNullable
      (fun o => ∀ a, o = some a → valid a) where
  absent := by
    rw [h.absent]
    rfl
  taken := by
    intro value item hdecoded hzero hdistinct hguard
    by_cases hvalue : value = .null
    · subst hvalue
      cases hdecoded
      exact ⟨none, hnull, (fun _ heq => by cases heq), rfl⟩
    · rw [parsed_ne_null hvalue, Bool.false_or] at hguard
      obtain ⟨a, hread, hvalid, hsent⟩ := h.taken hdecoded hzero hdistinct hguard
      have hitem : item ≠ .null := by
        rintro rfl
        exact hvalue (behind_of_decoded hdecoded)
      refine ⟨some a, by rw [hother item hitem, hread]; rfl, fun b heq => ?_, ?_⟩
      · cases heq
        exact hvalid
      · rw [sentNullable_of_ne (parsed_ne_null hvalue), hsent]
        rfl
  accepted := by
    intro value item o hdecoded hzero hread hvalid
    by_cases hitem : item = .null
    · subst hitem
      rw [show value = .null from behind_of_decoded hdecoded]
      rfl
    · rw [hother item hitem, Option.map_eq_some_iff] at hread
      obtain ⟨a, hread, rfl⟩ := hread
      rw [h.accepted hdecoded hzero hread (hvalid a rfl), Bool.or_true]

end Fields

section Objects

variable {α : Type} {round : ℚ → ℚ} {members : List (Units × Value Units)} {read : List (List UInt8 × CJson)}
  {guard : JsValue → Bool} {sent : JsValue → Option α} {readItem : CJson → Option α} {valid : α → Prop}

def entries (round : ℚ → ℚ) (members : List (Units × Value Units)) : List (Units × JsValue) :=
  members.map (fun entry => (entry.1, parsed round entry.2))

/-- The firmware read the members, whose strings have no zero character. -/
structure ReadAs (round : ℚ → ℚ) (members : List (Units × Value Units)) (read : List (List UInt8 × CJson)) : Prop where
  made : decodedMembers round members = some read
  zero : AllStringsOfMembers (0 ∉ ·) members

theorem ReadAs.item (h : ReadAs round members read) {field : List UInt8} {key : String} (hfield : field = utf8 key.toList) :
    getObjectItem read field = (member members (property key)).bind (decoded round) := by
  rw [hfield, getObjectItem_decoded h.made h.zero]
  rfl

theorem ReadAs.zero_of_member (h : ReadAs round members read) {key : String} {value : Value Units}
    (hmember : member members (property key) = some value) : AllStrings (0 ∉ ·) value :=
  (allStringsOfMembers_iff.mp h.zero _ (mem_of_member hmember)).2

theorem get_entries (members : List (Units × Value Units)) (key : String) :
    get (entries round members) (property key) = ((member members (property key)).map (parsed round)).getD .undefined :=
  get_parsed members (property key)

theorem Agrees.required_taken (h : Agrees round guard sent readItem valid) (field : List UInt8) (key : String)
    (hread : ReadAs round members read)
    (hdistinct : DistinctMembers members) (hfield : field = utf8 key.toList)
    (hguard : guard (get (entries round members) (property key)) = true) :
    ∃ item a, getObjectItem read field = some item ∧ readItem item = some a ∧ valid a ∧
      sent (get (entries round members) (property key)) = some a := by
  rw [get_entries] at hguard ⊢
  rw [hread.item hfield]
  cases hmember : member members (property key) with
  | none =>
    have habsent : guard .undefined = true := by rwa [hmember] at hguard
    rw [h.absent] at habsent
    cases habsent
  | some value =>
    rw [hmember] at hguard
    have hmem := mem_of_member hmember
    obtain ⟨item, hitem⟩ := decoded_of_mem hread.made hmem
    obtain ⟨a, ha, hvalid, hsent⟩ :=
      h.taken hitem (hread.zero_of_member hmember) (distinctMembers_iff.mp hdistinct _ hmem) hguard
    exact ⟨item, a, hitem, ha, hvalid, hsent⟩

theorem Agrees.required_accepted (h : Agrees round guard sent readItem valid) (field : List UInt8) (key : String)
    (hread : ReadAs round members read)
    (hfield : field = utf8 key.toList) {item : CJson} {a : α} (hitem : getObjectItem read field = some item)
    (ha : readItem item = some a) (hvalid : valid a) : guard (get (entries round members) (property key)) = true := by
  rw [hread.item hfield, Option.bind_eq_some_iff] at hitem
  obtain ⟨value, hmember, hdecoded⟩ := hitem
  rw [get_entries, hmember]
  exact h.accepted hdecoded (hread.zero_of_member hmember) ha hvalid

theorem Agrees.optional_taken (h : Agrees round guard sent readItem valid) (field : List UInt8) (key : String)
    (hread : ReadAs round members read)
    (hdistinct : DistinctMembers members) (hfield : field = utf8 key.toList)
    (hguard : optionalField (entries round members) key guard = true) :
    ∃ o, populateOptional read field readItem = some o ∧ (∀ a ∈ o, valid a) ∧
      sentOptional (entries round members) key sent = some o := by
  have hown : hasOwn (entries round members) (property key) = (member members (property key)).isSome :=
    hasOwn_parsed members (property key)
  cases hmember : member members (property key) with
  | none =>
    refine ⟨none, ?_, (fun _ hmem => by cases hmem), ?_⟩
    · rw [populateOptional, hread.item hfield, hmember]
      rfl
    · rw [sentOptional, hown, hmember]
      rfl
  | some value =>
    rw [optionalField, hown, hmember] at hguard
    obtain ⟨item, a, hitem, ha, hvalid, hsent⟩ := h.required_taken field key hread hdistinct hfield hguard
    refine ⟨some a, ?_, fun b hmem => ?_, ?_⟩
    · rw [populateOptional, hitem]
      dsimp only
      rw [ha]
      rfl
    · cases hmem
      exact hvalid
    · rw [sentOptional, hown, hmember, if_pos (Option.isSome_some), hsent]
      rfl

theorem Agrees.optional_accepted (h : Agrees round guard sent readItem valid) (field : List UInt8) (key : String)
    (hread : ReadAs round members read)
    (hfield : field = utf8 key.toList) {o : Option α} (ho : populateOptional read field readItem = some o)
    (hvalid : ∀ a ∈ o, valid a) : optionalField (entries round members) key guard = true := by
  have hown : hasOwn (entries round members) (property key) = (member members (property key)).isSome :=
    hasOwn_parsed members (property key)
  rw [populateOptional] at ho
  cases hitem : getObjectItem read field with
  | none =>
    rw [hread.item hfield] at hitem
    cases hmember : member members (property key) with
    | none =>
      rw [optionalField, hown, hmember]
      rfl
    | some value =>
      rw [hmember] at hitem
      obtain ⟨item, hdecoded⟩ := decoded_of_mem hread.made (mem_of_member hmember)
      cases hdecoded.symm.trans hitem
  | some item =>
    rw [hitem] at ho
    dsimp only at ho
    rw [Option.map_eq_some_iff] at ho
    obtain ⟨a, ha, rfl⟩ := ho
    rw [optionalField, h.required_accepted field key hread hfield hitem ha (hvalid a rfl), Bool.or_true]

variable (round) in
theorem names_entries (members : List (Units × Value Units)) :
    (entries round members).map (·.1) = members.map (·.1) := by
  rw [entries, List.map_map]
  rfl

theorem ReadAs.exact_iff (h : ReadAs round members read) {fields keys : List (List Char)}
    (hperm : fields.Perm keys) (hkeys : keys.Nodup) :
    exactFields (fields.map utf8) read = true ↔ hasExactKeys (entries round members) (keys.map utf16) = true := by
  have hmem (name : Units) : name ∈ fields.map utf16 ↔ name ∈ keys.map utf16 := (hperm.map utf16).mem_iff
  rw [exactFields_iff, hasExactKeys_iff (hkeys.map utf16_injective), names_entries, nodup_names_decoded h.made h.zero,
    forall_names_decoded h.made h.zero, length_decoded h.made h.zero, List.length_map, List.length_map,
    hperm.length_eq, entries, List.length_map]
  simp only [hmem]

theorem ReadAs.nodup (h : ReadAs round members read) {fields : List (List UInt8)}
    (hfields : fieldsOnce fields [] read = true) : (members.map (·.1)).Nodup :=
  (nodup_names_decoded h.made h.zero).mp (fieldsOnce_iff.mp hfields).1

theorem fieldsOnce_of_exactFields {fields : List (List UInt8)} (h : exactFields fields read = true) :
    fieldsOnce fields [] read = true := by
  rw [exactFields, Bool.and_eq_true] at h
  exact h.1

end Objects

section Requests

variable {round : ℚ → ℚ}

/-- The limits on the name and the passphrase of a network. -/
structure NetworkValid (network : NetworkCredentials) : Prop where
  ssid : validView network.ssid 1 wifiSsidMaxBytes = true
  passphrase : validView network.passphrase wifiPassphraseMinBytes wifiPassphraseMaxBytes = true

/-- A reading of an object whose names the firmware asks for exactly. -/
def readExact {α : Type} (fields : List (List UInt8)) (readMembers : List (List UInt8 × CJson) → Option α) :
    CJson → Option α
  | .object members => if exactFields fields members then readMembers members else none
  | _ => none

theorem readExact_eq_some {α : Type} {fields : List (List UInt8)} {readMembers : List (List UInt8 × CJson) → Option α}
    {item : CJson} {a : α} (h : readExact fields readMembers item = some a) :
    ∃ read, item = .object read ∧ exactFields fields read = true ∧ readMembers read = some a := by
  cases item with
  | object read =>
    rw [readExact] at h
    split at h
    next hexact => exact ⟨read, rfl, hexact, h⟩
    · cases h
  | _ => cases h

theorem readAs_of_object {members : List (Units × Value Units)} {item : CJson}
    (h : decoded round (.object members) = some item) (hzero : AllStrings (0 ∉ ·) (.object members)) :
    ∃ read, item = .object read ∧ ReadAs round members read := by
  obtain ⟨read, rfl, hread⟩ := decoded_of_object h
  exact ⟨read, rfl, hread, hzero⟩

/-- A guard that takes records only, with exact keys, against a reading of the same
names. -/
theorem agrees_record {α : Type} {guard : JsValue → Bool} {sent : JsValue → Option α} {valid : α → Prop}
    {readMembers : List (List UInt8 × CJson) → Option α} (fields keys : List (List Char))
    (hperm : fields.Perm keys) (hkeys : keys.Nodup)
    (hrecord : ∀ x, guard x = true → ∃ members, x = .record members ∧ hasExactKeys members (keys.map utf16) = true)
    (htaken : ∀ members read, ReadAs round members read → DistinctMembers members →
      guard (.record (entries round members)) = true →
        ∃ a, readMembers read = some a ∧ valid a ∧ sent (.record (entries round members)) = some a)
    (haccepted : ∀ members read a, ReadAs round members read → readMembers read = some a → valid a →
      hasExactKeys (entries round members) (keys.map utf16) = true → guard (.record (entries round members)) = true) :
    Agrees round guard sent (readExact (fields.map utf8) readMembers) valid where
  absent := by
    by_contra h
    obtain ⟨members, heq, -⟩ := hrecord _ (Bool.not_eq_false _ ▸ h)
    cases heq
  taken := by
    intro value item hdecoded hzero hdistinct hguard
    obtain ⟨record, heq, hexact⟩ := hrecord _ hguard
    cases value with
    | object members =>
      obtain ⟨read, rfl, hread⟩ := readAs_of_object hdecoded hzero
      rw [parsed_object hdistinct.1] at hguard heq ⊢
      cases heq
      rw [readExact, if_pos ((hread.exact_iff hperm hkeys).mpr hexact)]
      exact htaken members read hread hdistinct.2 hguard
    | _ =>
      unfold parsed at heq
      cases heq
  accepted := by
    intro value item a hdecoded hzero hread hvalid
    obtain ⟨read, rfl, hexact, ha⟩ := readExact_eq_some hread
    obtain ⟨members, rfl, hmembers⟩ := behind_of_decoded hdecoded
    have hreadAs : ReadAs round members read := ⟨hmembers, hzero⟩
    rw [parsed_object (hreadAs.nodup (fieldsOnce_of_exactFields hexact))]
    exact haccepted members read a hreadAs ha hvalid ((hreadAs.exact_iff hperm hkeys).mp hexact)

def readNetwork (members : List (List UInt8 × CJson)) : Option NetworkCredentials := do
  let ssid ← stringViewFromItem (getObjectItem members ssidField)
  let passphrase ← stringViewFromItem (getObjectItem members passphraseField)
  some { ssid, passphrase }

theorem exactCredentialFields_eq : exactCredentialFields = readExact [ssidField, passphraseField] readNetwork := by
  funext item
  cases item <;> rfl

theorem item_of_stringView {read : List (List UInt8 × CJson)} {field text : List UInt8}
    (h : stringViewFromItem (getObjectItem read field) = some text) :
    ∃ item, getObjectItem read field = some item ∧ stringViewFromItem (some item) = some text := by
  cases hitem : getObjectItem read field with
  | none =>
    rw [hitem] at h
    cases h
  | some item => exact ⟨item, rfl, hitem ▸ h⟩

theorem agrees_network : Agrees round isNetworkCredentials sentNetwork exactCredentialFields NetworkValid := by
  rw [exactCredentialFields_eq]
  refine agrees_record ["ssid".toList, "passphrase".toList] ["passphrase".toList, "ssid".toList]
    (by decide) (by decide) (fun x h => ?_) (fun members read hread hdistinct h => ?_)
    (fun members read network hread hnetwork hvalid hexact => ?_)
  · cases x with
    | record members =>
      simp only [isNetworkCredentials, Bool.and_eq_true] at h
      exact ⟨members, rfl, h.1.1⟩
    | _ => cases h
  · simp only [isNetworkCredentials, Bool.and_eq_true] at h
    obtain ⟨ssid, ssidText, hssid, hssidText, hssidValid, hssidSent⟩ :=
      (agrees_text 1 32).required_taken ssidField "ssid" hread hdistinct (by decide) h.1.2
    obtain ⟨passphrase, passphraseText, hpassphrase, hpassphraseText, hpassphraseValid, hpassphraseSent⟩ :=
      (agrees_text 8 63).required_taken passphraseField "passphrase" hread hdistinct (by decide) h.2
    refine ⟨⟨ssidText, passphraseText⟩, ?_, ⟨hssidValid, hpassphraseValid⟩, ?_⟩
    · rw [readNetwork, hssid, hssidText, hpassphrase, hpassphraseText]
      rfl
    · rw [sentNetwork, hssidSent, hpassphraseSent]
      rfl
  · simp only [readNetwork, Option.bind_eq_bind, Option.bind_eq_some_iff, Option.some.injEq] at hnetwork
    obtain ⟨ssid, hssid, passphrase, hpassphrase, rfl⟩ := hnetwork
    obtain ⟨ssidItem, hssidItem, hssid⟩ := item_of_stringView hssid
    obtain ⟨passphraseItem, hpassphraseItem, hpassphrase⟩ := item_of_stringView hpassphrase
    have hfirst := (agrees_text 1 32).required_accepted ssidField "ssid" hread (by decide) hssidItem hssid hvalid.ssid
    have hsecond := (agrees_text 8 63).required_accepted passphraseField "passphrase" hread (by decide) hpassphraseItem
      hpassphrase hvalid.passphrase
    simp only [isNetworkCredentials, Bool.and_eq_true]
    exact ⟨⟨hexact, hfirst⟩, hsecond⟩

end Requests

end MacroKeyboard.Web
