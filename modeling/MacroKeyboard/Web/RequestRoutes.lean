import MacroKeyboard.Web.Requests

namespace MacroKeyboard.Web

open Json Settings Auth Webapp JsValue

section Routes

/-- The routes whose bodies the pages make of their forms. -/
inductive RequestRoute
  | setup | settings | passwordChange
deriving DecidableEq, Repr

/-- What the firmware makes of a body of the route. -/
abbrev Requested : RequestRoute → Type
  | .setup => SetupRequest
  | .settings => SettingsUpdateRequest
  | .passwordChange => List UInt8 × List UInt8

def guards : RequestRoute → JsValue → Bool
  | .setup => isSetupRequest
  | .settings => isSettingsUpdateRequest
  | .passwordChange => isPasswordChangeRequest

/-- The names, texts, numbers and flags of a value, as a request of the route. -/
def sentBy : (route : RequestRoute) → JsValue → Option (Requested route)
  | .setup => sentSetup
  | .settings => sentSettings
  | .passwordChange => sentPasswords

def readBy : (route : RequestRoute) → CJson → Option (Requested route)
  | .setup => readSetup
  | .settings => readSettings
  | .passwordChange => readPasswords

def ValidFor : (route : RequestRoute) → Requested route → Prop
  | .setup => SetupValuesValid
  | .settings => UpdateValuesValid
  | .passwordChange => PasswordsValid

theorem agrees_route (round : ℚ → ℚ) (route : RequestRoute) :
    Agrees round (guards route) (sentBy route) (readBy route) (ValidFor route) := by
  cases route with
  | setup => exact agrees_setup
  | settings => exact agrees_settings
  | passwordChange => exact agrees_passwords

end Routes

section Handlers

/-- A device that can serve the routes: settings before setup, material for a setup,
and settings after it. -/
structure ReadyDevice where
  fresh : DeviceSettings
  fresh_valid : fresh.validate = .ok
  fresh_unprovisioned : fresh.provisioned = false
  material : AuthPasswordRecord
  current : DeviceSettings
  current_valid : current.validate = .ok
  current_provisioned : current.provisioned = true
  iterations : pbkdf2Iterations ≤ current.passwordIterations

def refusesSetup : Except SetupResult DeviceSettings → Bool
  | .error .malformedCode | .error .codeMismatch | .error .invalidDeviceName | .error .invalidApSsid
  | .error .invalidApPassphrase | .error .invalidAdminPassword => true
  | _ => false

/-- The request that the handler of a setup takes from a body, with the right code. -/
def setupTaken (device : ReadyDevice) (parse : CJsonParse) (body : List UInt8) : Option SetupRequest :=
  match setupRequestOfBody parse (jsonBodyMaxBytes + 1) body with
  | none => none
  | some request =>
    if ¬ passwordArgumentsValid request.adminPassword ∨
        refusesSetup (setupPrepareCandidate ⟨request.setupCode, false⟩ request device.fresh device.material) then none
    else some request

/-- The request that the handler of a settings update takes from a body. -/
def settingsTaken (device : ReadyDevice) (parse : CJsonParse) (body : List UInt8) : Option SettingsUpdateRequest :=
  match settingsUpdateRequestOfBody parse (jsonBodyMaxBytes + 1) body with
  | none => none
  | some request => if refusesUpdate (prepareUpdate device.current request) then none else some request

/-- The passwords that the handler of a change takes from a body, where the current
one has the key of the record. -/
def passwordsTaken (device : ReadyDevice) (parse : CJsonParse) (body : List UInt8) : Option (List UInt8 × List UInt8) :=
  match changePasswordOfBody parse (jsonBodyMaxBytes + 1) body with
  | none => none
  | some (currentPassword, newPassword) =>
    let record := passwordOf device.current
    if passwordChangeValidate device.current newPassword ≠ .ok then none
    else if passwordVerify (fun _ _ _ => record.hash) true currentPassword record ≠ .ok true then none
    else some (currentPassword, newPassword)

/-- The request that the firmware takes from a body of the route without refusing the
body, the shape or the value of a field. -/
def taken (device : ReadyDevice) (parse : CJsonParse) (route : RequestRoute) (body : List UInt8) :
    Option (Requested route) :=
  if body.length = 0 ∨ body.length > jsonBodyMaxBytes then none
  else
    match route with
    | .setup => setupTaken device parse body
    | .settings => settingsTaken device parse body
    | .passwordChange => passwordsTaken device parse body

variable {device : ReadyDevice} {parse : CJsonParse} {body : List UInt8}

theorem refusesSetup_check {c : Prop} [Decidable c] {e : SetupResult} {result : Except SetupResult DeviceSettings}
    (h : refusesSetup (.error e) = true) :
    refusesSetup (if c then .error e else result) = false ↔ ¬ c ∧ refusesSetup result = false := by
  split
  next hc =>
    rw [h]
    exact ⟨(fun hfalse => by cases hfalse), fun hboth => absurd hc hboth.1⟩
  next hc => exact ⟨fun hresult => ⟨hc, hresult⟩, And.right⟩

/-- With the right code a setup is taken exactly when the values of its fields are
valid. -/
theorem refusesSetup_setupPrepareCandidate (device : ReadyDevice) {request : SetupRequest} :
    refusesSetup (setupPrepareCandidate ⟨request.setupCode, false⟩ request device.fresh device.material) = false ↔
      SetupValuesValid request := by
  unfold setupPrepareCandidate
  rw [if_neg (not_not.mpr device.fresh_valid), if_neg (by rw [device.fresh_unprovisioned]; decide), if_neg (by simp),
    refusesSetup_check rfl, if_neg (by simp), refusesSetup_check rfl, refusesSetup_check rfl, refusesSetup_check rfl,
    refusesSetup_check rfl]
  simp only [not_not]
  constructor
  · rintro ⟨hcode, hname, hssid, hpassphrase, hpassword, -⟩
    exact ⟨hcode, hname, hssid, hpassphrase, hpassword⟩
  · intro h
    refine ⟨h.setupCode, h.deviceName, h.apSsid, h.apPassphrase, h.adminPassword, ?_⟩
    split
    · rfl
    · split
      · split <;> rfl
      · rfl

theorem passwordArgumentsValid_of_validView {password : List UInt8}
    (h : validView password passwordMinBytes passwordMaxBytes = true) : passwordArgumentsValid password = true := by
  simp only [validView, Bool.and_eq_true] at h
  simp only [passwordArgumentsValid, Bool.and_eq_true]
  exact h.1

theorem setupTaken_iff {request : SetupRequest} : setupTaken device parse body = some request ↔
    setupRequestOfBody parse (jsonBodyMaxBytes + 1) body = some request ∧ SetupValuesValid request := by
  unfold setupTaken
  cases setupRequestOfBody parse (jsonBodyMaxBytes + 1) body with
  | none => simp
  | some read =>
    dsimp only
    by_cases hvalid : SetupValuesValid read
    · have hrefuses := (refusesSetup_setupPrepareCandidate device).mpr hvalid
      rw [if_neg (not_or.mpr ⟨not_not.mpr (passwordArgumentsValid_of_validView hvalid.adminPassword), by simp [hrefuses]⟩)]
      refine ⟨fun h => ⟨h, ?_⟩, And.left⟩
      cases h
      exact hvalid
    · have hrefuses := mt (refusesSetup_setupPrepareCandidate device).mp hvalid
      rw [if_pos (Or.inr (by simpa using hrefuses))]
      refine ⟨(fun h => by cases h), fun h => ?_⟩
      cases h.1
      exact absurd h.2 hvalid

theorem settingsTaken_iff {request : SettingsUpdateRequest} : settingsTaken device parse body = some request ↔
    settingsUpdateRequestOfBody parse (jsonBodyMaxBytes + 1) body = some request ∧ UpdateValuesValid request := by
  unfold settingsTaken
  cases settingsUpdateRequestOfBody parse (jsonBodyMaxBytes + 1) body with
  | none => simp
  | some read =>
    have hrefuses : refusesUpdate (prepareUpdate device.current read) = false ↔ UpdateValuesValid read :=
      refusesUpdate_prepareUpdate device.current_valid device.current_provisioned
    dsimp only
    by_cases hvalid : UpdateValuesValid read
    · rw [if_neg (by simp [hrefuses.mpr hvalid])]
      refine ⟨fun h => ⟨h, ?_⟩, And.left⟩
      cases h
      exact hvalid
    · rw [if_pos (by simpa using mt hrefuses.mp hvalid)]
      refine ⟨(fun h => by cases h), fun h => ?_⟩
      cases h.1
      exact absurd h.2 hvalid

theorem passwordChangeValidate_iff (device : ReadyDevice) {newPassword : List UInt8} :
    passwordChangeValidate device.current newPassword = .ok ↔
      validView newPassword passwordMinBytes passwordMaxBytes = true := by
  unfold passwordChangeValidate
  rw [if_neg (not_or.mpr ⟨not_not.mpr device.current_valid, not_not.mpr device.current_provisioned⟩)]
  by_cases h : validView newPassword passwordMinBytes passwordMaxBytes = true
  · rw [if_neg (not_not.mpr h)]
    exact iff_of_true rfl h
  · rw [if_pos h]
    exact iff_of_false (by decide) h

theorem passwordVerify_iff (device : ReadyDevice) {currentPassword : List UInt8} :
    passwordVerify (fun _ _ _ => (passwordOf device.current).hash) true currentPassword (passwordOf device.current) =
      .ok true ↔ passwordArgumentsValid currentPassword = true := by
  have hiterations : ¬ (passwordOf device.current).iterations < pbkdf2Iterations := UInt32.not_lt.mpr device.iterations
  unfold passwordVerify
  by_cases h : passwordArgumentsValid currentPassword = true
  · rw [if_neg (not_or.mpr ⟨not_not.mpr h, hiterations⟩), if_neg (by decide)]
    simp [h]
  · rw [if_pos (Or.inl h)]
    exact iff_of_false (fun hok => by cases hok) h

theorem passwordsTaken_iff {passwords : List UInt8 × List UInt8} : passwordsTaken device parse body = some passwords ↔
    changePasswordOfBody parse (jsonBodyMaxBytes + 1) body = some passwords ∧ PasswordsValid passwords := by
  unfold passwordsTaken
  cases changePasswordOfBody parse (jsonBodyMaxBytes + 1) body with
  | none => simp
  | some read =>
    obtain ⟨currentPassword, newPassword⟩ := read
    dsimp only
    by_cases hnew : passwordChangeValidate device.current newPassword = .ok
    · rw [if_neg (not_not.mpr hnew)]
      by_cases hcurrent : passwordVerify (fun _ _ _ => (passwordOf device.current).hash) true currentPassword
          (passwordOf device.current) = .ok true
      · rw [if_neg (not_not.mpr hcurrent)]
        refine ⟨fun h => ⟨h, ?_⟩, And.left⟩
        cases h
        exact ⟨(passwordVerify_iff device).mp hcurrent, (passwordChangeValidate_iff device).mp hnew⟩
      · rw [if_pos hcurrent]
        refine ⟨(fun h => by cases h), fun h => ?_⟩
        cases h.1
        exact absurd ((passwordVerify_iff device).mpr h.2.current) hcurrent
    · rw [if_pos hnew]
      refine ⟨(fun h => by cases h), fun h => ?_⟩
      cases h.1
      exact absurd ((passwordChangeValidate_iff device).mpr h.2.new) hnew

theorem taken_iff {route : RequestRoute} {request : Requested route} : taken device parse route body = some request ↔
    (body ≠ [] ∧ body.length ≤ jsonBodyMaxBytes) ∧
      (parseExactBody parse (jsonBodyMaxBytes + 1) body).bind (readBy route) = some request ∧ ValidFor route request := by
  have hlimits : (body ≠ [] ∧ body.length ≤ jsonBodyMaxBytes) ↔
      ¬ (body.length = 0 ∨ body.length > jsonBodyMaxBytes) := by
    rw [not_or, not_lt, List.length_eq_zero_iff]
  unfold taken
  rw [hlimits]
  by_cases h : body.length = 0 ∨ body.length > jsonBodyMaxBytes
  · rw [if_pos h]
    exact ⟨(fun hnone => by cases hnone), fun hboth => absurd h hboth.1⟩
  · rw [if_neg h, and_iff_right h]
    cases route with
    | setup =>
      rw [show readBy .setup = readSetup from rfl, ← setupRequestOfBody_eq]
      exact setupTaken_iff
    | settings =>
      rw [show readBy .settings = readSettings from rfl, ← settingsUpdateRequestOfBody_eq]
      exact settingsTaken_iff
    | passwordChange =>
      rw [show readBy .passwordChange = readPasswords from rfl, ← changePasswordOfBody_eq]
      exact passwordsTaken_iff

end Handlers

section Written

variable {numberText : ℚ → List UInt8}

theorem length_utf8EncodeChar_pos (c : Char) : 0 < (String.utf8EncodeChar c).length := by
  rw [String.length_utf8EncodeChar]
  exact Char.utf8Size_pos c

theorem length_escapePoint_le (point : CodePoint) : (escapePoint point).length ≤ 6 * (encodedPoint point).length := by
  cases point with
  | lone unit => exact show 6 ≤ 6 * 3 by decide
  | scalar c =>
    have hpos := length_utf8EncodeChar_pos c
    unfold escapePoint encodedPoint
    dsimp only
    have hshort (letter : UInt8) : [backslash, letter].length ≤ 6 * (String.utf8EncodeChar c).length :=
      show 2 ≤ _ by omega
    split_ifs
    · exact hshort _
    · exact hshort _
    · exact hshort _
    · exact hshort _
    · exact hshort _
    · exact hshort _
    · exact hshort _
    · exact show 6 ≤ _ by omega
    · omega

theorem length_quoted_le (units : Units) : (quoted units).length ≤ 6 * byteLength units + 2 := by
  have hescape (points : List CodePoint) :
      (escapePoints points).length ≤ 6 * (points.flatMap encodedPoint).length := by
    induction points with
    | nil => exact Nat.le_refl 0
    | cons point points ih =>
      have hfirst := length_escapePoint_le point
      rw [escapePoints, List.flatMap_cons, ← escapePoints, List.flatMap_cons, List.length_append, List.length_append]
      omega
  have hunits := hescape (codePoints units)
  rw [quoted, List.cons_append, List.length_cons, List.length_append, List.length_singleton, byteLength]
  omega

/-- The browser writes the value, in so many bytes, and its numbers are small. -/
def Sends (numberText : ℚ → List UInt8) (x : JsValue) (limit : Nat) : Prop :=
  ∃ json, x.toJson = some json ∧ AllNumbers (fun q => ∃ n : ℕ, q = n ∧ n ≤ 100) json ∧
    (stringify numberText json).length ≤ limit

theorem Sends.mono {x : JsValue} {limit larger : Nat} (h : Sends numberText x limit) (hle : limit ≤ larger) :
    Sends numberText x larger := by
  obtain ⟨json, hjson, hnumbers, hlength⟩ := h
  exact ⟨json, hjson, hnumbers, hlength.trans hle⟩

theorem sends_text {x : JsValue} {minimum maximum : Nat} (h : isStringWithinBytes x minimum maximum = true) :
    Sends numberText x (6 * maximum + 2) := by
  cases x with
  | string units =>
    simp only [isStringWithinBytes, Bool.and_eq_true, decide_eq_true_eq] at h
    have hlength := length_quoted_le units
    exact ⟨.string units, rfl, trivial, hlength.trans (by omega)⟩
  | _ => cases h

theorem sends_null : Sends numberText .null 4 := ⟨.null, rfl, trivial, le_rfl⟩

theorem sends_flag {x : JsValue} (h : isBoolean x = true) : Sends numberText x 5 := by
  cases x with
  | bool b =>
    refine ⟨.bool b, rfl, trivial, ?_⟩
    cases b with
    | false => exact show (ascii "false").length ≤ 5 by decide
    | true => exact show (ascii "true").length ≤ 5 by decide
  | _ => cases h

theorem byteLength_of_lt {units : Units} (h : ∀ unit ∈ units, unit < 0x80) : byteLength units = units.length := by
  induction units with
  | nil => rfl
  | cons unit units ih =>
    rw [List.forall_mem_cons] at h
    have hunit : unit.toNat < 0x80 := h.1
    have hplain : ¬ (IsHigh unit ∨ IsLow unit) := by
      rw [isHigh_iff, isLow_iff]
      omega
    have hchar := toNat_codePointOfUnit hplain
    have htail := ih h.2
    rw [byteLength] at htail
    rw [byteLength, codePoints_cons_unit hplain, List.flatMap_cons, List.length_append, htail, encodedPoint,
      utf8EncodeChar_of_le (by omega), List.length_singleton, List.length_cons, Nat.add_comm]

theorem sends_pattern {pattern : List (UInt16 → Bool)}
    (hascii : ∀ accepts ∈ pattern, ∀ unit, accepts unit = true → unit < 0x80) {x : JsValue}
    (h : matchesString pattern x = true) : Sends numberText x (6 * pattern.length + 2) := by
  cases x with
  | string units =>
    have hlength := length_quoted_le units
    have hbytes := byteLength_of_lt (lt_of_matches hascii h)
    have hunits := (matchesPattern_iff.mp h).1
    exact ⟨.string units, rfl, trivial, hlength.trans (by omega)⟩
  | _ => cases h

theorem sends_target (hnumber : ∀ n : ℕ, n ≤ 100 → numberText n = natText n) {x : JsValue}
    (h : isBoundedInteger x 0 v2Limits.snapshotRetentionTargetMax = true) : Sends numberText x 3 := by
  cases x with
  | number q =>
    obtain ⟨n, rfl, hn⟩ := (isBoundedInteger_iff (by decide)).mp h
    refine ⟨.number n, rfl, ⟨n, rfl, hn⟩, ?_⟩
    rw [stringify, hnumber n hn]
    exact length_natText_le (by decide) (Nat.lt_of_le_of_lt hn (by decide))
  | _ => cases h

theorem sends_members {members : List (Units × JsValue)} {nameLimit limit : Nat}
    (h : ∀ entry ∈ members, (quoted entry.1).length ≤ nameLimit ∧ Sends numberText entry.2 limit) :
    ∃ json, membersToJson members = some json ∧ AllNumbersOfMembers (fun q => ∃ n : ℕ, q = n ∧ n ≤ 100) json ∧
      (stringifyMembers numberText json).length ≤ members.length * (nameLimit + limit + 2) := by
  induction members with
  | nil => exact ⟨[], rfl, trivial, Nat.zero_le _⟩
  | cons entry members ih =>
    rw [List.forall_mem_cons] at h
    obtain ⟨⟨hname, first, hfirst, hnumber, hlength⟩, htail⟩ := h
    obtain ⟨rest, hrest, hnumbers, hlengths⟩ := ih htail
    refine ⟨(entry.1, first) :: rest, ?_, ⟨hnumber, hnumbers⟩, ?_⟩
    · rw [membersToJson, hfirst, hrest]
      rfl
    · rw [stringifyMembers, show (entry :: members).length = members.length + 1 from rfl, Nat.succ_mul]
      simp only [List.length_cons, List.length_append]
      omega

theorem sends_record (nameLimit limit count : Nat) {members : List (Units × JsValue)}
    (h : ∀ entry ∈ members, (quoted entry.1).length ≤ nameLimit ∧ Sends numberText entry.2 limit)
    (hcount : members.length ≤ count) : Sends numberText (.record members) (count * (nameLimit + limit + 2) + 2) := by
  obtain ⟨json, hjson, hnumbers, hlength⟩ := sends_members h
  refine ⟨.object json, by rw [toJson, hjson]; rfl, hnumbers, ?_⟩
  have hmul := Nat.mul_le_mul_right (nameLimit + limit + 2) hcount
  cases json with
  | nil => exact Nat.le_add_left 2 _
  | cons entry rest =>
    rw [stringifyMembers] at hlength
    rw [stringify]
    simp only [List.length_cons, List.length_append] at hlength ⊢
    simp only [List.length_nil]
    omega

theorem sends_entry {members : List (Units × JsValue)} (hnodup : (members.map (·.1)).Nodup) {entry : Units × JsValue}
    (hmem : entry ∈ members) {key : String} (hname : entry.1 = property key)
    (hshort : (quoted (property key)).length ≤ 40) {limit larger : Nat}
    (hvalue : Sends numberText (get members (property key)) limit) (hle : limit ≤ larger) :
    (quoted entry.1).length ≤ 40 ∧ Sends numberText entry.2 larger := by
  rw [← get_of_mem hnodup hmem, hname]
  exact ⟨hshort, hvalue.mono hle⟩

theorem sends_network {x : JsValue} (h : isNetworkCredentials x = true) : Sends numberText x 1000 := by
  cases x with
  | record members =>
    simp only [isNetworkCredentials, Bool.and_eq_true] at h
    obtain ⟨⟨hexact, hssid⟩, hpassphrase⟩ := h
    obtain ⟨hnodup, hnames, hlength⟩ := (hasExactKeys_iff (by decide)).mp hexact
    refine (sends_record 40 380 2 (fun entry hmem => ?_) hlength.le).mono (by decide)
    have hname := hnames entry.1 (List.mem_map_of_mem hmem)
    simp only [List.mem_cons, List.not_mem_nil, or_false] at hname
    rcases hname with hname | hname
    · exact sends_entry hnodup hmem hname (by decide +kernel) (sends_text hpassphrase) (by decide)
    · exact sends_entry hnodup hmem hname (by decide +kernel) (sends_text hssid) (by decide)
  | _ => cases h

theorem sends_setup {x : JsValue} (h : isSetupRequest x = true) : Sends numberText x 8192 := by
  cases x with
  | record members =>
    obtain ⟨hexact, hcode, hname, hssid, hpassphrase, hpassword, hflag⟩ := isSetupRequest_iff.mp h
    obtain ⟨hnodup, hnames, hlength⟩ := (hasExactKeys_iff (by decide)).mp hexact
    refine (sends_record 40 770 6 (fun entry hmem => ?_) hlength.le).mono (by decide)
    have hentry := hnames entry.1 (List.mem_map_of_mem hmem)
    simp only [setupKeys, List.mem_cons, List.not_mem_nil, or_false] at hentry
    rcases hentry with hentry | hentry | hentry | hentry | hentry | hentry
    · exact sends_entry hnodup hmem hentry (by decide +kernel) (sends_text hpassword) (by decide)
    · exact sends_entry hnodup hmem hentry (by decide +kernel) (sends_text hpassphrase) (by decide)
    · exact sends_entry hnodup hmem hentry (by decide +kernel) (sends_text hssid) (by decide)
    · exact sends_entry hnodup hmem hentry (by decide +kernel) (sends_text hname) (by decide)
    · exact sends_entry hnodup hmem hentry (by decide +kernel) (sends_flag hflag) (by decide)
    · refine sends_entry hnodup hmem hentry (by decide +kernel) (sends_pattern (fun accepts hin unit hunit => ?_) hcode)
        (by decide)
      rw [List.eq_of_mem_replicate hin] at hunit
      exact lt_of_isDigit hunit
  | _ => cases h

theorem sends_passwordChange {x : JsValue} (h : isPasswordChangeRequest x = true) : Sends numberText x 8192 := by
  cases x with
  | record members =>
    simp only [isPasswordChangeRequest, Bool.and_eq_true] at h
    obtain ⟨⟨hexact, hcurrent⟩, hnew⟩ := h
    obtain ⟨hnodup, hnames, hlength⟩ := (hasExactKeys_iff (by decide)).mp hexact
    refine (sends_record 40 770 2 (fun entry hmem => ?_) hlength.le).mono (by decide)
    have hentry := hnames entry.1 (List.mem_map_of_mem hmem)
    simp only [passwordChangeKeys, List.mem_cons, List.not_mem_nil, or_false] at hentry
    rcases hentry with hentry | hentry
    · exact sends_entry hnodup hmem hentry (by decide +kernel) (sends_text hcurrent) (by decide)
    · exact sends_entry hnodup hmem hentry (by decide +kernel) (sends_text hnew) (by decide)
  | _ => cases h

theorem sends_nullable {guard : JsValue → Bool} {limit : Nat} (h : ∀ x, guard x = true → Sends numberText x limit)
    (hlimit : 4 ≤ limit) {x : JsValue} (hx : (isNull x || guard x) = true) : Sends numberText x limit := by
  rw [Bool.or_eq_true] at hx
  rcases hx with hx | hx
  · cases x with
    | null => exact sends_null.mono hlimit
    | _ => cases hx
  · exact h x hx

theorem guard_of_optionalField {members : List (Units × JsValue)} {entry : Units × JsValue} (hmem : entry ∈ members)
    {key : String} (hname : entry.1 = property key) {guard : JsValue → Bool}
    (h : optionalField members key guard = true) : guard (get members (property key)) = true := by
  have hown : hasOwn members (property key) = true :=
    List.any_eq_true.mpr ⟨entry, hmem, decide_eq_true hname⟩
  rw [optionalField, hown] at h
  exact h

theorem sends_settings (hnumber : ∀ n : ℕ, n ≤ 100 → numberText n = natText n) {x : JsValue} (hproper : x.Proper)
    (h : isSettingsUpdateRequest x = true) : Sends numberText x 8192 := by
  cases x with
  | record members =>
    obtain ⟨-, hallowed, hname, hflag, htarget, hpackage, hnetwork, hstation⟩ := isSettingsUpdateRequest_iff.mp h
    have hnodup := hproper.1
    have hnames : ∀ name ∈ members.map (·.1), name ∈ settingsUpdateKeys := by
      rw [List.forall_mem_map]
      intro entry hmem
      exact List.contains_iff_mem.mp (List.all_eq_true.mp hallowed entry hmem)
    have hlength : members.length ≤ 6 := by
      have hsub := (List.subperm_of_subset hnodup hnames).length_le
      rwa [List.length_map] at hsub
    refine (sends_record 40 1000 6 (fun entry hmem => ?_) hlength).mono (by decide)
    have hentry := hnames entry.1 (List.mem_map_of_mem hmem)
    simp only [settingsUpdateKeys, List.mem_cons, List.not_mem_nil, or_false] at hentry
    rcases hentry with hentry | hentry | hentry | hentry | hentry | hentry
    · exact sends_entry hnodup hmem hentry (by decide +kernel) (sends_network (guard_of_optionalField hmem hentry hnetwork))
        le_rfl
    · exact sends_entry hnodup hmem hentry (by decide +kernel) (sends_text (guard_of_optionalField hmem hentry hname))
        (by decide)
    · exact sends_entry hnodup hmem hentry (by decide +kernel)
        (sends_nullable (fun y hy => sends_pattern (fun _ hin _ => lt_of_uuidV4Pattern hin) hy) (by decide)
          (guard_of_optionalField hmem hentry hpackage)) (by decide)
    · exact sends_entry hnodup hmem hentry (by decide +kernel) (sends_flag (guard_of_optionalField hmem hentry hflag))
        (by decide)
    · exact sends_entry hnodup hmem hentry (by decide +kernel)
        (sends_target hnumber (guard_of_optionalField hmem hentry htarget)) (by decide)
    · exact sends_entry hnodup hmem hentry (by decide +kernel)
        (sends_nullable (fun y => sends_network) (by decide) (guard_of_optionalField hmem hentry hstation)) le_rfl
  | _ => cases h

theorem sends_route (hnumber : ∀ n : ℕ, n ≤ 100 → numberText n = natText n) {route : RequestRoute} {x : JsValue}
    (hproper : x.Proper) (h : guards route x = true) : Sends numberText x jsonBodyMaxBytes := by
  cases route with
  | setup => exact sends_setup h
  | settings => exact sends_settings hnumber hproper h
  | passwordChange => exact sends_passwordChange h

end Written

end MacroKeyboard.Web
