import MacroKeyboard.Web.RequestAgreement

namespace MacroKeyboard.Web

open Json Settings Auth Webapp JsValue

section Setup

variable {round : ℚ → ℚ}

structure SetupValuesValid (request : SetupRequest) : Prop where
  setupCode : validSetupCode request.setupCode = true
  deviceName : validView request.deviceName 1 deviceNameMaxBytes = true
  apSsid : validView request.apSsid 1 wifiSsidMaxBytes = true
  apPassphrase : validView request.apPassphrase wifiPassphraseMinBytes wifiPassphraseMaxBytes = true
  adminPassword : validView request.adminPassword passwordMinBytes passwordMaxBytes = true

def setupFields : List (List Char) :=
  ["setupCode".toList, "deviceName".toList, "apSsid".toList, "apPassphrase".toList, "adminPassword".toList,
    "requireSerialConfirmation".toList]

theorem populateSetupRequest_eq (members : List (List UInt8 × CJson)) : populateSetupRequest members = (do
    let setupCode ← stringViewFromItem (getObjectItem members setupCodeField)
    let deviceName ← stringViewFromItem (getObjectItem members setupDeviceNameField)
    let apSsid ← stringViewFromItem (getObjectItem members setupApSsidField)
    let apPassphrase ← stringViewFromItem (getObjectItem members setupApPassphraseField)
    let adminPassword ← stringViewFromItem (getObjectItem members setupAdminPasswordField)
    let requireSerialConfirmation ← (getObjectItem members setupConfirmationField).bind readRequireConfirmation
    some { setupCode, deviceName, apSsid, apPassphrase, adminPassword, requireSerialConfirmation }) := by
  unfold populateSetupRequest
  cases getObjectItem members setupConfirmationField with
  | none => rfl
  | some item => cases item <;> rfl

def readSetup : CJson → Option SetupRequest := readExact (setupFields.map utf8) populateSetupRequest

theorem setupRequestOfBody_eq (parse : CJsonParse) (capacity : Nat) (body : List UInt8) :
    setupRequestOfBody parse capacity body = (parseExactBody parse capacity body).bind readSetup := by
  have hfields : setupFields.map utf8 = [setupCodeField, setupDeviceNameField, setupApSsidField, setupApPassphraseField,
      setupAdminPasswordField, setupConfirmationField] := by decide
  unfold setupRequestOfBody readSetup exactSetupFields
  rw [hfields]
  cases parseExactBody parse capacity body with
  | none => rfl
  | some item => cases item <;> rfl

theorem isSetupRequest_iff {members : List (Units × JsValue)} : isSetupRequest (.record members) = true ↔
    hasExactKeys members setupKeys = true ∧ matchesString setupCodePattern (get members (property "setupCode")) = true ∧
      isStringWithinBytes (get members (property "deviceName")) 1 32 = true ∧
      isStringWithinBytes (get members (property "apSsid")) 1 32 = true ∧
      isStringWithinBytes (get members (property "apPassphrase")) 8 63 = true ∧
      isAdminPassword (get members (property "adminPassword")) = true ∧
      isBoolean (get members (property "requireSerialConfirmation")) = true := by
  simp only [isSetupRequest, Bool.and_eq_true, and_assoc]

theorem agrees_setup : Agrees round isSetupRequest sentSetup readSetup SetupValuesValid := by
  refine agrees_record setupFields ["adminPassword".toList, "apPassphrase".toList, "apSsid".toList, "deviceName".toList,
      "requireSerialConfirmation".toList, "setupCode".toList]
    (by decide) (by decide) (fun x h => ?_) (fun members read hread hdistinct h => ?_)
    (fun members read request hread hrequest hvalid hexact => ?_)
  · cases x with
    | record members => exact ⟨members, rfl, (isSetupRequest_iff.mp h).1⟩
    | _ => cases h
  · obtain ⟨-, hcode, hname, hssid, hpassphrase, hpassword, hflag⟩ := isSetupRequest_iff.mp h
    obtain ⟨codeItem, code, hcodeItem, hcode, hcodeValid, hcodeSent⟩ :=
      agrees_setupCode.required_taken setupCodeField "setupCode" hread hdistinct (by decide) hcode
    obtain ⟨nameItem, name, hnameItem, hname, hnameValid, hnameSent⟩ :=
      (agrees_text 1 32).required_taken setupDeviceNameField "deviceName" hread hdistinct (by decide) hname
    obtain ⟨ssidItem, ssid, hssidItem, hssid, hssidValid, hssidSent⟩ :=
      (agrees_text 1 32).required_taken setupApSsidField "apSsid" hread hdistinct (by decide) hssid
    obtain ⟨passphraseItem, passphrase, hpassphraseItem, hpassphrase, hpassphraseValid, hpassphraseSent⟩ :=
      (agrees_text 8 63).required_taken setupApPassphraseField "apPassphrase" hread hdistinct (by decide) hpassphrase
    obtain ⟨passwordItem, password, hpasswordItem, hpassword, hpasswordValid, hpasswordSent⟩ :=
      (agrees_text 12 128).required_taken setupAdminPasswordField "adminPassword" hread hdistinct (by decide) hpassword
    obtain ⟨flagItem, flag, hflagItem, hflag, -, hflagSent⟩ :=
      agrees_flag.required_taken setupConfirmationField "requireSerialConfirmation" hread hdistinct (by decide) hflag
    refine ⟨⟨code, name, ssid, passphrase, password, flag⟩, ?_,
      ⟨hcodeValid, hnameValid, hssidValid, hpassphraseValid, hpasswordValid⟩, ?_⟩
    · rw [populateSetupRequest_eq, hcodeItem, hcode, hnameItem, hname, hssidItem, hssid, hpassphraseItem, hpassphrase,
        hpasswordItem, hpassword, hflagItem, Option.bind_some, hflag]
      rfl
    · rw [sentSetup, hcodeSent, hnameSent, hssidSent, hpassphraseSent, hpasswordSent, hflagSent]
      rfl
  · rw [populateSetupRequest_eq] at hrequest
    simp only [Option.bind_eq_bind, Option.bind_eq_some_iff, Option.some.injEq] at hrequest
    obtain ⟨code, hcode, name, hname, ssid, hssid, passphrase, hpassphrase, password, hpassword, flag, hflag, rfl⟩ := hrequest
    obtain ⟨codeItem, hcodeItem, hcode⟩ := item_of_stringView hcode
    obtain ⟨nameItem, hnameItem, hname⟩ := item_of_stringView hname
    obtain ⟨ssidItem, hssidItem, hssid⟩ := item_of_stringView hssid
    obtain ⟨passphraseItem, hpassphraseItem, hpassphrase⟩ := item_of_stringView hpassphrase
    obtain ⟨passwordItem, hpasswordItem, hpassword⟩ := item_of_stringView hpassword
    obtain ⟨flagItem, hflagItem, hflag⟩ := hflag
    exact isSetupRequest_iff.mpr ⟨hexact,
      agrees_setupCode.required_accepted setupCodeField "setupCode" hread (by decide) hcodeItem hcode hvalid.setupCode,
      (agrees_text 1 32).required_accepted setupDeviceNameField "deviceName" hread (by decide) hnameItem hname
        hvalid.deviceName,
      (agrees_text 1 32).required_accepted setupApSsidField "apSsid" hread (by decide) hssidItem hssid hvalid.apSsid,
      (agrees_text 8 63).required_accepted setupApPassphraseField "apPassphrase" hread (by decide) hpassphraseItem
        hpassphrase hvalid.apPassphrase,
      (agrees_text 12 128).required_accepted setupAdminPasswordField "adminPassword" hread (by decide) hpasswordItem
        hpassword hvalid.adminPassword,
      agrees_flag.required_accepted setupConfirmationField "requireSerialConfirmation" hread (by decide) hflagItem hflag
        trivial⟩

end Setup

section PasswordChange

variable {round : ℚ → ℚ}

/-- The lengths that both passwords of a change may have. -/
structure PasswordsValid (passwords : List UInt8 × List UInt8) : Prop where
  current : passwordArgumentsValid passwords.1 = true
  new : validView passwords.2 passwordMinBytes passwordMaxBytes = true

def passwordChangeFields : List (List Char) := ["currentPassword".toList, "newPassword".toList]

def populatePasswords (members : List (List UInt8 × CJson)) : Option (List UInt8 × List UInt8) := do
  let currentPassword ← stringViewFromItem (getObjectItem members currentPasswordField)
  let newPassword ← stringViewFromItem (getObjectItem members newPasswordField)
  some (currentPassword, newPassword)

def readPasswords : CJson → Option (List UInt8 × List UInt8) :=
  readExact (passwordChangeFields.map utf8) populatePasswords

theorem changePasswordOfBody_eq (parse : CJsonParse) (capacity : Nat) (body : List UInt8) :
    changePasswordOfBody parse capacity body = (parseExactBody parse capacity body).bind readPasswords := by
  have hfields : passwordChangeFields.map utf8 = [currentPasswordField, newPasswordField] := by decide
  unfold changePasswordOfBody readPasswords exactChangePasswordFields
  rw [hfields]
  cases parseExactBody parse capacity body with
  | none => rfl
  | some item => cases item <;> rfl

theorem agrees_currentPassword : Agrees round isAdminPassword sentText (fun item => stringViewFromItem (some item))
    (fun password => passwordArgumentsValid password = true) := by
  refine agrees_string (fun x h => ?_) fun units text hzero htext => ?_
  · cases x with
    | string units => exact ⟨units, rfl⟩
    | _ => cases h
  · have hcontains : text.contains 0 = false := by
      rw [List.contains_eq_mem, decide_eq_false_iff_not]
      exact nulFree_of_decodedString hzero htext
    rw [passwordArgumentsValid, hcontains, Bool.not_false, Bool.and_true, ← byteLength_of_decodedString htext]
    rfl

theorem agrees_passwords : Agrees round isPasswordChangeRequest sentPasswords readPasswords PasswordsValid := by
  refine agrees_record passwordChangeFields passwordChangeFields (List.Perm.refl _) (by decide) (fun x h => ?_)
    (fun members read hread hdistinct h => ?_) (fun members read passwords hread hpasswords hvalid hexact => ?_)
  · cases x with
    | record members =>
      simp only [isPasswordChangeRequest, Bool.and_eq_true] at h
      exact ⟨members, rfl, h.1.1⟩
    | _ => cases h
  · simp only [isPasswordChangeRequest, Bool.and_eq_true] at h
    obtain ⟨currentItem, current, hcurrentItem, hcurrent, hcurrentValid, hcurrentSent⟩ :=
      agrees_currentPassword.required_taken currentPasswordField "currentPassword" hread hdistinct (by decide) h.1.2
    obtain ⟨newItem, new, hnewItem, hnew, hnewValid, hnewSent⟩ :=
      (agrees_text 12 128).required_taken newPasswordField "newPassword" hread hdistinct (by decide) h.2
    refine ⟨(current, new), ?_, ⟨hcurrentValid, hnewValid⟩, ?_⟩
    · rw [populatePasswords, hcurrentItem, hcurrent, hnewItem, hnew]
      rfl
    · rw [sentPasswords, hcurrentSent, hnewSent]
      rfl
  · simp only [populatePasswords, Option.bind_eq_bind, Option.bind_eq_some_iff, Option.some.injEq] at hpasswords
    obtain ⟨current, hcurrent, new, hnew, rfl⟩ := hpasswords
    obtain ⟨currentItem, hcurrentItem, hcurrent⟩ := item_of_stringView hcurrent
    obtain ⟨newItem, hnewItem, hnew⟩ := item_of_stringView hnew
    simp only [isPasswordChangeRequest, Bool.and_eq_true]
    exact ⟨⟨hexact, agrees_currentPassword.required_accepted currentPasswordField "currentPassword" hread (by decide)
        hcurrentItem hcurrent hvalid.current⟩,
      (agrees_text 12 128).required_accepted newPasswordField "newPassword" hread (by decide) hnewItem hnew hvalid.new⟩

end PasswordChange

section Update

variable {round : ℚ → ℚ} {read : List (List UInt8 × CJson)} {request : SettingsUpdateRequest}

def readSettings : CJson → Option SettingsUpdateRequest
  | .object members => if exactSettingsPutFields members then populateSettingsUpdateRequest members else none
  | _ => none

theorem settingsUpdateRequestOfBody_eq (parse : CJsonParse) (capacity : Nat) (body : List UInt8) :
    settingsUpdateRequestOfBody parse capacity body = (parseExactBody parse capacity body).bind readSettings := by
  unfold settingsUpdateRequestOfBody
  cases parseExactBody parse capacity body with
  | none => rfl
  | some item => cases item <;> rfl

def updateFields : List (List Char) :=
  ["deviceName".toList, "requireSerialConfirmation".toList, "snapshotRetentionTarget".toList,
    "lastSelectedPackageId".toList, "accessPoint".toList, "station".toList]

def updateKeys : List (List Char) :=
  ["accessPoint".toList, "deviceName".toList, "lastSelectedPackageId".toList, "requireSerialConfirmation".toList,
    "snapshotRetentionTarget".toList, "station".toList]

/-- The fields of an update, each read by itself. -/
structure Populated (read : List (List UInt8 × CJson)) (request : SettingsUpdateRequest) : Prop where
  deviceName : populateOptional read deviceNameField readDeviceName = some request.deviceName
  requireSerialConfirmation :
    populateOptional read requireSerialConfirmationField readRequireConfirmation = some request.requireSerialConfirmation
  snapshotRetentionTarget :
    populateOptional read snapshotRetentionTargetField readSnapshotRetentionTarget = some request.snapshotRetentionTarget
  lastSelectedPackageId :
    populateOptional read lastSelectedPackageIdField readLastSelectedPackageId = some request.lastSelectedPackageId
  accessPoint : populateOptional read accessPointField exactCredentialFields = some request.accessPoint
  station : populateOptional read stationField readStation = some request.station

theorem populated_iff : populateSettingsUpdateRequest read = some request ↔ Populated read request := by
  unfold populateSettingsUpdateRequest
  simp only [Option.bind_eq_bind, Option.bind_eq_some_iff, Option.some.injEq]
  constructor
  · rintro ⟨name, hname, flag, hflag, target, htarget, package, hpackage, network, hnetwork, station, hstation, rfl⟩
    exact ⟨hname, hflag, htarget, hpackage, hnetwork, hstation⟩
  · intro h
    exact ⟨_, h.deviceName, _, h.requireSerialConfirmation, _, h.snapshotRetentionTarget, _, h.lastSelectedPackageId, _,
      h.accessPoint, _, h.station, rfl⟩

theorem isNone_of_populateOptional {α : Type} {field : List UInt8} {readItem : CJson → Option α} {o : Option α}
    (h : populateOptional read field readItem = some o) : o.isNone = (getObjectItem read field).isNone := by
  rw [populateOptional] at h
  cases hitem : getObjectItem read field with
  | none =>
    rw [hitem] at h
    cases h
    rfl
  | some item =>
    rw [hitem] at h
    dsimp only at h
    rw [Option.map_eq_some_iff] at h
    obtain ⟨a, -, rfl⟩ := h
    rfl

theorem getObjectItem_of_mem {entry : List UInt8 × CJson} (h : entry ∈ read) :
    (getObjectItem read (cString entry.1)).isSome = true := by
  rw [getObjectItem, Option.isSome_map, List.find?_isSome]
  exact ⟨entry, h, decide_eq_true rfl⟩

theorem Populated.isEmpty_eq (h : Populated read request) (hfields : exactSettingsPutFields read = true) :
    request.isEmpty = read.isEmpty := by
  rw [SettingsUpdateRequest.isEmpty, isNone_of_populateOptional h.deviceName,
    isNone_of_populateOptional h.requireSerialConfirmation, isNone_of_populateOptional h.snapshotRetentionTarget,
    isNone_of_populateOptional h.lastSelectedPackageId, isNone_of_populateOptional h.accessPoint,
    isNone_of_populateOptional h.station]
  cases read with
  | nil => rfl
  | cons entry rest =>
    have hmem := ((fieldsOnce_iff.mp hfields).2 (cString entry.1) List.mem_cons_self).1
    have hitem : (getObjectItem (entry :: rest) (cString entry.1)).isSome = true :=
      getObjectItem_of_mem List.mem_cons_self
    generalize cString entry.1 = name at hmem hitem
    have hnone : (getObjectItem (entry :: rest) name).isNone = false := by
      rw [← Option.not_isSome, hitem]
      rfl
    simp only [settingsPutFields, List.mem_cons, List.not_mem_nil, or_false] at hmem
    rw [List.isEmpty_cons]
    rcases hmem with rfl | rfl | rfl | rfl | rfl | rfl <;> simp [hnone]

theorem isSettingsUpdateRequest_iff {members : List (Units × JsValue)} : isSettingsUpdateRequest (.record members) = true ↔
    0 < members.length ∧ hasOnlyAllowedKeys members settingsUpdateKeys = true ∧
      optionalField members "deviceName" (isStringWithinBytes · 1 32) = true ∧
      optionalField members "requireSerialConfirmation" isBoolean = true ∧
      optionalField members "snapshotRetentionTarget" (isBoundedInteger · 0 v2Limits.snapshotRetentionTargetMax) = true ∧
      optionalField members "lastSelectedPackageId" (fun x => isNull x || isCanonicalUuidV4 x) = true ∧
      optionalField members "accessPoint" isNetworkCredentials = true ∧
      optionalField members "station" (fun x => isNull x || isNetworkCredentials x) = true := by
  simp only [isSettingsUpdateRequest, Bool.and_eq_true, decide_eq_true_eq, and_assoc]

theorem agrees_package : Agrees round (fun x => isNull x || isCanonicalUuidV4 x) (sentNullable sentText)
    readLastSelectedPackageId (fun package => ∀ uuid, package = some uuid → validUuidV4 uuid = true) :=
  agrees_uuid.nullable rfl fun item hitem => by
    cases item with
    | null => exact absurd rfl hitem
    | _ => rfl

theorem agrees_station : Agrees round (fun x => isNull x || isNetworkCredentials x) (sentNullable sentNetwork) readStation
    (fun station => ∀ network, station = some network → NetworkValid network) :=
  agrees_network.nullable rfl fun item hitem => by
    cases item with
    | null => exact absurd rfl hitem
    | _ => rfl

theorem ReadAs.allowed_iff {members : List (Units × Value Units)} (h : ReadAs round members read) :
    exactSettingsPutFields read = true ↔
      (members.map (·.1)).Nodup ∧ hasOnlyAllowedKeys (entries round members) settingsUpdateKeys = true := by
  have hfields : settingsPutFields = updateFields.map utf8 := by decide
  have hkeys : settingsUpdateKeys = updateKeys.map utf16 := rfl
  have hmem (name : Units) : name ∈ updateFields.map utf16 ↔ name ∈ updateKeys.map utf16 :=
    (List.Perm.map utf16 (by decide : updateFields.Perm updateKeys)).mem_iff
  have hallowed : hasOnlyAllowedKeys (entries round members) settingsUpdateKeys = true ↔
      ∀ name ∈ members.map (·.1), name ∈ updateFields.map utf16 := by
    rw [← names_entries round members, hasOnlyAllowedKeys, hkeys, List.all_eq_true, List.forall_mem_map]
    simp only [List.contains_iff_mem, hmem]
  rw [exactSettingsPutFields, fieldsOnce_iff, hallowed, ← forall_names_decoded h.made h.zero, hfields,
    nodup_names_decoded h.made h.zero]
  simp

theorem updateValuesValid_of_parts (hempty : request.isEmpty = false)
    (hname : ∀ name ∈ request.deviceName, validView name 1 deviceNameMaxBytes = true)
    (htarget : ∀ target ∈ request.snapshotRetentionTarget, target ≤ Limits.snapshotRetentionTargetMax)
    (hpackage : ∀ package ∈ request.lastSelectedPackageId, ∀ uuid, package = some uuid → validUuidV4 uuid = true)
    (hnetwork : ∀ network ∈ request.accessPoint, NetworkValid network)
    (hstation : ∀ station ∈ request.station, ∀ network, station = some network → NetworkValid network) :
    UpdateValuesValid request where
  named := hempty
  deviceName := hname
  snapshotRetentionTarget := htarget
  lastSelectedPackageId := fun uuid heq => hpackage _ heq uuid rfl
  accessPoint := fun network heq => ⟨(hnetwork network heq).ssid, (hnetwork network heq).passphrase⟩
  station := fun network heq => ⟨(hstation _ heq network rfl).ssid, (hstation _ heq network rfl).passphrase⟩

theorem agrees_settings : Agrees round isSettingsUpdateRequest sentSettings readSettings UpdateValuesValid where
  absent := rfl
  taken := by
    intro value item hdecoded hzero hdistinct hguard
    cases value with
    | object members =>
      obtain ⟨read, rfl, hread⟩ := readAs_of_object hdecoded hzero
      rw [parsed_object hdistinct.1, ← entries] at hguard ⊢
      obtain ⟨hlength, hallowed, hname, hflag, htarget, hpackage, hnetwork, hstation⟩ :=
        isSettingsUpdateRequest_iff.mp hguard
      have hfields := hread.allowed_iff.mpr ⟨hdistinct.1, hallowed⟩
      obtain ⟨name, hname, hnameValid, hnameSent⟩ :=
        (agrees_text 1 32).optional_taken deviceNameField "deviceName" hread hdistinct.2 (by decide) hname
      obtain ⟨flag, hflag, -, hflagSent⟩ :=
        agrees_flag.optional_taken requireSerialConfirmationField "requireSerialConfirmation" hread hdistinct.2 (by decide)
          hflag
      obtain ⟨target, htarget, htargetValid, htargetSent⟩ :=
        agrees_target.optional_taken snapshotRetentionTargetField "snapshotRetentionTarget" hread hdistinct.2 (by decide)
          htarget
      obtain ⟨package, hpackage, hpackageValid, hpackageSent⟩ :=
        agrees_package.optional_taken lastSelectedPackageIdField "lastSelectedPackageId" hread hdistinct.2 (by decide)
          hpackage
      obtain ⟨network, hnetwork, hnetworkValid, hnetworkSent⟩ :=
        agrees_network.optional_taken accessPointField "accessPoint" hread hdistinct.2 (by decide) hnetwork
      obtain ⟨station, hstation, hstationValid, hstationSent⟩ :=
        agrees_station.optional_taken stationField "station" hread hdistinct.2 (by decide) hstation
      have hpopulated : Populated read ⟨name, flag, target, package, network, station⟩ :=
        ⟨hname, hflag, htarget, hpackage, hnetwork, hstation⟩
      have hempty : SettingsUpdateRequest.isEmpty ⟨name, flag, target, package, network, station⟩ = false := by
        have hsame := length_decoded hread.made hread.zero
        rw [entries, List.length_map, ← hsame] at hlength
        rw [hpopulated.isEmpty_eq hfields, List.isEmpty_eq_false_iff]
        exact List.ne_nil_of_length_pos hlength
      refine ⟨_, ?_, updateValuesValid_of_parts hempty hnameValid htargetValid hpackageValid hnetworkValid hstationValid, ?_⟩
      · rw [readSettings, if_pos hfields]
        exact populated_iff.mpr hpopulated
      · rw [sentSettings, hnameSent, hflagSent, htargetSent, hpackageSent, hnetworkSent, hstationSent]
        rfl
    | _ =>
      unfold parsed at hguard
      cases hguard
  accepted := by
    intro value item request hdecoded hzero hread hvalid
    cases item with
    | object read =>
      rw [readSettings] at hread
      split at hread
      next hfields =>
        have hpopulated := populated_iff.mp hread
        obtain ⟨members, rfl, hmembers⟩ := behind_of_decoded hdecoded
        have hreadAs : ReadAs round members read := ⟨hmembers, hzero⟩
        obtain ⟨hnodup, hallowed⟩ := hreadAs.allowed_iff.mp hfields
        have hempty := hvalid.named
        rw [hpopulated.isEmpty_eq hfields, List.isEmpty_eq_false_iff] at hempty
        have hlength : 0 < (entries round members).length := by
          rw [entries, List.length_map, ← length_decoded hmembers hzero]
          exact List.length_pos_of_ne_nil hempty
        rw [parsed_object hnodup]
        exact isSettingsUpdateRequest_iff.mpr ⟨hlength, hallowed,
          (agrees_text 1 32).optional_accepted deviceNameField "deviceName" hreadAs (by decide) hpopulated.deviceName
            hvalid.deviceName,
          agrees_flag.optional_accepted requireSerialConfirmationField "requireSerialConfirmation" hreadAs (by decide)
            hpopulated.requireSerialConfirmation (fun _ _ => trivial),
          agrees_target.optional_accepted snapshotRetentionTargetField "snapshotRetentionTarget" hreadAs (by decide)
            hpopulated.snapshotRetentionTarget hvalid.snapshotRetentionTarget,
          agrees_package.optional_accepted lastSelectedPackageIdField "lastSelectedPackageId" hreadAs (by decide)
            hpopulated.lastSelectedPackageId (fun package hmem uuid heq => hvalid.lastSelectedPackageId uuid (heq ▸ hmem)),
          agrees_network.optional_accepted accessPointField "accessPoint" hreadAs (by decide) hpopulated.accessPoint
            (fun network hmem => ⟨(hvalid.accessPoint network hmem).1, (hvalid.accessPoint network hmem).2⟩),
          agrees_station.optional_accepted stationField "station" hreadAs (by decide) hpopulated.station
            (fun station hmem network heq => ⟨(hvalid.station network (heq ▸ hmem)).1,
              (hvalid.station network (heq ▸ hmem)).2⟩)⟩
      · cases hread
    | _ => cases hread

end Update

end MacroKeyboard.Web
