import MacroKeyboard.Settings.RecordText

namespace MacroKeyboard.Settings.Codec

open Records.Slices Records.LittleEndian Records.PaddedText

/-- Equal settings, with texts compared up to their terminators. -/
structure SameSettings (a b : DeviceSettings) : Prop where
  provisioned : a.provisioned = b.provisioned
  credentialVersion : a.credentialVersion = b.credentialVersion
  passwordAlgorithmVersion : a.passwordAlgorithmVersion = b.passwordAlgorithmVersion
  passwordIterations : a.passwordIterations = b.passwordIterations
  passwordSalt : a.passwordSalt = b.passwordSalt
  passwordVerifier : a.passwordVerifier = b.passwordVerifier
  nextBlobId : a.nextBlobId = b.nextBlobId
  snapshotRetentionTarget : a.snapshotRetentionTarget = b.snapshotRetentionTarget
  requireSerialConfirmation : a.requireSerialConfirmation = b.requireSerialConfirmation
  stationConfigured : a.stationConfigured = b.stationConfigured
  lastSelectedPackageId : textOf a.lastSelectedPackageId.bytes = textOf b.lastSelectedPackageId.bytes
  deviceName : textOf a.deviceName.bytes = textOf b.deviceName.bytes
  apSsid : textOf a.apSsid.bytes = textOf b.apSsid.bytes
  apPassphrase : textOf a.apPassphrase.bytes = textOf b.apPassphrase.bytes
  stationSsid : textOf a.stationSsid.bytes = textOf b.stationSsid.bytes
  stationPassphrase : textOf a.stationPassphrase.bytes = textOf b.stationPassphrase.bytes

theorem SameSettings.symm {a b : DeviceSettings} (h : SameSettings a b) : SameSettings b a where
  provisioned := h.provisioned.symm
  credentialVersion := h.credentialVersion.symm
  passwordAlgorithmVersion := h.passwordAlgorithmVersion.symm
  passwordIterations := h.passwordIterations.symm
  passwordSalt := h.passwordSalt.symm
  passwordVerifier := h.passwordVerifier.symm
  nextBlobId := h.nextBlobId.symm
  snapshotRetentionTarget := h.snapshotRetentionTarget.symm
  requireSerialConfirmation := h.requireSerialConfirmation.symm
  stationConfigured := h.stationConfigured.symm
  lastSelectedPackageId := h.lastSelectedPackageId.symm
  deviceName := h.deviceName.symm
  apSsid := h.apSsid.symm
  apPassphrase := h.apPassphrase.symm
  stationSsid := h.stationSsid.symm
  stationPassphrase := h.stationPassphrase.symm

theorem SameSettings.refl (settings : DeviceSettings) : SameSettings settings settings :=
  ⟨rfl, rfl, rfl, rfl, rfl, rfl, rfl, rfl, rfl, rfl, rfl, rfl, rfl, rfl, rfl, rfl⟩

def canonicalText {n : Nat} (buffer : Buffer n) : Buffer n :=
  ⟨pad n (textOf buffer.bytes), length_pad (by have := length_textOf_le buffer.bytes; have := buffer.size; omega)⟩

def canonical (settings : DeviceSettings) : DeviceSettings :=
  { settings with
    lastSelectedPackageId := canonicalText settings.lastSelectedPackageId
    deviceName := canonicalText settings.deviceName
    apSsid := canonicalText settings.apSsid
    apPassphrase := canonicalText settings.apPassphrase
    stationSsid := canonicalText settings.stationSsid
    stationPassphrase := canonicalText settings.stationPassphrase }

theorem textOf_canonicalText {n : Nat} (buffer : Buffer n) :
    textOf (canonicalText buffer).bytes = textOf buffer.bytes := textOf_pad (zero_notMem_textOf _)

theorem sameSettings_canonical (settings : DeviceSettings) : SameSettings (canonical settings) settings where
  provisioned := rfl
  credentialVersion := rfl
  passwordAlgorithmVersion := rfl
  passwordIterations := rfl
  passwordSalt := rfl
  passwordVerifier := rfl
  nextBlobId := rfl
  snapshotRetentionTarget := rfl
  requireSerialConfirmation := rfl
  stationConfigured := rfl
  lastSelectedPackageId := textOf_canonicalText _
  deviceName := textOf_canonicalText _
  apSsid := textOf_canonicalText _
  apPassphrase := textOf_canonicalText _
  stationSsid := textOf_canonicalText _
  stationPassphrase := textOf_canonicalText _

def Terminated {n : Nat} (buffer : Buffer n) : Prop :=
  0 ∈ buffer.bytes ∧ validUtf8 (textOf buffer.bytes) = true

section Texts

variable {n : Nat} {buffer : Buffer n}

theorem terminated_of_validText {minimum maximum : Nat} (h : validText buffer.bytes n minimum maximum = true) :
    Terminated buffer := by
  obtain ⟨hzero, -, -, hutf8⟩ := (validText_iff buffer.size).mp h
  exact ⟨hzero, hutf8⟩

theorem padded_canonicalText (h : Terminated buffer) : Padded (canonicalText buffer).bytes := by
  have hlength := length_textOf_lt h.1
  rw [buffer.size] at hlength
  exact padded_pad (zero_notMem_textOf _) hlength

theorem zero_mem_canonicalText (h : Terminated buffer) : 0 ∈ (canonicalText buffer).bytes :=
  (padded_iff.mp (padded_canonicalText h)).1

theorem validText_canonicalText {minimum maximum : Nat} (h : Terminated buffer) :
    validText (canonicalText buffer).bytes n minimum maximum = validText buffer.bytes n minimum maximum := by
  rw [Bool.eq_iff_iff, validText_iff (canonicalText buffer).size, validText_iff buffer.size,
    textOf_canonicalText]
  simp [h.1, zero_mem_canonicalText h]

end Texts

theorem validUuid_canonicalText {buffer : Buffer uuidBufferBytes} (h : Terminated buffer) :
    validUuidOrEmpty (canonicalText buffer).bytes = validUuidOrEmpty buffer.bytes := by
  rw [Bool.eq_iff_iff, validUuidOrEmpty_iff (canonicalText buffer).size, validUuidOrEmpty_iff buffer.size,
    textOf_canonicalText]
  simp [h.1, zero_mem_canonicalText h]

/-- Every text of valid settings is one that a record can hold. -/
structure TextsTerminated (settings : DeviceSettings) : Prop where
  lastSelectedPackageId : Terminated settings.lastSelectedPackageId
  deviceName : Terminated settings.deviceName
  apSsid : Terminated settings.apSsid
  apPassphrase : Terminated settings.apPassphrase
  stationSsid : Terminated settings.stationSsid
  stationPassphrase : Terminated settings.stationPassphrase

theorem station_terminated {settings : DeviceSettings} (h : settings.stationFieldsValid = true) :
    Terminated settings.stationSsid ∧ Terminated settings.stationPassphrase := by
  unfold DeviceSettings.stationFieldsValid at h
  split_ifs at h
  · rw [Bool.and_eq_true] at h
    refine ⟨terminated_of_validText h.1, ?_⟩
    obtain ⟨hzero, htext⟩ := stationPassphraseValid_iff.mp h.2
    refine ⟨hzero, ?_⟩
    rcases htext with hnil | ⟨-, -, hutf8⟩
    · rw [hnil]
      rfl
    · exact hutf8
  · rw [Bool.and_eq_true] at h
    exact ⟨terminated_of_validText h.1, terminated_of_validText h.2⟩

theorem textsTerminated_of_valid {settings : DeviceSettings} (h : Valid settings) :
    TextsTerminated settings where
  lastSelectedPackageId := ⟨((validUuidOrEmpty_iff settings.lastSelectedPackageId.size).mp h.package).1,
    validUtf8_of_uuid settings.lastSelectedPackageId.size h.package⟩
  deviceName := terminated_of_validText h.deviceName
  apSsid := terminated_of_validText h.apSsid
  apPassphrase := terminated_of_validText h.apPassphrase
  stationSsid := (station_terminated h.station).1
  stationPassphrase := (station_terminated h.station).2

theorem stationFieldsValid_canonical {settings : DeviceSettings} (h : TextsTerminated settings) :
    (canonical settings).stationFieldsValid = settings.stationFieldsValid := by
  have hpassphrase : (canonical settings).stationPassphraseValid = settings.stationPassphraseValid := by
    rw [Bool.eq_iff_iff, stationPassphraseValid_iff, stationPassphraseValid_iff]
    simp [canonical, textOf_canonicalText, h.stationPassphrase.1,
      zero_mem_canonicalText h.stationPassphrase]
  have hssid := fun minimum maximum => @validText_canonicalText _ _ minimum maximum h.stationSsid
  have hempty := @validText_canonicalText _ _ 0 0 h.stationPassphrase
  unfold DeviceSettings.stationFieldsValid
  rw [hpassphrase]
  by_cases hstation : settings.stationConfigured = true <;> simp [canonical, hstation, hssid, hempty]

theorem valid_canonical {settings : DeviceSettings} (h : Valid settings) : Valid (canonical settings) where
  credentialVersion := h.credentialVersion
  passwordAlgorithmVersion := h.passwordAlgorithmVersion
  retention := h.retention
  package := (validUuid_canonicalText (textsTerminated_of_valid h).lastSelectedPackageId).trans h.package
  deviceName := (validText_canonicalText (textsTerminated_of_valid h).deviceName).trans h.deviceName
  credentials := h.credentials
  apSsid := (validText_canonicalText (textsTerminated_of_valid h).apSsid).trans h.apSsid
  apPassphrase := (validText_canonicalText (textsTerminated_of_valid h).apPassphrase).trans h.apPassphrase
  station := (stationFieldsValid_canonical (textsTerminated_of_valid h)).trans h.station

theorem length_writeRecordText_le (length : Nat) (text : List UInt8) :
    (writeRecordText length text).length ≤ text.length := by
  rw [writeRecordText, List.length_take]
  exact min_le_right _ _

theorem writeRecordText_eq {text : List UInt8} {n : Nat} (h : text.length = n) (hzero : 0 ∈ text) :
    writeRecordText n text = textOf text := by
  rw [writeRecordText, boundedLength_of_size h, if_pos hzero]
  exact take_length_textOf text

def recordBytes (settings : DeviceSettings) : List UInt8 :=
  writeAll (recordWrites settings) (List.replicate settingsRecordBytes 0)

theorem length_recordWrites (settings : DeviceSettings) :
    ∀ write ∈ recordWrites settings, write.2.length ≤ write.1.2 := by
  have hword : ∀ count value, (writeLe count value).length ≤ count := fun count value =>
    (length_writeLe count value).le
  have htext : ∀ {n : Nat} (buffer : Buffer n), (writeRecordText n buffer.bytes).length ≤ n := fun buffer =>
    (length_writeRecordText_le _ _).trans_eq buffer.size
  have hflag : ∀ flag, (flagByte flag).length ≤ 1 := fun flag => Nat.le_refl 1
  simp only [recordWrites, List.forall_mem_cons, List.not_mem_nil, false_implies, implies_true, and_true]
  exact ⟨hword _ _, hword _ _, hword _ _, hword _ _, hword _ _, hword _ _, settings.passwordSalt.size.le,
    settings.passwordVerifier.size.le, hword _ _, Nat.le_refl 1, hflag _, hflag _, hflag _,
    htext settings.lastSelectedPackageId, htext settings.deviceName, htext settings.apSsid,
    htext settings.apPassphrase, htext settings.stationSsid, htext settings.stationPassphrase⟩

theorem fitting_recordWrites (settings : DeviceSettings) :
    Fitting (recordWrites settings) (List.replicate settingsRecordBytes (0 : UInt8)).length := by
  have hfields : ∀ field ∈ (recordWrites settings).map Prod.fst, field.1 + field.2 ≤ settingsRecordBytes := by
    simp only [recordWrites, List.map_cons, List.map_nil]
    decide
  intro write hmem
  rw [List.length_replicate]
  exact ⟨length_recordWrites settings write hmem, hfields write.1 (List.mem_map_of_mem hmem)⟩

theorem apart_recordWrites (settings : DeviceSettings) :
    ((recordWrites settings).map Prod.fst).Pairwise Apart := by
  simp only [recordWrites, List.map_cons, List.map_nil]
  decide

theorem length_recordBytes (settings : DeviceSettings) :
    (recordBytes settings).length = settingsRecordBytes :=
  (length_writeAll (fitting_recordWrites settings)).trans List.length_replicate

theorem slice_zeros {offset length count : Nat} (h : offset + length ≤ count) :
    slice offset length (List.replicate count (0 : UInt8)) = List.replicate length 0 := by
  rw [slice, List.drop_replicate, List.take_replicate, min_eq_left (by omega)]

theorem fieldBytes_recordBytes {settings : DeviceSettings} {write : Field × List UInt8}
    (hmem : write ∈ recordWrites settings) :
    fieldBytes write.1 (recordBytes settings) = pad write.1.2 write.2 := by
  have hfit := (fitting_recordWrites settings write hmem).2
  rw [List.length_replicate] at hfit
  rw [fieldBytes, recordBytes, slice_writeAll (fitting_recordWrites settings) (apart_recordWrites settings) hmem,
    slice_zeros hfit, List.drop_replicate, pad]

theorem fieldBytes_unwritten {settings : DeviceSettings} {field : Field}
    (hrecord : field.1 + field.2 ≤ settingsRecordBytes)
    (h : ∀ write ∈ recordWrites settings, Apart field write.1) :
    fieldBytes field (recordBytes settings) = List.replicate field.2 0 := by
  rw [fieldBytes, recordBytes, slice_writeAll_apart (fitting_recordWrites settings) h, slice_zeros hrecord]

section Words

theorem readU16Le_writeU16Le (value : UInt16) : readU16Le (writeU16Le value) = value := by
  rw [readU16Le, writeU16Le, readLe_writeLe value.toNat_lt, UInt16.ofNat_toNat]

theorem readU32Le_writeU32Le (value : UInt32) : readU32Le (writeU32Le value) = value := by
  rw [readU32Le, writeU32Le, readLe_writeLe value.toNat_lt, UInt32.ofNat_toNat]

theorem readU64Le_writeU64Le (value : UInt64) : readU64Le (writeU64Le value) = value := by
  rw [readU64Le, writeU64Le, readLe_writeLe value.toNat_lt, UInt64.ofNat_toNat]

variable {source : List UInt8}

theorem writeU16Le_readU16Le (h : source.length = 2) : writeU16Le (readU16Le source) = source := by
  have hlt := readLe_lt source
  rw [h] at hlt
  rw [writeU16Le, readU16Le, UInt16.toNat_ofNat_of_lt' hlt, ← h]
  exact writeLe_readLe source

theorem writeU32Le_readU32Le (h : source.length = 4) : writeU32Le (readU32Le source) = source := by
  have hlt := readLe_lt source
  rw [h] at hlt
  rw [writeU32Le, readU32Le, UInt32.toNat_ofNat_of_lt' hlt, ← h]
  exact writeLe_readLe source

theorem writeU64Le_readU64Le (h : source.length = 8) : writeU64Le (readU64Le source) = source := by
  have hlt := readLe_lt source
  rw [h] at hlt
  rw [writeU64Le, readU64Le, UInt64.toNat_ofNat_of_lt' hlt, ← h]
  exact writeLe_readLe source

end Words

def textFields : List Field :=
  [fieldLastSelectedPackage, fieldDeviceName, fieldApSsid, fieldApPassphrase, fieldStationSsid,
    fieldStationPassphrase]

def flagFields : List Field :=
  [fieldReservedSendMode, fieldReservedShowSource, fieldRequireConfirmation, fieldProvisioned,
    fieldStationConfigured]

/-- The settings that the fields of a record spell, whether it is accepted or
not. -/
def readFields (record : List UInt8) : DeviceSettings where
  provisioned := byteAt record fieldProvisioned ≠ 0
  credentialVersion := credentialVersion
  passwordAlgorithmVersion := passwordAlgorithmVersion
  passwordIterations := readU32Le (fieldBytes fieldPasswordIterations record)
  passwordSalt := .copy _ (fieldBytes fieldPasswordSalt record)
  passwordVerifier := .copy _ (fieldBytes fieldPasswordVerifier record)
  nextBlobId := readU64Le (fieldBytes fieldNextBlobId record)
  snapshotRetentionTarget := byteAt record fieldRetentionTarget
  requireSerialConfirmation := byteAt record fieldRequireConfirmation ≠ 0
  stationConfigured := byteAt record fieldStationConfigured ≠ 0
  lastSelectedPackageId := .copy _ (fieldBytes fieldLastSelectedPackage record)
  deviceName := .copy _ (fieldBytes fieldDeviceName record)
  apSsid := .copy _ (fieldBytes fieldApSsid record)
  apPassphrase := .copy _ (fieldBytes fieldApPassphrase record)
  stationSsid := .copy _ (fieldBytes fieldStationSsid record)
  stationPassphrase := .copy _ (fieldBytes fieldStationPassphrase record)

def TextField (record : List UInt8) (field : Field) : Prop :=
  Padded (fieldBytes field record) ∧ validUtf8 (textOf (fieldBytes field record)) = true

structure Accepted (record : List UInt8) : Prop where
  length : record.length = settingsRecordBytes
  magic : readU32Le (fieldBytes fieldMagic record) = settingsMagic
  version : readU16Le (fieldBytes fieldRecordVersion record) = settingsRecordVersion
  recordLength : readU16Le (fieldBytes fieldRecordLength record) = .ofNat settingsRecordBytes
  credentialVersion : readU16Le (fieldBytes fieldCredentialVersion record) = credentialVersion
  passwordAlgorithm : readU16Le (fieldBytes fieldPasswordAlgorithm record) = passwordAlgorithmVersion
  reserved : bytesAreZero (fieldBytes fieldReserved record) = true
  flags : ∀ field ∈ flagFields, byteAt record field ≤ 1
  texts : ∀ field ∈ textFields, TextField record field
  valid : (readFields record).validate = .ok

theorem length_fieldBytes {record : List UInt8} {field : Field} (hlength : record.length = settingsRecordBytes)
    (hfield : field.1 + field.2 ≤ settingsRecordBytes) : (fieldBytes field record).length = field.2 :=
  length_slice (by omega)

theorem copyRecordText_of_field {record : List UInt8} {field : Field}
    (hlength : record.length = settingsRecordBytes) (hfield : field.1 + field.2 ≤ settingsRecordBytes)
    (h : TextField record field) :
    copyRecordText field.2 (fieldBytes field record) = some (.copy field.2 (fieldBytes field record)) := by
  have hsize := length_fieldBytes hlength hfield
  rw [copyRecordText_of_padded hsize h.1 h.2]
  exact congrArg some (Buffer.ext_bytes (Buffer.copy_of_length hsize).symm)

theorem eq_of_copyRecordText {record : List UInt8} (field : Field) {buffer : Buffer field.2}
    (hlength : record.length = settingsRecordBytes) (hfield : field.1 + field.2 ≤ settingsRecordBytes)
    (h : copyRecordText field.2 (fieldBytes field record) = some buffer) :
    TextField record field ∧ buffer = .copy field.2 (fieldBytes field record) := by
  have htext : TextField record field := padded_of_copyRecordText h
  rw [copyRecordText_of_field hlength hfield htext] at h
  exact ⟨htext, (Option.some.inj h).symm⟩

theorem decodeFields_of_texts {record : List UInt8} (hlength : record.length = settingsRecordBytes)
    (h : ∀ field ∈ textFields, TextField record field) : decodeFields record = some (readFields record) := by
  simp only [textFields, List.forall_mem_cons] at h
  obtain ⟨hpackage, hname, hssid, hpassphrase, hstation, hstationPassphrase, -⟩ := h
  have hpackage := copyRecordText_of_field hlength (by decide) hpackage
  have hname := copyRecordText_of_field hlength (by decide) hname
  have hssid := copyRecordText_of_field hlength (by decide) hssid
  have hpassphrase := copyRecordText_of_field hlength (by decide) hpassphrase
  have hstation := copyRecordText_of_field hlength (by decide) hstation
  have hstationPassphrase := copyRecordText_of_field hlength (by decide) hstationPassphrase
  unfold decodeFields
  erw [hpackage, hname, hssid, hpassphrase, hstation, hstationPassphrase]
  rfl

theorem texts_of_decodeFields {record : List UInt8} (hlength : record.length = settingsRecordBytes)
    {decoded : DeviceSettings} (h : decodeFields record = some decoded) :
    (∀ field ∈ textFields, TextField record field) ∧ decoded = readFields record := by
  unfold decodeFields at h
  simp only [Option.bind_eq_bind, Option.bind_eq_some_iff] at h
  obtain ⟨package, hpackage, name, hname, ssid, hssid, passphrase, hpassphrase, station, hstation,
    stationPassphrase, hstationPassphrase, hdecoded⟩ := h
  obtain ⟨htextPackage, rfl⟩ := eq_of_copyRecordText fieldLastSelectedPackage hlength (by decide) hpackage
  obtain ⟨htextName, rfl⟩ := eq_of_copyRecordText fieldDeviceName hlength (by decide) hname
  obtain ⟨htextSsid, rfl⟩ := eq_of_copyRecordText fieldApSsid hlength (by decide) hssid
  obtain ⟨htextPassphrase, rfl⟩ := eq_of_copyRecordText fieldApPassphrase hlength (by decide) hpassphrase
  obtain ⟨htextStation, rfl⟩ := eq_of_copyRecordText fieldStationSsid hlength (by decide) hstation
  obtain ⟨htextStationPassphrase, rfl⟩ :=
    eq_of_copyRecordText fieldStationPassphrase hlength (by decide) hstationPassphrase
  refine ⟨?_, (Option.some.inj hdecoded).symm⟩
  simp only [textFields, List.forall_mem_cons]
  exact ⟨htextPackage, htextName, htextSsid, htextPassphrase, htextStation, htextStationPassphrase, by simp⟩

end MacroKeyboard.Settings.Codec
