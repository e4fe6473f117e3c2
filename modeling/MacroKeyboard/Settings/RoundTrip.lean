import MacroKeyboard.Settings.Codec

namespace MacroKeyboard.Settings.RoundTrip

open Records.Slices Records.LittleEndian Records.PaddedText Codec

theorem byteAt_eq (record : List UInt8) (offset : Nat) :
    byteAt record (offset, 1) = (fieldBytes (offset, 1) record).getD 0 0 := by
  rw [byteAt, fieldBytes, slice]
  simp [List.getD]

theorem fieldBytes_of_length {record : List UInt8} {offset : Nat} (h : offset + 1 ≤ record.length) :
    fieldBytes (offset, 1) record = [byteAt record (offset, 1)] := by
  obtain ⟨byte, hbyte⟩ := List.length_eq_one_iff.mp (@length_slice _ _ 1 _ h)
  rw [byteAt_eq, fieldBytes, hbyte]
  rfl

theorem pad_of_length {content : List UInt8} {length : Nat} (h : content.length = length) :
    pad length content = content := by
  rw [pad, h, Nat.sub_self, List.replicate_zero, List.append_nil]

theorem flag_le (flag : Bool) : (if flag then (1 : UInt8) else 0) ≤ 1 := by
  cases flag <;> decide

theorem flag_ne_zero (flag : Bool) : decide ((if flag then (1 : UInt8) else 0) ≠ 0) = flag := by
  cases flag <;> rfl

theorem flagByte_of_le {value : UInt8} (h : value ≤ 1) : flagByte (decide (value ≠ 0)) = [value] := by
  have hvalue : value = 0 ∨ value = 1 := by
    have hnat : value.toNat ≤ 1 := UInt8.le_iff_toNat_le.mp h
    rcases Nat.le_one_iff_eq_zero_or_eq_one.mp hnat with hzero | hone
    · exact Or.inl (UInt8.toNat_inj.mp hzero)
    · exact Or.inr (UInt8.toNat_inj.mp hone)
  rcases hvalue with rfl | rfl <;> rfl

theorem decode_of_accepted {record : List UInt8} (h : Accepted record) (settings : DeviceSettings) :
    decode record settings = (.ok, readFields record) := by
  have hflags := h.flags
  simp only [flagFields, List.forall_mem_cons] at hflags
  obtain ⟨hsend, hsource, hconfirm, hprovisioned, hstation, -⟩ := hflags
  have hretention : byteAt record fieldRetentionTarget ≤ Limits.snapshotRetentionTargetMax :=
    (validate_eq_ok_iff.mp h.valid).retention
  rw [decode, if_neg (not_not.mpr h.length), if_neg (not_not.mpr h.magic), if_neg (not_not.mpr h.version),
    if_neg (not_not.mpr h.recordLength), if_neg (by simp [h.credentialVersion, h.passwordAlgorithm]), if_neg,
    decodeFields_of_texts h.length h.texts]
  · simp only [h.valid]
  · simp only [h.reserved, not_true_eq_false, false_or, not_or, gt_iff_lt, UInt8.not_lt]
    exact ⟨hsend, hretention, hsource, hconfirm, hprovisioned, hstation⟩

theorem accepted_of_decode {record : List UInt8} {settings : DeviceSettings}
    (h : (decode record settings).1 = .ok) : Accepted record := by
  unfold decode at h
  split_ifs at h with hlength hmagic hversion hrecord hcredential hbytes
  push Not at hlength hmagic hversion hrecord hcredential hbytes
  obtain ⟨hreserved, hsend, -, hsource, hconfirm, hprovisioned, hstation⟩ := hbytes
  cases hdecoded : decodeFields record with
  | none =>
    rw [hdecoded] at h
    cases h
  | some decoded =>
    obtain ⟨htexts, rfl⟩ := texts_of_decodeFields hlength hdecoded
    refine ⟨hlength, hmagic, hversion, hrecord, hcredential.1, hcredential.2, hreserved, ?_, htexts, ?_⟩
    · simp only [flagFields, List.forall_mem_cons]
      exact ⟨UInt8.not_lt.mp hsend, UInt8.not_lt.mp hsource, UInt8.not_lt.mp hconfirm,
        UInt8.not_lt.mp hprovisioned, UInt8.not_lt.mp hstation, by simp⟩
    · simp only [hdecoded] at h
      cases hvalid : (readFields record).validate with
      | ok => rfl
      | _ =>
        rw [hvalid] at h
        cases h

theorem decode_untouched {record : List UInt8} {settings : DeviceSettings}
    (h : (decode record settings).1 ≠ .ok) : (decode record settings).2 = settings := by
  unfold decode at h ⊢
  split_ifs at h ⊢ <;> try rfl
  cases hdecoded : decodeFields record with
  | none => rfl
  | some decoded =>
    simp only [hdecoded] at h ⊢
    cases hvalid : decoded.validate with
    | ok => simp [hvalid] at h
    | _ => rfl

theorem encode_of_valid {settings : DeviceSettings} (h : Valid settings) {record : List UInt8}
    (hlength : record.length = settingsRecordBytes) : encode settings record = (.ok, recordBytes settings) := by
  rw [encode, if_neg (not_not.mpr hlength)]
  simp only [validate_eq_ok_iff.mpr h, ne_eq, not_true_eq_false, if_false]
  rfl

theorem pad_writeRecordText {n : Nat} {buffer : Buffer n} (h : Terminated buffer) :
    pad n (writeRecordText n buffer.bytes) = (canonicalText buffer).bytes := by
  rw [writeRecordText_eq buffer.size h.1]
  rfl

theorem textField_of_canonical {n : Nat} {buffer : Buffer n} (h : Terminated buffer) {record : List UInt8}
    {field : Field} (hfield : fieldBytes field record = (canonicalText buffer).bytes) :
    TextField record field := by
  rw [TextField, hfield, textOf_canonicalText]
  exact ⟨padded_canonicalText h, h.2⟩

theorem copy_of_canonical {n : Nat} {buffer : Buffer n} {content : List UInt8}
    (h : content = (canonicalText buffer).bytes) : Buffer.copy n content = canonicalText buffer := by
  apply Buffer.ext_bytes
  rw [Buffer.copy_of_length (by rw [h]; exact (canonicalText buffer).size), h]

/-- What the fields of an encoded record hold. -/
structure Written (settings : DeviceSettings) (record : List UInt8) : Prop where
  magic : fieldBytes fieldMagic record = writeU32Le settingsMagic
  version : fieldBytes fieldRecordVersion record = writeU16Le settingsRecordVersion
  recordLength : fieldBytes fieldRecordLength record = writeU16Le (.ofNat settingsRecordBytes)
  credentialVersion : fieldBytes fieldCredentialVersion record = writeU16Le settings.credentialVersion
  passwordAlgorithm : fieldBytes fieldPasswordAlgorithm record = writeU16Le settings.passwordAlgorithmVersion
  iterations : fieldBytes fieldPasswordIterations record = writeU32Le settings.passwordIterations
  salt : fieldBytes fieldPasswordSalt record = settings.passwordSalt.bytes
  verifier : fieldBytes fieldPasswordVerifier record = settings.passwordVerifier.bytes
  nextBlobId : fieldBytes fieldNextBlobId record = writeU64Le settings.nextBlobId
  sendMode : fieldBytes fieldReservedSendMode record = [0]
  retention : fieldBytes fieldRetentionTarget record = [settings.snapshotRetentionTarget]
  showSource : fieldBytes fieldReservedShowSource record = [0]
  confirmation : fieldBytes fieldRequireConfirmation record = flagByte settings.requireSerialConfirmation
  provisioned : fieldBytes fieldProvisioned record = flagByte settings.provisioned
  stationConfigured : fieldBytes fieldStationConfigured record = flagByte settings.stationConfigured
  reserved : fieldBytes fieldReserved record = [0, 0]
  package : fieldBytes fieldLastSelectedPackage record = (canonicalText settings.lastSelectedPackageId).bytes
  deviceName : fieldBytes fieldDeviceName record = (canonicalText settings.deviceName).bytes
  apSsid : fieldBytes fieldApSsid record = (canonicalText settings.apSsid).bytes
  apPassphrase : fieldBytes fieldApPassphrase record = (canonicalText settings.apPassphrase).bytes
  stationSsid : fieldBytes fieldStationSsid record = (canonicalText settings.stationSsid).bytes
  stationPassphrase : fieldBytes fieldStationPassphrase record =
    (canonicalText settings.stationPassphrase).bytes

theorem written_recordBytes {settings : DeviceSettings} (h : TextsTerminated settings) :
    Written settings (recordBytes settings) := by
  have hfields : ∀ write ∈ recordWrites settings,
      fieldBytes write.1 (recordBytes settings) = pad write.1.2 write.2 := fun _ => fieldBytes_recordBytes
  have hzeros : ∀ field : Field, field.1 + field.2 ≤ settingsRecordBytes →
      (∀ other ∈ (recordWrites settings).map Prod.fst, Apart field other) →
      fieldBytes field (recordBytes settings) = List.replicate field.2 0 := fun field hrecord hapart =>
    fieldBytes_unwritten hrecord fun write hmem => hapart write.1 (List.mem_map_of_mem hmem)
  simp only [recordWrites, List.map_cons, List.map_nil] at hzeros
  simp only [recordWrites, List.forall_mem_cons] at hfields
  obtain ⟨hmagic, hversion, hlength, hcredential, halgorithm, hiterations, hsalt, hverifier, hblob, hretention,
    hconfirm, hprovisioned, hstation, hpackage, hname, hssid, hpassphrase, hstationSsid,
    hstationPassphrase, -⟩ := hfields
  have hword : ∀ count value, pad count (writeLe count value) = writeLe count value := fun count value =>
    pad_of_length (length_writeLe count value)
  exact {
    magic := hmagic.trans (hword _ _)
    version := hversion.trans (hword _ _)
    recordLength := hlength.trans (hword _ _)
    credentialVersion := hcredential.trans (hword _ _)
    passwordAlgorithm := halgorithm.trans (hword _ _)
    iterations := hiterations.trans (hword _ _)
    salt := hsalt.trans (pad_of_length settings.passwordSalt.size)
    verifier := hverifier.trans (pad_of_length settings.passwordVerifier.size)
    nextBlobId := hblob.trans (hword _ _)
    sendMode := hzeros fieldReservedSendMode (by decide) (by decide)
    retention := hretention
    showSource := hzeros fieldReservedShowSource (by decide) (by decide)
    confirmation := hconfirm
    provisioned := hprovisioned
    stationConfigured := hstation
    reserved := hzeros fieldReserved (by decide) (by decide)
    package := hpackage.trans (pad_writeRecordText h.lastSelectedPackageId)
    deviceName := hname.trans (pad_writeRecordText h.deviceName)
    apSsid := hssid.trans (pad_writeRecordText h.apSsid)
    apPassphrase := hpassphrase.trans (pad_writeRecordText h.apPassphrase)
    stationSsid := hstationSsid.trans (pad_writeRecordText h.stationSsid)
    stationPassphrase := hstationPassphrase.trans (pad_writeRecordText h.stationPassphrase) }

theorem byteAt_of_fieldBytes {record : List UInt8} {offset : Nat} {byte : UInt8}
    (h : fieldBytes (offset, 1) record = [byte]) : byteAt record (offset, 1) = byte := by
  rw [byteAt_eq, h]
  rfl

theorem readFields_of_written {settings : DeviceSettings} {record : List UInt8} (hvalid : Valid settings)
    (h : Written settings record) : readFields record = canonical settings := by
  have hconfirm := byteAt_of_fieldBytes h.confirmation
  have hprovisioned := byteAt_of_fieldBytes h.provisioned
  have hstation := byteAt_of_fieldBytes h.stationConfigured
  have hretention := byteAt_of_fieldBytes h.retention
  have hsalt : Buffer.copy passwordSaltBytes settings.passwordSalt.bytes = settings.passwordSalt :=
    Buffer.ext_bytes (Buffer.copy_of_length settings.passwordSalt.size)
  have hverifier : Buffer.copy passwordVerifierBytes settings.passwordVerifier.bytes = settings.passwordVerifier :=
    Buffer.ext_bytes (Buffer.copy_of_length settings.passwordVerifier.size)
  unfold readFields canonical
  rw [h.iterations, h.nextBlobId, h.salt, h.verifier, readU32Le_writeU32Le, readU64Le_writeU64Le, hsalt, hverifier,
    copy_of_canonical h.package, copy_of_canonical h.deviceName, copy_of_canonical h.apSsid,
    copy_of_canonical h.apPassphrase, copy_of_canonical h.stationSsid, copy_of_canonical h.stationPassphrase,
    ← hvalid.credentialVersion, ← hvalid.passwordAlgorithmVersion]
  erw [hconfirm, hprovisioned, hstation, hretention]
  simp only [flag_ne_zero]

theorem accepted_of_written {settings : DeviceSettings} {record : List UInt8} (hvalid : Valid settings)
    (hlength : record.length = settingsRecordBytes) (h : Written settings record) : Accepted record := by
  have hterminated := textsTerminated_of_valid hvalid
  refine ⟨hlength, ?_, ?_, ?_, ?_, ?_, ?_, ?_, ?_, ?_⟩
  · rw [h.magic, readU32Le_writeU32Le]
  · rw [h.version, readU16Le_writeU16Le]
  · rw [h.recordLength, readU16Le_writeU16Le]
  · rw [h.credentialVersion, readU16Le_writeU16Le, hvalid.credentialVersion]
  · rw [h.passwordAlgorithm, readU16Le_writeU16Le, hvalid.passwordAlgorithmVersion]
  · rw [h.reserved]
    rfl
  · have hflag : ∀ {offset : Nat} (flag : Bool), fieldBytes (offset, 1) record = flagByte flag →
        byteAt record (offset, 1) ≤ 1 := fun _ hbyte => by
      rw [byteAt_of_fieldBytes hbyte]
      exact flag_le _
    simp only [flagFields, List.forall_mem_cons]
    exact ⟨hflag false h.sendMode, hflag false h.showSource, hflag _ h.confirmation, hflag _ h.provisioned,
      hflag _ h.stationConfigured, by simp⟩
  · simp only [textFields, List.forall_mem_cons]
    exact ⟨textField_of_canonical hterminated.lastSelectedPackageId h.package,
      textField_of_canonical hterminated.deviceName h.deviceName,
      textField_of_canonical hterminated.apSsid h.apSsid,
      textField_of_canonical hterminated.apPassphrase h.apPassphrase,
      textField_of_canonical hterminated.stationSsid h.stationSsid,
      textField_of_canonical hterminated.stationPassphrase h.stationPassphrase, by simp⟩
  · rw [readFields_of_written hvalid h]
    exact validate_eq_ok_iff.mpr (valid_canonical hvalid)

/-- The decoder gives back what the encoder was given, with its texts
canonical. -/
theorem decode_recordBytes {settings : DeviceSettings} (h : Valid settings) (out : DeviceSettings) :
    decode (recordBytes settings) out = (.ok, canonical settings) := by
  have hwritten := written_recordBytes (textsTerminated_of_valid h)
  rw [decode_of_accepted (accepted_of_written h (length_recordBytes settings) hwritten),
    readFields_of_written h hwritten]

def clearReserved (record : List UInt8) : List UInt8 :=
  writeAll [(fieldReservedSendMode, [0]), (fieldReservedShowSource, [0])] record

def recordFields : List Field :=
  [fieldMagic, fieldRecordVersion, fieldRecordLength, fieldCredentialVersion, fieldPasswordAlgorithm,
    fieldPasswordIterations, fieldPasswordSalt, fieldPasswordVerifier, fieldNextBlobId, fieldReservedSendMode,
    fieldRetentionTarget, fieldReservedShowSource, fieldRequireConfirmation, fieldProvisioned,
    fieldStationConfigured, fieldReserved, fieldLastSelectedPackage, fieldDeviceName, fieldApSsid,
    fieldApPassphrase, fieldStationSsid, fieldStationPassphrase]

theorem tiles_recordFields : Tiles 0 recordFields settingsRecordBytes := by decide

theorem fitting_clearReserved {record : List UInt8} (h : record.length = settingsRecordBytes) :
    Fitting [(fieldReservedSendMode, [(0 : UInt8)]), (fieldReservedShowSource, [0])] record.length := by
  rw [h]
  intro write hmem
  simp only [List.mem_cons, List.not_mem_nil, or_false] at hmem
  rcases hmem with rfl | rfl <;> decide

theorem canonicalText_copy {n : Nat} {content : List UInt8} (hlength : content.length = n)
    (h : Padded content) : (canonicalText (Buffer.copy n content)).bytes = content := by
  have hcopy := Buffer.copy_of_length hlength
  calc (canonicalText (Buffer.copy n content)).bytes
      = pad n (textOf (Buffer.copy n content).bytes) := rfl
    _ = pad content.length (textOf content) := by rw [hcopy, hlength]
    _ = content := pad_textOf h

/-- An accepted record with its reserved flags cleared holds what the encoder
writes of the settings it spells. -/
theorem written_clearReserved {record : List UInt8} (h : Accepted record) :
    Written (readFields record) (clearReserved record) := by
  have hfit := fitting_clearReserved h.length
  have hkept : ∀ field : Field, Apart field fieldReservedSendMode ∧ Apart field fieldReservedShowSource →
      fieldBytes field (clearReserved record) = fieldBytes field record := by
    rintro field ⟨hsend, hsource⟩
    refine slice_writeAll_apart hfit fun write hmem => ?_
    simp only [List.mem_cons, List.not_mem_nil, or_false] at hmem
    rcases hmem with rfl | rfl
    · exact hsend
    · exact hsource
  have hcleared : ∀ write ∈ [(fieldReservedSendMode, [(0 : UInt8)]), (fieldReservedShowSource, [0])],
      fieldBytes write.1 (clearReserved record) =
        write.2 ++ (fieldBytes write.1 record).drop write.2.length := fun write hmem =>
    slice_writeAll hfit (by decide) hmem
  simp only [List.forall_mem_cons] at hcleared
  have hlengthOf := fun field => @length_fieldBytes _ field h.length
  have hone : ∀ field : Field, field.1 + field.2 ≤ settingsRecordBytes → field.2 = 1 →
      (fieldBytes field record).drop 1 = [] := fun field hfield hone => by
    rw [List.drop_eq_nil_iff, hlengthOf field hfield, hone]
  have hflags := h.flags
  simp only [flagFields, List.forall_mem_cons] at hflags
  obtain ⟨-, -, hconfirm, hprovisioned, hstation, -⟩ := hflags
  have hflag : ∀ offset : Nat, offset + 1 ≤ settingsRecordBytes → byteAt record (offset, 1) ≤ 1 →
      fieldBytes (offset, 1) record = flagByte (decide (byteAt record (offset, 1) ≠ 0)) :=
    fun offset hoffset hle => by
      rw [flagByte_of_le hle]
      exact fieldBytes_of_length (by rw [h.length]; exact hoffset)
  have htexts := h.texts
  simp only [textFields, List.forall_mem_cons] at htexts
  obtain ⟨hpackage, hname, hssid, hpassphrase, hstationSsid, hstationPassphrase, -⟩ := htexts
  have htext : ∀ field : Field, field.1 + field.2 ≤ settingsRecordBytes → TextField record field →
      fieldBytes field record = (canonicalText (Buffer.copy field.2 (fieldBytes field record))).bytes :=
    fun field hfield htext => (canonicalText_copy (hlengthOf field hfield) htext.1).symm
  exact {
    magic := (hkept _ (by decide)).trans (by
      rw [← h.magic, writeU32Le_readU32Le (hlengthOf _ (by decide))])
    version := (hkept _ (by decide)).trans (by
      rw [← h.version, writeU16Le_readU16Le (hlengthOf _ (by decide))])
    recordLength := (hkept _ (by decide)).trans (by
      rw [← h.recordLength, writeU16Le_readU16Le (hlengthOf _ (by decide))])
    credentialVersion := (hkept _ (by decide)).trans (by
      rw [readFields, ← h.credentialVersion, writeU16Le_readU16Le (hlengthOf _ (by decide))])
    passwordAlgorithm := (hkept _ (by decide)).trans (by
      rw [readFields, ← h.passwordAlgorithm, writeU16Le_readU16Le (hlengthOf _ (by decide))])
    iterations := (hkept _ (by decide)).trans (writeU32Le_readU32Le (hlengthOf _ (by decide))).symm
    salt := (hkept _ (by decide)).trans (Buffer.copy_of_length (hlengthOf _ (by decide))).symm
    verifier := (hkept _ (by decide)).trans (Buffer.copy_of_length (hlengthOf _ (by decide))).symm
    nextBlobId := (hkept _ (by decide)).trans (writeU64Le_readU64Le (hlengthOf _ (by decide))).symm
    sendMode := hcleared.1.trans (by
      rw [List.length_singleton, hone _ (by decide) rfl, List.append_nil])
    retention := (hkept _ (by decide)).trans (fieldBytes_of_length (by rw [h.length]; decide))
    showSource := hcleared.2.1.trans (by
      rw [List.length_singleton, hone _ (by decide) rfl, List.append_nil])
    confirmation := (hkept _ (by decide)).trans (hflag _ (by decide) hconfirm)
    provisioned := (hkept _ (by decide)).trans (hflag _ (by decide) hprovisioned)
    stationConfigured := (hkept _ (by decide)).trans (hflag _ (by decide) hstation)
    reserved := (hkept _ (by decide)).trans
      (List.eq_replicate_iff.mpr ⟨hlengthOf _ (by decide), bytesAreZero_iff.mp h.reserved⟩)
    package := (hkept _ (by decide)).trans (htext _ (by decide) hpackage)
    deviceName := (hkept _ (by decide)).trans (htext _ (by decide) hname)
    apSsid := (hkept _ (by decide)).trans (htext _ (by decide) hssid)
    apPassphrase := (hkept _ (by decide)).trans (htext _ (by decide) hpassphrase)
    stationSsid := (hkept _ (by decide)).trans (htext _ (by decide) hstationSsid)
    stationPassphrase := (hkept _ (by decide)).trans (htext _ (by decide) hstationPassphrase) }

theorem eq_of_written {settings : DeviceSettings} {a b : List UInt8} (ha : Written settings a)
    (hb : Written settings b) (hlength : a.length = settingsRecordBytes)
    (hlength' : b.length = settingsRecordBytes) : a = b := by
  refine @eq_of_tiles _ recordFields _ _ (by rw [hlength]; exact tiles_recordFields)
    (hlength.trans hlength'.symm) ?_
  simp only [recordFields, List.forall_mem_cons]
  exact ⟨ha.magic.trans hb.magic.symm, ha.version.trans hb.version.symm,
    ha.recordLength.trans hb.recordLength.symm, ha.credentialVersion.trans hb.credentialVersion.symm,
    ha.passwordAlgorithm.trans hb.passwordAlgorithm.symm, ha.iterations.trans hb.iterations.symm,
    ha.salt.trans hb.salt.symm, ha.verifier.trans hb.verifier.symm, ha.nextBlobId.trans hb.nextBlobId.symm,
    ha.sendMode.trans hb.sendMode.symm, ha.retention.trans hb.retention.symm,
    ha.showSource.trans hb.showSource.symm, ha.confirmation.trans hb.confirmation.symm,
    ha.provisioned.trans hb.provisioned.symm, ha.stationConfigured.trans hb.stationConfigured.symm,
    ha.reserved.trans hb.reserved.symm, ha.package.trans hb.package.symm,
    ha.deviceName.trans hb.deviceName.symm, ha.apSsid.trans hb.apSsid.symm,
    ha.apPassphrase.trans hb.apPassphrase.symm, ha.stationSsid.trans hb.stationSsid.symm,
    ha.stationPassphrase.trans hb.stationPassphrase.symm, by simp⟩

theorem recordBytes_readFields {record : List UInt8} (h : Accepted record) :
    recordBytes (readFields record) = clearReserved record := by
  have hvalid := validate_eq_ok_iff.mp h.valid
  have hlength : (clearReserved record).length = settingsRecordBytes :=
    (length_writeAll (fitting_clearReserved h.length)).trans h.length
  exact eq_of_written (written_recordBytes (textsTerminated_of_valid hvalid)) (written_clearReserved h)
    (length_recordBytes _) hlength

inductive Defect (record : List UInt8) : Prop
  | length (h : record.length ≠ settingsRecordBytes)
  | magic (h : readU32Le (fieldBytes fieldMagic record) ≠ settingsMagic)
  | version (h : readU16Le (fieldBytes fieldRecordVersion record) ≠ settingsRecordVersion)
  | recordLength (h : readU16Le (fieldBytes fieldRecordLength record) ≠ .ofNat settingsRecordBytes)
  | credentialVersion (h : readU16Le (fieldBytes fieldCredentialVersion record) ≠ credentialVersion)
  | passwordAlgorithm (h : readU16Le (fieldBytes fieldPasswordAlgorithm record) ≠ passwordAlgorithmVersion)
  | flag {field : Field} (hmem : field ∈ flagFields) (h : byteAt record field ≠ 0 ∧ byteAt record field ≠ 1)
  | padding {field : Field} (hmem : field ∈ textFields) (h : ¬ Padded (fieldBytes field record))
  | refused (h : (readFields record).validate ≠ .ok)

theorem not_accepted_of_defect {record : List UInt8} (h : Defect record) : ¬ Accepted record := by
  intro haccepted
  cases h with
  | length h => exact h haccepted.length
  | magic h => exact h haccepted.magic
  | version h => exact h haccepted.version
  | recordLength h => exact h haccepted.recordLength
  | credentialVersion h => exact h haccepted.credentialVersion
  | passwordAlgorithm h => exact h haccepted.passwordAlgorithm
  | @flag field hmem h =>
    have hle : (byteAt record field).toNat ≤ 1 := UInt8.le_iff_toNat_le.mp (haccepted.flags field hmem)
    rcases Nat.le_one_iff_eq_zero_or_eq_one.mp hle with hzero | hone
    · exact h.1 (UInt8.toNat_inj.mp hzero)
    · exact h.2 (UInt8.toNat_inj.mp hone)
  | @padding field hmem h => exact h (haccepted.texts field hmem).1
  | refused h => exact h haccepted.valid

/-- A device that was set up, with a package and a network of its own. -/
def joiningSettings : DeviceSettings :=
  { DeviceSettings.initUnprovisioned with
    provisioned := true
    passwordIterations := 100000
    passwordSalt := ⟨List.replicate passwordSaltBytes 3, List.length_replicate⟩
    passwordVerifier := ⟨List.replicate passwordVerifierBytes 4, List.length_replicate⟩
    nextBlobId := 7
    requireSerialConfirmation := true
    stationConfigured := true
    lastSelectedPackageId := .copy _ (MacroKeyboard.bytes "9f1b2c3d-4e5f-4a6b-8c7d-0e1f2a3b4c5d")
    deviceName := .copy _ (MacroKeyboard.bytes "desk")
    apSsid := .copy _ (MacroKeyboard.bytes "keyboard")
    apPassphrase := .copy _ (MacroKeyboard.bytes "123456789012")
    stationSsid := .copy _ (MacroKeyboard.bytes "home network")
    stationPassphrase := .copy _ (MacroKeyboard.bytes "a passphrase") }

def joiningRecord : List UInt8 := (encode joiningSettings (List.replicate settingsRecordBytes 0)).2

/-- Settings survive their encoding, the records that are accepted are the
encodings of valid settings up to the two reserved flags, and a record with
anything wrong is refused without a trace. -/
theorem settings_codec :
    (∀ settings record out, settings.validate = .ok → record.length = settingsRecordBytes →
      (encode settings record).1 = .ok ∧
        ∃ decoded, decode (encode settings record).2 out = (.ok, decoded) ∧ SameSettings decoded settings) ∧
    (∀ record out, (decode record out).1 = .ok → (decode record out).2.validate = .ok ∧
      ∀ target, target.length = settingsRecordBytes →
        encode (decode record out).2 target = (.ok, clearReserved record)) ∧
    ∀ record out, Defect record → (decode record out).1 ≠ .ok ∧ (decode record out).2 = out := by
  refine ⟨fun settings record out hvalid hlength => ?_, fun record out h => ?_, fun record out h => ?_⟩
  · have hvalid := validate_eq_ok_iff.mp hvalid
    rw [encode_of_valid hvalid hlength]
    exact ⟨rfl, canonical settings, decode_recordBytes hvalid out, sameSettings_canonical settings⟩
  · have haccepted := accepted_of_decode h
    rw [decode_of_accepted haccepted]
    refine ⟨haccepted.valid, fun target htarget => ?_⟩
    rw [encode_of_valid (validate_eq_ok_iff.mp haccepted.valid) htarget, recordBytes_readFields haccepted]
  · have hrefused : (decode record out).1 ≠ .ok := fun hok =>
      not_accepted_of_defect h (accepted_of_decode hok)
    exact ⟨hrefused, decode_untouched hrefused⟩

theorem settings_codec_joining :
    (encode joiningSettings (List.replicate settingsRecordBytes 0)).1 = .ok ∧
    (∃ decoded, decode joiningRecord .initUnprovisioned = (.ok, decoded) ∧ SameSettings decoded joiningSettings) ∧
    (decode (joiningRecord.set fieldProvisioned.1 2) .initUnprovisioned).1 ≠ .ok ∧
    (decode (joiningRecord.set fieldProvisioned.1 2) .initUnprovisioned).2 = .initUnprovisioned := by
  obtain ⟨hencoded, hdecoded⟩ := settings_codec.1 joiningSettings (List.replicate settingsRecordBytes 0) .initUnprovisioned
    (by decide +kernel) List.length_replicate
  have hdefect : Defect (joiningRecord.set fieldProvisioned.1 2) :=
    @Defect.flag _ fieldProvisioned (by decide) (by decide +kernel)
  exact ⟨hencoded, hdecoded, settings_codec.2.2 _ .initUnprovisioned hdefect⟩

end MacroKeyboard.Settings.RoundTrip
