import MacroKeyboard.Settings.DeviceSettings
import MacroKeyboard.Records.PaddedText

namespace MacroKeyboard.Settings

open Records.Slices Records.LittleEndian Records.PaddedText

theorem boundedLength_eq (text : List UInt8) : boundedLength text text.length =
    if 0 ∈ text then some (textOf text).length else none := by
  induction text with
  | nil => rfl
  | cons byte rest ih =>
    rw [List.length_cons, boundedLength]
    by_cases hbyte : byte = 0
    · simp [hbyte, textOf]
    · have htext : textOf (byte :: rest) = byte :: textOf rest := by simp [textOf, hbyte]
      rw [if_neg hbyte, ih, htext]
      by_cases hmem : 0 ∈ rest
      · simp [hmem]
      · simp [hmem, Ne.symm hbyte]

theorem boundedLength_of_size {text : List UInt8} {n : Nat} (h : text.length = n) :
    boundedLength text n = if 0 ∈ text then some (textOf text).length else none := by
  rw [← h]
  exact boundedLength_eq text

theorem take_length_textOf (text : List UInt8) : text.take (textOf text).length = textOf text :=
  (List.prefix_iff_eq_take.mp (List.takeWhile_prefix _)).symm

theorem validText_iff {text : List UInt8} {n minimum maximum : Nat} (h : text.length = n) :
    validText text n minimum maximum = true ↔ 0 ∈ text ∧ minimum ≤ (textOf text).length ∧
      (textOf text).length ≤ maximum ∧ validUtf8 (textOf text) = true := by
  rw [validText, boundedLength_of_size h]
  by_cases hzero : 0 ∈ text
  · simp [hzero, take_length_textOf, and_assoc]
  · simp [hzero]

theorem bytesAreZero_iff {content : List UInt8} : bytesAreZero content = true ↔ ∀ byte ∈ content, byte = 0 := by
  simp [bytesAreZero]

/-- A padded and valid record text is copied as it is into an array of its
length. -/
theorem copyRecordText_of_padded {n : Nat} {source : List UInt8} (h : source.length = n)
    (hpadded : Padded source) (hutf8 : validUtf8 (textOf source) = true) :
    copyRecordText n source = some ⟨source, h⟩ := by
  subst h
  obtain ⟨hzero, hrest⟩ := padded_iff.mp hpadded
  have hlength := length_textOf_lt hzero
  have hzeros : bytesAreZero (source.drop ((textOf source).length + 1)) = true := bytesAreZero_iff.mpr hrest
  have hcopy : Buffer.copy source.length (textOf source) = ⟨source, rfl⟩ := by
    apply Buffer.ext_bytes
    have hsource := pad_textOf hpadded
    rw [Buffer.bytes_copy, List.take_append, List.take_of_length_le (by omega), List.take_replicate,
      min_eq_left (by omega)]
    exact hsource
  rw [copyRecordText, boundedLength_eq, if_pos hzero]
  simp only [take_length_textOf, hutf8, hzeros, hcopy]
  rw [if_neg (by simp; omega)]

theorem padded_of_copyRecordText {n : Nat} {source : List UInt8} {buffer : Buffer n}
    (hcopy : copyRecordText n source = some buffer) :
    Padded source ∧ validUtf8 (textOf source) = true := by
  rw [copyRecordText, boundedLength_eq] at hcopy
  by_cases hzero : 0 ∈ source
  · simp only [hzero, if_true, take_length_textOf] at hcopy
    split_ifs at hcopy with hbad
    push Not at hbad
    exact ⟨padded_iff.mpr ⟨hzero, bytesAreZero_iff.mp (by simpa using hbad.2.2)⟩, by simpa using hbad.2.1⟩
  · simp [hzero] at hcopy

theorem validUtf8_of_ascii {text : List UInt8} (h : ∀ byte ∈ text, byte ≤ 0x7f) : validUtf8 text = true := by
  unfold validUtf8
  induction text with
  | nil => rfl
  | cons byte rest ih =>
    rw [List.length_cons, validUtf8Loop, if_pos (h byte List.mem_cons_self)]
    exact ih fun other hmem => h other (List.mem_cons_of_mem _ hmem)

theorem getD_textOf {text : List UInt8} {index : Nat} (h : index < (textOf text).length) :
    text.getD index 0 = (textOf text).getD index 0 := by
  obtain ⟨rest, hrest⟩ := List.takeWhile_prefix (l := text) (· != 0)
  have hsplit : textOf text ++ rest = text := hrest
  calc text.getD index 0 = (textOf text ++ rest).getD index 0 := by rw [hsplit]
    _ = (textOf text).getD index 0 := List.getD_append _ _ _ _ h

theorem uuidCharacters_textOf {uuid : List UInt8} (h : (textOf uuid).length = uuidTextBytes) :
    uuidCharacters uuid = uuidCharacters (textOf uuid) := by
  have hget : ∀ index, index < uuidTextBytes → uuid.getD index 0 = (textOf uuid).getD index 0 :=
    fun index hindex => getD_textOf (by omega)
  have hversion := hget uuidVersionIndex (by decide)
  have hvariant := hget uuidVariantIndex (by decide)
  unfold uuidCharacters
  rw [hversion, hvariant]
  congr 2
  rw [Bool.eq_iff_iff, List.all_eq_true, List.all_eq_true]
  exact forall₂_congr fun index hindex => by rw [hget index (List.mem_range.mp hindex)]

theorem validUuidOrEmpty_iff {uuid : List UInt8} (h : uuid.length = uuidBufferBytes) :
    validUuidOrEmpty uuid = true ↔ 0 ∈ uuid ∧
      (textOf uuid = [] ∨ ((textOf uuid).length = uuidTextBytes ∧ uuidCharacters (textOf uuid) = true)) := by
  rw [validUuidOrEmpty, boundedLength_of_size h]
  by_cases hzero : 0 ∈ uuid
  · simp only [hzero, if_true, true_and]
    cases hlength : (textOf uuid).length with
    | zero => simp [List.length_eq_zero_iff.mp hlength]
    | succ n =>
      have hne : textOf uuid ≠ [] := fun hnil => by simp [hnil] at hlength
      by_cases hn : n + 1 = uuidTextBytes
      · have hchars := uuidCharacters_textOf (hlength.trans hn)
        simp only [hne, hn, hchars, false_or, true_and]
        simp [uuidTextBytes]
      · simp [hne, hn]
  · simp [hzero]

theorem ascii_of_uuidCharacters {uuid : List UInt8} (hlength : uuid.length = uuidTextBytes)
    (h : uuidCharacters uuid = true) : ∀ byte ∈ uuid, byte ≤ 0x7f := by
  intro byte hmem
  obtain ⟨index, hindex, rfl⟩ := List.getElem_of_mem hmem
  unfold uuidCharacters at h
  rw [Bool.and_eq_true, Bool.and_eq_true, List.all_eq_true] at h
  have hchar := h.1.1 index (List.mem_range.mpr (by omega))
  have hget : uuid.getD index 0 = uuid[index] := by simp [List.getD, hindex]
  rw [hget] at hchar
  split_ifs at hchar with hhyphen
  · rw [beq_iff_eq.mp hchar]
    decide
  · simp only [Bool.or_eq_true, Bool.and_eq_true, decide_eq_true_eq] at hchar
    rcases hchar with ⟨-, hle⟩ | ⟨-, hle⟩
    · exact UInt8.le_trans hle (by decide)
    · exact UInt8.le_trans hle (by decide)

theorem validUtf8_of_uuid {uuid : List UInt8} (h : uuid.length = uuidBufferBytes)
    (hvalid : validUuidOrEmpty uuid = true) : validUtf8 (textOf uuid) = true := by
  rcases ((validUuidOrEmpty_iff h).mp hvalid).2 with hnil | ⟨hlength, hchars⟩
  · rw [hnil]
    rfl
  · exact validUtf8_of_ascii (ascii_of_uuidCharacters hlength hchars)

structure Valid (settings : DeviceSettings) : Prop where
  credentialVersion : settings.credentialVersion = Settings.credentialVersion
  passwordAlgorithmVersion : settings.passwordAlgorithmVersion = Settings.passwordAlgorithmVersion
  retention : settings.snapshotRetentionTarget ≤ Limits.snapshotRetentionTargetMax
  package : validUuidOrEmpty settings.lastSelectedPackageId.bytes = true
  deviceName : validText settings.deviceName.bytes (deviceNameMaxBytes + 1) 1 deviceNameMaxBytes = true
  credentials : if settings.provisioned then settings.credentialBytesPresent = true
    else settings.credentialBytesAbsent = true
  apSsid : validText settings.apSsid.bytes (wifiSsidMaxBytes + 1) (if settings.provisioned then 1 else 0)
    (if settings.provisioned then wifiSsidMaxBytes else 0) = true
  apPassphrase : validText settings.apPassphrase.bytes (wifiPassphraseMaxBytes + 1)
    (if settings.provisioned then wifiPassphraseMinBytes else 0)
    (if settings.provisioned then wifiPassphraseMaxBytes else 0) = true
  station : settings.stationFieldsValid = true

theorem validate_eq_ok_iff {settings : DeviceSettings} : settings.validate = .ok ↔ Valid settings := by
  unfold DeviceSettings.validate
  constructor
  · intro h
    split_ifs at h with hcommon hprovisioned hnetwork hstation hdefaults
    · push Not at hcommon hnetwork
      obtain ⟨hcredential, halgorithm, hretention, huuid, hname⟩ := hcommon
      obtain ⟨hpresent, hssid, hpassphrase⟩ := hnetwork
      exact ⟨hcredential, halgorithm, UInt8.not_lt.mp hretention, huuid, hname, by simpa [hprovisioned] using hpresent,
        by simpa [hprovisioned] using hssid, by simpa [hprovisioned] using hpassphrase, hstation⟩
    · push Not at hcommon hdefaults
      obtain ⟨hcredential, halgorithm, hretention, huuid, hname⟩ := hcommon
      obtain ⟨habsent, hssid, hpassphrase, hstation⟩ := hdefaults
      exact ⟨hcredential, halgorithm, UInt8.not_lt.mp hretention, huuid, hname, by simpa [hprovisioned] using habsent,
        by simpa [hprovisioned] using hssid, by simpa [hprovisioned] using hpassphrase, hstation⟩
  · rintro ⟨hcredential, halgorithm, hretention, huuid, hname, hbytes, hssid, hpassphrase, hstation⟩
    have hle : ¬ settings.snapshotRetentionTarget > Limits.snapshotRetentionTargetMax :=
      UInt8.not_lt.mpr hretention
    rw [if_neg (by simp [hcredential, halgorithm, hle, huuid, hname])]
    by_cases hprovisioned : settings.provisioned = true
    · rw [if_pos hprovisioned] at hbytes
      simp only [hprovisioned, if_true] at hssid hpassphrase
      rw [if_neg (by simp [hprovisioned]), if_neg (by simp [hbytes, hssid, hpassphrase]),
        if_neg (by simp [hstation])]
    · rw [if_neg hprovisioned] at hbytes
      simp only [hprovisioned] at hssid hpassphrase
      rw [if_pos hprovisioned, if_neg]
      simp only [hbytes, hstation, not_true_eq_false, false_or, or_false, not_or, not_not]
      exact ⟨hssid, hpassphrase⟩

theorem stationPassphraseValid_iff {settings : DeviceSettings} : settings.stationPassphraseValid = true ↔
    0 ∈ settings.stationPassphrase.bytes ∧ (textOf settings.stationPassphrase.bytes = [] ∨
      (wifiPassphraseMinBytes ≤ (textOf settings.stationPassphrase.bytes).length ∧
        (textOf settings.stationPassphrase.bytes).length ≤ wifiPassphraseMaxBytes ∧
        validUtf8 (textOf settings.stationPassphrase.bytes) = true)) := by
  rw [DeviceSettings.stationPassphraseValid, boundedLength_of_size settings.stationPassphrase.size]
  by_cases hzero : 0 ∈ settings.stationPassphrase.bytes
  · simp only [hzero, if_true, true_and]
    have htake := take_length_textOf settings.stationPassphrase.bytes
    cases hlength : (textOf settings.stationPassphrase.bytes).length with
    | zero => simp [List.length_eq_zero_iff.mp hlength]
    | succ n =>
      have hne : textOf settings.stationPassphrase.bytes ≠ [] := fun hnil => by simp [hnil] at hlength
      rw [hlength] at htake
      simp [hne, htake, and_assoc]
  · simp [hzero]

end MacroKeyboard.Settings
