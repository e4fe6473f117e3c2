import MacroKeyboard.Limits
import MacroKeyboard.Records.Slices
import MacroKeyboard.Records.LittleEndian

namespace MacroKeyboard.Settings

open Records.Slices Records.LittleEndian

def settingsMagic : UInt32 := 0x324b4d45
def settingsRecordVersion : UInt16 := 1
def settingsRecordBytes : Nat := 344
def credentialVersion : UInt16 := 1
def passwordAlgorithmVersion : UInt16 := 1
def passwordSaltBytes : Nat := 16
def passwordVerifierBytes : Nat := 32
def deviceNameMaxBytes : Nat := 32
def wifiSsidMaxBytes : Nat := 32
def wifiPassphraseMinBytes : Nat := 8
def wifiPassphraseMaxBytes : Nat := 63
def uuidTextBytes : Nat := 36
def uuidBufferBytes : Nat := 37
def defaultSnapshotRetentionTarget : UInt8 := 5

structure Buffer (n : Nat) where
  bytes : List UInt8
  size : bytes.length = n
deriving DecidableEq, Repr

namespace Buffer

theorem ext_bytes {n : Nat} {a b : Buffer n} (h : a.bytes = b.bytes) : a = b := by
  cases a
  cases b
  cases h
  rfl

/-- `memset` to zero and `memcpy` of the source. -/
def copy (n : Nat) (source : List UInt8) : Buffer n :=
  ⟨(source ++ List.replicate n 0).take n, by simp⟩

def zero (n : Nat) : Buffer n := ⟨List.replicate n 0, List.length_replicate⟩

theorem bytes_copy (n : Nat) (source : List UInt8) :
    (copy n source).bytes = (source ++ List.replicate n 0).take n := rfl

theorem copy_of_length {n : Nat} {source : List UInt8} (h : source.length = n) :
    (copy n source).bytes = source := by
  rw [bytes_copy, List.take_append_of_le_length (by omega), List.take_of_length_le (by omega)]

end Buffer

inductive SettingsResult
  | ok | invalidArgument | invalidLength | corrupt | unsupportedVersion
deriving DecidableEq, Repr

structure DeviceSettings where
  provisioned : Bool
  credentialVersion : UInt16
  passwordAlgorithmVersion : UInt16
  passwordIterations : UInt32
  passwordSalt : Buffer passwordSaltBytes
  passwordVerifier : Buffer passwordVerifierBytes
  nextBlobId : UInt64
  snapshotRetentionTarget : UInt8
  requireSerialConfirmation : Bool
  stationConfigured : Bool
  lastSelectedPackageId : Buffer uuidBufferBytes
  deviceName : Buffer (deviceNameMaxBytes + 1)
  apSsid : Buffer (wifiSsidMaxBytes + 1)
  apPassphrase : Buffer (wifiPassphraseMaxBytes + 1)
  stationSsid : Buffer (wifiSsidMaxBytes + 1)
  stationPassphrase : Buffer (wifiPassphraseMaxBytes + 1)
deriving DecidableEq, Repr

/-- The offsets and lengths of the record fields. -/
def fieldMagic : Field := (0, 4)
def fieldRecordVersion : Field := (4, 2)
def fieldRecordLength : Field := (6, 2)
def fieldCredentialVersion : Field := (8, 2)
def fieldPasswordAlgorithm : Field := (10, 2)
def fieldPasswordIterations : Field := (12, 4)
def fieldPasswordSalt : Field := (16, 16)
def fieldPasswordVerifier : Field := (32, 32)
def fieldNextBlobId : Field := (64, 8)
def fieldReservedSendMode : Field := (72, 1)
def fieldRetentionTarget : Field := (73, 1)
def fieldReservedShowSource : Field := (74, 1)
def fieldRequireConfirmation : Field := (75, 1)
def fieldProvisioned : Field := (76, 1)
def fieldStationConfigured : Field := (77, 1)
def fieldReserved : Field := (78, 2)
def fieldLastSelectedPackage : Field := (80, 37)
def fieldDeviceName : Field := (117, 33)
def fieldApSsid : Field := (150, 33)
def fieldApPassphrase : Field := (183, 64)
def fieldStationSsid : Field := (247, 33)
def fieldStationPassphrase : Field := (280, 64)

def fieldBytes (field : Field) (record : List UInt8) : List UInt8 := slice field.1 field.2 record

def bytesAreZero (bytes : List UInt8) : Bool := bytes.all (· == 0)

/-- The index of the first zero byte within the capacity. -/
def boundedLength : List UInt8 → Nat → Option Nat
  | _, 0 | [], _ => none
  | byte :: rest, capacity + 1 =>
    if byte = 0 then some 0 else (boundedLength rest capacity).map (· + 1)

/-- The value bits of the first byte of a sequence, the number of continuation
bytes and the smallest code point that needs them. -/
def utf8Lead (first : UInt8) : Option (UInt32 × Nat × UInt32) :=
  if 0xc2 ≤ first ∧ first ≤ 0xdf then some ((first &&& 0x1f).toUInt32, 1, 0x80)
  else if 0xe0 ≤ first ∧ first ≤ 0xef then some ((first &&& 0x0f).toUInt32, 2, 0x800)
  else if 0xf0 ≤ first ∧ first ≤ 0xf4 then some ((first &&& 0x07).toUInt32, 3, 0x10000)
  else none

/-- The `for` loop over the continuation bytes. -/
def utf8Continue : UInt32 → List UInt8 → Option UInt32
  | codePoint, [] => some codePoint
  | codePoint, continuation :: rest =>
    if continuation &&& 0xc0 ≠ 0x80 then none
    else utf8Continue ((codePoint <<< 6) ||| (continuation &&& 0x3f).toUInt32) rest

/-- The `while` loop of `valid_utf8`. Every pass consumes a byte, so `length`
passes are enough. -/
def validUtf8Loop : Nat → List UInt8 → Bool
  | _, [] => true
  | 0, _ => false
  | passes + 1, first :: rest =>
    if first ≤ 0x7f then validUtf8Loop passes rest
    else
      match utf8Lead first with
      | none => false
      | some (bits, count, minimum) =>
        if count > rest.length then false
        else
          match utf8Continue bits (rest.take count) with
          | none => false
          | some codePoint =>
            if codePoint < minimum ∨ codePoint > 0x10ffff ∨ (0xd800 ≤ codePoint ∧ codePoint ≤ 0xdfff) then
              false
            else validUtf8Loop passes (rest.drop count)

def validUtf8 (text : List UInt8) : Bool := validUtf8Loop text.length text

def validText (text : List UInt8) (capacity minimum maximum : Nat) : Bool :=
  match boundedLength text capacity with
  | none => false
  | some length => minimum ≤ length && length ≤ maximum && validUtf8 (text.take length)

def uuidHyphenIndexes : List Nat := [8, 13, 18, 23]
def uuidVersionIndex : Nat := 14
def uuidVariantIndex : Nat := 19

def uuidCharacters (uuid : List UInt8) : Bool :=
  (List.range uuidTextBytes).all (fun index =>
    let value := uuid.getD index 0
    if index ∈ uuidHyphenIndexes then value == 0x2d
    else (0x30 ≤ value && value ≤ 0x39) || (0x61 ≤ value && value ≤ 0x66)) &&
  uuid.getD uuidVersionIndex 0 == 0x34 &&
  (uuid.getD uuidVariantIndex 0 == 0x38 || uuid.getD uuidVariantIndex 0 == 0x39 ||
    uuid.getD uuidVariantIndex 0 == 0x61 || uuid.getD uuidVariantIndex 0 == 0x62)

def validUuidOrEmpty (uuid : List UInt8) : Bool :=
  match boundedLength uuid uuidBufferBytes with
  | none => false
  | some 0 => true
  | some length => if length ≠ uuidTextBytes then false else uuidCharacters uuid

namespace DeviceSettings

def credentialBytesPresent (settings : DeviceSettings) : Bool :=
  settings.passwordIterations ≠ 0 && !bytesAreZero settings.passwordSalt.bytes &&
    !bytesAreZero settings.passwordVerifier.bytes

def credentialBytesAbsent (settings : DeviceSettings) : Bool :=
  settings.passwordIterations = 0 && bytesAreZero settings.passwordSalt.bytes &&
    bytesAreZero settings.passwordVerifier.bytes

def stationPassphraseValid (settings : DeviceSettings) : Bool :=
  match boundedLength settings.stationPassphrase.bytes (wifiPassphraseMaxBytes + 1) with
  | none => false
  | some 0 => true
  | some length =>
    wifiPassphraseMinBytes ≤ length && length ≤ wifiPassphraseMaxBytes &&
      validUtf8 (settings.stationPassphrase.bytes.take length)

def stationFieldsValid (settings : DeviceSettings) : Bool :=
  if settings.stationConfigured then
    validText settings.stationSsid.bytes (wifiSsidMaxBytes + 1) 1 wifiSsidMaxBytes &&
      settings.stationPassphraseValid
  else
    validText settings.stationSsid.bytes (wifiSsidMaxBytes + 1) 0 0 &&
      validText settings.stationPassphrase.bytes (wifiPassphraseMaxBytes + 1) 0 0

def validate (settings : DeviceSettings) : SettingsResult :=
  if settings.credentialVersion ≠ Settings.credentialVersion ∨
      settings.passwordAlgorithmVersion ≠ Settings.passwordAlgorithmVersion ∨
      settings.snapshotRetentionTarget > Limits.snapshotRetentionTargetMax ∨
      ¬ validUuidOrEmpty settings.lastSelectedPackageId.bytes ∨
      ¬ validText settings.deviceName.bytes (deviceNameMaxBytes + 1) 1 deviceNameMaxBytes then
    .corrupt
  else if ¬ settings.provisioned then
    if ¬ settings.credentialBytesAbsent ∨
        ¬ validText settings.apSsid.bytes (wifiSsidMaxBytes + 1) 0 0 ∨
        ¬ validText settings.apPassphrase.bytes (wifiPassphraseMaxBytes + 1) 0 0 ∨
        ¬ settings.stationFieldsValid then
      .corrupt
    else .ok
  else if ¬ settings.credentialBytesPresent ∨
      ¬ validText settings.apSsid.bytes (wifiSsidMaxBytes + 1) 1 wifiSsidMaxBytes ∨
      ¬ validText settings.apPassphrase.bytes (wifiPassphraseMaxBytes + 1) wifiPassphraseMinBytes
        wifiPassphraseMaxBytes then
    .corrupt
  else if ¬ settings.stationFieldsValid then .corrupt
  else .ok

def defaultDeviceName : List UInt8 := MacroKeyboard.bytes "ESP32 Macro Keyboard"

def initUnprovisioned : DeviceSettings where
  provisioned := false
  credentialVersion := Settings.credentialVersion
  passwordAlgorithmVersion := Settings.passwordAlgorithmVersion
  passwordIterations := 0
  passwordSalt := .zero _
  passwordVerifier := .zero _
  nextBlobId := 0
  snapshotRetentionTarget := defaultSnapshotRetentionTarget
  requireSerialConfirmation := false
  stationConfigured := false
  lastSelectedPackageId := .zero _
  deviceName := .copy _ defaultDeviceName
  apSsid := .zero _
  apPassphrase := .zero _
  stationSsid := .zero _
  stationPassphrase := .zero _

end DeviceSettings

def writeU16Le (value : UInt16) : List UInt8 := writeLe 2 value.toNat
def writeU32Le (value : UInt32) : List UInt8 := writeLe 4 value.toNat
def writeU64Le (value : UInt64) : List UInt8 := writeLe 8 value.toNat

def readU16Le (source : List UInt8) : UInt16 := .ofNat (readLe source)
def readU32Le (source : List UInt8) : UInt32 := .ofNat (readLe source)
def readU64Le (source : List UInt8) : UInt64 := .ofNat (readLe source)

/-- The bytes that `write_record_text` copies, without the terminator; none of a
text that has no terminator. -/
def writeRecordText (length : Nat) (text : List UInt8) : List UInt8 :=
  text.take ((boundedLength text length).getD 0)

def copyRecordText (n : Nat) (source : List UInt8) : Option (Buffer n) :=
  match boundedLength source source.length with
  | none => none
  | some terminator =>
    if terminator ≥ n ∨ ¬ validUtf8 (source.take terminator) ∨
        ¬ bytesAreZero (source.drop (terminator + 1)) then none
    else some (.copy n (source.take terminator))

def flagByte (flag : Bool) : List UInt8 := [if flag then 1 else 0]

/-- What the encoder writes into the zeroed record, in its order. -/
def recordWrites (settings : DeviceSettings) : List (Field × List UInt8) :=
  [ (fieldMagic, writeU32Le settingsMagic),
    (fieldRecordVersion, writeU16Le settingsRecordVersion),
    (fieldRecordLength, writeU16Le (.ofNat settingsRecordBytes)),
    (fieldCredentialVersion, writeU16Le settings.credentialVersion),
    (fieldPasswordAlgorithm, writeU16Le settings.passwordAlgorithmVersion),
    (fieldPasswordIterations, writeU32Le settings.passwordIterations),
    (fieldPasswordSalt, settings.passwordSalt.bytes),
    (fieldPasswordVerifier, settings.passwordVerifier.bytes),
    (fieldNextBlobId, writeU64Le settings.nextBlobId),
    (fieldRetentionTarget, [settings.snapshotRetentionTarget]),
    (fieldRequireConfirmation, flagByte settings.requireSerialConfirmation),
    (fieldProvisioned, flagByte settings.provisioned),
    (fieldStationConfigured, flagByte settings.stationConfigured),
    (fieldLastSelectedPackage, writeRecordText 37 settings.lastSelectedPackageId.bytes),
    (fieldDeviceName, writeRecordText 33 settings.deviceName.bytes),
    (fieldApSsid, writeRecordText 33 settings.apSsid.bytes),
    (fieldApPassphrase, writeRecordText 64 settings.apPassphrase.bytes),
    (fieldStationSsid, writeRecordText 33 settings.stationSsid.bytes),
    (fieldStationPassphrase, writeRecordText 64 settings.stationPassphrase.bytes) ]

def encode (settings : DeviceSettings) (record : List UInt8) : SettingsResult × List UInt8 :=
  if record.length ≠ settingsRecordBytes then (.invalidLength, record)
  else
    let validation := settings.validate
    if validation ≠ .ok then (validation, record)
    else (.ok, writeAll (recordWrites settings) (List.replicate settingsRecordBytes 0))

def byteAt (record : List UInt8) (field : Field) : UInt8 := record.getD field.1 0

/-- The `decoded` settings of `app_v2_device_settings_decode`, when its texts can
be copied. -/
def decodeFields (record : List UInt8) : Option DeviceSettings := do
  let lastSelectedPackageId ← copyRecordText _ (fieldBytes fieldLastSelectedPackage record)
  let deviceName ← copyRecordText _ (fieldBytes fieldDeviceName record)
  let apSsid ← copyRecordText _ (fieldBytes fieldApSsid record)
  let apPassphrase ← copyRecordText _ (fieldBytes fieldApPassphrase record)
  let stationSsid ← copyRecordText _ (fieldBytes fieldStationSsid record)
  let stationPassphrase ← copyRecordText _ (fieldBytes fieldStationPassphrase record)
  pure
    { provisioned := byteAt record fieldProvisioned ≠ 0
      credentialVersion := credentialVersion
      passwordAlgorithmVersion := passwordAlgorithmVersion
      passwordIterations := readU32Le (fieldBytes fieldPasswordIterations record)
      passwordSalt := .copy _ (fieldBytes fieldPasswordSalt record)
      passwordVerifier := .copy _ (fieldBytes fieldPasswordVerifier record)
      nextBlobId := readU64Le (fieldBytes fieldNextBlobId record)
      snapshotRetentionTarget := byteAt record fieldRetentionTarget
      requireSerialConfirmation := byteAt record fieldRequireConfirmation ≠ 0
      stationConfigured := byteAt record fieldStationConfigured ≠ 0
      lastSelectedPackageId, deviceName, apSsid, apPassphrase, stationSsid, stationPassphrase }

def decode (record : List UInt8) (settings : DeviceSettings) : SettingsResult × DeviceSettings :=
  if record.length ≠ settingsRecordBytes then (.invalidLength, settings)
  else if readU32Le (fieldBytes fieldMagic record) ≠ settingsMagic then (.corrupt, settings)
  else if readU16Le (fieldBytes fieldRecordVersion record) ≠ settingsRecordVersion then
    (.unsupportedVersion, settings)
  else if readU16Le (fieldBytes fieldRecordLength record) ≠ .ofNat settingsRecordBytes then
    (.corrupt, settings)
  else if readU16Le (fieldBytes fieldCredentialVersion record) ≠ credentialVersion ∨
      readU16Le (fieldBytes fieldPasswordAlgorithm record) ≠ passwordAlgorithmVersion then
    (.unsupportedVersion, settings)
  else if ¬ bytesAreZero (fieldBytes fieldReserved record) ∨
      byteAt record fieldReservedSendMode > 1 ∨
      byteAt record fieldRetentionTarget > Limits.snapshotRetentionTargetMax ∨
      byteAt record fieldReservedShowSource > 1 ∨
      byteAt record fieldRequireConfirmation > 1 ∨
      byteAt record fieldProvisioned > 1 ∨
      byteAt record fieldStationConfigured > 1 then
    (.corrupt, settings)
  else
    match decodeFields record with
    | none => (.corrupt, settings)
    | some decoded =>
      match decoded.validate with
      | .ok => (.ok, decoded)
      | validation => (validation, settings)

def resetNoncredential (settings : DeviceSettings) : SettingsResult × DeviceSettings :=
  let validation := settings.validate
  if validation ≠ .ok ∨ ¬ settings.provisioned then
    (if validation = .ok then .invalidArgument else validation, settings)
  else
    let reset :=
      { settings with
        deviceName := .copy _ DeviceSettings.defaultDeviceName
        requireSerialConfirmation := false
        snapshotRetentionTarget := defaultSnapshotRetentionTarget
        lastSelectedPackageId := .zero _
        stationConfigured := false
        stationSsid := .zero _
        stationPassphrase := .zero _ }
    (reset.validate, reset)

end MacroKeyboard.Settings
