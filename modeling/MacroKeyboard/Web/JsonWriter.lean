import MacroKeyboard.Json.Unambiguous
import MacroKeyboard.Limits
import MacroKeyboard.Records.CString

namespace MacroKeyboard.Web.JsonWriter

open Json Records.CString Records.PaddedText

section Writer

/-- The writer, with the memory of its buffer; the capacity is the length of it. -/
structure Writer where
  buffer : List UInt8
  length : Nat
  failed : Bool

def store (buffer : List UInt8) (index : Nat) (value : UInt8) : Option (List UInt8) :=
  if index < buffer.length then some (buffer.set index value) else none

def writerAppendByte (value : UInt8) (writer : Writer) : Option Writer :=
  if writer.failed then some writer
  else if writer.length + 1 ≥ writer.buffer.length then some { writer with failed := true }
  else do
    let buffer ← store writer.buffer writer.length value
    let buffer ← store buffer (writer.length + 1) 0
    some { writer with buffer, length := writer.length + 1 }

/-- The loop of `writer_append_text`, to the first zero byte. -/
def appendBytes : List UInt8 → Writer → Option Writer
  | [], writer => some writer
  | b :: text, writer => if b = 0 then some writer else writerAppendByte b writer >>= appendBytes text

def writerAppendText (text : Option (List UInt8)) (writer : Writer) : Option Writer :=
  match text with
  | none => some { writer with failed := true }
  | some text => appendBytes text writer

def hexadecimal : List UInt8 := bytes "0123456789abcdef"

/-- The `switch` of `writer_append_escaped`. -/
def appendEscapedByte (b : UInt8) (writer : Writer) : Option Writer :=
  if b = 0x22 then appendBytes (bytes "\\\"") writer
  else if b = 0x5c then appendBytes (bytes "\\\\") writer
  else if b = 0x08 then appendBytes (bytes "\\b") writer
  else if b = 0x0c then appendBytes (bytes "\\f") writer
  else if b = 0x0a then appendBytes (bytes "\\n") writer
  else if b = 0x0d then appendBytes (bytes "\\r") writer
  else if b = 0x09 then appendBytes (bytes "\\t") writer
  else if b < 0x20 then do
    let writer ← appendBytes (bytes "\\u00") writer
    let writer ← writerAppendByte (hexadecimal.getD (b >>> 4).toNat 0) writer
    writerAppendByte (hexadecimal.getD (b &&& 0x0f).toNat 0) writer
  else writerAppendByte b writer

/-- The loop of `writer_append_escaped`. -/
def appendEscapedBytes : List UInt8 → Writer → Option Writer
  | [], writer => some writer
  | b :: text, writer => if b = 0 then some writer else appendEscapedByte b writer >>= appendEscapedBytes text

def writerAppendEscaped (text : Option (List UInt8)) (writer : Writer) : Option Writer :=
  match text with
  | none => some { writer with failed := true }
  | some text => appendEscapedBytes text writer

def writerFinish (writer : Writer) : AppError := if writer.failed then .internal else .none

def webAdapterUint64TextMaxBytes : Nat := 24

def appendUint64 (value : UInt64) (writer : Writer) : Option Writer :=
  if (natText value.toNat).length ≥ webAdapterUint64TextMaxBytes then some { writer with failed := true }
  else writerAppendText (some (natText value.toNat)) writer

inductive Append
  | text (value : Option (List UInt8))
  | escaped (value : Option (List UInt8))
  | uint64 (value : UInt64)

def Append.run : Append → Writer → Option Writer
  | .text value => writerAppendText value
  | .escaped value => writerAppendEscaped value
  | .uint64 value => appendUint64 value

def appendAll : List Append → Writer → Option Writer
  | [], writer => some writer
  | append :: appends, writer => append.run writer >>= appendAll appends

end Writer

section Builders

def literal (s : String) : Append := .text (some (bytes s))

/-- What the builders do with their appends and an output that has a first byte. -/
def buildJson (appends : List Append) (output : List UInt8) : Option (AppError × List UInt8) := do
  let writer ← appendAll appends ⟨cleared output, 0, false⟩
  let result := writerFinish writer
  some (result, if result ≠ .none then cleared writer.buffer else writer.buffer)

def errorAppends (code : AppError) (message : List UInt8) : List Append :=
  [literal "\x7b\"error\":\x7b\"code\":\"", .escaped (some (bytes (appErrorCodeString code))),
    literal "\",\"message\":\"", .escaped (some message), literal "\"\x7d\x7d"]

def webAdapterBuildErrorJson (code : AppError) (message output : Option (List UInt8)) :
    Option (AppError × Option (List UInt8)) :=
  match message, output with
  | some message, some output =>
    if output.length = 0 then some (.invalidArgument, some output)
    else (buildJson (errorAppends code message) output).map (Prod.map id some)
  | _, output => some (.invalidArgument, output.map cleared)

inductive SubsystemHealthState
  | healthy | degraded | unavailable | recovering | failed
deriving DecidableEq, Repr

def subsystemHealthStateString : SubsystemHealthState → String
  | .healthy => "healthy"
  | .degraded => "degraded"
  | .unavailable => "unavailable"
  | .recovering => "recovering"
  | .failed => "failed"

def webDiagnosticsSubsystemCount : Nat := 8

structure WebDiagnosticsSubsystem where
  name : Option (List UInt8)
  state : SubsystemHealthState

structure WebDiagnosticsCapacity where
  totalBytes : UInt32
  usedBytes : UInt32

/-- The names that were reported lie in their arrays. -/
structure WebDiagnosticsBlobScan where
  blobCount : UInt32
  invalidNameCount : UInt32
  reportedInvalidNameCount : UInt32
  invalidNamesTruncated : Bool
  invalidNames : List (List UInt8)
  temporaryFileCount : UInt32
  reportedTemporaryFileCount : UInt32
  temporaryFilesTruncated : Bool
  temporaryFiles : List (List UInt8)

structure WebDiagnosticsSnapshot where
  buildId : List UInt8
  firmwareVersion : List UInt8
  resetReason : Option (List UInt8)
  uptimeMs : UInt64
  freeHeapBytes : UInt64
  minimumFreeHeapBytes : UInt64
  largestFreeBlockBytes : UInt64
  usbState : Option (List UInt8)
  accessPointState : Option (List UInt8)
  stationState : Option (List UInt8)
  storageState : Option (List UInt8)
  webfs : WebDiagnosticsCapacity
  userdata : WebDiagnosticsCapacity
  blobScan : WebDiagnosticsBlobScan
  sendPresent : Bool
  sendState : Option (List UInt8)
  subsystems : Fin webDiagnosticsSubsystemCount → WebDiagnosticsSubsystem

def separator (index : Nat) : List Append := if index > 0 then [literal ","] else []

def stringArrayAppends (values : List (List UInt8)) (count : Nat) : List Append :=
  literal "[" :: (values.take count).zipIdx.flatMap (fun (value, index) =>
    separator index ++ [literal "\"", .escaped (some value), literal "\""]) ++ [literal "]"]

def sendAppends (snapshot : WebDiagnosticsSnapshot) : List Append :=
  literal (if snapshot.sendPresent then "true" else "false") ::
    if snapshot.sendPresent && snapshot.sendState.isSome then
      [literal ",\"state\":\"", .escaped snapshot.sendState, literal "\""]
    else [literal ",\"state\":null"]

def subsystemAppends (snapshot : WebDiagnosticsSnapshot) : List Append :=
  (List.finRange webDiagnosticsSubsystemCount).flatMap fun index =>
    separator index.val ++ [literal "\x7b\"name\":\"", .escaped (snapshot.subsystems index).name,
      literal "\",\"state\":\"", .escaped (some (bytes (subsystemHealthStateString (snapshot.subsystems index).state))),
      literal "\"\x7d"]

def diagnosticsAppends (snapshot : WebDiagnosticsSnapshot) : List Append :=
  [literal "\x7b\"firmwareVersion\":\"", .escaped (some snapshot.firmwareVersion),
    literal "\",\"buildId\":\"", .escaped (some snapshot.buildId),
    literal "\",\"resetReason\":\"", .escaped snapshot.resetReason,
    literal "\",\"uptimeMs\":", .uint64 snapshot.uptimeMs,
    literal ",\"memory\":\x7b\"freeHeapBytes\":", .uint64 snapshot.freeHeapBytes,
    literal ",\"minimumFreeHeapBytes\":", .uint64 snapshot.minimumFreeHeapBytes,
    literal ",\"largestFreeBlockBytes\":", .uint64 snapshot.largestFreeBlockBytes, literal "\x7d",
    literal ",\"usb\":\x7b\"state\":\"", .escaped snapshot.usbState, literal "\"\x7d",
    literal ",\"wifi\":\x7b\"accessPointState\":\"", .escaped snapshot.accessPointState,
    literal "\",\"stationState\":\"", .escaped snapshot.stationState, literal "\"\x7d",
    literal ",\"storage\":\x7b\"state\":\"", .escaped snapshot.storageState,
    literal "\",\"webfsTotalBytes\":", .uint64 snapshot.webfs.totalBytes.toUInt64,
    literal ",\"webfsUsedBytes\":", .uint64 snapshot.webfs.usedBytes.toUInt64,
    literal ",\"userdataTotalBytes\":", .uint64 snapshot.userdata.totalBytes.toUInt64,
    literal ",\"userdataUsedBytes\":", .uint64 snapshot.userdata.usedBytes.toUInt64,
    literal ",\"blobCount\":", .uint64 snapshot.blobScan.blobCount.toUInt64, literal ",\"invalidNames\":"] ++
  stringArrayAppends snapshot.blobScan.invalidNames snapshot.blobScan.reportedInvalidNameCount.toNat ++
  [literal ",\"temporaryFiles\":"] ++
  stringArrayAppends snapshot.blobScan.temporaryFiles snapshot.blobScan.reportedTemporaryFileCount.toNat ++
  [literal "\x7d", literal ",\"send\":\x7b\"present\":"] ++ sendAppends snapshot ++
  [literal "\x7d", literal ",\"subsystems\":["] ++ subsystemAppends snapshot ++ [literal "]\x7d"]

def webAdapterBuildDiagnosticsJson (snapshot : Option WebDiagnosticsSnapshot) (output : Option (List UInt8)) :
    Option (AppError × Option (List UInt8)) :=
  match snapshot, output with
  | some snapshot, some output =>
    if output.length = 0 then some (.invalidArgument, some output)
    else if snapshot.blobScan.invalidNamesTruncated ∨
        snapshot.blobScan.reportedInvalidNameCount ≠ snapshot.blobScan.invalidNameCount ∨
        snapshot.blobScan.temporaryFilesTruncated ∨
        snapshot.blobScan.reportedTemporaryFileCount ≠ snapshot.blobScan.temporaryFileCount then
      some (.storageCorrupt, some (cleared output))
    else (buildJson (diagnosticsAppends snapshot) output).map (Prod.map id some)
  | _, output => some (.invalidArgument, output.map cleared)

end Builders

section Appending

/-- The writer has written this into a buffer of the size, and a zero byte behind. -/
structure Holds (size : Nat) (writer : Writer) (out : List UInt8) : Prop where
  size : writer.buffer.length = size
  length : writer.length = out.length
  content : writer.buffer.take out.length = out
  terminated : 0 < out.length → writer.buffer[out.length]? = some 0

/-- A step of the writer appends a text, or a part of it and fails; a writer that has
failed stays as it is. -/
def Appends (step : Writer → Option Writer) (out : List UInt8) : Prop :=
  (∀ ⦃writer : Writer⦄, writer.failed = true → step writer = some writer) ∧
    ∀ ⦃size : Nat⦄ ⦃writer : Writer⦄ ⦃before : List UInt8⦄, writer.failed = false → Holds size writer before →
      ∃ after, step writer = some after ∧
        ((after.failed = false ∧ Holds size after (before ++ out)) ∨
          (after.failed = true ∧ ∃ front, front <+: out ∧ Holds size after (before ++ front)))

variable {step next : Writer → Option Writer} {out rest : List UInt8}

theorem Appends.nothing : Appends some [] := by
  refine ⟨fun writer _ => rfl, fun size writer before hfailed hholds => ⟨writer, rfl, Or.inl ⟨hfailed, ?_⟩⟩⟩
  rwa [List.append_nil]

theorem bind_of_some {writer middle : Writer} (h : step writer = some middle) :
    (fun writer => step writer >>= next) writer = next middle := by
  dsimp only
  rw [h]
  rfl

theorem Appends.bind (hstep : Appends step out) (hnext : Appends next rest) :
    Appends (fun writer => step writer >>= next) (out ++ rest) := by
  refine ⟨fun writer hfailed => ?_, fun size writer before hfailed hholds => ?_⟩
  · rw [bind_of_some (hstep.1 hfailed)]
    exact hnext.1 hfailed
  · obtain ⟨middle, hmiddle, ⟨hgood, hmore⟩ | ⟨hbad, front, hfront, hmore⟩⟩ := hstep.2 hfailed hholds
    · obtain ⟨after, hafter, hcases⟩ := hnext.2 hgood hmore
      refine ⟨after, (bind_of_some hmiddle).trans hafter, ?_⟩
      rcases hcases with ⟨hgood', hdone⟩ | ⟨hbad, front, hfront, hdone⟩
      · rw [List.append_assoc] at hdone
        exact Or.inl ⟨hgood', hdone⟩
      · rw [List.append_assoc] at hdone
        exact Or.inr ⟨hbad, out ++ front, (List.prefix_append_right_inj out).mpr hfront, hdone⟩
    · exact ⟨middle, (bind_of_some hmiddle).trans (hnext.1 hbad),
        Or.inr ⟨hbad, front, hfront.trans (List.prefix_append out rest), hmore⟩⟩

theorem Appends.fail (out : List UInt8) : Appends (fun writer => some { writer with failed := true }) out := by
  refine ⟨fun writer hfailed => ?_, fun size writer before _ hholds => ?_⟩
  · rw [← hfailed]
  · refine ⟨_, rfl, Or.inr ⟨rfl, [], List.nil_prefix, ?_⟩⟩
    rw [List.append_nil]
    exact ⟨hholds.size, hholds.length, hholds.content, hholds.terminated⟩

theorem appends_byte (value : UInt8) : Appends (writerAppendByte value) [value] := by
  refine ⟨fun writer hfailed => if_pos hfailed, fun size writer before hfailed hholds => ?_⟩
  by_cases hfull : writer.length + 1 ≥ writer.buffer.length
  · rw [writerAppendByte, if_neg (by rw [hfailed]; exact Bool.false_ne_true), if_pos hfull]
    exact (Appends.fail [value]).2 hfailed hholds
  · have hroom : writer.length + 1 < writer.buffer.length := not_le.mp hfull
    have hlength := hholds.length
    rw [writerAppendByte, if_neg (by rw [hfailed]; exact Bool.false_ne_true), if_neg hfull, store, if_pos (by omega),
      Option.bind_eq_bind, Option.bind_some, store, if_pos (by rw [List.length_set]; exact hroom), Option.bind_some]
    refine ⟨_, rfl, Or.inl ⟨hfailed, ?_, ?_, ?_, fun _ => ?_⟩⟩
    · rw [List.length_set, List.length_set]
      exact hholds.size
    · rw [List.length_append, hlength, List.length_singleton]
    · rw [List.length_append, List.length_singleton, ← hlength, List.take_set_of_le le_rfl,
        List.take_add_one, List.take_set_of_le le_rfl, List.getElem?_set_self (by omega), hlength, hholds.content]
      rfl
    · rw [List.length_append, List.length_singleton, ← hlength, List.getElem?_set_self]
      rw [List.length_set]
      exact hroom

theorem textOf_cons (b : UInt8) (text : List UInt8) : textOf (b :: text) = if b = 0 then [] else b :: textOf text := by
  rw [textOf, List.takeWhile_cons, ← textOf]
  by_cases h : b = 0 <;> simp [h]

theorem appends_loop {appendOne : UInt8 → Writer → Option Writer} {loop : List UInt8 → Writer → Option Writer}
    {image : UInt8 → List UInt8} (hnil : loop [] = some)
    (hcons : ∀ b text writer, loop (b :: text) writer =
      if b = 0 then some writer else appendOne b writer >>= loop text)
    (hone : ∀ b, Appends (appendOne b) (image b)) (text : List UInt8) : Appends (loop text) ((textOf text).flatMap image) := by
  induction text with
  | nil =>
    rw [hnil]
    exact Appends.nothing
  | cons b text ih =>
    rw [funext (hcons b text), textOf_cons]
    split_ifs with hzero
    · exact Appends.nothing
    · rw [List.flatMap_cons]
      exact (hone b).bind ih

theorem appends_bytes (text : List UInt8) : Appends (appendBytes text) (textOf text) := by
  have h : Appends (appendBytes text) ((textOf text).flatMap fun b => [b]) :=
    appends_loop rfl (fun _ _ _ => rfl) appends_byte text
  rwa [List.flatMap_singleton'] at h

def escapeByte (b : UInt8) : List UInt8 :=
  if b = 0x22 then [backslash, quote]
  else if b = 0x5c then [backslash, backslash]
  else if b = 0x08 then [backslash, 0x62]
  else if b = 0x0c then [backslash, 0x66]
  else if b = 0x0a then [backslash, 0x6e]
  else if b = 0x0d then [backslash, 0x72]
  else if b = 0x09 then [backslash, 0x74]
  else if b < 0x20 then unicodeEscape (hexDigits b.toNat)
  else [b]

theorem hexadecimal_eq {b : UInt8} (h : b < 0x20) :
    textOf (bytes "\\u00") ++ ([hexadecimal.getD (b >>> 4).toNat 0] ++ [hexadecimal.getD (b &&& 0x0f).toNat 0]) =
      unicodeEscape (hexDigits b.toNat) := by
  have hall : ∀ n : Fin 0x20, textOf (bytes "\\u00") ++ ([hexadecimal.getD (UInt8.ofNat n.val >>> 4).toNat 0] ++
      [hexadecimal.getD (UInt8.ofNat n.val &&& 0x0f).toNat 0]) = unicodeEscape (hexDigits (UInt8.ofNat n.val).toNat) := by
    decide
  have hb := hall ⟨b.toNat, UInt8.lt_iff_toNat_lt.mp h⟩
  rwa [UInt8.ofNat_toNat] at hb

theorem appends_escapedByte (b : UInt8) : Appends (appendEscapedByte b) (escapeByte b) := by
  have hshort {text escape : List UInt8} (h : textOf text = escape) : Appends (appendBytes text) escape :=
    h ▸ appends_bytes text
  have hstep : appendEscapedByte b = fun writer => appendEscapedByte b writer := rfl
  rw [hstep]
  unfold appendEscapedByte escapeByte
  split_ifs with hquote hbackslash hb hf hn hr ht hcontrol
  · exact hshort (by decide)
  · exact hshort (by decide)
  · exact hshort (by decide)
  · exact hshort (by decide)
  · exact hshort (by decide)
  · exact hshort (by decide)
  · exact hshort (by decide)
  · rw [← hexadecimal_eq hcontrol]
    exact (appends_bytes _).bind ((appends_byte _).bind (appends_byte _))
  · exact appends_byte b

theorem appends_escapedBytes (text : List UInt8) : Appends (appendEscapedBytes text) ((textOf text).flatMap escapeByte) :=
  appends_loop rfl (fun _ _ _ => rfl) appends_escapedByte text

def rendered : Append → List UInt8
  | .text value => (value.map textOf).getD []
  | .escaped value => ((value.map textOf).getD []).flatMap escapeByte
  | .uint64 value => natText value.toNat

theorem textOf_natText (value : Nat) : textOf (natText value) = natText value := by
  refine textOf_of_notMem fun hmem => ?_
  have hdigit := (digits_natText value).2 0 hmem
  exact absurd hdigit.1 (by decide)

theorem appends_append (append : Append) : Appends append.run (rendered append) := by
  cases append with
  | text value =>
    cases value with
    | none => exact Appends.fail []
    | some text => exact appends_bytes text
  | escaped value =>
    cases value with
    | none => exact Appends.fail []
    | some text => exact appends_escapedBytes text
  | uint64 value =>
    have hbytes := appends_bytes (natText value.toNat)
    rw [textOf_natText] at hbytes
    have hrun : Append.run (.uint64 value) = fun writer =>
      if (natText value.toNat).length ≥ webAdapterUint64TextMaxBytes then some { writer with failed := true }
      else appendBytes (natText value.toNat) writer := rfl
    rw [hrun]
    split_ifs
    · exact Appends.fail _
    · exact hbytes

theorem appends_all (appends : List Append) : Appends (appendAll appends) (appends.flatMap rendered) := by
  induction appends with
  | nil => exact Appends.nothing
  | cons append appends ih =>
    rw [List.flatMap_cons]
    exact (appends_append append).bind ih

end Appending

section Reading

theorem escapeByte_of_le {b : UInt8} (h : 0x80 ≤ b) : escapeByte b = [b] := by
  rw [UInt8.le_iff_toNat_le] at h
  have hne {n : UInt8} (hn : n.toNat < 0x80) : b ≠ n := by
    rintro rfl
    exact absurd h (not_le.mpr hn)
  rw [escapeByte, if_neg (hne (by decide)), if_neg (hne (by decide)), if_neg (hne (by decide)), if_neg (hne (by decide)),
    if_neg (hne (by decide)), if_neg (hne (by decide)), if_neg (hne (by decide)), if_neg]
  rw [UInt8.lt_iff_toNat_lt, not_lt]
  exact le_trans (by decide) h

theorem escapeByte_utf8EncodeChar (c : Char) : (String.utf8EncodeChar c).flatMap escapeByte = escapePoint (.scalar c) := by
  by_cases hascii : c.toNat ≤ 0x7f
  · have hall : ∀ high : Fin 8, ∀ low : Fin 0x10,
        escapeByte (.ofNat (high.val * 0x10 + low.val)) = escapePoint (.scalar (.ofNat (high.val * 0x10 + low.val))) := by
      decide
    have hc : c.toNat / 0x10 * 0x10 + c.toNat % 0x10 = c.toNat := Nat.div_add_mod' _ _
    have hbyte := hall ⟨c.toNat / 0x10, by omega⟩ ⟨c.toNat % 0x10, by omega⟩
    dsimp only at hbyte
    rw [hc, Char.ofNat_toNat] at hbyte
    rw [utf8EncodeChar_of_le hascii, List.flatMap_singleton, hbyte]
  · have hhigh : ∀ b ∈ String.utf8EncodeChar c, escapeByte b = [b] := fun b hmem =>
      escapeByte_of_le (le_of_mem_utf8EncodeChar (by omega) hmem)
    have hself : (String.utf8EncodeChar c).flatMap escapeByte = String.utf8EncodeChar c := by
      rw [List.flatMap_congr hhigh, List.flatMap_singleton']
    rw [hself, escapePoint]
    simp only [show c.toNat ≠ 0x08 by omega, show c.toNat ≠ 0x09 by omega, show c.toNat ≠ 0x0a by omega,
      show c.toNat ≠ 0x0c by omega, show c.toNat ≠ 0x0d by omega, show c.toNat ≠ 0x22 by omega,
      show c.toNat ≠ 0x5c by omega, show ¬ c.toNat < 0x20 by omega, if_false]

theorem escapeByte_utf8 (s : List Char) : (utf8 s).flatMap escapeByte = escapePoints (s.map .scalar) := by
  induction s with
  | nil => rfl
  | cons c s ih =>
    rw [utf8_cons, List.flatMap_append, escapeByte_utf8EncodeChar, ih]
    rfl

/-- A text without zero bytes, escaped between quotes, is a literal of it and of nothing
else. -/
theorem stringText_escaped {s : List Char} (h : 0 ∉ utf8 s) (units : Units) :
    StringText units (quote :: rendered (.escaped (some (utf8 s))) ++ [quote]) ↔ units = utf16 s := by
  have hquoted : quote :: rendered (.escaped (some (utf8 s))) ++ [quote] = quoted (utf16 s) := by
    rw [rendered, Option.map_some, Option.getD_some, textOf_of_notMem h, escapeByte_utf8, quoted, codePoints_utf16]
  rw [hquoted]
  constructor
  · intro htext
    have hsame : quoted (utf16 s) ++ [] = quoted (utf16 s) ++ [] := rfl
    exact (stringText_unique htext hsame).1
  · rintro rfl
    exact stringText_quoted _

end Reading

section Results

theorem holds_start (buffer : List UInt8) : Holds buffer.length ⟨buffer, 0, false⟩ [] :=
  ⟨rfl, rfl, rfl, fun h => absurd h (Nat.lt_irrefl 0)⟩

theorem zero_notMem_escapeByte {b : UInt8} (h : b ≠ 0) : 0 ∉ escapeByte b := by
  by_cases hhigh : 0x80 ≤ b
  · rw [escapeByte_of_le hhigh, List.mem_singleton]
    exact Ne.symm h
  · rw [UInt8.not_le, UInt8.lt_iff_toNat_lt] at hhigh
    change b.toNat < 0x80 at hhigh
    have hall : ∀ high : Fin 8, ∀ low : Fin 0x10, high.val * 0x10 + low.val ≠ 0 →
        0 ∉ escapeByte (.ofNat (high.val * 0x10 + low.val)) := by decide
    have hb : b.toNat / 0x10 * 0x10 + b.toNat % 0x10 = b.toNat := Nat.div_add_mod' _ _
    have hbyte := hall ⟨b.toNat / 0x10, by omega⟩ ⟨b.toNat % 0x10, by omega⟩
    dsimp only at hbyte
    rw [hb, UInt8.ofNat_toNat] at hbyte
    exact hbyte fun hzero => h (UInt8.toNat_inj.mp hzero)

theorem zero_notMem_rendered (append : Append) : 0 ∉ rendered append := by
  cases append with
  | text value =>
    cases value with
    | none => exact List.not_mem_nil
    | some text => exact zero_notMem_textOf text
  | escaped value =>
    cases value with
    | none => exact List.not_mem_nil
    | some text =>
      intro hmem
      obtain ⟨b, hb, hzero⟩ := List.mem_flatMap.mp hmem
      refine zero_notMem_escapeByte ?_ hzero
      rintro rfl
      exact zero_notMem_textOf text hb
  | uint64 value =>
    intro hmem
    exact absurd ((digits_natText value.toNat).2 0 hmem).1 (by decide)

theorem appendAll_spec (appends : List Append) (buffer : List UInt8) : ∃ writer,
    appendAll appends ⟨buffer, 0, false⟩ = some writer ∧ writer.buffer.length = buffer.length ∧
      (0 < writer.length → writer.buffer[writer.length]? = some 0) ∧
      (writer.failed = false → writer.length = (appends.flatMap rendered).length ∧
        writer.buffer.take writer.length = appends.flatMap rendered) ∧
      ∀ later, writer.failed = true → appendAll later writer = some writer := by
  obtain ⟨writer, hrun, hcases⟩ := (appends_all appends).2 rfl (holds_start buffer)
  rw [List.nil_append] at hcases
  have hlater (later : List Append) (hfailed : writer.failed = true) : appendAll later writer = some writer :=
    (appends_all later).1 hfailed
  rcases hcases with ⟨hgood, hholds⟩ | ⟨hbad, front, -, hholds⟩
  · refine ⟨writer, hrun, hholds.size, ?_, fun _ => ⟨hholds.length, ?_⟩, hlater⟩
    · rw [hholds.length]
      exact hholds.terminated
    · rw [hholds.length]
      exact hholds.content
  · rw [List.nil_append] at hholds
    refine ⟨writer, hrun, hholds.size, ?_, fun hgood => ?_, hlater⟩
    · rw [hholds.length]
      exact hholds.terminated
    · rw [hbad] at hgood
      cases hgood

/-- A builder ends with the whole text of its appends, or with an empty output when one
of them failed. -/
theorem buildJson_spec {appends : List Append} (output : List UInt8) (h : appends.flatMap rendered ≠ []) : ∃ writer after,
    appendAll appends ⟨cleared output, 0, false⟩ = some writer ∧ after.length = output.length ∧
      buildJson appends output = some (writerFinish writer, after) ∧
      (writer.failed = true → textOf after = []) ∧
      (writer.failed = false → textOf after = appends.flatMap rendered) := by
  obtain ⟨writer, hrun, hsize, hterminated, hcontent, -⟩ := appendAll_spec appends (cleared output)
  rw [length_cleared] at hsize
  rw [buildJson, hrun, Option.bind_eq_bind, Option.bind_some]
  cases hfailed : writer.failed with
  | true =>
    have hfinish : writerFinish writer = .internal := if_pos hfailed
    refine ⟨writer, cleared writer.buffer, rfl, by rw [length_cleared, hsize], ?_, fun _ => textOf_cleared _,
      fun hgood => absurd (hfailed.symm.trans hgood) (by decide)⟩
    rw [hfinish]
    rfl
  | false =>
    have hfinish : writerFinish writer = .none := if_neg (by rw [hfailed]; exact Bool.false_ne_true)
    obtain ⟨hlength, htext⟩ := hcontent hfailed
    refine ⟨writer, writer.buffer, rfl, hsize, by rw [hfinish]; rfl,
      fun hbad => absurd (hfailed.symm.trans hbad) (by decide), fun _ => ?_⟩
    have hpositive : 0 < writer.length := by
      rw [hlength]
      exact List.length_pos_iff.mpr h
    have hzero := hterminated hpositive
    obtain ⟨hinside, hbyte⟩ := List.getElem?_eq_some_iff.mp hzero
    have hsplit : writer.buffer = appends.flatMap rendered ++ 0 :: writer.buffer.drop (writer.length + 1) := by
      rw [← htext, ← hbyte, List.getElem_cons_drop, List.take_append_drop]
    rw [hsplit, textOf_append_zero]
    intro hmem
    obtain ⟨append, -, hin⟩ := List.mem_flatMap.mp hmem
    exact zero_notMem_rendered append hin

/-- A builder yields the whole text of its appends when none of them failed, and an empty
output otherwise. -/
def Built (appends : List Append) (output : List UInt8) (outcome : Option (AppError × Option (List UInt8))) : Prop :=
  ∃ result after, outcome = some (result, some after) ∧ after.length = output.length ∧
    ((result = .none ∧ textOf after = appends.flatMap rendered ∧
        ∃ writer, appendAll appends ⟨cleared output, 0, false⟩ = some writer ∧ writer.failed = false) ∨
      (result ≠ .none ∧ textOf after = []))

theorem built_refused {appends : List Append} {output : List UInt8} {error : AppError} (h : error ≠ .none) :
    Built appends output (some (error, some (cleared output))) :=
  ⟨error, _, rfl, length_cleared output, Or.inr ⟨h, textOf_cleared output⟩⟩

theorem built_empty {appends : List Append} {output : List UInt8} (h : output.length = 0) :
    Built appends output (some (.invalidArgument, some output)) := by
  rw [List.length_eq_zero_iff] at h
  rw [h]
  exact ⟨_, _, rfl, rfl, Or.inr ⟨by decide, rfl⟩⟩

theorem built_json {appends : List Append} (output : List UInt8) (h : appends.flatMap rendered ≠ []) :
    Built appends output ((buildJson appends output).map (Prod.map id some)) := by
  obtain ⟨writer, after, hrun, hlength, hbuild, hbad, hgood⟩ := buildJson_spec output h
  rw [hbuild]
  cases hfailed : writer.failed with
  | true =>
    refine ⟨_, after, rfl, hlength, Or.inr ⟨?_, hbad hfailed⟩⟩
    rw [id, writerFinish, if_pos hfailed]
    decide
  | false =>
    refine ⟨_, after, rfl, hlength, Or.inl ⟨?_, hgood hfailed, writer, hrun, hfailed⟩⟩
    rw [id, writerFinish, if_neg (by rw [hfailed]; exact Bool.false_ne_true)]

theorem built_errorJson (code : AppError) (message : Option (List UInt8)) (output : List UInt8) :
    Built (errorAppends code (message.getD [])) output (webAdapterBuildErrorJson code message (some output)) := by
  cases message with
  | none => exact built_refused (by decide)
  | some message =>
    rw [webAdapterBuildErrorJson, Option.getD_some]
    split_ifs with hempty
    · exact built_empty hempty
    · refine built_json output ?_
      rw [errorAppends, List.flatMap_cons]
      exact List.append_ne_nil_of_left_ne_nil (by decide) _

theorem built_diagnosticsJson (snapshot : Option WebDiagnosticsSnapshot) (output : List UInt8) :
    Built ((snapshot.map diagnosticsAppends).getD []) output (webAdapterBuildDiagnosticsJson snapshot (some output)) := by
  cases snapshot with
  | none => exact built_refused (by decide)
  | some snapshot =>
    rw [webAdapterBuildDiagnosticsJson, Option.map_some, Option.getD_some]
    split_ifs with hempty
    · exact built_empty hempty
    · exact built_refused (by decide)
    · refine built_json output ?_
      rw [diagnosticsAppends]
      simp only [List.cons_append, List.flatMap_cons]
      exact List.append_ne_nil_of_left_ne_nil (by decide) _

/-- The writer stays inside its buffer and ends its text there, keeps a failure, and what
it escapes is read back; the builders yield all of their text or nothing. -/
theorem json_writer :
    (∀ (appends : List Append) (buffer : List UInt8), ∃ writer,
      appendAll appends ⟨buffer, 0, false⟩ = some writer ∧ writer.buffer.length = buffer.length ∧
        (0 < writer.length → writer.buffer[writer.length]? = some 0) ∧
        (writer.failed = false → writer.length = (appends.flatMap rendered).length ∧
          writer.buffer.take writer.length = appends.flatMap rendered) ∧
        ∀ later, writer.failed = true → appendAll later writer = some writer) ∧
    (∀ s : List Char, 0 ∉ utf8 s → ∀ units,
      StringText units (quote :: rendered (.escaped (some (utf8 s))) ++ [quote]) ↔ units = utf16 s) ∧
    (∀ code message output,
      Built (errorAppends code (message.getD [])) output (webAdapterBuildErrorJson code message (some output))) ∧
    ∀ snapshot output,
      Built ((snapshot.map diagnosticsAppends).getD []) output (webAdapterBuildDiagnosticsJson snapshot (some output)) :=
  ⟨appendAll_spec, fun _ hzero units => stringText_escaped hzero units, built_errorJson, built_diagnosticsJson⟩

end Results

end MacroKeyboard.Web.JsonWriter
