import MacroKeyboard.Blobs.Storage
import MacroKeyboard.Loops.Rounds

namespace MacroKeyboard.Files

open Blobs Loops.Rounds Records.Decimal

def pathMaxBytes : Nat := 256
def verifyBufferBytes : Nat := 256

abbrev Path : Type := List UInt8

abbrev FileSystem : Type := Path → Option Node

inductive ErrorNumber
  | eintr | enospc | enoent | einval | enotsup | other
deriving DecidableEq, Repr

def mapErrorNumber : ErrorNumber → AppError
  | .enospc => .storageFull
  | .eintr | .enoent | .einval | .enotsup | .other => .io

abbrev Answer : Type := Option ErrorNumber

/-- What a write answers, and the bytes that it leaves at the end of the file. -/
structure WriteCall where
  answer : Except ErrorNumber Nat
  stored : List UInt8

abbrev ReadCall : Type := Except ErrorNumber Nat

/-- What the calls below one write of a file answer. -/
structure AtomicCalls where
  openTemporary : Answer
  write : Nat → WriteCall
  sync : Answer
  closeTemporary : Answer
  openVerified : Answer
  read : Nat → ReadCall
  readExtra : ReadCall
  closeVerified : Answer
  rename : Answer
  unlink : Answer
  syncParent : Answer

section Operations

/-- `open_file` with `O_WRONLY | O_CREAT | O_TRUNC`. -/
def openTruncated (answer : Answer) (path : Path) (files : FileSystem) : Except ErrorNumber FileSystem :=
  match answer, files path with
  | some number, _ => .error number
  | none, some .directory => .error .other
  | none, some (.file _) | none, none => .ok (Function.update files path (some (.file [])))

/-- `read_file` of a file with this content, at an offset: the count and the bytes.
It gives no byte only where the file ends. -/
def readFile (call : ReadCall) (content : List UInt8) (offset requested : Nat) : Except ErrorNumber (Nat × List UInt8) :=
  match call with
  | .error number => .error number
  | .ok count =>
    if count > requested then .ok (count, [])
    else
      let given := ((content.drop offset).take requested).take (max count 1)
      .ok (given.length, given)

/-- `rename_path`. -/
def renameFile (answer : Answer) (source destination : Path) (files : FileSystem) : Except ErrorNumber FileSystem :=
  match answer, files source, files destination with
  | some number, _, _ => .error number
  | none, none, _ => .error .enoent
  | none, some _, some .directory => .error .other
  | none, some node, some (.file _) | none, some node, none =>
    .ok (Function.update (Function.update files source none) destination (some node))

/-- `unlink_path`. -/
def unlinkFile (answer : Answer) (path : Path) (files : FileSystem) : Except ErrorNumber FileSystem :=
  match answer, files path with
  | some number, _ => .error number
  | none, none => .error .enoent
  | none, some _ => .ok (Function.update files path none)

end Operations

/-- One round of `write_all`, with the number of bytes written and the content of the file. -/
def writeRound (data : List UInt8) (call : WriteCall) (state : Nat × List UInt8) :
    Round (Nat × List UInt8) (AppError × List UInt8) :=
  if state.1 < data.length then
    let requested := data.length - state.1
    let content := state.2 ++ call.stored
    match call.answer with
    | .error .eintr => .next (state.1, content)
    | .error number => .done (mapErrorNumber number, content)
    | .ok count =>
      if count = 0 ∨ count > requested then .done (.io, content) else .next (state.1 + count, content)
  else .done (.none, state.2)

/-- `write_all` to an empty file. It is still at work when `fuel` rounds have not been enough. -/
def writeAll (calls : Nat → WriteCall) (data : List UInt8) (fuel : Nat) : Option (AppError × List UInt8) :=
  rounds (writeRound data) calls fuel 0 (0, [])

/-- One round of the loop of `verify_file`, with the number of bytes verified. -/
def verifyRound (content expected : List UInt8) (call : ReadCall) (verified : Nat) : Round Nat AppError :=
  if verified < expected.length then
    let requested := min (expected.length - verified) verifyBufferBytes
    match readFile call content verified requested with
    | .error .eintr => .next verified
    | .error number => .done (mapErrorNumber number)
    | .ok (count, buffer) =>
      if count = 0 ∨ count > requested then .done .io
      else if buffer ≠ (expected.drop verified).take count then .done .io
      else .next (verified + count)
  else .done .none

def verifyFile (calls : AtomicCalls) (content expected : List UInt8) (fuel : Nat) : Option AppError :=
  match calls.openVerified with
  | some number => some (mapErrorNumber number)
  | none =>
    (rounds (verifyRound content expected) calls.read fuel 0 0).map (fun result =>
      let result :=
        if result = .none then
          match readFile calls.readExtra content expected.length 1 with
          | .error number => mapErrorNumber number
          | .ok (count, _) => if count ≠ 0 then .io else .none
        else result
      match calls.closeVerified with
      | some number => if result = .none then mapErrorNumber number else result
      | none => result)

def cleanupPath (answer : Answer) (path : Path) (files : FileSystem) : AppError × FileSystem :=
  match unlinkFile answer path files with
  | .ok files => (.none, files)
  | .error .enoent => (.none, files)
  | .error number => (mapErrorNumber number, files)

def syncParentPath (answer : Answer) : AppError := answer.elim .none mapErrorNumber

/-- `temporary_path_for`. -/
def temporaryPath (path : Path) : Path := path ++ bytes ".tmp"

/-- The end of `stage_temporary_file` before the verification: the sync and the close. -/
def closeWritten (calls : AtomicCalls) (syncRequired : Bool) (written : AppError) : AppError :=
  let synced :=
    if written = .none then
      match calls.sync with
      | none => .none
      | some number =>
        if syncRequired ∨ (number ≠ .einval ∧ number ≠ .enotsup) then mapErrorNumber number else .none
    else written
  match calls.closeTemporary with
  | some number => if synced = .none then mapErrorNumber number else synced
  | none => synced

def stageTemporaryFile (calls : AtomicCalls) (fuel : Nat) (temporary : Path) (data : List UInt8) (syncRequired : Bool)
    (files : FileSystem) : Option (OperationResult × FileSystem) :=
  match openTruncated calls.openTemporary temporary files with
  | .error number => some (OperationResult.success.recordPrimary (mapErrorNumber number), files)
  | .ok opened =>
    (writeAll calls.write data fuel).bind (fun (written, content) =>
      let files := Function.update opened temporary (some (.file content))
      let closed := closeWritten calls syncRequired written
      (if closed = .none then verifyFile calls content data fuel else some closed).map (fun staged =>
        if staged ≠ .none then
          let cleaned := cleanupPath calls.unlink temporary files
          ((OperationResult.success.recordPrimary staged).recordCleanup cleaned.1, cleaned.2)
        else (OperationResult.success, files)))

def resultOk (result : OperationResult) : Bool :=
  result.primaryError = .none ∧ result.cleanupError = .none ∧ ¬ result.cleanupIncomplete ∧
    result.commitState ≠ .notCommitted ∧ result.commitState ≠ .commitUncertain

/-- The end of `storage_atomic_write_with_ops_and_parent_sync_result`, with what the stage reports. -/
def activateStaged (calls : AtomicCalls) (path : Path) (staged : OperationResult) (files : FileSystem) :
    OperationResult × FileSystem :=
  if ¬ resultOk staged then ({ staged with commitState := .notCommitted }, files)
  else
    match renameFile calls.rename (temporaryPath path) path files with
    | .error number =>
      let cleaned := cleanupPath calls.unlink (temporaryPath path) files
      ({ (OperationResult.success.recordPrimary (mapErrorNumber number)).recordCleanup cleaned.1 with
          commitState := .notCommitted }, cleaned.2)
    | .ok files =>
      let synced := syncParentPath calls.syncParent
      if synced ≠ .none then (primaryError synced .commitUncertain, files)
      else ({ OperationResult.success with commitState := .committed }, files)

/-- `storage_atomic_write_with_ops_and_parent_sync_result`. -/
def storageAtomicWrite (calls : AtomicCalls) (fuel : Nat) (path : Path) (data : List UInt8) (syncRequired : Bool)
    (files : FileSystem) : Option (OperationResult × FileSystem) :=
  if path.length ≥ pathMaxBytes ∨ (temporaryPath path).length ≥ pathMaxBytes then
    some (primaryError .invalidArgument .notCommitted, files)
  else
    (stageTemporaryFile calls fuel (temporaryPath path) data syncRequired files).map
      (fun staged => activateStaged calls path staged.1 staged.2)

end MacroKeyboard.Files
