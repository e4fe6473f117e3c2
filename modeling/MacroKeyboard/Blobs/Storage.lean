import MacroKeyboard.Blobs.Directory
import MacroKeyboard.Settings.Store
import MacroKeyboard.Threads.Program

namespace MacroKeyboard.Blobs

open Threads.Program

def entryNameMax : Nat := 256

structure BlobEntry where
  id : Nat
  storedBytes : Nat
deriving DecidableEq, Repr

structure ScanSummary where
  validCount : Nat
  invalidNameCount : Nat
  temporaryFileCount : Nat
  maxId : Option Nat
  nextId : Nat
deriving DecidableEq, Repr

def ScanSummary.zero : ScanSummary := ⟨0, 0, 0, none, 0⟩

inductive Errno
  | enoent | enospc | other
deriving DecidableEq, Repr

def mapIoError : Errno → AppError
  | .enospc => .storageFull
  | .enoent | .other => .io

def pathError : Errno → AppError
  | .enoent => .notFound
  | .enospc | .other => .io

/-- What the operations below one step report. A stream takes the given number
of bytes; the counter is written with the calls of the settings store. -/
structure FileCalls where
  fault : Option Errno
  written : Nat
  openDirectory : Bool
  readDirectory : Bool
  statEntry : Name → Bool
  closeDirectory : Bool
  allocate : Nat → Bool
  visit : Bool
  counterOpen : Bool
  counterFault : Option Settings.NvsFault
  counterPersisted : Bool

/-- The blob partition, the counter beside it and the scan state in memory. -/
structure BlobStore where
  directory : Directory
  persistedNextId : Option Nat
  scanState : ScanSummary
deriving DecidableEq

abbrev BlobProg (α : Type) : Type 1 := Prog BlobStore FileCalls α

section Operations

def isFile : Option Node → Bool
  | some (.file _) => true
  | some .directory | none => false

def statPath (name : Name) : BlobProg (Except Errno Node) :=
  .atomic (fun calls store =>
    (match calls.fault, store.directory.lookup name with
      | some fault, _ => .error fault
      | none, none => .error .enoent
      | none, some node => .ok node, store))

def openTemporary (name : Name) : BlobProg (Option Errno) :=
  .atomic (fun calls store =>
    match calls.fault, store.directory.lookup name with
    | some fault, _ => (some fault, store)
    | none, some _ => (some .other, store)
    | none, none => (none, { store with directory := store.directory.insert name (.file []) }))

def writeStream (data : List UInt8) : BlobProg (List UInt8) :=
  .ask (fun calls => data.take calls.written)

def callStream : BlobProg (Option Errno) := .ask (fun calls => calls.fault)

def syncStream (name : Name) (content : List UInt8) : BlobProg (Option Errno) :=
  .atomic (fun calls store =>
    match calls.fault with
    | some fault => (some fault, store)
    | none => (none, { store with directory := store.directory.insert name (.file content) }))

def renamePath (source destination : Name) : BlobProg (Option Errno) :=
  .atomic (fun calls store =>
    match calls.fault, store.directory.lookup source with
    | some fault, _ => (some fault, store)
    | none, none => (some .enoent, store)
    | none, some node =>
      (none, { store with directory := (store.directory.erase source).insert destination node }))

def unlinkPath (name : Name) : BlobProg (Option Errno) :=
  .atomic (fun calls store =>
    match calls.fault, store.directory.lookup name with
    | some fault, _ => (some fault, store)
    | none, none => (some .enoent, store)
    | none, some _ => (none, { store with directory := store.directory.erase name }))

/-- `storage_fs_sync_parent_path`. A completed rename is durable already. -/
def syncParent : BlobProg (Option Errno) := .ask (fun calls => calls.fault)

def persistNextId (nextId : Nat) : BlobProg AppError :=
  .atomic (fun calls store =>
    if ¬ calls.counterOpen then (.storageUnavailable, store)
    else
      match calls.counterFault with
      | none => (.none, { store with persistedNextId := some nextId })
      | some fault =>
        (if fault = .notEnoughSpace then .storageFull else .storageUnavailable,
          if calls.counterPersisted then { store with persistedNextId := some nextId } else store))

def readPersistedNextId : BlobProg (Except AppError Nat) :=
  .atomic (fun calls store =>
    (if ¬ calls.counterOpen then .error .storageUnavailable
      else
        match calls.counterFault with
        | some _ => .error .storageUnavailable
        | none => .ok (store.persistedNextId.getD 0), store))

end Operations

inductive CommitState
  | notApplicable | notCommitted | committed | commitUncertain
deriving DecidableEq, Repr

structure OperationResult where
  primaryError : AppError
  cleanupError : AppError
  cleanupIncomplete : Bool
  commitState : CommitState
deriving DecidableEq, Repr

namespace OperationResult

def success : OperationResult := ⟨.none, .none, false, .notApplicable⟩

def recordPrimary (result : OperationResult) (error : AppError) : OperationResult :=
  if error ≠ .none ∧ result.primaryError = .none then { result with primaryError := error } else result

def recordCleanup (result : OperationResult) (error : AppError) : OperationResult :=
  if error = .none then result
  else
    { result with
      cleanupError := if result.cleanupError = .none then error else result.cleanupError
      cleanupIncomplete := true }

def error (result : OperationResult) : AppError :=
  if result.primaryError ≠ .none then result.primaryError else result.cleanupError

end OperationResult

def primaryError (error : AppError) (commitState : CommitState) : OperationResult :=
  { OperationResult.success.recordPrimary error with commitState }

structure BlobUpload where
  id : Nat
  expectedBytes : Nat
  storedBytes : Nat
  stream : List UInt8
  active : Bool
  committed : Bool
  finalPathOwned : Bool
deriving DecidableEq, Repr

namespace BlobUpload

def finalPath (upload : BlobUpload) : Name := formatFilename upload.id
def temporaryPath (upload : BlobUpload) : Name := formatTemporaryFilename upload.id

end BlobUpload

def requirePathAbsent (name : Name) : BlobProg AppError := do
  match ← statPath name with
  | .ok _ => pure .conflict
  | .error .enoent => pure .none
  | .error fault => pure (mapIoError fault)

def unlinkPathIfPresent (name : Name) : BlobProg AppError := do
  match ← unlinkPath name with
  | none | some .enoent => pure .none
  | some fault => pure (mapIoError fault)

def cleanupFailure (temporaryPath : Name) (primary : AppError) : BlobProg OperationResult := do
  let cleanup ← unlinkPathIfPresent temporaryPath
  pure ((primaryError primary .notCommitted).recordCleanup cleanup)

/-- `storage_blob_upload_begin_with_ops`. -/
def uploadBeginWithId (blobId expectedBytes : Nat) : BlobProg (Except AppError BlobUpload) := do
  if blobId = 0 ∨ expectedBytes = 0 ∨ expectedBytes > Limits.blobMaxBytes then pure (.error .invalidArgument)
  else if blobId = uint64Max then pure (.error .storageFull)
  else
    let upload : BlobUpload := ⟨blobId, expectedBytes, 0, [], true, false, false⟩
    let finalAbsent ← requirePathAbsent upload.finalPath
    if finalAbsent ≠ .none then pure (.error finalAbsent)
    else
      let temporaryAbsent ← requirePathAbsent upload.temporaryPath
      if temporaryAbsent ≠ .none then pure (.error temporaryAbsent)
      else
        match ← openTemporary upload.temporaryPath with
        | some fault => pure (.error (mapIoError fault))
        | none => pure (.ok upload)

def uploadBegin (expectedBytes : Nat) : BlobProg (Except AppError BlobUpload) := do
  let nextId ← .read (fun store => store.scanState.nextId)
  uploadBeginWithId nextId expectedBytes

/-- `storage_blob_upload_write_with_ops`. -/
def uploadWrite (upload : BlobUpload) (data : List UInt8) : BlobProg (AppError × BlobUpload) := do
  if data.length = 0 ∨ ¬ upload.active ∨ upload.committed ∨ upload.storedBytes > upload.expectedBytes ∨
      data.length > upload.expectedBytes - upload.storedBytes then
    pure (.invalidArgument, upload)
  else
    let taken ← writeStream data
    let upload := { upload with stream := upload.stream ++ taken }
    if taken.length ≠ data.length then
      let fault ← callStream
      pure (mapIoError (fault.getD .other), upload)
    else pure (.none, { upload with storedBytes := upload.storedBytes + data.length })

def closeStagedStream (upload : BlobUpload) : BlobProg (AppError × BlobUpload) := do
  let flushed ← callStream
  let synced ← if flushed.isNone then syncStream upload.temporaryPath upload.stream else pure none
  let closed ← callStream
  let fault := (flushed.or synced).or closed
  pure (fault.elim .none mapIoError, { upload with active := false })

/-- `storage_blob_upload_commit_with_ops_result`, with the entry of a blob that
is committed. -/
def uploadCommitWithOps (upload : BlobUpload) : BlobProg (OperationResult × BlobUpload) := do
  if ¬ upload.active ∨ upload.committed ∨ upload.storedBytes ≠ upload.expectedBytes then
    pure (primaryError .invalidArgument .notCommitted, upload)
  else if upload.id = uint64Max then pure (primaryError .storageFull .notCommitted, upload)
  else
    let (staged, upload) ← closeStagedStream upload
    if staged ≠ .none then
      let result ← cleanupFailure upload.temporaryPath staged
      pure (result, upload)
    else
      let finalAbsent ← requirePathAbsent upload.finalPath
      if finalAbsent ≠ .none then
        let result ← cleanupFailure upload.temporaryPath finalAbsent
        pure (result, upload)
      else
        let persisted ← persistNextId (upload.id + 1)
        if persisted ≠ .none then
          let result ← cleanupFailure upload.temporaryPath persisted
          pure (result, upload)
        else
          match ← renamePath upload.temporaryPath upload.finalPath with
          | some fault =>
            let result ← cleanupFailure upload.temporaryPath (mapIoError fault)
            pure (result, upload)
          | none =>
            let upload := { upload with finalPathOwned := true }
            match ← syncParent with
            | some fault => pure (primaryError (mapIoError fault) .commitUncertain, upload)
            | none => pure ({ OperationResult.success with commitState := .committed }, { upload with committed := true })

def recordCommittedEntry (blobId : Nat) (summary : ScanSummary) : ScanSummary :=
  if blobId = 0 ∨ blobId = uint64Max then summary
  else
    { summary with
      validCount := summary.validCount + 1
      maxId := some (match summary.maxId with
        | none => blobId
        | some maxId => if blobId > maxId then blobId else maxId)
      nextId := blobId + 1 }

def recordDeletedEntry (summary : ScanSummary) : ScanSummary := { summary with validCount := summary.validCount - 1 }

def uploadCommit (upload : BlobUpload) : BlobProg (AppError × BlobUpload) := do
  let (detailed, upload) ← uploadCommitWithOps upload
  if upload.committed then
    .atomic (fun _ store => ((), { store with scanState := recordCommittedEntry upload.id store.scanState }))
    pure (detailed.error, upload)
  else if detailed.commitState = .commitUncertain then pure (.commitUncertain, upload)
  else pure (detailed.error, upload)

def uploadAbort (upload : BlobUpload) : BlobProg AppError := do
  if upload.committed ∨ upload.finalPathOwned then pure .none
  else
    let closed ← if upload.active then callStream else pure none
    let result := OperationResult.success.recordPrimary (closed.elim .none mapIoError)
    let cleanup ← unlinkPathIfPresent upload.temporaryPath
    pure (if result.primaryError = .none then result.recordPrimary cleanup else result.recordCleanup cleanup).error

/-- What one receive of a request body yields. -/
inductive Received
  | timeout | failed | chunk (data : List UInt8)
deriving DecidableEq, Repr

def uploadChunkBytes : Nat := 1024
def timeoutRetriesMax : Nat := 4

/-- The loop of `web_adapter_stream_bounded_body` into an upload, over what the
receives yield, with the bytes still to come and the timeouts in a row. -/
def streamBody : List Received → BlobUpload → Nat → Nat → BlobProg (AppError × BlobUpload)
  | _, upload, 0, _ => pure (.none, upload)
  | [], upload, _ + 1, _ | .failed :: _, upload, _ + 1, _ => pure (.io, upload)
  | .timeout :: rest, upload, remaining + 1, timeouts =>
    if timeouts + 1 > timeoutRetriesMax then pure (.timeout, upload)
    else streamBody rest upload (remaining + 1) (timeouts + 1)
  | .chunk data :: rest, upload, remaining + 1, _ =>
    if data.length = 0 ∨ data.length > min (remaining + 1) uploadChunkBytes then pure (.io, upload)
    else do
      let (result, upload) ← uploadWrite upload data
      if result ≠ .none then pure (result, upload)
      else streamBody rest upload (remaining + 1 - data.length) 0

def abortUncommittedUpload (upload : BlobUpload) (primary : AppError) : BlobProg AppError := do
  if upload.committed then pure primary
  else
    let abortError ← uploadAbort upload
    pure (if abortError = .none then primary else abortError)

/-- `blob_create_handler` of an authorised request, from its length and what its
receives yield to the error or the identifier it answers with. -/
def blobCreate (contentLength : Nat) (received : List Received) : BlobProg (Except AppError Nat) := do
  if contentLength = 0 ∨ contentLength > Limits.blobMaxBytes then pure (.error .invalidArgument)
  else
    match ← uploadBegin contentLength with
    | .error error => pure (.error error)
    | .ok upload =>
      let (streamed, upload) ← streamBody received upload contentLength 0
      if streamed ≠ .none then
        let error ← abortUncommittedUpload upload streamed
        pure (.error error)
      else
        let (committed, upload) ← uploadCommit upload
        if committed ≠ .none then
          let error ← abortUncommittedUpload upload committed
          pure (.error error)
        else pure (.ok upload.id)

section Scan

def deriveNextId (persistedNextId : Nat) (maxId : Option Nat) : Except AppError Nat :=
  let nextId := if persistedNextId = 0 then 1 else persistedNextId
  match maxId with
  | none => .ok nextId
  | some maxId =>
    if maxId = 0 then .error .invalidArgument
    else if maxId = uint64Max then .error .storageFull
    else .ok (max nextId (maxId + 1))

def processDirectoryEntry (calls : FileCalls) (name : Name) (node : Node) (entries : List BlobEntry)
    (summary : ScanSummary) : Except AppError (List BlobEntry × ScanSummary) :=
  match parseFilename name with
  | none =>
    match parseTemporaryFilename name with
    | none => .ok (entries, { summary with invalidNameCount := summary.invalidNameCount + 1 })
    | some _ =>
      if ¬ calls.statEntry name then .error .io
      else
        match node with
        | .file _ => .ok (entries, { summary with temporaryFileCount := summary.temporaryFileCount + 1 })
        | .directory => .ok (entries, { summary with invalidNameCount := summary.invalidNameCount + 1 })
  | some blobId =>
    if ¬ calls.statEntry name then .error .io
    else
      match node with
      | .directory => .ok (entries, { summary with invalidNameCount := summary.invalidNameCount + 1 })
      | .file content =>
        if ¬ calls.allocate entries.length then .error .internal
        else
          .ok (entries ++ [⟨blobId, content.length⟩],
            { summary with
              maxId := some (match summary.maxId with
                | none => blobId
                | some maxId => if blobId > maxId then blobId else maxId) })

def scanDirectoryEntries (calls : FileCalls) : List (Name × Node) → List BlobEntry → ScanSummary →
    Except AppError (List BlobEntry × ScanSummary)
  | [], entries, summary => if calls.readDirectory then .ok (entries, summary) else .error .io
  | (name, node) :: rest, entries, summary =>
    if name.length ≥ entryNameMax then .error .io
    else
      match processDirectoryEntry calls name node entries summary with
      | .error error => .error error
      | .ok (entries, summary) => scanDirectoryEntries calls rest entries summary

def listing (directory : Directory) : List (Name × Node) := directory.entries.map (fun entry => (entry.1, entry.2))

def newestFirst (entries : List BlobEntry) : List BlobEntry :=
  entries.insertionSort (fun a b => b.id ≤ a.id)

/-- `storage_blob_scan_with_ops`, with the entries in the order of its visits. -/
def scan (calls : FileCalls) (persistedNextId : Nat) (directory : Directory) :
    Except AppError (List BlobEntry × ScanSummary) :=
  if ¬ calls.openDirectory then .error .io
  else
    match scanDirectoryEntries calls (listing directory) [] .zero with
    | .error error => .error error
    | .ok (entries, summary) =>
      if ¬ calls.closeDirectory then .error .io
      else
        match deriveNextId persistedNextId summary.maxId with
        | .error error => .error error
        | .ok nextId => .ok (newestFirst entries, { summary with validCount := entries.length, nextId })

def scanStartup (persistedNextId : Nat) : BlobProg AppError :=
  .atomic (fun calls store =>
    match scan calls persistedNextId store.directory with
    | .error error => (error, { store with scanState := .zero })
    | .ok (_, summary) => (.none, { store with scanState := summary }))

def blobList : BlobProg (Except AppError (List BlobEntry)) :=
  .atomic (fun calls store =>
    match scan calls store.scanState.nextId store.directory with
    | .error error => (.error error, store)
    | .ok (entries, summary) =>
      if ¬ calls.visit then (.error .internal, store) else (.ok entries, { store with scanState := summary }))

end Scan

section Delete

def deleteWithOps (blobId : Nat) : BlobProg AppError := do
  if blobId = 0 then pure .invalidArgument
  else
    match ← statPath (formatFilename blobId) with
    | .error fault => pure (pathError fault)
    | .ok .directory => pure .storageCorrupt
    | .ok (.file _) =>
      match ← unlinkPath (formatFilename blobId) with
      | some fault => pure (pathError fault)
      | none => pure .none

def recordDeleted (count : Nat) : BlobProg Unit :=
  .atomic (fun _ store => ((), { store with scanState := recordDeletedEntry^[count] store.scanState }))

def blobDelete (blobId : Nat) : BlobProg AppError := do
  let result ← deleteWithOps blobId
  if result ≠ .none then pure result
  else
    recordDeleted 1
    let synced ← syncParent
    pure (if synced.isNone then .none else .io)

/-- The visits of `storage_blob_delete_all_with_ops`, with the first error and
the number of blobs deleted so far. -/
def deleteEntries : List BlobEntry → AppError → Nat → BlobProg (AppError × Nat)
  | [], firstError, deletedCount => pure (firstError, deletedCount)
  | entry :: rest, firstError, deletedCount => do
    let result ← deleteWithOps entry.id
    if result = .none then deleteEntries rest firstError (deletedCount + 1)
    else deleteEntries rest (if firstError = .none then result else firstError) deletedCount

def blobDeleteAll : BlobProg AppError := do
  let scanned ← .atomic (fun calls store => (scan calls 0 store.directory, store))
  let (result, deletedCount) ←
    match scanned with
    | .error error => pure (error, 0)
    | .ok (entries, _) => deleteEntries entries .none 0
  recordDeleted deletedCount
  let synced ← if deletedCount > 0 then syncParent else pure none
  pure (if synced.isSome ∧ result = .none then .io else result)

end Delete

section Recovery

/-- The loop of `storage_blob_recover_with_ops` over the names in the directory,
with the number of files removed so far. -/
def recoverEntries : List Name → Nat → BlobProg (AppError × Nat)
  | [], removed => do
    let read ← .ask (fun calls => calls.readDirectory)
    pure (if read then .none else .io, removed)
  | name :: rest, removed => do
    let read ← .ask (fun calls => calls.readDirectory)
    if ¬ read ∨ name.length ≥ entryNameMax then pure (.io, removed)
    else if (parseTemporaryFilename name).isNone then recoverEntries rest removed
    else
      match ← statPath name with
      | .error _ => pure (.io, removed)
      | .ok .directory => recoverEntries rest removed
      | .ok (.file _) =>
        match ← unlinkPath name with
        | some _ => pure (.io, removed)
        | none => recoverEntries rest (removed + 1)

def recoverStartup : BlobProg AppError := do
  let opened ← .atomic (fun calls store =>
    (if calls.openDirectory then some ((listing store.directory).map (·.1)) else none, store))
  match opened with
  | none => pure .io
  | some names =>
    let (result, removed) ← recoverEntries names 0
    let closed ← .ask (fun calls => calls.closeDirectory)
    let result := if ¬ closed ∧ result = .none then .io else result
    if result ≠ .none then pure result
    else
      let synced ← if removed > 0 then syncParent else pure none
      pure (if synced.isSome then .io else .none)

def prepareDirectories : BlobProg AppError := do
  let recovered ← recoverStartup
  if recovered ≠ .none then pure recovered
  else
    match ← readPersistedNextId with
    | .error error => pure error
    | .ok persistedNextId => scanStartup persistedNextId

end Recovery

end MacroKeyboard.Blobs
