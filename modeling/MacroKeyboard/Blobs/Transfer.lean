import MacroKeyboard.Blobs.ScanReport
import MacroKeyboard.Files.AtomicWrite

namespace MacroKeyboard.Blobs.Transfer

open Loops.Rounds

inductive TransferCall
  | receive (received : Received)
  | write (complete : Bool)
  | flush (works : Bool)
  | sync (works : Bool)
  | read (works : Bool)
  | send (chunk : List UInt8) (works : Bool)
  | close (works : Bool)
deriving DecidableEq, Repr

def TransferCall.failed : TransferCall → Bool
  | .receive (.chunk data) => data.isEmpty
  | .receive .failed => true
  | .receive .timeout => false
  | .write works | .flush works | .sync works | .read works | .send _ works | .close works => !works

abbrev Transcript : Type := List TransferCall

def receivedBytes (transcript : Transcript) : List UInt8 :=
  transcript.flatMap (fun call =>
    match call with
    | .receive (.chunk data) => data
    | _ => [])

def sentBytes (transcript : Transcript) : List UInt8 :=
  transcript.flatMap (fun call =>
    match call with
    | .send chunk true => chunk
    | _ => [])

def terminated (transcript : Transcript) : Bool := transcript.contains (.send [] true)

def closes (transcript : Transcript) : Nat :=
  transcript.countP (fun call => call == .close true || call == .close false)

section Upload

/-- One receive of a body, what the stream takes of its bytes, and the error of a short write. -/
structure ReceiveCall where
  received : Received
  taken : Nat
  fault : Option Errno

structure UploadCalls where
  statFinal : Option Errno
  statTemporary : Option Errno
  openTemporary : Option Errno
  receive : Nat → ReceiveCall
  flush : Option Errno
  sync : Option Errno
  close : Option Errno
  statStaged : Option Errno
  counter : FileCalls
  rename : Option Errno
  syncParent : Option Errno
  cleanup : Option Errno
  abortClose : Option Errno
  abortUnlink : Option Errno

def pathAbsent (fault : Option Errno) (name : Name) (directory : Directory) : AppError :=
  match fault, directory.lookup name with
  | some .enoent, _ | none, none => .none
  | some fault, _ => mapIoError fault
  | none, some _ => .conflict

def unlinkIfPresent (fault : Option Errno) (name : Name) (directory : Directory) : AppError × Directory :=
  match fault, directory.lookup name with
  | some .enoent, _ | none, none => (.none, directory)
  | some fault, _ => (mapIoError fault, directory)
  | none, some _ => (.none, directory.erase name)

def begin (calls : UploadCalls) (expectedBytes : Nat) (store : BlobStore) : Except AppError BlobUpload × BlobStore :=
  let blobId := store.scanState.nextId
  if blobId = 0 ∨ expectedBytes = 0 ∨ expectedBytes > Limits.blobMaxBytes then (.error .invalidArgument, store)
  else if blobId = uint64Max then (.error .storageFull, store)
  else
    let upload : BlobUpload := ⟨blobId, expectedBytes, 0, [], true, false, false⟩
    let finalAbsent := pathAbsent calls.statFinal upload.finalPath store.directory
    if finalAbsent ≠ .none then (.error finalAbsent, store)
    else
      let temporaryAbsent := pathAbsent calls.statTemporary upload.temporaryPath store.directory
      if temporaryAbsent ≠ .none then (.error temporaryAbsent, store)
      else
        match calls.openTemporary, store.directory.lookup upload.temporaryPath with
        | some fault, _ => (.error (mapIoError fault), store)
        | none, some _ => (.error (mapIoError .other), store)
        | none, none => (.ok upload, { store with directory := store.directory.insert upload.temporaryPath (.file []) })

def write (call : ReceiveCall) (upload : BlobUpload) (data : List UInt8) : AppError × BlobUpload × Transcript :=
  if data.length = 0 ∨ ¬ upload.active ∨ upload.committed ∨ upload.storedBytes > upload.expectedBytes ∨
      data.length > upload.expectedBytes - upload.storedBytes then
    (.invalidArgument, upload, [])
  else
    let taken := data.take call.taken
    let upload := { upload with stream := upload.stream ++ taken }
    if taken.length ≠ data.length then (mapIoError (call.fault.getD .other), upload, [.write false])
    else (.none, { upload with storedBytes := upload.storedBytes + data.length }, [.write true])

/-- A body that is being received into an upload. -/
structure Receiving where
  upload : BlobUpload
  received : Nat
  timeouts : Nat
  transcript : Transcript

/-- One round of the loop of `web_adapter_stream_bounded_body`. -/
def receiveRound (contentLength : Nat) (call : ReceiveCall) (state : Receiving) : Round Receiving (AppError × Receiving) :=
  if state.received < contentLength then
    let capacity := min (contentLength - state.received) uploadChunkBytes
    let state := { state with transcript := state.transcript ++ [.receive call.received] }
    match call.received with
    | .timeout =>
      if state.timeouts + 1 > timeoutRetriesMax then .done (.timeout, state)
      else .next { state with timeouts := state.timeouts + 1 }
    | .failed => .done (.io, state)
    | .chunk data =>
      if data.length = 0 ∨ data.length > capacity then .done (.io, state)
      else
        let (result, upload, made) := write call state.upload data
        let state := { state with upload, timeouts := 0, transcript := state.transcript ++ made }
        if result ≠ .none then .done (result, state)
        else .next { state with received := state.received + data.length }
  else .done (.none, state)

def closeStaged (calls : UploadCalls) (upload : BlobUpload) (directory : Directory) :
    AppError × BlobUpload × Directory × Transcript :=
  let synced := if calls.flush.isNone then calls.sync else none
  let directory :=
    if calls.flush.isNone ∧ calls.sync.isNone then directory.insert upload.temporaryPath (.file upload.stream) else directory
  let made :=
    [.flush calls.flush.isNone] ++ (if calls.flush.isNone then [.sync calls.sync.isNone] else []) ++
      [.close calls.close.isNone]
  (((calls.flush.or synced).or calls.close).elim .none mapIoError, { upload with active := false }, directory, made)

def persist (calls : FileCalls) (nextId : Nat) (store : BlobStore) : AppError × BlobStore :=
  if ¬ calls.counterOpen then (.storageUnavailable, store)
  else
    match calls.counterFault with
    | none => (.none, { store with persistedNextId := some nextId })
    | some fault =>
      (if fault = .notEnoughSpace then .storageFull else .storageUnavailable,
        if calls.counterPersisted then { store with persistedNextId := some nextId } else store)

def rename (fault : Option Errno) (source destination : Name) (directory : Directory) : Option Errno × Directory :=
  match fault, directory.lookup source with
  | some fault, _ => (some fault, directory)
  | none, none => (some .enoent, directory)
  | none, some node => (none, (directory.erase source).insert destination node)

/-- What a commit leaves: its result, the upload, the store and the calls made. -/
structure Commit where
  result : OperationResult
  upload : BlobUpload
  store : BlobStore
  made : Transcript

def cleanupFailed (calls : UploadCalls) (upload : BlobUpload) (store : BlobStore) (made : Transcript) (primary : AppError) :
    Commit :=
  let cleaned := unlinkIfPresent calls.cleanup upload.temporaryPath store.directory
  ⟨(primaryError primary .notCommitted).recordCleanup cleaned.1, upload, { store with directory := cleaned.2 }, made⟩

/-- `storage_blob_upload_commit_with_ops_result` from where the stream is closed. -/
def activate (calls : UploadCalls) (upload : BlobUpload) (store : BlobStore) (made : Transcript) : Commit :=
  let finalAbsent := pathAbsent calls.statStaged upload.finalPath store.directory
  if finalAbsent ≠ .none then cleanupFailed calls upload store made finalAbsent
  else
    let (persisted, store) := persist calls.counter (upload.id + 1) store
    if persisted ≠ .none then cleanupFailed calls upload store made persisted
    else
      match rename calls.rename upload.temporaryPath upload.finalPath store.directory with
      | (some fault, _) => cleanupFailed calls upload store made (mapIoError fault)
      | (none, directory) =>
        let upload := { upload with finalPathOwned := true }
        let store := { store with directory }
        match calls.syncParent with
        | some fault => ⟨primaryError (mapIoError fault) .commitUncertain, upload, store, made⟩
        | none =>
          ⟨{ OperationResult.success with commitState := .committed }, { upload with committed := true }, store, made⟩

/-- `storage_blob_upload_commit_with_ops_result`. -/
def commitWithOps (calls : UploadCalls) (upload : BlobUpload) (store : BlobStore) : Commit :=
  if ¬ upload.active ∨ upload.committed ∨ upload.storedBytes ≠ upload.expectedBytes then
    ⟨primaryError .invalidArgument .notCommitted, upload, store, []⟩
  else if upload.id = uint64Max then ⟨primaryError .storageFull .notCommitted, upload, store, []⟩
  else
    let (staged, upload, directory, made) := closeStaged calls upload store.directory
    let store := { store with directory }
    if staged ≠ .none then cleanupFailed calls upload store made staged else activate calls upload store made

def commit (calls : UploadCalls) (upload : BlobUpload) (store : BlobStore) : AppError × Commit :=
  let commit := commitWithOps calls upload store
  if commit.upload.committed then
    (commit.result.error,
      { commit with store := { commit.store with scanState := recordCommittedEntry commit.upload.id commit.store.scanState } })
  else if commit.result.commitState = .commitUncertain then (.commitUncertain, commit)
  else (commit.result.error, commit)

/-- `abort_uncommitted_upload`. -/
def abort (calls : UploadCalls) (upload : BlobUpload) (store : BlobStore) (primary : AppError) :
    AppError × BlobStore × Transcript :=
  if upload.committed ∨ upload.finalPathOwned then (primary, store, [])
  else
    let closed := if upload.active then calls.abortClose else none
    let made := if upload.active then [.close calls.abortClose.isNone] else []
    let result := OperationResult.success.recordPrimary (closed.elim .none mapIoError)
    let cleaned := unlinkIfPresent calls.abortUnlink upload.temporaryPath store.directory
    let error :=
      (if result.primaryError = .none then result.recordPrimary cleaned.1 else result.recordCleanup cleaned.1).error
    (if error = .none then primary else error, { store with directory := cleaned.2 }, made)

/-- What an upload answers, the store it leaves and the calls it has made. -/
structure UploadOutcome where
  answer : Except AppError BlobEntry
  store : BlobStore
  transcript : Transcript

def blobCreateHandler (calls : UploadCalls) (fuel contentLength : Nat) (store : BlobStore) : Option UploadOutcome :=
  if contentLength = 0 ∨ contentLength > Limits.blobMaxBytes then some ⟨.error .invalidArgument, store, []⟩
  else
    match begin calls contentLength store with
    | (.error error, store) => some ⟨.error error, store, []⟩
    | (.ok upload, store) =>
      (rounds (receiveRound contentLength) calls.receive fuel 0 ⟨upload, 0, 0, []⟩).map (fun (streamed, state) =>
        if streamed ≠ .none then
          let (error, store, made) := abort calls state.upload store streamed
          ⟨.error error, store, state.transcript ++ made⟩
        else
          let (committed, commit) := commit calls state.upload store
          if committed ≠ .none then
            let (error, store, made) := abort calls commit.upload commit.store committed
            ⟨.error error, store, state.transcript ++ commit.made ++ made⟩
          else
            ⟨.ok ⟨commit.upload.id, commit.upload.storedBytes⟩, commit.store, state.transcript ++ commit.made⟩)

end Upload

section Download

def staticChunkBytes : Nat := 1024

/-- What the calls below one download answer: the rounds of the loop read and send. -/
structure LoadCalls where
  stat : Option Errno
  openFile : Option Errno
  headers : Bool
  transfer : Nat → Files.ReadCall × Bool
  close : Bool
  sendEnd : Bool

/-- `storage_blob_reader_read_with_ops` of a file with this content: the bytes, and
whether they are the last ones. -/
def readerRead (content : List UInt8) (storedBytes bytesRead capacity : Nat) (call : Files.ReadCall) :
    Except AppError (List UInt8 × Bool) :=
  if bytesRead > storedBytes then .error .invalidArgument
  else if bytesRead = storedBytes then .ok ([], true)
  else
    let requested := min (storedBytes - bytesRead) capacity
    match Files.readFile call content bytesRead requested with
    | .error _ => .error .io
    | .ok (count, buffer) =>
      if count = 0 ∨ count > requested then .error .storageCorrupt
      else .ok (buffer, bytesRead + count = storedBytes)

structure Sending where
  bytesRead : Nat
  eof : Bool
  transcript : Transcript

/-- One round of the loop of `web_adapter_stream_file`. -/
def sendRound (content : List UInt8) (storedBytes : Nat) (call : Files.ReadCall × Bool) (state : Sending) :
    Round Sending (AppError × Transcript) :=
  if state.eof then .done (.none, state.transcript)
  else
    match readerRead content storedBytes state.bytesRead staticChunkBytes call.1 with
    | .error _ => .done (.io, state.transcript ++ [.read false])
    | .ok (buffer, eof) =>
      let transcript := state.transcript ++ [.read true]
      if buffer.length > staticChunkBytes ∨ (buffer.length = 0 ∧ ¬ eof) then .done (.io, transcript)
      else if buffer.length > 0 then
        if ¬ call.2 then .done (.io, transcript ++ [.send buffer false])
        else .next ⟨state.bytesRead + buffer.length, eof, transcript ++ [.send buffer true]⟩
      else .next ⟨state.bytesRead, eof, transcript⟩

def streamFile (calls : LoadCalls) (fuel : Nat) (content : List UInt8) (storedBytes : Nat) :
    Option (AppError × Transcript) :=
  (rounds (sendRound content storedBytes) calls.transfer fuel 0 ⟨0, false, []⟩).map (fun (streamed, transcript) =>
    let result := if ¬ calls.close ∧ streamed = .none then .io else streamed
    let transcript := transcript ++ [.close calls.close]
    if result = .none then
      (if ¬ calls.sendEnd then .io else .none, transcript ++ [.send [] calls.sendEnd])
    else (result, transcript))

/-- How a download ends: refused with an error before anything is sent, or with what
the handler returns to the server. -/
inductive LoadAnswer
  | refused (error : AppError)
  | ended (works : Bool)
deriving DecidableEq, Repr

structure LoadOutcome where
  answer : LoadAnswer
  transcript : Transcript

/-- `storage_blob_reader_open_with_ops`, with the content and the size of the file. -/
def readerOpen (calls : LoadCalls) (blobId : Nat) (directory : Directory) : Except AppError (List UInt8 × Nat) :=
  if blobId = 0 then .error .invalidArgument
  else
    match calls.stat, directory.lookup (formatFilename blobId) with
    | some fault, _ => .error (pathError fault)
    | none, none => .error .notFound
    | none, some .directory => .error .storageCorrupt
    | none, some (.file content) =>
      if content.length > sizeMax then .error .storageCorrupt
      else
        match calls.openFile with
        | some fault => .error (pathError fault)
        | none => .ok (content, content.length)

def blobLoadHandler (calls : LoadCalls) (fuel blobId : Nat) (directory : Directory) : Option LoadOutcome :=
  match readerOpen calls blobId directory with
  | .error error => some ⟨.refused error, []⟩
  | .ok (content, storedBytes) =>
    if ¬ calls.headers then some ⟨.ended false, [.close calls.close]⟩
    else
      (streamFile calls fuel content storedBytes).map (fun (result, transcript) => ⟨.ended (result = .none), transcript⟩)

end Download

end MacroKeyboard.Blobs.Transfer
