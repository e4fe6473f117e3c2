import MacroKeyboard.Limits
import MacroKeyboard.Webapp.WorkingCopy
import MacroKeyboard.Threads.Program

namespace MacroKeyboard.Webapp

open Threads.Program

/-- `PendingSnapshotCommit`. -/
structure PendingCommit where
  beforeIds : List String
  bytes : List UInt8
deriving DecidableEq, Repr

inductive Reconciliation
  | matched (blobId : String)
  | notFound
  | unavailable
  | ambiguous (matchingBlobIds : List String)
deriving DecidableEq, Repr

inductive PostAnswer
  | created (blobId : String)
  | commitUncertain
  | failed
deriving DecidableEq, Repr

/-- What happens in a run: what the user does to the working copy, what a save
captures of it and how it ends, and the requests that the device answers. -/
inductive ClientEvent (R : Type)
  | changed (repository : R)
  | discarded
  | replaced (repository : R)
  | captured (repository : R)
  | completed (result : MarkSavedResult) (before after : WorkingCopy R)
  | listed (blobIds : List String)
  | downloaded (blobId : String) (stored : List UInt8)
  | posted (bytes : List UInt8)
  | uncertain (pending : PendingCommit)
  | reconciled (pending : PendingCommit) (result : Reconciliation)
deriving DecidableEq

/-- The working copy, the two maps of the module at it, and what happened. The save
in flight is the number of its thread. -/
structure ClientState (R : Type) where
  store : WorkingCopy R
  pendingCommit : Option PendingCommit
  saveInFlight : Option Nat
  log : List (ClientEvent R)

/-- What a request finds: the blobs that the device stores at that moment, whether
it is answered, and the answers of an upload and of the compression. -/
structure ClientAnswers where
  stored : List (String × List UInt8)
  answered : Bool
  posted : PostAnswer
  compressed : Bool

abbrev ClientProg (R α : Type) : Type 1 := Prog (ClientState R) ClientAnswers α

/-- The codec of the snapshots: validation, which rebuilds what it accepts, and the
two directions of the compression. -/
structure SnapshotCodec (R : Type) where
  validateRepositoryForUse : R → Option R
  encodeRepositorySnapshot : R → List UInt8
  decodeRepositorySnapshot : List UInt8 → Option R

variable {R : Type}

def ClientState.note (event : ClientEvent R) (client : ClientState R) : ClientState R :=
  { client with log := client.log ++ [event] }

def update (f : ClientState R → ClientState R) : ClientProg R Unit := .atomic (fun _ client => ((), f client))

section Reconcile

def listSnapshots : ClientProg R (Option (List String)) :=
  .atomic (fun answers client =>
    if answers.answered then
      (some (answers.stored.map (·.1)), client.note (.listed (answers.stored.map (·.1))))
    else (none, client))

def downloadSnapshotBytes (blobId : String) : ClientProg R (Option (List UInt8)) :=
  .atomic (fun answers client =>
    match if answers.answered then answers.stored.lookup blobId else none with
    | some stored => (some stored, client.note (.downloaded blobId stored))
    | none => (none, client))

/-- The loop of `reconcilePendingSnapshotCommit` over the new blobs. -/
def matchingBlobs (bytes : List UInt8) : List String → List String → ClientProg R (Option (List String))
  | [], matching => pure (some matching)
  | blobId :: rest, matching => do
    match ← downloadSnapshotBytes blobId with
    | none => pure none
    | some stored => matchingBlobs bytes rest (if stored = bytes then matching ++ [blobId] else matching)

def reconciliationOf : Option (List String) → Reconciliation
  | none => .unavailable
  | some [] => .notFound
  | some [blobId] => .matched blobId
  | some matching => .ambiguous matching

def reconcilePendingSnapshotCommit (pending : PendingCommit) : ClientProg R Reconciliation := do
  match ← listSnapshots with
  | none => pure .unavailable
  | some current =>
    let matching ← matchingBlobs pending.bytes (current.filter (· ∉ pending.beforeIds)) []
    pure (reconciliationOf matching)

/-- What a save does with the reconciliation before it throws. -/
def concludeReconciliation (pending : PendingCommit) (reconciliation : Reconciliation) (client : ClientState R) :
    ClientState R :=
  ({ client with
    pendingCommit := if reconciliation = .notFound then none else client.pendingCommit } : ClientState R).note
    (.reconciled pending reconciliation)

def reconcileAndThrow (pending : PendingCommit) : ClientProg R Unit := do
  let reconciliation ← reconcilePendingSnapshotCommit pending
  update (concludeReconciliation pending reconciliation)

end Reconcile

section Save

variable (codec : SnapshotCodec R)

def captureWorkingCopy (_ : ClientAnswers) (client : ClientState R) : (R × SaveToken) × ClientState R :=
  ((client.store.working, client.store.getSaveToken), client.note (.captured client.store.working))

/-- What a save does with the answer of its upload; it tells whether the commit is
uncertain. -/
def concludeUpload (pending : PendingCommit) (repository : R) (token : SaveToken) (answers : ClientAnswers)
    (client : ClientState R) : Bool × ClientState R :=
  match answers.posted with
  | .created _ =>
    let marked := client.store.markSaved repository token
    (false, ({ client with store := marked.2, pendingCommit := none } : ClientState R).note
      (.completed marked.1 client.store marked.2))
  | .commitUncertain => (true, ({ client with pendingCommit := some pending } : ClientState R).note (.uncertain pending))
  | .failed => (false, client)

/-- `saveWorkingCopyAsSnapshotOnce` from the list of the blobs on. -/
def uploadSnapshot (repository : R) (token : SaveToken) (bytes : List UInt8) : ClientProg R Unit := do
  match ← listSnapshots with
  | none => pure ()
  | some before =>
    update (·.note (.posted bytes))
    let uncertain ← .atomic (concludeUpload ⟨before, bytes⟩ repository token)
    if uncertain then reconcileAndThrow ⟨before, bytes⟩
    else pure ()

def saveWorkingCopyAsSnapshotOnce : ClientProg R Unit := do
  let (repository, token) ← .atomic captureWorkingCopy
  match codec.validateRepositoryForUse repository with
  | none => pure ()
  | some validated =>
    let compressed ← .ask (fun answers => answers.compressed)
    if ¬ compressed ∨ (codec.encodeRepositorySnapshot validated).length > Limits.blobMaxBytes then pure ()
    else
      match ← .read (fun client => client.pendingCommit) with
      | some pending => reconcileAndThrow pending
      | none => uploadSnapshot validated token (codec.encodeRepositorySnapshot validated)

/-- A save joins the one in flight, if there is one. -/
def claimSave (task : Nat) (_ : ClientAnswers) (client : ClientState R) : Bool × ClientState R :=
  match client.saveInFlight with
  | some _ => (false, client)
  | none => (true, { client with saveInFlight := some task })

def releaseSave (task : Nat) (client : ClientState R) : ClientState R :=
  { client with saveInFlight := if client.saveInFlight = some task then none else client.saveInFlight }

def saveWorkingCopyAsSnapshot (task : Nat) : ClientProg R Unit := do
  let claimed ← .atomic (claimSave task)
  if ¬ claimed then pure ()
  else
    saveWorkingCopyAsSnapshotOnce codec
    update (releaseSave task)

def loadSnapshotIntoWorkingCopy (blobId : String) : ClientProg R Unit := do
  match ← downloadSnapshotBytes blobId with
  | none => pure ()
  | some stored =>
    match (codec.decodeRepositorySnapshot stored).bind codec.validateRepositoryForUse with
    | none => pure ()
    | some repository =>
      update (fun client =>
        ({ client with store := client.store.replaceWorkingCopy repository, pendingCommit := none } : ClientState R).note
          (.replaced repository))

def replaceSnapshotWithWorkingCopy (task : Nat) : ClientProg R Unit := do
  let deleted ← .ask (fun answers => answers.answered)
  if ¬ deleted then pure () else saveWorkingCopyAsSnapshot codec task

end Save

section Edit

def editWorkingCopy (repository : R) : ClientProg R Unit :=
  update (fun client => { client with store := client.store.applyContentChange repository }.note (.changed repository))

def importIntoWorkingCopy (repository : R) : ClientProg R Unit :=
  update (fun client => { client with store := client.store.applyImport repository }.note (.changed repository))

def discardWorkingCopy : ClientProg R Unit :=
  update (fun client => { client with store := client.store.discardChanges }.note .discarded)

end Edit

inductive ClientTask (codec : SnapshotCodec R) : Nat → ClientProg R Unit → Prop
  | edit (task : Nat) (repository : R) : ClientTask codec task (editWorkingCopy repository)
  | importFile (task : Nat) (repository : R) : ClientTask codec task (importIntoWorkingCopy repository)
  | discard (task : Nat) : ClientTask codec task discardWorkingCopy
  | save (task : Nat) : ClientTask codec task (saveWorkingCopyAsSnapshot codec task)
  | load (task : Nat) (blobId : String) : ClientTask codec task (loadSnapshotIntoWorkingCopy codec blobId)
  | replace (task : Nat) : ClientTask codec task (replaceSnapshotWithWorkingCopy codec task)

def clientSystem (codec : SnapshotCodec R) : System (ClientState R) ClientAnswers where
  mayStart := ClientTask codec
  stopped := fun _ => false

def ClientState.initial (repository : R) : ClientState R := ⟨.create repository, none, none, []⟩

abbrev ClientRun (codec : SnapshotCodec R) (repository : R) : Config (ClientState R) ClientAnswers → Prop :=
  Reachable (clientSystem codec) (.initial repository)

end MacroKeyboard.Webapp
