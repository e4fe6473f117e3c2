import MacroKeyboard.Blobs.Storage

namespace MacroKeyboard.Blobs

def sizeMax : Nat := 2 ^ 32 - 1

def isDotEntry (name : Name) : Bool := name == bytes "." || name == bytes ".."

/-- What the file operations of a scan answer: each read of the directory, the stat of
each entry, and whether the array of entries takes one more. -/
structure ScanCalls where
  openDirectory : Bool
  readDirectory : Nat → Bool
  statPath : Name → Bool
  appendEntry : Nat → Bool
  closeDirectory : Bool

/-- All operations of a scan work, but perhaps the stat of an entry. -/
structure ScanCalls.Working (calls : ScanCalls) : Prop where
  openDirectory : calls.openDirectory = true
  readDirectory : ∀ index, calls.readDirectory index = true
  appendEntry : ∀ count, calls.appendEntry count = true
  closeDirectory : calls.closeDirectory = true

def ScanCalls.working : ScanCalls := ⟨true, fun _ => true, fun _ => true, fun _ => true, true⟩

theorem ScanCalls.working_working : ScanCalls.working.Working := ⟨rfl, fun _ => rfl, fun _ => rfl, rfl⟩

/-- The callbacks of a scan, over the context they share. -/
structure ScanObserver (γ : Type) where
  visitEntry : BlobEntry → γ → AppError × γ
  visitInvalidName : Name → γ → AppError × γ
  visitTemporaryFile : Name → γ → AppError × γ

def ScanObserver.entriesOnly {γ : Type} (visitEntry : BlobEntry → γ → AppError × γ) : ScanObserver γ :=
  ⟨visitEntry, fun _ observed => (.none, observed), fun _ observed => (.none, observed)⟩

structure ScanContext (γ : Type) where
  entries : List BlobEntry
  summary : ScanSummary
  observed : γ

section Scan

variable {γ : Type}

def invalidName (observer : ScanObserver γ) (name : Name) (context : ScanContext γ) : AppError × ScanContext γ :=
  let (result, observed) := observer.visitInvalidName name context.observed
  (result,
    { context with
      summary := { context.summary with invalidNameCount := context.summary.invalidNameCount + 1 }
      observed })

def temporaryFile (observer : ScanObserver γ) (name : Name) (context : ScanContext γ) : AppError × ScanContext γ :=
  let (result, observed) := observer.visitTemporaryFile name context.observed
  (result,
    { context with
      summary := { context.summary with temporaryFileCount := context.summary.temporaryFileCount + 1 }
      observed })

def greaterId (maxId : Option Nat) (blobId : Nat) : Option Nat :=
  match maxId with
  | none => some blobId
  | some maxId => if blobId > maxId then some blobId else some maxId

/-- `process_directory_entry`, of the entry with what is there. The path of an entry fits
its buffer, since the repository has a short path of its own. -/
def processEntry (calls : ScanCalls) (observer : ScanObserver γ) (name : Name) (node : Node)
    (context : ScanContext γ) : AppError × ScanContext γ :=
  match parseFilename name with
  | none =>
    match parseTemporaryFilename name with
    | none => invalidName observer name context
    | some _ =>
      if ¬ calls.statPath name then (.io, context)
      else
        match node with
        | .file _ => temporaryFile observer name context
        | .directory => invalidName observer name context
  | some blobId =>
    if ¬ calls.statPath name then (.io, context)
    else
      match node with
      | .directory => invalidName observer name context
      | .file content =>
        if content.length > sizeMax then invalidName observer name context
        else if ¬ calls.appendEntry context.entries.length then (.internal, context)
        else
          (.none,
            { context with
              entries := context.entries ++ [⟨blobId, content.length⟩]
              summary := { context.summary with maxId := greaterId context.summary.maxId blobId } })

/-- `scan_directory_entries`, over what the directory yields from a read on. -/
def scanEntries (calls : ScanCalls) (observer : ScanObserver γ) :
    Nat → List (Name × Node) → ScanContext γ → AppError × ScanContext γ
  | index, [], context => (if calls.readDirectory index then .none else .io, context)
  | index, (name, node) :: rest, context =>
    if ¬ calls.readDirectory index then (.io, context)
    else if isDotEntry name then scanEntries calls observer (index + 1) rest context
    else
      let (result, context) := processEntry calls observer name node context
      if result ≠ .none then (result, context) else scanEntries calls observer (index + 1) rest context

/-- `storage_blob_sort_newest_first`. The part that is sorted is kept from its end on,
as the inner loop walks it. -/
def sortNewestFirst (entries : List BlobEntry) : List BlobEntry :=
  (entries.foldl (fun back candidate => back.orderedInsert (fun a b => a.id ≤ b.id) candidate) []).reverse

def notifyEntries (observer : ScanObserver γ) : List BlobEntry → γ → AppError × γ
  | [], observed => (.none, observed)
  | entry :: rest, observed =>
    let (result, observed) := observer.visitEntry entry observed
    if result ≠ .none then (result, observed) else notifyEntries observer rest observed

def scanWithOps (calls : ScanCalls) (observer : ScanObserver γ) (stream : List (Name × Node)) (persistedNextId : Nat)
    (observed : γ) : AppError × ScanSummary × γ :=
  if ¬ calls.openDirectory then (.io, .zero, observed)
  else
    let (scanned, context) := scanEntries calls observer 0 stream ⟨[], .zero, observed⟩
    let result := if ¬ calls.closeDirectory ∧ scanned = .none then .io else scanned
    let summary := { context.summary with validCount := context.entries.length }
    if result ≠ .none then (result, summary, context.observed)
    else
      match deriveNextId persistedNextId summary.maxId with
      | .error error => (error, summary, context.observed)
      | .ok nextId =>
        let (notified, observed) := notifyEntries observer (sortNewestFirst context.entries) context.observed
        (notified, { summary with nextId }, observed)

end Scan

/-- A directory and a reading of it: each entry once, in any order, and the dot entries
anywhere. The size of a file is what a signed number of 32 bits can say. -/
structure DirectoryReading where
  directory : Directory
  stream : List (Name × Node)
  complete : (stream.filter (fun entry => !isDotEntry entry.1)).Perm (listing directory)
  sizes : ∀ entry ∈ stream, ∀ content, entry.2 = .file content → content.length < 2 ^ 31

section Entries

def blobOf (entry : Name × Node) : Option BlobEntry :=
  match parseFilename entry.1, entry.2 with
  | some blobId, .file content => some ⟨blobId, content.length⟩
  | some _, .directory | none, _ => none

def isTemporary (entry : Name × Node) : Bool := (parseTemporaryFilename entry.1).isSome && isFile (some entry.2)

def isForeign (entry : Name × Node) : Bool := (blobOf entry).isNone && !isTemporary entry

def isNamed (name : Name) : Bool := (parseFilename name).isSome || (parseTemporaryFilename name).isSome

theorem parseFilename_eq_none {name : Name} (h : (parseTemporaryFilename name).isSome) : parseFilename name = none := by
  obtain ⟨blobId, hname⟩ := Option.isSome_iff_exists.mp h
  rw [(parseTemporaryFilename_eq_some hname).1]
  exact parseFilename_temporary blobId

theorem blobOf_eq_some {entry : Name × Node} {blob : BlobEntry} : blobOf entry = some blob ↔
    parseFilename entry.1 = some blob.id ∧ ∃ content, entry.2 = .file content ∧ blob.storedBytes = content.length := by
  obtain ⟨name, node⟩ := entry
  unfold blobOf
  constructor
  · intro h
    split at h
    · next blobId content hname hnode =>
      cases h
      exact ⟨hname, content, hnode, rfl⟩
    · cases h
    · cases h
  · rintro ⟨hname, content, rfl, hsize⟩
    simp only [hname, ← hsize]

theorem blobOf_temporary {entry : Name × Node} (h : isTemporary entry = true) : blobOf entry = none := by
  rw [isTemporary, Bool.and_eq_true] at h
  unfold blobOf
  rw [parseFilename_eq_none h.1]

def ScanContext.add {γ : Type} (context : ScanContext γ) (entry : Name × Node) : ScanContext γ :=
  match blobOf entry with
  | some blob =>
    { context with
      entries := context.entries ++ [blob]
      summary := { context.summary with maxId := greaterId context.summary.maxId blob.id } }
  | none =>
    if isTemporary entry then
      { context with
        summary := { context.summary with temporaryFileCount := context.summary.temporaryFileCount + 1 } }
    else
      { context with summary := { context.summary with invalidNameCount := context.summary.invalidNameCount + 1 } }

end Entries

end MacroKeyboard.Blobs
