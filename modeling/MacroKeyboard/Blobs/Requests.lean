import MacroKeyboard.Blobs.Upload
import MacroKeyboard.Blobs.Erasure
import MacroKeyboard.Blobs.Recovery

namespace MacroKeyboard.Blobs.Requests

open Loops.Rounds Transfer ScanReport Erasure Recovery

section Operations

/-- The list that a response is built from, with the sum of the sizes in it. -/
structure BlobList where
  entries : List BlobEntry
  usedBytes : Nat

def addBlobListEntry (allocate : Nat → Bool) (entry : BlobEntry) (list : BlobList) : AppError × BlobList :=
  if list.usedBytes > sizeMax - entry.storedBytes ∨ ¬ allocate list.entries.length then (.internal, list)
  else (.none, ⟨list.entries ++ [entry], list.usedBytes + entry.storedBytes⟩)

def storageBlobList (calls : ScanCalls) (allocate : Nat → Bool) (reading : DirectoryReading) (store : BlobStore) :
    AppError × BlobStore × BlobList :=
  let (result, summary, list) := scanWithOps calls (.entriesOnly (addBlobListEntry allocate)) reading.stream
    store.scanState.nextId ⟨[], 0⟩
  (result, if result ≠ .none then store else { store with scanState := summary }, list)

def storageBlobDelete (failures : Failures) (syncParent : Option Errno) (blobId : Nat) (store : BlobStore) :
    AppError × BlobStore :=
  let (result, directory) := deleteBlob failures blobId store.directory
  if result ≠ .none then (result, { store with directory })
  else
    (if syncParent.isSome then .io else .none,
      { store with directory, scanState := recordDeletedEntry store.scanState })

def storageBlobDeleteAll (calls : ScanCalls) (failures : Failures) (syncParent : Option Errno)
    (reading : DirectoryReading) (store : BlobStore) : AppError × BlobStore :=
  let (scanned, _, state) := scanWithOps calls (.entriesOnly (deleteAllVisitEntry failures)) reading.stream 0
    ⟨.none, 0, store.directory⟩
  let result := if scanned ≠ .none then scanned else state.firstError
  (if state.deletedCount > 0 ∧ syncParent.isSome ∧ result = .none then .io else result,
    { store with
      directory := state.directory
      scanState := recordDeletedEntry^[state.deletedCount] store.scanState })

/-- `storage_prepare_directories` has succeeded: the temporary files are removed and the
blobs are scanned. No directory has the name of a blob, since only files are made there. -/
structure Started (store : BlobStore) : Prop where
  recovered : ∃ (calls : RecoverCalls) (reading : DirectoryReading) (removed : Nat),
    (∀ name, isNamed name = true → reading.directory.lookup name ≠ some .directory) ∧
    recoverWithOps calls reading = (.none, store.directory, removed)
  scanned : ∃ (calls : ScanCalls) (reading : DirectoryReading) (persistedNextId : Nat), reading.directory = store.directory ∧
    persistedNextId ≤ uint64Max ∧ scanWithOps calls (.entriesOnly fun _ seen => (.none, seen)) reading.stream
      persistedNextId () = (.none, store.scanState, ())

end Operations

/-- The store, and the identifier of an upload whose commit is uncertain, for as long as no
list has succeeded after it and its blob is not deleted. -/
structure Repository where
  store : BlobStore
  uncertain : Option Nat

/-- What an upload with the next identifier adds to it. -/
def uncertainAfter (nextId : Nat) (uncertain : Option Nat) : Except AppError BlobEntry → Option Nat
  | .ok _ => none
  | .error .commitUncertain => some nextId
  | .error _ => uncertain

def remaining (directory : Directory) (uncertain : Option Nat) : Option Nat :=
  uncertain.filter (fun blobId => (directory.lookup (formatFilename blobId)).isSome)

/-- The removals that clean up after an upload succeed. -/
structure Removes (calls : UploadCalls) : Prop where
  cleanup : calls.cleanup = none
  abortUnlink : calls.abortUnlink = none

/-- One request is served, and whatever else fails in it the removals succeed. -/
inductive Serves : Repository → Repository → Prop
  | upload {repository : Repository} {calls : UploadCalls} {fuel contentLength : Nat} {outcome : UploadOutcome}
      (hremoves : Removes calls) (h : blobCreateHandler calls fuel contentLength repository.store = some outcome) :
      Serves repository ⟨outcome.store,
        uncertainAfter repository.store.scanState.nextId repository.uncertain outcome.answer⟩
  | list {repository : Repository} {calls : ScanCalls} {allocate : Nat → Bool} {reading : DirectoryReading}
      (hreading : reading.directory = repository.store.directory) :
      Serves repository ⟨(storageBlobList calls allocate reading repository.store).2.1,
        if (storageBlobList calls allocate reading repository.store).1 = .none then none else repository.uncertain⟩
  | delete {repository : Repository} {failures : Failures} {syncParent : Option Errno} {blobId : Nat}
      (hmax : blobId ≤ uint64Max) :
      Serves repository ⟨(storageBlobDelete failures syncParent blobId repository.store).2,
        remaining (storageBlobDelete failures syncParent blobId repository.store).2.directory repository.uncertain⟩
  | deleteAll {repository : Repository} {calls : ScanCalls} {failures : Failures} {syncParent : Option Errno}
      {reading : DirectoryReading} (hreading : reading.directory = repository.store.directory) :
      Serves repository ⟨(storageBlobDeleteAll calls failures syncParent reading repository.store).2,
        remaining (storageBlobDeleteAll calls failures syncParent reading repository.store).2.directory
          repository.uncertain⟩

abbrev Run : Repository → Repository → Prop := Relation.ReflTransGen Serves

section Directory

/-- No directory has the name of a blob or of a temporary file, and no temporary file is
there, but perhaps with the name that is spared. -/
def TidyBut (spared : Name) (directory : Directory) : Prop :=
  ∀ name, name ≠ spared →
    (isNamed name = true → directory.lookup name ≠ some .directory) ∧
    ((parseTemporaryFilename name).isSome = true → directory.lookup name = none)

def Tidy (directory : Directory) : Prop :=
  ∀ name, (isNamed name = true → directory.lookup name ≠ some .directory) ∧
    ((parseTemporaryFilename name).isSome = true → directory.lookup name = none)

variable {directory : Directory} {spared : Name}

theorem Tidy.but (h : Tidy directory) (spared : Name) : TidyBut spared directory := fun name _ => h name

theorem TidyBut.of_lookup (h : TidyBut spared directory) (hlookup : directory.lookup spared = none) : Tidy directory := by
  intro name
  by_cases hname : name = spared
  · rw [hname, hlookup]
    exact ⟨fun _ => nofun, fun _ => rfl⟩
  · exact h name hname

theorem TidyBut.insert (h : TidyBut spared directory) (node : Node) : TidyBut spared (directory.insert spared node) := by
  intro name hname
  rw [AList.lookup_insert_ne hname]
  exact h name hname

theorem TidyBut.erase (h : TidyBut spared directory) : Tidy (directory.erase spared) := by
  intro name
  by_cases hname : name = spared
  · rw [hname, AList.lookup_erase]
    exact ⟨fun _ => nofun, fun _ => rfl⟩
  · rw [AList.lookup_erase_ne hname]
    exact h name hname

theorem TidyBut.unlink (h : TidyBut spared directory) : Tidy (unlinkIfPresent none spared directory).2 := by
  unfold unlinkIfPresent
  cases hlookup : directory.lookup spared with
  | none => exact h.of_lookup hlookup
  | some node => exact h.erase

theorem Tidy.insertBlob (h : Tidy directory) {name : Name} (hname : parseTemporaryFilename name = none)
    (content : List UInt8) : Tidy (directory.insert name (.file content)) := by
  intro other
  by_cases hother : other = name
  · rw [hother, AList.lookup_insert, hname]
    exact ⟨fun _ => nofun, nofun⟩
  · rw [AList.lookup_insert_ne hother]
    exact h other

def Within (before after : Directory) : Prop := ∀ name node, after.lookup name = some node → before.lookup name = some node

theorem Within.tidy {before after : Directory} (hwithin : Within before after) (h : Tidy before) : Tidy after := by
  intro name
  refine ⟨fun hnamed hdirectory => (h name).1 hnamed (hwithin name _ hdirectory), fun htemporary => ?_⟩
  cases hafter : after.lookup name with
  | none => rfl
  | some node =>
    have hbefore := hwithin name node hafter
    rw [(h name).2 htemporary] at hbefore
    cases hbefore

theorem Within.trans {a b c : Directory} (hab : Within a b) (hbc : Within b c) : Within a c :=
  fun name node h => hab name node (hbc name node h)

theorem within_erase (name : Name) (directory : Directory) : Within directory (directory.erase name) := by
  intro other node h
  by_cases hother : other = name
  · rw [hother, AList.lookup_erase] at h
    cases h
  · rwa [AList.lookup_erase_ne hother] at h

theorem parseTemporary_final {blobId : Nat} : parseTemporaryFilename (formatFilename blobId) = none := by
  by_contra h
  obtain ⟨other, hother⟩ := Option.ne_none_iff_exists'.mp h
  exact formatFilename_ne_temporary blobId other (parseTemporaryFilename_eq_some hother).1

end Directory

section Commit

variable {calls : UploadCalls} {upload : BlobUpload}

/-- What a commit leaves besides the blob: the scan state is as it was, and at most the
temporary file of this upload is left, which is gone when the blob is there. -/
structure Leaves (upload : BlobUpload) (before : BlobStore) (commit : Commit) : Prop where
  id : commit.upload.id = upload.id
  scanState : commit.store.scanState = before.scanState
  tidyBut : TidyBut upload.temporaryPath commit.store.directory
  tidy : commit.upload.finalPathOwned = true → Tidy commit.store.directory
  error : commit.upload.finalPathOwned = false → commit.result.error ≠ .commitUncertain

theorem mapIoError_ne_uncertain (fault : Errno) : mapIoError fault ≠ .commitUncertain := by
  cases fault <;> decide

theorem pathAbsent_ne_uncertain (fault : Option Errno) (name : Name) (directory : Directory) :
    pathAbsent fault name directory ≠ .commitUncertain := by
  unfold pathAbsent
  split
  · decide
  · decide
  · exact mapIoError_ne_uncertain _
  · decide

theorem unlinkIfPresent_none (name : Name) (directory : Directory) : (unlinkIfPresent none name directory).1 = .none := by
  unfold unlinkIfPresent
  cases directory.lookup name <;> rfl

theorem error_primary {error : AppError} (state : CommitState) : (primaryError error state).error = error := by
  cases error <;> rfl

theorem cleanupFailed_leaves {staged : BlobUpload} {before store : BlobStore} {made : Transcript} {primary : AppError}
    (hremoves : Removes calls) (hid : staged.id = upload.id) (hscan : store.scanState = before.scanState)
    (htidy : TidyBut upload.temporaryPath store.directory) (hprimary : primary ≠ .commitUncertain) :
    Leaves upload before (cleanupFailed calls staged store made primary) := by
  have hpath : staged.temporaryPath = upload.temporaryPath := by
    rw [BlobUpload.temporaryPath, hid]
    rfl
  have hafter : Tidy (cleanupFailed calls staged store made primary).store.directory := by
    rw [cleanupFailed, hremoves.cleanup, hpath]
    exact htidy.unlink
  refine ⟨hid, hscan, hafter.but _, fun _ => hafter, fun _ => ?_⟩
  rw [cleanupFailed, hremoves.cleanup, unlinkIfPresent_none, OperationResult.recordCleanup, if_pos rfl, error_primary]
  exact hprimary

theorem persist_scanState (calls : FileCalls) (nextId : Nat) (store : BlobStore) :
    (persist calls nextId store).2.scanState = store.scanState ∧ (persist calls nextId store).1 ≠ .commitUncertain := by
  unfold persist
  by_cases hopen : ¬ calls.counterOpen = true
  · rw [if_pos hopen]
    exact ⟨rfl, nofun⟩
  · rw [if_neg hopen]
    cases calls.counterFault with
    | none => exact ⟨rfl, nofun⟩
    | some fault =>
      refine ⟨?_, ?_⟩
      · dsimp only
        split <;> rfl
      · dsimp only
        split <;> decide

theorem activate_leaves {staged : BlobUpload} {before store : BlobStore} {made : Transcript} (hremoves : Removes calls)
    (hid : staged.id = upload.id) (hscan : store.scanState = before.scanState)
    (htidy : TidyBut upload.temporaryPath store.directory) {content : List UInt8}
    (hstaged : store.directory.lookup upload.temporaryPath = some (.file content)) :
    Leaves upload before (activate calls staged store made) := by
  have htemporary : staged.temporaryPath = upload.temporaryPath := by
    rw [BlobUpload.temporaryPath, hid]
    rfl
  unfold activate
  dsimp only
  by_cases hfinal : pathAbsent calls.statStaged staged.finalPath store.directory ≠ .none
  · rw [if_pos hfinal]
    exact cleanupFailed_leaves hremoves hid hscan htidy (pathAbsent_ne_uncertain _ _ _)
  · rw [if_neg hfinal]
    have hdirectory := (persist_spec calls.counter (staged.id + 1) store).1
    obtain ⟨hsame, hcounter⟩ := persist_scanState calls.counter (staged.id + 1) store
    by_cases hpersisted : (persist calls.counter (staged.id + 1) store).1 ≠ .none
    · rw [if_pos hpersisted]
      exact cleanupFailed_leaves hremoves hid (hsame.trans hscan) (by rw [hdirectory]; exact htidy) hcounter
    · rw [if_neg hpersisted, hdirectory]
      cases hrename : calls.rename with
      | some fault =>
        simp only [rename]
        exact cleanupFailed_leaves hremoves hid (hsame.trans hscan) (by rw [hdirectory]; exact htidy)
          (mapIoError_ne_uncertain fault)
      | none =>
        rw [htemporary]
        simp only [rename, hstaged]
        have htidied : Tidy ((store.directory.erase upload.temporaryPath).insert staged.finalPath (.file content)) :=
          htidy.erase.insertBlob parseTemporary_final content
        cases calls.syncParent with
        | some fault => exact ⟨hid, hsame.trans hscan, htidied.but _, fun _ => htidied, fun h => by cases h⟩
        | none => exact ⟨hid, hsame.trans hscan, htidied.but _, fun _ => htidied, fun h => by cases h⟩

theorem commitWithOps_leaves {store : BlobStore} (hremoves : Removes calls) (hunowned : upload.finalPathOwned = false)
    (htidy : TidyBut upload.temporaryPath store.directory) : Leaves upload store (commitWithOps calls upload store) := by
  have hrefused : ∀ error ≠ AppError.commitUncertain,
      Leaves upload store ⟨primaryError error .notCommitted, upload, store, []⟩ := by
    intro error herror
    refine ⟨rfl, rfl, htidy, ?_, fun _ => ?_⟩
    · intro howned
      rw [hunowned] at howned
      cases howned
    · rw [error_primary]
      exact herror
  unfold commitWithOps
  by_cases hinvalid : ¬ upload.active = true ∨ upload.committed = true ∨ upload.storedBytes ≠ upload.expectedBytes
  · rw [if_pos hinvalid]
    exact hrefused .invalidArgument (by decide)
  · rw [if_neg hinvalid]
    by_cases hfull : upload.id = uint64Max
    · rw [if_pos hfull]
      exact hrefused .storageFull (by decide)
    · rw [if_neg hfull]
      have hafter : TidyBut upload.temporaryPath (closeStaged calls upload store.directory).2.2.1 := by
        unfold closeStaged
        dsimp only
        split
        · exact htidy.insert _
        · exact htidy
      have herror : (closeStaged calls upload store.directory).1 ≠ .commitUncertain := by
        unfold closeStaged
        dsimp only
        cases (calls.flush.or (if calls.flush.isNone then calls.sync else none)).or calls.close with
        | none => decide
        | some fault => exact mapIoError_ne_uncertain fault
      obtain ⟨staged, directory, made, hclosed, -, hnone⟩ := closeStaged_spec calls upload store.directory
      rw [hclosed] at hafter herror ⊢
      dsimp only at hafter herror ⊢
      by_cases hstaged : staged ≠ .none
      · rw [if_pos hstaged]
        exact cleanupFailed_leaves hremoves rfl rfl hafter herror
      · rw [if_neg hstaged]
        exact activate_leaves hremoves rfl rfl hafter (hnone (not_not.mp hstaged)).1

theorem commit_leaves {store : BlobStore} (hremoves : Removes calls) (hcommitted : upload.committed = false)
    (hunowned : upload.finalPathOwned = false) (htidy : TidyBut upload.temporaryPath store.directory) {error : AppError}
    {committed : Commit} (h : commit calls upload store = (error, committed)) :
    TidyBut committed.upload.temporaryPath committed.store.directory ∧
      (committed.upload.finalPathOwned = true → Tidy committed.store.directory) ∧
      (error ≠ .none → committed.store.scanState = store.scanState) ∧
      (committed.upload.finalPathOwned = false → error ≠ .commitUncertain ∧ error ≠ .none) := by
  have hleaves := commitWithOps_leaves hremoves hunowned htidy
  have hspec : Committed upload store (commitWithOps calls upload store) := commitWithOps_spec hcommitted hunowned
  have hleft : TidyBut (commitWithOps calls upload store).upload.temporaryPath
      (commitWithOps calls upload store).store.directory := by
    rw [BlobUpload.temporaryPath, hleaves.id]
    exact hleaves.tidyBut
  have herror := fun howned => And.intro (hleaves.error howned) (hspec.unowned howned).2.2.2
  unfold commit at h
  dsimp only at h
  split at h
  · next hdone =>
    cases h
    refine ⟨hleft, hleaves.tidy, ?_, herror⟩
    intro hfailed
    exfalso
    cases howned : (commitWithOps calls upload store).upload.finalPathOwned with
    | true =>
      rcases (hspec.owned howned).2 with ⟨-, hnone⟩ | ⟨hnot, -⟩
      · exact hfailed hnone
      · rw [hnot] at hdone
        cases hdone
    | false =>
      rw [(hspec.unowned howned).2.1] at hdone
      cases hdone
  · split at h
    · next huncertain =>
      cases h
      refine ⟨hleft, hleaves.tidy, fun _ => hleaves.scanState, ?_⟩
      intro howned
      rw [(hspec.unowned howned).2.2.1] at huncertain
      cases huncertain
    · cases h
      exact ⟨hleft, hleaves.tidy, fun _ => hleaves.scanState, herror⟩

end Commit

section Upload

variable {calls : UploadCalls} {fuel contentLength : Nat} {store : BlobStore} {outcome : UploadOutcome}

theorem begin_opens {upload : BlobUpload} {opened : BlobStore}
    (h : begin calls contentLength store = (.ok upload, opened)) :
    opened = { store with directory := store.directory.insert upload.temporaryPath (.file []) } := by
  unfold begin at h
  dsimp only at h
  repeat' split at h
  all_goals cases h
  rfl

theorem begin_ne_uncertain {error : AppError} {after : BlobStore}
    (h : begin calls contentLength store = (.error error, after)) : error ≠ .commitUncertain := by
  unfold begin at h
  dsimp only at h
  repeat' split at h
  all_goals cases h
  · decide
  · decide
  · exact pathAbsent_ne_uncertain _ _ _
  · exact pathAbsent_ne_uncertain _ _ _
  · exact mapIoError_ne_uncertain _
  · decide

theorem write_ne_uncertain (call : ReceiveCall) (upload : BlobUpload) (data : List UInt8) :
    (write call upload data).1 ≠ .commitUncertain := by
  unfold write
  split
  · exact nofun
  · dsimp only
    split
    · exact mapIoError_ne_uncertain _
    · exact nofun

theorem receiveRound_plain (call : ReceiveCall) (state : Receiving) (_ : True) :
    (receiveRound contentLength call state).Holds (fun _ => True) (fun result => result.1 ≠ .commitUncertain) := by
  unfold receiveRound
  split
  · dsimp only
    split
    · split
      · exact nofun
      · trivial
    · exact nofun
    · split
      · exact nofun
      · split
        · exact write_ne_uncertain call state.upload _
        · trivial
  · exact nofun

theorem abort_plain {upload : BlobUpload} {primary : AppError} (hremoves : Removes calls)
    (hprimary : primary ≠ .commitUncertain) : (abort calls upload store primary).1 ≠ .commitUncertain := by
  unfold abort
  split
  · exact hprimary
  · rw [hremoves.abortUnlink]
    dsimp only
    rw [unlinkIfPresent_none]
    cases (if upload.active then calls.abortClose else none) with
    | none => exact hprimary
    | some fault => cases fault <;> exact nofun

theorem abort_tidy {upload : BlobUpload} {primary : AppError} (hremoves : Removes calls)
    (hcommitted : upload.committed = false) (hunowned : upload.finalPathOwned = false)
    (htidy : TidyBut upload.temporaryPath store.directory) : Tidy (abort calls upload store primary).2.1.directory := by
  rw [abort, if_neg (by rw [hcommitted, hunowned]; decide), hremoves.abortUnlink]
  exact htidy.unlink

theorem abort_scanState {upload : BlobUpload} {primary : AppError} :
    (abort calls upload store primary).2.1.scanState = store.scanState := by
  unfold abort
  split <;> rfl

/-- The blobs that an upload may add have the identifier that it takes. -/
def Adds (store after : BlobStore) : Prop :=
  ∀ name, name ≠ formatFilename store.scanState.nextId → (parseFilename name).isSome = true →
    after.directory.lookup name = store.directory.lookup name

/-- How an upload ends: without its blob, with the blob but uncertain of it, or with the blob
and the next identifier after it. -/
inductive Ends (store : BlobStore) (outcome : UploadOutcome) : Prop
  | refused {error : AppError} (answer : outcome.answer = .error error) (plain : error ≠ .commitUncertain)
      (scanState : outcome.store.scanState = store.scanState)
      (same : SameBlobs store.directory outcome.store.directory)
  | uncertain (answer : outcome.answer = .error .commitUncertain) (room : store.scanState.nextId ≠ uint64Max)
      (scanState : outcome.store.scanState = store.scanState) (adds : Adds store outcome.store)
      (blob : (outcome.store.directory.lookup (formatFilename store.scanState.nextId)).isSome = true)
  | created {entry : BlobEntry} (answer : outcome.answer = .ok entry) (room : store.scanState.nextId ≠ uint64Max)
      (adds : Adds store outcome.store) (nextId : outcome.store.scanState.nextId = store.scanState.nextId + 1)

theorem upload_ends (hremoves : Removes calls) (htidy : Tidy store.directory)
    (h : blobCreateHandler calls fuel contentLength store = some outcome) :
    Tidy outcome.store.directory ∧ Ends store outcome := by
  unfold blobCreateHandler at h
  split at h
  · cases h
    exact ⟨htidy, .refused rfl nofun rfl (SameBlobs.refl _)⟩
  cases hbegin : begin calls contentLength store with
  | mk started opened =>
    rw [hbegin] at h
    cases started with
    | error error =>
      cases h
      rw [begin_error hbegin]
      exact ⟨htidy, .refused rfl (begin_ne_uncertain hbegin) rfl (SameBlobs.refl _)⟩
    | ok upload =>
      obtain ⟨hbegun, hid, hzero, hfull, hstored, hstream, hopened⟩ := begin_ok hbegin
      have hscan : opened.scanState = store.scanState := by rw [begin_opens hbegin]
      have hbut : TidyBut upload.temporaryPath opened.directory := by
        rw [begin_opens hbegin]
        exact (htidy.but _).insert _
      obtain ⟨⟨streamed, state⟩, hrounds, houtcome⟩ := Option.map_eq_some_iff.mp h
      have hstart := streaming_start contentLength hstored hstream
      obtain ⟨⟨hstateId, hcommitted, hunowned⟩, -⟩ := rounds_post (receiveRound_holds hbegun) hstart hrounds
      have hplain : streamed ≠ .commitUncertain := rounds_post receiveRound_plain trivial hrounds
      have hpath : state.upload.temporaryPath = upload.temporaryPath := by
        rw [BlobUpload.temporaryPath, hstateId]
        rfl
      rw [← hpath] at hbut
      dsimp only at houtcome
      by_cases hstreamed : streamed ≠ .none
      · rw [if_pos hstreamed] at houtcome
        rw [← houtcome]
        exact ⟨abort_tidy hremoves hcommitted hunowned hbut, .refused rfl (abort_plain hremoves hplain)
          (abort_scanState.trans hscan) (hopened.trans (abort_unowned streamed hcommitted hunowned))⟩
      · rw [if_neg hstreamed] at houtcome
        cases hcommit : commit calls state.upload opened with
        | mk error committed =>
          rw [hcommit] at houtcome
          dsimp only at houtcome
          obtain ⟨hleft, htidied, hsameScan, herrorPlain⟩ :=
            commit_leaves hremoves hcommitted hunowned hbut hcommit
          rw [hid] at hstateId hfull
          have hfinal : state.upload.finalPath = formatFilename store.scanState.nextId := by
            rw [BlobUpload.finalPath, hstateId]
          have hadds : Activated state.upload opened committed.store committed.made → Adds store committed.store := by
            intro hactivated name hne hname
            rw [hactivated.others name (hfinal ▸ hne) hname]
            exact hopened name hname
          rcases commit_cases hcommitted hunowned hcommit with
            ⟨hsuccess, hactivated, -, -, summary, hsummary⟩ | ⟨huncertain, hactivated, howned⟩ |
            ⟨herror, hsame, hnot, hnotOwned⟩
          · rw [hsuccess, if_neg (by decide)] at houtcome
            rw [← houtcome]
            refine ⟨htidied ?_, .created rfl hfull (hadds hactivated) ?_⟩
            · by_contra hnotOwned
              exact (herrorPlain (Bool.eq_false_of_not_eq_true hnotOwned)).2 hsuccess
            · dsimp only
              rw [hsummary, hstateId, recordCommittedEntry, if_neg (not_or.mpr ⟨hid ▸ hzero, hfull⟩)]
          · rw [huncertain, if_pos (by decide), abort_owned howned] at houtcome
            rw [← houtcome]
            have hscanned := (hsameScan (by rw [huncertain]; decide)).trans hscan
            refine ⟨htidied howned, .uncertain rfl hfull hscanned (hadds hactivated) ?_⟩
            dsimp only
            rw [← hfinal, hactivated.blob]
            rfl
          · rw [if_pos herror] at houtcome
            rw [← houtcome]
            exact ⟨abort_tidy hremoves hnot hnotOwned hleft, .refused rfl
              (abort_plain hremoves (herrorPlain hnotOwned).1) (abort_scanState.trans ((hsameScan herror).trans hscan))
              (hopened.trans (hsame.trans (abort_unowned error hnot hnotOwned)))⟩

end Upload

end MacroKeyboard.Blobs.Requests
