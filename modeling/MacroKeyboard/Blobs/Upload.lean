import MacroKeyboard.Blobs.Download

namespace MacroKeyboard.Blobs.Transfer

open Loops.Rounds

def SameBlobs (before after : Directory) : Prop :=
  ∀ name, (parseFilename name).isSome = true → after.lookup name = before.lookup name

theorem SameBlobs.refl (directory : Directory) : SameBlobs directory directory := fun _ _ => rfl

theorem SameBlobs.trans {a b c : Directory} (hab : SameBlobs a b) (hbc : SameBlobs b c) : SameBlobs a c :=
  fun name hname => (hbc name hname).trans (hab name hname)

theorem name_ne_temporary {name : Name} (hname : (parseFilename name).isSome = true) (blobId : Nat) :
    name ≠ formatTemporaryFilename blobId := by
  intro h
  rw [h, parseFilename_temporary] at hname
  cases hname

theorem sameBlobs_insert (blobId : Nat) (node : Node) (directory : Directory) :
    SameBlobs directory (directory.insert (formatTemporaryFilename blobId) node) :=
  fun _ hname => AList.lookup_insert_ne (name_ne_temporary hname blobId)

theorem sameBlobs_erase (blobId : Nat) (directory : Directory) :
    SameBlobs directory (directory.erase (formatTemporaryFilename blobId)) :=
  fun _ hname => AList.lookup_erase_ne (name_ne_temporary hname blobId)

theorem sameBlobs_unlink (fault : Option Errno) (blobId : Nat) (directory : Directory) :
    SameBlobs directory (unlinkIfPresent fault (formatTemporaryFilename blobId) directory).2 := by
  unfold unlinkIfPresent
  split
  · exact SameBlobs.refl _
  · exact SameBlobs.refl _
  · exact SameBlobs.refl _
  · exact sameBlobs_erase blobId directory

theorem mapIoError_ne_none (fault : Errno) : mapIoError fault ≠ .none := by
  cases fault <;> decide

section Receive

variable {contentLength : Nat} {start : BlobUpload}

/-- What is true of a body that is being received. -/
structure Streaming (start : BlobUpload) (contentLength : Nat) (state : Receiving) : Prop where
  upload : state.upload =
    { start with storedBytes := state.received, stream := receivedBytes state.transcript }
  length : (receivedBytes state.transcript).length = state.received
  bounded : state.received ≤ contentLength
  works : Works state.transcript
  timeouts : state.timeouts ≤ timeoutRetriesMax

structure Begun (start : BlobUpload) (contentLength : Nat) : Prop where
  expected : start.expectedBytes = contentLength
  active : start.active = true
  uncommitted : start.committed = false
  unowned : start.finalPathOwned = false

theorem write_of_fits (call : ReceiveCall) {upload : BlobUpload} {data : List UInt8} (hdata : data.length ≠ 0)
    (hactive : upload.active = true) (hcommitted : upload.committed = false)
    (hfits : upload.storedBytes + data.length ≤ upload.expectedBytes) :
    write call upload data =
      if (data.take call.taken).length ≠ data.length then
        (mapIoError (call.fault.getD .other), { upload with stream := upload.stream ++ data.take call.taken }, [.write false])
      else
        (.none, { upload with stream := upload.stream ++ data, storedBytes := upload.storedBytes + data.length }, [.write true]) := by
  rw [write, if_neg]
  · by_cases hshort : (data.take call.taken).length ≠ data.length
    · simp only [if_pos hshort]
    · simp only [if_neg hshort]
      rw [not_not, List.length_take, min_eq_right_iff] at hshort
      rw [List.take_of_length_le hshort]
  · rw [hactive, hcommitted]
    rintro (hzero | hinactive | hdone | hmore | hlong)
    · exact hdata hzero
    · exact hinactive rfl
    · cases hdone
    · omega
    · omega

theorem receiveRound_holds (hbegun : Begun start contentLength) (call : ReceiveCall) (state : Receiving)
    (h : Streaming start contentLength state) :
    (receiveRound contentLength call state).Holds (Streaming start contentLength)
      (fun result => (result.2.upload.id = start.id ∧ result.2.upload.committed = false ∧
          result.2.upload.finalPathOwned = false) ∧
        (result.1 = .none → Streaming start contentLength result.2 ∧ result.2.received = contentLength)) := by
  have hid : state.upload.id = start.id ∧ state.upload.committed = false ∧ state.upload.finalPathOwned = false := by
    rw [h.upload]
    exact ⟨rfl, hbegun.uncommitted, hbegun.unowned⟩
  unfold receiveRound
  by_cases hmore : state.received < contentLength
  · simp only [if_pos hmore]
    cases hreceived : call.received with
    | timeout =>
      dsimp only
      by_cases hlimit : state.timeouts + 1 > timeoutRetriesMax
      · rw [if_pos hlimit]
        exact ⟨hid, nofun⟩
      · rw [if_neg hlimit]
        have hbytes : receivedBytes (state.transcript ++ [.receive .timeout]) = receivedBytes state.transcript := by
          rw [receivedBytes_append]
          exact List.append_nil _
        refine ⟨?_, ?_, h.bounded, works_append.mpr ⟨h.works, works_singleton.mpr rfl⟩, Nat.le_of_not_gt hlimit⟩
        · rw [hbytes]
          exact h.upload
        · rw [hbytes]
          exact h.length
    | failed => exact ⟨hid, nofun⟩
    | chunk data =>
      dsimp only
      by_cases hrefused : data.length = 0 ∨ data.length > min (contentLength - state.received) uploadChunkBytes
      · rw [if_pos hrefused]
        exact ⟨hid, nofun⟩
      · rw [if_neg hrefused]
        push Not at hrefused
        have hupload : state.upload.active = true ∧ state.upload.storedBytes = state.received ∧
            state.upload.expectedBytes = contentLength := by
          rw [h.upload]
          exact ⟨hbegun.active, rfl, hbegun.expected⟩
        rw [write_of_fits call hrefused.1 hupload.1 hid.2.1 (by rw [hupload.2.1, hupload.2.2]; omega)]
        by_cases hshort : (data.take call.taken).length ≠ data.length
        · simp only [if_pos hshort]
          rw [if_pos (mapIoError_ne_none _)]
          exact ⟨hid, fun hnone => absurd hnone (mapIoError_ne_none _)⟩
        · simp only [if_neg hshort]
          have hbytes : receivedBytes (state.transcript ++ [.receive (.chunk data)] ++ [.write true]) =
              receivedBytes state.transcript ++ data := by
            rw [receivedBytes_append, receivedBytes_append]
            simp [receivedBytes]
          refine ⟨?_, ?_, ?_, ?_, Nat.zero_le _⟩
          · dsimp only
            rw [hbytes, h.upload]
          · dsimp only
            rw [hbytes, List.length_append, h.length]
          · dsimp only
            omega
          · refine works_append.mpr ⟨works_append.mpr ⟨h.works, works_singleton.mpr ?_⟩, works_singleton.mpr rfl⟩
            have hnonempty : data ≠ [] := by
              intro hnil
              exact hrefused.1 (congrArg List.length hnil)
            simpa [TransferCall.failed] using hnonempty
  · simp only [if_neg hmore]
    refine ⟨hid, fun _ => ⟨h, ?_⟩⟩
    have hbounded := h.bounded
    dsimp only
    omega

theorem receiveRound_progress (hbegun : Begun start contentLength) (call : ReceiveCall) (state next : Receiving)
    (h : Streaming start contentLength state) (hround : receiveRound contentLength call state = .next next) :
    Streaming start contentLength next ∧
      5 * (contentLength - next.received) + (timeoutRetriesMax - next.timeouts) <
        5 * (contentLength - state.received) + (timeoutRetriesMax - state.timeouts) := by
  have hnext := receiveRound_holds hbegun call state h
  rw [hround] at hnext
  refine ⟨hnext, ?_⟩
  have hlimit : timeoutRetriesMax = 4 := rfl
  unfold receiveRound at hround
  by_cases hmore : state.received < contentLength
  · simp only [if_pos hmore] at hround
    cases hreceived : call.received with
    | timeout =>
      rw [hreceived] at hround
      dsimp only at hround
      split at hround
      · cases hround
      · cases hround
        dsimp only
        omega
    | failed =>
      rw [hreceived] at hround
      cases hround
    | chunk data =>
      rw [hreceived] at hround
      dsimp only at hround
      split at hround
      · cases hround
      · split at hround
        · cases hround
        · cases hround
          dsimp only
          omega
  · rw [if_neg hmore] at hround
    cases hround

end Receive

section Commit

variable {calls : UploadCalls}

theorem closeStaged_spec (calls : UploadCalls) (upload : BlobUpload) (directory : Directory) :
    ∃ staged after made, closeStaged calls upload directory = (staged, { upload with active := false }, after, made) ∧
      SameBlobs directory after ∧
      (staged = .none → after.lookup upload.temporaryPath = some (.file upload.stream) ∧ Works made ∧
        receivedBytes made = []) := by
  refine ⟨_, _, _, rfl, ?_, ?_⟩
  · split
    · exact sameBlobs_insert upload.id _ directory
    · exact SameBlobs.refl _
  · intro hnone
    have hworks : calls.flush = none ∧ calls.sync = none ∧ calls.close = none := by
      cases hflush : calls.flush with
      | some fault =>
        simp only [hflush] at hnone
        exact absurd hnone (mapIoError_ne_none fault)
      | none =>
        cases hsync : calls.sync with
        | some fault =>
          simp only [hflush, hsync] at hnone
          exact absurd hnone (mapIoError_ne_none fault)
        | none =>
          cases hclose : calls.close with
          | some fault =>
            simp only [hflush, hsync, hclose] at hnone
            exact absurd hnone (mapIoError_ne_none fault)
          | none => exact ⟨rfl, rfl, rfl⟩
    rw [hworks.1, hworks.2.1, hworks.2.2]
    refine ⟨AList.lookup_insert _, ?_, rfl⟩
    intro call hcall
    have hcalls : call = .flush true ∨ call = .sync true ∨ call = .close true := by simpa using hcall
    rcases hcalls with rfl | rfl | rfl <;> rfl

/-- The blob of this upload is in the store, and nothing failed on the way. -/
structure Activated (upload : BlobUpload) (before store : BlobStore) (made : Transcript) : Prop where
  blob : store.directory.lookup upload.finalPath = some (.file upload.stream)
  others : ∀ name, name ≠ upload.finalPath → (parseFilename name).isSome = true →
    store.directory.lookup name = before.directory.lookup name
  counter : store.persistedNextId = some (upload.id + 1)
  works : Works made
  received : receivedBytes made = []

/-- What is true of a commit of an upload with this stream: its blob is activated exactly
when its name is owned. -/
structure Committed (upload : BlobUpload) (before : BlobStore) (commit : Commit) : Prop where
  id : commit.upload.id = upload.id
  owned : commit.upload.finalPathOwned = true → Activated upload before commit.store commit.made ∧
    (commit.upload.committed = true ∧ commit.result.error = .none ∨
      commit.upload.committed = false ∧ commit.result.commitState = .commitUncertain)
  unowned : commit.upload.finalPathOwned = false →
    SameBlobs before.directory commit.store.directory ∧ commit.upload.committed = false ∧
      commit.result.commitState = .notCommitted ∧ commit.result.error ≠ .none
  storedBytes : commit.upload.storedBytes = upload.storedBytes

theorem error_recordCleanup {error : AppError} (cleanup : AppError) (state : CommitState) (h : error ≠ .none) :
    ((primaryError error state).recordCleanup cleanup).error ≠ .none := by
  have hprimary : ((primaryError error state).recordCleanup cleanup).primaryError = error := by
    rw [Files.recordCleanup_primaryError]
    exact Files.recordPrimary_primaryError error
  rw [OperationResult.error, hprimary, if_pos h]
  exact h

theorem cleanupFailed_spec {upload staged : BlobUpload} {before store : BlobStore} {made : Transcript} {primary : AppError}
    (hstaged : staged = { upload with active := false }) (hcommitted : upload.committed = false)
    (hunowned : upload.finalPathOwned = false) (hsame : SameBlobs before.directory store.directory) (hprimary : primary ≠ .none) :
    Committed upload before (cleanupFailed calls staged store made primary) := by
  subst hstaged
  refine ⟨rfl, ?_, ?_, rfl⟩
  · intro howned
    have hfalse : upload.finalPathOwned = true := howned
    rw [hunowned] at hfalse
    cases hfalse
  · intro _
    refine ⟨hsame.trans (sameBlobs_unlink calls.cleanup upload.id store.directory), hcommitted, ?_,
      error_recordCleanup _ _ hprimary⟩
    rw [cleanupFailed]
    unfold OperationResult.recordCleanup
    split <;> rfl

theorem persist_spec (calls : FileCalls) (nextId : Nat) (store : BlobStore) :
    (persist calls nextId store).2.directory = store.directory ∧
      ((persist calls nextId store).1 = .none → (persist calls nextId store).2.persistedNextId = some nextId) := by
  unfold persist
  by_cases hopen : ¬ calls.counterOpen = true
  · rw [if_pos hopen]
    exact ⟨rfl, nofun⟩
  · rw [if_neg hopen]
    cases calls.counterFault with
    | none => exact ⟨rfl, fun _ => rfl⟩
    | some fault =>
      refine ⟨?_, ?_⟩
      · dsimp only
        split <;> rfl
      · intro hnone
        dsimp only at hnone
        split at hnone <;> cases hnone

theorem activate_spec {upload : BlobUpload} {before store : BlobStore} {made : Transcript}
    (hcommitted : upload.committed = false) (hunowned : upload.finalPathOwned = false)
    (hsame : SameBlobs before.directory store.directory)
    (hstaged : store.directory.lookup upload.temporaryPath = some (.file upload.stream)) (hmade : Works made)
    (hreceived : receivedBytes made = []) :
    Committed upload before (activate calls { upload with active := false } store made) := by
  unfold activate
  dsimp only
  by_cases hfinal : pathAbsent calls.statStaged upload.finalPath store.directory ≠ .none
  · rw [if_pos (show pathAbsent calls.statStaged (BlobUpload.finalPath { upload with active := false }) store.directory ≠ .none
      from hfinal)]
    exact cleanupFailed_spec rfl hcommitted hunowned hsame hfinal
  · rw [if_neg (show ¬ pathAbsent calls.statStaged (BlobUpload.finalPath { upload with active := false }) store.directory ≠ .none
      from hfinal)]
    obtain ⟨hdirectory, hcounter⟩ := persist_spec calls.counter (upload.id + 1) store
    by_cases hpersisted : (persist calls.counter (upload.id + 1) store).1 ≠ .none
    · rw [if_pos hpersisted]
      exact cleanupFailed_spec rfl hcommitted hunowned (by rw [hdirectory]; exact hsame) hpersisted
    · rw [if_neg hpersisted]
      rw [not_not] at hpersisted
      rw [hdirectory]
      cases hrename : calls.rename with
      | some fault =>
        simp only [rename]
        exact cleanupFailed_spec rfl hcommitted hunowned (by rw [hdirectory]; exact hsame) (mapIoError_ne_none fault)
      | none =>
        have hlookup : store.directory.lookup (BlobUpload.temporaryPath { upload with active := false }) =
          some (.file upload.stream) := hstaged
        simp only [rename, hlookup]
        have howned : ((store.directory.erase upload.temporaryPath).insert upload.finalPath (.file upload.stream)).lookup
            upload.finalPath = some (.file upload.stream) := AList.lookup_insert _
        have hothers : ∀ name, name ≠ upload.finalPath → (parseFilename name).isSome = true →
            ((store.directory.erase upload.temporaryPath).insert upload.finalPath (.file upload.stream)).lookup name =
              before.directory.lookup name := by
          intro name hne hname
          have htemporary : name ≠ upload.temporaryPath := name_ne_temporary hname upload.id
          rw [AList.lookup_insert_ne hne, AList.lookup_erase_ne htemporary]
          exact hsame name hname
        cases hsynced : calls.syncParent with
        | some fault =>
          refine ⟨rfl, fun _ => ⟨⟨howned, hothers, hcounter hpersisted, hmade, hreceived⟩, ?_⟩, nofun, rfl⟩
          exact Or.inr ⟨hcommitted, rfl⟩
        | none =>
          refine ⟨rfl, fun _ => ⟨⟨howned, hothers, hcounter hpersisted, hmade, hreceived⟩, ?_⟩, nofun, rfl⟩
          exact Or.inl ⟨rfl, rfl⟩

theorem commitWithOps_spec {upload : BlobUpload} {store : BlobStore} (hcommitted : upload.committed = false)
    (hunowned : upload.finalPathOwned = false) : Committed upload store (commitWithOps calls upload store) := by
  have hrefused : ∀ error ≠ AppError.none, Committed upload store ⟨primaryError error .notCommitted, upload, store, []⟩ := by
    intro error herror
    refine ⟨rfl, ?_, fun _ => ⟨SameBlobs.refl _, hcommitted, rfl, ?_⟩, rfl⟩
    · intro howned
      rw [hunowned] at howned
      cases howned
    · exact error_recordCleanup .none .notCommitted herror
  unfold commitWithOps
  by_cases hinvalid : ¬ upload.active = true ∨ upload.committed = true ∨ upload.storedBytes ≠ upload.expectedBytes
  · rw [if_pos hinvalid]
    exact hrefused .invalidArgument (by decide)
  · rw [if_neg hinvalid]
    by_cases hfull : upload.id = uint64Max
    · rw [if_pos hfull]
      exact hrefused .storageFull (by decide)
    · rw [if_neg hfull]
      obtain ⟨staged, directory, made, hclosed, hsame, hnone⟩ := closeStaged_spec calls upload store.directory
      rw [hclosed]
      dsimp only
      by_cases hstaged : staged ≠ .none
      · rw [if_pos hstaged]
        exact cleanupFailed_spec rfl hcommitted hunowned hsame hstaged
      · rw [if_neg hstaged]
        obtain ⟨hlookup, hmade, hreceived⟩ := hnone (not_not.mp hstaged)
        exact activate_spec hcommitted hunowned hsame hlookup hmade hreceived

/-- The three ways a commit ends. -/
theorem commit_cases {upload : BlobUpload} {store : BlobStore} (hcommitted : upload.committed = false)
    (hunowned : upload.finalPathOwned = false) {error : AppError} {committed : Commit}
    (h : commit calls upload store = (error, committed)) :
    (error = .none ∧ Activated upload store committed.store committed.made ∧ committed.upload.id = upload.id ∧
      committed.upload.storedBytes = upload.storedBytes ∧
      ∃ summary, committed.store.scanState = recordCommittedEntry upload.id summary) ∨
    (error = .commitUncertain ∧ Activated upload store committed.store committed.made ∧
      committed.upload.finalPathOwned = true) ∨
    (error ≠ .none ∧ SameBlobs store.directory committed.store.directory ∧ committed.upload.committed = false ∧
      committed.upload.finalPathOwned = false) := by
  have hspec : Committed upload store (commitWithOps calls upload store) := commitWithOps_spec hcommitted hunowned
  unfold commit at h
  generalize commitWithOps calls upload store = inner at hspec h
  dsimp only at h
  by_cases hdone : inner.upload.committed = true
  · rw [if_pos hdone] at h
    have hpair := Prod.mk.inj h
    cases howned : inner.upload.finalPathOwned with
    | false =>
      have hfalse := (hspec.unowned howned).2.1
      rw [hdone] at hfalse
      cases hfalse
    | true =>
      obtain ⟨hactivated, hstate⟩ := hspec.owned howned
      left
      rw [← hpair.1, ← hpair.2]
      refine ⟨?_, ⟨hactivated.blob, hactivated.others, hactivated.counter, hactivated.works, hactivated.received⟩, hspec.id,
        hspec.storedBytes, inner.store.scanState, by rw [← hspec.id]⟩
      rcases hstate with ⟨-, herror⟩ | ⟨hfalse, -⟩
      · exact herror
      · rw [hdone] at hfalse
        cases hfalse
  · rw [if_neg hdone] at h
    right
    cases howned : inner.upload.finalPathOwned with
    | true =>
      obtain ⟨hactivated, hstate⟩ := hspec.owned howned
      rcases hstate with ⟨htrue, -⟩ | ⟨-, huncertain⟩
      · exact absurd htrue hdone
      · rw [if_pos huncertain] at h
        have hpair := Prod.mk.inj h
        rw [← hpair.1, ← hpair.2]
        exact Or.inl ⟨rfl, hactivated, howned⟩
    | false =>
      obtain ⟨hsame, hnot, hstate, herror⟩ := hspec.unowned howned
      rw [if_neg (by rw [hstate]; decide)] at h
      have hpair := Prod.mk.inj h
      rw [← hpair.1, ← hpair.2]
      exact Or.inr ⟨herror, hsame, hnot, howned⟩

theorem abort_unowned {upload : BlobUpload} {store : BlobStore} (primary : AppError) (hcommitted : upload.committed = false)
    (hunowned : upload.finalPathOwned = false) :
    SameBlobs store.directory (abort calls upload store primary).2.1.directory := by
  rw [abort, if_neg (by rw [hcommitted, hunowned]; decide)]
  exact sameBlobs_unlink calls.abortUnlink upload.id store.directory

theorem abort_owned {upload : BlobUpload} {store : BlobStore} {primary : AppError} (howned : upload.finalPathOwned = true) :
    abort calls upload store primary = (primary, store, []) := by
  rw [abort, if_pos (Or.inr howned)]

end Commit

section Handler

variable {calls : UploadCalls} {fuel contentLength : Nat} {store : BlobStore} {outcome : UploadOutcome}

theorem begin_ok {upload : BlobUpload} {opened : BlobStore} (h : begin calls contentLength store = (.ok upload, opened)) :
    Begun upload contentLength ∧ upload.id = store.scanState.nextId ∧ upload.id ≠ 0 ∧ upload.id ≠ uint64Max ∧
      upload.storedBytes = 0 ∧ upload.stream = [] ∧ SameBlobs store.directory opened.directory := by
  unfold begin at h
  dsimp only at h
  split at h
  · cases h
  next hvalid =>
    push Not at hvalid
    split at h
    · cases h
    next hfull =>
      split at h
      · cases h
      split at h
      · cases h
      split at h
      · cases h
      · cases h
      · have hpair := Prod.mk.inj h
        rw [← Except.ok.inj hpair.1, ← hpair.2]
        exact ⟨⟨rfl, rfl, rfl, rfl⟩, rfl, hvalid.1, hfull, rfl, rfl, sameBlobs_insert _ _ _⟩

theorem streaming_start {upload : BlobUpload} (contentLength : Nat) (hstored : upload.storedBytes = 0)
    (hstream : upload.stream = []) : Streaming upload contentLength ⟨upload, 0, 0, []⟩ := by
  refine ⟨?_, rfl, Nat.zero_le _, fun call hcall => absurd hcall List.not_mem_nil, Nat.zero_le _⟩
  cases upload
  cases hstored
  cases hstream
  rfl

theorem begin_error {error : AppError} {after : BlobStore} (h : begin calls contentLength store = (.error error, after)) :
    after = store := by
  unfold begin at h
  dsimp only at h
  repeat' split at h
  all_goals first | exact (Prod.mk.inj h).2.symm | cases h

/-- A blob with this identifier and content is in the store, and the next identifiers
are greater. -/
structure Stored (blobId : Nat) (content : List UInt8) (store : BlobStore) : Prop where
  positive : 0 < blobId
  blob : store.directory.lookup (formatFilename blobId) = some (.file content)
  next : store.scanState.nextId = 0 ∨ (blobId < store.scanState.nextId ∧ store.scanState.nextId ≤ uint64Max)
  persisted : ∃ nextId, store.persistedNextId = some nextId ∧ blobId < nextId ∧ nextId ≤ uint64Max

structure Uploaded (contentLength : Nat) (before : BlobStore) (outcome : UploadOutcome) : Prop where
  created : ∀ entry, outcome.answer = .ok entry →
    entry.storedBytes = contentLength ∧ (receivedBytes outcome.transcript).length = contentLength ∧
      Stored entry.id (receivedBytes outcome.transcript) outcome.store
  /-- Whatever the upload answers, a blob that it stores is all that was received. -/
  whole : SameBlobs before.directory outcome.store.directory ∨
    (outcome.store.directory.lookup (formatFilename before.scanState.nextId) = some (.file (receivedBytes outcome.transcript)) ∧
      (receivedBytes outcome.transcript).length = contentLength)
  failed : (∃ call ∈ outcome.transcript, call.failed = true) →
    SameBlobs before.directory outcome.store.directory ∧ ∃ error, outcome.answer = .error error

theorem Uploaded.of_error {before : BlobStore} {error : AppError} {after : BlobStore} {transcript : Transcript}
    (h : SameBlobs before.directory after.directory) : Uploaded contentLength before ⟨.error error, after, transcript⟩ :=
  ⟨nofun, Or.inl h, fun _ => ⟨h, error, rfl⟩⟩

theorem upload_spec (hnext : store.scanState.nextId ≤ uint64Max)
    (h : blobCreateHandler calls fuel contentLength store = some outcome) :
    Uploaded contentLength store outcome := by
  unfold blobCreateHandler at h
  split at h
  · cases h
    exact Uploaded.of_error (SameBlobs.refl _)
  cases hbegin : begin calls contentLength store with
  | mk started opened =>
    rw [hbegin] at h
    cases started with
    | error error =>
      cases h
      rw [begin_error hbegin]
      exact Uploaded.of_error (SameBlobs.refl _)
    | ok upload =>
      obtain ⟨hbegun, hid, hzero, hfull, hstored, hstream, hopened⟩ := begin_ok hbegin
      obtain ⟨⟨streamed, state⟩, hrounds, houtcome⟩ := Option.map_eq_some_iff.mp h
      have hstart := streaming_start contentLength hstored hstream
      obtain ⟨⟨hstateId, hcommitted, hunowned⟩, hnone⟩ := rounds_post (receiveRound_holds hbegun) hstart hrounds
      dsimp only at houtcome
      by_cases hstreamed : streamed ≠ .none
      · rw [if_pos hstreamed] at houtcome
        rw [← houtcome]
        exact Uploaded.of_error (hopened.trans (abort_unowned streamed hcommitted hunowned))
      · rw [if_neg hstreamed] at houtcome
        obtain ⟨hstreaming, hreceived⟩ := hnone (not_not.mp hstreamed)
        have hbytes : state.upload.stream = receivedBytes state.transcript ∧ state.upload.storedBytes = contentLength := by
          rw [hstreaming.upload]
          exact ⟨rfl, hreceived⟩
        have hlength : (receivedBytes state.transcript).length = contentLength := hstreaming.length.trans hreceived
        cases hcommit : commit calls state.upload opened with
        | mk error committed =>
          rw [hcommit] at houtcome
          dsimp only at houtcome
          rcases commit_cases hcommitted hunowned hcommit with
            ⟨hsuccess, hactivated, hcommittedId, hcommittedBytes, summary, hsummary⟩ | ⟨huncertain, hactivated, howned⟩ |
            ⟨herror, hsame, hnot, hnotOwned⟩
          · rw [hsuccess, if_neg (by decide)] at houtcome
            rw [← houtcome]
            have hall : receivedBytes (state.transcript ++ committed.made) = receivedBytes state.transcript := by
              rw [receivedBytes_append, hactivated.received, List.append_nil]
            have hblob : committed.store.directory.lookup (formatFilename upload.id) =
                some (.file (receivedBytes state.transcript)) := by
              rw [← hstateId, ← hbytes.1]
              exact hactivated.blob
            refine ⟨?_, Or.inr ⟨?_, ?_⟩, ?_⟩
            · intro entry hentry
              cases hentry
              dsimp only
              rw [hall, hcommittedId, hstateId]
              have hroom : upload.id + 1 ≤ uint64Max := by omega
              refine ⟨hcommittedBytes.trans hbytes.2, hlength, Nat.pos_of_ne_zero hzero, hblob, ?_, ?_⟩
              · right
                rw [hsummary, hstateId, recordCommittedEntry, if_neg (not_or.mpr ⟨hzero, hfull⟩)]
                exact ⟨Nat.lt_succ_self _, hroom⟩
              · refine ⟨upload.id + 1, ?_, Nat.lt_succ_self _, hroom⟩
                rw [← hstateId]
                exact hactivated.counter
            · dsimp only
              rw [hall, ← hid]
              exact hblob
            · dsimp only
              rw [hall]
              exact hlength
            · intro hfailed
              exact absurd (works_append.mpr ⟨hstreaming.works, hactivated.works⟩) (not_works_iff.mpr hfailed)
          · rw [huncertain, if_pos (by decide), abort_owned howned] at houtcome
            rw [← houtcome]
            have hall : receivedBytes (state.transcript ++ committed.made ++ []) = receivedBytes state.transcript := by
              rw [List.append_nil, receivedBytes_append, hactivated.received, List.append_nil]
            refine ⟨nofun, Or.inr ⟨?_, ?_⟩, ?_⟩
            · dsimp only
              rw [hall, ← hid, ← hstateId, ← hbytes.1]
              exact hactivated.blob
            · dsimp only
              rw [hall]
              exact hlength
            · intro hfailed
              dsimp only at hfailed
              rw [List.append_nil] at hfailed
              exact absurd (works_append.mpr ⟨hstreaming.works, hactivated.works⟩) (not_works_iff.mpr hfailed)
          · rw [if_pos herror] at houtcome
            rw [← houtcome]
            exact Uploaded.of_error (hopened.trans (hsame.trans (abort_unowned error hnot hnotOwned)))

theorem upload_returns (calls : UploadCalls) (contentLength : Nat) (store : BlobStore) :
    ∃ fuel, (blobCreateHandler calls fuel contentLength store).isSome := by
  unfold blobCreateHandler
  by_cases hrefused : contentLength = 0 ∨ contentLength > Limits.blobMaxBytes
  · exact ⟨0, by rw [if_pos hrefused]; rfl⟩
  · simp only [if_neg hrefused]
    cases hbegin : begin calls contentLength store with
    | mk started opened =>
      cases started with
      | error error => exact ⟨0, rfl⟩
      | ok upload =>
        obtain ⟨hbegun, -, -, -, hstored, hstream, -⟩ := begin_ok hbegin
        have hstart := streaming_start contentLength hstored hstream
        obtain ⟨result, hresult⟩ := rounds_within (n := 0) calls.receive
          (fun state : Receiving => 5 * (contentLength - state.received) + (timeoutRetriesMax - state.timeouts))
          (fun call state next h hround => receiveRound_progress hbegun call state next h hround) hstart
        refine ⟨5 * contentLength + timeoutRetriesMax + 1, ?_⟩
        dsimp only
        rw [Option.isSome_map]
        exact Option.isSome_of_eq_some hresult

end Handler

end MacroKeyboard.Blobs.Transfer
