import MacroKeyboard.Blobs.Requests
import MacroKeyboard.Threads.Alone

namespace MacroKeyboard.Blobs.UploadRuns

open Threads.Program Threads.Alone Loops.Rounds Transfer

/-- Calls of which the one that is made fails so, or works. -/
def faulty (fault : Option Errno) : FileCalls :=
  ⟨fault, 0, true, true, fun _ => true, true, fun _ => true, true, true, none, false⟩

theorem runs_requirePathAbsent (fault : Option Errno) (name : Name) (store : BlobStore) :
    Runs (requirePathAbsent name) store (pathAbsent fault name store.directory) store := by
  refine Runs.bind (.act (faulty fault) (.ret _ _)) ?_
  unfold pathAbsent
  dsimp only [faulty]
  cases fault with
  | none => cases store.directory.lookup name <;> exact .ret _ _
  | some fault => cases fault <;> exact .ret _ _

theorem runs_unlinkPathIfPresent (fault : Option Errno) (name : Name) (store : BlobStore) :
    Runs (unlinkPathIfPresent name) store (unlinkIfPresent fault name store.directory).1
      { store with directory := (unlinkIfPresent fault name store.directory).2 } := by
  refine Runs.bind (.act (faulty fault) (.ret _ _)) ?_
  unfold unlinkIfPresent
  dsimp only [faulty]
  cases fault with
  | none => cases store.directory.lookup name <;> exact .ret _ _
  | some fault => cases fault <;> exact .ret _ _

theorem runs_begin (calls : UploadCalls) (expectedBytes : Nat) (store : BlobStore) :
    Runs (uploadBegin expectedBytes) store (Transfer.begin calls expectedBytes store).1
      (Transfer.begin calls expectedBytes store).2 := by
  refine (runs_read (fun store : BlobStore => store.scanState.nextId) (faulty none) store).bind ?_
  unfold uploadBeginWithId Transfer.begin
  dsimp only
  by_cases harguments : store.scanState.nextId = 0 ∨ expectedBytes = 0 ∨ expectedBytes > Limits.blobMaxBytes
  · rw [if_pos harguments, if_pos harguments]
    exact .ret _ _
  rw [if_neg harguments, if_neg harguments]
  by_cases hfull : store.scanState.nextId = uint64Max
  · rw [if_pos hfull, if_pos hfull]
    exact .ret _ _
  rw [if_neg hfull, if_neg hfull]
  generalize hupload : (⟨store.scanState.nextId, expectedBytes, 0, [], true, false, false⟩ : BlobUpload) = upload
  refine (runs_requirePathAbsent calls.statFinal upload.finalPath store).bind ?_
  by_cases hfinal : pathAbsent calls.statFinal upload.finalPath store.directory ≠ .none
  · rw [if_pos hfinal, if_pos hfinal]
    exact .ret _ _
  rw [if_neg hfinal, if_neg hfinal]
  refine (runs_requirePathAbsent calls.statTemporary upload.temporaryPath store).bind ?_
  by_cases htemporary : pathAbsent calls.statTemporary upload.temporaryPath store.directory ≠ .none
  · rw [if_pos htemporary, if_pos htemporary]
    exact .ret _ _
  rw [if_neg htemporary, if_neg htemporary]
  refine Runs.bind (.act (faulty calls.openTemporary) (.ret _ _)) ?_
  dsimp only [faulty]
  cases calls.openTemporary with
  | some fault => exact .ret _ _
  | none => cases store.directory.lookup upload.temporaryPath <;> exact .ret _ _

theorem runs_write (call : ReceiveCall) (upload : BlobUpload) (data : List UInt8) (store : BlobStore) :
    Runs (uploadWrite upload data) store
      ((Transfer.write call upload data).1, (Transfer.write call upload data).2.1) store := by
  unfold uploadWrite Transfer.write
  by_cases harguments : data.length = 0 ∨ ¬ upload.active ∨ upload.committed ∨
      upload.storedBytes > upload.expectedBytes ∨ data.length > upload.expectedBytes - upload.storedBytes
  · rw [if_pos harguments, if_pos harguments]
    exact .ret _ _
  rw [if_neg harguments, if_neg harguments]
  refine (runs_ask (fun calls : FileCalls => data.take calls.written)
    { faulty none with written := call.taken } store).bind ?_
  dsimp only
  by_cases hshort : (data.take call.taken).length ≠ data.length
  · rw [if_pos hshort, if_pos hshort]
    exact (runs_ask (fun calls : FileCalls => calls.fault) (faulty call.fault) store).bind (.ret _ _)
  · rw [if_neg hshort, if_neg hshort]
    exact .ret _ _

theorem runs_callStream (fault : Option Errno) (store : BlobStore) : Runs callStream store fault store :=
  runs_ask (fun calls : FileCalls => calls.fault) (faulty fault) store

theorem runs_closeStaged (calls : UploadCalls) (upload : BlobUpload) (store : BlobStore) :
    Runs (closeStagedStream upload) store
      ((closeStaged calls upload store.directory).1, (closeStaged calls upload store.directory).2.1)
      { store with directory := (closeStaged calls upload store.directory).2.2.1 } := by
  refine (runs_callStream calls.flush store).bind ?_
  unfold closeStaged
  dsimp only
  cases hflush : calls.flush with
  | some fault =>
    refine Runs.bind (.ret _ _) ((runs_callStream calls.close _).bind ?_)
    exact .ret _ _
  | none =>
    refine Runs.bind (.act (faulty calls.sync) (.ret _ _)) ?_
    dsimp only [faulty]
    cases hsync : calls.sync with
    | some fault => exact (runs_callStream calls.close _).bind (.ret _ _)
    | none => exact (runs_callStream calls.close _).bind (.ret _ _)

theorem runs_persist (calls : FileCalls) (nextId : Nat) (store : BlobStore) :
    Runs (persistNextId nextId) store (persist calls nextId store).1 (persist calls nextId store).2 :=
  .act calls (.ret _ _)

theorem runs_rename (fault : Option Errno) (source destination : Name) (store : BlobStore) :
    Runs (renamePath source destination) store (rename fault source destination store.directory).1
      { store with directory := (rename fault source destination store.directory).2 } := by
  refine .act (faulty fault) ?_
  unfold rename
  dsimp only [faulty]
  cases fault with
  | some fault => exact .ret _ _
  | none => cases store.directory.lookup source <;> exact .ret _ _

theorem rename_kept (fault : Option Errno) (source destination : Name) (directory : Directory) (error : Errno)
    (h : (rename fault source destination directory).1 = some error) :
    (rename fault source destination directory).2 = directory := by
  unfold rename at h ⊢
  split at h
  · rfl
  · rfl
  · cases h

theorem runs_cleanupFailed (calls : UploadCalls) (upload : BlobUpload) (store : BlobStore) (made : Transcript)
    (primary : AppError) :
    Runs (cleanupFailure upload.temporaryPath primary) store (cleanupFailed calls upload store made primary).result
      (cleanupFailed calls upload store made primary).store :=
  (runs_unlinkPathIfPresent calls.cleanup upload.temporaryPath store).bind (.ret _ _)

theorem runs_cleanupFailed_bind (calls : UploadCalls) (upload : BlobUpload) (store : BlobStore) (made : Transcript)
    (primary : AppError) :
    Runs ((cleanupFailure upload.temporaryPath primary).bind fun result => .ret (result, upload)) store
      ((cleanupFailed calls upload store made primary).result, (cleanupFailed calls upload store made primary).upload)
      (cleanupFailed calls upload store made primary).store :=
  (runs_cleanupFailed calls upload store made primary).bind (.ret _ _)

theorem runs_commitWithOps (calls : UploadCalls) (upload : BlobUpload) (store : BlobStore) :
    Runs (uploadCommitWithOps upload) store
      ((commitWithOps calls upload store).result, (commitWithOps calls upload store).upload)
      (commitWithOps calls upload store).store := by
  unfold uploadCommitWithOps commitWithOps
  by_cases harguments : ¬ upload.active ∨ upload.committed ∨ upload.storedBytes ≠ upload.expectedBytes
  · rw [if_pos harguments, if_pos harguments]
    exact .ret _ _
  rw [if_neg harguments, if_neg harguments]
  by_cases hfull : upload.id = uint64Max
  · rw [if_pos hfull, if_pos hfull]
    exact .ret _ _
  rw [if_neg hfull, if_neg hfull]
  refine (runs_closeStaged calls upload store).bind ?_
  generalize closeStaged calls upload store.directory = closed
  obtain ⟨staged, upload, directory, made⟩ := closed
  dsimp only
  by_cases hstaged : staged ≠ .none
  · rw [if_pos hstaged, if_pos hstaged]
    exact runs_cleanupFailed_bind calls upload _ made staged
  rw [if_neg hstaged, if_neg hstaged]
  unfold activate
  refine (runs_requirePathAbsent calls.statStaged upload.finalPath _).bind ?_
  dsimp only
  by_cases hfinal : pathAbsent calls.statStaged upload.finalPath directory ≠ .none
  · rw [if_pos hfinal, if_pos hfinal]
    exact runs_cleanupFailed_bind calls upload _ made _
  rw [if_neg hfinal, if_neg hfinal]
  refine (runs_persist calls.counter (upload.id + 1) _).bind ?_
  generalize persist calls.counter (upload.id + 1) _ = persisted
  obtain ⟨persisted, counted⟩ := persisted
  dsimp only
  by_cases hpersisted : persisted ≠ .none
  · rw [if_pos hpersisted, if_pos hpersisted]
    exact runs_cleanupFailed_bind calls upload counted made persisted
  rw [if_neg hpersisted, if_neg hpersisted]
  refine (runs_rename calls.rename upload.temporaryPath upload.finalPath counted).bind ?_
  have hkept := rename_kept calls.rename upload.temporaryPath upload.finalPath counted.directory
  generalize rename calls.rename upload.temporaryPath upload.finalPath counted.directory = renamed at hkept
  obtain ⟨failed, renamed⟩ := renamed
  cases failed with
  | some fault =>
    rw [show renamed = counted.directory from hkept fault rfl]
    exact runs_cleanupFailed_bind calls upload counted made _
  | none =>
    dsimp only
    refine (runs_callStream calls.syncParent _).bind ?_
    cases calls.syncParent with
    | some fault => exact .ret _ _
    | none => exact .ret _ _

theorem runs_commit (calls : UploadCalls) (upload : BlobUpload) (store : BlobStore) :
    Runs (uploadCommit upload) store ((commit calls upload store).1, (commit calls upload store).2.upload)
      (commit calls upload store).2.store := by
  refine (runs_commitWithOps calls upload store).bind ?_
  unfold commit
  dsimp only
  generalize commitWithOps calls upload store = commit
  by_cases hcommitted : commit.upload.committed = true
  · rw [if_pos hcommitted, if_pos hcommitted]
    exact Runs.bind (.act (faulty none) (.ret _ _)) (.ret _ _)
  rw [if_neg hcommitted, if_neg hcommitted]
  by_cases huncertain : commit.result.commitState = .commitUncertain
  · rw [if_pos huncertain, if_pos huncertain]
    exact .ret _ _
  · rw [if_neg huncertain, if_neg huncertain]
    exact .ret _ _

theorem runs_abort (calls : UploadCalls) (upload : BlobUpload) (store : BlobStore) (primary : AppError) :
    Runs (abortUncommittedUpload upload primary) store (abort calls upload store primary).1
      (abort calls upload store primary).2.1 := by
  unfold abortUncommittedUpload abort uploadAbort
  by_cases hcommitted : upload.committed = true
  · rw [if_pos hcommitted, if_pos (Or.inl hcommitted)]
    exact .ret _ _
  rw [if_neg hcommitted]
  by_cases howned : upload.committed = true ∨ upload.finalPathOwned = true
  · rw [if_pos howned, if_pos howned]
    exact Runs.bind (.ret _ _) (.ret _ _)
  rw [if_neg howned, if_neg howned]
  by_cases hactive : upload.active = true
  · rw [if_pos hactive, if_pos hactive]
    refine Runs.bind ((runs_callStream calls.abortClose store).bind ?_) (.ret _ _)
    exact (runs_unlinkPathIfPresent calls.abortUnlink upload.temporaryPath store).bind (.ret _ _)
  · rw [if_neg hactive, if_neg hactive]
    refine Runs.bind (Runs.bind (.ret _ _) ?_) (.ret _ _)
    exact (runs_unlinkPathIfPresent calls.abortUnlink upload.temporaryPath store).bind (.ret _ _)

/-- A round of the loop ends the reception of the body, or is its first step. -/
def RoundRuns (contentLength : Nat) (call : ReceiveCall) (state : Receiving) (store : BlobStore) :
    Round Receiving (AppError × Receiving) → Prop
  | .done (result, final) => ∃ received,
      Runs (streamBody received state.upload (contentLength - state.received) state.timeouts) store
        (result, final.upload) store
  | .next next => next.received ≤ contentLength ∧ ∀ received outcome,
      Runs (streamBody received next.upload (contentLength - next.received) next.timeouts) store outcome store →
      Runs (streamBody (call.received :: received) state.upload (contentLength - state.received) state.timeouts) store
        outcome store

theorem runs_receiveRound (contentLength : Nat) (call : ReceiveCall) (state : Receiving) (store : BlobStore)
    (hreceived : state.received ≤ contentLength) :
    RoundRuns contentLength call state store (receiveRound contentLength call state) := by
  unfold receiveRound
  by_cases hmore : state.received < contentLength
  · rw [if_pos hmore]
    obtain ⟨remaining, hremaining⟩ : ∃ remaining, contentLength - state.received = remaining + 1 :=
      ⟨contentLength - state.received - 1, by omega⟩
    cases hcall : call.received with
    | failed =>
      refine ⟨[.failed], ?_⟩
      rw [hremaining]
      exact .ret _ _
    | timeout =>
      dsimp only
      by_cases hmany : state.timeouts + 1 > timeoutRetriesMax
      · rw [if_pos hmany]
        refine ⟨[.timeout], ?_⟩
        rw [hremaining, streamBody, if_pos hmany]
        exact .ret _ _
      · rw [if_neg hmany]
        refine ⟨hreceived, fun received outcome hruns => ?_⟩
        dsimp only at hruns
        rw [hremaining] at hruns
        rw [hcall, hremaining, streamBody, if_neg hmany]
        exact hruns
    | chunk data =>
      dsimp only
      rw [hremaining]
      by_cases hlength : data.length = 0 ∨ data.length > min (remaining + 1) uploadChunkBytes
      · rw [if_pos hlength]
        refine ⟨[.chunk data], ?_⟩
        rw [hremaining, streamBody, if_pos hlength]
        exact .ret _ _
      · rw [if_neg hlength]
        have hwrite := runs_write call state.upload data store
        generalize Transfer.write call state.upload data = written at hwrite
        obtain ⟨wrote, upload, made⟩ := written
        dsimp only at hwrite ⊢
        by_cases hfailed : wrote ≠ .none
        · rw [if_pos hfailed]
          refine ⟨[.chunk data], ?_⟩
          rw [hremaining, streamBody, if_neg hlength]
          refine hwrite.bind ?_
          dsimp only
          rw [if_pos hfailed]
          exact .ret _ _
        · rw [if_neg hfailed]
          refine ⟨by dsimp only; omega, fun received outcome hruns => ?_⟩
          rw [hcall, hremaining, streamBody, if_neg hlength]
          refine hwrite.bind ?_
          dsimp only at hruns ⊢
          rw [if_neg hfailed, ← hremaining, Nat.sub_sub]
          exact hruns
  · rw [if_neg hmore]
    refine ⟨[], ?_⟩
    rw [show contentLength - state.received = 0 by omega, streamBody]
    exact .ret _ _

/-- A body that comes in, over what its receives have yielded. -/
theorem runs_receive {contentLength : Nat} {receive : Nat → ReceiveCall} {fuel index : Nat} {state final : Receiving}
    {result : AppError} (hreceived : state.received ≤ contentLength)
    (h : rounds (receiveRound contentLength) receive fuel index state = some (result, final)) (store : BlobStore) :
    ∃ received, Runs (streamBody received state.upload (contentLength - state.received) state.timeouts) store
      (result, final.upload) store := by
  induction fuel generalizing index state with
  | zero => cases h
  | succ fuel ih =>
    have hround := runs_receiveRound contentLength (receive index) state store hreceived
    cases hbody : receiveRound contentLength (receive index) state with
    | done outcome =>
      rw [rounds_of_done hbody] at h
      rw [hbody] at hround
      cases h
      exact hround
    | next next =>
      rw [rounds_of_next hbody] at h
      rw [hbody] at hround
      obtain ⟨received, hruns⟩ := ih hround.1 h
      exact ⟨_, hround.2 received _ hruns⟩

/-- An upload in one function is one step by step, over what its receives have yielded. -/
theorem blobCreate_runs {calls : UploadCalls} {fuel contentLength : Nat} {store : BlobStore} {outcome : UploadOutcome}
    (h : blobCreateHandler calls fuel contentLength store = some outcome) :
    ∃ received, Runs (blobCreate contentLength received) store (outcome.answer.map BlobEntry.id) outcome.store := by
  unfold blobCreateHandler at h
  unfold blobCreate
  by_cases hlength : contentLength = 0 ∨ contentLength > Limits.blobMaxBytes
  · rw [if_pos hlength] at h
    cases h
    refine ⟨[], ?_⟩
    rw [if_pos hlength]
    exact .ret _ _
  rw [if_neg hlength] at h
  simp only [if_neg hlength]
  have hbegin := runs_begin calls contentLength store
  generalize Transfer.begin calls contentLength store = begun at h hbegin
  obtain ⟨begun, opened⟩ := begun
  cases begun with
  | error error =>
    cases h
    exact ⟨[], hbegin.bind (.ret _ _)⟩
  | ok upload =>
    obtain ⟨⟨streamed, state⟩, hrounds, hout⟩ := Option.map_eq_some_iff.mp h
    obtain ⟨received, hreceive⟩ := runs_receive (Nat.zero_le contentLength) hrounds opened
    refine ⟨received, hbegin.bind (hreceive.bind ?_)⟩
    dsimp only at hout ⊢
    by_cases hstreamed : streamed ≠ .none
    · rw [if_pos hstreamed] at hout ⊢
      cases hout
      exact (runs_abort calls state.upload opened streamed).bind (.ret _ _)
    rw [if_neg hstreamed] at hout ⊢
    refine (runs_commit calls state.upload opened).bind ?_
    generalize commit calls state.upload opened = committed at hout
    obtain ⟨committed, commit⟩ := committed
    dsimp only at hout ⊢
    by_cases hcommitted : committed ≠ .none
    · rw [if_pos hcommitted] at hout ⊢
      cases hout
      exact (runs_abort calls commit.upload commit.store committed).bind (.ret _ _)
    · rw [if_neg hcommitted] at hout ⊢
      cases hout
      exact .ret _ _

end MacroKeyboard.Blobs.UploadRuns
