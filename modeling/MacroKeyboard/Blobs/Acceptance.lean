import MacroKeyboard.Blobs.Readiness

namespace MacroKeyboard.Blobs.Requests

open Loops.Rounds Transfer ScanReport Erasure

structure StoreWorks (calls : UploadCalls) : Prop extends Removes calls where
  statFinal : calls.statFinal = none
  statTemporary : calls.statTemporary = none
  openTemporary : calls.openTemporary = none
  flush : calls.flush = none
  sync : calls.sync = none
  close : calls.close = none
  statStaged : calls.statStaged = none
  counterOpen : calls.counter.counterOpen = true
  counterFault : calls.counter.counterFault = none
  rename : calls.rename = none
  syncParent : calls.syncParent = none

/-- The bytes still to come arrive, in chunks that the stream takes whole, and never with too
many timeouts in a row. -/
inductive Delivers (receive : Nat → ReceiveCall) : Nat → Nat → Nat → Prop
  | done {index timeouts : Nat} : Delivers receive index 0 timeouts
  | timeout {index remaining timeouts : Nat} (hreceived : (receive index).received = .timeout)
      (hretries : timeouts < timeoutRetriesMax) (rest : Delivers receive (index + 1) remaining (timeouts + 1)) :
      Delivers receive index remaining timeouts
  | chunk {index remaining timeouts : Nat} {data : List UInt8} (hreceived : (receive index).received = .chunk data)
      (hsome : data.length ≠ 0) (hfits : data.length ≤ min remaining uploadChunkBytes)
      (htaken : data.length ≤ (receive index).taken)
      (rest : Delivers receive (index + 1) (remaining - data.length) 0) : Delivers receive index remaining timeouts

/-- What a list after an upload says of its blob: a list that succeeds has it, and a list
whose operations work succeeds. -/
structure Listed (entry : BlobEntry) (store : BlobStore) : Prop where
  has : ∀ (calls : ScanCalls) allocate (reading : DirectoryReading), reading.directory = store.directory →
    (storageBlobList calls allocate reading store).1 = .none →
      entry ∈ (storageBlobList calls allocate reading store).2.2.entries
  succeeds : ∀ (calls : ScanCalls) allocate (reading : DirectoryReading), reading.directory = store.directory →
    calls.Working → StatsSucceed calls reading → (∀ count, allocate count = true) →
      ((blobsOf reading).map BlobEntry.storedBytes).sum ≤ sizeMax →
        (storageBlobList calls allocate reading store).1 = .none

/-- The upload comes to an end, and it has created its blob. -/
structure Accepted (calls : UploadCalls) (contentLength : Nat) (store : BlobStore) : Prop where
  returns : ∃ fuel, (blobCreateHandler calls fuel contentLength store).isSome
  created : ∀ fuel outcome, blobCreateHandler calls fuel contentLength store = some outcome →
    ∃ entry, outcome.answer = .ok entry ∧ entry.storedBytes = contentLength ∧ Listed entry outcome.store

section Receive

variable {start : BlobUpload} {contentLength : Nat} {receive : Nat → ReceiveCall}

theorem delivers_streams (hbegun : Begun start contentLength) {index remaining timeouts : Nat}
    (h : Delivers receive index remaining timeouts) {state : Receiving} (hstate : Streaming start contentLength state)
    (hremaining : state.received + remaining = contentLength) (htimeouts : state.timeouts = timeouts) :
    ∃ fuel after, rounds (receiveRound contentLength) receive fuel index state = some (.none, after) := by
  have hdone : ∀ {index : Nat} {state : Receiving}, state.received = contentLength →
      ∃ fuel after, rounds (receiveRound contentLength) receive fuel index state = some (.none, after) := by
    intro index state hreceived
    refine ⟨1, state, rounds_of_done ?_⟩
    rw [receiveRound, if_neg (by omega)]
  induction h generalizing state with
  | done => exact hdone hremaining
  | @timeout index remaining timeouts hreceived hretries rest ih =>
    by_cases hzero : remaining = 0
    · exact hdone (by omega)
    · have hround : receiveRound contentLength (receive index) state =
          .next { state with transcript := state.transcript ++ [.receive .timeout], timeouts := state.timeouts + 1 } := by
        rw [receiveRound, if_pos (by omega), hreceived]
        dsimp only
        rw [if_neg (by omega)]
      have hnext := (receiveRound_progress hbegun _ _ _ hstate hround).1
      obtain ⟨fuel, after, hrest⟩ := ih hnext hremaining (congrArg (· + 1) htimeouts)
      exact ⟨fuel + 1, after, (rounds_of_next hround).trans hrest⟩
  | @chunk index remaining timeouts data hreceived hsome hfits htaken rest ih =>
    have hround : receiveRound contentLength (receive index) state =
        .next { upload := { state.upload with
                    stream := state.upload.stream ++ data, storedBytes := state.upload.storedBytes + data.length }
                received := state.received + data.length
                timeouts := 0
                transcript := state.transcript ++ [.receive (.chunk data)] ++ [.write true] } := by
      have hupload : state.upload.active = true ∧ state.upload.committed = false ∧
          state.upload.storedBytes + data.length ≤ state.upload.expectedBytes := by
        rw [hstate.upload]
        refine ⟨hbegun.active, hbegun.uncommitted, ?_⟩
        rw [show ({ start with storedBytes := state.received, stream := receivedBytes state.transcript } : BlobUpload).expectedBytes
          = contentLength from hbegun.expected]
        dsimp only
        omega
      have htake : (data.take (receive index).taken).length = data.length := by
        rw [List.length_take]
        omega
      rw [receiveRound, if_pos (by omega), hreceived]
      dsimp only
      rw [if_neg (by omega), write_of_fits _ hsome hupload.1 hupload.2.1 hupload.2.2,
        if_neg (not_not.mpr htake)]
      rfl
    have hnext := (receiveRound_progress hbegun _ _ _ hstate hround).1
    obtain ⟨fuel, after, hrest⟩ := ih hnext (by dsimp only; omega) rfl
    exact ⟨fuel + 1, after, (rounds_of_next hround).trans hrest⟩

theorem rounds_unique {fuel other index : Nat} {state : Receiving} {result alternative : AppError × Receiving}
    (h : rounds (receiveRound contentLength) receive fuel index state = some result)
    (hother : rounds (receiveRound contentLength) receive other index state = some alternative) : result = alternative := by
  have hfirst := rounds_add other h
  have hsecond := rounds_add fuel hother
  rw [Nat.add_comm, hfirst] at hsecond
  exact Option.some.inj hsecond

end Receive

section Commit

variable {calls : UploadCalls} {upload : BlobUpload} {store : BlobStore}

theorem pathAbsent_of_lookup {name : Name} {directory : Directory} (h : directory.lookup name = none) :
    pathAbsent none name directory = .none := by
  simp only [pathAbsent, h]

theorem persist_works (hworks : StoreWorks calls) (nextId : Nat) :
    persist calls.counter nextId store = (.none, { store with persistedNextId := some nextId }) := by
  rw [persist, if_neg (not_not.mpr hworks.counterOpen), hworks.counterFault]

theorem closeStaged_works (hworks : StoreWorks calls) (directory : Directory) :
    (closeStaged calls upload directory).1 = .none ∧
      (closeStaged calls upload directory).2.2.1 = directory.insert upload.temporaryPath (.file upload.stream) := by
  unfold closeStaged
  rw [hworks.flush, hworks.sync, hworks.close]
  exact ⟨rfl, rfl⟩

theorem activate_works (hworks : StoreWorks calls) {made : Transcript} {content : List UInt8}
    (hfinal : store.directory.lookup upload.finalPath = none)
    (hstaged : store.directory.lookup upload.temporaryPath = some (.file content)) :
    (activate calls upload store made).upload.committed = true ∧ (activate calls upload store made).result.error = .none := by
  unfold activate
  rw [hworks.statStaged, hworks.rename, hworks.syncParent, persist_works hworks]
  dsimp only
  rw [pathAbsent_of_lookup hfinal, if_neg (by decide), if_neg (by decide)]
  simp only [rename, hstaged]
  exact ⟨trivial, rfl⟩

theorem commit_works (hworks : StoreWorks calls) (hactive : upload.active = true) (hcommitted : upload.committed = false)
    (hcomplete : upload.storedBytes = upload.expectedBytes) (hroom : upload.id ≠ uint64Max)
    (hfinal : store.directory.lookup upload.finalPath = none) : (commit calls upload store).1 = .none := by
  have hinner : (commitWithOps calls upload store).upload.committed = true ∧
      (commitWithOps calls upload store).result.error = .none := by
    unfold commitWithOps
    rw [if_neg (by simp [hactive, hcommitted, hcomplete]), if_neg hroom]
    obtain ⟨hnone, hdirectory⟩ := @closeStaged_works calls upload hworks store.directory
    dsimp only
    rw [if_neg (not_not.mpr hnone), hdirectory]
    have hfree : (store.directory.insert upload.temporaryPath (.file upload.stream)).lookup upload.finalPath = none :=
      (AList.lookup_insert_ne (formatFilename_ne_temporary upload.id upload.id)).trans hfinal
    exact activate_works hworks hfree (AList.lookup_insert _)
  rw [commit]
  dsimp only
  rw [if_pos hinner.1]
  exact hinner.2

theorem begin_works (hworks : StoreWorks calls) {contentLength : Nat} (hlegal : 0 < contentLength)
    (hlimit : contentLength ≤ Limits.blobMaxBytes) (hpositive : 0 < store.scanState.nextId)
    (hroom : store.scanState.nextId ≠ uint64Max)
    (hfinal : store.directory.lookup (formatFilename store.scanState.nextId) = none)
    (htemporary : store.directory.lookup (formatTemporaryFilename store.scanState.nextId) = none) :
    ∃ upload opened, begin calls contentLength store = (.ok upload, opened) := by
  have hvalid : ¬ (store.scanState.nextId = 0 ∨ contentLength = 0 ∨ contentLength > Limits.blobMaxBytes) := by omega
  rw [begin, if_neg hvalid, if_neg hroom, hworks.statFinal, hworks.statTemporary, hworks.openTemporary]
  dsimp only [BlobUpload.finalPath, BlobUpload.temporaryPath]
  rw [pathAbsent_of_lookup hfinal, pathAbsent_of_lookup htemporary, if_neg (by decide), if_neg (by decide), htemporary]
  exact ⟨_, _, rfl⟩

theorem begin_conflict (hworks : StoreWorks calls) {contentLength : Nat} (hlegal : 0 < contentLength)
    (hlimit : contentLength ≤ Limits.blobMaxBytes) (hpositive : 0 < store.scanState.nextId)
    (hroom : store.scanState.nextId ≠ uint64Max)
    (hfinal : (store.directory.lookup (formatFilename store.scanState.nextId)).isSome = true) :
    begin calls contentLength store = (.error .conflict, store) := by
  have hvalid : ¬ (store.scanState.nextId = 0 ∨ contentLength = 0 ∨ contentLength > Limits.blobMaxBytes) := by omega
  obtain ⟨node, hnode⟩ := Option.isSome_iff_exists.mp hfinal
  have hconflict : pathAbsent none (formatFilename store.scanState.nextId) store.directory = .conflict := by
    simp only [pathAbsent, hnode]
  rw [begin, if_neg hvalid, if_neg hroom, hworks.statFinal]
  dsimp only [BlobUpload.finalPath]
  rw [hconflict, if_pos (by decide)]

end Commit

section List

variable {allocate : Nat → Bool}

/-- A list that succeeds has all entries, and one that has the memory and the range for them
succeeds. -/
theorem notifyEntries_add (entries : List BlobEntry) (list : BlobList) :
    ((notifyEntries (.entriesOnly (addBlobListEntry allocate)) entries list).1 = .none →
      (notifyEntries (.entriesOnly (addBlobListEntry allocate)) entries list).2.entries = list.entries ++ entries) ∧
    ((∀ count, allocate count = true) → list.usedBytes + (entries.map BlobEntry.storedBytes).sum ≤ sizeMax →
      (notifyEntries (.entriesOnly (addBlobListEntry allocate)) entries list).1 = .none) := by
  induction entries generalizing list with
  | nil => exact ⟨fun _ => (List.append_nil _).symm, fun _ _ => rfl⟩
  | cons entry rest ih =>
    rw [notifyEntries]
    dsimp only [ScanObserver.entriesOnly]
    rw [List.map_cons, List.sum_cons]
    unfold addBlobListEntry
    by_cases hrefused : list.usedBytes > sizeMax - entry.storedBytes ∨ ¬ allocate list.entries.length = true
    · rw [if_pos hrefused]
      dsimp only
      rw [if_pos (by decide)]
      refine ⟨(fun hnone => by cases hnone), fun hallocate hfits => ?_⟩
      rcases hrefused with hrange | hmemory
      · omega
      · exact absurd (hallocate _) hmemory
    · rw [if_neg hrefused]
      dsimp only
      rw [if_neg (by decide)]
      obtain ⟨hall, hsucceeds⟩ := ih ⟨list.entries ++ [entry], list.usedBytes + entry.storedBytes⟩
      refine ⟨fun hnone => ?_, fun hallocate hfits => hsucceeds hallocate (by dsimp only; omega)⟩
      refine (hall hnone).trans ?_
      rw [List.append_assoc, List.singleton_append]

theorem listed_of_isBlob {store : BlobStore} {entry : BlobEntry} (hblob : IsBlob store.directory entry)
    (hroom : ∀ blob, IsBlob store.directory blob → blob.id ≠ uint64Max) : Listed entry store := by
  constructor
  · intro calls allocate reading hreading
    unfold storageBlobList
    rcases scanWithOps_cases calls (addBlobListEntry allocate) reading store.scanState.nextId ⟨[], 0⟩ with
      ⟨error, summary, herror, heq, -⟩ | ⟨nextId, -, -, heq⟩
    · rw [heq]
      exact fun hnone => absurd hnone herror
    · rw [heq]
      intro hnone
      refine ((notifyEntries_add _ _).1 hnone).symm ▸ ?_
      rw [List.nil_append, (sort_perm _).mem_iff, mem_blobsOf, hreading]
      exact hblob
  · intro calls allocate reading hreading hworking hstats hallocate hfits
    unfold storageBlobList
    rcases scanWithOps_cases calls (addBlobListEntry allocate) reading store.scanState.nextId ⟨[], 0⟩ with
      ⟨error, summary, herror, heq, hwhy, -⟩ | ⟨nextId, -, -, heq⟩
    · exfalso
      rcases hwhy hworking with hnot | hmax
      · exact hnot hstats
      · rcases maxId_spec (blobsOf reading) with ⟨-, hnone⟩ | ⟨greatest, hsome, -, blob, hmem, hid⟩
        · cases hmax.symm.trans hnone
        · cases hmax.symm.trans hsome
          exact hroom blob (hreading ▸ mem_blobsOf.mp hmem) hid
    · rw [heq]
      refine (notifyEntries_add _ _).2 hallocate ?_
      rw [((sort_perm (blobsOf reading)).map BlobEntry.storedBytes).sum_eq, Nat.zero_add]
      exact hfits

end List

section Accepted

variable {repository : Repository} {calls : UploadCalls} {contentLength : Nat}

theorem Sound.free (h : Sound repository) (hcertain : repository.uncertain = none) :
    repository.store.directory.lookup (formatFilename repository.store.scanState.nextId) = none := by
  by_contra hlookup
  have hsome := Option.isSome_iff_ne_none.mpr hlookup
  rcases h.below _ h.positive h.bounded hsome with hless | huncertain
  · exact Nat.lt_irrefl _ hless
  · rw [hcertain] at huncertain
    cases huncertain

theorem Sound.created (h : Sound repository) (hcertain : repository.uncertain = none)
    (hroom : repository.store.scanState.nextId ≠ uint64Max) (hlegal : 0 < contentLength)
    (hlimit : contentLength ≤ Limits.blobMaxBytes) (hworks : StoreWorks calls)
    (harrives : Delivers calls.receive 0 contentLength 0) {fuel : Nat} {outcome : UploadOutcome}
    (houtcome : blobCreateHandler calls fuel contentLength repository.store = some outcome) :
    ∃ entry, outcome.answer = .ok entry := by
  have hfinal := h.free hcertain
  have htemporary : repository.store.directory.lookup (formatTemporaryFilename repository.store.scanState.nextId) = none :=
    (h.tidy _).2 (by rw [parseTemporaryFilename_format h.positive h.bounded]; rfl)
  obtain ⟨upload, opened, hbegin⟩ := begin_works hworks hlegal hlimit h.positive hroom hfinal htemporary
  obtain ⟨hbegun, hid, -, hfull, hstored, hstream, -⟩ := begin_ok hbegin
  unfold blobCreateHandler at houtcome
  rw [if_neg (by omega), hbegin] at houtcome
  obtain ⟨result, hrounds, hanswer⟩ := Option.map_eq_some_iff.mp houtcome
  have hstart := streaming_start contentLength hstored hstream
  obtain ⟨other, state, hdelivered⟩ := delivers_streams hbegun harrives hstart (Nat.zero_add _) rfl
  cases rounds_unique hrounds hdelivered
  obtain ⟨⟨hstateId, hcommitted, -⟩, hnone⟩ := rounds_post (receiveRound_holds hbegun) hstart hrounds
  obtain ⟨hstreaming, hreceived⟩ := hnone rfl
  have hcommit : (commit calls state.upload opened).1 = .none := by
    apply commit_works hworks
    · rw [hstreaming.upload]
      exact hbegun.active
    · exact hcommitted
    · rw [hstreaming.upload]
      exact hreceived.trans hbegun.expected.symm
    · rw [hstateId]
      exact hfull
    · rw [BlobUpload.finalPath, hstateId, hid, begin_opens hbegin]
      exact (AList.lookup_insert_ne (formatFilename_ne_temporary _ _)).trans hfinal
  dsimp only at hanswer
  rw [if_neg (by decide), if_neg (not_not.mpr hcommit)] at hanswer
  rw [← hanswer]
  exact ⟨_, rfl⟩

/-- After any run of requests in which the removals succeed, an upload of a legal size whose
operations work is accepted, committed and listed exactly when no earlier upload is left whose
commit is uncertain. -/
theorem upload_accepted_iff {store : BlobStore} (hstarted : Started store) (hrun : Run ⟨store, none⟩ repository)
    (hroom : repository.store.scanState.nextId ≠ uint64Max) (hlegal : 0 < contentLength)
    (hlimit : contentLength ≤ Limits.blobMaxBytes) (hworks : StoreWorks calls)
    (harrives : Delivers calls.receive 0 contentLength 0) :
    Accepted calls contentLength repository.store ↔ repository.uncertain = none := by
  have hsound := hstarted.sound.run hrun
  constructor
  · intro haccepted
    by_contra huncertain
    obtain ⟨blobId, hblobId⟩ := Option.ne_none_iff_exists'.mp huncertain
    obtain ⟨heq, hlookup⟩ := hsound.uncertain blobId hblobId
    rw [heq] at hlookup
    have hconflict := begin_conflict hworks hlegal hlimit hsound.positive hroom hlookup
    obtain ⟨entry, hentry, -⟩ := haccepted.created 0 ⟨.error .conflict, repository.store, []⟩ (by
      rw [blobCreateHandler, if_neg (by omega), hconflict])
    cases hentry
  · intro hcertain
    refine ⟨upload_returns calls contentLength repository.store, ?_⟩
    intro fuel outcome houtcome
    obtain ⟨entry, hentry⟩ := hsound.created hcertain hroom hlegal hlimit hworks harrives houtcome
    obtain ⟨hbytes, hlength, hstored⟩ := (upload_spec hsound.bounded houtcome).created entry hentry
    refine ⟨entry, hentry, hbytes, listed_of_isBlob ?_ ?_⟩
    · obtain ⟨nextId, -, hless, hmax⟩ := hstored.persisted
      exact ⟨hstored.positive, by omega, _, hstored.blob, hbytes.trans hlength.symm⟩
    · rintro blob ⟨hpositive, hmax, content, hlookup, -⟩ hlast
      have hafter := hsound.uploaded hworks.toRemoves houtcome
      rw [hentry] at hafter
      rcases hafter.below blob.id hpositive hmax (Option.isSome_of_eq_some hlookup) with hless | huncertain
      · have hbounded := hafter.bounded
        omega
      · cases huncertain

end Accepted

section Runs

/-- The calls of an upload of one byte in which at most the last sync fails. -/
def oneByteCalls (syncParent : Option Errno) : UploadCalls where
  statFinal := none
  statTemporary := none
  openTemporary := none
  receive _ := ⟨.chunk [7], 1, none⟩
  flush := none
  sync := none
  close := none
  statStaged := none
  counter := ⟨none, 0, true, true, fun _ => true, true, fun _ => true, true, true, none, true⟩
  rename := none
  syncParent := syncParent
  cleanup := none
  abortClose := none
  abortUnlink := none

theorem oneByte_works : StoreWorks (oneByteCalls none) :=
  ⟨⟨rfl, rfl⟩, rfl, rfl, rfl, rfl, rfl, rfl, rfl, rfl, rfl, rfl, rfl⟩

theorem oneByte_delivers : Delivers (oneByteCalls none).receive 0 1 0 := by
  have hrest : Delivers (oneByteCalls none).receive 1 (1 - [(7 : UInt8)].length) 0 := .done
  exact .chunk rfl (by decide) (by decide) (by decide) hrest

def firstStore : BlobStore := ⟨∅, none, ⟨0, 0, 0, none, 1⟩⟩

def emptyReading : DirectoryReading := ⟨∅, [], List.Perm.refl _, nofun⟩

theorem firstStore_started : Started firstStore where
  recovered := ⟨⟨true, fun _ => true, fun _ => true, fun _ => true, true⟩, emptyReading, 0, fun _ _ => nofun, rfl⟩
  scanned := ⟨ScanCalls.working, emptyReading, 0, rfl, by decide, rfl⟩

def firstBlob : Directory := AList.insert (formatFilename 1) (.file [7]) ∅

def firstBlobReading : DirectoryReading where
  directory := firstBlob
  stream := [(formatFilename 1, .file [7])]
  complete := by
    have hdot : isDotEntry (formatFilename 1) = false := by decide
    rw [List.filter_cons_of_pos (by rw [hdot]; rfl)]
    exact List.Perm.refl _
  sizes := by
    intro entry hentry content hcontent
    rw [List.mem_singleton.mp hentry] at hcontent
    cases hcontent
    decide

def unsyncedStore : BlobStore := ⟨firstBlob, some 2, ⟨0, 0, 0, none, 1⟩⟩

theorem unsynced_run : Run ⟨firstStore, none⟩ ⟨unsyncedStore, some 1⟩ := by
  have hupload : blobCreateHandler (oneByteCalls (some .other)) 2 1 firstStore =
      some ⟨.error .commitUncertain, unsyncedStore,
        [.receive (.chunk [7]), .write true, .flush true, .sync true, .close true]⟩ := rfl
  have hserves := @Serves.upload ⟨firstStore, none⟩ _ _ _ _ ⟨rfl, rfl⟩ hupload
  exact .single hserves

/-- With the blob of an uncertain upload there, another upload is refused though everything
works in it. -/
theorem uncertain_upload_blocks :
    Started firstStore ∧ Run ⟨firstStore, none⟩ ⟨unsyncedStore, some 1⟩ ∧ unsyncedStore.scanState.nextId ≠ uint64Max ∧
      StoreWorks (oneByteCalls none) ∧ Delivers (oneByteCalls none).receive 0 1 0 ∧
      blobCreateHandler (oneByteCalls none) 2 1 unsyncedStore = some ⟨.error .conflict, unsyncedStore, []⟩ ∧
      ¬ Accepted (oneByteCalls none) 1 unsyncedStore := by
  have hconflict : blobCreateHandler (oneByteCalls none) 2 1 unsyncedStore = some ⟨.error .conflict, unsyncedStore, []⟩ := rfl
  refine ⟨firstStore_started, unsynced_run, by decide, oneByte_works, oneByte_delivers, hconflict, fun haccepted => ?_⟩
  obtain ⟨entry, hentry, -⟩ := haccepted.created 2 _ hconflict
  cases hentry

/-- Once a list has succeeded the upload is accepted. -/
theorem upload_accepted_after_list : ∃ repository, Run ⟨firstStore, none⟩ repository ∧
    repository.store.directory = firstBlob ∧ Accepted (oneByteCalls none) 1 repository.store := by
  have hlisted : storageBlobList ScanCalls.working (fun _ => true) firstBlobReading unsyncedStore =
      (.none, ⟨firstBlob, some 2, ⟨1, 0, 0, some 1, 2⟩⟩, ⟨[⟨1, 1⟩], 1⟩) := by rfl
  have hlist := @Serves.list ⟨unsyncedStore, some 1⟩ ScanCalls.working (fun _ => true) firstBlobReading rfl
  rw [hlisted, if_pos rfl] at hlist
  have hrun := unsynced_run.tail hlist
  exact ⟨_, hrun, rfl, (upload_accepted_iff firstStore_started hrun (by decide) (by decide) (by decide) oneByte_works
    oneByte_delivers).mpr rfl⟩

end Runs

end MacroKeyboard.Blobs.Requests
