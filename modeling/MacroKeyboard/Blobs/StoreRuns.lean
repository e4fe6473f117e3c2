import MacroKeyboard.Blobs.UploadRuns

namespace MacroKeyboard.Blobs.StoreRuns

open Threads.Program Threads.Alone UploadRuns

section Delete

open Erasure Requests

/-- The sizes of the files are what the operations below can say. -/
def Sizes (directory : Directory) : Prop :=
  ∀ name content, directory.lookup name = some (.file content) → content.length ≤ sizeMax

theorem runs_statPath (fault : Option Errno) (name : Name) (store : BlobStore) :
    Runs (statPath name) store
      (match fault, store.directory.lookup name with
        | some fault, _ => .error fault
        | none, none => .error .enoent
        | none, some node => .ok node) store :=
  runs_atomic _ (faulty fault) store

theorem runs_delete (failures : Failures) (blobId : Nat) {store : BlobStore} (hsizes : Sizes store.directory) :
    Runs (deleteWithOps blobId) store (deleteBlob failures blobId store.directory).1
      { store with directory := (deleteBlob failures blobId store.directory).2 } := by
  unfold deleteWithOps deleteBlob
  by_cases hzero : blobId = 0
  · rw [if_pos hzero, if_pos hzero]
    exact .ret _ _
  rw [if_neg hzero, if_neg hzero]
  refine (runs_statPath (failures.stat (formatFilename blobId)) (formatFilename blobId) store).bind ?_
  cases failures.stat (formatFilename blobId) with
  | some fault => exact .ret _ _
  | none =>
    cases hlookup : store.directory.lookup (formatFilename blobId) with
    | none => exact .ret _ _
    | some node =>
      cases node with
      | directory => exact .ret _ _
      | file content =>
        dsimp only
        rw [if_neg (Nat.not_lt.mpr (hsizes _ _ hlookup))]
        refine Runs.bind (.act (faulty (failures.unlink (formatFilename blobId))) (.ret _ _)) ?_
        dsimp only [faulty]
        cases failures.unlink (formatFilename blobId) with
        | some fault => exact .ret _ _
        | none =>
          rw [hlookup]
          exact .ret _ _

theorem runs_recordDeleted (count : Nat) (store : BlobStore) :
    Runs (recordDeleted count) store () { store with scanState := recordDeletedEntry^[count] store.scanState } :=
  runs_atomic _ (faulty none) store

/-- A deletion in one function is one step by step. -/
theorem blobDelete_runs (failures : Failures) (sync : Option Errno) (blobId : Nat) {store : BlobStore}
    (hsizes : Sizes store.directory) :
    Runs (blobDelete blobId) store (storageBlobDelete failures sync blobId store).1
      (storageBlobDelete failures sync blobId store).2 := by
  unfold blobDelete storageBlobDelete
  refine (runs_delete failures blobId hsizes).bind ?_
  generalize deleteBlob failures blobId store.directory = deleted
  obtain ⟨result, directory⟩ := deleted
  dsimp only
  by_cases hresult : result ≠ .none
  · rw [if_pos hresult, if_pos hresult]
    exact .ret _ _
  rw [if_neg hresult, if_neg hresult]
  refine (runs_recordDeleted 1 _).bind ((runs_callStream sync _).bind ?_)
  cases sync with
  | none => exact .ret _ _
  | some fault => exact .ret _ _

end Delete

section Scan

open ScanReport Requests

/-- The names are those that a directory entry can hold. -/
def ShortNames (directory : Directory) : Prop :=
  ∀ name node, directory.lookup name = some node → name.length < entryNameMax

theorem ShortNames.within {directory part : Directory} (h : ShortNames directory) (hwithin : Within directory part) :
    ShortNames part := fun name node hlookup => h name node (hwithin name node hlookup)

/-- Calls of a scan that work, but perhaps the visits after it. -/
def scanning (visit : Bool) : FileCalls := { faulty none with visit }

theorem greaterId_some (maxId : Option Nat) (blobId : Nat) :
    greaterId maxId blobId = some (match maxId with
      | none => blobId
      | some maxId => if blobId > maxId then blobId else maxId) := by
  cases maxId with
  | none => rfl
  | some maxId => exact (apply_ite some _ _ _).symm

theorem processDirectoryEntry_add (visit : Bool) (name : Name) (node : Node) (entries : List BlobEntry)
    (summary : ScanSummary) :
    processDirectoryEntry (scanning visit) name node entries summary =
      .ok ((ScanContext.add ⟨entries, summary, ()⟩ (name, node)).entries,
        (ScanContext.add ⟨entries, summary, ()⟩ (name, node)).summary) := by
  unfold processDirectoryEntry ScanContext.add isTemporary blobOf
  cases hblob : parseFilename name with
  | some blobId =>
    cases node with
    | file content =>
      dsimp only [scanning, faulty]
      rw [greaterId_some]
      rfl
    | directory =>
      have htemporary : parseTemporaryFilename name = none := by
        by_contra hsome
        rw [parseFilename_eq_none (Option.ne_none_iff_isSome.mp hsome)] at hblob
        cases hblob
      rw [htemporary]
      rfl
  | none =>
    cases parseTemporaryFilename name with
    | none => rfl
    | some blobId => cases node <;> rfl

/-- Without a failure each entry is accounted for. -/
theorem scanDirectoryEntries_add (visit : Bool) (stream : List (Name × Node))
    (hnames : ∀ entry ∈ stream, entry.1.length < entryNameMax) (entries : List BlobEntry) (summary : ScanSummary) :
    scanDirectoryEntries (scanning visit) stream entries summary =
      .ok ((stream.foldl ScanContext.add ⟨entries, summary, ()⟩).entries,
        (stream.foldl ScanContext.add ⟨entries, summary, ()⟩).summary) := by
  induction stream generalizing entries summary with
  | nil => rfl
  | cons entry rest ih =>
    obtain ⟨name, node⟩ := entry
    rw [List.forall_mem_cons] at hnames
    rw [scanDirectoryEntries, if_neg (Nat.not_le.mpr hnames.1), processDirectoryEntry_add]
    exact ih hnames.2 _ _

/-- Without memory the first blob ends the scan. -/
theorem scanDirectoryEntries_full (stream : List (Name × Node)) (hnames : ∀ entry ∈ stream, entry.1.length < entryNameMax)
    (hblobs : stream.filterMap blobOf ≠ []) (entries : List BlobEntry) (summary : ScanSummary) :
    scanDirectoryEntries { faulty none with allocate := fun _ => false } stream entries summary = .error .internal := by
  induction stream generalizing entries summary with
  | nil => exact absurd rfl hblobs
  | cons entry rest ih =>
    obtain ⟨name, node⟩ := entry
    rw [List.forall_mem_cons] at hnames
    rw [scanDirectoryEntries, if_neg (Nat.not_le.mpr hnames.1)]
    cases hblob : blobOf (name, node) with
    | some blob =>
      obtain ⟨hname, content, hnode, -⟩ := blobOf_eq_some.mp hblob
      dsimp only at hname hnode
      unfold processDirectoryEntry
      rw [hname, hnode]
      rfl
    | none =>
      rw [List.filterMap_cons_none hblob] at hblobs
      have hsame : processDirectoryEntry { faulty none with allocate := fun _ => false } name node entries summary =
          processDirectoryEntry (scanning true) name node entries summary := by
        unfold blobOf at hblob
        unfold processDirectoryEntry
        cases hname : parseFilename name with
        | none => rfl
        | some blobId =>
          cases node with
          | directory => rfl
          | file content =>
            rw [hname] at hblob
            cases hblob
      rw [hsame, processDirectoryEntry_add]
      exact ih hnames.2 hblobs _ _

theorem sort_unique {entries others : List BlobEntry} (hperm : entries.Perm others)
    (hnodup : (entries.map BlobEntry.id).Nodup) : newestFirst entries = sortNewestFirst others := by
  have hnodup' : (others.map BlobEntry.id).Nodup := (hperm.map BlobEntry.id).nodup_iff.mp hnodup
  have hsorted : (newestFirst entries).Pairwise (fun a b => b.id ≤ a.id) := by
    have : IsTrans BlobEntry (fun a b => b.id ≤ a.id) := ⟨fun _ _ _ hab hbc => Nat.le_trans hbc hab⟩
    have : Std.Total (fun a b : BlobEntry => b.id ≤ a.id) := ⟨fun a b => Nat.le_total b.id a.id⟩
    exact List.pairwise_insertionSort _ _
  have hsort : (newestFirst entries).Perm entries := List.perm_insertionSort _ _
  refine List.Perm.eq_of_pairwise ?_ hsorted ((sort_strict hnodup').imp Nat.le_of_lt)
    (hsort.trans (hperm.trans (sort_perm others).symm))
  intro a b ha hb hba hab
  have hmem : b ∈ entries := hperm.mem_iff.mpr ((sort_perm others).mem_iff.mp hb)
  exact List.inj_on_of_nodup_map hnodup (hsort.mem_iff.mp ha) hmem (Nat.le_antisymm hab hba)

theorem greatestId_perm {entries others : List BlobEntry} (hperm : entries.Perm others) :
    greatestId entries = greatestId others := by
  refine hperm.foldl_eq' ?_ none
  intro a _ b _ maxId
  simp only [greaterId_eq, Option.getD_some, Nat.max_right_comm]

theorem mem_listing_short {directory : Directory} (hnames : ShortNames directory) :
    ∀ entry ∈ listing directory, entry.1.length < entryNameMax := by
  rintro ⟨name, node⟩ hmem
  exact hnames name node (mem_listing.mp hmem)

/-- Without a failure the directory is scanned, in whatever order it is read. -/
theorem scan_working (visit : Bool) (reading : DirectoryReading) (hnames : ShortNames reading.directory)
    (persistedNextId : Nat) :
    scan (scanning visit) persistedNextId reading.directory =
      (deriveNextId persistedNextId (greatestId (blobsOf reading))).map (fun nextId =>
        (sortNewestFirst (blobsOf reading), summaryOf reading nextId)) := by
  have hperm : ((listing reading.directory).filterMap blobOf).Perm (blobsOf reading) :=
    (reading.complete.filterMap blobOf).symm
  have hnodup : (((listing reading.directory).filterMap blobOf).map BlobEntry.id).Nodup :=
    (hperm.map BlobEntry.id).nodup_iff.mpr (nodup_blobsOf reading)
  have hopen : (scanning visit).openDirectory = true := rfl
  have hclose : (scanning visit).closeDirectory = true := rfl
  unfold scan
  rw [if_neg (not_not_intro hopen), scanDirectoryEntries_add visit _ (mem_listing_short hnames)]
  dsimp only
  rw [if_neg (not_not_intro hclose), add_maxId, add_entries, add_invalid, add_temporary, List.nil_append]
  rw [show ((listing reading.directory).filterMap blobOf).foldl (fun maxId blob => greaterId maxId blob.id)
      ScanSummary.zero.maxId = greatestId (blobsOf reading) from greatestId_perm hperm]
  cases deriveNextId persistedNextId (greatestId (blobsOf reading)) with
  | error error => rfl
  | ok nextId =>
    refine congrArg Except.ok (Prod.ext (sort_unique hperm hnodup) ?_)
    dsimp only [summaryOf]
    have hforeign := reading.complete.countP_eq isForeign
    have htemporary := reading.complete.countP_eq isTemporary
    rw [hperm.length_eq, entriesOf, hforeign, htemporary]
    simp only [ScanSummary.zero, Nat.zero_add]

/-- A scan that is refused is refused in one function too. -/
theorem scan_refuses (reading : DirectoryReading) (hnames : ShortNames reading.directory) {persistedNextId : Nat}
    {error : AppError} (h : Refuses reading persistedNextId error) :
    ∃ fileCalls, scan fileCalls persistedNextId reading.directory = .error error := by
  rcases h with rfl | ⟨rfl, hblobs⟩ | hnext
  · exact ⟨{ faulty none with openDirectory := false }, rfl⟩
  · refine ⟨{ faulty none with allocate := fun _ => false }, ?_⟩
    have hfull : (listing reading.directory).filterMap blobOf ≠ [] := by
      intro hempty
      have hperm : (blobsOf reading).Perm ((listing reading.directory).filterMap blobOf) :=
        reading.complete.filterMap blobOf
      rw [hempty] at hperm
      exact hblobs hperm.eq_nil
    have hopen : (faulty none).openDirectory = true := rfl
    unfold scan
    rw [if_neg (not_not_intro hopen), scanDirectoryEntries_full _ (mem_listing_short hnames) hfull]
  · refine ⟨scanning true, ?_⟩
    rw [scan_working true reading hnames, hnext]
    rfl

/-- A scan call by call is one in one function, and its visits come after that. -/
theorem scan_cases {γ : Type} (calls : ScanCalls) (visit : BlobEntry → γ → AppError × γ) (reading : DirectoryReading)
    (hnames : ShortNames reading.directory) (persistedNextId : Nat) (observed : γ) :
    (∃ fileCalls error summary, error ≠ .none ∧ scan fileCalls persistedNextId reading.directory = .error error ∧
      scanWithOps calls (.entriesOnly visit) reading.stream persistedNextId observed = (error, summary, observed)) ∨
    ∃ entries summary, (∀ visit, scan (scanning visit) persistedNextId reading.directory = .ok (entries, summary)) ∧
      entries = sortNewestFirst (blobsOf reading) ∧
      scanWithOps calls (.entriesOnly visit) reading.stream persistedNextId observed =
        ((notifyEntries (.entriesOnly visit) entries observed).1, summary,
          (notifyEntries (.entriesOnly visit) entries observed).2) := by
  rcases scanWithOps_cases calls visit reading persistedNextId observed with
    ⟨error, summary, herror, heq, -, hrefuses⟩ | ⟨nextId, hnext, -, heq⟩
  · left
    obtain ⟨fileCalls, hscan⟩ := scan_refuses reading hnames hrefuses
    exact ⟨fileCalls, error, summary, herror, hscan, heq⟩
  · right
    refine ⟨_, _, fun visit => ?_, rfl, heq⟩
    rw [scan_working visit reading hnames, hnext]
    rfl

/-- The visits of a list collect the entries, unless one of them fails. -/
theorem notifyEntries_list (allocate : Nat → Bool) (entries : List BlobEntry) (list : BlobList) :
    (notifyEntries (.entriesOnly (addBlobListEntry allocate)) entries list).1 = .internal ∨
    (notifyEntries (.entriesOnly (addBlobListEntry allocate)) entries list).1 = .none ∧
      (notifyEntries (.entriesOnly (addBlobListEntry allocate)) entries list).2.entries = list.entries ++ entries := by
  induction entries generalizing list with
  | nil => exact Or.inr ⟨rfl, (List.append_nil _).symm⟩
  | cons entry rest ih =>
    rw [notifyEntries]
    dsimp only [ScanObserver.entriesOnly]
    by_cases hfull : list.usedBytes > sizeMax - entry.storedBytes ∨ ¬ allocate list.entries.length = true
    · rw [addBlobListEntry, if_pos hfull]
      exact Or.inl rfl
    · rw [addBlobListEntry, if_neg hfull]
      refine (ih _).imp_right (And.imp_right fun hentries => hentries.trans ?_)
      exact List.append_assoc list.entries [entry] rest

/-- The answer to a request for the list. -/
def listAnswer (result : AppError) (list : BlobList) : Except AppError (List BlobEntry) :=
  if result = .none then .ok list.entries else .error result

/-- A list call by call is one in one function. -/
theorem blobList_runs (calls : ScanCalls) (allocate : Nat → Bool) (reading : DirectoryReading) {store : BlobStore}
    (hreading : reading.directory = store.directory) (hnames : ShortNames store.directory) :
    Runs blobList store
      (listAnswer (storageBlobList calls allocate reading store).1 (storageBlobList calls allocate reading store).2.2)
      (storageBlobList calls allocate reading store).2.1 := by
  rw [← hreading] at hnames
  unfold storageBlobList blobList
  rcases scan_cases calls (addBlobListEntry allocate) reading hnames store.scanState.nextId ⟨[], 0⟩ with
    ⟨fileCalls, error, summary, herror, hscan, heq⟩ | ⟨entries, summary, hscan, -, heq⟩
  · rw [hreading] at hscan
    rw [heq]
    refine .act fileCalls ?_
    dsimp only
    rw [hscan, if_pos herror]
    unfold listAnswer
    rw [if_neg herror]
    exact .ret _ _
  · rw [hreading] at hscan
    rw [heq]
    dsimp only
    rcases notifyEntries_list allocate entries ⟨[], 0⟩ with hfull | ⟨hnone, hentries⟩
    · refine .act (scanning false) ?_
      rw [hscan, hfull]
      exact .ret _ _
    · refine .act (scanning true) ?_
      rw [hscan, hnone]
      unfold listAnswer
      rw [if_pos rfl, hentries]
      exact .ret _ _

end Scan

section DeleteAll

open ScanReport Erasure Requests

theorem sizes_reading (reading : DirectoryReading) : Sizes reading.directory := by
  intro name content hlookup
  have hlt := reading.sizes _ (List.mem_filter.mp (mem_entriesOf.mpr hlookup)).1 content rfl
  unfold sizeMax
  omega

theorem sizes_delete {directory : Directory} (failures : Failures) (blobId : Nat) (h : Sizes directory) :
    Sizes (deleteBlob failures blobId directory).2 := by
  unfold deleteBlob
  repeat' split
  all_goals first | exact h | skip
  intro name content hlookup
  by_cases hname : name = formatFilename blobId
  · rw [hname, AList.lookup_erase] at hlookup
    cases hlookup
  · rw [AList.lookup_erase_ne hname] at hlookup
    exact h name content hlookup

/-- The visits of a deletion of all blobs are its deletions one after the other. -/
theorem runs_deleteEntries (failures : Failures) (entries : List BlobEntry) (state : DeleteAllState) (store : BlobStore)
    (hdirectory : store.directory = state.directory) (hsizes : Sizes store.directory) :
    ∃ deleted, notifyEntries (.entriesOnly (deleteAllVisitEntry failures)) entries state = (.none, deleted) ∧
      Runs (deleteEntries entries state.firstError state.deletedCount) store (deleted.firstError, deleted.deletedCount)
        { store with directory := deleted.directory } := by
  induction entries generalizing state store with
  | nil =>
    refine ⟨state, rfl, ?_⟩
    rw [← hdirectory]
    exact .ret _ _
  | cons entry rest ih =>
    have hdelete := runs_delete failures entry.id hsizes
    have hkept := sizes_delete failures entry.id hsizes
    rw [notifyEntries]
    dsimp only [ScanObserver.entriesOnly, deleteAllVisitEntry]
    rw [← hdirectory]
    generalize deleteBlob failures entry.id store.directory = deleted at hdelete hkept
    obtain ⟨result, directory⟩ := deleted
    dsimp only at hdelete hkept ⊢
    by_cases hresult : result = .none
    · rw [if_pos hresult]
      obtain ⟨last, hlast, hruns⟩ :=
        ih { state with deletedCount := state.deletedCount + 1, directory } { store with directory } rfl hkept
      refine ⟨last, hlast, hdelete.bind ?_⟩
      rw [if_pos hresult]
      exact hruns
    · rw [if_neg hresult]
      obtain ⟨last, hlast, hruns⟩ :=
        ih { state with firstError := if state.firstError = .none then result else state.firstError, directory }
          { store with directory } rfl hkept
      refine ⟨last, hlast, hdelete.bind ?_⟩
      rw [if_neg hresult]
      exact hruns

theorem runs_deleted (sync : Option Errno) (result : AppError) (count : Nat) (store : BlobStore) :
    Runs (do
        recordDeleted count
        let synced ← if count > 0 then syncParent else pure none
        pure (if synced.isSome ∧ result = .none then .io else result)) store
      (if count > 0 ∧ sync.isSome ∧ result = .none then .io else result)
      { store with scanState := recordDeletedEntry^[count] store.scanState } := by
  refine (runs_recordDeleted count store).bind ?_
  by_cases hcount : count > 0
  · simp only [hcount, true_and, if_true]
    exact (runs_callStream sync _).bind (.ret _ _)
  · simp only [hcount, false_and, if_false]
    exact Runs.bind (.ret _ _) (.ret _ _)

/-- A deletion of all blobs call by call is one in one function. -/
theorem blobDeleteAll_runs (calls : ScanCalls) (failures : Failures) (sync : Option Errno) (reading : DirectoryReading)
    {store : BlobStore} (hreading : reading.directory = store.directory) (hnames : ShortNames store.directory) :
    Runs blobDeleteAll store (storageBlobDeleteAll calls failures sync reading store).1
      (storageBlobDeleteAll calls failures sync reading store).2 := by
  rw [← hreading] at hnames
  unfold storageBlobDeleteAll blobDeleteAll
  rcases scan_cases calls (deleteAllVisitEntry failures) reading hnames 0 ⟨.none, 0, store.directory⟩ with
    ⟨fileCalls, error, summary, herror, hscan, heq⟩ | ⟨entries, summary, hscan, -, heq⟩
  · rw [hreading] at hscan
    rw [heq]
    refine (runs_atomic _ fileCalls store).bind ?_
    rw [hscan]
    dsimp only
    rw [if_pos herror]
    exact Runs.bind (.ret _ _) (runs_deleted sync error 0 store)
  · have hsizes : Sizes store.directory := hreading ▸ sizes_reading reading
    obtain ⟨deleted, hdeleted, hruns⟩ :=
      runs_deleteEntries failures entries ⟨.none, 0, store.directory⟩ store rfl hsizes
    rw [hreading] at hscan
    rw [heq, hdeleted]
    refine (runs_atomic _ (scanning true) store).bind ?_
    rw [hscan]
    refine Runs.bind hruns ?_
    exact runs_deleted sync deleted.firstError deleted.deletedCount _

end DeleteAll

section Startup

open ScanReport Recovery

def clear (directory : Directory) (entry : Name × Node) : Directory :=
  if isTemporary entry then directory.erase entry.1 else directory

theorem clear_perm {entries others : List (Name × Node)} (hperm : entries.Perm others) (directory : Directory) :
    entries.foldl clear directory = others.foldl clear directory := by
  refine hperm.foldl_eq' ?_ directory
  intro a _ b _ directory
  unfold clear
  cases isTemporary a with
  | false => rfl
  | true =>
    cases isTemporary b with
    | false => rfl
    | true => exact AList.erase_erase _ _ _

/-- A recovery that succeeds has cleared each entry. -/
theorem recoverStream_clear (calls : RecoverCalls) (stream : List (Name × Node)) {index removed last : Nat}
    {directory after : Directory} (h : recoverStream calls index stream directory removed = (.none, after, last)) :
    after = (entriesOf stream).foldl clear directory ∧ last = removed + (entriesOf stream).countP isTemporary := by
  induction stream generalizing index removed directory with
  | nil =>
    obtain ⟨-, rfl, rfl⟩ := Prod.ext_iff.mp h |>.imp_right Prod.ext_iff.mp
    exact ⟨rfl, rfl⟩
  | cons entry rest ih =>
    obtain ⟨name, node⟩ := entry
    rcases recoverStream_cons calls index (name, node) rest directory removed with
      ⟨heq, -⟩ | ⟨heq, hother⟩ | ⟨heq, hdot, htemporary⟩
    · rw [heq] at h
      cases h
    · rw [heq] at h
      obtain ⟨hafter, hlast⟩ := ih h
      by_cases hdot : isDotEntry name = true
      · rw [entriesOf_dot hdot]
        exact ⟨hafter, hlast⟩
      · have hnot : ¬ isTemporary (name, node) = true := ne_true_of_eq_false (hother.resolve_left hdot)
        rw [entriesOf_cons hdot, List.foldl_cons, List.countP_cons_of_neg hnot, clear, if_neg hnot]
        exact ⟨hafter, hlast⟩
    · rw [heq] at h
      obtain ⟨hafter, hlast⟩ := ih h
      rw [entriesOf_cons (ne_true_of_eq_false hdot), List.foldl_cons, List.countP_cons_of_pos htemporary, clear,
        if_pos htemporary]
      exact ⟨hafter, by omega⟩

theorem runs_recoverEntries (entries : List (Name × Node)) (removed : Nat) (store : BlobStore)
    (hlookup : ∀ entry ∈ entries, store.directory.lookup entry.1 = some entry.2)
    (hnodup : (entries.map Prod.fst).Nodup) (hnames : ∀ entry ∈ entries, entry.1.length < entryNameMax) :
    Runs (recoverEntries (entries.map (·.1)) removed) store (.none, removed + entries.countP isTemporary)
      { store with directory := entries.foldl clear store.directory } := by
  induction entries generalizing removed store with
  | nil => exact (runs_ask (fun calls : FileCalls => calls.readDirectory) (faulty none) store).bind (.ret _ _)
  | cons entry rest ih =>
    obtain ⟨name, node⟩ := entry
    rw [List.forall_mem_cons] at hlookup hnames
    rw [List.map_cons, List.nodup_cons] at hnodup
    rw [List.map_cons, recoverEntries, List.foldl_cons]
    refine (runs_ask (fun calls : FileCalls => calls.readDirectory) (faulty none) store).bind ?_
    have hshort : ¬ (¬ (faulty none).readDirectory = true ∨ name.length ≥ entryNameMax) :=
      not_or.mpr ⟨not_not_intro rfl, Nat.not_le.mpr hnames.1⟩
    dsimp only
    rw [if_neg hshort]
    by_cases hnone : (parseTemporaryFilename name).isNone = true
    · have hnot : ¬ isTemporary (name, node) = true := by
        unfold isTemporary
        rw [Option.isNone_iff_eq_none.mp hnone]
        exact Bool.false_ne_true
      rw [if_pos hnone, List.countP_cons_of_neg hnot, clear, if_neg hnot]
      exact ih removed store hlookup.2 hnodup.2 hnames.2
    rw [if_neg hnone]
    refine (runs_statPath none name store).bind ?_
    rw [hlookup.1]
    dsimp only
    cases node with
    | directory =>
      have hnot : ¬ isTemporary (name, Node.directory) = true := by
        unfold isTemporary
        rw [isFile, Bool.and_false]
        exact Bool.false_ne_true
      rw [List.countP_cons_of_neg hnot, clear, if_neg hnot]
      exact ih removed store hlookup.2 hnodup.2 hnames.2
    | file content =>
      have htemporary : isTemporary (name, Node.file content) = true := by
        unfold isTemporary
        rw [isFile, Bool.and_true]
        exact Option.isSome_iff_ne_none.mpr (fun h => hnone (Option.isNone_iff_eq_none.mpr h))
      refine Runs.bind (.act (faulty none) (.ret _ _)) ?_
      dsimp only [faulty]
      rw [hlookup.1, List.countP_cons_of_pos htemporary, clear, if_pos htemporary]
      have hrest : ∀ entry ∈ rest, (store.directory.erase name).lookup entry.1 = some entry.2 := by
        intro entry hmem
        have hne : entry.1 ≠ name := fun h => hnodup.1 (List.mem_map.mpr ⟨entry, hmem, h⟩)
        rw [AList.lookup_erase_ne hne]
        exact hlookup.2 entry hmem
      have hruns := ih (removed + 1) { store with directory := store.directory.erase name } hrest hnodup.2 hnames.2
      rw [show removed + 1 + rest.countP isTemporary = removed + (rest.countP isTemporary + 1) by omega] at hruns
      exact hruns

theorem recoverWithOps_clear {calls : RecoverCalls} {reading : DirectoryReading} {after : Directory} {removed : Nat}
    (h : recoverWithOps calls reading = (.none, after, removed)) :
    after = (listing reading.directory).foldl clear reading.directory := by
  unfold recoverWithOps at h
  by_cases hopen : ¬ calls.openDirectory = true
  · rw [if_pos hopen] at h
    cases h
  rw [if_neg hopen] at h
  rcases hstream : recoverStream calls 0 reading.stream reading.directory 0 with ⟨result, directory, last⟩
  rw [hstream] at h
  obtain ⟨hresult, hrest⟩ := Prod.ext_iff.mp h
  obtain ⟨rfl, -⟩ := Prod.ext_iff.mp hrest
  dsimp only at hresult
  by_cases hclose : ¬ calls.closeDirectory = true ∧ result = .none
  · rw [if_pos hclose] at hresult
    cases hresult
  rw [if_neg hclose] at hresult
  rw [hresult] at hstream
  rw [(recoverStream_clear calls reading.stream hstream).1]
  exact clear_perm reading.complete _

theorem recoverStartup_runs {calls : RecoverCalls} {reading : DirectoryReading} {after : Directory} {removed : Nat}
    (h : recoverWithOps calls reading = (.none, after, removed)) (hnames : ShortNames reading.directory)
    {store : BlobStore} (hreading : reading.directory = store.directory) :
    Runs recoverStartup store .none { store with directory := after } := by
  have hlookup : ∀ entry ∈ listing store.directory, store.directory.lookup entry.1 = some entry.2 :=
    fun entry hmem => mem_listing.mp hmem
  rw [recoverWithOps_clear h]
  rw [hreading] at hnames ⊢
  have hentries := runs_recoverEntries (listing store.directory) 0 store hlookup (nodup_listing store.directory)
    (mem_listing_short hnames)
  unfold recoverStartup
  refine (runs_atomic _ (faulty none) store).bind ?_
  dsimp only [faulty]
  refine hentries.bind ?_
  refine (runs_ask (fun calls : FileCalls => calls.closeDirectory) (faulty none) _).bind ?_
  dsimp only [faulty]
  by_cases hremoved : 0 + (listing store.directory).countP isTemporary > 0
  · rw [if_pos hremoved]
    exact (runs_callStream none _).bind (.ret _ _)
  · rw [if_neg hremoved]
    exact Runs.bind (.ret _ _) (.ret _ _)

def skip (_ : BlobEntry) (seen : Unit) : AppError × Unit := (.none, seen)

theorem notifyEntries_skip (entries : List BlobEntry) : notifyEntries (.entriesOnly skip) entries () = (.none, ()) := by
  induction entries with
  | nil => rfl
  | cons entry rest ih => exact ih

/-- A startup call by call is one in one function, and the scan state is that of its scan
when it succeeds. -/
theorem startup_runs {recoverCalls : RecoverCalls} {reading : DirectoryReading} {after : Directory} {removed : Nat}
    (hrecovered : recoverWithOps recoverCalls reading = (.none, after, removed)) (calls : ScanCalls)
    (tidied : DirectoryReading) (htidied : tidied.directory = after) {store : BlobStore}
    (hreading : reading.directory = store.directory) (hnames : ShortNames reading.directory) :
    let scanned := scanWithOps calls (.entriesOnly skip) tidied.stream (store.persistedNextId.getD 0) ()
    ∃ scanState, Runs prepareDirectories store scanned.1 { store with directory := after, scanState } ∧
      (scanned.1 = .none → scanState = scanned.2.1) := by
  have hshort : ShortNames tidied.directory := by
    have hspec := (recoverWithOps_spec recoverCalls reading).1
    rw [hrecovered] at hspec
    rw [htidied]
    exact hnames.within fun name node hlookup => ((hspec rfl name node).mp hlookup).1
  have hprepared : ∀ {result : AppError} {last : BlobStore},
      Runs (scanStartup (store.persistedNextId.getD 0)) { store with directory := after } result last →
      Runs prepareDirectories store result last := fun hscan =>
    (recoverStartup_runs hrecovered hnames hreading).bind ((runs_atomic _ (faulty none) _).bind hscan)
  dsimp only
  rcases scan_cases calls skip tidied hshort (store.persistedNextId.getD 0) () with
    ⟨fileCalls, error, refused, herror, hscan, heq⟩ | ⟨entries, found, hscan, -, heq⟩
  · rw [htidied] at hscan
    rw [heq]
    refine ⟨.zero, hprepared (.act fileCalls ?_), fun hnone => absurd hnone herror⟩
    dsimp only
    rw [hscan]
    exact .ret _ _
  · rw [htidied] at hscan
    rw [heq, notifyEntries_skip]
    refine ⟨found, hprepared (.act (scanning true) ?_), fun _ => rfl⟩
    dsimp only
    rw [hscan]
    exact .ret _ _

end Startup

end MacroKeyboard.Blobs.StoreRuns
