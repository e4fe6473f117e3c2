import MacroKeyboard.Blobs.Upload
import MacroKeyboard.Threads.Restarts
import MacroKeyboard.Threads.Alone

namespace MacroKeyboard.Blobs.Transfer

open Threads.Program Threads.RelyGuarantee Threads.Restarts Threads.Alone

variable {blobId : Nat} {content : List UInt8}

section Scan

/-- What the loop of a scan has found so far. -/
structure Found (entries : List BlobEntry) (summary : ScanSummary) : Prop where
  greatest : ∀ entry ∈ entries, ∃ maxId, summary.maxId = some maxId ∧ entry.id ≤ maxId
  bounded : ∀ maxId, summary.maxId = some maxId → maxId ≤ uint64Max

theorem processDirectoryEntry_spec {calls : FileCalls} {name : Name} {node : Node} {entries entries' : List BlobEntry}
    {summary summary' : ScanSummary} (hfound : Found entries summary)
    (h : processDirectoryEntry calls name node entries summary = .ok (entries', summary')) :
    Found entries' summary' ∧ ∀ entry, entry ∈ entries' ↔ entry ∈ entries ∨ blobOf (name, node) = some entry := by
  unfold processDirectoryEntry at h
  cases hname : parseFilename name with
  | none =>
    have hblob : blobOf (name, node) = none := by
      rw [blobOf, hname]
    have hsame : entries' = entries ∧ summary'.maxId = summary.maxId := by
      rw [hname] at h
      dsimp only at h
      repeat' split at h
      all_goals first | (cases h; exact ⟨rfl, rfl⟩) | cases h
    rw [hsame.1, hblob]
    refine ⟨⟨fun entry hmem => ?_, fun maxId hmax => ?_⟩, fun entry => by simp⟩
    · rw [hsame.2]
      exact hfound.greatest entry hmem
    · rw [hsame.2] at hmax
      exact hfound.bounded maxId hmax
  | some other =>
    obtain ⟨-, -, hmax⟩ := parseFilename_eq_some hname
    rw [hname] at h
    dsimp only at h
    split at h
    · cases h
    cases node with
    | directory =>
      cases h
      have hblob : blobOf (name, .directory) = none := by
        rw [blobOf, hname]
      rw [hblob]
      exact ⟨⟨hfound.greatest, hfound.bounded⟩, fun entry => by simp⟩
    | file bytes =>
      dsimp only at h
      split at h
      · cases h
      cases h
      have hblob : blobOf (name, .file bytes) = some ⟨other, bytes.length⟩ := by
        rw [blobOf, hname]
      rw [hblob]
      refine ⟨⟨?_, ?_⟩, fun entry => by simp [eq_comm]⟩
      · intro entry hmem
        rw [List.mem_append, List.mem_singleton] at hmem
        cases hprevious : summary.maxId with
        | none =>
          refine ⟨other, rfl, ?_⟩
          rcases hmem with hmem | rfl
          · obtain ⟨maxId, hmaxId, -⟩ := hfound.greatest entry hmem
            rw [hprevious] at hmaxId
            cases hmaxId
          · exact le_refl _
        | some previous =>
          refine ⟨if other > previous then other else previous, rfl, ?_⟩
          rcases hmem with hmem | rfl
          · obtain ⟨maxId, hmaxId, hle⟩ := hfound.greatest entry hmem
            rw [hprevious] at hmaxId
            cases hmaxId
            split <;> omega
          · dsimp only
            split <;> omega
      · intro maxId hmaxId
        cases hprevious : summary.maxId with
        | none =>
          rw [hprevious] at hmaxId
          cases hmaxId
          exact hmax
        | some previous =>
          rw [hprevious] at hmaxId
          have hle := hfound.bounded previous hprevious
          cases hmaxId
          dsimp only
          split <;> omega

theorem scanDirectoryEntries_spec {calls : FileCalls} (listed : List (Name × Node)) {entries entries' : List BlobEntry}
    {summary summary' : ScanSummary} (hfound : Found entries summary)
    (h : scanDirectoryEntries calls listed entries summary = .ok (entries', summary')) :
    Found entries' summary' ∧ ∀ entry, entry ∈ entries' ↔ entry ∈ entries ∨ ∃ file ∈ listed, blobOf file = some entry := by
  induction listed generalizing entries summary with
  | nil =>
    unfold scanDirectoryEntries at h
    split at h
    · cases h
      exact ⟨hfound, fun entry => by simp⟩
    · cases h
  | cons file rest ih =>
    obtain ⟨name, node⟩ := file
    unfold scanDirectoryEntries at h
    split at h
    · cases h
    cases hprocess : processDirectoryEntry calls name node entries summary with
    | error error =>
      rw [hprocess] at h
      cases h
    | ok processed =>
      obtain ⟨between, summaryBetween⟩ := processed
      rw [hprocess] at h
      obtain ⟨hbetween, hmem⟩ := processDirectoryEntry_spec hfound hprocess
      obtain ⟨hafter, hmemAfter⟩ := ih hbetween h
      refine ⟨hafter, fun entry => ?_⟩
      rw [hmemAfter, hmem, or_assoc]
      simp only [List.mem_cons, exists_eq_or_imp]

/-- A scan that succeeds lists a blob that is there, with its size, and the next identifier is greater. -/
theorem scan_lists {calls : FileCalls} {persistedNextId : Nat} {directory : Directory} {entries : List BlobEntry}
    {summary : ScanSummary} (h : scan calls persistedNextId directory = .ok (entries, summary)) (hpositive : 0 < blobId)
    (hmax : blobId ≤ uint64Max) (hblob : directory.lookup (formatFilename blobId) = some (.file content))
    (hpersisted : persistedNextId ≤ uint64Max) :
    (∀ entry, entry ∈ entries ∧ entry.id = blobId ↔ entry = ⟨blobId, content.length⟩) ∧
      blobId < summary.nextId ∧ summary.nextId ≤ uint64Max ∧ persistedNextId ≤ summary.nextId := by
  unfold scan at h
  split at h
  · cases h
  cases hscan : scanDirectoryEntries calls (listing directory) [] .zero with
  | error error =>
    rw [hscan] at h
    cases h
  | ok scanned =>
    obtain ⟨found, scannedSummary⟩ := scanned
    rw [hscan] at h
    dsimp only at h
    split at h
    · cases h
    have hstart : Found [] ScanSummary.zero := ⟨fun _ hmem => absurd hmem List.not_mem_nil, nofun⟩
    obtain ⟨hfound, hmem⟩ := scanDirectoryEntries_spec (listing directory) hstart hscan
    have hlisted : ⟨blobId, content.length⟩ ∈ found := by
      refine (hmem _).mpr (Or.inr ⟨(formatFilename blobId, .file content), ScanReport.mem_listing.mpr hblob, ?_⟩)
      exact blobOf_eq_some.mpr ⟨parseFilename_format hpositive hmax, content, rfl, rfl⟩
    have honly : ∀ entry ∈ found, entry.id = blobId → entry = ⟨blobId, content.length⟩ := by
      intro entry hentry hid
      rcases (hmem entry).mp hentry with hnil | ⟨⟨name, node⟩, hfile, hblobOf⟩
      · exact absurd hnil List.not_mem_nil
      · obtain ⟨hname, bytes, hnode, hsize⟩ := blobOf_eq_some.mp hblobOf
        have hlookup := ScanReport.mem_listing.mp hfile
        dsimp only at hname hnode
        rw [(parseFilename_eq_some hname).1, hid, hblob, hnode] at hlookup
        cases entry
        cases hlookup
        exact congrArg₂ BlobEntry.mk hid hsize
    obtain ⟨maxId, hmaxId, hle⟩ := hfound.greatest _ hlisted
    have hbound := hfound.bounded maxId hmaxId
    cases hnext : deriveNextId persistedNextId scannedSummary.maxId with
    | error error =>
      rw [hnext] at h
      cases h
    | ok nextId =>
      rw [hnext] at h
      cases h
      rw [hmaxId, deriveNextId] at hnext
      dsimp only at hnext hle
      split at hnext
      · cases hnext
      split at hnext
      · cases hnext
      · cases hnext
        refine ⟨fun entry => ?_, ?_, ?_, ?_⟩
        · rw [newestFirst, (List.perm_insertionSort _ _).mem_iff]
          constructor
          · exact fun hboth => honly entry hboth.1 hboth.2
          · rintro rfl
            exact ⟨hlisted, rfl⟩
        · dsimp only
          omega
        · dsimp only
          split <;> omega
        · dsimp only
          split <;> omega

end Scan

section Keeping

/-- The blob is in the store between any two steps. -/
def storedLogic (blobId : Nat) (content : List UInt8) : Logic BlobStore where
  inv := Stored blobId content
  halt _ := False
  rely _ _ := True
  guar _ _ := True

def Keeps {α : Type} (blobId : Nat) (content : List UInt8) (p : BlobProg α) (R : α → Prop) : Prop :=
  Valid (storedLogic blobId content) p (fun _ => True) (fun a _ => R a)

variable {α β : Type}

theorem keeps_ret {a : α} {R : α → Prop} (h : R a) : Keeps blobId content (.ret a) R := fun _ _ _ => h

theorem keeps_atomic {f : FileCalls → BlobStore → α × BlobStore} {R : α → Prop}
    (h : ∀ calls store, Stored blobId content store → Stored blobId content (f calls store).2 ∧ R (f calls store).1) :
    Keeps blobId content (.atomic f) R := by
  apply valid_atomic
  · exact fun _ _ _ _ _ _ hR => hR
  · exact fun calls store hstored _ => ⟨(h calls store hstored).1, trivial, (h calls store hstored).2⟩

theorem keeps_bind {p : BlobProg β} {g : β → BlobProg α} {M : β → Prop} {R : α → Prop} (hp : Keeps blobId content p M)
    (hg : ∀ b, M b → Keeps blobId content (g b) R) : Keeps blobId content (p.bind g) R := by
  apply valid_bind hp
  intro b
  by_cases hb : M b
  · exact (hg b hb).pre fun _ _ _ => trivial
  · exact valid_false.pre fun _ _ h => hb h

theorem keeps_weaken {p : BlobProg α} {M R : α → Prop} (hp : Keeps blobId content p M) (h : ∀ a, M a → R a) :
    Keeps blobId content p R := Valid.post hp fun a _ _ => h a

theorem keeps_ask (f : FileCalls → α) : Keeps blobId content (.ask f) (fun _ => True) :=
  keeps_atomic fun _ _ h => ⟨h, trivial⟩

theorem Stored.frame {store after : BlobStore} (h : Stored blobId content store)
    (hblob : after.directory.lookup (formatFilename blobId) = store.directory.lookup (formatFilename blobId))
    (hnext : after.scanState.nextId = store.scanState.nextId) (hpersisted : after.persistedNextId = store.persistedNextId) :
    Stored blobId content after :=
  ⟨h.positive, hblob.trans h.blob, by rw [hnext]; exact h.next, by rw [hpersisted]; exact h.persisted⟩

theorem Stored.le_max {store : BlobStore} (h : Stored blobId content store) : blobId ≤ uint64Max := by
  obtain ⟨nextId, -, hless, hmax⟩ := h.persisted
  omega

def Elsewhere (blobId : Nat) (name : Name) : Prop := formatFilename blobId ≠ name

theorem elsewhere_temporary (blobId other : Nat) : Elsewhere blobId (formatTemporaryFilename other) :=
  formatFilename_ne_temporary blobId other

theorem keeps_statPath (name : Name) : Keeps blobId content (statPath name) (fun _ => True) :=
  keeps_atomic fun _ _ h => ⟨h, trivial⟩

theorem keeps_requirePathAbsent (name : Name) : Keeps blobId content (requirePathAbsent name) (fun _ => True) := by
  apply keeps_bind (keeps_statPath name)
  intro found _
  split <;> exact keeps_ret trivial

theorem keeps_unlinkPath {name : Name} (hname : Elsewhere blobId name) :
    Keeps blobId content (unlinkPath name) (fun _ => True) := by
  apply keeps_atomic
  intro calls store h
  refine ⟨?_, trivial⟩
  split
  · exact h
  · exact h
  · exact h.frame (AList.lookup_erase_ne hname) rfl rfl

theorem keeps_unlinkPathIfPresent {name : Name} (hname : Elsewhere blobId name) :
    Keeps blobId content (unlinkPathIfPresent name) (fun _ => True) := by
  apply keeps_bind (keeps_unlinkPath hname)
  intro result _
  split <;> exact keeps_ret trivial

theorem keeps_openTemporary {name : Name} (hname : Elsewhere blobId name) :
    Keeps blobId content (openTemporary name) (fun _ => True) := by
  apply keeps_atomic
  intro calls store h
  refine ⟨?_, trivial⟩
  split
  · exact h
  · exact h
  · exact h.frame (AList.lookup_insert_ne hname) rfl rfl

theorem keeps_syncStream {name : Name} (hname : Elsewhere blobId name) (bytes : List UInt8) :
    Keeps blobId content (syncStream name bytes) (fun _ => True) := by
  apply keeps_atomic
  intro calls store h
  refine ⟨?_, trivial⟩
  split
  · exact h
  · exact h.frame (AList.lookup_insert_ne hname) rfl rfl

theorem keeps_renamePath {source destination : Name} (hsource : Elsewhere blobId source)
    (hdestination : Elsewhere blobId destination) :
    Keeps blobId content (renamePath source destination) (fun _ => True) := by
  apply keeps_atomic
  intro calls store h
  refine ⟨?_, trivial⟩
  split
  · exact h
  · exact h
  · exact h.frame ((AList.lookup_insert_ne hdestination).trans (AList.lookup_erase_ne hsource)) rfl rfl

theorem keeps_persistNextId {nextId : Nat} (hless : blobId < nextId) (hmax : nextId ≤ uint64Max) :
    Keeps blobId content (persistNextId nextId) (fun _ => True) := by
  apply keeps_atomic
  intro calls store h
  have hstored : Stored blobId content { store with persistedNextId := some nextId } :=
    ⟨h.positive, h.blob, h.next, nextId, rfl, hless, hmax⟩
  refine ⟨?_, trivial⟩
  split
  · exact h
  · split
    · exact hstored
    · dsimp only
      split
      · exact hstored
      · exact h

def Later (blobId other : Nat) : Prop := blobId < other ∧ other < uint64Max

theorem Later.elsewhere {other : Nat} (h : Later blobId other) (hpositive : 0 < blobId) :
    Elsewhere blobId (formatFilename other) := by
  intro hname
  obtain ⟨hless, hmax⟩ := h
  have heq := formatFilename_injective hpositive (by omega) (by omega) (by omega) hname
  omega

theorem keeps_uploadBeginWithId {other expectedBytes : Nat} (hother : other = 0 ∨ (blobId < other ∧ other ≤ uint64Max)) :
    Keeps blobId content (uploadBeginWithId other expectedBytes)
      (fun result => ∀ upload, result = .ok upload → Later blobId upload.id) := by
  unfold uploadBeginWithId
  split
  · exact keeps_ret nofun
  next hvalid =>
    split
    · exact keeps_ret nofun
    next hfull =>
      push Not at hvalid
      have hlater : Later blobId other := by
        rcases hother with hzero | hother
        · exact absurd hzero hvalid.1
        · exact ⟨hother.1, by omega⟩
      apply keeps_bind (keeps_requirePathAbsent _)
      intro finalAbsent _
      split
      · exact keeps_ret nofun
      apply keeps_bind (keeps_requirePathAbsent _)
      intro temporaryAbsent _
      split
      · exact keeps_ret nofun
      apply keeps_bind (keeps_openTemporary (elsewhere_temporary blobId other))
      intro opened _
      split
      · exact keeps_ret nofun
      · apply keeps_ret
        rintro upload hupload
        rw [← Except.ok.inj hupload]
        exact hlater

theorem keeps_uploadBegin (expectedBytes : Nat) :
    Keeps blobId content (uploadBegin expectedBytes) (fun result => ∀ upload, result = .ok upload → Later blobId upload.id) := by
  refine keeps_bind (M := fun nextId => nextId = 0 ∨ (blobId < nextId ∧ nextId ≤ uint64Max)) ?_ fun nextId hnext => ?_
  · exact keeps_atomic fun _ _ h => ⟨h, h.next⟩
  · exact keeps_uploadBeginWithId hnext

theorem keeps_uploadWrite (upload : BlobUpload) (data : List UInt8) :
    Keeps blobId content (uploadWrite upload data) (fun result => result.2.id = upload.id) := by
  unfold uploadWrite
  split
  · exact keeps_ret rfl
  apply keeps_bind (keeps_ask _)
  intro taken _
  dsimp only
  split
  · apply keeps_bind (keeps_ask _)
    intro fault _
    exact keeps_ret rfl
  · exact keeps_ret rfl

theorem keeps_streamBody (received : List Received) (upload : BlobUpload) (remaining timeouts : Nat) :
    Keeps blobId content (streamBody received upload remaining timeouts) (fun result => result.2.id = upload.id) := by
  induction received generalizing upload remaining timeouts with
  | nil => cases remaining <;> exact keeps_ret rfl
  | cons first rest ih =>
    cases remaining with
    | zero => cases first <;> exact keeps_ret rfl
    | succ remaining =>
      cases first with
      | failed => exact keeps_ret rfl
      | timeout =>
        unfold streamBody
        split
        · exact keeps_ret rfl
        · exact ih upload (remaining + 1) (timeouts + 1)
      | chunk data =>
        unfold streamBody
        split
        · exact keeps_ret rfl
        · apply keeps_bind (keeps_uploadWrite upload data)
          intro written hwritten
          dsimp only
          split
          · exact keeps_ret hwritten
          · exact keeps_weaken (ih written.2 _ 0) fun result hresult => hresult.trans hwritten

theorem keeps_cleanupFailure {name : Name} (hname : Elsewhere blobId name) (primary : AppError) :
    Keeps blobId content (cleanupFailure name primary) (fun _ => True) := by
  apply keeps_bind (keeps_unlinkPathIfPresent hname)
  intro cleanup _
  exact keeps_ret trivial

theorem keeps_closeStagedStream (upload : BlobUpload) :
    Keeps blobId content (closeStagedStream upload) (fun result => result.2.id = upload.id) := by
  apply keeps_bind (keeps_ask _)
  intro flushed _
  split
  · apply keeps_bind (keeps_syncStream (elsewhere_temporary blobId upload.id) _)
    intro synced _
    apply keeps_bind (keeps_ask _)
    intro closed _
    exact keeps_ret rfl
  · apply keeps_bind (M := fun _ => True) (keeps_ret trivial)
    intro synced _
    apply keeps_bind (keeps_ask _)
    intro closed _
    exact keeps_ret rfl

theorem keeps_cleanup {other : Nat} {upload : BlobUpload} (hid : upload.id = other) (error : AppError) :
    Keeps blobId content ((cleanupFailure upload.temporaryPath error).bind fun result => .ret (result, upload))
      (fun result => result.2.id = other) := by
  apply keeps_bind (keeps_cleanupFailure (elsewhere_temporary blobId upload.id) error)
  intro result _
  exact keeps_ret hid

theorem keeps_uploadCommitWithOps {upload : BlobUpload} (hlater : Later blobId upload.id) (hpositive : 0 < blobId) :
    Keeps blobId content (uploadCommitWithOps upload) (fun result => result.2.id = upload.id) := by
  unfold uploadCommitWithOps
  split
  · exact keeps_ret rfl
  split
  · exact keeps_ret rfl
  apply keeps_bind (keeps_closeStagedStream upload)
  rintro ⟨staged, closed⟩ hclosed
  dsimp only at hclosed ⊢
  split
  · exact keeps_cleanup hclosed _
  apply keeps_bind (keeps_requirePathAbsent _)
  intro finalAbsent _
  split
  · exact keeps_cleanup hclosed _
  have hnext : blobId < closed.id + 1 ∧ closed.id + 1 ≤ uint64Max := by
    rw [hclosed]
    exact ⟨Nat.lt_succ_of_lt hlater.1, hlater.2⟩
  apply keeps_bind (keeps_persistNextId hnext.1 hnext.2)
  intro persisted _
  split
  · exact keeps_cleanup hclosed _
  have hfinal : Elsewhere blobId closed.finalPath := by
    rw [BlobUpload.finalPath, hclosed]
    exact hlater.elsewhere hpositive
  apply keeps_bind (keeps_renamePath (elsewhere_temporary blobId closed.id) hfinal)
  intro renamed _
  split
  · exact keeps_cleanup hclosed _
  apply keeps_bind (keeps_ask _)
  intro synced _
  split <;> exact keeps_ret hclosed

theorem keeps_uploadCommit {upload : BlobUpload} (hlater : Later blobId upload.id) (hpositive : 0 < blobId) :
    Keeps blobId content (uploadCommit upload) (fun _ => True) := by
  apply keeps_bind (keeps_uploadCommitWithOps hlater hpositive)
  rintro ⟨detailed, committed⟩ hid
  dsimp only at hid ⊢
  split
  · apply keeps_bind (M := fun _ => True)
    · apply keeps_atomic
      intro calls store h
      refine ⟨⟨h.positive, h.blob, ?_, h.persisted⟩, trivial⟩
      dsimp only
      rw [hid, recordCommittedEntry]
      split
      · exact h.next
      · exact Or.inr ⟨Nat.lt_succ_of_lt hlater.1, hlater.2⟩
    · intro _ _
      exact keeps_ret trivial
  split <;> exact keeps_ret trivial

theorem keeps_uploadAbort (upload : BlobUpload) : Keeps blobId content (uploadAbort upload) (fun _ => True) := by
  unfold uploadAbort
  have hunlink : ∀ closed : Option Errno, Keeps blobId content ((unlinkPathIfPresent upload.temporaryPath).bind fun cleanup =>
      .ret (if (OperationResult.success.recordPrimary (closed.elim .none mapIoError)).primaryError = .none
        then (OperationResult.success.recordPrimary (closed.elim .none mapIoError)).recordPrimary cleanup
        else (OperationResult.success.recordPrimary (closed.elim .none mapIoError)).recordCleanup cleanup).error)
      (fun _ => True) := by
    intro closed
    apply keeps_bind (keeps_unlinkPathIfPresent (elsewhere_temporary blobId upload.id))
    intro cleanup _
    exact keeps_ret trivial
  split
  · exact keeps_ret trivial
  split
  · exact keeps_bind (keeps_ask _) fun closed _ => hunlink closed
  · exact keeps_bind (M := fun _ => True) (keeps_ret trivial) fun closed _ => hunlink closed

theorem keeps_abortUncommittedUpload (upload : BlobUpload) (primary : AppError) :
    Keeps blobId content (abortUncommittedUpload upload primary) (fun _ => True) := by
  unfold abortUncommittedUpload
  split
  · exact keeps_ret trivial
  · apply keeps_bind (keeps_uploadAbort upload)
    intro abortError _
    exact keeps_ret trivial

theorem keeps_blobCreate (hpositive : 0 < blobId) (contentLength : Nat) (received : List Received) :
    Keeps blobId content (blobCreate contentLength received) (fun _ => True) := by
  unfold blobCreate
  split
  · exact keeps_ret trivial
  apply keeps_bind (keeps_uploadBegin contentLength)
  intro begun hbegun
  split
  · exact keeps_ret trivial
  next upload =>
    have hlater := hbegun upload rfl
    apply keeps_bind (keeps_streamBody received upload contentLength 0)
    rintro ⟨streamed, streaming⟩ hid
    dsimp only at hid ⊢
    split
    · apply keeps_bind (keeps_abortUncommittedUpload streaming streamed)
      intro error _
      exact keeps_ret trivial
    · apply keeps_bind (keeps_uploadCommit (hid ▸ hlater) hpositive)
      rintro ⟨committed, final⟩ _
      dsimp only
      split
      · apply keeps_bind (keeps_abortUncommittedUpload final committed)
        intro error _
        exact keeps_ret trivial
      · exact keeps_ret trivial

theorem Stored.scanned {store : BlobStore} (h : Stored blobId content store) {calls : FileCalls} {persistedNextId : Nat}
    (hpersisted : persistedNextId ≤ uint64Max) {entries : List BlobEntry} {summary : ScanSummary}
    (hscan : scan calls persistedNextId store.directory = .ok (entries, summary)) :
    Stored blobId content { store with scanState := summary } := by
  obtain ⟨-, hless, hmax, -⟩ := scan_lists hscan h.positive h.le_max h.blob hpersisted
  exact ⟨h.positive, h.blob, Or.inr ⟨hless, hmax⟩, h.persisted⟩

theorem keeps_blobList : Keeps blobId content blobList (fun _ => True) := by
  apply keeps_atomic
  intro calls store h
  refine ⟨?_, trivial⟩
  have hbound : store.scanState.nextId ≤ uint64Max := by
    rcases h.next with hzero | hnext
    · omega
    · exact hnext.2
  split
  · exact h
  next entries summary hscan =>
    split
    · exact h
    · exact h.scanned hbound hscan

theorem keeps_deleteWithOps {other : Nat} (hother : other ≠ blobId) (hmax : other ≤ uint64Max) (hpositive : 0 < blobId)
    (hle : blobId ≤ uint64Max) : Keeps blobId content (deleteWithOps other) (fun _ => True) := by
  unfold deleteWithOps
  split
  · exact keeps_ret trivial
  next hzero =>
    apply keeps_bind (keeps_statPath _)
    intro found _
    split
    · exact keeps_ret trivial
    · exact keeps_ret trivial
    · have hname : Elsewhere blobId (formatFilename other) := by
        intro heq
        exact hother (formatFilename_injective hpositive hle (Nat.pos_of_ne_zero hzero) hmax heq).symm
      apply keeps_bind (keeps_unlinkPath hname)
      intro unlinked _
      split <;> exact keeps_ret trivial

theorem keeps_blobDelete {other : Nat} (hother : other ≠ blobId) (hmax : other ≤ uint64Max) (hpositive : 0 < blobId)
    (hle : blobId ≤ uint64Max) : Keeps blobId content (blobDelete other) (fun _ => True) := by
  apply keeps_bind (keeps_deleteWithOps hother hmax hpositive hle)
  intro result _
  split
  · exact keeps_ret trivial
  · apply keeps_bind (M := fun _ => True)
    · exact keeps_atomic fun _ store h => ⟨h.frame rfl rfl rfl, trivial⟩
    · intro _ _
      apply keeps_bind (keeps_ask _)
      intro synced _
      exact keeps_ret trivial

theorem keeps_recoverEntries (names : List Name) (removed : Nat) :
    Keeps blobId content (recoverEntries names removed) (fun _ => True) := by
  induction names generalizing removed with
  | nil =>
    apply keeps_bind (keeps_ask _)
    intro read _
    exact keeps_ret trivial
  | cons name rest ih =>
    apply keeps_bind (keeps_ask _)
    intro read _
    split
    · exact keeps_ret trivial
    split
    · exact ih removed
    next hname =>
      apply keeps_bind (keeps_statPath name)
      intro found _
      split
      · exact keeps_ret trivial
      · exact ih removed
      · have helsewhere : Elsewhere blobId name := by
          cases hparse : parseTemporaryFilename name with
          | none =>
            rw [hparse] at hname
            exact absurd rfl hname
          | some other =>
            rw [(parseTemporaryFilename_eq_some hparse).1]
            exact elsewhere_temporary blobId other
        apply keeps_bind (keeps_unlinkPath helsewhere)
        intro unlinked _
        split
        · exact keeps_ret trivial
        · exact ih (removed + 1)

theorem keeps_recoverStartup : Keeps blobId content recoverStartup (fun _ => True) := by
  apply keeps_bind (M := fun _ => True)
  · exact keeps_atomic fun _ _ h => ⟨h, trivial⟩
  intro opened _
  split
  · exact keeps_ret trivial
  · apply keeps_bind (keeps_recoverEntries _ 0)
    rintro ⟨result, removed⟩ _
    apply keeps_bind (keeps_ask _)
    intro closed _
    generalize (if ¬ closed = true ∧ result = .none then AppError.io else result) = finished
    dsimp only
    split
    · exact keeps_ret trivial
    · split
      · apply keeps_bind (keeps_ask _)
        intro synced _
        exact keeps_ret trivial
      · exact keeps_bind (M := fun _ => True) (keeps_ret trivial) fun _ _ => keeps_ret trivial

theorem keeps_prepareDirectories : Keeps blobId content prepareDirectories (fun _ => True) := by
  apply keeps_bind keeps_recoverStartup
  intro recovered _
  split
  · exact keeps_ret trivial
  apply keeps_bind (M := fun result => ∀ nextId, result = .ok nextId → nextId ≤ uint64Max)
  · apply keeps_atomic
    intro calls store h
    refine ⟨h, ?_⟩
    obtain ⟨nextId, hnext, -, hmax⟩ := h.persisted
    intro value hvalue
    split at hvalue
    · cases hvalue
    · split at hvalue
      · cases hvalue
      · cases hvalue
        rw [hnext]
        exact hmax
  · intro persisted hpersisted
    split
    · exact keeps_ret trivial
    next nextId =>
      apply keeps_atomic
      intro calls store h
      refine ⟨?_, trivial⟩
      split
      · exact ⟨h.positive, h.blob, Or.inl rfl, h.persisted⟩
      next entries summary hscan => exact h.scanned (hpersisted nextId rfl) hscan

end Keeping

section Operations

/-- What the tasks do with the blobs of a device. -/
inductive BlobOperation
  | create (contentLength : Nat) (received : List Received)
  | list
  | delete (blobId : Nat)
  | deleteAll
  | prepare

def BlobOperation.program : BlobOperation → BlobProg Unit
  | .create contentLength received => (blobCreate contentLength received).bind (fun _ => .ret ())
  | .list => blobList.bind (fun _ => .ret ())
  | .delete blobId => (blobDelete blobId).bind (fun _ => .ret ())
  | .deleteAll => blobDeleteAll.bind (fun _ => .ret ())
  | .prepare => prepareDirectories.bind (fun _ => .ret ())

def BlobOperation.Spares (blobId : Nat) : BlobOperation → Prop
  | .delete other => other ≠ blobId ∧ other ≤ uint64Max
  | .deleteAll => False
  | .create _ _ | .list | .prepare => True

/-- Tasks that do anything with the blobs, step by step, but delete this one. -/
def sparingSystem (blobId : Nat) : System BlobStore FileCalls where
  mayStart _ p := ∃ operation, BlobOperation.Spares blobId operation ∧ p = operation.program
  stopped _ := false

def Rebooted (before after : BlobStore) : Prop := after = { before with scanState := .zero }

def Undisturbed (blobId : Nat) (before after : BlobStore) : Prop :=
  ∃ config, Lifetime (sparingSystem blobId) (fun store => store = before) Rebooted config ∧ config.state = after

theorem keeps_program (hpositive : 0 < blobId) (hmax : blobId ≤ uint64Max) {operation : BlobOperation}
    (hspares : operation.Spares blobId) : Keeps blobId content operation.program (fun _ => True) := by
  cases operation with
  | create contentLength received =>
    exact keeps_bind (keeps_blobCreate hpositive contentLength received) fun _ _ => keeps_ret trivial
  | list => exact keeps_bind keeps_blobList fun _ _ => keeps_ret trivial
  | delete other => exact keeps_bind (keeps_blobDelete hspares.1 hspares.2 hpositive hmax) fun _ _ => keeps_ret trivial
  | deleteAll => exact hspares.elim
  | prepare => exact keeps_bind keeps_prepareDirectories fun _ _ => keeps_ret trivial

theorem Stored.undisturbed {before after : BlobStore} (h : Stored blobId content before)
    (hbetween : Undisturbed blobId before after) : Stored blobId content after := by
  obtain ⟨config, hlifetime, rfl⟩ := hbetween
  have hcompatible : Compatible (fun _ : Nat => storedLogic blobId content) (Stored blobId content) (fun _ => False)
      (fun _ _ => True) :=
    ⟨fun _ => rfl, fun _ => rfl, fun _ _ _ _ _ _ => trivial, fun _ _ _ _ _ _ _ => trivial⟩
  refine (invariant_lifetime hcompatible (fun _ h => h) ?_ ?_ ?_ hlifetime).inv_holds
  · rintro i p ⟨operation, hspares, rfl⟩
    exact keeps_program h.positive h.le_max hspares
  · rintro store rfl
    exact ⟨h, fun _ => trivial⟩
  · rintro store after hstored rfl
    exact ⟨⟨hstored.positive, hstored.blob, Or.inl rfl, hstored.persisted⟩, fun _ => trivial⟩

end Operations

/-- What later answers say of a blob that was created with this content. -/
structure Served (entry : BlobEntry) (content : List UInt8) (store : BlobStore) : Prop where
  loaded : ∀ calls fuel outcome, blobLoadHandler calls fuel entry.id store.directory = some outcome →
    terminated outcome.transcript = true →
      sentBytes outcome.transcript = content ∧ (sentBytes outcome.transcript).length = entry.storedBytes
  listed : ∀ entries after, Runs blobList store (.ok entries) after → ∀ other, other ∈ entries ∧ other.id = entry.id ↔ other = entry

theorem Stored.served {store : BlobStore} (h : Stored blobId content store) : Served ⟨blobId, content.length⟩ content store where
  loaded calls fuel outcome hload hterminated := by
    have hsent := (load_spec hload).2 content h.blob hterminated
    exact ⟨hsent, congrArg List.length hsent⟩
  listed entries after hrun := by
    have hlist : Valid (alone : Logic BlobStore) blobList (fun s => s = store)
        (fun result _ => ∀ entries, result = .ok entries →
          ∀ other, other ∈ entries ∧ other.id = blobId ↔ other = ⟨blobId, content.length⟩) := by
      apply valid_alone_atomic
      rintro calls store rfl entries hentries
      have hbound : store.scanState.nextId ≤ uint64Max := by
        rcases h.next with hzero | hnext
        · omega
        · exact hnext.2
      split at hentries
      · cases hentries
      next scanned summary hscan =>
        split at hentries
        · cases hentries
        · cases hentries
          exact (scan_lists hscan h.positive h.le_max h.blob hbound).1
    exact hrun.post hlist rfl entries rfl

/-- Every upload and every download, whatever its calls answer and however its bytes are cut. -/
theorem upload_download (calls : UploadCalls) (contentLength : Nat) (store : BlobStore)
    (hnext : store.scanState.nextId ≤ uint64Max) :
    (∀ fuel outcome, blobCreateHandler calls fuel contentLength store = some outcome →
      Uploaded contentLength store outcome ∧
      ∀ entry, outcome.answer = .ok entry → ∀ later, Undisturbed entry.id outcome.store later →
        Served entry (receivedBytes outcome.transcript) later) ∧
    (∀ loadCalls fuel blobId directory outcome, blobLoadHandler loadCalls fuel blobId directory = some outcome →
      Loaded outcome) ∧
    (∃ fuel, (blobCreateHandler calls fuel contentLength store).isSome) ∧
    ∀ loadCalls blobId directory, ∃ fuel, (blobLoadHandler loadCalls fuel blobId directory).isSome := by
  refine ⟨?_, ?_, upload_returns calls contentLength store, load_returns⟩
  · intro fuel outcome houtcome
    have huploaded := upload_spec hnext houtcome
    refine ⟨huploaded, ?_⟩
    intro entry hentry later hlater
    obtain ⟨hbytes, hlength, hstored⟩ := huploaded.created entry hentry
    have hserved := (hstored.undisturbed hlater).served
    rwa [hlength, ← hbytes] at hserved
  · intro loadCalls fuel blobId directory outcome houtcome
    exact (load_spec houtcome).1

/-- Nothing fails, and the body comes in one byte at a time with a timeout before the second one. -/
def bytewiseCalls : UploadCalls where
  statFinal := none
  statTemporary := none
  openTemporary := none
  receive n := ⟨if n = 1 then .timeout else .chunk [UInt8.ofNat n], 1, none⟩
  flush := none
  sync := none
  close := none
  statStaged := none
  counter := ⟨none, 0, true, true, fun _ => true, true, fun _ => true, true, true, none, true⟩
  rename := none
  syncParent := none
  cleanup := none
  abortClose := none
  abortUnlink := none

def emptyStore : BlobStore := ⟨∅, none, ⟨0, 0, 0, none, 1⟩⟩

theorem upload_download_bytewise :
    ∃ outcome, blobCreateHandler bytewiseCalls 4 2 emptyStore = some outcome ∧ outcome.answer = .ok ⟨1, 2⟩ ∧
      Uploaded 2 emptyStore outcome ∧ Served ⟨1, 2⟩ (receivedBytes outcome.transcript) outcome.store := by
  have hupload := (upload_download bytewiseCalls 2 emptyStore (by decide)).1 4 _ rfl
  exact ⟨_, rfl, rfl, hupload.1, hupload.2 ⟨1, 2⟩ rfl _ ⟨⟨_, []⟩, .start rfl, rfl⟩⟩

end MacroKeyboard.Blobs.Transfer
