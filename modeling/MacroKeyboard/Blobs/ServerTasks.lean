import MacroKeyboard.Blobs.History
import MacroKeyboard.Blobs.RoundTrip

namespace MacroKeyboard.Blobs.History

open Threads.Program Threads.RelyGuarantee Threads.Turns Transfer Requests

variable {α : Type}

section Erasing

theorem erases_ask (f : FileCalls → α) : Always Erased (.ask f : BlobProg α) :=
  always_atomic fun _ store => Erased.refl store

theorem erases_statPath (name : Name) : Always Erased (statPath name) := always_atomic fun _ store => Erased.refl store

theorem erases_requirePathAbsent (name : Name) : Always Erased (requirePathAbsent name) := by
  apply always_bind (erases_statPath name)
  intro found
  split <;> trivial

theorem erases_unlinkPath (name : Name) : Always Erased (unlinkPath name) := by
  apply always_atomic
  intro calls store
  split
  · exact Erased.refl store
  · exact Erased.refl store
  · exact ⟨within_erase name store.directory, rfl, rfl⟩

theorem erases_unlinkPathIfPresent (name : Name) : Always Erased (unlinkPathIfPresent name) := by
  apply always_bind (erases_unlinkPath name)
  intro result
  split <;> trivial

theorem erases_cleanupFailure (name : Name) (primary : AppError) : Always Erased (cleanupFailure name primary) :=
  always_bind (erases_unlinkPathIfPresent name) fun _ => trivial

theorem erases_uploadAbort (upload : BlobUpload) : Always Erased (uploadAbort upload) := by
  unfold uploadAbort
  split
  · trivial
  · split
    · exact always_bind (erases_ask _) fun _ => always_bind (erases_unlinkPathIfPresent _) fun _ => trivial
    · exact always_bind trivial fun _ => always_bind (erases_unlinkPathIfPresent _) fun _ => trivial

theorem erases_abortUncommittedUpload (upload : BlobUpload) (primary : AppError) :
    Always Erased (abortUncommittedUpload upload primary) := by
  unfold abortUncommittedUpload
  split
  · trivial
  · exact always_bind (erases_uploadAbort upload) fun _ => trivial

theorem erases_deleteWithOps (blobId : Nat) : Always Erased (deleteWithOps blobId) := by
  unfold deleteWithOps
  split
  · trivial
  · apply always_bind (erases_statPath _)
    intro found
    split
    · trivial
    · trivial
    · apply always_bind (erases_unlinkPath _)
      intro unlinked
      split <;> trivial

theorem erases_recordDeleted (count : Nat) : Always Erased (recordDeleted count) := by
  apply always_atomic
  intro _ store
  exact ⟨fun _ _ h => h, recordDeletedEntry_nextId count store.scanState, rfl⟩

theorem erases_blobDelete (blobId : Nat) : Always Erased (blobDelete blobId) := by
  apply always_bind (erases_deleteWithOps blobId)
  intro result
  split
  · trivial
  · exact always_bind (erases_recordDeleted 1) fun _ => always_bind (erases_ask _) fun _ => trivial

theorem erases_deleteEntries (entries : List BlobEntry) (firstError : AppError) (deletedCount : Nat) :
    Always Erased (deleteEntries entries firstError deletedCount) := by
  induction entries generalizing firstError deletedCount with
  | nil => trivial
  | cons entry rest ih =>
    apply always_bind (erases_deleteWithOps entry.id)
    intro result
    split <;> apply ih

theorem erases_deleted (result : AppError) (deletedCount : Nat) :
    Always Erased (do
      recordDeleted deletedCount
      let synced ← if deletedCount > 0 then syncParent else pure none
      pure (if synced.isSome ∧ result = .none then .io else result) : BlobProg AppError) := by
  apply always_bind (erases_recordDeleted deletedCount)
  intro _
  dsimp only
  split
  · exact always_bind (erases_ask _) fun _ => trivial
  · trivial

theorem erases_blobDeleteAll : Always Erased blobDeleteAll := by
  apply always_bind (always_atomic fun _ store => Erased.refl store)
  intro scanned
  cases scanned with
  | error error => exact erases_deleted error 0
  | ok result => exact always_bind (erases_deleteEntries _ _ _) fun deleted => erases_deleted deleted.1 deleted.2

theorem erases_recoverEntries (names : List Name) (removed : Nat) : Always Erased (recoverEntries names removed) := by
  induction names generalizing removed with
  | nil => exact always_bind (erases_ask _) fun _ => trivial
  | cons name rest ih =>
    apply always_bind (erases_ask _)
    intro read
    split
    · trivial
    split
    · apply ih
    · apply always_bind (erases_statPath name)
      intro found
      split
      · trivial
      · apply ih
      · apply always_bind (erases_unlinkPath name)
        intro unlinked
        split
        · trivial
        · apply ih

theorem erases_recoverStartup : Always Erased recoverStartup := by
  apply always_bind (always_atomic fun _ store => Erased.refl store)
  intro opened
  split
  · trivial
  · apply always_bind (erases_recoverEntries _ 0)
    rintro ⟨result, removed⟩
    apply always_bind (erases_ask _)
    intro closed
    generalize (if ¬ closed = true ∧ result = .none then AppError.io else result) = finished
    dsimp only
    split
    · trivial
    · split
      · exact always_bind (erases_ask _) fun _ => trivial
      · exact always_bind trivial fun _ => trivial

end Erasing

section Logic

/-- What the server proves against: the others only erase. -/
def serverLogic (whole : List UInt8 → Prop) : Logic BlobStore where
  inv := Bounded
  halt _ := False
  rely := Erased
  guar before after := ServerStep whole before after ∧ Bounded after

/-- What the other tasks prove, whatever the server does. -/
def eraserLogic : Logic BlobStore where
  inv := Bounded
  halt _ := False
  rely _ _ := True
  guar := Erased

variable {whole : List UInt8 → Prop} {nextId : Nat}

abbrev Lasts (whole : List UInt8 → Prop) (P : BlobStore → Prop) : Prop := Stable (serverLogic whole) P

def Serves (nextId : Nat) (store : BlobStore) : Prop := store.scanState.nextId = nextId

def Holds (name : Name) (content : List UInt8) (store : BlobStore) : Prop :=
  ∀ node, store.directory.lookup name = some node → node = .file content

theorem lasts_serves : Lasts whole (Serves nextId) := fun _ _ _ _ herased h => herased.nextId.trans h

theorem lasts_serving : Lasts whole (fun store => store.scanState.nextId ≠ 0) := by
  intro store after _ _ herased h
  rw [herased.nextId]
  exact h

theorem lasts_holds (name : Name) (content : List UInt8) : Lasts whole (Holds name content) :=
  fun _ _ _ _ herased h node hlookup => h node (herased.within name node hlookup)

theorem lasts_counter (counter : Option Nat) : Lasts whole (fun store => store.persistedNextId = counter) :=
  fun _ _ _ _ herased h => herased.counter.trans h

theorem lasts_and {P Q : BlobStore → Prop} (hP : Lasts whole P) (hQ : Lasts whole Q) :
    Lasts whole (fun store => P store ∧ Q store) :=
  fun s s' hs hs' herased h => ⟨hP s s' hs hs' herased h.1, hQ s s' hs hs' herased h.2⟩

theorem lasts_imp {p : Prop} {P : BlobStore → Prop} (hP : Lasts whole P) : Lasts whole (fun store => p → P store) :=
  fun s s' hs hs' herased h hp => hP s s' hs hs' herased (h hp)

theorem lasts_const {p : Prop} : Lasts whole (fun _ => p) := fun _ _ _ _ _ h => h

theorem valid_erases {P : BlobStore → Prop} (hP : Lasts whole P) {p : BlobProg α} (h : Always Erased p) :
    Valid (serverLogic whole) p P (fun _ => P) := by
  apply valid_of_always hP _ h
  intro store after hbounded hPs herased
  have hafter := herased.bounded hbounded
  exact ⟨hafter, ⟨.erased herased, hafter⟩, hP store after hbounded hafter herased hPs⟩

theorem valid_eraser {p : BlobProg α} (h : Always Erased p) :
    Valid eraserLogic p (fun _ => True) (fun _ _ => True) := by
  apply valid_of_always (P := fun _ => True) (fun _ _ _ _ _ _ => trivial) _ h
  exact fun _ _ hbounded _ herased => ⟨herased.bounded hbounded, herased, trivial⟩

theorem valid_step {f : FileCalls → BlobStore → α × BlobStore} {P : BlobStore → Prop} {Q : α → BlobStore → Prop}
    (hQ : ∀ a, Lasts whole (Q a))
    (h : ∀ calls store, Bounded store → P store → (Bounded (f calls store).2 ∧ ServerStep whole store (f calls store).2) ∧
      Q (f calls store).1 (f calls store).2) : Valid (serverLogic whole) (.atomic f) P Q := by
  apply valid_atomic hQ
  intro calls store hbounded hP
  obtain ⟨⟨hafter, hstep⟩, hpost⟩ := h calls store hbounded hP
  exact ⟨hafter, ⟨hstep, hafter⟩, hpost⟩

end Logic

section Upload

variable {whole : List UInt8 → Prop} {nextId : Nat}

structure Fresh (nextId : Nat) (upload : BlobUpload) : Prop where
  id : upload.id = nextId
  room : nextId ≠ uint64Max
  stream : upload.stream = []

theorem valid_openTemporary (nextId : Nat) : Valid (serverLogic whole) (openTemporary (formatTemporaryFilename nextId))
    (Serves nextId) (fun _ => Serves nextId) := by
  apply valid_step fun _ => lasts_serves
  intro calls store hbounded hserves
  split
  · exact ⟨⟨hbounded, .erased (Erased.refl store)⟩, hserves⟩
  · exact ⟨⟨hbounded, .erased (Erased.refl store)⟩, hserves⟩
  · exact ⟨⟨⟨hbounded.counter, hbounded.nextId⟩, .staged (sameBlobs_insert nextId _ _) rfl rfl⟩, hserves⟩

theorem valid_uploadBeginWithId (nextId expectedBytes : Nat) :
    Valid (serverLogic whole) (uploadBeginWithId nextId expectedBytes) (Serves nextId)
      (fun result store => (∀ upload, result = .ok upload → Fresh nextId upload) ∧ Serves nextId store) := by
  have hrefused : ∀ error : AppError, Valid (serverLogic whole) (.ret (.error error) : BlobProg (Except AppError BlobUpload))
      (Serves nextId) (fun result store => (∀ upload, result = .ok upload → Fresh nextId upload) ∧ Serves nextId store) :=
    fun _ => valid_ret fun _ _ h => ⟨nofun, h⟩
  unfold uploadBeginWithId
  split
  · exact hrefused _
  split
  · exact hrefused _
  next hroom =>
    apply valid_bind (valid_erases lasts_serves (erases_requirePathAbsent _))
    intro finalAbsent
    split
    · exact hrefused _
    apply valid_bind (valid_erases lasts_serves (erases_requirePathAbsent _))
    intro temporaryAbsent
    split
    · exact hrefused _
    apply valid_bind (valid_openTemporary nextId)
    intro opened
    split
    · exact hrefused _
    · apply valid_ret
      intro store _ h
      refine ⟨?_, h⟩
      rintro upload hupload
      rw [← Except.ok.inj hupload]
      exact ⟨rfl, hroom, rfl⟩

def Written (upload : BlobUpload) (data : List UInt8) (result : AppError × BlobUpload) : Prop :=
  result.2.id = upload.id ∧ (result.1 = .none → result.2.stream = upload.stream ++ data)

theorem valid_uploadWrite {P : BlobStore → Prop} (hP : Lasts whole P) (upload : BlobUpload) (data : List UInt8) :
    Valid (serverLogic whole) (uploadWrite upload data) P (fun result store => Written upload data result ∧ P store) := by
  unfold uploadWrite
  split
  · exact valid_ret fun _ _ h => ⟨⟨rfl, nofun⟩, h⟩
  · apply valid_bind (M := fun taken store => (∃ count, taken = data.take count) ∧ P store)
    · apply valid_step fun _ => lasts_and lasts_const hP
      intro calls store hbounded h
      exact ⟨⟨hbounded, .erased (Erased.refl store)⟩, ⟨_, rfl⟩, h⟩
    · intro taken
      apply valid_pure_and
      rintro ⟨count, rfl⟩
      dsimp only
      split
      · apply valid_bind (valid_erases hP (erases_ask _))
        intro fault
        exact valid_ret fun _ _ h => ⟨⟨rfl, fun hnone => absurd hnone (mapIoError_ne_none _)⟩, h⟩
      next hwhole =>
        rw [not_not, List.length_take, min_eq_right_iff] at hwhole
        exact valid_ret fun _ _ h => ⟨⟨rfl, fun _ => congrArg _ (List.take_of_length_le hwhole)⟩, h⟩

/-- A body that is streamed: when it comes in whole, the stream has grown by it. -/
def Streamed (upload : BlobUpload) (received : List Received) (remaining : Nat) (result : AppError × BlobUpload) : Prop :=
  result.2.id = upload.id ∧
    (result.1 = .none → ∃ body, wholeBody received remaining = some body ∧ result.2.stream = upload.stream ++ body)

theorem streamed_nothing (upload : BlobUpload) (received : List Received) : Streamed upload received 0 (.none, upload) := by
  refine ⟨rfl, fun _ => ⟨[], ?_, (List.append_nil _).symm⟩⟩
  unfold wholeBody
  cases received with
  | nil => rfl
  | cons first rest => cases first <;> rfl

theorem valid_streamBody {P : BlobStore → Prop} (hP : Lasts whole P) (received : List Received) (upload : BlobUpload)
    (remaining timeouts : Nat) :
    Valid (serverLogic whole) (streamBody received upload remaining timeouts) P
      (fun result store => Streamed upload received remaining result ∧ P store) := by
  induction received generalizing upload remaining timeouts with
  | nil =>
    cases remaining with
    | zero => exact valid_ret fun _ _ h => ⟨streamed_nothing upload [], h⟩
    | succ remaining => exact valid_ret fun _ _ h => ⟨⟨rfl, fun hnone => by cases hnone⟩, h⟩
  | cons first rest ih =>
    cases remaining with
    | zero => cases first <;> exact valid_ret fun _ _ h => ⟨streamed_nothing upload _, h⟩
    | succ remaining =>
      cases first with
      | failed => exact valid_ret fun _ _ h => ⟨⟨rfl, fun hnone => by cases hnone⟩, h⟩
      | timeout =>
        unfold streamBody
        split
        · exact valid_ret fun _ _ h => ⟨⟨rfl, fun hnone => by cases hnone⟩, h⟩
        · exact ih upload (remaining + 1) (timeouts + 1)
      | chunk data =>
        unfold streamBody
        split
        · exact valid_ret fun _ _ h => ⟨⟨rfl, fun hnone => by cases hnone⟩, h⟩
        next hfits =>
          apply valid_bind (valid_uploadWrite hP upload data)
          rintro ⟨result, written⟩
          apply valid_pure_and
          intro hwritten
          dsimp only
          split
          next herror => exact valid_ret fun _ _ h => ⟨⟨hwritten.1, fun hnone => absurd hnone herror⟩, h⟩
          next hnone =>
            apply (ih written (remaining + 1 - data.length) 0).post
            rintro ended store _ ⟨hended, h⟩
            refine ⟨⟨hended.1.trans hwritten.1, fun hsuccess => ?_⟩, h⟩
            obtain ⟨body, hbody, hstream⟩ := hended.2 hsuccess
            refine ⟨data ++ body, ?_, ?_⟩
            · rw [wholeBody, if_neg, hbody]
              · rfl
              · rintro (hzero | hlong)
                · exact hfits (Or.inl hzero)
                · exact hfits (Or.inr (lt_of_le_of_lt (min_le_left _ _) hlong))
            · rw [hstream, hwritten.2 (not_not.mp hnone), List.append_assoc]

/-- What a closed stream leaves: the file has its bytes, if closing it worked. -/
theorem valid_closeStagedStream (upload : BlobUpload) :
    Valid (serverLogic whole) (closeStagedStream upload) (Serves upload.id) (fun result store =>
      result.2 = { upload with active := false } ∧ Serves upload.id store ∧
        (result.1 = .none → Holds upload.temporaryPath upload.stream store)) := by
  have hclose : ∀ flushed synced : Option Errno, Valid (serverLogic whole)
      (do
        let closed ← callStream
        let fault := (flushed.or synced).or closed
        pure (fault.elim .none mapIoError, { upload with active := false }))
      (fun store => Serves upload.id store ∧ (flushed.or synced = none → Holds upload.temporaryPath upload.stream store))
      (fun result store => result.2 = { upload with active := false } ∧ Serves upload.id store ∧
        (result.1 = .none → Holds upload.temporaryPath upload.stream store)) := by
    intro flushed synced
    apply valid_bind (valid_erases (lasts_and lasts_serves (lasts_imp (lasts_holds _ _))) (erases_ask _))
    intro closed
    apply valid_ret
    rintro store _ ⟨hserves, hholds⟩
    refine ⟨rfl, hserves, fun hnone => hholds ?_⟩
    cases hfault : flushed.or synced with
    | none => rfl
    | some fault =>
      rw [hfault] at hnone
      exact absurd hnone (mapIoError_ne_none fault)
  unfold closeStagedStream
  apply valid_bind (valid_erases lasts_serves (erases_ask _))
  intro flushed
  cases flushed with
  | some fault => exact (hclose (some fault) none).pre fun _ _ h => ⟨h, nofun⟩
  | none =>
    apply valid_bind (M := fun synced store => Serves upload.id store ∧
      (synced = none → Holds upload.temporaryPath upload.stream store)) _ (hclose none)
    apply valid_step fun _ => lasts_and lasts_serves (lasts_imp (lasts_holds _ _))
    intro calls store hbounded h
    split
    · exact ⟨⟨hbounded, .erased (Erased.refl store)⟩, h, nofun⟩
    · refine ⟨⟨⟨hbounded.counter, hbounded.nextId⟩, .staged (sameBlobs_insert upload.id _ _) rfl rfl⟩, h, ?_⟩
      intro _ node hlookup
      rw [BlobUpload.temporaryPath, AList.lookup_insert] at hlookup
      exact (Option.some.inj hlookup).symm

/-- The counter goes one beyond the identifier that is given next. -/
theorem valid_persistNextId (hserving : nextId ≠ 0) (hroom : nextId ≠ uint64Max) {P : BlobStore → Prop}
    (hP : Lasts whole P) (hcounter : ∀ store counter, P store → P { store with persistedNextId := counter }) :
    Valid (serverLogic whole) (persistNextId (nextId + 1)) (fun store => Serves nextId store ∧ P store)
      (fun result store => Serves nextId store ∧ P store ∧
        (result = .none → store.persistedNextId = some (nextId + 1))) := by
  apply valid_step fun _ => lasts_and lasts_serves (lasts_and hP (lasts_imp (lasts_counter _)))
  rintro calls store hbounded ⟨hserves, h⟩
  have hsame : (Bounded store ∧ ServerStep whole store store) := ⟨hbounded, .erased (Erased.refl store)⟩
  have hcounted : Bounded { store with persistedNextId := some (nextId + 1) } ∧
      ServerStep whole store { store with persistedNextId := some (nextId + 1) } := by
    have hlimit : nextId ≤ uint64Max := hserves ▸ hbounded.nextId
    refine ⟨⟨?_, hbounded.nextId⟩, .counted rfl rfl ?_ ?_⟩
    · rintro _ ⟨⟩
      omega
    · exact fun hzero => hserving (hserves.symm.trans hzero)
    · rw [show store.scanState.nextId = nextId from hserves]
  by_cases hopen : ¬ calls.counterOpen = true
  · rw [if_pos hopen]
    exact ⟨hsame, hserves, h, nofun⟩
  · rw [if_neg hopen]
    cases calls.counterFault with
    | none => exact ⟨hcounted, hserves, hcounter _ _ h, fun _ => rfl⟩
    | some fault =>
      have hfailed : (if fault = .notEnoughSpace then AppError.storageFull else .storageUnavailable) ≠ .none := by
        split <;> exact nofun
      dsimp only
      split
      · exact ⟨hcounted, hserves, hcounter _ _ h, fun hnone => absurd hnone hfailed⟩
      · exact ⟨hsame, hserves, h, fun hnone => absurd hnone hfailed⟩

theorem valid_renamePath (hserving : nextId ≠ 0) {content : List UInt8} (hwhole : whole content) :
    Valid (serverLogic whole) (renamePath (formatTemporaryFilename nextId) (formatFilename nextId))
      (fun store => Serves nextId store ∧ Holds (formatTemporaryFilename nextId) content store ∧
        store.persistedNextId = some (nextId + 1)) (fun _ => Serves nextId) := by
  apply valid_step fun _ => lasts_serves
  rintro calls store hbounded ⟨hserves, hholds, hcounter⟩
  have hsame : (Bounded store ∧ ServerStep whole store store) := ⟨hbounded, .erased (Erased.refl store)⟩
  have hid : store.scanState.nextId = nextId := hserves
  split
  · exact ⟨hsame, hserves⟩
  · exact ⟨hsame, hserves⟩
  next node _ hlookup =>
    rw [hholds node hlookup]
    refine ⟨⟨⟨hbounded.counter, hbounded.nextId⟩, .activated hwhole ?_ rfl rfl ?_ ?_ ?_⟩, hserves⟩
    · rwa [hid]
    · rw [hid]
      exact hcounter
    · rw [hid]
      exact AList.lookup_insert _
    · intro name hne hname
      rw [hid] at hne
      exact (AList.lookup_insert_ne hne).trans (AList.lookup_erase_ne (name_ne_temporary hname nextId))

theorem valid_uploadCommitWithOps {upload : BlobUpload} (hserving : upload.id ≠ 0) (hwhole : whole upload.stream) :
    Valid (serverLogic whole) (uploadCommitWithOps upload) (Serves upload.id)
      (fun result store => result.2.id = upload.id ∧ Serves upload.id store) := by
  have hcleanup : ∀ (staged : BlobUpload) (error : AppError), staged.id = upload.id →
      Valid (serverLogic whole) ((cleanupFailure staged.temporaryPath error).bind fun result => .ret (result, staged))
        (Serves upload.id) (fun result store => result.2.id = upload.id ∧ Serves upload.id store) := by
    intro staged error hid
    apply valid_bind (valid_erases lasts_serves (erases_cleanupFailure _ error))
    intro result
    exact valid_ret fun _ _ h => ⟨hid, h⟩
  unfold uploadCommitWithOps
  split
  · exact valid_ret fun _ _ h => ⟨rfl, h⟩
  split
  · exact valid_ret fun _ _ h => ⟨rfl, h⟩
  next hroom =>
    apply valid_bind (valid_closeStagedStream upload)
    rintro ⟨staged, closed⟩
    apply valid_pure_and
    rintro rfl
    have hstaged : Lasts whole (fun store => Serves upload.id store ∧
        (staged = .none → Holds upload.temporaryPath upload.stream store)) :=
      lasts_and lasts_serves (lasts_imp (lasts_holds _ _))
    dsimp only
    split
    · refine (hcleanup { upload with active := false } staged rfl).pre ?_
      exact fun _ _ h => h.1
    next hnone =>
      rw [not_not] at hnone
      apply valid_bind (valid_erases hstaged (erases_requirePathAbsent _))
      intro finalAbsent
      split
      · refine (hcleanup { upload with active := false } finalAbsent rfl).pre ?_
        exact fun _ _ h => h.1
      apply valid_bind ((valid_persistNextId hserving hroom (lasts_holds upload.temporaryPath upload.stream)
        fun _ _ h => h).pre fun _ _ h => ⟨h.1, h.2 hnone⟩)
      intro persisted
      split
      · refine (hcleanup { upload with active := false } persisted rfl).pre ?_
        exact fun _ _ h => h.1
      next hpersisted =>
        apply valid_bind ((valid_renamePath hserving hwhole).pre fun _ _ h => ⟨h.1, h.2.1, h.2.2 (not_not.mp hpersisted)⟩)
        intro renamed
        split
        · exact hcleanup { upload with active := false } _ rfl
        apply valid_bind (valid_erases lasts_serves (erases_ask _))
        intro synced
        split <;> exact valid_ret fun _ _ h => ⟨rfl, h⟩

abbrev Serving (store : BlobStore) : Prop := store.scanState.nextId ≠ 0

theorem valid_uploadCommit {upload : BlobUpload} (hserving : upload.id ≠ 0) (hroom : upload.id ≠ uint64Max)
    (hwhole : whole upload.stream) :
    Valid (serverLogic whole) (uploadCommit upload) (Serves upload.id) (fun _ => Serving) := by
  apply valid_bind (valid_uploadCommitWithOps hserving hwhole)
  rintro ⟨detailed, committed⟩
  apply valid_pure_and
  intro hid
  have hstays : ∀ store, Serves upload.id store → Serving store := by
    intro store hserves hzero
    exact hserving (hserves.symm.trans hzero)
  dsimp only at hid ⊢
  split
  · apply valid_bind (M := fun _ => Serving)
    · apply valid_step fun _ => lasts_serving
      intro calls store hbounded hserves
      have hless : upload.id + 1 ≤ uint64Max := by
        have hlimit : upload.id ≤ uint64Max := hserves ▸ hbounded.nextId
        omega
      have hnext : (recordCommittedEntry committed.id store.scanState).nextId = store.scanState.nextId + 1 := by
        rw [hid, recordCommittedEntry, if_neg (not_or.mpr ⟨hserving, hroom⟩)]
        exact congrArg (· + 1) hserves.symm
      refine ⟨⟨⟨hbounded.counter, ?_⟩, .advanced rfl rfl ?_ ?_⟩, ?_⟩
      · rw [hnext, show store.scanState.nextId = upload.id from hserves]
        exact hless
      · exact fun hzero => absurd hzero (hstays store hserves)
      · intro _
        rw [hnext]
        exact Nat.le_succ _
      · exact fun hzero => Nat.succ_ne_zero _ (hnext.symm.trans hzero)
    · intro _
      exact valid_ret fun _ _ h => h
  · split <;> exact valid_ret fun store _ h => hstays store h

theorem valid_blobCreate (contentLength : Nat) (received : List Received)
    (hwhole : ∀ content, wholeBody received contentLength = some content → whole content) :
    Valid (serverLogic whole) (blobCreate contentLength received) Serving (fun _ => Serving) := by
  unfold blobCreate
  split
  · exact valid_ret fun _ _ h => h
  apply valid_bind (M := fun result store => ∃ nextId, nextId ≠ 0 ∧
    (∀ upload, result = .ok upload → Fresh nextId upload) ∧ Serves nextId store)
  · apply valid_bind (M := fun nextId store => nextId ≠ 0 ∧ Serves nextId store)
    · apply valid_step fun _ => lasts_and lasts_const lasts_serves
      exact fun _ store hbounded h => ⟨⟨hbounded, .erased (Erased.refl store)⟩, h, rfl⟩
    · intro nextId
      apply valid_pure_and
      intro hserving
      exact (valid_uploadBeginWithId nextId contentLength).post fun _ _ _ h => ⟨nextId, hserving, h⟩
  · intro begun
    apply valid_exists
    intro nextId
    apply valid_pure_and
    intro hserving
    apply valid_pure_and
    intro hfresh
    have hstays : ∀ store, Serves nextId store → Serving store := by
      intro store hserves hzero
      exact hserving (hserves.symm.trans hzero)
    split
    · exact valid_ret fun store _ h => hstays store h
    next upload =>
      obtain ⟨hid, hroom, hempty⟩ := hfresh upload rfl
      apply valid_bind (valid_streamBody lasts_serves received upload contentLength 0)
      rintro ⟨streamed, streaming⟩
      apply valid_pure_and
      rintro ⟨hsame, hbody⟩
      dsimp only at hsame hbody ⊢
      split
      · apply valid_bind ((valid_erases lasts_serving (erases_abortUncommittedUpload streaming streamed)).pre
          fun store _ h => hstays store h)
        intro error
        exact valid_ret fun _ _ h => h
      next hnone =>
        obtain ⟨body, hwholeBody, hstream⟩ := hbody (not_not.mp hnone)
        rw [hempty, List.nil_append] at hstream
        rw [hid] at hsame
        have hcommit : Valid (serverLogic whole) (uploadCommit streaming) (Serves nextId) (fun _ => Serving) := by
          rw [← hsame] at hserving hroom ⊢
          exact valid_uploadCommit hserving hroom (hstream ▸ hwhole body hwholeBody)
        apply valid_bind hcommit
        rintro ⟨committed, final⟩
        dsimp only
        split
        · apply valid_bind (valid_erases lasts_serving (erases_abortUncommittedUpload final committed))
          intro error
          exact valid_ret fun _ _ h => h
        · exact valid_ret fun _ _ h => h

end Upload

section Scans

variable {whole : List UInt8 → Prop}

theorem scan_nextId {calls : FileCalls} {persistedNextId : Nat} {directory : Directory} {entries : List BlobEntry}
    {summary : ScanSummary} (h : scan calls persistedNextId directory = .ok (entries, summary)) :
    persistedNextId ≤ summary.nextId ∧ 0 < summary.nextId ∧
      (persistedNextId ≤ uint64Max → summary.nextId ≤ uint64Max) := by
  unfold scan at h
  split at h
  · cases h
  cases hscan : scanDirectoryEntries calls (listing directory) [] .zero with
  | error error =>
    rw [hscan] at h
    cases h
  | ok scanned =>
    obtain ⟨found, scannedSummary⟩ := scanned
    rw [hscan] at h
    dsimp only at h
    split at h
    · cases h
    have hstart : Found [] ScanSummary.zero := ⟨fun _ hmem => absurd hmem List.not_mem_nil, nofun⟩
    have hfound := (scanDirectoryEntries_spec (listing directory) hstart hscan).1
    cases hnext : deriveNextId persistedNextId scannedSummary.maxId with
    | error error =>
      rw [hnext] at h
      cases h
    | ok nextId =>
      rw [hnext] at h
      cases h
      obtain ⟨hbeyond, hpositive, -⟩ := ScanReport.deriveNextId_ok hnext
      refine ⟨hbeyond, hpositive, fun hlimit => ?_⟩
      have hone : 1 ≤ uint64Max := by decide
      unfold deriveNextId at hnext
      cases hmax : scannedSummary.maxId with
      | none =>
        rw [hmax] at hnext
        cases hnext
        dsimp only
        split <;> omega
      | some maxId =>
        have hbound := hfound.bounded maxId hmax
        rw [hmax] at hnext
        dsimp only at hnext
        split_ifs at hnext
        all_goals
          cases hnext
          dsimp only
          omega

theorem processDirectoryEntry_error {calls : FileCalls} {name : Name} {node : Node} {entries : List BlobEntry}
    {summary : ScanSummary} {error : AppError} (h : processDirectoryEntry calls name node entries summary = .error error) :
    error ≠ .none := by
  unfold processDirectoryEntry at h
  repeat' split at h
  all_goals
    cases h
    try exact nofun

theorem scanDirectoryEntries_error {calls : FileCalls} {listed : List (Name × Node)} {entries : List BlobEntry}
    {summary : ScanSummary} {error : AppError} (h : scanDirectoryEntries calls listed entries summary = .error error) :
    error ≠ .none := by
  induction listed generalizing entries summary with
  | nil =>
    unfold scanDirectoryEntries at h
    split at h <;> cases h
    intro hnone
    cases hnone
  | cons file rest ih =>
    unfold scanDirectoryEntries at h
    split at h
    · cases h
      intro hnone
      cases hnone
    · cases hprocess : processDirectoryEntry calls file.1 file.2 entries summary with
      | error failure =>
        rw [hprocess] at h
        cases h
        exact processDirectoryEntry_error hprocess
      | ok processed =>
        rw [hprocess] at h
        exact ih h

theorem scan_error {calls : FileCalls} {persistedNextId : Nat} {directory : Directory} {error : AppError}
    (h : scan calls persistedNextId directory = .error error) : error ≠ .none := by
  unfold scan at h
  split at h
  · cases h
    exact nofun
  · split at h
    next herror =>
      cases h
      exact scanDirectoryEntries_error herror
    · split at h
      · cases h
        exact nofun
      · split at h
        next herror =>
          cases h
          unfold deriveNextId at herror
          dsimp only at herror
          repeat' split at herror
          all_goals
            cases herror
            try exact nofun
        · cases h

theorem valid_blobList : Valid (serverLogic whole) blobList Serving (fun _ => Serving) := by
  apply valid_step fun _ => lasts_serving
  intro calls store hbounded hserving
  have hsame : Bounded store ∧ ServerStep whole store store := ⟨hbounded, .erased (Erased.refl store)⟩
  split
  · exact ⟨hsame, hserving⟩
  next entries summary hscan =>
    split
    · exact ⟨hsame, hserving⟩
    · obtain ⟨hgrows, hpositive, hlimit⟩ := scan_nextId hscan
      refine ⟨⟨⟨hbounded.counter, hlimit hbounded.nextId⟩, .advanced rfl rfl ?_ fun _ => hgrows⟩, hpositive.ne'⟩
      exact fun hzero => absurd hzero hserving

/-- A server that is prepared has a next identifier that is not behind the counter. -/
theorem valid_prepareDirectories :
    Valid (serverLogic whole) prepareDirectories (Serves 0) (fun result store => result = .none → Serving store) := by
  apply valid_bind (valid_erases lasts_serves erases_recoverStartup)
  intro recovered
  split
  next herror => exact valid_ret fun _ _ _ hnone => absurd hnone herror
  apply valid_bind (M := fun result store => (∀ error, result = .error error → error ≠ .none) ∧
    (∀ counter, result = .ok counter → store.persistedNextId.getD 0 = counter) ∧ Serves 0 store)
  · have hlasts : ∀ result : Except AppError Nat,
        Lasts whole (fun store => ∀ counter, result = .ok counter → store.persistedNextId.getD 0 = counter) := by
      intro result store after _ _ herased h counter hresult
      rw [herased.counter]
      exact h counter hresult
    apply valid_step fun result => lasts_and lasts_const (lasts_and (hlasts result) lasts_serves)
    intro calls store hbounded h
    refine ⟨⟨hbounded, .erased (Erased.refl store)⟩, ?_, ?_, h⟩
    · intro error hresult
      split at hresult
      · cases hresult
        exact nofun
      · split at hresult
        · cases hresult
          exact nofun
        · cases hresult
    · intro counter hresult
      split at hresult
      · cases hresult
      · split at hresult
        · cases hresult
        · exact Except.ok.inj hresult
  · intro persisted
    apply valid_pure_and
    intro herrors
    split
    next error => exact valid_ret fun _ _ _ hnone => absurd hnone (herrors error rfl)
    next counter =>
      apply valid_step fun _ => lasts_imp lasts_serving
      rintro calls store hbounded ⟨hcounter, hidle⟩
      have hcounted := hcounter counter rfl
      have hlimit : counter ≤ uint64Max := by
        rw [← hcounted]
        cases hpersisted : store.persistedNextId with
        | none => exact Nat.zero_le _
        | some nextId => exact hbounded.counter nextId hpersisted
      split
      next error herror =>
        refine ⟨⟨⟨hbounded.counter, Nat.zero_le _⟩, .advanced rfl rfl (fun _ => Or.inl rfl) ?_⟩, ?_⟩
        · exact fun hserving => absurd hidle hserving
        · exact fun hnone => absurd hnone (scan_error herror)
      next entries summary hscan =>
        obtain ⟨hgrows, hpositive, hbelow⟩ := scan_nextId hscan
        refine ⟨⟨⟨hbounded.counter, hbelow hlimit⟩, .advanced rfl rfl (fun _ => Or.inr ?_) ?_⟩, fun _ => hpositive.ne'⟩
        · exact hcounted.le.trans hgrows
        · exact fun hserving => absurd hidle hserving

end Scans

end MacroKeyboard.Blobs.History
