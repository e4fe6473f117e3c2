import MacroKeyboard.Blobs.ServerTasks

namespace MacroKeyboard.Blobs.History

open Threads.Program Threads.RelyGuarantee Threads.Restarts Threads.Turns Transfer

variable {first : Directory}

structure Beside (before after : BlobHistory) : Prop where
  erased : Erased before.store after.store
  uploads : after.uploads = before.uploads

/-- Task 0 is the server, which the other tasks do not rely on. -/
def historyLogic (first : Directory) (i : Nat) : Logic BlobHistory where
  inv := Kept first
  halt _ := False
  rely before after := i = 0 → Beside before after
  guar before after := i ≠ 0 → Beside before after

section Server

/-- What is valid of a program over the store is valid of the server that runs it for one
of its requests. -/
theorem valid_onStore {α : Type} (whole : List UInt8 → Prop) (requested : List (Nat × List Received) → Prop)
    (hwhole : ∀ uploads content, requested uploads → whole content →
      ∃ upload ∈ uploads, wholeBody upload.2 upload.1 = some content)
    {p : BlobProg α} {P : BlobStore → Prop} {Q : α → BlobStore → Prop} (h : Valid (serverLogic whole) p P Q) :
    Valid (historyLogic first 0) (onStore p) (fun history => requested history.uploads ∧ P history.store)
      (fun a history => requested history.uploads ∧ Q a history.store) := by
  refine valid_zoom (L := historyLogic first 0) (F := fun history : BlobHistory => requested history.uploads) ?_ ?_ ?_ ?_ h
  · exact fun _ h => h
  · exact fun _ h => h.bounded
  · intro history later _ _ hrely hrequested
    obtain ⟨herased, huploads⟩ := hrely rfl
    rw [huploads]
    exact ⟨hrequested, herased⟩
  · rintro history store hkept hrequested ⟨hstep, hbounded⟩
    refine ⟨rfl, ?_, fun hserver => absurd rfl hserver, hrequested⟩
    exact hkept.step hbounded (fun content => hwhole _ content hrequested) hstep

def ServingHistory (history : BlobHistory) : Prop := Serving history.store

theorem stable_servingHistory : Stable (historyLogic first 0) ServingHistory := by
  intro history later _ _ hrely hserving
  rw [ServingHistory, Serving, (hrely rfl).erased.nextId]
  exact hserving

theorem valid_serves {α : Type} {p : BlobProg α} (h : Valid (serverLogic (fun _ => False)) p Serving (fun _ => Serving)) :
    Valid (historyLogic first 0) ((onStore p).bind fun _ => .ret ()) ServingHistory (fun _ => ServingHistory) := by
  apply valid_bind ((valid_onStore _ (fun _ => True) (fun _ _ _ hfalse => hfalse.elim) h).pre
    fun _ _ hserving => ⟨trivial, hserving⟩)
  intro a
  exact valid_ret fun _ _ h => h.2

theorem valid_serveRequest (request : BlobRequest) :
    Valid (historyLogic first 0) (serveRequest request) ServingHistory (fun _ => ServingHistory) := by
  cases request with
  | create contentLength received =>
    apply valid_bind (M := fun _ history => (contentLength, received) ∈ history.uploads ∧ Serving history.store)
    · apply valid_atomic
      · intro _ history later _ _ hrely h
        rw [(hrely rfl).uploads]
        exact ⟨h.1, stable_servingHistory history later ‹_› ‹_› hrely h.2⟩
      · intro _ history hkept hserving
        refine ⟨⟨hkept.bounded, hkept.named, hkept.counter, hkept.memory, hkept.ordered, ?_, ?_⟩,
          fun hserver => absurd rfl hserver, List.mem_append_right _ (List.mem_singleton_self _), hserving⟩
        · intro blob hblob
          obtain ⟨upload, hupload, hbody⟩ := hkept.whole blob hblob
          exact ⟨upload, List.mem_append_left _ hupload, hbody⟩
        · intro name node hname hlookup
          apply (hkept.visible name node hname hlookup).imp_right
          rintro ⟨upload, hupload, hbody⟩
          exact ⟨upload, List.mem_append_left _ hupload, hbody⟩
    · intro _
      apply valid_bind (valid_onStore (fun content => wholeBody received contentLength = some content)
        (fun uploads => (contentLength, received) ∈ uploads)
        (fun _ _ hrequested hbody => ⟨_, hrequested, hbody⟩)
        (valid_blobCreate contentLength received fun _ h => h))
      intro result
      exact valid_ret fun _ _ h => h.2
  | list => exact valid_serves valid_blobList
  | delete blobId => exact valid_serves (valid_erases lasts_serving (erases_blobDelete blobId))

theorem valid_blobServer :
    Valid (historyLogic first 0) blobServer (fun history => Serves 0 history.store) (fun _ _ => True) := by
  apply valid_bind ((valid_onStore (fun _ => False) (fun _ => True) (fun _ _ _ hfalse => hfalse.elim)
    valid_prepareDirectories).pre fun _ _ h => ⟨trivial, h⟩)
  intro prepared
  split
  · exact valid_ret fun _ _ _ => trivial
  next hprepared =>
    apply Valid.post (Q := fun _ => ServingHistory) _ fun _ _ _ _ => trivial
    refine (valid_repeatUntil stable_servingHistory (fun _ => stable_servingHistory) ?_).pre
      fun _ _ h => h.2 (not_not.mp hprepared)
    apply valid_bind (M := fun _ => ServingHistory)
    · apply valid_atomic fun _ => stable_servingHistory
      exact fun _ _ hkept h => ⟨hkept, fun hserver => absurd rfl hserver, h⟩
    · intro request
      apply valid_bind (valid_serveRequest request)
      intro _
      exact valid_ret fun _ _ h => h

end Server

theorem valid_erasing {α : Type} {i : Nat} {p : BlobProg α} (h : Always Erased p) :
    Valid (historyLogic first i) (onStore p) (fun _ => True) (fun _ _ => True) := by
  have hzoom : Valid (historyLogic first i) (onStore p) (fun _ => True ∧ True) (fun _ _ => True ∧ True) := by
    refine valid_zoom (L := historyLogic first i) (F := fun _ => True) (fun _ h => h) (fun _ h => h.bounded) (fun _ _ _ _ _ _ => ⟨trivial, trivial⟩)
      ?_ (valid_eraser h)
    exact fun history store hkept _ herased => ⟨rfl, hkept.erased herased, fun _ => ⟨herased, rfl⟩, trivial⟩
  exact (hzoom.pre fun _ _ _ => ⟨trivial, trivial⟩).post fun _ _ _ _ => trivial

theorem valid_task {i : Nat} {p : HistoryProg Unit} (h : BlobTask i p) :
    Valid (historyLogic first i) p (fun history => i = 0 → Serves 0 history.store) (fun _ _ => True) := by
  cases h with
  | server => exact valid_blobServer.pre fun _ _ h => h rfl
  | eraser i =>
    apply Valid.pre (P := fun _ => True) _ fun _ _ _ => trivial
    apply valid_bind (valid_erasing erases_blobDeleteAll)
    intro _
    apply valid_bind (valid_erasing erases_recoverStartup)
    intro _
    exact valid_ret fun _ _ _ => trivial

theorem kept_of_run {c : Config BlobHistory BlobSurroundings} (h : BlobRun first c) : Kept first c.state := by
  have hcompatible : Compatible (historyLogic first) (Kept first) (fun _ => False)
      (fun i history => i = 0 → Serves 0 history.store) := by
    refine ⟨fun _ => rfl, fun _ => rfl, ?_, ?_⟩
    · intro i j before after hne hguar hj
      exact hguar (hj ▸ hne)
    · intro i before after _ _ hrely hserves hi
      exact (hrely hi).erased.nextId.trans (hserves hi)
  have hidle : ∀ {history : BlobHistory}, history.store.scanState = .zero → Serves 0 history.store := by
    intro history hzero
    rw [Serves, hzero]
    rfl
  refine (invariant_lifetime hcompatible (fun _ h => h) (fun _ _ hp => valid_task hp) ?_ ?_ h).inv_holds
  · exact fun history hstart => ⟨.start hstart, fun _ _ => hidle hstart.scanState⟩
  · exact fun _ _ hkept hcycled => ⟨hkept.powerCycled hcycled, fun _ _ => hidle hcycled.scanState⟩

section Runs

def calmFiles : FileCalls := ⟨none, 1, true, true, fun _ => true, true, fun _ => true, true, true, none, false⟩

def calmSteps (count : Nat) (request : BlobRequest) : List (Nat × BlobSurroundings) :=
  List.replicate count (0, ⟨calmFiles, request⟩)

def byteUpload (byte : UInt8) : BlobRequest := .create 1 [.chunk [byte]]

def emptyHistory : BlobHistory := ⟨⟨∅, none, .zero⟩, [], [], []⟩

def serverRun (history : BlobHistory) (schedule : List (Nat × BlobSurroundings)) : Config BlobHistory BlobSurroundings :=
  (⟨history, [blobServer]⟩ : Config BlobHistory BlobSurroundings).runSchedule (fun _ => false) schedule

theorem serverRun_run {history : BlobHistory} (h : BlobRun first ⟨history, []⟩)
    (schedule : List (Nat × BlobSurroundings)) : BlobRun first (serverRun history schedule) := by
  refine lifetime_runSchedule (S := blobSystem) ?_ schedule
  apply lifetime_start h rfl
  intro i p hp
  match i, hp with
  | 0, hp =>
    cases hp
    exact .server

theorem emptyHistory_run : BlobRun ∅ ⟨emptyHistory, []⟩ := .start ⟨rfl, ⟨nofun, Nat.zero_le _⟩, rfl, rfl, rfl, rfl⟩

/-- An upload whose parent directory is not synced, the deletion of its blob, and an upload. -/
def uncertainRun : Config BlobHistory BlobSurroundings :=
  serverRun emptyHistory (calmSteps 19 (byteUpload 1) ++ [(0, ⟨{ calmFiles with fault := some .other }, byteUpload 1⟩)] ++
    calmSteps 6 (.delete 1) ++ calmSteps 15 (byteUpload 2))

def cutRun : Config BlobHistory BlobSurroundings := serverRun emptyHistory (calmSteps 18 (byteUpload 1))

/-- What is left without power, a temporary file without its bytes. -/
def powerLost (blobId : Nat) (history : BlobHistory) : BlobHistory :=
  { history with
    store :=
      { history.store with
        directory := history.store.directory.insert (formatTemporaryFilename blobId) (.file [])
        scanState := .zero } }

theorem powerLost_run {c : Config BlobHistory BlobSurroundings} (h : BlobRun first c) (blobId : Nat) :
    BlobRun first ⟨powerLost blobId c.state, []⟩ :=
  .restart h ⟨sameBlobs_insert blobId _ _, rfl, rfl, rfl, rfl, rfl⟩

def laterRun : Config BlobHistory BlobSurroundings := serverRun (powerLost 1 cutRun.state) (calmSteps 40 (byteUpload 2))

end Runs

/-- Over every run of the server, of factory resets beside it and of losses of power, the
identifiers of the blobs that become visible only grow. One is given again only when its blob
went away while it was still the next identifier in memory. -/
theorem identifiers_grow {c : Config BlobHistory BlobSurroundings} (h : BlobRun first c) :
    c.state.given.Pairwise (fun earlier later =>
      earlier.id < later.id ∨ earlier.id = later.id ∧ earlier.id ∈ c.state.lost) ∧
    ∀ blob ∈ c.state.given, ∃ nextId, c.state.store.persistedNextId = some nextId ∧ blob.id < nextId :=
  ⟨(kept_of_run h).ordered, (kept_of_run h).counter⟩

theorem identifiers_grow_uncertain :
    uncertainRun.state.given = [⟨1, [1]⟩, ⟨1, [2]⟩] ∧ uncertainRun.state.lost = [1] ∧
      uncertainRun.state.given.Pairwise (fun earlier later =>
        earlier.id < later.id ∨ earlier.id = later.id ∧ earlier.id ∈ uncertainRun.state.lost) :=
  ⟨by decide +kernel, by decide +kernel, (identifiers_grow (serverRun_run emptyHistory_run _)).1⟩

/-- Whatever fails and wherever the power is lost, a blob that is visible is one of those that
were there at first, or it has all the bytes of the body of an upload that was requested. -/
theorem visible_blobs_whole {c : Config BlobHistory BlobSurroundings} (h : BlobRun first c) :
    ∀ name node, (parseFilename name).isSome = true → c.state.store.directory.lookup name = some node →
      first.lookup name = some node ∨ ∃ upload ∈ c.state.uploads, ∃ content,
        wholeBody upload.2 upload.1 = some content ∧ content.length = upload.1 ∧ node = .file content := by
  intro name node hname hlookup
  apply ((kept_of_run h).visible name node hname hlookup).imp_right
  rintro ⟨upload, hupload, content, hbody, hnode⟩
  exact ⟨upload, hupload, content, hbody, wholeBody_length hbody, hnode⟩

theorem visible_blobs_whole_cut :
    laterRun.state.store.directory.lookup (formatFilename 1) = none ∧
      ((∅ : Directory).lookup (formatFilename 2) = some (.file [2]) ∨ ∃ upload ∈ laterRun.state.uploads, ∃ content,
        wholeBody upload.2 upload.1 = some content ∧ content.length = upload.1 ∧ Node.file [2] = .file content) :=
  ⟨by decide +kernel, visible_blobs_whole (serverRun_run (powerLost_run (serverRun_run emptyHistory_run _) 1) _)
    (formatFilename 2) (.file [2]) (by decide +kernel) (by decide +kernel)⟩

end MacroKeyboard.Blobs.History
