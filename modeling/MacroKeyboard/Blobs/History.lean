import MacroKeyboard.Blobs.Readiness
import MacroKeyboard.Threads.Parts
import MacroKeyboard.Threads.Restarts

namespace MacroKeyboard.Blobs.History

open Threads.Program Threads.RelyGuarantee Threads.Restarts Transfer Requests

structure StoredBlob where
  id : Nat
  content : List UInt8
deriving DecidableEq

/-- A request to the repository, a creation with what the receives of its body yield. -/
inductive BlobRequest
  | create (contentLength : Nat) (received : List Received)
  | list
  | delete (blobId : Nat)

structure BlobSurroundings where
  files : FileCalls
  request : BlobRequest

/-- The store, and what a run shows besides it: the uploads that were requested, the blobs
in the order in which they became visible, and the identifiers whose blob went away while
the next identifier in memory was still their own. -/
structure BlobHistory where
  store : BlobStore
  uploads : List (Nat × List Received)
  given : List StoredBlob
  lost : List Nat

section Observation

def storedBlobOf (entry : Name × Node) : Option StoredBlob :=
  match parseFilename entry.1, entry.2 with
  | some blobId, .file content => some ⟨blobId, content⟩
  | some _, .directory | none, _ => none

def appeared (before after : Directory) : List StoredBlob :=
  ((listing after).filterMap storedBlobOf).filter (fun blob => (before.lookup (formatFilename blob.id)).isNone)

/-- The next identifier, if its blob has gone. -/
def vanished (before after : BlobStore) : List Nat :=
  let name := formatFilename before.scanState.nextId
  if (before.directory.lookup name).isSome ∧ (after.directory.lookup name).isNone then [before.scanState.nextId] else []

def BlobHistory.observe (store : BlobStore) (history : BlobHistory) : BlobHistory :=
  { history with
    store
    given := history.given ++ appeared history.store.directory store.directory
    lost := history.lost ++ vanished history.store store }

theorem mem_appeared {before after : Directory} {blob : StoredBlob} : blob ∈ appeared before after ↔
    parseFilename (formatFilename blob.id) = some blob.id ∧
      after.lookup (formatFilename blob.id) = some (.file blob.content) ∧
      before.lookup (formatFilename blob.id) = none := by
  rw [appeared, List.mem_filter, List.mem_filterMap, Option.isNone_iff_eq_none]
  constructor
  · rintro ⟨⟨⟨name, node⟩, hmem, hblob⟩, hbefore⟩
    have hlookup := ScanReport.mem_listing.mp hmem
    unfold storedBlobOf at hblob
    split at hblob
    · next blobId content hname hnode =>
      cases hblob
      dsimp only at hname hnode hlookup
      have hformat := (parseFilename_eq_some hname).1
      rw [hnode] at hlookup
      rw [hformat] at hlookup hname
      exact ⟨hname, hlookup, hbefore⟩
    · cases hblob
    · cases hblob
  · rintro ⟨hname, hafter, hbefore⟩
    refine ⟨⟨(formatFilename blob.id, .file blob.content), ScanReport.mem_listing.mpr hafter, ?_⟩, hbefore⟩
    simp only [storedBlobOf, hname]

theorem nodup_appeared (before after : Directory) : (appeared before after).Nodup := by
  apply List.Nodup.filter
  apply (List.Nodup.of_map _ (ScanReport.nodup_listing after)).filterMap
  rintro ⟨name, node⟩ ⟨other, otherNode⟩ blob hblob hother
  have hentry : ∀ {entry : Name × Node}, storedBlobOf entry = some blob →
      entry = (formatFilename blob.id, .file blob.content) := by
    rintro ⟨name, node⟩ hblob
    unfold storedBlobOf at hblob
    split at hblob
    · next blobId content hname hnode =>
      cases hblob
      exact Prod.ext (parseFilename_eq_some hname).1 hnode
    · cases hblob
    · cases hblob
  rw [hentry hblob, hentry hother]

end Observation

section Tasks

abbrev HistoryProg (α : Type) : Type 1 := Prog BlobHistory BlobSurroundings α

def onStore {α : Type} (p : BlobProg α) : HistoryProg α :=
  p.zoom BlobSurroundings.files BlobHistory.store BlobHistory.observe

def serveRequest : BlobRequest → HistoryProg Unit
  | .create contentLength received => do
    .atomic (fun _ history => ((), { history with uploads := history.uploads ++ [(contentLength, received)] }))
    let _ ← onStore (blobCreate contentLength received)
    pure ()
  | .list => do
    let _ ← onStore blobList
    pure ()
  | .delete blobId => do
    let _ ← onStore (blobDelete blobId)
    pure ()

/-- The task that prepares the directories, and then serves one request after the other. -/
def blobServer : HistoryProg Unit := do
  let prepared ← onStore prepareDirectories
  if prepared ≠ .none then pure ()
  else
    .repeatUntil do
      let request ← .ask (fun surroundings => surroundings.request)
      serveRequest request
      pure none

/-- What a factory reset does to the blobs, on a task of its own. -/
def blobEraser : HistoryProg Unit := do
  let _ ← onStore blobDeleteAll
  let _ ← onStore recoverStartup
  pure ()

inductive BlobTask : Nat → HistoryProg Unit → Prop
  | server : BlobTask 0 blobServer
  | eraser (i : Nat) : BlobTask (i + 1) blobEraser

def blobSystem : System BlobHistory BlobSurroundings where
  mayStart := BlobTask
  stopped _ := false

/-- The numbers of the store are numbers of 64 bits. -/
structure Bounded (store : BlobStore) : Prop where
  counter : ∀ nextId, store.persistedNextId = some nextId → nextId ≤ uint64Max
  nextId : store.scanState.nextId ≤ uint64Max

/-- A device that is switched on with these files. -/
structure SwitchedOn (first : Directory) (history : BlobHistory) : Prop where
  directory : history.store.directory = first
  bounded : Bounded history.store
  scanState : history.store.scanState = .zero
  uploads : history.uploads = []
  given : history.given = []
  lost : history.lost = []

/-- A loss of power, at any time, and a new start: the memory is lost, and a file that was
not renamed yet may have any bytes or be gone. -/
structure PowerCycled (before after : BlobHistory) : Prop where
  blobs : SameBlobs before.store.directory after.store.directory
  counter : after.store.persistedNextId = before.store.persistedNextId
  scanState : after.store.scanState = .zero
  uploads : after.uploads = before.uploads
  given : after.given = before.given
  lost : after.lost = before.lost

abbrev BlobRun (first : Directory) : Config BlobHistory BlobSurroundings → Prop :=
  Lifetime blobSystem (SwitchedOn first) PowerCycled

end Tasks

/-- The bytes of a body, if its receives yield as many as its length says. -/
def wholeBody : List Received → Nat → Option (List UInt8)
  | _, 0 => some []
  | [], _ + 1 | .failed :: _, _ + 1 => none
  | .timeout :: rest, remaining + 1 => wholeBody rest (remaining + 1)
  | .chunk data :: rest, remaining + 1 =>
    if data.length = 0 ∨ data.length > remaining + 1 then none
    else (wholeBody rest (remaining + 1 - data.length)).map (data ++ ·)

theorem wholeBody_length {received : List Received} {contentLength : Nat} {content : List UInt8}
    (h : wholeBody received contentLength = some content) : content.length = contentLength := by
  induction received generalizing contentLength content with
  | nil =>
    cases contentLength with
    | zero =>
      cases h
      rfl
    | succ remaining => cases h
  | cons first rest ih =>
    cases contentLength with
    | zero =>
      cases first <;>
      · cases h
        rfl
    | succ remaining =>
      cases first with
      | failed => cases h
      | timeout => exact ih h
      | chunk data =>
        unfold wholeBody at h
        split at h
        · cases h
        next hfits =>
          obtain ⟨tail, htail, rfl⟩ := Option.map_eq_some_iff.mp h
          rw [List.length_append, ih htail]
          omega

section Steps

/-- What the tasks beside the server do to the store. -/
structure Erased (before after : BlobStore) : Prop where
  within : Within before.directory after.directory
  nextId : after.scanState.nextId = before.scanState.nextId
  counter : after.persistedNextId = before.persistedNextId

/-- One step of the server, while it may activate a blob with such a content. -/
inductive ServerStep (whole : List UInt8 → Prop) (before after : BlobStore) : Prop
  | staged (blobs : SameBlobs before.directory after.directory)
      (nextId : after.scanState.nextId = before.scanState.nextId)
      (counter : after.persistedNextId = before.persistedNextId)
  | counted (directory : after.directory = before.directory)
      (nextId : after.scanState.nextId = before.scanState.nextId) (serves : before.scanState.nextId ≠ 0)
      (counter : after.persistedNextId = some (before.scanState.nextId + 1))
  | erased (h : Erased before after)
  | activated {content : List UInt8} (whole : whole content) (serves : before.scanState.nextId ≠ 0)
      (nextId : after.scanState.nextId = before.scanState.nextId)
      (counter : after.persistedNextId = before.persistedNextId)
      (counted : before.persistedNextId = some (before.scanState.nextId + 1))
      (present : after.directory.lookup (formatFilename before.scanState.nextId) = some (.file content))
      (others : ∀ name, name ≠ formatFilename before.scanState.nextId → (parseFilename name).isSome = true →
        after.directory.lookup name = before.directory.lookup name)
  | advanced (directory : after.directory = before.directory) (counter : after.persistedNextId = before.persistedNextId)
      (idle : before.scanState.nextId = 0 →
        after.scanState.nextId = 0 ∨ before.persistedNextId.getD 0 ≤ after.scanState.nextId)
      (serving : before.scanState.nextId ≠ 0 → before.scanState.nextId ≤ after.scanState.nextId)

theorem Erased.refl (store : BlobStore) : Erased store store := ⟨fun _ _ h => h, rfl, rfl⟩

/-- The runs keep the blobs whole and their identifiers in order. -/
structure Kept (first : Directory) (history : BlobHistory) : Prop where
  bounded : Bounded history.store
  named : ∀ blob ∈ history.given, parseFilename (formatFilename blob.id) = some blob.id
  counter : ∀ blob ∈ history.given, ∃ nextId, history.store.persistedNextId = some nextId ∧ blob.id < nextId
  memory : history.store.scanState.nextId ≠ 0 → ∀ blob ∈ history.given, blob.id ≤ history.store.scanState.nextId ∧
    (blob.id = history.store.scanState.nextId →
      (history.store.directory.lookup (formatFilename blob.id)).isSome = true ∨ blob.id ∈ history.lost)
  ordered : history.given.Pairwise (fun earlier later =>
    earlier.id < later.id ∨ earlier.id = later.id ∧ earlier.id ∈ history.lost)
  whole : ∀ blob ∈ history.given, ∃ upload ∈ history.uploads, wholeBody upload.2 upload.1 = some blob.content
  visible : ∀ name node, (parseFilename name).isSome = true → history.store.directory.lookup name = some node →
    first.lookup name = some node ∨
      ∃ upload ∈ history.uploads, ∃ content, wholeBody upload.2 upload.1 = some content ∧ node = .file content

section Step

variable {first : Directory} {history : BlobHistory} {after : BlobStore}

theorem appeared_eq_nil {before after : Directory} (h : ∀ name, (parseFilename name).isSome = true →
    before.lookup name = none → after.lookup name = none) : appeared before after = [] := by
  apply List.eq_nil_iff_forall_not_mem.mpr
  intro blob hmem
  obtain ⟨hname, hafter, hbefore⟩ := mem_appeared.mp hmem
  rw [h _ (by rw [hname]; rfl) hbefore] at hafter
  cases hafter

theorem Kept.start (hstart : SwitchedOn first history) : Kept first history := by
  have hnone : ∀ blob : StoredBlob, blob ∉ history.given := by
    intro blob
    rw [hstart.given]
    exact List.not_mem_nil
  refine ⟨hstart.bounded, fun blob h => absurd h (hnone blob), fun blob h => absurd h (hnone blob), ?_, ?_,
    fun blob h => absurd h (hnone blob), ?_⟩
  · exact fun _ blob h => absurd h (hnone blob)
  · rw [hstart.given]
    exact .nil
  · intro name node _ hlookup
    rw [hstart.directory] at hlookup
    exact Or.inl hlookup

theorem Kept.powerCycled {later : BlobHistory} (h : Kept first history) (hcycled : PowerCycled history later) :
    Kept first later := by
  refine ⟨⟨?_, ?_⟩, ?_, ?_, ?_, ?_, ?_, ?_⟩
  · rw [hcycled.counter]
    exact h.bounded.counter
  · rw [hcycled.scanState]
    exact Nat.zero_le _
  · rw [hcycled.given]
    exact h.named
  · rw [hcycled.given, hcycled.counter]
    exact h.counter
  · intro hserves
    rw [hcycled.scanState] at hserves
    exact absurd rfl hserves
  · rw [hcycled.given, hcycled.lost]
    exact h.ordered
  · rw [hcycled.given, hcycled.uploads]
    exact h.whole
  · intro name node hname hlookup
    rw [hcycled.blobs name hname] at hlookup
    rw [hcycled.uploads]
    exact h.visible name node hname hlookup

/-- A step that makes no blob visible. -/
theorem Kept.quiet (h : Kept first history) (hbounded : Bounded after)
    (hblobs : ∀ name node, (parseFilename name).isSome = true → after.directory.lookup name = some node →
      history.store.directory.lookup name = some node)
    (hcounter : ∀ blob ∈ history.given, ∃ nextId, after.persistedNextId = some nextId ∧ blob.id < nextId)
    (hmemory : after.scanState.nextId ≠ 0 → ∀ blob ∈ history.given, blob.id ≤ after.scanState.nextId ∧
      (blob.id = after.scanState.nextId → (after.directory.lookup (formatFilename blob.id)).isSome = true ∨
        blob.id ∈ history.lost ++ vanished history.store after)) :
    Kept first (history.observe after) := by
  have happeared : appeared history.store.directory after.directory = [] := by
    apply appeared_eq_nil
    intro name hname hbefore
    cases hafter : after.directory.lookup name with
    | none => rfl
    | some node =>
      rw [hblobs name node hname hafter] at hbefore
      cases hbefore
  have hgiven : (history.observe after).given = history.given := by
    rw [BlobHistory.observe, happeared, List.append_nil]
  refine ⟨hbounded, ?_, ?_, ?_, ?_, ?_, ?_⟩
  · rw [hgiven]
    exact h.named
  · rw [hgiven]
    exact hcounter
  · rw [hgiven]
    exact hmemory
  · rw [hgiven]
    apply h.ordered.imp
    rintro earlier later (hless | ⟨heq, hlost⟩)
    · exact Or.inl hless
    · exact Or.inr ⟨heq, List.mem_append_left _ hlost⟩
  · rw [hgiven]
    exact h.whole
  · exact fun name node hname hlookup => h.visible name node hname (hblobs name node hname hlookup)

theorem Erased.bounded {before : BlobStore} (h : Erased before after) (hbounded : Bounded before) : Bounded after := by
  constructor
  · rw [h.counter]
    exact hbounded.counter
  · rw [h.nextId]
    exact hbounded.nextId

theorem Kept.erased (h : Kept first history) (herased : Erased history.store after) : Kept first (history.observe after) := by
  apply h.quiet (herased.bounded h.bounded)
  · exact fun name node _ hlookup => herased.within name node hlookup
  · rw [herased.counter]
    exact h.counter
  · rw [herased.nextId]
    intro hserves blob hblob
    obtain ⟨hle, hequal⟩ := h.memory hserves blob hblob
    refine ⟨hle, fun heq => ?_⟩
    rcases hequal heq with hvisible | hlost
    · cases hafter : after.directory.lookup (formatFilename blob.id) with
      | some node => exact Or.inl rfl
      | none =>
        right
        apply List.mem_append_right
        rw [vanished, ← heq, if_pos ⟨hvisible, by rw [hafter]; rfl⟩]
        exact List.mem_singleton_self _
    · exact Or.inr (List.mem_append_left _ hlost)

/-- The blob of the next identifier is all that appears when it is activated. -/
theorem appeared_activated {content : List UInt8} (hserves : history.store.scanState.nextId ≠ 0)
    (hbounded : history.store.scanState.nextId ≤ uint64Max)
    (hpresent : after.directory.lookup (formatFilename history.store.scanState.nextId) = some (.file content))
    (hothers : ∀ name, name ≠ formatFilename history.store.scanState.nextId → (parseFilename name).isSome = true →
      after.directory.lookup name = history.store.directory.lookup name) :
    appeared history.store.directory after.directory =
      if (history.store.directory.lookup (formatFilename history.store.scanState.nextId)).isSome then []
      else [⟨history.store.scanState.nextId, content⟩] := by
  have hformat := parseFilename_format (Nat.pos_of_ne_zero hserves) hbounded
  have hall : ∀ blob ∈ appeared history.store.directory after.directory,
      blob = ⟨history.store.scanState.nextId, content⟩ ∧
        history.store.directory.lookup (formatFilename history.store.scanState.nextId) = none := by
    rintro ⟨blobId, bytes⟩ hblob
    obtain ⟨hname, hafter, hbefore⟩ := mem_appeared.mp hblob
    dsimp only at hname hafter hbefore
    by_cases heq : formatFilename blobId = formatFilename history.store.scanState.nextId
    · rw [heq, hformat] at hname
      rw [heq, hpresent] at hafter
      rw [heq] at hbefore
      cases hname
      cases hafter
      exact ⟨rfl, hbefore⟩
    · rw [hothers _ heq (by rw [hname]; rfl), hbefore] at hafter
      cases hafter
  by_cases hvisible : (history.store.directory.lookup (formatFilename history.store.scanState.nextId)).isSome = true
  · rw [if_pos hvisible]
    apply List.eq_nil_iff_forall_not_mem.mpr
    intro blob hblob
    rw [(hall blob hblob).2] at hvisible
    cases hvisible
  · rw [if_neg hvisible]
    have hmem : ⟨history.store.scanState.nextId, content⟩ ∈ appeared history.store.directory after.directory :=
      mem_appeared.mpr ⟨hformat, hpresent, by simpa using hvisible⟩
    have hreplicate := List.eq_replicate_of_mem fun blob hblob => (hall blob hblob).1
    have hnodup := nodup_appeared history.store.directory after.directory
    rw [hreplicate, List.nodup_replicate] at hnodup
    rw [hreplicate, Nat.le_antisymm hnodup (List.length_pos_of_mem hmem)]
    rfl

/-- A blob becomes visible under the next identifier, which the counter is already beyond. -/
theorem Kept.activated (h : Kept first history) {content : List UInt8}
    (hwhole : ∃ upload ∈ history.uploads, wholeBody upload.2 upload.1 = some content)
    (hserves : history.store.scanState.nextId ≠ 0)
    (hnextId : after.scanState.nextId = history.store.scanState.nextId)
    (hcounter : after.persistedNextId = history.store.persistedNextId)
    (hcounted : history.store.persistedNextId = some (history.store.scanState.nextId + 1))
    (hpresent : after.directory.lookup (formatFilename history.store.scanState.nextId) = some (.file content))
    (hothers : ∀ name, name ≠ formatFilename history.store.scanState.nextId → (parseFilename name).isSome = true →
      after.directory.lookup name = history.store.directory.lookup name) :
    Kept first (history.observe after) := by
  have hformat := parseFilename_format (Nat.pos_of_ne_zero hserves) h.bounded.nextId
  have happeared := appeared_activated hserves h.bounded.nextId hpresent hothers
  have hmem : ∀ blob ∈ (history.observe after).given,
      blob ∈ history.given ∨ blob = ⟨history.store.scanState.nextId, content⟩ := by
    intro blob hblob
    rw [BlobHistory.observe, happeared, List.mem_append] at hblob
    split_ifs at hblob
    · exact hblob.imp_right fun hnil => absurd hnil List.not_mem_nil
    · exact hblob.imp_right List.mem_singleton.mp
  have hordered : history.given.Pairwise (fun earlier later =>
      earlier.id < later.id ∨ earlier.id = later.id ∧ earlier.id ∈ (history.observe after).lost) := by
    apply h.ordered.imp
    rintro earlier later (hless | ⟨heq, hlost⟩)
    · exact Or.inl hless
    · exact Or.inr ⟨heq, List.mem_append_left _ hlost⟩
  refine ⟨⟨?_, ?_⟩, ?_, ?_, ?_, ?_, ?_, ?_⟩
  · exact fun nextId hnext => h.bounded.counter nextId (hcounter.symm.trans hnext)
  · exact hnextId.le.trans h.bounded.nextId
  · intro blob hblob
    rcases hmem blob hblob with hold | rfl
    · exact h.named blob hold
    · exact hformat
  · intro blob hblob
    refine ⟨history.store.scanState.nextId + 1, hcounter.trans hcounted, ?_⟩
    rcases hmem blob hblob with hold | rfl
    · exact Nat.lt_succ_of_le (h.memory hserves blob hold).1
    · exact Nat.lt_succ_self _
  · intro _ blob hblob
    dsimp only [BlobHistory.observe]
    rw [hnextId]
    refine ⟨?_, fun heq => Or.inl (by rw [heq, hpresent]; rfl)⟩
    rcases hmem blob hblob with hold | rfl
    · exact (h.memory hserves blob hold).1
    · exact Nat.le_refl _
  · rw [show (history.observe after).given = history.given ++ appeared history.store.directory after.directory from rfl,
      happeared]
    split_ifs with hvisible
    · rw [List.append_nil]
      exact hordered
    · refine List.pairwise_append.mpr ⟨hordered, List.pairwise_singleton _ _, ?_⟩
      intro earlier hearlier later hlater
      rw [List.mem_singleton.mp hlater]
      obtain ⟨hle, hequal⟩ := h.memory hserves earlier hearlier
      rcases Nat.lt_or_eq_of_le hle with hless | heq
      · exact Or.inl hless
      · have hlost := (hequal heq).resolve_left (heq ▸ hvisible)
        exact Or.inr ⟨heq, List.mem_append_left _ hlost⟩
  · intro blob hblob
    rcases hmem blob hblob with hold | rfl
    · exact h.whole blob hold
    · exact hwhole
  · intro name node hname hlookup
    by_cases heq : name = formatFilename history.store.scanState.nextId
    · right
      rw [heq] at hlookup
      obtain ⟨upload, hupload, hbody⟩ := hwhole
      exact ⟨upload, hupload, content, hbody, Option.some.inj (hlookup.symm.trans hpresent)⟩
    · exact h.visible name node hname ((hothers name heq hname).symm.trans hlookup)

theorem Kept.step {whole : List UInt8 → Prop} (h : Kept first history) (hbounded : Bounded after)
    (hwhole : ∀ content, whole content → ∃ upload ∈ history.uploads, wholeBody upload.2 upload.1 = some content)
    (hstep : ServerStep whole history.store after) : Kept first (history.observe after) := by
  cases hstep with
  | staged blobs nextId counter =>
    apply h.quiet hbounded
    · intro name node hname hlookup
      rwa [blobs name hname] at hlookup
    · rw [counter]
      exact h.counter
    · rw [nextId]
      intro hserves blob hblob
      obtain ⟨hle, hequal⟩ := h.memory hserves blob hblob
      rw [blobs _ (by rw [h.named blob hblob]; rfl)]
      exact ⟨hle, fun heq => (hequal heq).imp_right (List.mem_append_left _)⟩
  | counted directory nextId serves counter =>
    apply h.quiet hbounded
    · intro name node _ hlookup
      rwa [directory] at hlookup
    · intro blob hblob
      exact ⟨_, counter, Nat.lt_succ_of_le (h.memory serves blob hblob).1⟩
    · rw [nextId, directory]
      intro hserves blob hblob
      obtain ⟨hle, hequal⟩ := h.memory hserves blob hblob
      exact ⟨hle, fun heq => (hequal heq).imp_right (List.mem_append_left _)⟩
  | erased herased => exact h.erased herased
  | activated hcontent serves nextId counter counted present others =>
    exact h.activated (hwhole _ hcontent) serves nextId counter counted present others
  | advanced directory counter idle serving =>
    apply h.quiet hbounded
    · intro name node _ hlookup
      rwa [directory] at hlookup
    · rw [counter]
      exact h.counter
    · rw [directory]
      intro hserves blob hblob
      by_cases hidle : history.store.scanState.nextId = 0
      · obtain ⟨nextId, hnextId, hless⟩ := h.counter blob hblob
        have hbeyond := (idle hidle).resolve_left hserves
        rw [hnextId] at hbeyond
        have hbelow : blob.id < after.scanState.nextId := Nat.lt_of_lt_of_le hless hbeyond
        exact ⟨hbelow.le, fun heq => absurd heq hbelow.ne⟩
      · obtain ⟨hle, hequal⟩ := h.memory hidle blob hblob
        have hgrows := serving hidle
        refine ⟨hle.trans hgrows, fun heq => ?_⟩
        exact (hequal (Nat.le_antisymm hle (heq ▸ hgrows))).imp_right (List.mem_append_left _)

end Step

end Steps

end MacroKeyboard.Blobs.History
