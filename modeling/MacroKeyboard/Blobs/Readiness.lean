import MacroKeyboard.Blobs.Requests

namespace MacroKeyboard.Blobs.Requests

open Loops.Rounds Transfer ScanReport Erasure Recovery

/-- The next identifier is beyond every blob, but for one whose commit is uncertain. -/
structure Sound (repository : Repository) : Prop where
  tidy : Tidy repository.store.directory
  positive : 0 < repository.store.scanState.nextId
  bounded : repository.store.scanState.nextId ≤ uint64Max
  below : ∀ blobId, 0 < blobId → blobId ≤ uint64Max →
    (repository.store.directory.lookup (formatFilename blobId)).isSome = true →
      blobId < repository.store.scanState.nextId ∨ repository.uncertain = some blobId
  uncertain : ∀ blobId, repository.uncertain = some blobId → blobId = repository.store.scanState.nextId ∧
    (repository.store.directory.lookup (formatFilename blobId)).isSome = true

section Scanned

variable {reading : DirectoryReading} {persistedNextId nextId : Nat}

theorem isBlob_of_tidy {directory : Directory} (htidy : Tidy directory) {blobId : Nat} (hpositive : 0 < blobId)
    (hmax : blobId ≤ uint64Max) (hlookup : (directory.lookup (formatFilename blobId)).isSome = true) :
    ∃ storedBytes, IsBlob directory ⟨blobId, storedBytes⟩ := by
  obtain ⟨node, hnode⟩ := Option.isSome_iff_exists.mp hlookup
  cases node with
  | file content => exact ⟨content.length, hpositive, hmax, content, hnode, rfl⟩
  | directory =>
    have hnamed : isNamed (formatFilename blobId) = true := by
      rw [isNamed, parseFilename_format hpositive hmax]
      rfl
    exact absurd hnode ((htidy _).1 hnamed)

theorem scanned_nextId (hpersisted : persistedNextId ≤ uint64Max)
    (h : deriveNextId persistedNextId (greatestId (blobsOf reading)) = .ok nextId) :
    0 < nextId ∧ nextId ≤ uint64Max ∧ ∀ blob, IsBlob reading.directory blob → blob.id < nextId := by
  obtain ⟨-, hpositive, hgreater⟩ := deriveNextId_ok h
  have hone : 1 ≤ uint64Max := by decide
  rcases maxId_spec (blobsOf reading) with ⟨hempty, hnone⟩ | ⟨greatest, hsome, hall, blob, hmem, hid⟩
  · refine ⟨hpositive, ?_, ?_⟩
    · rw [greatestId, hnone, deriveNextId] at h
      cases h
      split <;> omega
    · intro blob hblob
      have hin := mem_blobsOf.mpr hblob
      rw [hempty] at hin
      exact absurd hin List.not_mem_nil
  · refine ⟨hpositive, ?_, fun other hother => ?_⟩
    · have hbound := (mem_blobsOf.mp hmem).2.1
      rw [greatestId, hsome, deriveNextId] at h
      split_ifs at h with hzero hlimit
      all_goals
        cases h
        omega
    · exact Nat.lt_of_le_of_lt (hall other (mem_blobsOf.mpr hother)) (hgreater greatest hsome)

theorem Sound.of_scan {store : BlobStore} (htidy : Tidy store.directory) (hreading : reading.directory = store.directory)
    (hpersisted : persistedNextId ≤ uint64Max)
    (h : deriveNextId persistedNextId (greatestId (blobsOf reading)) = .ok nextId) :
    Sound ⟨{ store with scanState := summaryOf reading nextId }, none⟩ := by
  obtain ⟨hpositive, hbounded, hless⟩ := scanned_nextId hpersisted h
  refine ⟨htidy, hpositive, hbounded, ?_, nofun⟩
  intro blobId hzero hmax hlookup
  obtain ⟨storedBytes, hblob⟩ := isBlob_of_tidy htidy hzero hmax hlookup
  rw [← hreading] at hblob
  exact Or.inl (hless _ hblob)

end Scanned

theorem Started.sound {store : BlobStore} (h : Started store) : Sound ⟨store, none⟩ := by
  obtain ⟨recoverCalls, before, removed, hfiles, hrecovered⟩ := h.recovered
  obtain ⟨calls, reading, persistedNextId, hreading, hpersisted, hscan⟩ := h.scanned
  have hexactly := (recoverWithOps_spec recoverCalls before).1 (by rw [hrecovered])
  rw [hrecovered] at hexactly
  have htidy : Tidy store.directory := by
    intro name
    refine ⟨fun hnamed hdirectory => hfiles name hnamed ((hexactly name _).mp hdirectory).1, fun htemporary => ?_⟩
    cases hlookup : store.directory.lookup name with
    | none => rfl
    | some node =>
      obtain ⟨hbefore, hnot⟩ := (hexactly name node).mp hlookup
      obtain ⟨blobId, hblobId⟩ := Option.isSome_iff_exists.mp htemporary
      obtain ⟨heq, hpositive, hmax⟩ := parseTemporaryFilename_eq_some hblobId
      cases node with
      | file content => exact absurd ⟨blobId, content, hpositive, hmax, heq, hbefore⟩ hnot
      | directory =>
        have hnamed : isNamed name = true := by rw [isNamed, htemporary, Bool.or_true]
        exact absurd hbefore (hfiles name hnamed)
  rcases scanWithOps_cases calls (fun _ (seen : Unit) => (.none, seen)) reading persistedNextId () with
    ⟨error, summary, herror, heq, -⟩ | ⟨nextId, hnext, -, heq⟩
  · rw [hscan] at heq
    cases heq
    exact absurd rfl herror
  · rw [hscan] at heq
    have hstate : store.scanState = summaryOf reading nextId := (Prod.mk.inj (Prod.mk.inj heq).2).1
    have hsound := Sound.of_scan htidy hreading hpersisted hnext
    rwa [← hstate] at hsound

section Step

variable {repository : Repository}

theorem Sound.uploaded (h : Sound repository) {calls : UploadCalls} {fuel contentLength : Nat} {outcome : UploadOutcome}
    (hremoves : Removes calls) (houtcome : blobCreateHandler calls fuel contentLength repository.store = some outcome) :
    Sound ⟨outcome.store, uncertainAfter repository.store.scanState.nextId repository.uncertain outcome.answer⟩ := by
  obtain ⟨htidy, hends⟩ := upload_ends hremoves h.tidy houtcome
  have hbefore : Adds repository.store outcome.store → ∀ blobId, 0 < blobId → blobId ≤ uint64Max →
      (outcome.store.directory.lookup (formatFilename blobId)).isSome = true →
      blobId = repository.store.scanState.nextId ∨ blobId < repository.store.scanState.nextId := by
    intro hadds blobId hpositive hmax hlookup
    by_cases heq : blobId = repository.store.scanState.nextId
    · exact Or.inl heq
    · have hname : formatFilename blobId ≠ formatFilename repository.store.scanState.nextId := fun hsame =>
        heq (formatFilename_injective hpositive hmax h.positive h.bounded hsame)
      rw [hadds _ hname (by rw [parseFilename_format hpositive hmax]; rfl)] at hlookup
      rcases h.below blobId hpositive hmax hlookup with hless | huncertain
      · exact Or.inr hless
      · exact absurd (h.uncertain blobId huncertain).1 heq
  cases hends with
  | @refused error answer plain scanState same =>
    have hsame : ∀ blobId, 0 < blobId → blobId ≤ uint64Max →
        outcome.store.directory.lookup (formatFilename blobId) =
          repository.store.directory.lookup (formatFilename blobId) := by
      intro blobId hpositive hmax
      exact same _ (by rw [parseFilename_format hpositive hmax]; rfl)
    have huncertain : uncertainAfter repository.store.scanState.nextId repository.uncertain outcome.answer =
        repository.uncertain := by
      rw [answer]
      cases error <;> first | rfl | exact absurd rfl plain
    rw [huncertain]
    refine ⟨htidy, by rw [scanState]; exact h.positive, by rw [scanState]; exact h.bounded, ?_, ?_⟩
    · intro blobId hpositive hmax hlookup
      dsimp only at hlookup ⊢
      rw [scanState]
      rw [hsame blobId hpositive hmax] at hlookup
      exact h.below blobId hpositive hmax hlookup
    · intro blobId hsome
      obtain ⟨heq, hlookup⟩ := h.uncertain blobId hsome
      dsimp only
      rw [scanState, hsame blobId (heq ▸ h.positive) (heq ▸ h.bounded)]
      exact ⟨heq, hlookup⟩
  | uncertain answer room scanState adds blob =>
    rw [answer]
    refine ⟨htidy, by rw [scanState]; exact h.positive, by rw [scanState]; exact h.bounded, ?_, ?_⟩
    · intro blobId hpositive hmax hlookup
      dsimp only
      rw [scanState]
      rcases hbefore adds blobId hpositive hmax hlookup with heq | hless
      · right
        rw [heq]
        rfl
      · exact Or.inl hless
    · rintro blobId ⟨⟩
      dsimp only
      rw [scanState]
      exact ⟨rfl, blob⟩
  | created answer room adds nextId =>
    rw [answer]
    have hbounded := h.bounded
    refine ⟨htidy, by rw [nextId]; omega, by rw [nextId]; omega, ?_, nofun⟩
    intro blobId hpositive hmax hlookup
    dsimp only
    rw [nextId]
    left
    rcases hbefore adds blobId hpositive hmax hlookup with heq | hless
    · omega
    · omega

theorem Sound.listed (h : Sound repository) {calls : ScanCalls} {allocate : Nat → Bool} {reading : DirectoryReading}
    (hreading : reading.directory = repository.store.directory) :
    Sound ⟨(storageBlobList calls allocate reading repository.store).2.1,
      if (storageBlobList calls allocate reading repository.store).1 = .none then none else repository.uncertain⟩ := by
  unfold storageBlobList
  rcases scanWithOps_cases calls (addBlobListEntry allocate) reading repository.store.scanState.nextId ⟨[], 0⟩ with
    ⟨error, summary, herror, heq, -⟩ | ⟨nextId, hnext, -, heq⟩
  · rw [heq]
    dsimp only
    rw [if_pos herror, if_neg herror]
    exact h
  · rw [heq]
    dsimp only
    by_cases hnotified : (notifyEntries (.entriesOnly (addBlobListEntry allocate)) (sortNewestFirst (blobsOf reading))
        ⟨[], 0⟩).1 = .none
    · rw [if_neg (not_not.mpr hnotified), if_pos hnotified]
      exact Sound.of_scan h.tidy hreading h.bounded hnext
    · rw [if_pos hnotified, if_neg hnotified]
      exact h

theorem Sound.within (h : Sound repository) {after : BlobStore} (hwithin : Within repository.store.directory after.directory)
    (hnextId : after.scanState.nextId = repository.store.scanState.nextId) :
    Sound ⟨after, remaining after.directory repository.uncertain⟩ := by
  have hkept : ∀ name, (after.directory.lookup name).isSome = true →
      (repository.store.directory.lookup name).isSome = true := by
    intro name hname
    obtain ⟨node, hnode⟩ := Option.isSome_iff_exists.mp hname
    exact Option.isSome_of_eq_some (hwithin name node hnode)
  refine ⟨hwithin.tidy h.tidy, by rw [hnextId]; exact h.positive, by rw [hnextId]; exact h.bounded, ?_, ?_⟩
  · intro blobId hpositive hmax hlookup
    dsimp only
    rw [hnextId]
    rcases h.below blobId hpositive hmax (hkept _ hlookup) with hless | huncertain
    · exact Or.inl hless
    · right
      rw [remaining, huncertain]
      exact Option.filter_some_pos hlookup
  · intro blobId hremaining
    obtain ⟨hsome, hlookup⟩ := Option.filter_eq_some_iff.mp hremaining
    exact ⟨(h.uncertain blobId hsome).1.trans hnextId.symm, hlookup⟩

theorem deleteBlob_within (failures : Failures) (blobId : Nat) (directory : Directory) :
    Within directory (deleteBlob failures blobId directory).2 := by
  unfold deleteBlob
  repeat' split
  all_goals first | exact fun _ _ h => h | exact within_erase _ _

theorem Sound.deleted (h : Sound repository) (failures : Failures) (syncParent : Option Errno) (blobId : Nat) :
    Sound ⟨(storageBlobDelete failures syncParent blobId repository.store).2,
      remaining (storageBlobDelete failures syncParent blobId repository.store).2.directory repository.uncertain⟩ := by
  apply h.within
  · unfold storageBlobDelete
    dsimp only
    split <;> exact deleteBlob_within failures blobId repository.store.directory
  · unfold storageBlobDelete
    dsimp only
    split <;> rfl

theorem notifyEntries_within (failures : Failures) (entries : List BlobEntry) (state : DeleteAllState) :
    Within state.directory
      (notifyEntries (.entriesOnly (deleteAllVisitEntry failures)) entries state).2.directory := by
  induction entries generalizing state with
  | nil => exact fun _ _ h => h
  | cons entry rest ih =>
    have hvisit : (deleteAllVisitEntry failures entry state).1 = .none ∧
        Within state.directory (deleteAllVisitEntry failures entry state).2.directory := by
      unfold deleteAllVisitEntry
      dsimp only
      split <;> exact ⟨rfl, deleteBlob_within failures entry.id state.directory⟩
    rw [notifyEntries]
    dsimp only [ScanObserver.entriesOnly]
    rw [if_neg (not_not.mpr hvisit.1)]
    exact hvisit.2.trans (ih _)

theorem recordDeletedEntry_nextId (count : Nat) (summary : ScanSummary) :
    (recordDeletedEntry^[count] summary).nextId = summary.nextId := by
  induction count generalizing summary with
  | zero => rfl
  | succ count ih =>
    rw [Function.iterate_succ_apply, ih]
    rfl

theorem Sound.deletedAll (h : Sound repository) {calls : ScanCalls} {failures : Failures} {syncParent : Option Errno}
    {reading : DirectoryReading} :
    Sound ⟨(storageBlobDeleteAll calls failures syncParent reading repository.store).2,
      remaining (storageBlobDeleteAll calls failures syncParent reading repository.store).2.directory
        repository.uncertain⟩ := by
  apply h.within
  · unfold storageBlobDeleteAll
    rcases scanWithOps_cases calls (deleteAllVisitEntry failures) reading 0 ⟨.none, 0, repository.store.directory⟩ with
      ⟨error, summary, -, heq, -⟩ | ⟨nextId, -, -, heq⟩
    · rw [heq]
      exact fun _ _ hlookup => hlookup
    · rw [heq]
      exact notifyEntries_within failures _ _
  · exact recordDeletedEntry_nextId _ _

theorem Sound.step {after : Repository} (h : Sound repository) (hserves : Serves repository after) : Sound after := by
  cases hserves with
  | upload hremoves houtcome => exact h.uploaded hremoves houtcome
  | list hreading => exact h.listed hreading
  | delete hmax => exact h.deleted _ _ _
  | deleteAll hreading => exact h.deletedAll

theorem Sound.run {after : Repository} (h : Sound repository) (hrun : Run repository after) : Sound after := by
  induction hrun with
  | refl => exact h
  | tail _ hserves ih => exact ih.step hserves

end Step

end MacroKeyboard.Blobs.Requests
