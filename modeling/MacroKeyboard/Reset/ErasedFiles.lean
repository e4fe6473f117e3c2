import MacroKeyboard.Blobs.ServerTasks
import MacroKeyboard.Threads.Disturbance

namespace MacroKeyboard.Reset.ErasedFiles

open Blobs Blobs.History Blobs.Requests Threads.Program Threads.RelyGuarantee

def NoBlobs (directory : Directory) : Prop :=
  ∀ name content, (parseFilename name).isSome = true → directory.lookup name ≠ some (.file content)

def NoTemporaryFiles (directory : Directory) : Prop :=
  ∀ name content, (parseTemporaryFilename name).isSome = true → directory.lookup name ≠ some (.file content)

theorem NoBlobs.within {before after : Directory} (h : NoBlobs before) (hwithin : Within before after) :
    NoBlobs after := fun name content hname hlookup => h name content hname (hwithin name _ hlookup)

/-- No blob is left but those of these entries. -/
def OnlyBlobs (entries : List BlobEntry) (directory : Directory) : Prop :=
  ∀ name blobId content, parseFilename name = some blobId → directory.lookup name = some (.file content) →
    blobId ∈ entries.map BlobEntry.id

def OnlyTemporaryFiles (names : List Name) (directory : Directory) : Prop :=
  ∀ name content, (parseTemporaryFilename name).isSome = true → directory.lookup name = some (.file content) →
    name ∈ names

section Logic

def filesLogic : Logic BlobStore where
  inv _ := True
  halt _ := False
  rely before after := after.directory = before.directory
  guar _ _ := True

def On (P : Directory → Prop) (store : BlobStore) : Prop := P store.directory

theorem stable_on (P : Directory → Prop) : Stable filesLogic (On P) := by
  intro store after _ _ hsame h
  exact Eq.mpr (congrArg P hsame) h

theorem valid_files {α : Type} {f : FileCalls → BlobStore → α × BlobStore} {P : Directory → Prop} {Q : α → Directory → Prop}
    (h : ∀ calls store, P store.directory → Q (f calls store).1 (f calls store).2.directory) :
    Valid filesLogic (.atomic f) (On P) (fun a => On (Q a)) :=
  valid_atomic (fun a => stable_on (Q a)) fun calls store _ hP => ⟨trivial, trivial, h calls store hP⟩

theorem valid_files_kept {α : Type} {f : FileCalls → BlobStore → α × BlobStore} (P : Directory → Prop)
    (h : ∀ calls store, (f calls store).2.directory = store.directory) :
    Valid filesLogic (.atomic f) (On P) (fun _ => On P) :=
  valid_files fun calls store hP => (h calls store).symm ▸ hP

end Logic

section Deletion

theorem noBlobs_of_only {directory : Directory} (h : OnlyBlobs [] directory) : NoBlobs directory := by
  intro name content hname hlookup
  obtain ⟨blobId, hparse⟩ := Option.isSome_iff_exists.mp hname
  exact List.not_mem_nil (h name blobId content hparse hlookup)

theorem onlyBlobs_erase {entry : BlobEntry} {rest : List BlobEntry} {directory : Directory}
    (h : OnlyBlobs (entry :: rest) directory) : OnlyBlobs rest (directory.erase (formatFilename entry.id)) := by
  intro name blobId content hparse hlookup
  have hname : name ≠ formatFilename entry.id := by
    intro heq
    rw [heq, AList.lookup_erase] at hlookup
    exact Option.some_ne_none _ hlookup.symm
  rw [AList.lookup_erase_ne hname] at hlookup
  rcases List.mem_cons.mp (h name blobId content hparse hlookup) with heq | hmem
  · rw [heq] at hparse
    exact absurd (parseFilename_eq_some hparse).1 hname
  · exact hmem

/-- A deletion that succeeds has removed its file. -/
theorem valid_deleteWithOps (c : Prop) (entry : BlobEntry) (rest : List BlobEntry) :
    Valid filesLogic (deleteWithOps entry.id) (On fun directory => c → OnlyBlobs (entry :: rest) directory)
      (fun result => On fun directory => result = .none → c → OnlyBlobs rest directory) := by
  have hfailed : ∀ {P : BlobStore → Prop} {error : AppError}, error ≠ .none →
      Valid filesLogic (.ret error : BlobProg AppError) P
        (fun result => On fun directory => result = .none → c → OnlyBlobs rest directory) :=
    fun herror => valid_ret fun _ _ _ hnone => absurd hnone herror
  unfold deleteWithOps
  split
  · exact hfailed nofun
  apply valid_bind (valid_files_kept _ fun _ _ => rfl)
  intro found
  split
  · exact hfailed (Erasure.pathError_ne_none _)
  · exact hfailed nofun
  apply valid_bind (M := fun unlinked => On fun directory => unlinked = none → c → OnlyBlobs rest directory)
  · apply valid_files
    intro calls store h
    split
    · exact nofun
    · exact nofun
    · exact fun _ hc => onlyBlobs_erase (h hc)
  intro unlinked
  split
  · exact hfailed (Erasure.pathError_ne_none _)
  · exact valid_ret fun _ _ h _ => h rfl

theorem valid_deleteEntries (entries : List BlobEntry) (firstError : AppError) (deletedCount : Nat) :
    Valid filesLogic (deleteEntries entries firstError deletedCount)
      (On fun directory => firstError = .none → OnlyBlobs entries directory)
      (fun result => On fun directory => result.1 = .none → NoBlobs directory) := by
  induction entries generalizing firstError deletedCount with
  | nil => exact valid_ret fun _ _ h hnone => noBlobs_of_only (h hnone)
  | cons entry rest ih =>
    apply valid_bind (valid_deleteWithOps (firstError = .none) entry rest)
    intro result
    split
    next hnone => exact (ih firstError (deletedCount + 1)).pre fun _ _ h => h hnone
    next herror =>
      apply (ih (if firstError = .none then result else firstError) deletedCount).pre
      intro store _ _ hfirst
      split at hfirst
      · exact absurd hfirst herror
      next hnot => exact absurd hfirst hnot

theorem onlyBlobs_of_scan {calls : FileCalls} {directory : Directory} {entries : List BlobEntry} {summary : ScanSummary}
    (h : scan calls 0 directory = .ok (entries, summary)) : OnlyBlobs entries directory := by
  intro name blobId content hparse hlookup
  obtain ⟨hname, hpositive, hmax⟩ := parseFilename_eq_some hparse
  rw [hname] at hlookup
  obtain ⟨hlisted, -⟩ := Transfer.scan_lists h hpositive hmax hlookup (Nat.zero_le _)
  exact List.mem_map.mpr ⟨_, ((hlisted _).mpr rfl).1, rfl⟩

theorem valid_deleted (result : AppError) (deletedCount : Nat) :
    Valid filesLogic (do
      recordDeleted deletedCount
      let synced ← if deletedCount > 0 then syncParent else pure none
      pure (if synced.isSome ∧ result = .none then .io else result) : BlobProg AppError)
      (On fun directory => result = .none → NoBlobs directory) (fun error => On fun directory => error = .none → NoBlobs directory) := by
  have hlast : ∀ synced : Option Errno, Valid filesLogic
      (.ret (if synced.isSome ∧ result = .none then .io else result) : BlobProg AppError)
      (On fun directory => result = .none → NoBlobs directory) (fun error => On fun directory => error = .none → NoBlobs directory) := by
    intro synced
    apply valid_ret
    intro store _ h hnone
    split at hnone
    · cases hnone
    · exact h hnone
  apply valid_bind (valid_files_kept _ fun _ _ => rfl)
  intro _
  dsimp only
  split
  · exact valid_bind (valid_files_kept _ fun _ _ => rfl) hlast
  · exact valid_bind (valid_ret fun _ _ h => h) hlast

theorem valid_blobDeleteAll : Valid filesLogic blobDeleteAll (On fun _ => True)
    (fun result => On fun directory => result = .none → NoBlobs directory) := by
  apply valid_bind (M := fun scanned => On fun directory => (∀ error, scanned = .error error → error ≠ .none) ∧
    ∀ entries summary, scanned = .ok (entries, summary) → OnlyBlobs entries directory)
  · apply valid_files
    exact fun calls store _ => ⟨fun _ hscan => scan_error hscan, fun _ _ hscan => onlyBlobs_of_scan hscan⟩
  intro scanned
  cases scanned with
  | error error => exact (valid_deleted error 0).pre fun _ _ h hnone => absurd hnone (h.1 error rfl)
  | ok result =>
    apply valid_bind ((valid_deleteEntries result.1 .none 0).pre fun _ _ h _ => h.2 result.1 result.2 rfl)
    intro deleted
    exact valid_deleted deleted.1 deleted.2

end Deletion

section Recovery

theorem onlyTemporaryFiles_rest {name : Name} {rest : List Name} {directory : Directory}
    (h : OnlyTemporaryFiles (name :: rest) directory)
    (hname : ∀ content, (parseTemporaryFilename name).isSome = true → directory.lookup name ≠ some (.file content)) :
    OnlyTemporaryFiles rest directory := by
  intro other content hother hlookup
  rcases List.mem_cons.mp (h other content hother hlookup) with rfl | hmem
  · exact absurd hlookup (hname content hother)
  · exact hmem

theorem onlyTemporaryFiles_erase {name : Name} {rest : List Name} {directory : Directory}
    (h : OnlyTemporaryFiles (name :: rest) directory) : OnlyTemporaryFiles rest (directory.erase name) := by
  intro other content hother hlookup
  have hne : other ≠ name := by
    rintro rfl
    rw [AList.lookup_erase] at hlookup
    cases hlookup
  rw [AList.lookup_erase_ne hne] at hlookup
  exact (List.mem_cons.mp (h other content hother hlookup)).resolve_left hne

theorem valid_recoverEntries (names : List Name) (removed : Nat) :
    Valid filesLogic (recoverEntries names removed) (On fun directory => OnlyTemporaryFiles names directory)
      (fun result => On fun directory => result.1 = .none → NoTemporaryFiles directory) := by
  have hfailed : ∀ {P : BlobStore → Prop} {count : Nat}, Valid filesLogic (.ret (.io, count) : BlobProg (AppError × Nat)) P
      (fun result => On fun directory => result.1 = .none → NoTemporaryFiles directory) :=
    valid_ret fun _ _ _ => nofun
  induction names generalizing removed with
  | nil =>
    apply valid_bind (valid_files_kept _ fun _ _ => rfl)
    intro read
    exact valid_ret fun _ _ h _ name content hname hlookup => List.not_mem_nil (h name content hname hlookup)
  | cons name rest ih =>
    apply valid_bind (valid_files_kept _ fun _ _ => rfl)
    intro read
    split
    · exact hfailed
    split
    next hnot =>
      apply (ih removed).pre
      intro store _ h
      apply onlyTemporaryFiles_rest h
      rw [Option.isNone_iff_eq_none] at hnot
      rw [hnot]
      exact nofun
    apply valid_bind (M := fun found => On fun directory => OnlyTemporaryFiles (name :: rest) directory ∧
      ∀ node, found = .ok node → directory.lookup name = some node)
    · apply valid_files
      intro calls store h
      refine ⟨h, fun node hfound => ?_⟩
      split at hfound
      · cases hfound
      · cases hfound
      next hlookup => rw [hlookup, Except.ok.inj hfound]
    intro found
    split
    · exact hfailed
    · apply (ih removed).pre
      rintro store _ ⟨h, hfound⟩
      apply onlyTemporaryFiles_rest h
      rw [hfound .directory rfl]
      exact nofun
    · apply valid_bind (M := fun unlinked => On fun directory => unlinked = none → OnlyTemporaryFiles rest directory)
      · apply valid_files
        rintro calls store ⟨h, -⟩
        split
        · exact nofun
        · exact nofun
        · exact fun _ => onlyTemporaryFiles_erase h
      intro unlinked
      split
      · exact hfailed
      · exact (ih (removed + 1)).pre fun _ _ h => h rfl

/-- `storage_blob_recover_startup` by itself leaves no temporary file, or reports an error. -/
theorem valid_recoverStartup : Valid filesLogic recoverStartup (On fun _ => True)
    (fun result => On fun directory => result = .none → NoTemporaryFiles directory) := by
  apply valid_bind (M := fun opened => On fun directory => ∀ names, opened = some names → OnlyTemporaryFiles names directory)
  · apply valid_files
    intro calls store _ names hopened name content _ hlookup
    split at hopened
    · rw [← Option.some.inj hopened]
      exact List.mem_map.mpr ⟨_, ScanReport.mem_listing.mpr hlookup, rfl⟩
    · cases hopened
  intro opened
  split
  · exact valid_ret fun _ _ _ => nofun
  next names =>
    apply valid_bind ((valid_recoverEntries names 0).pre fun _ _ h => h names rfl)
    rintro ⟨result, removed⟩
    apply valid_bind (valid_files_kept _ fun _ _ => rfl)
    intro closed
    have hresult : (if ¬ closed = true ∧ result = .none then AppError.io else result) = .none → result = .none := by
      intro hnone
      split at hnone
      · cases hnone
      · exact hnone
    revert hresult
    generalize (if ¬ closed = true ∧ result = .none then AppError.io else result) = finished
    intro hresult
    dsimp only
    split
    next herror => exact valid_ret fun _ _ _ hnone => absurd hnone herror
    next hnone =>
      rw [not_not] at hnone
      have hlast : ∀ synced : Option Errno, Valid filesLogic (.ret (if synced.isSome then .io else .none) : BlobProg AppError)
          (On fun directory => result = .none → NoTemporaryFiles directory)
          (fun error => On fun directory => error = .none → NoTemporaryFiles directory) :=
        fun _ => valid_ret fun _ _ h _ => h (hresult hnone)
      split
      · exact valid_bind (valid_files_kept _ fun _ _ => rfl) hlast
      · exact valid_bind (valid_ret fun _ _ h => h) hlast

theorem valid_recoverStartup_noBlobs (c : Prop) : Valid filesLogic recoverStartup (On fun directory => c → NoBlobs directory)
    (fun result => On fun directory => (c → NoBlobs directory) ∧ (result = .none → NoTemporaryFiles directory)) := by
  have hkept : Valid filesLogic recoverStartup (On fun directory => c → NoBlobs directory)
      (fun _ => On fun directory => c → NoBlobs directory) := by
    apply valid_of_always (stable_on _) _ erases_recoverStartup
    exact fun _ _ _ h herased => ⟨trivial, trivial, fun hc => (h hc).within herased.within⟩
  exact (valid_and hkept valid_recoverStartup).pre fun _ _ h => ⟨h, trivial⟩

end Recovery

end MacroKeyboard.Reset.ErasedFiles
