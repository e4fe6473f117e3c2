import Mathlib

namespace MacroKeyboard.Webapp

structure SaveToken where
  revision : Nat
  lineage : Nat
deriving DecidableEq, Repr

inductive MarkSavedResult
  | current | edited | superseded
deriving DecidableEq, Repr

/-- The state of `createRepositoryWorkingCopyStore`, which holds a repository. -/
structure WorkingCopy (R : Type) where
  baseline : R
  working : R
  dirty : Bool
  revision : Nat
  lineage : Nat
deriving DecidableEq

namespace WorkingCopy

variable {R : Type}

def create (initial : R) : WorkingCopy R := ⟨initial, initial, false, 0, 0⟩

def getSaveToken (store : WorkingCopy R) : SaveToken := ⟨store.revision, store.lineage⟩

def applyContentChange (repository : R) (store : WorkingCopy R) : WorkingCopy R :=
  { store with revision := store.revision + 1, working := repository, dirty := true }

def applyImport (repository : R) (store : WorkingCopy R) : WorkingCopy R :=
  { store with revision := store.revision + 1, working := repository, dirty := true }

def markSaved (savedRepository : R) (token : SaveToken) (store : WorkingCopy R) : MarkSavedResult × WorkingCopy R :=
  if token.lineage ≠ store.lineage then (.superseded, store)
  else if token.revision = store.revision then
    (.current,
      { store with
        baseline := savedRepository, working := savedRepository, dirty := false, revision := store.revision + 1 })
  else (.edited, { store with baseline := savedRepository, dirty := true, revision := store.revision + 1 })

def discardChanges (store : WorkingCopy R) : WorkingCopy R :=
  { store with
    revision := store.revision + 1, lineage := store.lineage + 1, working := store.baseline, dirty := false }

def replaceWorkingCopy (repository : R) (store : WorkingCopy R) : WorkingCopy R :=
  { baseline := repository, working := repository, dirty := false, revision := store.revision + 1,
    lineage := store.lineage + 1 }

def Clean (store : WorkingCopy R) : Prop := store.dirty = false → store.working = store.baseline

theorem clean_create (initial : R) : (create initial).Clean := fun _ => rfl

theorem clean_markSaved {store : WorkingCopy R} (h : store.Clean) (savedRepository : R) (token : SaveToken) :
    (store.markSaved savedRepository token).2.Clean := by
  unfold markSaved
  split
  · exact h
  split
  · exact fun _ => rfl
  · exact fun hdirty => by cases hdirty

theorem markSaved_superseded {store : WorkingCopy R} {savedRepository : R} {token : SaveToken}
    (h : (store.markSaved savedRepository token).1 = .superseded) : (store.markSaved savedRepository token).2 = store := by
  unfold markSaved at h ⊢
  split at h
  next hlineage => rw [if_pos hlineage]
  · split at h <;> cases h

/-- A save from before the last change leaves the working copy, and leaves it dirty
when it was. -/
theorem markSaved_older {store : WorkingCopy R} {savedRepository : R} {token : SaveToken}
    (h : token.revision ≠ store.revision) (hdirty : store.dirty = true) :
    (store.markSaved savedRepository token).2.working = store.working ∧
      (store.markSaved savedRepository token).2.dirty = true := by
  unfold markSaved
  split
  · exact ⟨rfl, hdirty⟩
  · exact ⟨rfl, rfl⟩

end WorkingCopy

end MacroKeyboard.Webapp
