import MacroKeyboard.Reset.Interruptions

namespace MacroKeyboard.Reset.Interruptions

open Settings Settings.Coherence Settings.Effects Blobs Threads.Program Threads.RelyGuarantee Threads.Restarts Threads.Turns
  ErasedFiles

section History

variable {history : List Transition} {transition : Transition}

theorem properHistory_nil : ProperHistory [] := by
  intro earlier transition later h
  cases earlier <;> cases h

theorem ProperHistory.concat (h : ProperHistory history) (hproper : transition.Proper history) :
    ProperHistory (history ++ [transition]) := by
  intro earlier other later heq
  rcases List.eq_nil_or_concat later with rfl | ⟨front, last, rfl⟩
  · obtain ⟨rfl, hlast⟩ := List.append_inj' heq rfl
    cases hlast
    exact hproper
  · rw [List.concat_eq_append, ← List.cons_append, ← List.append_assoc] at heq
    obtain ⟨hfront, -⟩ := List.append_inj' heq rfl
    exact h earlier other front hfront

theorem disturbed_concat : disturbed (history ++ [transition]) =
    match transition.stage with
    | .mark | .restart => false
    | .erase | .opening => disturbed history
    | .ordinary => disturbed history || decide transition.Changes := by
  unfold disturbed
  rw [List.foldl_append]
  rfl

theorem proper_ordinary (hstage : transition.stage = .ordinary) (hjournal : transition.after.journal = transition.before.journal) :
    transition.Proper history where
  erases h := by simp [hstage] at h
  keeps h := by simp [hstage] at h
  clears hbefore hafter := absurd (hjournal.symm.trans hafter) hbefore
  marks hbefore hafter := absurd (hjournal.trans hbefore) hafter
  opens h := by simp [hstage] at h

theorem proper_restart (hstage : transition.stage = .restart) (hjournal : transition.after.journal = transition.before.journal) :
    transition.Proper history where
  erases h := by simp [hstage] at h
  keeps h := by simp [hstage] at h
  clears hbefore hafter := absurd (hjournal.symm.trans hafter) hbefore
  marks hbefore hafter := absurd (hjournal.trans hbefore) hafter
  opens h := by simp [hstage] at h

theorem proper_erase (hstage : transition.stage = .erase) (hpending : transition.before.journal = some factoryResetStatePending)
    (hclears : transition.after.journal = none → transition.after.Erased ∨ disturbed history = true) :
    transition.Proper history where
  erases _ := hpending
  keeps h := by simp [hstage] at h
  clears _ hafter := ⟨hstage, hclears hafter⟩
  marks hbefore _ := by simp [hbefore] at hpending
  opens h := by simp [hstage] at h

end History

section Logic

def Beside (before after : ResetWorld) : Prop :=
  after = before ∨
    (after.journal = before.journal ∧ after.serving = before.serving ∧
      (Coherent before.settings → Coherent after.settings) ∧
      after.history = before.history ++ [⟨.ordinary, before.snapshot, after.snapshot⟩])

/-- The thread that may be at a reset: the startup, and from the opening on the task of the
resets. -/
def Owns (i : Nat) (world : ResetWorld) : Prop := i = 0 ∧ world.serving = false ∨ i = 1 ∧ world.serving = true

structure Sound (world : ResetWorld) : Prop where
  settings : Coherent world.settings
  history : ProperHistory world.history
  continuous : Continuous world

theorem Sound.step {before after : ResetWorld} {stage : Stage} (h : Sound before) (hcoherent : Coherent after.settings)
    (hhistory : after.history = before.history ++ [⟨stage, before.snapshot, after.snapshot⟩])
    (hproper : Transition.Proper before.history ⟨stage, before.snapshot, after.snapshot⟩) : Sound after := by
  refine ⟨hcoherent, ?_, ?_, ?_⟩
  · rw [hhistory]
    exact h.history.concat hproper
  · rw [hhistory, List.isChain_append]
    refine ⟨h.continuous.chained, List.isChain_singleton _, ?_⟩
    intro earlier hearlier later hlater
    cases hlater
    exact (h.continuous.current earlier hearlier).symm
  · rw [hhistory, List.getLast?_concat]
    rintro transition ⟨⟩
    rfl

def resetLogic (i : Nat) : Logic ResetWorld where
  inv := Sound
  halt _ := False
  rely before after := (i = 0 → after.serving = before.serving) ∧ (Owns i before → Beside before after)
  guar before after := (i ≠ 0 → after.serving = before.serving) ∧ (¬ Owns i before → Beside before after)

variable {i : Nat} {α : Type}

theorem Beside.refl (world : ResetWorld) : Beside world world := Or.inl rfl

theorem Beside.serving {before after : ResetWorld} (h : Beside before after) : after.serving = before.serving := by
  rcases h with rfl | ⟨-, hserving, -⟩
  · rfl
  · exact hserving

theorem Beside.journal {before after : ResetWorld} (h : Beside before after) : after.journal = before.journal := by
  rcases h with rfl | ⟨hjournal, -⟩
  · rfl
  · exact hjournal

theorem Beside.sound {before after : ResetWorld} (h : Beside before after) (hsound : Sound before) : Sound after := by
  rcases h with rfl | ⟨hjournal, -, hcoherent, hhistory⟩
  · exact hsound
  · exact hsound.step (hcoherent hsound.settings) hhistory (proper_ordinary rfl hjournal)

theorem owns_serving {before after : ResetWorld} (h : after.serving = before.serving) : Owns i after ↔ Owns i before := by
  rw [Owns, Owns, h]

theorem compatible_reset : Compatible resetLogic Sound (fun _ => False) (fun i world => i = 0 → world.serving = false) := by
  refine ⟨fun _ => rfl, fun _ => rfl, ?_, ?_⟩
  · rintro i j before after hne ⟨hserving, hbeside⟩
    refine ⟨fun hj => hserving fun hi => hne (hi.trans hj.symm), fun howns => hbeside fun hother => ?_⟩
    rcases howns with ⟨hj, hclosed⟩ | ⟨hj, hopen⟩ <;> rcases hother with ⟨hi, hclosed'⟩ | ⟨hi, hopen'⟩
    · exact hne (hi.trans hj.symm)
    · exact Bool.false_ne_true (hclosed.symm.trans hopen')
    · exact Bool.false_ne_true (hclosed'.symm.trans hopen)
    · exact hne (hi.trans hj.symm)
  · rintro i before after - - ⟨hserving, -⟩ hpre hi
    exact (hserving hi).trans (hpre hi)

/-- A reset is pending and has come so far, unless something has interfered. -/
def Erasing (i : Nat) (P : Option (List UInt8) → Directory → Prop) (world : ResetWorld) : Prop :=
  Owns i world ∧ world.journal = some factoryResetStatePending ∧
    (disturbed world.history = true ∨ P world.settings.nvs.record world.blobs.directory)

theorem Erasing.imp {P Q : Option (List UInt8) → Directory → Prop} {world : ResetWorld} (h : Erasing i P world)
    (himp : ∀ record directory, P record directory → Q record directory) : Erasing i Q world :=
  ⟨h.1, h.2.1, h.2.2.imp_right (himp _ _)⟩

theorem Beside.disturbs {before after : ResetWorld} (h : Beside before after) :
    (disturbed before.history = true → disturbed after.history = true) ∧
      (disturbed after.history = true ∨
        after.settings.nvs.record = before.settings.nvs.record ∧ after.blobs.directory = before.blobs.directory) := by
  rcases h with rfl | ⟨-, -, -, hhistory⟩
  · exact ⟨id, Or.inr ⟨rfl, rfl⟩⟩
  · rw [hhistory, disturbed_concat]
    dsimp only
    constructor
    · intro h
      rw [h, Bool.true_or]
    · by_cases hchanges : Transition.Changes ⟨.ordinary, before.snapshot, after.snapshot⟩
      · left
        rw [decide_eq_true hchanges, Bool.or_true]
      · right
        rw [Transition.Changes, not_or, not_not, not_not] at hchanges
        exact hchanges

theorem Erasing.beside {P : Option (List UInt8) → Directory → Prop} {before after : ResetWorld} (h : Erasing i P before)
    (hbeside : Beside before after) : Erasing i P after := by
  obtain ⟨howns, hpending, hstands⟩ := h
  obtain ⟨hkeeps, hsame⟩ := hbeside.disturbs
  refine ⟨(owns_serving hbeside.serving).mpr howns, hbeside.journal.trans hpending, ?_⟩
  rcases hstands with hdisturbed | hP
  · exact Or.inl (hkeeps hdisturbed)
  · rcases hsame with hdisturbed | ⟨hrecord, hdirectory⟩
    · exact Or.inl hdisturbed
    · rw [hrecord, hdirectory]
      exact Or.inr hP

theorem stable_erasing (P : Option (List UInt8) → Directory → Prop) : Stable (resetLogic i) (Erasing i P) :=
  fun _ _ _ _ hrely h => h.beside (hrely.2 h.1)

theorem valid_beside {p : ResetProg α} {P : ResetWorld → Prop} (hP : Stable (resetLogic i) P)
    (hkeeps : ∀ before after, P before → Beside before after → P after) (h : Always Beside p) :
    Valid (resetLogic i) p P (fun _ => P) := by
  apply valid_of_always hP _ h
  exact fun before after hsound hPs hbeside =>
    ⟨hbeside.sound hsound, ⟨fun _ => hbeside.serving, fun _ => hbeside⟩, hkeeps before after hPs hbeside⟩

theorem stable_true : Stable (resetLogic i) (fun _ => True) := fun _ _ _ _ _ _ => trivial

theorem valid_beside_true {p : ResetProg α} (h : Always Beside p) :
    Valid (resetLogic i) p (fun _ => True) (fun _ _ => True) := valid_beside stable_true (fun _ _ _ _ => trivial) h

end Logic

section Ordinary

variable {α : Type}

theorem beside_operation {f : ResetCalls → ResetWorld → α × ResetWorld}
    (h : ∀ calls world, (f calls world).2.journal = world.journal ∧ (f calls world).2.serving = world.serving ∧
      (Coherent world.settings → Coherent (f calls world).2.settings)) : Always Beside (operation .ordinary f) := by
  apply always_atomic
  intro calls world
  obtain ⟨hjournal, hserving, hcoherent⟩ := h calls world
  exact Or.inr ⟨hjournal, hserving, hcoherent, rfl⟩

theorem beside_read (f : ResetCalls → ResetWorld → α) :
    Always Beside (Prog.atomic (fun calls world => (f calls world, world)) : ResetProg α) :=
  always_atomic fun _ _ => Or.inl rfl

theorem beside_onBlobs (p : BlobProg α) : Always Beside (onBlobs .ordinary p) := by
  have hstep : ∀ world blobs, True → Beside world (world.noted .ordinary { world with blobs }) :=
    fun _ _ _ => Or.inr ⟨rfl, rfl, id, rfl⟩
  exact always_zoom Beside.refl hstep (always_true p)

theorem beside_onSettings (settingsOperation : Operation) : Always Beside (onSettings .ordinary settingsOperation) :=
  beside_operation fun calls _ => ⟨rfl, rfl, fun h => (truthful_perform calls.store settingsOperation h).coherent⟩

theorem coherent_unloaded {store : Store} (h : store.core.loaded = false) : Coherent store := by
  constructor
  · intro hloaded
    rw [h] at hloaded
    cases hloaded
  · intro hloaded
    rw [h] at hloaded
    cases hloaded

/-- An operation on the settings as a whole keeps them coherent, and their record. -/
structure KeepsRecord (before after : ResetWorld) : Prop where
  journal : after.journal = before.journal
  serving : after.serving = before.serving
  coherent : Coherent before.settings → Coherent after.settings
  record : after.settings.nvs.record = before.settings.nvs.record
  directory : after.blobs.directory = before.blobs.directory

theorem KeepsRecord.refl (world : ResetWorld) : KeepsRecord world world := ⟨rfl, rfl, id, rfl, rfl⟩

theorem openSettings_keeps (calls : ResetCalls) (world : ResetWorld) : KeepsRecord world (openSettings calls world).2 := by
  have hunloaded : Coherent (Store.start world.settings.nvs.record) := coherent_unloaded rfl
  unfold openSettings
  split
  · exact .refl world
  split
  · exact .refl world
  dsimp only
  split
  · exact .refl world
  · exact ⟨rfl, rfl, fun _ => (truthful_load calls.store hunloaded).coherent, (load_stored calls.store hunloaded).1, rfl⟩

theorem closeSettings_keeps (calls : ResetCalls) (world : ResetWorld) : KeepsRecord world (closeSettings calls world).2 := by
  unfold closeSettings
  dsimp only
  split
  · exact ⟨rfl, rfl, fun _ => coherent_unloaded rfl, rfl, rfl⟩
  · exact .refl world

theorem beside_settingsInit : Always Beside (settingsInit .ordinary) :=
  beside_operation fun calls world =>
    ⟨(openSettings_keeps calls world).journal, (openSettings_keeps calls world).serving,
      (openSettings_keeps calls world).coherent⟩

theorem beside_serveStoreRequest (request : StoreRequest) : Always Beside (serveStoreRequest request) := by
  cases request with
  | settings settingsOperation => exact always_bind (beside_onSettings settingsOperation) fun _ => trivial
  | blobList => exact always_bind (beside_onBlobs _) fun _ => trivial
  | blobCreate contentLength received => exact always_bind (beside_onBlobs _) fun _ => trivial
  | blobDelete blobId => exact always_bind (beside_onBlobs _) fun _ => trivial

end Ordinary

section Stages

variable {i : Nat} {α : Type}

theorem valid_stage {f : ResetCalls → ResetWorld → α × ResetWorld} {P : Option (List UInt8) → Directory → Prop}
    {Q : α → Option (List UInt8) → Directory → Prop}
    (hkeeps : ∀ calls world, Coherent world.settings → (f calls world).2.journal = world.journal ∧
      (f calls world).2.serving = world.serving ∧ Coherent (f calls world).2.settings)
    (hpost : ∀ calls world, Coherent world.settings → P world.settings.nvs.record world.blobs.directory →
      Q (f calls world).1 (f calls world).2.settings.nvs.record (f calls world).2.blobs.directory) :
    Valid (resetLogic i) (operation .erase f) (Erasing i P) (fun a => Erasing i (Q a)) := by
  apply valid_atomic fun a => stable_erasing (Q a)
  rintro calls world hsound ⟨howns, hpending, hstands⟩
  obtain ⟨hjournal, hserving, hcoherent⟩ := hkeeps calls world hsound.settings
  have hjournal' : (f calls world).2.journal = some factoryResetStatePending := hjournal.trans hpending
  refine ⟨hsound.step hcoherent rfl (proper_erase rfl hpending ?_),
    ⟨fun _ => hserving, fun hnot => absurd howns hnot⟩, (owns_serving hserving).mpr howns, hjournal', ?_⟩
  · exact fun hnone => absurd (hjournal'.symm.trans hnone) (Option.some_ne_none _)
  · change disturbed (world.history ++ [_]) = true ∨ _
    rw [disturbed_concat]
    exact hstands.imp_right (hpost calls world hsound.settings)

/-- A program over the files as a part of a reset. -/
theorem valid_stage_files {p : BlobProg α} {G : Option (List UInt8) → Prop} {P : Directory → Prop}
    {Q : α → Directory → Prop} (h : Valid filesLogic p (On P) (fun a => On (Q a))) :
    Valid (resetLogic i) (onBlobs .erase p) (Erasing i fun record directory => G record ∧ P directory)
      (fun a => Erasing i fun record directory => G record ∧ Q a directory) := by
  have hzoom : Valid (resetLogic i) (onBlobs .erase p)
      (fun world => Erasing i (fun record _ => G record) world ∧ (disturbed world.history = true ∨ On P world.blobs))
      (fun a world => Erasing i (fun record _ => G record) world ∧ (disturbed world.history = true ∨ On (Q a) world.blobs)) := by
    refine valid_zoom_unless (K := filesLogic) (L := resetLogic i) (D := fun world => disturbed world.history = true)
      (F := Erasing i fun record _ => G record) (fun _ h => h) (fun _ _ => trivial) ?_ ?_ h
    · rintro before after hs hs' hrely hF
      have hbeside := hrely.2 hF.1
      refine ⟨stable_erasing _ before after hs hs' hrely hF, hbeside.disturbs.1, ?_⟩
      exact hbeside.disturbs.2.imp_right And.right
    · rintro world blobs hsound ⟨howns, hpending, hstands⟩
      have hsame : disturbed (world.noted .erase { world with blobs }).history = disturbed world.history := disturbed_concat
      refine ⟨rfl, hsound.step hsound.settings rfl (proper_erase rfl hpending ?_),
        ⟨fun _ => rfl, fun hnot => absurd howns hnot⟩, ⟨howns, hpending, ?_⟩, ?_⟩
      · exact fun hnone => absurd (hpending.symm.trans hnone) (Option.some_ne_none _)
      · rw [hsame]
        exact hstands
      · rw [hsame]
        exact id
  apply (hzoom.pre ?_).post
  · rintro a world - ⟨⟨howns, hpending, hG⟩, hQ⟩
    refine ⟨howns, hpending, ?_⟩
    rcases hG with hdisturbed | hG
    · exact Or.inl hdisturbed
    · exact hQ.imp_right fun hQ => ⟨hG, hQ⟩
  · rintro world - herasing
    exact ⟨herasing.imp fun _ _ h => h.1, herasing.2.2.imp_right And.right⟩

theorem valid_stage_ask (P : Option (List UInt8) → Directory → Prop) :
    Valid (resetLogic i) askResult (Erasing i P) (fun _ => Erasing i P) :=
  valid_beside (stable_erasing P) (fun _ _ h hbeside => h.beside hbeside) (beside_read _)

theorem valid_stage_kept {f : ResetCalls → ResetWorld → AppError × ResetWorld}
    (hkeeps : ∀ calls world, KeepsRecord world (f calls world).2) (P : Option (List UInt8) → Directory → Prop) :
    Valid (resetLogic i) (operation .erase f) (Erasing i P) (fun _ => Erasing i P) := by
  apply valid_stage
  · intro calls world hcoherent
    exact ⟨(hkeeps calls world).journal, (hkeeps calls world).serving, (hkeeps calls world).coherent hcoherent⟩
  · intro calls world _ hP
    rw [(hkeeps calls world).record, (hkeeps calls world).directory]
    exact hP

theorem valid_eraseSettings (P : Option (List UInt8) → Directory → Prop) :
    Valid (resetLogic i) (onSettings .erase .factoryReset) (Erasing i P)
      (fun erased => Erasing i fun record _ => erased = .none → Unprovisioned record) := by
  apply valid_stage
  · exact fun calls world hcoherent => ⟨rfl, rfl, (truthful_perform calls.store .factoryReset hcoherent).coherent⟩
  · intro calls world hcoherent _ hnone
    have hwrite : Operation.factoryReset ≠ .load := nofun
    obtain ⟨settings, after, htarget, hafter, hsame⟩ := (effect_perform calls.store hwrite hcoherent).success hnone
    rw [← Option.some.inj htarget] at hsame
    exact ⟨after, hafter, hsame⟩

theorem recordFirstError_none {candidate firstError : AppError} (h : recordFirstError candidate firstError = .none) :
    candidate = .none ∧ firstError = .none := by
  unfold recordFirstError at h
  split at h
  next hboth => exact absurd h hboth.1
  next hnot =>
    refine ⟨?_, h⟩
    by_contra hne
    exact hnot ⟨hne, h⟩

def FilesErased (deleted cleaned : AppError) (directory : Directory) : Prop :=
  (deleted = .none → NoBlobs directory) ∧ (cleaned = .none → NoTemporaryFiles directory)

theorem valid_eraseFiles {G : Option (List UInt8) → Prop} {Q : AppError → Option (List UInt8) → Directory → Prop}
    {rest : AppError → AppError → ResetProg AppError}
    (hrest : ∀ deleted cleaned, Valid (resetLogic i) (rest deleted cleaned)
      (Erasing i fun record directory => G record ∧ FilesErased deleted cleaned directory) (fun a => Erasing i (Q a))) :
    Valid (resetLogic i)
      (do
        let deleted ← onBlobs .erase blobDeleteAll
        let cleaned ← onBlobs .erase recoverStartup
        rest deleted cleaned)
      (Erasing i fun record _ => G record) (fun a => Erasing i (Q a)) := by
  apply valid_bind ((valid_stage_files valid_blobDeleteAll).pre fun _ _ h => h.imp fun _ _ hG => ⟨hG, trivial⟩)
  intro deleted
  apply valid_bind (valid_stage_files (valid_recoverStartup_noBlobs (deleted = .none)))
  intro cleaned
  exact hrest deleted cleaned

theorem valid_eraseRest {G : Option (List UInt8) → Prop} :
    Valid (resetLogic i) eraseRest (Erasing i fun record _ => G record)
      (fun error => Erasing i fun record directory => error = .none →
        G record ∧ NoBlobs directory ∧ NoTemporaryFiles directory) := by
  apply valid_bind (valid_stage_ask _)
  intro sessions
  apply valid_eraseFiles
  intro deleted cleaned
  apply valid_ret
  intro world _ h
  apply h.imp
  rintro record directory ⟨hG, hblobs, htemporary⟩ hnone
  obtain ⟨hcleaned, hothers⟩ := recordFirstError_none hnone
  exact ⟨hG, hblobs (recordFirstError_none hothers).1, htemporary hcleaned⟩

end Stages

section Journal

variable {i : Nat}

def Holds (i : Nat) (P : Journal → Prop) (world : ResetWorld) : Prop := Owns i world ∧ P world.journal

theorem Holds.beside {P : Journal → Prop} {before after : ResetWorld} (h : Holds i P before)
    (hbeside : Beside before after) : Holds i P after := by
  refine ⟨(owns_serving hbeside.serving).mpr h.1, ?_⟩
  rw [hbeside.journal]
  exact h.2

theorem stable_holds (P : Journal → Prop) : Stable (resetLogic i) (Holds i P) :=
  fun _ _ _ _ hrely h => h.beside (hrely.2 h.1)

theorem markPending_cases (calls : JournalCalls) (journal : Journal) :
    factoryResetStateMarkPending calls journal = (.none, some factoryResetStatePending) ∨
      (factoryResetStateMarkPending calls journal).1 ≠ .none ∧
        ((factoryResetStateMarkPending calls journal).2 = some factoryResetStatePending ∨
          (factoryResetStateMarkPending calls journal).2 = journal) := by
  unfold factoryResetStateMarkPending adapterWriteValue
  split
  · exact Or.inr ⟨mapNvsError_ne_none _, Or.inr rfl⟩
  split
  · exact Or.inl rfl
  · refine Or.inr ⟨mapNvsError_ne_none _, ?_⟩
    dsimp only
    split
    · exact Or.inl rfl
    · exact Or.inr rfl

theorem clear_cases (calls : JournalCalls) (journal : Journal) :
    factoryResetStateClear calls journal = (.none, none) ∨
      (factoryResetStateClear calls journal).1 ≠ .none ∧
        ((factoryResetStateClear calls journal).2 = none ∨ (factoryResetStateClear calls journal).2 = journal) := by
  unfold factoryResetStateClear adapterEraseValue
  split
  · exact Or.inr ⟨mapNvsError_ne_none _, Or.inr rfl⟩
  split
  · exact Or.inl rfl
  split
  · exact Or.inl rfl
  · refine Or.inr ⟨mapNvsError_ne_none _, ?_⟩
    dsimp only
    split
    · exact Or.inl rfl
    · exact Or.inr rfl

structure ReadsJournal (read : Except AppError FactoryResetState) (journal : Journal) : Prop where
  error : ∀ error, read = .error error → error ≠ .none
  absent : read = .ok .none → journal = none
  pending : read = .ok .pending → journal = some factoryResetStatePending

theorem readsJournal (calls : JournalCalls) (journal : Journal) :
    ReadsJournal (factoryResetStateRead calls journal) journal := by
  unfold factoryResetStateRead
  split
  · exact ⟨fun _ h => Except.error.inj h ▸ mapNvsError_ne_none _, nofun, nofun⟩
  · exact ⟨fun _ h => Except.error.inj h ▸ mapNvsError_ne_none _, nofun, nofun⟩
  · exact ⟨nofun, fun _ => rfl, nofun⟩
  next stored =>
    split
    · exact ⟨fun _ h => Except.error.inj h ▸ nofun, nofun, nofun⟩
    next hstored => exact ⟨nofun, nofun, fun _ => congrArg some (not_not.mp hstored)⟩

theorem proper_mark {history : List Transition} {before after : Snapshot}
    (hsame : after.record = before.record ∧ after.directory = before.directory)
    (hjournal : after.journal = some factoryResetStatePending ∨ after.journal = before.journal) :
    Transition.Proper history ⟨.mark, before, after⟩ where
  erases h := by cases h
  keeps _ hchanges := hchanges.elim (fun h => h hsame.1) (fun h => h hsame.2)
  clears hbefore hafter := by
    rcases hjournal with hpending | hkept
    · exact absurd (hpending.symm.trans hafter) (Option.some_ne_none _)
    · exact absurd (hkept.symm.trans hafter) hbefore
  marks hbefore hafter := by
    rcases hjournal with hpending | hkept
    · exact ⟨rfl, hpending⟩
    · exact absurd (hkept.trans hbefore) hafter
  opens h := by cases h

theorem valid_markPending : Valid (resetLogic i) (onJournal .mark factoryResetStateMarkPending) (Owns i)
    (fun marked => Holds i fun journal => marked = .none → journal = some factoryResetStatePending) := by
  apply valid_atomic fun _ => stable_holds _
  intro calls world hsound howns
  have hjournal : (factoryResetStateMarkPending calls.journal world.journal).2 = some factoryResetStatePending ∨
      (factoryResetStateMarkPending calls.journal world.journal).2 = world.journal := by
    rcases markPending_cases calls.journal world.journal with heq | ⟨-, h⟩
    · exact Or.inl (congrArg Prod.snd heq)
    · exact h
  refine ⟨hsound.step hsound.settings rfl (proper_mark ⟨rfl, rfl⟩ hjournal),
    ⟨fun _ => rfl, fun hnot => absurd howns hnot⟩, howns, ?_⟩
  intro hnone
  rcases markPending_cases calls.journal world.journal with heq | ⟨herror, -⟩
  · exact congrArg Prod.snd heq
  · exact absurd hnone herror

def AllErased (record : Option (List UInt8)) (directory : Directory) : Prop :=
  Unprovisioned record ∧ NoBlobs directory ∧ NoTemporaryFiles directory

theorem valid_clear : Valid (resetLogic i) (onJournal .erase factoryResetStateClear) (Erasing i AllErased)
    (fun cleared => Holds i fun journal => cleared = .none → journal = none) := by
  apply valid_atomic fun _ => stable_holds _
  rintro calls world hsound ⟨howns, hpending, hstands⟩
  refine ⟨hsound.step hsound.settings rfl (proper_erase rfl hpending fun _ => ?_),
    ⟨fun _ => rfl, fun hnot => absurd howns hnot⟩, howns, ?_⟩
  · rcases hstands with hdisturbed | ⟨hsettings, hblobs, htemporary⟩
    · exact Or.inr hdisturbed
    · exact Or.inl ⟨hsettings, hblobs, htemporary⟩
  · intro hnone
    rcases clear_cases calls.journal world.journal with heq | ⟨herror, -⟩
    · exact congrArg Prod.snd heq
    · exact absurd hnone herror

theorem valid_readJournal : Valid (resetLogic i) readJournal (Owns i) (fun read => Holds i (ReadsJournal read)) := by
  apply valid_atomic fun _ => stable_holds _
  intro calls world hsound howns
  exact ⟨hsound, ⟨fun _ => rfl, fun _ => Or.inl rfl⟩, howns, readsJournal calls.journal world.journal⟩

end Journal

section Programs

variable {i : Nat}

theorem Erasing.holds {P : Option (List UInt8) → Directory → Prop} {Q : Journal → Prop} {world : ResetWorld}
    (h : Erasing i P world) (hQ : Q (some factoryResetStatePending)) : Holds i Q world :=
  ⟨h.1, h.2.1.symm ▸ hQ⟩

theorem valid_finishReset (firstError : AppError) :
    Valid (resetLogic i)
      (do
        let restart ← askResult
        if recordFirstError restart firstError ≠ .none then pure ⟨true, true, recordFirstError restart firstError⟩
        else
          let cleared ← onJournal .erase factoryResetStateClear
          pure ⟨true, cleared ≠ .none, cleared⟩ : ResetProg FactoryResetOutcome)
      (Erasing i fun record directory => firstError = .none → AllErased record directory) (fun _ => Owns i) := by
  apply valid_bind (valid_stage_ask _)
  intro restart
  split
  · exact valid_ret fun _ _ h => h.1
  next hnone =>
    rw [not_not] at hnone
    apply valid_bind (valid_clear.pre fun _ _ h => h.imp fun _ _ h => h (recordFirstError_none hnone).2)
    intro cleared
    exact valid_ret fun _ _ h => h.1

theorem valid_factoryResetSteps : Valid (resetLogic i) factoryResetSteps (Owns i) (fun _ => Owns i) := by
  apply valid_bind valid_markPending
  intro marked
  split
  · exact valid_ret fun _ _ h => h.1
  next hmarked =>
    rw [not_not] at hmarked
    apply valid_bind ((valid_eraseSettings fun _ _ => True).pre fun _ _ h => ⟨h.1, h.2 hmarked, Or.inr trivial⟩)
    intro erased
    dsimp only
    split
    next herased =>
      apply valid_bind ((valid_eraseRest (G := Unprovisioned)).pre fun _ _ h => h.imp fun _ _ hnone => hnone herased)
      intro firstError
      exact valid_finishReset firstError
    next herased =>
      apply valid_bind (valid_ret (Q := fun firstError => Erasing i fun record directory =>
        firstError = .none → AllErased record directory) fun _ _ h => h.imp fun _ _ _ hnone => absurd hnone herased)
      intro firstError
      exact valid_finishReset firstError

theorem valid_recoverSettings : Valid (resetLogic i) recoverSettingsSteps (Erasing i fun _ _ => True)
    (fun result => Erasing i fun record _ => result = .none → Unprovisioned record) := by
  apply valid_bind (valid_stage_kept openSettings_keeps _)
  intro initialized
  split
  next herror => exact valid_ret fun _ _ h => h.imp fun _ _ _ hnone => absurd hnone herror
  · apply valid_bind (valid_eraseSettings _)
    intro erased
    apply valid_bind (valid_stage_kept closeSettings_keeps _)
    intro deinitialized
    exact valid_ret fun _ _ h => h.imp fun _ _ h hnone => h (recordFirstError_none hnone).2

theorem valid_recoverStorage {G : Option (List UInt8) → Prop} :
    Valid (resetLogic i) recoverStorageSteps (Erasing i fun record _ => G record)
      (fun result => Erasing i fun record directory => result = .none →
        G record ∧ NoBlobs directory ∧ NoTemporaryFiles directory) := by
  have hfailed : ∀ {P : Option (List UInt8) → Directory → Prop} {error : AppError}, error ≠ .none →
      Valid (resetLogic i) (.ret error : ResetProg AppError) (Erasing i P)
        (fun result => Erasing i fun record directory => result = .none →
          G record ∧ NoBlobs directory ∧ NoTemporaryFiles directory) :=
    fun herror => valid_ret fun _ _ h => h.imp fun _ _ _ hnone => absurd hnone herror
  apply valid_bind (valid_stage_ask _)
  intro mounted
  split
  next herror => exact hfailed herror
  apply valid_bind ((valid_stage_files (Q := fun _ _ => True) (P := fun _ => True) ?_).pre
    fun _ _ h => h.imp fun _ _ hG => ⟨hG, trivial⟩)
  · intro prepared
    split
    next herror => exact hfailed herror
    apply Valid.pre (P := Erasing i fun record _ => G record) _ fun _ _ h => h.imp fun _ _ h => h.1
    apply valid_eraseFiles
    intro deleted cleaned
    apply valid_bind (valid_stage_ask _)
    intro unmounted
    apply valid_ret
    intro world _ h
    apply h.imp
    rintro record directory ⟨hG, hblobs, htemporary⟩ hnone
    obtain ⟨hcleaned, hdeleted⟩ := recordFirstError_none (recordFirstError_none hnone).2
    exact ⟨hG, hblobs hdeleted, htemporary hcleaned⟩
  · exact valid_of_always (stable_on _) (fun _ _ _ _ _ => ⟨trivial, trivial, trivial⟩) (always_true _)

theorem valid_recoverySteps : Valid (resetLogic i) recoverySteps (Owns i)
    (fun recovered => Holds i fun journal => recovered = .none → journal = none) := by
  apply valid_bind valid_readJournal
  intro read
  match read with
  | .error error => exact valid_ret fun _ _ h => ⟨h.1, fun hnone => absurd hnone (h.2.error error rfl)⟩
  | .ok .none => exact valid_ret fun _ _ h => ⟨h.1, fun _ => h.2.absent rfl⟩
  | .ok .pending =>
    apply valid_bind (valid_recoverSettings.pre fun _ _ h => ⟨h.1, h.2.pending rfl, Or.inr trivial⟩)
    intro settings
    split
    next herror => exact valid_ret fun _ _ h => h.holds fun hnone => absurd hnone herror
    next hsettings =>
      rw [not_not] at hsettings
      apply valid_bind ((valid_recoverStorage (G := Unprovisioned)).pre fun _ _ h => h.imp fun _ _ h => h hsettings)
      intro storage
      split
      next herror => exact valid_ret fun _ _ h => h.holds fun hnone => absurd hnone herror
      next hstorage =>
        exact valid_clear.pre fun _ _ h => h.imp fun _ _ h => h (not_not.mp hstorage)

end Programs

section Tasks

variable {i : Nat}

theorem proper_opening {history : List Transition} {before after : Snapshot} (habsent : before.journal = none)
    (hsame : after = before) : Transition.Proper history ⟨.opening, before, after⟩ where
  erases h := by cases h
  keeps _ hchanges := by
    rw [hsame] at hchanges
    exact hchanges.elim (fun h => h rfl) (fun h => h rfl)
  clears hbefore _ := absurd habsent hbefore
  marks _ hafter := absurd ((congrArg Snapshot.journal hsame).trans habsent) hafter
  opens _ := habsent

theorem valid_opening : Valid (resetLogic 0) (operation .opening fun _ world => ((), { world with serving := true }))
    (Holds 0 fun journal => journal = none) (fun _ _ => True) := by
  apply valid_atomic fun _ => stable_true
  rintro calls world hsound ⟨howns, habsent⟩
  exact ⟨hsound.step hsound.settings rfl (proper_opening habsent rfl),
    ⟨fun hne => absurd rfl hne, fun hnot => absurd howns hnot⟩, trivial⟩

theorem valid_startup : Valid (resetLogic 0) startup (fun world => world.serving = false) (fun _ _ => True) := by
  have hkeeps : ∀ {α : Type} {p : ResetProg α}, Always Beside p →
      Valid (resetLogic 0) p (Holds 0 fun journal => journal = none) (fun _ => Holds 0 fun journal => journal = none) :=
    fun h => valid_beside (stable_holds _) (fun _ _ hholds hbeside => hholds.beside hbeside) h
  apply valid_bind (valid_recoverySteps.pre fun _ _ h => Or.inl ⟨rfl, h⟩)
  intro recovered
  split
  · exact valid_ret fun _ _ _ => trivial
  next hrecovered =>
    apply Valid.pre (P := Holds 0 fun journal => journal = none) _ fun _ _ h => ⟨h.1, h.2 (not_not.mp hrecovered)⟩
    apply valid_bind (hkeeps beside_settingsInit)
    intro initialized
    split
    · exact valid_ret fun _ _ _ => trivial
    apply valid_bind (hkeeps (beside_read _))
    intro mounted
    split
    · exact valid_ret fun _ _ _ => trivial
    apply valid_bind (hkeeps (beside_onBlobs prepareDirectories))
    intro prepared
    split
    · exact valid_ret fun _ _ _ => trivial
    · exact valid_opening

theorem valid_resetTask : Valid (resetLogic 1) resetTask (fun _ => True) (fun _ _ => True) := by
  apply valid_repeatUntil stable_true fun _ => stable_true
  apply valid_bind (M := fun serving world => serving = true → Owns 1 world)
  · apply valid_atomic
    · rintro serving before after - - ⟨-, hbeside⟩ h hserving
      exact (owns_serving (hbeside (h hserving)).serving).mpr (h hserving)
    · exact fun _ world hsound _ => ⟨hsound, ⟨fun _ => rfl, fun _ => Or.inl rfl⟩, fun hserving => Or.inr ⟨rfl, hserving⟩⟩
  intro serving
  split
  · exact valid_ret fun _ _ _ => trivial
  next hserving =>
    rw [not_not] at hserving
    have howned : Stable (resetLogic 1) (Owns 1) := by
      rintro before after - - ⟨-, hbeside⟩ h
      exact (owns_serving (hbeside h).serving).mpr h
    have hkeeps : ∀ {α : Type} {p : ResetProg α}, Always Beside p → Valid (resetLogic 1) p (Owns 1) (fun _ => Owns 1) :=
      fun h => valid_beside howned (fun _ _ howns hbeside => (owns_serving hbeside.serving).mpr howns) h
    apply valid_bind ((hkeeps (beside_read _)).pre fun _ _ h => h hserving)
    intro resetRequested
    split
    · apply valid_bind valid_factoryResetSteps
      intro outcome
      exact valid_ret fun _ _ _ => trivial
    · apply valid_bind (hkeeps (beside_read _))
      intro request
      apply valid_bind (hkeeps (beside_serveStoreRequest request))
      intro _
      exact valid_ret fun _ _ _ => trivial

theorem beside_guardedTask : Always Beside guardedTask := by
  apply always_repeatUntil Beside.refl
  apply always_bind (beside_read _)
  intro serving
  split
  · trivial
  apply always_bind (beside_read _)
  intro read
  match read with
  | .error _ => trivial
  | .ok .pending => trivial
  | .ok .none =>
    exact always_bind (beside_read _) fun request => always_bind (beside_serveStoreRequest request) fun _ => trivial

theorem beside_unguardedTask : Always Beside unguardedTask := by
  apply always_repeatUntil Beside.refl
  exact always_bind (beside_read _) fun request => always_bind (beside_serveStoreRequest request) fun _ => trivial

theorem valid_thread {p : ResetProg Unit} (h : ResetThread i p) :
    Valid (resetLogic i) p (fun world => i = 0 → world.serving = false) (fun _ _ => True) := by
  cases h with
  | startup => exact valid_startup.pre fun _ _ h => h rfl
  | reset => exact valid_resetTask.pre fun _ _ _ => trivial
  | guarded _ => exact (valid_beside_true beside_guardedTask).pre fun _ _ _ => trivial
  | unguarded _ => exact (valid_beside_true beside_unguardedTask).pre fun _ _ _ => trivial

theorem sound_of_run {c : Config ResetWorld ResetCalls} (h : ResetRun c) : Sound c.state := by
  refine (invariant_lifetime compatible_reset (fun _ h => h) (fun _ _ hp => valid_thread hp) ?_ ?_ h).inv_holds
  · intro world hstart
    refine ⟨⟨?_, ?_, ?_, ?_⟩, fun _ _ => hstart.serving⟩
    · rw [hstart.settings]
      exact coherent_unloaded rfl
    · rw [hstart.history]
      exact properHistory_nil
    · rw [hstart.history]
      exact List.isChain_nil
    · rw [hstart.history]
      exact nofun
  · intro before after hsound hcycled
    refine ⟨hsound.step ?_ hcycled.history (proper_restart rfl hcycled.journal), fun _ _ => hcycled.serving⟩
    rw [hcycled.settings]
    exact coherent_unloaded rfl

end Tasks

section Runs

def calmFiles : FileCalls := ⟨none, 1, true, true, fun _ => true, true, fun _ => true, true, true, none, false⟩

/-- Every operation works; a reset is asked for, or else an upload. -/
def calmCalls : ResetCalls where
  journal := quietJournal
  store := quietCalls
  files := calmFiles
  result := .none
  closed := false
  resetRequested := true
  request := .blobCreate 1 [.chunk [1]]

/-- A device with settings and a blob of its owner. -/
def ownedWorld : ResetWorld where
  journal := none
  settings := closedStore (some (Codec.recordBytes secondSettings))
  blobs := ⟨(∅ : Directory).insert (formatFilename 1) (.file [1]), some 2, .zero⟩
  serving := false
  history := []

def calmSteps (task count : Nat) : List (Nat × ResetCalls) := List.replicate count (task, calmCalls)

def resetRun (world : ResetWorld) (schedule : List (Nat × ResetCalls)) : Config ResetWorld ResetCalls :=
  (⟨world, [startup, resetTask, guardedTask]⟩ : Config ResetWorld ResetCalls).runSchedule (fun _ => false) schedule

theorem resetRun_run {world : ResetWorld} (h : ResetRun ⟨world, []⟩) (schedule : List (Nat × ResetCalls)) :
    ResetRun (resetRun world schedule) := by
  refine lifetime_runSchedule (S := resetSystem) ?_ schedule
  apply lifetime_start h rfl
  intro i p hp
  match i, hp with
  | 0, hp =>
    cases hp
    exact .startup
  | 1, hp =>
    cases hp
    exact .reset
  | 2, hp =>
    cases hp
    exact .guarded (Nat.le_refl 2)

theorem ownedWorld_run : ResetRun ⟨ownedWorld, []⟩ := .start ⟨rfl, rfl, rfl⟩

def powerLost (world : ResetWorld) : ResetWorld :=
  let after := { world with settings := closedStore world.settings.nvs.record, serving := false }
  { after with history := world.history ++ [⟨.restart, world.snapshot, after.snapshot⟩] }

theorem powerLost_run {c : Config ResetWorld ResetCalls} (h : ResetRun c) : ResetRun ⟨powerLost c.state, []⟩ :=
  .restart h ⟨rfl, rfl, fun _ _ => rfl, rfl, rfl, rfl⟩

def cutRun : Config ResetWorld ResetCalls := resetRun ownedWorld (calmSteps 0 20 ++ calmSteps 1 6)

def recoveredRun : Config ResetWorld ResetCalls := resetRun (powerLost cutRun.state) (calmSteps 0 40)

def disturbedRun : Config ResetWorld ResetCalls :=
  resetRun ownedWorld (calmSteps 0 20 ++ calmSteps 2 4 ++ calmSteps 1 14 ++ calmSteps 2 18 ++ calmSteps 1 3)

end Runs

/-- Over every run of the startup, of a task that serves factory resets and of any number of
others beside it, with whatever failures and losses of power: the settings and the files are
erased only with the marker written; only a reset writes it; it goes only where the settings
are those of a new device and no blob or temporary file is left, unless something besides the
reset has changed them since it was written or since the last start; and the services open
only without it. -/
theorem factory_reset_protocol {c : Config ResetWorld ResetCalls} (h : ResetRun c) :
    Continuous c.state ∧
      ∀ earlier transition later, c.state.history = earlier ++ transition :: later → transition.Proper earlier :=
  ⟨(sound_of_run h).continuous, (sound_of_run h).history⟩

/-- A recovery completes a reset that was cut; an upload that was let through before a reset
leaves its blob on the device. -/
theorem factory_reset_protocol_cut :
    (cutRun.state.journal = some factoryResetStatePending ∧ cutRun.state.blobs.directory.lookup (formatFilename 1) = some (.file [1]) ∧
      recoveredRun.state.journal = none ∧ recoveredRun.state.serving = true ∧
      recoveredRun.state.blobs.directory.lookup (formatFilename 1) = none ∧
      Continuous recoveredRun.state ∧ ∀ earlier transition later,
        recoveredRun.state.history = earlier ++ transition :: later → transition.Proper earlier) ∧
    (disturbedRun.state.journal = none ∧ disturbed disturbedRun.state.history = true ∧
      disturbedRun.state.blobs.directory.lookup (formatFilename 2) = some (.file [1]) ∧
      Continuous disturbedRun.state ∧ ∀ earlier transition later,
        disturbedRun.state.history = earlier ++ transition :: later → transition.Proper earlier) :=
  ⟨⟨by decide +kernel, by decide +kernel, by decide +kernel, by decide +kernel, by decide +kernel,
      factory_reset_protocol (resetRun_run (powerLost_run (resetRun_run ownedWorld_run _)) _)⟩,
    ⟨by decide +kernel, by decide +kernel, by decide +kernel, factory_reset_protocol (resetRun_run ownedWorld_run _)⟩⟩

end MacroKeyboard.Reset.Interruptions
