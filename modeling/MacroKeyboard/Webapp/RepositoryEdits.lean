import MacroKeyboard.Records.Keyed
import MacroKeyboard.Webapp.CopyNames

namespace MacroKeyboard.Webapp

open Json Records.Keyed

section Edits

inductive Edit
  | addMacro (packageId : Units) (m : RepositoryMacro)
  | updateMacro (macroId : Units) (changes : MacroChanges)
  | duplicateMacro (macroId newMacroId : Units)
  | deleteMacro (macroId : Units)
  | moveMacro (packageId : Units) (index : Int) (direction : Direction)
  | moveMacroToIndex (packageId : Units) (index targetIndex : Int)
  | addPackage (pkg : RepositoryPackage)
  | renamePackage (packageId name : Units)
  | duplicatePackage (packageId newPackageId : Units) (newMacroId : Nat → Units)
  | deletePackage (packageId : Units)
  | movePackage (index : Int) (direction : Direction)
  | movePackageToIndex (index targetIndex : Int)

/-- What the operation returns; none is null. -/
def Edit.apply (repository : Repository) : Edit → Option Repository
  | .addMacro packageId m => some (Webapp.addMacro repository packageId m)
  | .updateMacro macroId changes => some (Webapp.updateMacro repository macroId changes)
  | .duplicateMacro macroId newMacroId => Webapp.duplicateMacro repository macroId newMacroId
  | .deleteMacro macroId => some (Webapp.deleteMacro repository macroId)
  | .moveMacro packageId index direction => some (Webapp.moveMacro repository packageId index direction)
  | .moveMacroToIndex packageId index targetIndex => some (Webapp.moveMacroToIndex repository packageId index targetIndex)
  | .addPackage pkg => some (Webapp.addPackage repository pkg)
  | .renamePackage packageId name => some (Webapp.renamePackage repository packageId name)
  | .duplicatePackage packageId newPackageId newMacroId => Webapp.duplicatePackage repository packageId newPackageId newMacroId
  | .deletePackage packageId => some (Webapp.deletePackage repository packageId)
  | .movePackage index direction => some (Webapp.movePackage repository index direction)
  | .movePackageToIndex index targetIndex => some (Webapp.movePackageToIndex repository index targetIndex)

/-- What a failing operation returns: the repository, and null for a duplication. -/
def Edit.failed (repository : Repository) : Edit → Option Repository
  | .duplicateMacro _ _ => none
  | .duplicatePackage _ _ _ => none
  | _ => some repository

structure ValidChanges (validateSource : MacroSourceValidator) (changes : MacroChanges) : Prop where
  name : ValidName changes.name
  sourceBytes : byteLength changes.source ≤ sourceMaximumBytes
  source : validateSource changes.source = none
  keyPress : ValidTiming changes.keyPressMs
  interKey : ValidTiming changes.interKeyMs

/-- Valid arguments, and identifiers that are well formed and new. -/
def Edit.Admissible (validateSource : MacroSourceValidator) (packages : List RepositoryPackage) : Edit → Prop
  | .addMacro _ m => ValidMacro validateSource m ∧ m.id ∉ macroIdsOf packages
  | .updateMacro _ changes => ValidChanges validateSource changes
  | .duplicateMacro _ newMacroId => IsUuidV4 newMacroId ∧ newMacroId ∉ macroIdsOf packages
  | .addPackage pkg => ValidPackage validateSource pkg ∧ pkg.id ∉ packages.map (·.id) ∧
      (macroIdsOf [pkg] ++ macroIdsOf packages).Nodup
  | .renamePackage _ name => ValidName name
  | .duplicatePackage packageId newPackageId newMacroId => IsUuidV4 newPackageId ∧ newPackageId ∉ packages.map (·.id) ∧
      ∀ pkg ∈ packages, pkg.id = packageId → (∀ n < pkg.macros.length, IsUuidV4 (newMacroId n)) ∧
        ((List.range pkg.macros.length).map newMacroId ++ macroIdsOf packages).Nodup
  | _ => True

def InRange {α : Type} (items : List α) (index : Int) : Prop := 0 ≤ index ∧ index < items.length

def Edit.Names (packages : List RepositoryPackage) : Edit → Prop
  | .addMacro packageId _ => ∃ pkg ∈ packages, pkg.id = packageId
  | .updateMacro macroId _ => macroId ∈ macroIdsOf packages
  | .duplicateMacro macroId _ => macroId ∈ macroIdsOf packages
  | .deleteMacro macroId => macroId ∈ macroIdsOf packages
  | .moveMacro packageId index direction =>
    ∃ pkg ∈ packages, pkg.id = packageId ∧ InRange pkg.macros index ∧ InRange pkg.macros (index + direction.step)
  | .moveMacroToIndex packageId index targetIndex =>
    ∃ pkg ∈ packages, pkg.id = packageId ∧ InRange pkg.macros index ∧ InRange pkg.macros targetIndex
  | .addPackage _ => True
  | .renamePackage packageId _ => ∃ pkg ∈ packages, pkg.id = packageId
  | .duplicatePackage packageId _ _ => ∃ pkg ∈ packages, pkg.id = packageId
  | .deletePackage packageId => ∃ pkg ∈ packages, pkg.id = packageId
  | .movePackage index direction => InRange packages index ∧ InRange packages (index + direction.step)
  | .movePackageToIndex index targetIndex => InRange packages index ∧ InRange packages targetIndex

def WithMacros (R : List RepositoryMacro → List RepositoryMacro → Prop) (pkg next : RepositoryPackage) : Prop :=
  ∃ macros, R pkg.macros macros ∧ next = { pkg with macros := macros }

def nameOfCopy (name : Units) : Units := name ++ (jsString " copy").take (nameMaximumBytes - byteLength name)

/-- What the operation makes of the packages. -/
def Edit.Effect (before after : List RepositoryPackage) : Edit → Prop
  | .addMacro packageId m =>
    Changed (·.id = packageId) (WithMacros fun macros next => next = macros ++ [m]) before after
  | .updateMacro macroId changes =>
    Changed (fun _ => True) (WithMacros (Changed (·.id = macroId) fun _ next =>
      next = ⟨macroId, changes.name, changes.source, changes.keyPressMs, changes.interKeyMs⟩)) before after
  | .duplicateMacro macroId newMacroId =>
    Changed (fun _ => True) (WithMacros (Followed (·.id = macroId) fun m copy =>
      copy = { m with id := newMacroId, name := nameOfCopy m.name })) before after
  | .deleteMacro macroId => Changed (fun _ => True) (WithMacros (Removed (·.id = macroId))) before after
  | .moveMacro packageId index direction =>
    Changed (·.id = packageId) (WithMacros (Moved index.toNat (index + direction.step).toNat)) before after
  | .moveMacroToIndex packageId index targetIndex =>
    Changed (·.id = packageId) (WithMacros (Moved index.toNat targetIndex.toNat)) before after
  | .addPackage pkg => after = before ++ [pkg]
  | .renamePackage packageId name => Changed (·.id = packageId) (fun pkg next => next = { pkg with name := name }) before after
  | .duplicatePackage packageId newPackageId newMacroId =>
    Followed (·.id = packageId) (fun pkg copy => copy = ⟨newPackageId, nameOfCopy pkg.name,
      pkg.macros.mapIdx fun n m => { m with id := newMacroId n }⟩) before after
  | .deletePackage packageId => Removed (·.id = packageId) before after
  | .movePackage index direction => Moved index.toNat (index + direction.step).toNat before after
  | .movePackageToIndex index targetIndex => Moved index.toNat targetIndex.toNat before after

end Edits

section Validity

variable {validateSource : MacroSourceValidator} {repository : Repository} {packages : List RepositoryPackage}
  {pkg next : RepositoryPackage}

theorem mem_macroIdsOf {macroId : Units} :
    macroId ∈ macroIdsOf packages ↔ ∃ pkg ∈ packages, ∃ m ∈ pkg.macros, m.id = macroId := by
  simp only [macroIdsOf, List.mem_flatMap, List.mem_map]

theorem macroIdsOf_append (front back : List RepositoryPackage) :
    macroIdsOf (front ++ back) = macroIdsOf front ++ macroIdsOf back := List.flatMap_append

theorem macroIdsOf_cons (pkg : RepositoryPackage) (rest : List RepositoryPackage) :
    macroIdsOf (pkg :: rest) = pkg.macros.map (·.id) ++ macroIdsOf rest := List.flatMap_cons

theorem validRepository_of_subperm (h : ValidRepository validateSource repository) {added : List RepositoryPackage}
    (hsub : packages.Subperm (added ++ repository.packages)) (hadded : ∀ pkg ∈ added, ValidPackage validateSource pkg)
    (hids : (added.map (·.id) ++ repository.packages.map (·.id)).Nodup)
    (hmacros : (macroIdsOf added ++ macroIdsOf repository.packages).Nodup) :
    ValidRepository validateSource { repository with packages := packages } where
  format := h.format
  schemaVersion := h.schemaVersion
  packages := fun pkg hmem => (List.mem_append.mp (hsub.subset hmem)).elim (hadded pkg) (h.packages pkg)
  packageIds := by
    obtain ⟨middle, hperm, hsublist⟩ := hsub
    rw [← List.map_append] at hids
    exact nodup_of_subperm ⟨_, hperm.map _, hsublist.map _⟩ hids
  macroIds := by
    obtain ⟨middle, hperm, hsublist⟩ := hsub
    rw [← macroIdsOf_append] at hmacros
    have hids : (macroIdsOf packages).Subperm (macroIdsOf (added ++ repository.packages)) :=
      ⟨macroIdsOf middle, List.Perm.flatMap_right _ hperm, List.Sublist.flatMap hsublist _⟩
    exact nodup_of_subperm hids hmacros

/-- One package is replaced by a valid one with its identifier, whose macros have
its identifiers or new ones. -/
theorem validRepository_changed (h : ValidRepository validateSource repository) {front back : List RepositoryPackage}
    (hsplit : repository.packages = front ++ pkg :: back) (hid : next.id = pkg.id) (hnext : ValidPackage validateSource next)
    {added : List Units} (hadded : (added ++ macroIdsOf repository.packages).Nodup)
    (hsub : (next.macros.map (·.id)).Subperm (added ++ pkg.macros.map (·.id))) :
    ValidRepository validateSource { repository with packages := front ++ next :: back } where
  format := h.format
  schemaVersion := h.schemaVersion
  packages := fun other hmem => by
    rcases List.mem_append.mp hmem with hfront | hback
    · exact h.packages other (hsplit ▸ List.mem_append_left _ hfront)
    · rcases List.mem_cons.mp hback with rfl | hback
      · exact hnext
      · exact h.packages other (hsplit ▸ List.mem_append_right _ (List.mem_cons_of_mem _ hback))
  packageIds := by
    have hids := h.packageIds
    rw [hsplit, List.map_append, List.map_cons] at hids
    rw [List.map_append, List.map_cons, hid]
    exact hids
  macroIds := by
    rw [hsplit, macroIdsOf_append, macroIdsOf_cons] at hadded
    rw [macroIdsOf_append, macroIdsOf_cons]
    have hmiddle : (macroIdsOf front ++ (next.macros.map (·.id) ++ macroIdsOf back)).Subperm
        (macroIdsOf front ++ ((added ++ pkg.macros.map (·.id)) ++ macroIdsOf back)) :=
      (List.subperm_append_left _).mpr ((List.subperm_append_right _).mpr hsub)
    have hfront : (macroIdsOf front ++ ((added ++ pkg.macros.map (·.id)) ++ macroIdsOf back)).Perm
        (added ++ (macroIdsOf front ++ (pkg.macros.map (·.id) ++ macroIdsOf back))) := by
      rw [List.append_assoc added]
      exact List.perm_append_comm_assoc _ _ _
    exact nodup_of_subperm (hmiddle.trans hfront.subperm) hadded

theorem replacePackage_split (h : ValidRepository validateSource repository) {front back : List RepositoryPackage}
    (hsplit : repository.packages = front ++ pkg :: back) (next : RepositoryPackage) :
    replacePackage repository pkg.id next = { repository with packages := front ++ next :: back } := by
  have hids := h.packageIds
  rw [hsplit] at hids
  rw [replacePackage, hsplit, map_replace_split hids]

end Validity

section Searches

variable {repository : Repository} {packages : List RepositoryPackage}

theorem findPackage_spec (repository : Repository) (packageId : Units) :
    (∃ front pkg back, repository.packages = front ++ pkg :: back ∧ pkg.id = packageId ∧
      findPackage repository packageId = some pkg) ∨
    ((¬ ∃ pkg ∈ repository.packages, pkg.id = packageId) ∧ findPackage repository packageId = none) := by
  cases hfind : findPackage repository packageId with
  | some pkg =>
    obtain ⟨front, back, hsplit, hid⟩ := split_of_find? hfind
    exact Or.inl ⟨front, pkg, back, hsplit, of_decide_eq_true hid, rfl⟩
  | none =>
    refine Or.inr ⟨?_, rfl⟩
    rintro ⟨pkg, hmem, hid⟩
    have hnone := List.find?_eq_none.mp hfind pkg hmem
    exact hnone (decide_eq_true hid)

theorem getElem?_findIdx_eq_none {α : Type} {items : List α} {p : α → Bool} (h : items[items.findIdx p]? = none) :
    ∀ x ∈ items, p x = false := by
  rw [List.getElem?_eq_none_iff] at h
  intro x hmem
  by_contra hx
  have hlt := List.findIdx_lt_length_of_exists ⟨x, hmem, Bool.eq_true_of_not_eq_false hx⟩
  omega

theorem findMacroFrom_spec (macroId : Units) (packages : List RepositoryPackage) (packageIndex : Nat) :
    (∃ located front back macrosFront macrosBack, findMacroFrom macroId packages packageIndex = some located ∧
      packages = front ++ located.pkg :: back ∧ located.pkg.macros = macrosFront ++ located.found :: macrosBack ∧
      located.found.id = macroId ∧ located.macroIndex = macrosFront.length) ∨
    (macroId ∉ macroIdsOf packages ∧ findMacroFrom macroId packages packageIndex = none) := by
  induction packages generalizing packageIndex with
  | nil => exact Or.inr ⟨List.not_mem_nil, rfl⟩
  | cons pkg packages ih =>
    rw [findMacroFrom]
    cases hfound : pkg.macros[pkg.macros.findIdx (fun m => decide (m.id = macroId))]? with
    | some found =>
      obtain ⟨macrosFront, macrosBack, hsplit, hid, hindex⟩ := split_of_findIdx hfound
      exact Or.inl ⟨_, [], packages, macrosFront, macrosBack, rfl, rfl, hsplit, of_decide_eq_true hid, hindex⟩
    | none =>
      have hnone := getElem?_findIdx_eq_none hfound
      rcases ih (packageIndex + 1) with ⟨located, front, back, macrosFront, macrosBack, hfind, hsplit, hmacros⟩ | ⟨hmem, hfind⟩
      · exact Or.inl ⟨located, pkg :: front, back, macrosFront, macrosBack, hfind, congrArg (pkg :: ·) hsplit, hmacros⟩
      · refine Or.inr ⟨?_, hfind⟩
        rw [macroIdsOf_cons, List.mem_append, not_or, List.mem_map]
        refine ⟨?_, hmem⟩
        rintro ⟨m, hm, hid⟩
        exact absurd (hnone m hm) (by simp [hid])

theorem moved_spec {α : Type} (items : List α) (index target : Int) :
    (InRange items index ∧ InRange items target ∧ ∃ after, moved items index target = some after ∧
      Moved index.toNat target.toNat items after) ∨
    (¬ (InRange items index ∧ InRange items target) ∧ moved items index target = none) := by
  unfold moved
  by_cases hrange : index < 0 ∨ index ≥ items.length ∨ target < 0 ∨ target ≥ items.length
  · rw [if_pos hrange]
    refine Or.inr ⟨?_, rfl⟩
    rintro ⟨⟨hindex, hindex'⟩, htarget, htarget'⟩
    omega
  · rw [if_neg hrange]
    have hindex : index.toNat < items.length := by omega
    have htarget : target.toNat < items.length := by omega
    have hget : items[index.toNat]? = some (items[index.toNat]) := List.getElem?_eq_getElem hindex
    refine Or.inl ⟨⟨by omega, by omega⟩, ⟨by omega, by omega⟩, _, ?_, moved_insertIdx hget htarget⟩
    rw [moveItem, hget]

end Searches

section Outcomes

variable {validateSource : MacroSourceValidator} {repository : Repository} {packages : List RepositoryPackage}
  {pkg : RepositoryPackage} {macros : List RepositoryMacro}

/-- The operation returns a valid repository with its effect. -/
def Edit.Succeeds (validateSource : MacroSourceValidator) (repository : Repository) (edit : Edit) : Prop :=
  ∃ packages, edit.apply repository = some { repository with packages := packages } ∧
    ValidRepository validateSource { repository with packages := packages } ∧ edit.Effect repository.packages packages

/-- The operation succeeds when what it names is there, and fails otherwise. -/
def Edit.Outcome (validateSource : MacroSourceValidator) (repository : Repository) (edit : Edit) : Prop :=
  (edit.Names repository.packages ∧ edit.Succeeds validateSource repository) ∨
    (¬ edit.Names repository.packages ∧ edit.apply repository = edit.failed repository)

/-- The macros of one package are replaced by valid ones, whose identifiers are
those it has or new ones. -/
theorem replace_macros (h : ValidRepository validateSource repository) {front back : List RepositoryPackage}
    (hsplit : repository.packages = front ++ pkg :: back) (hvalid : ∀ m ∈ macros, ValidMacro validateSource m)
    {added : List Units} (hadded : (added ++ macroIdsOf repository.packages).Nodup)
    (hsub : (macros.map (·.id)).Subperm (added ++ pkg.macros.map (·.id))) :
    ∃ packages, replacePackage repository pkg.id { pkg with macros := macros } = { repository with packages := packages } ∧
      ValidRepository validateSource { repository with packages := packages } ∧
      ∀ (named : RepositoryPackage → Prop) (R : List RepositoryMacro → List RepositoryMacro → Prop), named pkg →
        R pkg.macros macros → Changed named (WithMacros R) repository.packages packages := by
  have hpkg := h.packages pkg (hsplit ▸ List.mem_append_right _ List.mem_cons_self)
  have hnext : ValidPackage validateSource { pkg with macros := macros } := ⟨hpkg.id, hpkg.name, hvalid⟩
  refine ⟨_, replacePackage_split h hsplit _, validRepository_changed h hsplit rfl hnext hadded hsub, ?_⟩
  exact fun named R hnamed hR => ⟨front, pkg, _, back, hsplit, hnamed, ⟨macros, hR, rfl⟩, rfl⟩

theorem macros_of_split (h : ValidRepository validateSource repository) {front back : List RepositoryPackage}
    (hsplit : repository.packages = front ++ pkg :: back) :
    (∀ m ∈ pkg.macros, ValidMacro validateSource m) ∧ (pkg.macros.map (·.id)).Nodup ∧
      ∀ m ∈ pkg.macros, m.id ∈ macroIdsOf repository.packages := by
  have hmem : pkg ∈ repository.packages := hsplit ▸ List.mem_append_right _ List.mem_cons_self
  refine ⟨(h.packages pkg hmem).macros, ?_, fun m hm => mem_macroIdsOf.mpr ⟨pkg, hmem, m, hm, rfl⟩⟩
  have hids := h.macroIds
  rw [hsplit, macroIdsOf_append, macroIdsOf_cons] at hids
  exact (List.nodup_append'.mp (List.nodup_append'.mp hids).2.1).1

theorem nodup_noneAdded (h : ValidRepository validateSource repository) :
    (([] : List Units) ++ macroIdsOf repository.packages).Nodup := h.macroIds

theorem nodup_oneAdded (h : ValidRepository validateSource repository) {macroId : Units}
    (hnew : macroId ∉ macroIdsOf repository.packages) : ([macroId] ++ macroIdsOf repository.packages).Nodup :=
  List.nodup_cons.mpr ⟨hnew, h.macroIds⟩

theorem outcome_addMacro (h : ValidRepository validateSource repository) (packageId : Units) (m : RepositoryMacro)
    (hargs : (Edit.addMacro packageId m).Admissible validateSource repository.packages) :
    (Edit.addMacro packageId m).Outcome validateSource repository := by
  obtain ⟨hm, hnew⟩ := hargs
  rcases findPackage_spec repository packageId with ⟨front, pkg, back, hsplit, hid, hfind⟩ | ⟨hnone, hfind⟩
  · left
    have hmem : pkg ∈ repository.packages := hsplit ▸ List.mem_append_right _ List.mem_cons_self
    obtain ⟨hmacros, -, -⟩ := macros_of_split h hsplit
    have hvalid : ∀ other ∈ pkg.macros ++ [m], ValidMacro validateSource other := by
      intro other hother
      rcases List.mem_append.mp hother with hold | hlast
      · exact hmacros other hold
      · rwa [List.mem_singleton.mp hlast]
    have hsub : ((pkg.macros ++ [m]).map (·.id)).Subperm ([m.id] ++ pkg.macros.map (·.id)) := by
      rw [List.map_append]
      exact List.perm_append_comm.subperm
    obtain ⟨packages, hreplace, hresult, heffect⟩ := replace_macros h hsplit hvalid (nodup_oneAdded h hnew) hsub
    refine ⟨⟨pkg, hmem, hid⟩, packages, ?_, hresult, heffect _ _ hid rfl⟩
    rw [Edit.apply, addMacro, hfind]
    exact congrArg some (hid ▸ hreplace)
  · right
    refine ⟨hnone, ?_⟩
    rw [Edit.apply, addMacro, hfind]
    rfl

theorem outcome_updateMacro (h : ValidRepository validateSource repository) (macroId : Units) (changes : MacroChanges)
    (hargs : (Edit.updateMacro macroId changes).Admissible validateSource repository.packages) :
    (Edit.updateMacro macroId changes).Outcome validateSource repository := by
  rcases findMacroFrom_spec macroId repository.packages 0 with
    ⟨located, front, back, macrosFront, macrosBack, hfind, hsplit, hmacros, hid, hindex⟩ | ⟨hnone, hfind⟩
  · left
    obtain ⟨hold, -, hmem⟩ := macros_of_split h hsplit
    have hset : located.pkg.macros.set located.macroIndex
        ⟨macroId, changes.name, changes.source, changes.keyPressMs, changes.interKeyMs⟩ = macrosFront ++
          ⟨macroId, changes.name, changes.source, changes.keyPressMs, changes.interKeyMs⟩ :: macrosBack := by
      rw [hmacros, hindex, set_split]
    have hfound : located.found ∈ located.pkg.macros := hmacros ▸ List.mem_append_right _ List.mem_cons_self
    have hvalid : ∀ other ∈ macrosFront ++
        ⟨macroId, changes.name, changes.source, changes.keyPressMs, changes.interKeyMs⟩ :: macrosBack,
        ValidMacro validateSource other := by
      rw [hmacros] at hold
      simp only [List.forall_mem_append, List.forall_mem_cons] at hold ⊢
      exact ⟨hold.1, ⟨hid ▸ hold.2.1.id, hargs.name, hargs.sourceBytes, hargs.source, hargs.keyPress, hargs.interKey⟩, hold.2.2⟩
    have hsub : ((macrosFront ++ ⟨macroId, changes.name, changes.source, changes.keyPressMs, changes.interKeyMs⟩ ::
        macrosBack).map (·.id)).Subperm ([] ++ located.pkg.macros.map (·.id)) := by
      rw [hmacros, List.map_append, List.map_append, List.map_cons, List.map_cons, hid]
      exact List.Subperm.refl _
    obtain ⟨packages, hreplace, hresult, heffect⟩ := replace_macros h hsplit hvalid (nodup_noneAdded h) hsub
    refine ⟨hid ▸ hmem _ hfound, packages, ?_, hresult,
      heffect _ _ trivial ⟨macrosFront, _, _, macrosBack, hmacros, hid, rfl, rfl⟩⟩
    rw [Edit.apply, updateMacro, findMacro, hfind]
    dsimp only
    rw [hset, hreplace]
  · right
    refine ⟨hnone, ?_⟩
    rw [Edit.apply, updateMacro, findMacro, hfind]
    rfl

theorem outcome_duplicateMacro (h : ValidRepository validateSource repository) (macroId newMacroId : Units)
    (hargs : (Edit.duplicateMacro macroId newMacroId).Admissible validateSource repository.packages) :
    (Edit.duplicateMacro macroId newMacroId).Outcome validateSource repository := by
  obtain ⟨hnewId, hnew⟩ := hargs
  rcases findMacroFrom_spec macroId repository.packages 0 with
    ⟨located, front, back, macrosFront, macrosBack, hfind, hsplit, hmacros, hid, hindex⟩ | ⟨hnone, hfind⟩
  · left
    obtain ⟨hold, -, hmem⟩ := macros_of_split h hsplit
    have hfound : located.found ∈ located.pkg.macros := hmacros ▸ List.mem_append_right _ List.mem_cons_self
    have hname : copyName located.found.name v2Limits.macroNameMaxBytes = nameOfCopy located.found.name :=
      copyName_eq (hold _ hfound).name.bytes
    have hcopy : ValidMacro validateSource
        { located.found with id := newMacroId, name := nameOfCopy located.found.name } := by
      have hm := hold _ hfound
      exact ⟨hnewId, hname ▸ validName_copyName hm.name, hm.sourceBytes, hm.source, hm.keyPress, hm.interKey⟩
    have hfollowed : Followed (·.id = macroId) (fun m copy => copy = { m with id := newMacroId, name := nameOfCopy m.name })
        located.pkg.macros (macrosFront ++ located.found ::
          { located.found with id := newMacroId, name := nameOfCopy located.found.name } :: macrosBack) :=
      ⟨macrosFront, _, _, macrosBack, hmacros, hid, rfl, rfl⟩
    obtain ⟨original, -, copy, -, rfl, hperm⟩ := hfollowed.perm
    have hvalid : ∀ other ∈ macrosFront ++ located.found ::
        { located.found with id := newMacroId, name := nameOfCopy located.found.name } :: macrosBack,
        ValidMacro validateSource other := by
      rw [hmacros] at hold
      simp only [List.forall_mem_append, List.forall_mem_cons] at hold ⊢
      exact ⟨hold.1, hold.2.1, hcopy, hold.2.2⟩
    obtain ⟨packages, hreplace, hresult, heffect⟩ := replace_macros h hsplit hvalid (nodup_oneAdded h hnew)
      (hperm.map (·.id)).subperm
    refine ⟨hid ▸ hmem _ hfound, packages, ?_, hresult, heffect _ _ trivial hfollowed⟩
    rw [Edit.apply, duplicateMacro, findMacro, hfind]
    dsimp only
    rw [hname, ← hreplace]
    congr 3
    rw [hindex]
    conv_lhs => rw [hmacros]
    rw [insertIdx_split]
  · right
    refine ⟨hnone, ?_⟩
    rw [Edit.apply, duplicateMacro, findMacro, hfind]
    rfl

theorem outcome_deleteMacro (h : ValidRepository validateSource repository) (macroId : Units) :
    (Edit.deleteMacro macroId).Outcome validateSource repository := by
  rcases findMacroFrom_spec macroId repository.packages 0 with
    ⟨located, front, back, macrosFront, macrosBack, hfind, hsplit, hmacros, hid, hindex⟩ | ⟨hnone, hfind⟩
  · left
    obtain ⟨hold, hnodup, hmem⟩ := macros_of_split h hsplit
    have hfound : located.found ∈ located.pkg.macros := hmacros ▸ List.mem_append_right _ List.mem_cons_self
    have hremoved : Removed (·.id = macroId) located.pkg.macros (macrosFront ++ macrosBack) :=
      ⟨macrosFront, _, macrosBack, hmacros, hid, rfl⟩
    have hfilter : located.pkg.macros.filter (fun m => m.id ≠ macroId) = macrosFront ++ macrosBack := by
      rw [hmacros] at hnodup ⊢
      rw [← hid]
      exact filter_ne_split hnodup
    obtain ⟨packages, hreplace, hresult, heffect⟩ := replace_macros h hsplit
      (fun other hother => hold other (hremoved.sublist.mem hother)) (nodup_noneAdded h)
      (hremoved.sublist.map (·.id)).subperm
    refine ⟨hid ▸ hmem _ hfound, packages, ?_, hresult, heffect _ _ trivial hremoved⟩
    rw [Edit.apply, deleteMacro, findMacro, hfind]
    dsimp only
    rw [hfilter, hreplace]
  · right
    refine ⟨hnone, ?_⟩
    rw [Edit.apply, deleteMacro, findMacro, hfind]
    rfl

/-- Both moves of a macro come down to a move between two places. -/
theorem moveMacroToIndex_spec (h : ValidRepository validateSource repository) (packageId : Units) (index target : Int) :
    ((∃ pkg ∈ repository.packages, pkg.id = packageId ∧ InRange pkg.macros index ∧ InRange pkg.macros target) ∧
      ∃ packages, moveMacroToIndex repository packageId index target = { repository with packages := packages } ∧
        ValidRepository validateSource { repository with packages := packages } ∧
        Changed (·.id = packageId) (WithMacros (Moved index.toNat target.toNat)) repository.packages packages) ∨
    ((¬ ∃ pkg ∈ repository.packages, pkg.id = packageId ∧ InRange pkg.macros index ∧ InRange pkg.macros target) ∧
      moveMacroToIndex repository packageId index target = repository) := by
  rw [moveMacroToIndex]
  rcases findPackage_spec repository packageId with ⟨front, pkg, back, hsplit, hid, hfind⟩ | ⟨hnone, hfind⟩
  · rw [hfind]
    dsimp only
    have hmem : pkg ∈ repository.packages := hsplit ▸ List.mem_append_right _ List.mem_cons_self
    rcases moved_spec pkg.macros index target with ⟨hindex, htarget, macros, hmoved, hmove⟩ | ⟨hrange, hmoved⟩
    · left
      rw [hmoved]
      obtain ⟨hold, -, -⟩ := macros_of_split h hsplit
      obtain ⟨packages, hreplace, hresult, heffect⟩ := replace_macros h hsplit
        (fun m hm => hold m (hmove.perm.subset hm)) (nodup_noneAdded h) (hmove.perm.map (·.id)).subperm
      exact ⟨⟨pkg, hmem, hid, hindex, htarget⟩, packages, hid ▸ hreplace, hresult, heffect _ _ hid hmove⟩
    · right
      rw [hmoved]
      refine ⟨?_, rfl⟩
      rintro ⟨other, hother, hsame, hindex, htarget⟩
      have hsamePkg : other = pkg := List.inj_on_of_nodup_map h.packageIds hother hmem (hsame.trans hid.symm)
      exact hrange (hsamePkg ▸ ⟨hindex, htarget⟩)
  · rw [hfind]
    exact Or.inr ⟨fun hnames => hnone (hnames.imp fun pkg hpkg => ⟨hpkg.1, hpkg.2.1⟩), rfl⟩

theorem outcome_moveMacroToIndex (h : ValidRepository validateSource repository) (packageId : Units) (index target : Int) :
    (Edit.moveMacroToIndex packageId index target).Outcome validateSource repository := by
  rcases moveMacroToIndex_spec h packageId index target with ⟨hnames, packages, hmove, hresult, heffect⟩ | ⟨hnone, hsame⟩
  · exact Or.inl ⟨hnames, packages, congrArg some hmove, hresult, heffect⟩
  · exact Or.inr ⟨hnone, congrArg some hsame⟩

theorem outcome_moveMacro (h : ValidRepository validateSource repository) (packageId : Units) (index : Int)
    (direction : Direction) : (Edit.moveMacro packageId index direction).Outcome validateSource repository := by
  rcases moveMacroToIndex_spec h packageId index (index + direction.step) with
    ⟨hnames, packages, hmove, hresult, heffect⟩ | ⟨hnone, hsame⟩
  · exact Or.inl ⟨hnames, packages, congrArg some hmove, hresult, heffect⟩
  · exact Or.inr ⟨hnone, congrArg some hsame⟩

theorem validRepository_of_old (h : ValidRepository validateSource repository)
    (hsub : packages.Subperm repository.packages) :
    ValidRepository validateSource { repository with packages := packages } := by
  have hnone : packages.Subperm ([] ++ repository.packages) := hsub
  exact validRepository_of_subperm h hnone (fun _ hmem => absurd hmem List.not_mem_nil) h.packageIds h.macroIds

theorem validRepository_of_one (h : ValidRepository validateSource repository) (hsub : packages.Perm (pkg :: repository.packages))
    (hpkg : ValidPackage validateSource pkg) (hid : pkg.id ∉ repository.packages.map (·.id))
    (hmacros : (pkg.macros.map (·.id) ++ macroIdsOf repository.packages).Nodup) :
    ValidRepository validateSource { repository with packages := packages } := by
  have hone : packages.Subperm ([pkg] ++ repository.packages) := hsub.subperm
  refine validRepository_of_subperm h hone (fun other hmem => ?_) (List.nodup_cons.mpr ⟨hid, h.packageIds⟩) ?_
  · rwa [List.mem_singleton.mp hmem]
  · rwa [macroIdsOf_cons, macroIdsOf, List.flatMap_nil, List.append_nil]

theorem outcome_addPackage (h : ValidRepository validateSource repository) (pkg : RepositoryPackage)
    (hargs : (Edit.addPackage pkg).Admissible validateSource repository.packages) :
    (Edit.addPackage pkg).Outcome validateSource repository := by
  obtain ⟨hpkg, hid, hmacros⟩ := hargs
  rw [macroIdsOf_cons, macroIdsOf, List.flatMap_nil, List.append_nil] at hmacros
  exact Or.inl ⟨trivial, repository.packages ++ [pkg], rfl,
    validRepository_of_one h (List.perm_append_singleton pkg _) hpkg hid hmacros, rfl⟩

theorem outcome_renamePackage (h : ValidRepository validateSource repository) (packageId name : Units)
    (hargs : (Edit.renamePackage packageId name).Admissible validateSource repository.packages) :
    (Edit.renamePackage packageId name).Outcome validateSource repository := by
  have hname : ValidName name := hargs
  rcases findPackage_spec repository packageId with ⟨front, pkg, back, hsplit, hid, hfind⟩ | ⟨hnone, hfind⟩
  · left
    have hmem : pkg ∈ repository.packages := hsplit ▸ List.mem_append_right _ List.mem_cons_self
    have hpkg := h.packages pkg hmem
    have hnext : ValidPackage validateSource { pkg with name := name } := ⟨hpkg.id, hname, hpkg.macros⟩
    refine ⟨⟨pkg, hmem, hid⟩, front ++ { pkg with name := name } :: back, ?_,
      validRepository_changed h hsplit rfl hnext (nodup_noneAdded h) (List.Subperm.refl _),
      front, pkg, _, back, hsplit, hid, rfl, rfl⟩
    rw [Edit.apply, renamePackage, hfind]
    dsimp only
    rw [← hid, replacePackage_split h hsplit]
  · right
    refine ⟨hnone, ?_⟩
    rw [Edit.apply, renamePackage, hfind]
    rfl

theorem outcome_duplicatePackage (h : ValidRepository validateSource repository) (packageId newPackageId : Units)
    (newMacroId : Nat → Units)
    (hargs : (Edit.duplicatePackage packageId newPackageId newMacroId).Admissible validateSource repository.packages) :
    (Edit.duplicatePackage packageId newPackageId newMacroId).Outcome validateSource repository := by
  obtain ⟨hnewId, hnew, hdrawn⟩ := hargs
  have happly : (Edit.duplicatePackage packageId newPackageId newMacroId).apply repository =
      duplicatePackage repository packageId newPackageId newMacroId := rfl
  rw [duplicatePackage] at happly
  cases hfound : repository.packages[repository.packages.findIdx (fun pkg => decide (pkg.id = packageId))]? with
  | some pkg =>
    left
    obtain ⟨front, back, hsplit, hid, hindex⟩ := split_of_findIdx hfound
    have hid : pkg.id = packageId := of_decide_eq_true hid
    have hmem : pkg ∈ repository.packages := hsplit ▸ List.mem_append_right _ List.mem_cons_self
    have hpkg := h.packages pkg hmem
    obtain ⟨huuid, hnodup⟩ := hdrawn pkg hmem hid
    have hname : copyName pkg.name v2Limits.packageNameMaxBytes = nameOfCopy pkg.name := copyName_eq hpkg.name.bytes
    have hids : (pkg.macros.mapIdx fun n m => { m with id := newMacroId n }).map (·.id) =
        (List.range pkg.macros.length).map newMacroId := by
      apply List.ext_getElem
      · simp
      · intro n _ _
        simp
    have hcopy : ValidPackage validateSource ⟨newPackageId, nameOfCopy pkg.name,
        pkg.macros.mapIdx fun n m => { m with id := newMacroId n }⟩ := by
      refine ⟨hnewId, hname ▸ validName_copyName hpkg.name, fun m hm => ?_⟩
      obtain ⟨n, hn, rfl⟩ := List.mem_mapIdx.mp hm
      have hold := hpkg.macros _ (List.getElem_mem hn)
      exact ⟨huuid n hn, hold.name, hold.sourceBytes, hold.source, hold.keyPress, hold.interKey⟩
    have hfollowed : Followed (·.id = packageId) (fun pkg copy => copy = ⟨newPackageId, nameOfCopy pkg.name,
        pkg.macros.mapIdx fun n m => { m with id := newMacroId n }⟩) repository.packages (front ++ pkg ::
          ⟨newPackageId, nameOfCopy pkg.name, pkg.macros.mapIdx fun n m => { m with id := newMacroId n }⟩ :: back) :=
      ⟨front, pkg, _, back, hsplit, hid, rfl, rfl⟩
    have hperm : (front ++ pkg :: (⟨newPackageId, nameOfCopy pkg.name,
        pkg.macros.mapIdx fun n m => { m with id := newMacroId n }⟩ : RepositoryPackage) :: back).Perm
        (⟨newPackageId, nameOfCopy pkg.name, pkg.macros.mapIdx fun n m => { m with id := newMacroId n }⟩ ::
          repository.packages) := by
      rw [hsplit]
      exact ((List.Perm.swap _ pkg back).append_left front).trans List.perm_middle
    refine ⟨⟨pkg, hmem, hid⟩, _, ?_, validRepository_of_one h hperm hcopy hnew (hids ▸ hnodup), hfollowed⟩
    rw [happly, hfound]
    dsimp only
    rw [hname, hindex]
    congr 2
    conv_lhs => rw [hsplit]
    rw [insertIdx_split]
  | none =>
    right
    refine ⟨?_, ?_⟩
    · rintro ⟨pkg, hmem, hid⟩
      exact absurd (getElem?_findIdx_eq_none hfound pkg hmem) (by simp [hid])
    · rw [happly, hfound]
      rfl

theorem outcome_deletePackage (h : ValidRepository validateSource repository) (packageId : Units) :
    (Edit.deletePackage packageId).Outcome validateSource repository := by
  rcases findPackage_spec repository packageId with ⟨front, pkg, back, hsplit, hid, -⟩ | ⟨hnone, -⟩
  · left
    have hmem : pkg ∈ repository.packages := hsplit ▸ List.mem_append_right _ List.mem_cons_self
    have hremoved : Removed (·.id = packageId) repository.packages (front ++ back) := ⟨front, pkg, back, hsplit, hid, rfl⟩
    refine ⟨⟨pkg, hmem, hid⟩, front ++ back, ?_, validRepository_of_old h hremoved.sublist.subperm, hremoved⟩
    have hids := h.packageIds
    rw [hsplit] at hids
    rw [Edit.apply, deletePackage, hsplit, ← hid, filter_ne_split hids]
  · right
    refine ⟨hnone, ?_⟩
    have hsame : repository.packages.filter (fun pkg => pkg.id ≠ packageId) = repository.packages := by
      rw [List.filter_eq_self]
      exact fun pkg hmem => decide_eq_true fun hid => hnone ⟨pkg, hmem, hid⟩
    rw [Edit.apply, deletePackage, hsame]
    rfl

theorem outcome_movePackageToIndex (h : ValidRepository validateSource repository) (index target : Int) :
    (Edit.movePackageToIndex index target).Outcome validateSource repository := by
  rcases moved_spec repository.packages index target with ⟨hindex, htarget, packages, hmoved, hmove⟩ | ⟨hrange, hmoved⟩
  · refine Or.inl ⟨⟨hindex, htarget⟩, packages, ?_, validRepository_of_old h hmove.perm.subperm, hmove⟩
    rw [Edit.apply, movePackageToIndex, hmoved]
  · refine Or.inr ⟨hrange, ?_⟩
    rw [Edit.apply, movePackageToIndex, hmoved]
    rfl

theorem outcome_movePackage (h : ValidRepository validateSource repository) (index : Int) (direction : Direction) :
    (Edit.movePackage index direction).Outcome validateSource repository :=
  outcome_movePackageToIndex h index (index + direction.step)

/-- Every operation on a valid repository with valid arguments returns a valid
repository with its effect, and fails just when what it names is not there. -/
theorem editing_outcome (h : ValidRepository validateSource repository) (edit : Edit)
    (hargs : edit.Admissible validateSource repository.packages) : edit.Outcome validateSource repository := by
  cases edit with
  | addMacro packageId m => exact outcome_addMacro h packageId m hargs
  | updateMacro macroId changes => exact outcome_updateMacro h macroId changes hargs
  | duplicateMacro macroId newMacroId => exact outcome_duplicateMacro h macroId newMacroId hargs
  | deleteMacro macroId => exact outcome_deleteMacro h macroId
  | moveMacro packageId index direction => exact outcome_moveMacro h packageId index direction
  | moveMacroToIndex packageId index targetIndex => exact outcome_moveMacroToIndex h packageId index targetIndex
  | addPackage pkg => exact outcome_addPackage h pkg hargs
  | renamePackage packageId name => exact outcome_renamePackage h packageId name hargs
  | duplicatePackage packageId newPackageId newMacroId =>
    exact outcome_duplicatePackage h packageId newPackageId newMacroId hargs
  | deletePackage packageId => exact outcome_deletePackage h packageId
  | movePackage index direction => exact outcome_movePackage h index direction
  | movePackageToIndex index targetIndex => exact outcome_movePackageToIndex h index targetIndex

instance (id : Units) : Decidable (IsUuidV4 id) := inferInstanceAs (Decidable (matchesPattern uuidV4Pattern id = true))

def identifier (digit : Char) : Units := jsString ("00000000-0000-4000-8000-00000000000".push digit)

def oneMacro : Repository :=
  ⟨repositoryFormat, 1, [⟨identifier '1', jsString "work", [⟨identifier '2', jsString "hello", jsString "a", 8, 15⟩]⟩]⟩

theorem validRepository_oneMacro : ValidRepository (fun _ => none) oneMacro where
  format := rfl
  schemaVersion := rfl
  packages := fun pkg hmem => by
    rw [List.mem_singleton.mp hmem]
    refine ⟨by decide +kernel, ⟨by decide +kernel, by decide +kernel⟩, fun m hm => ?_⟩
    rw [List.mem_singleton.mp hm]
    exact ⟨by decide +kernel, ⟨by decide +kernel, by decide +kernel⟩, by decide +kernel, rfl, ⟨8, rfl, by decide⟩, ⟨15, rfl, by decide⟩⟩
  packageIds := by decide +kernel
  macroIds := by decide +kernel

theorem editing_outcome_duplicateMacro :
    (Edit.duplicateMacro (identifier '2') (identifier '3')).Outcome (fun _ => none) oneMacro :=
  editing_outcome validRepository_oneMacro _ ⟨by decide +kernel, by decide +kernel⟩

/-- The duplication of a macro that is not there returns null. -/
theorem failing_duplicate_returns_null : ¬ ∀ validateSource repository (edit : Edit),
    ValidRepository validateSource repository → edit.Admissible validateSource repository.packages →
      ¬ edit.Names repository.packages → edit.apply repository = some repository := by
  intro h
  have hsame := h (fun _ => none) oneMacro (.duplicateMacro (identifier '4') (identifier '3')) validRepository_oneMacro
    ⟨by decide +kernel, by decide +kernel⟩ (show identifier '4' ∉ macroIdsOf oneMacro.packages by decide +kernel)
  have hnull : (Edit.duplicateMacro (identifier '4') (identifier '3')).apply oneMacro = none := by decide +kernel
  rw [hnull] at hsame
  cases hsame

end Outcomes

end MacroKeyboard.Webapp
