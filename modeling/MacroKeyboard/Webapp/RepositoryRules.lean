import MacroKeyboard.Webapp.Repository

namespace MacroKeyboard.Webapp

open Json JsValue

section Rules

structure ValidName (name : Units) : Prop where
  visible : ∃ unit ∈ name, isTrimmed unit = false
  bytes : byteLength name ≤ nameMaximumBytes

def IsUuidV4 (id : Units) : Prop := matchesPattern uuidV4Pattern id = true

def ValidTiming (q : ℚ) : Prop := ∃ n : ℕ, q = n ∧ n ≤ timingMaximumMs

structure ValidMacro (validateSource : MacroSourceValidator) (m : RepositoryMacro) : Prop where
  id : IsUuidV4 m.id
  name : ValidName m.name
  sourceBytes : byteLength m.source ≤ sourceMaximumBytes
  source : validateSource m.source = none
  keyPress : ValidTiming m.keyPressMs
  interKey : ValidTiming m.interKeyMs

structure ValidPackage (validateSource : MacroSourceValidator) (pkg : RepositoryPackage) : Prop where
  id : IsUuidV4 pkg.id
  name : ValidName pkg.name
  macros : ∀ m ∈ pkg.macros, ValidMacro validateSource m

def macroIdsOf (packages : List RepositoryPackage) : List Units :=
  packages.flatMap (fun pkg => pkg.macros.map (·.id))

structure ValidRepository (validateSource : MacroSourceValidator) (repository : Repository) : Prop where
  format : repository.format = repositoryFormat
  schemaVersion : repository.schemaVersion = 1
  packages : ∀ pkg ∈ repository.packages, ValidPackage validateSource pkg
  packageIds : (repository.packages.map (·.id)).Nodup
  macroIds : (macroIdsOf repository.packages).Nodup

end Rules

section Values

def HasFields (members : List (Units × JsValue)) (fields : List (Units × JsValue)) : Prop :=
  (members.map (·.1)).Perm (fields.map (·.1)) ∧ ∀ field ∈ fields, get members field.1 = field.2

def MacroValue (value : JsValue) (m : RepositoryMacro) : Prop :=
  ∃ members, value = .record members ∧ HasFields members
    [(property "id", .string m.id), (property "interKeyMs", .number m.interKeyMs),
      (property "keyPressMs", .number m.keyPressMs), (property "name", .string m.name),
      (property "source", .string m.source)]

/-- The value is a package with these fields, its macros a dense array. -/
def PackageValue (value : JsValue) (pkg : RepositoryPackage) : Prop :=
  ∃ members items, value = .record members ∧ HasFields members
    [(property "id", .string pkg.id), (property "macros", .array items), (property "name", .string pkg.name)] ∧
    List.Forall₂ MacroValue items pkg.macros

/-- The value is a repository with these fields, its packages a dense array. -/
def RepositoryValue (value : JsValue) (repository : Repository) : Prop :=
  ∃ members items, value = .record members ∧ HasFields members
    [(property "format", .string repository.format), (property "packages", .array items),
      (property "schemaVersion", .number repository.schemaVersion)] ∧
    List.Forall₂ PackageValue items repository.packages

theorem macroValue_unique {value : JsValue} {m m' : RepositoryMacro} (h : MacroValue value m) (h' : MacroValue value m') :
    m = m' := by
  obtain ⟨members, rfl, -, hfields⟩ := h
  obtain ⟨members', hvalue, -, hfields'⟩ := h'
  cases hvalue
  simp only [List.forall_mem_cons, List.not_mem_nil, false_imp_iff, implies_true, and_true] at hfields hfields'
  obtain ⟨hid, hinter, hkey, hname, hsource⟩ := hfields
  rw [hid, hinter, hkey, hname, hsource] at hfields'
  obtain ⟨hid, hinter, hkey, hname, hsource⟩ := hfields'
  cases m
  cases m'
  cases hid
  cases hinter
  cases hkey
  cases hname
  cases hsource
  rfl

theorem macroValues_unique {values : List JsValue} {macros macros' : List RepositoryMacro}
    (h : List.Forall₂ MacroValue values macros) (h' : List.Forall₂ MacroValue values macros') : macros = macros' := by
  induction h generalizing macros' with
  | nil =>
    cases h'
    rfl
  | cons hfirst hrest ih =>
    obtain ⟨m', rest', hfirst', hrest', rfl⟩ := List.forall₂_cons_left_iff.mp h'
    rw [macroValue_unique hfirst hfirst', ih hrest']

theorem packageValue_unique {value : JsValue} {pkg pkg' : RepositoryPackage} (h : PackageValue value pkg)
    (h' : PackageValue value pkg') : pkg = pkg' := by
  obtain ⟨members, items, rfl, ⟨-, hfields⟩, hmacros⟩ := h
  obtain ⟨members', items', hvalue, ⟨-, hfields'⟩, hmacros'⟩ := h'
  cases hvalue
  simp only [List.forall_mem_cons, List.not_mem_nil, false_imp_iff, implies_true, and_true] at hfields hfields'
  obtain ⟨hid, hitems, hname⟩ := hfields
  rw [hid, hitems, hname] at hfields'
  obtain ⟨hid, hitems, hname⟩ := hfields'
  cases pkg
  cases pkg'
  cases hid
  cases hitems
  cases hname
  cases macroValues_unique hmacros hmacros'
  rfl

end Values

section Checks

variable {validateSource : MacroSourceValidator}

theorem trim_length_eq_zero {units : Units} : (trim units).length = 0 ↔ ∀ unit ∈ units, isTrimmed unit = true := by
  rw [trim, List.length_reverse, List.length_eq_zero_iff, List.dropWhile_eq_nil_iff]
  simp only [List.mem_reverse]
  constructor
  · intro h
    have hnil := List.dropWhile_eq_nil_iff.mpr h
    rw [List.dropWhile_idempotent isTrimmed units] at hnil
    exact List.dropWhile_eq_nil_iff.mp hnil
  · intro h unit hmem
    exact h unit ((List.dropWhile_sublist isTrimmed).mem hmem)

theorem validateName_eq_nil {value : JsValue} {path : Units} :
    validateName value path = [] ↔ ∃ name, value = .string name ∧ ValidName name := by
  constructor
  · intro h
    cases value with
    | string name =>
      rw [validateName] at h
      split_ifs at h with hblank hlong
      rw [trim_length_eq_zero] at hblank
      push Not at hblank
      obtain ⟨unit, hmem, hvisible⟩ := hblank
      exact ⟨name, rfl, ⟨unit, hmem, by simpa using hvisible⟩, by omega⟩
    | _ => cases h
  · rintro ⟨name, rfl, hvalid⟩
    obtain ⟨unit, hmem, hvisible⟩ := hvalid.visible
    rw [validateName, if_neg, if_neg (by have hbytes := hvalid.bytes; omega)]
    rw [trim_length_eq_zero]
    intro hblank
    rw [hblank unit hmem] at hvisible
    cases hvisible

theorem isCanonicalUuidV4_iff {value : JsValue} :
    isCanonicalUuidV4 value = true ↔ ∃ id, value = .string id ∧ IsUuidV4 id := by
  cases value with
  | string id => exact ⟨fun h => ⟨id, rfl, h⟩, fun ⟨_, hvalue, h⟩ => by cases hvalue; exact h⟩
  | _ => exact ⟨fun h => (by cases h), fun ⟨_, hvalue, _⟩ => (by cases hvalue)⟩

theorem validateId_spec (value : JsValue) (path : Units) (invalid duplicate : String) (ids : List Units) :
    (∃ id, value = .string id ∧ IsUuidV4 id ∧ id ∉ ids ∧
      validateId value path invalid duplicate ids = ([], ids ++ [id])) ∨
    ((∀ id, value = .string id → IsUuidV4 id → id ∈ ids) ∧ (validateId value path invalid duplicate ids).1 ≠ []) := by
  unfold validateId
  by_cases hcanonical : isCanonicalUuidV4 value = true
  · obtain ⟨id, rfl, hid⟩ := isCanonicalUuidV4_iff.mp hcanonical
    rw [hcanonical, Bool.not_true, if_neg Bool.false_ne_true]
    by_cases hmem : id ∈ ids
    · right
      rw [if_pos (show ids.contains (textOf (.string id)) = true from List.contains_iff_mem.mpr hmem)]
      exact ⟨fun other hother _ => by cases hother; exact hmem, List.cons_ne_nil _ _⟩
    · left
      rw [if_neg (show ¬ ids.contains (textOf (.string id)) = true from fun h => hmem (List.contains_iff_mem.mp h))]
      exact ⟨id, rfl, hid, hmem, rfl⟩
  · right
    rw [Bool.not_eq_true] at hcanonical
    rw [hcanonical, Bool.not_false, if_pos rfl]
    refine ⟨fun id hid huuid => ?_, List.cons_ne_nil _ _⟩
    rw [isCanonicalUuidV4_iff.mpr ⟨id, hid, huuid⟩] at hcanonical
    cases hcanonical

theorem validateMacroSource_eq_nil {value : JsValue} {path : Units} :
    validateMacroSource value path validateSource = [] ↔
      ∃ source, value = .string source ∧ byteLength source ≤ sourceMaximumBytes ∧ validateSource source = none := by
  constructor
  · intro h
    cases value with
    | string source =>
      rw [validateMacroSource] at h
      split_ifs at h with hlong
      cases hsource : validateSource source with
      | none => exact ⟨source, rfl, by omega, hsource⟩
      | some message =>
        rw [hsource] at h
        cases h
    | _ => cases h
  · rintro ⟨source, rfl, hbytes, hsource⟩
    rw [validateMacroSource, if_neg (by omega), hsource]

theorem validateTiming_eq_nil {value : JsValue} {path : Units} {message : String} :
    validateTiming value path message = [] ↔ ∃ q, value = .number q ∧ ValidTiming q := by
  unfold validateTiming
  constructor
  · intro h
    split_ifs at h with hbounded
    cases value with
    | number q => exact ⟨q, rfl, (isBoundedInteger_iff (by decide)).mp hbounded⟩
    | _ => cases hbounded
  · rintro ⟨q, rfl, hvalid⟩
    rw [if_pos ((isBoundedInteger_iff (by decide)).mpr hvalid)]

/-- The value is a valid macro with a new identifier. -/
structure AcceptedMacro (validateSource : MacroSourceValidator) (ids : List Units) (value : JsValue)
    (m : RepositoryMacro) : Prop where
  value : MacroValue value m
  valid : ValidMacro validateSource m
  fresh : m.id ∉ ids

theorem hasExactKeys_perm {members : List (Units × JsValue)} {keys : List Units} :
    hasExactKeys members keys = true ↔ (members.map (·.1)).Perm keys := by
  rw [hasExactKeys, decide_eq_true_eq, sorted_eq_iff]

theorem hasFields_macroJson {members : List (Units × JsValue)} {m : RepositoryMacro} :
    HasFields members
      [(property "id", .string m.id), (property "interKeyMs", .number m.interKeyMs),
        (property "keyPressMs", .number m.keyPressMs), (property "name", .string m.name),
        (property "source", .string m.source)] ↔
      hasExactKeys members macroKeys = true ∧ get members (property "id") = .string m.id ∧
        get members (property "name") = .string m.name ∧ get members (property "source") = .string m.source ∧
        get members (property "keyPressMs") = .number m.keyPressMs ∧
        get members (property "interKeyMs") = .number m.interKeyMs := by
  rw [hasExactKeys_perm]
  unfold HasFields
  simp only [List.forall_mem_cons, List.not_mem_nil, false_imp_iff, implies_true, and_true]
  constructor
  · rintro ⟨hkeys, hid, hinter, hkey, hname, hsource⟩
    exact ⟨hkeys, hid, hname, hsource, hkey, hinter⟩
  · rintro ⟨hkeys, hid, hname, hsource, hkey, hinter⟩
    exact ⟨hkeys, hid, hinter, hkey, hname, hsource⟩

/-- What a check of a value yields: what it accepts, with the issues as they were,
or nothing, with more issues. -/
def Checked {α : Type} (Accepted : α → Prop) (collected : Collected) (ids : α → List Units) (found : Option α)
    (after : Collected) : Prop :=
  (∃ a, Accepted a ∧ found = some a ∧ after = ⟨collected.macroIds ++ ids a, collected.issues⟩) ∨
    ((∀ a, ¬ Accepted a) ∧ found = none ∧ collected.issues.length < after.issues.length)

theorem checked_issue {α : Type} {Accepted : α → Prop} {collected : Collected} {ids : α → List Units}
    {found : RepositoryValidationIssue} (h : ∀ a, ¬ Accepted a) :
    Checked Accepted collected ids none (collected.add [found]) :=
  Or.inr ⟨h, rfl, by simp [Collected.add]⟩

/-- A macro is accepted when it is valid and its identifier is new. -/
theorem validateMacro_checked (value : JsValue) (path : Units) (collected : Collected) :
    Checked (AcceptedMacro validateSource collected.macroIds value) collected (fun m => [m.id])
      (validateMacro validateSource value path collected).1 (validateMacro validateSource value path collected).2 := by
  cases value with
  | record members =>
    by_cases hkeys : hasExactKeys members macroKeys = true
    · have hspec := validateId_spec (get members (property "id")) (path ++ jsString ".id")
        "Macro ID must be a canonical lowercase UUID v4." "Macro ID must be unique across the repository."
        collected.macroIds
      rw [validateMacro, hkeys, Bool.not_true, if_neg Bool.false_ne_true]
      revert hspec
      generalize validateId _ _ _ _ collected.macroIds = checked
      obtain ⟨idIssues, macroIds⟩ := checked
      intro hspec
      dsimp only
      split_ifs with hadded
      · rw [hadded, List.append_nil]
        simp only [List.append_eq_nil_iff, validateName_eq_nil, validateMacroSource_eq_nil, validateTiming_eq_nil] at hadded
        obtain ⟨⟨⟨⟨hidIssues, name, hname, hvalidName⟩, source, hsource, hbytes, haccepted⟩, keyPressMs, hkey, hkeyValid⟩,
          interKeyMs, hinter, hinterValid⟩ := hadded
        obtain ⟨id, hid, huuid, hfresh, hcheck⟩ := hspec.resolve_right fun hissues => hissues.2 hidIssues
        cases hcheck
        refine Or.inl ⟨⟨id, name, source, keyPressMs, interKeyMs⟩, ⟨⟨members, rfl, ?_⟩, ?_, hfresh⟩, ?_, rfl⟩
        · exact hasFields_macroJson.mpr ⟨hkeys, hid, hname, hsource, hkey, hinter⟩
        · exact ⟨huuid, hvalidName, hbytes, haccepted, hkeyValid, hinterValid⟩
        · rw [macroOf, hid, hname, hsource, hkey, hinter]
      · refine Or.inr ⟨fun m hm => hadded ?_, rfl, ?_⟩
        · obtain ⟨members', hvalue, hfields⟩ := hm.value
          cases hvalue
          obtain ⟨-, hid, hname, hsource, hkey, hinter⟩ := hasFields_macroJson.mp hfields
          simp only [List.append_eq_nil_iff, validateName_eq_nil, validateMacroSource_eq_nil, validateTiming_eq_nil]
          refine ⟨⟨⟨⟨?_, _, hname, hm.valid.name⟩, _, hsource, hm.valid.sourceBytes, hm.valid.source⟩, _, hkey,
            hm.valid.keyPress⟩, _, hinter, hm.valid.interKey⟩
          rcases hspec with ⟨id, -, -, -, hcheck⟩ | ⟨hknown, -⟩
          · cases hcheck
            rfl
          · exact absurd (hknown _ hid hm.valid.id) hm.fresh
        · rw [List.length_append]
          have hlength := List.length_pos_iff.mpr hadded
          omega
    · rw [Bool.not_eq_true] at hkeys
      rw [validateMacro, hkeys, Bool.not_false, if_pos rfl]
      refine checked_issue fun m hm => ?_
      obtain ⟨members', hvalue, hfields⟩ := hm.value
      cases hvalue
      rw [(hasFields_macroJson.mp hfields).1] at hkeys
      cases hkeys
  | _ =>
    refine checked_issue fun m hm => ?_
    obtain ⟨members', hvalue, -⟩ := hm.value
    cases hvalue

theorem Checked.issues_le {α : Type} {Accepted : α → Prop} {collected : Collected} {ids : α → List Units}
    {found : Option α} {after : Collected} (h : Checked Accepted collected ids found after) :
    collected.issues.length ≤ after.issues.length := by
  rcases h with ⟨a, -, -, rfl⟩ | ⟨-, -, hgrew⟩
  · exact le_rfl
  · exact hgrew.le

def New (seen ids : List Units) : Prop := ids.Nodup ∧ ∀ id ∈ ids, id ∉ seen

theorem new_append {seen ids others : List Units} : New seen (ids ++ others) ↔ New seen ids ∧ New (seen ++ ids) others := by
  unfold New
  rw [List.nodup_append, List.forall_mem_append]
  constructor
  · rintro ⟨⟨hids, hothers, hdistinct⟩, hfresh, hfresh'⟩
    refine ⟨⟨hids, hfresh⟩, hothers, fun id hmem hseen => ?_⟩
    rcases List.mem_append.mp hseen with hseen | hseen
    · exact hfresh' id hmem hseen
    · exact hdistinct id hseen id hmem rfl
  · rintro ⟨⟨hids, hfresh⟩, hothers, hfresh'⟩
    refine ⟨⟨hids, hothers, fun id hmem other hother hsame => ?_⟩, hfresh, fun id hmem hseen => ?_⟩
    · exact hfresh' other hother (List.mem_append_right _ (hsame ▸ hmem))
    · exact hfresh' id hmem (List.mem_append_left _ hseen)

theorem new_singleton {seen : List Units} {id : Units} : New seen [id] ↔ id ∉ seen := by simp [New]

theorem new_nil {seen : List Units} : New seen [] := ⟨List.nodup_nil, by simp⟩

/-- The values are valid macros with new identifiers. -/
structure AcceptedMacros (validateSource : MacroSourceValidator) (ids : List Units) (values : List JsValue)
    (macros : List RepositoryMacro) : Prop where
  values : List.Forall₂ MacroValue values macros
  valid : ∀ m ∈ macros, ValidMacro validateSource m
  new : New ids (macros.map (·.id))

theorem acceptedMacros_cons {ids : List Units} {value : JsValue} {values : List JsValue} {m : RepositoryMacro}
    {macros : List RepositoryMacro} : AcceptedMacros validateSource ids (value :: values) (m :: macros) ↔
      AcceptedMacro validateSource ids value m ∧ AcceptedMacros validateSource (ids ++ [m.id]) values macros := by
  constructor
  · rintro ⟨hvalues, hvalid, hnew⟩
    rw [List.forall₂_cons] at hvalues
    rw [List.forall_mem_cons] at hvalid
    rw [List.map_cons, ← List.singleton_append, new_append, new_singleton] at hnew
    exact ⟨⟨hvalues.1, hvalid.1, hnew.1⟩, ⟨hvalues.2, hvalid.2, hnew.2⟩⟩
  · rintro ⟨hfirst, hrest⟩
    refine ⟨.cons hfirst.value hrest.values, List.forall_mem_cons.mpr ⟨hfirst.valid, hrest.valid⟩, ?_⟩
    rw [List.map_cons, ← List.singleton_append, new_append, new_singleton]
    exact ⟨hfirst.fresh, hrest.new⟩

def allOf {α : Type} (outcome : List α × Bool) : Option (List α) := if outcome.2 then some outcome.1 else none

theorem allOf_eq_some {α : Type} {outcome : List α × Bool} {items : List α} :
    allOf outcome = some items ↔ outcome = (items, true) := by
  obtain ⟨found, valid⟩ := outcome
  cases valid <;> simp [allOf]

theorem allOf_eq_none {α : Type} {outcome : List α × Bool} : allOf outcome = none ↔ outcome.2 = false := by
  obtain ⟨found, valid⟩ := outcome
  cases valid <;> simp [allOf]

/-- Macros are accepted when each is valid and its identifier is new. -/
theorem validateMacros_checked (path : Units) (values : List JsValue) (index : Nat) (collected : Collected) :
    Checked (AcceptedMacros validateSource collected.macroIds values) collected (fun macros => macros.map (·.id))
      (allOf (validateMacros validateSource path values index collected).1)
      (validateMacros validateSource path values index collected).2 := by
  induction values generalizing index collected with
  | nil => exact Or.inl ⟨[], ⟨.nil, by simp, new_nil⟩, rfl, by simp [validateMacros]⟩
  | cons value values ih =>
    have hfirst := @validateMacro_checked validateSource value (indexed path index) collected
    rw [validateMacros]
    rcases hcheck : validateMacro validateSource value (indexed path index) collected with ⟨validated, next⟩
    rw [hcheck] at hfirst
    have hrest := ih (index + 1) next
    rcases hchecks : validateMacros validateSource path values (index + 1) next with ⟨⟨macros, valid⟩, last⟩
    rw [hchecks] at hrest
    simp only [hchecks]
    dsimp only at hfirst hrest
    rcases hfirst with ⟨m, hm, rfl, rfl⟩ | ⟨hnone, rfl, hgrew⟩
    · rcases hrest with ⟨others, hothers, hfound, rfl⟩ | ⟨hnone, hfound, hgrew⟩
      · cases allOf_eq_some.mp hfound
        refine Or.inl ⟨m :: macros, acceptedMacros_cons.mpr ⟨hm, hothers⟩, rfl, ?_⟩
        dsimp only
        rw [List.map_cons, List.append_assoc, List.singleton_append]
      · refine Or.inr ⟨fun others hothers => ?_, ?_, hgrew⟩
        · obtain ⟨m', macros', hm', -, rfl⟩ := List.forall₂_cons_left_iff.mp hothers.values
          obtain rfl := macroValue_unique hm.value hm'
          exact hnone macros' (acceptedMacros_cons.mp hothers).2
        · have hinvalid := allOf_eq_none.mp hfound
          exact allOf_eq_none.mpr hinvalid
    · refine Or.inr ⟨fun others hothers => ?_, rfl, hgrew.trans_le hrest.issues_le⟩
      obtain ⟨m', macros', hm', -, rfl⟩ := List.forall₂_cons_left_iff.mp hothers.values
      exact hnone m' (acceptedMacros_cons.mp hothers).1

/-- The value is a valid package with new identifiers. -/
structure AcceptedPackage (validateSource : MacroSourceValidator) (packageIds macroIds : List Units) (value : JsValue)
    (pkg : RepositoryPackage) : Prop where
  value : PackageValue value pkg
  valid : ValidPackage validateSource pkg
  fresh : pkg.id ∉ packageIds
  new : New macroIds (pkg.macros.map (·.id))

theorem hasFields_package {members : List (Units × JsValue)} {pkg : RepositoryPackage} {items : List JsValue} :
    HasFields members
      [(property "id", .string pkg.id), (property "macros", .array items), (property "name", .string pkg.name)] ↔
      hasExactKeys members packageKeys = true ∧ get members (property "id") = .string pkg.id ∧
        get members (property "macros") = .array items ∧ get members (property "name") = .string pkg.name := by
  rw [hasExactKeys_perm]
  unfold HasFields
  simp only [List.forall_mem_cons, List.not_mem_nil, false_imp_iff, implies_true, and_true]
  rfl

theorem validateMacroArray_checked (value : JsValue) (path : Units) (collected : Collected) :
    Checked (fun macros => ∃ items, value = .array items ∧
        AcceptedMacros validateSource collected.macroIds items macros) collected (fun macros => macros.map (·.id))
      (allOf (validateMacroArray validateSource value path collected).1)
      (validateMacroArray validateSource value path collected).2 := by
  cases value with
  | array items =>
    rcases @validateMacros_checked validateSource path items 0 collected with
      ⟨macros, haccepted, hfound, hafter⟩ | ⟨hnone, hfound, hgrew⟩
    · exact Or.inl ⟨macros, ⟨items, rfl, haccepted⟩, hfound, hafter⟩
    · refine Or.inr ⟨fun macros hmacros => ?_, hfound, hgrew⟩
      obtain ⟨items', hitems, haccepted⟩ := hmacros
      cases hitems
      exact hnone macros haccepted
  | _ =>
    refine checked_issue fun macros hmacros => ?_
    obtain ⟨items, hitems, -⟩ := hmacros
    cases hitems

/-- A package is accepted when it is valid and its identifiers are new. -/
theorem validatePackage_checked (value : JsValue) (index : Nat) (packageIds : List Units) (collected : Collected) :
    Checked (AcceptedPackage validateSource packageIds collected.macroIds value) collected
        (fun pkg => pkg.macros.map (·.id)) (validatePackage validateSource value index packageIds collected).1
        (validatePackage validateSource value index packageIds collected).2.2 ∧
      ∀ pkg, (validatePackage validateSource value index packageIds collected).1 = some pkg →
        (validatePackage validateSource value index packageIds collected).2.1 = packageIds ++ [pkg.id] := by
  cases value with
  | record members =>
    by_cases hkeys : hasExactKeys members packageKeys = true
    · have hspec := validateId_spec (get members (property "id")) (indexed (jsString "$.packages") index ++ jsString ".id")
        "Package ID must be a canonical lowercase UUID v4." "Package ID must be unique within the repository." packageIds
      rw [validatePackage, hkeys, Bool.not_true, if_neg Bool.false_ne_true]
      revert hspec
      generalize validateId _ _ _ _ packageIds = checked
      obtain ⟨idIssues, nextIds⟩ := checked
      intro hspec
      dsimp only at hspec ⊢
      generalize hadded : idIssues ++ validateName (get members (property "name")) _ = added
      have hmacros := @validateMacroArray_checked validateSource (get members (property "macros"))
        (indexed (jsString "$.packages") index ++ jsString ".macros") (collected.add added)
      revert hmacros
      generalize validateMacroArray validateSource (get members (property "macros")) _ _ = validated
      obtain ⟨⟨macros, valid⟩, last⟩ := validated
      intro hmacros
      dsimp only at hmacros ⊢
      by_cases hempty : added = []
      · rw [hempty, List.append_eq_nil_iff, validateName_eq_nil] at hadded
        obtain ⟨hidIssues, name, hname, hvalidName⟩ := hadded
        obtain ⟨id, hid, huuid, hfresh, hcheck⟩ := hspec.resolve_right fun hissues => hissues.2 hidIssues
        cases hcheck
        rw [hempty, Collected.add, List.append_nil] at hmacros
        simp only [hempty, decide_true, Bool.true_and]
        rcases hmacros with ⟨found, ⟨items, hitems, haccepted⟩, hfound, rfl⟩ | ⟨hnone, hfound, hgrew⟩
        · cases allOf_eq_some.mp hfound
          rw [if_pos rfl, packageOf, hid, hname]
          refine ⟨Or.inl ⟨⟨id, name, macros⟩, ⟨⟨members, items, rfl, ?_, haccepted.values⟩, ?_, hfresh, haccepted.new⟩, rfl,
            rfl⟩, fun pkg hpkg => by cases hpkg; rfl⟩
          · exact hasFields_package.mpr ⟨hkeys, hid, hitems, hname⟩
          · exact ⟨huuid, hvalidName, haccepted.valid⟩
        · cases allOf_eq_none.mp hfound
          rw [if_neg Bool.false_ne_true]
          refine ⟨Or.inr ⟨fun pkg hpkg => ?_, rfl, hgrew⟩, fun pkg hpkg => by cases hpkg⟩
          obtain ⟨members', items, hvalue, hfields, hvalues⟩ := hpkg.value
          cases hvalue
          exact hnone pkg.macros ⟨items, (hasFields_package.mp hfields).2.2.1, hvalues, hpkg.valid.macros, hpkg.new⟩
      · simp only [hempty, decide_false, Bool.false_and, if_neg Bool.false_ne_true]
        refine ⟨Or.inr ⟨fun pkg hpkg => hempty ?_, rfl, ?_⟩, fun pkg hpkg => by cases hpkg⟩
        · obtain ⟨members', items, hvalue, hfields, -⟩ := hpkg.value
          cases hvalue
          obtain ⟨-, hid, -, hname⟩ := hasFields_package.mp hfields
          rw [← hadded, List.append_eq_nil_iff, validateName_eq_nil]
          refine ⟨?_, _, hname, hpkg.valid.name⟩
          rcases hspec with ⟨id, -, -, -, hcheck⟩ | ⟨hknown, -⟩
          · cases hcheck
            rfl
          · exact absurd (hknown _ hid hpkg.valid.id) hpkg.fresh
        · have hle := hmacros.issues_le
          have hlength := List.length_pos_iff.mpr hempty
          rw [Collected.add, List.length_append] at hle
          omega
    · rw [Bool.not_eq_true] at hkeys
      rw [validatePackage, hkeys, Bool.not_false, if_pos rfl]
      refine ⟨checked_issue fun pkg hpkg => ?_, fun _ hsome => by cases hsome⟩
      obtain ⟨members', items, hvalue, hfields, -⟩ := hpkg.value
      cases hvalue
      rw [(hasFields_package.mp hfields).1] at hkeys
      cases hkeys
  | _ =>
    refine ⟨checked_issue fun pkg hpkg => ?_, fun _ hsome => by cases hsome⟩
    obtain ⟨members', items, hvalue, -⟩ := hpkg.value
    cases hvalue

/-- The values are valid packages with new identifiers. -/
structure AcceptedPackages (validateSource : MacroSourceValidator) (packageIds macroIds : List Units)
    (values : List JsValue) (packages : List RepositoryPackage) : Prop where
  values : List.Forall₂ PackageValue values packages
  valid : ∀ pkg ∈ packages, ValidPackage validateSource pkg
  newPackages : New packageIds (packages.map (·.id))
  newMacros : New macroIds (macroIdsOf packages)

theorem acceptedPackages_cons {packageIds macroIds : List Units} {value : JsValue} {values : List JsValue}
    {pkg : RepositoryPackage} {packages : List RepositoryPackage} :
    AcceptedPackages validateSource packageIds macroIds (value :: values) (pkg :: packages) ↔
      AcceptedPackage validateSource packageIds macroIds value pkg ∧ AcceptedPackages validateSource
        (packageIds ++ [pkg.id]) (macroIds ++ pkg.macros.map (·.id)) values packages := by
  constructor
  · rintro ⟨hvalues, hvalid, hpackages, hmacros⟩
    rw [List.forall₂_cons] at hvalues
    rw [List.forall_mem_cons] at hvalid
    rw [List.map_cons, ← List.singleton_append, new_append, new_singleton] at hpackages
    rw [macroIdsOf, List.flatMap_cons, new_append] at hmacros
    exact ⟨⟨hvalues.1, hvalid.1, hpackages.1, hmacros.1⟩, ⟨hvalues.2, hvalid.2, hpackages.2, hmacros.2⟩⟩
  · rintro ⟨hfirst, hrest⟩
    refine ⟨.cons hfirst.value hrest.values, List.forall_mem_cons.mpr ⟨hfirst.valid, hrest.valid⟩, ?_, ?_⟩
    · rw [List.map_cons, ← List.singleton_append, new_append, new_singleton]
      exact ⟨hfirst.fresh, hrest.newPackages⟩
    · rw [macroIdsOf, List.flatMap_cons, new_append]
      exact ⟨hfirst.new, hrest.newMacros⟩

/-- Packages are accepted when each is valid and its identifiers are new, and otherwise add issues. -/
theorem validatePackages_checked (values : List JsValue) (index : Nat) (packageIds : List Units) (collected : Collected) :
    (AcceptedPackages validateSource packageIds collected.macroIds values
        (validatePackages validateSource values index packageIds collected).1 ∧
      (validatePackages validateSource values index packageIds collected).2.issues = collected.issues) ∨
    ((∀ packages, ¬ AcceptedPackages validateSource packageIds collected.macroIds values packages) ∧
      collected.issues.length < (validatePackages validateSource values index packageIds collected).2.issues.length) := by
  induction values generalizing index packageIds collected with
  | nil => exact Or.inl ⟨⟨.nil, by simp [validatePackages], new_nil, new_nil⟩, rfl⟩
  | cons value values ih =>
    have hfirst := @validatePackage_checked validateSource value index packageIds collected
    rw [validatePackages]
    rcases hcheck : validatePackage validateSource value index packageIds collected with ⟨validated, nextIds, next⟩
    rw [hcheck] at hfirst
    have hrest := ih (index + 1) nextIds next
    dsimp only at hfirst ⊢
    obtain ⟨⟨pkg, hpkg, rfl, rfl⟩ | ⟨hnone, rfl, hgrew⟩, hids⟩ := hfirst
    · obtain rfl := hids pkg rfl
      rcases hrest with ⟨hpackages, hsame⟩ | ⟨hnone, hgrew⟩
      · exact Or.inl ⟨acceptedPackages_cons.mpr ⟨hpkg, hpackages⟩, hsame⟩
      · refine Or.inr ⟨fun packages hpackages => ?_, hgrew⟩
        obtain ⟨pkg', packages', hpkg', -, rfl⟩ := List.forall₂_cons_left_iff.mp hpackages.values
        obtain rfl := packageValue_unique hpkg.value hpkg'
        exact hnone packages' (acceptedPackages_cons.mp hpackages).2
    · refine Or.inr ⟨fun packages hpackages => ?_, ?_⟩
      · obtain ⟨pkg', packages', hpkg', -, rfl⟩ := List.forall₂_cons_left_iff.mp hpackages.values
        exact hnone pkg' (acceptedPackages_cons.mp hpackages).1
      · rcases hrest with ⟨-, hsame⟩ | ⟨-, hgrew'⟩
        · rwa [hsame]
        · exact hgrew.trans hgrew'

theorem validatePackageArray_checked (value : JsValue) (collected : Collected) :
    (∃ items, value = .array items ∧ AcceptedPackages validateSource [] collected.macroIds items
        (validatePackageArray validateSource value collected).1 ∧
      (validatePackageArray validateSource value collected).2.issues = collected.issues) ∨
    ((∀ items packages, value = .array items → ¬ AcceptedPackages validateSource [] collected.macroIds items packages) ∧
      collected.issues.length < (validatePackageArray validateSource value collected).2.issues.length) := by
  cases value with
  | array items =>
    rcases @validatePackages_checked validateSource items 0 [] collected with
      ⟨haccepted, hsame⟩ | ⟨hnone, hgrew⟩
    · exact Or.inl ⟨items, rfl, haccepted, hsame⟩
    · refine Or.inr ⟨fun items' packages hitems => ?_, hgrew⟩
      cases hitems
      exact hnone packages
  | _ => exact Or.inr ⟨fun _ _ hitems => (by cases hitems), by simp [validatePackageArray, Collected.add]⟩

theorem validateFormat_eq_nil {value : JsValue} : validateFormat value = [] ↔ value = .string repositoryFormat := by
  constructor
  · intro h
    cases value with
    | string units =>
      rw [validateFormat] at h
      split_ifs at h with hformat
      rw [hformat]
    | _ => cases h
  · rintro rfl
    rw [validateFormat, if_pos rfl]

theorem validateSchemaVersion_eq_nil {value : JsValue} : validateSchemaVersion value = [] ↔ value = .number 1 := by
  constructor
  · intro h
    cases value with
    | number q =>
      rw [validateSchemaVersion] at h
      split_ifs at h with hversion
      rw [hversion]
    | _ => cases h
  · rintro rfl
    rw [validateSchemaVersion, if_pos rfl]

theorem hasFields_repository {members : List (Units × JsValue)} {repository : Repository} {items : List JsValue} :
    HasFields members
      [(property "format", .string repository.format), (property "packages", .array items),
        (property "schemaVersion", .number repository.schemaVersion)] ↔
      hasExactKeys members repositoryKeys = true ∧ get members (property "format") = .string repository.format ∧
        get members (property "packages") = .array items ∧
        get members (property "schemaVersion") = .number repository.schemaVersion := by
  rw [hasExactKeys_perm]
  unfold HasFields
  simp only [List.forall_mem_cons, List.not_mem_nil, false_imp_iff, implies_true, and_true]
  rfl

def Acceptable (validateSource : MacroSourceValidator) (value : JsValue) (repository : Repository) : Prop :=
  RepositoryValue value repository ∧ ValidRepository validateSource repository

theorem acceptable_record {members : List (Units × JsValue)} {repository : Repository} :
    Acceptable validateSource (.record members) repository ↔
      ∃ items, hasExactKeys members repositoryKeys = true ∧
        get members (property "format") = .string repositoryFormat ∧
        get members (property "schemaVersion") = .number 1 ∧ get members (property "packages") = .array items ∧
        AcceptedPackages validateSource [] [] items repository.packages ∧ repository.format = repositoryFormat ∧
        repository.schemaVersion = 1 := by
  constructor
  · rintro ⟨⟨members', items, hvalue, hfields, hvalues⟩, hvalid⟩
    cases hvalue
    obtain ⟨hkeys, hformat, hpackages, hversion⟩ := hasFields_repository.mp hfields
    rw [hvalid.format] at hformat
    rw [hvalid.schemaVersion] at hversion
    exact ⟨items, hkeys, hformat, hversion, hpackages, ⟨hvalues, hvalid.packages, ⟨hvalid.packageIds, by simp⟩,
      ⟨hvalid.macroIds, by simp⟩⟩, hvalid.format, hvalid.schemaVersion⟩
  · rintro ⟨items, hkeys, hformat, hversion, hpackages, haccepted, hformat', hversion'⟩
    refine ⟨⟨members, items, rfl, hasFields_repository.mpr ⟨hkeys, ?_, hpackages, ?_⟩, haccepted.values⟩, ?_⟩
    · rw [hformat, hformat']
    · rw [hversion, hversion']
    · exact ⟨hformat', hversion', haccepted.valid, haccepted.newPackages.1, haccepted.newMacros.1⟩

/-- The validator yields the repository when the value satisfies every rule, and issues otherwise. -/
theorem validateRepository_spec (value : JsValue) :
    (∃ repository, Acceptable validateSource value repository ∧
      validateRepository value validateSource = .ok repository) ∨
    ((∀ repository, ¬ Acceptable validateSource value repository) ∧
      ∃ issues, issues ≠ [] ∧ validateRepository value validateSource = .invalid issues) := by
  cases value with
  | record members =>
    by_cases hkeys : hasExactKeys members repositoryKeys = true
    · rw [validateRepository, hkeys, Bool.not_true, if_neg Bool.false_ne_true]
      dsimp only
      generalize hfound : validateFormat (get members (property "format")) ++ _ = found
      have hpackages := @validatePackageArray_checked validateSource
        (get members (property "packages")) ⟨[], found⟩
      generalize validatePackageArray validateSource (get members (property "packages")) ⟨[], found⟩ = outcome at hpackages ⊢
      obtain ⟨packages, last⟩ := outcome
      dsimp only at hpackages ⊢
      split_ifs with hissues
      · refine Or.inr ⟨fun repository hacceptable => ?_, _, List.length_pos_iff.mp hissues, rfl⟩
        obtain ⟨items, -, hformat, hversion, hitems, haccepted, -⟩ := acceptable_record.mp hacceptable
        have hnone : found = [] := by
          rw [← hfound, List.append_eq_nil_iff, validateFormat_eq_nil, validateSchemaVersion_eq_nil]
          exact ⟨hformat, hversion⟩
        rcases hpackages with ⟨-, -, -, hsame⟩ | ⟨hunaccepted, -⟩
        · rw [hsame, hnone] at hissues
          exact absurd hissues (Nat.lt_irrefl 0)
        · exact hunaccepted items repository.packages hitems haccepted
      · have hlast : last.issues = [] := List.length_eq_zero_iff.mp (by omega)
        rw [hlast] at hpackages
        obtain ⟨items, hitems, haccepted, hsame⟩ := hpackages.resolve_right fun hgrew => absurd hgrew.2 (Nat.not_lt_zero _)
        rw [← hsame, List.append_eq_nil_iff, validateFormat_eq_nil, validateSchemaVersion_eq_nil] at hfound
        exact Or.inl ⟨⟨repositoryFormat, 1, packages⟩, acceptable_record.mpr ⟨items, hkeys, hfound.1, hfound.2, hitems,
          haccepted, rfl, rfl⟩, rfl⟩
    · refine Or.inr ⟨fun repository hacceptable => ?_, ?_⟩
      · obtain ⟨items, hkeys', -⟩ := acceptable_record.mp hacceptable
        exact hkeys hkeys'
      · rw [Bool.not_eq_true] at hkeys
        rw [validateRepository, hkeys, Bool.not_false, if_pos rfl]
        exact ⟨_, List.cons_ne_nil _ _, rfl⟩
  | _ =>
    refine Or.inr ⟨fun repository hacceptable => ?_, _, List.cons_ne_nil _ _, rfl⟩
    obtain ⟨⟨members', items, hvalue, -⟩, -⟩ := hacceptable
    cases hvalue

end Checks

end MacroKeyboard.Webapp
