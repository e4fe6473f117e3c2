import MacroKeyboard.Json.Unambiguous
import MacroKeyboard.Webapp.RepositoryRules

namespace MacroKeyboard.Webapp

open Json JsValue

variable {validateSource : MacroSourceValidator} {others : ℚ → List UInt8} {literal : ℚ → ℚ}

section Numbers

theorem writesNatural_natCast {n : ℕ} (h : n < 10 ^ 21) : WritesNatural (numberToString others) n := by
  refine ⟨n, rfl, ?_⟩
  rw [numberToString, if_pos ⟨Rat.den_natCast n, Int.natCast_nonneg n, by rw [Rat.num_natCast]; exact_mod_cast h⟩]
  rfl

theorem writesNatural_of_validTiming {q : ℚ} (h : ValidTiming q) : WritesNatural (numberToString others) q := by
  obtain ⟨n, rfl, hn⟩ := h
  exact writesNatural_natCast (hn.trans_lt (by decide))

theorem numberOfLiteral_natCast {n : ℕ} (h : n ≤ maxSafeInteger) : numberOfLiteral literal n = n := by
  refine if_pos ⟨Rat.den_natCast n, ?_⟩
  rw [abs_of_nonneg (Nat.cast_nonneg n)]
  exact_mod_cast h

theorem numberOfLiteral_of_validTiming {q : ℚ} (h : ValidTiming q) : numberOfLiteral literal q = q := by
  obtain ⟨n, rfl, hn⟩ := h
  exact numberOfLiteral_natCast (hn.trans (by decide))

end Numbers

section Values

theorem hasFields_of_mem {members fields : List (Units × JsValue)} (hnodup : (members.map (·.1)).Nodup)
    (hnames : (members.map (·.1)).Perm (fields.map (·.1))) (h : ∀ field ∈ fields, field ∈ members) :
    HasFields members fields :=
  ⟨hnames, fun field hmem => get_of_mem hnodup (h field hmem)⟩

theorem parsedItems_map {α : Type} (toJson : α → Value Units) (items : List α) {round : ℚ → ℚ} :
    parsedItems round (items.map toJson) = items.map (fun item => parsed round (toJson item)) := by
  induction items with
  | nil => rfl
  | cons item items ih => rw [List.map_cons, parsedItems, ih, List.map_cons]

theorem forall₂_map {α : Type} {P : JsValue → α → Prop} {f : α → JsValue} {items : List α}
    (h : ∀ item ∈ items, P (f item) item) : List.Forall₂ P (items.map f) items := by
  rw [List.forall₂_map_left_iff, List.forall₂_same]
  exact h

theorem macroValue_parsed (literal : ℚ → ℚ) {m : RepositoryMacro} (h : ValidMacro validateSource m) :
    MacroValue (parsed (numberOfLiteral literal) (macroJson m)) m := by
  have hnames : [property "id", property "name", property "source", property "keyPressMs",
    property "interKeyMs"].Nodup := by decide
  refine ⟨_, parsed_object hnames, hasFields_of_mem hnames ?_ ?_⟩
  · exact (by decide : [property "id", property "name", property "source", property "keyPressMs",
      property "interKeyMs"].Perm macroKeys)
  · simp [parsed, numberOfLiteral_of_validTiming h.keyPress, numberOfLiteral_of_validTiming h.interKey]

theorem packageValue_parsed (literal : ℚ → ℚ) {pkg : RepositoryPackage} (h : ValidPackage validateSource pkg) :
    PackageValue (parsed (numberOfLiteral literal) (packageJson pkg)) pkg := by
  have hnames : [property "id", property "name", property "macros"].Nodup := by decide
  refine ⟨_, _, parsed_object hnames, hasFields_of_mem hnames ?_ ?_,
    forall₂_map fun m hmem => macroValue_parsed literal (h.macros m hmem)⟩
  · exact (by decide : [property "id", property "name", property "macros"].Perm packageKeys)
  · simp [parsed, parsedItems_map]

theorem repositoryValue_parsed (literal : ℚ → ℚ) {repository : Repository} (h : ValidRepository validateSource repository) :
    RepositoryValue (parsed (numberOfLiteral literal) (repositoryJson repository)) repository := by
  have hnames : [property "format", property "schemaVersion", property "packages"].Nodup := by decide
  have hversion : numberOfLiteral literal repository.schemaVersion = repository.schemaVersion := by
    rw [h.schemaVersion]
    exact_mod_cast numberOfLiteral_natCast (n := 1) (by decide)
  refine ⟨_, _, parsed_object hnames, hasFields_of_mem hnames ?_ ?_,
    forall₂_map fun pkg hmem => packageValue_parsed literal (h.packages pkg hmem)⟩
  · exact (by decide : [property "format", property "schemaVersion", property "packages"].Perm repositoryKeys)
  · simp [parsed, parsedItems_map, hversion]

end Values

section RoundTrip

theorem allNumbersOfItems_map {α : Type} {P : ℚ → Prop} {toJson : α → Value Units} {items : List α}
    (h : ∀ item ∈ items, AllNumbers P (toJson item)) : AllNumbersOfItems P (items.map toJson) := by
  induction items with
  | nil => trivial
  | cons item items ih =>
    rw [List.forall_mem_cons] at h
    exact ⟨h.1, ih h.2⟩

theorem allNumbers_macroJson {m : RepositoryMacro} (h : ValidMacro validateSource m) :
    AllNumbers (WritesNatural (numberToString others)) (macroJson m) :=
  ⟨trivial, trivial, trivial, writesNatural_of_validTiming h.keyPress, writesNatural_of_validTiming h.interKey, trivial⟩

theorem allNumbers_packageJson {pkg : RepositoryPackage} (h : ValidPackage validateSource pkg) :
    AllNumbers (WritesNatural (numberToString others)) (packageJson pkg) :=
  ⟨trivial, trivial, allNumbersOfItems_map fun m hmem => allNumbers_macroJson (h.macros m hmem), trivial⟩

theorem allNumbers_repositoryJson {repository : Repository} (h : ValidRepository validateSource repository) :
    AllNumbers (WritesNatural (numberToString others)) (repositoryJson repository) := by
  refine ⟨trivial, ?_, allNumbersOfItems_map fun pkg hmem => allNumbers_packageJson (h.packages pkg hmem), trivial⟩
  rw [h.schemaVersion]
  exact_mod_cast writesNatural_natCast (n := 1) (by decide)

theorem withoutMark_serializeRepository (others : ℚ → List UInt8) (repository : Repository) :
    withoutMark (serializeRepository others repository) = serializeRepository others repository := by
  refine if_neg ?_
  rw [serializeRepository, repositoryJson, stringify, Bool.not_eq_true]
  rfl

theorem decodesTo_iff {repository : Repository} (h : ValidRepository validateSource repository) (gzip : Gzip)
    {stored : JsValue} : DecodesTo gzip literal (encodeRepositorySnapshot gzip others repository) stored ↔
      stored = parsed (numberOfLiteral literal) (repositoryJson repository) := by
  have hnumbers : AllNumbers (WritesNatural (numberToString others)) (repositoryJson repository) :=
    allNumbers_repositoryJson h
  have htext : gzip.gzipDecompress (encodeRepositorySnapshot gzip others repository) =
      some (serializeRepository others repository) := gzip.decompress_compress _
  constructor
  · rintro ⟨text, json, hdecompressed, hdocument, rfl⟩
    rw [htext] at hdecompressed
    cases hdecompressed
    rw [withoutMark_serializeRepository] at hdocument
    rw [documentText_unique hnumbers hdocument]
  · rintro rfl
    refine ⟨_, _, htext, ?_, rfl⟩
    rw [withoutMark_serializeRepository]
    exact documentText_stringify (hnumbers.mono fun q hq => hq.numberText_of)

theorem packageValues_unique {values : List JsValue} {packages packages' : List RepositoryPackage}
    (h : List.Forall₂ PackageValue values packages) (h' : List.Forall₂ PackageValue values packages') :
    packages = packages' := by
  induction h generalizing packages' with
  | nil =>
    cases h'
    rfl
  | cons hfirst hrest ih =>
    obtain ⟨pkg', rest', hfirst', hrest', rfl⟩ := List.forall₂_cons_left_iff.mp h'
    rw [packageValue_unique hfirst hfirst', ih hrest']

theorem repositoryValue_unique {value : JsValue} {repository repository' : Repository}
    (h : RepositoryValue value repository) (h' : RepositoryValue value repository') : repository = repository' := by
  obtain ⟨members, items, rfl, ⟨-, hfields⟩, hpackages⟩ := h
  obtain ⟨members', items', hvalue, ⟨-, hfields'⟩, hpackages'⟩ := h'
  cases hvalue
  simp only [List.forall_mem_cons, List.not_mem_nil, false_imp_iff, implies_true, and_true] at hfields hfields'
  obtain ⟨hformat, hitems, hversion⟩ := hfields
  rw [hformat, hitems, hversion] at hfields'
  obtain ⟨hformat, hitems, hversion⟩ := hfields'
  cases repository
  cases repository'
  cases hformat
  cases hitems
  cases hversion
  cases packageValues_unique hpackages hpackages'
  rfl

theorem validateRepository_of_acceptable {value : JsValue} {repository : Repository}
    (h : Acceptable validateSource value repository) : validateRepository value validateSource = .ok repository := by
  rcases @validateRepository_spec validateSource value with ⟨found, hfound, hok⟩ | ⟨hnone, -⟩
  · rw [hok, repositoryValue_unique hfound.1 h.1]
  · exact absurd h (hnone repository)

def storingGzip : Gzip := ⟨id, some, fun _ => rfl⟩

def deskRepository : Repository where
  format := repositoryFormat
  schemaVersion := 1
  packages := [⟨property "9f1b2c3d-4e5f-4a6b-8c7d-0e1f2a3b4c5d", property "Desk",
    [⟨property "1a2b3c4d-5e6f-4071-9283-94a5b6c7d8e9", property "Copy", property "[\x7bCTRL\x7dc]", 8, 15⟩]⟩]

theorem valid_deskRepository : ValidRepository (fun _ => none) deskRepository where
  format := rfl
  schemaVersion := rfl
  packages := by
    intro pkg hpkg
    cases List.mem_singleton.mp hpkg
    refine ⟨by unfold IsUuidV4; decide, ⟨⟨0x44, by decide, by decide⟩, by decide⟩, fun m hm => ?_⟩
    cases List.mem_singleton.mp hm
    exact ⟨by unfold IsUuidV4; decide, ⟨⟨0x43, by decide, by decide⟩, by decide⟩, by decide, rfl,
      ⟨8, by norm_num, by decide⟩, ⟨15, by norm_num, by decide⟩⟩
  packageIds := by decide
  macroIds := by decide

/-- An accepted value satisfies every rule, and what is stored of it is read back and
accepted as the same repository; a value that violates a rule is rejected. -/
theorem repository_round_trip (validateSource : MacroSourceValidator) (value : JsValue) :
    (∃ repository, validateRepository value validateSource = .ok repository ∧ RepositoryValue value repository ∧
      ValidRepository validateSource repository ∧
      ∀ (gzip : Gzip) (others : ℚ → List UInt8) (literal : ℚ → ℚ),
        (∃ stored, DecodesTo gzip literal (encodeRepositorySnapshot gzip others repository) stored) ∧
        ∀ stored, DecodesTo gzip literal (encodeRepositorySnapshot gzip others repository) stored →
          ∃ again, validateRepository stored validateSource = .ok again ∧ again = repository ∧
            serializeRepository others again = serializeRepository others repository) ∨
    ((∀ repository, RepositoryValue value repository → ¬ ValidRepository validateSource repository) ∧
      ∃ issues, issues ≠ [] ∧ validateRepository value validateSource = .invalid issues) := by
  rcases @validateRepository_spec validateSource value with ⟨repository, hacceptable, hok⟩ | ⟨hnone, hissues⟩
  · refine Or.inl ⟨repository, hok, hacceptable.1, hacceptable.2, fun gzip others literal => ?_⟩
    refine ⟨⟨_, (decodesTo_iff hacceptable.2 gzip).mpr rfl⟩, fun stored hstored => ?_⟩
    obtain rfl := (decodesTo_iff hacceptable.2 gzip).mp hstored
    exact ⟨repository, validateRepository_of_acceptable ⟨repositoryValue_parsed literal hacceptable.2, hacceptable.2⟩,
      rfl, rfl⟩
  · exact Or.inr ⟨fun repository hvalue hvalid => hnone repository ⟨hvalue, hvalid⟩, hissues⟩

/-- The repository is accepted, and so is what is read back of its snapshot. -/
theorem repository_round_trip_desk : ∃ stored,
    DecodesTo storingGzip id (encodeRepositorySnapshot storingGzip (fun _ => []) deskRepository) stored ∧
      validateRepository stored (fun _ => none) = .ok deskRepository := by
  have hvalue := repositoryValue_parsed id valid_deskRepository
  rcases repository_round_trip (fun _ => none) (parsed (numberOfLiteral id) (repositoryJson deskRepository)) with
    ⟨repository, -, hread, -, hstored⟩ | ⟨hnone, -⟩
  · obtain rfl := repositoryValue_unique hread hvalue
    obtain ⟨⟨stored, hdecodes⟩, hagain⟩ := hstored storingGzip (fun _ => []) id
    obtain ⟨again, haccepted, rfl, -⟩ := hagain stored hdecodes
    exact ⟨stored, hdecodes, haccepted⟩
  · exact absurd valid_deskRepository (hnone _ hvalue)

end RoundTrip

end MacroKeyboard.Webapp
