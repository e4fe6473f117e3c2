import MacroKeyboard.Json.Stringify
import MacroKeyboard.Webapp.RequestGuards

namespace MacroKeyboard.Webapp

open Json JsValue

structure RepositoryMacro where
  id : Units
  name : Units
  source : Units
  keyPressMs : ℚ
  interKeyMs : ℚ
deriving DecidableEq

structure RepositoryPackage where
  id : Units
  name : Units
  macros : List RepositoryMacro
deriving DecidableEq

structure Repository where
  format : Units
  schemaVersion : ℚ
  packages : List RepositoryPackage
deriving DecidableEq

structure RepositoryValidationIssue where
  path : Units
  code : Units
  message : Units
deriving DecidableEq

abbrev MacroSourceValidator : Type := Units → Option Units

inductive RepositoryValidationResult
  | ok (value : Repository)
  | invalid (issues : List RepositoryValidationIssue)
deriving DecidableEq

section Limits

def jsString (s : String) : Units := utf16 s.toList

def nameMaximumBytes : Nat := 64
def sourceMaximumBytes : Nat := 4096
def timingMaximumMs : Nat := 10000

def repositoryFormat : Units := jsString "esp32-macro-keyboard-repository"

def repositoryKeys : List Units := [property "format", property "packages", property "schemaVersion"]
def packageKeys : List Units := [property "id", property "macros", property "name"]
def macroKeys : List Units :=
  [property "id", property "interKeyMs", property "keyPressMs", property "name", property "source"]

end Limits

section Trim

/-- The white space and line terminators that `trim` removes. -/
def isTrimmed (unit : UInt16) : Bool :=
  (0x09 ≤ unit && unit ≤ 0x0d) || unit == 0x20 || unit == 0xa0 || unit == 0x1680 ||
    (0x2000 ≤ unit && unit ≤ 0x200a) || unit == 0x2028 || unit == 0x2029 || unit == 0x202f ||
    unit == 0x205f || unit == 0x3000 || unit == 0xfeff

def trim (units : Units) : Units := ((units.dropWhile isTrimmed).reverse.dropWhile isTrimmed).reverse

end Trim

section Validation

def issue (path : Units) (code message : String) : RepositoryValidationIssue :=
  ⟨path, jsString code, jsString message⟩

/-- The issues that a name adds; it is valid when there are none. -/
def validateName (value : JsValue) (path : Units) : List RepositoryValidationIssue :=
  match value with
  | .string name =>
    if (trim name).length = 0 then [issue path "required" "Name must not be empty."]
    else if byteLength name > nameMaximumBytes then [issue path "too_long" "Name exceeds 64 UTF-8 bytes."]
    else []
  | _ => [issue path "invalid_type" "Name must be a string."]

/-- The text of a value that a guard has found to be a string. -/
def textOf : JsValue → Units
  | .string units => units
  | _ => []

/-- The check of an identifier against those seen so far, and the set after it. -/
def validateId (value : JsValue) (path : Units) (invalid duplicate : String) (ids : List Units) :
    List RepositoryValidationIssue × List Units :=
  if !isCanonicalUuidV4 value then ([issue path "invalid_uuid" invalid], ids)
  else if ids.contains (textOf value) then ([issue path "duplicate_id" duplicate], ids)
  else ([], ids ++ [textOf value])

def validateMacroSource (value : JsValue) (path : Units) (validateSource : MacroSourceValidator) :
    List RepositoryValidationIssue :=
  match value with
  | .string source =>
    if byteLength source > sourceMaximumBytes then
      [issue path "too_long" "Macro source exceeds 4096 UTF-8 bytes."]
    else
      match validateSource source with
      | none => []
      | some sourceError => [⟨path, jsString "invalid_macro_source", sourceError⟩]
  | _ => [issue path "invalid_type" "Macro source must be a string."]

def validateTiming (value : JsValue) (path : Units) (message : String) : List RepositoryValidationIssue :=
  if isBoundedInteger value 0 timingMaximumMs then [] else [issue path "invalid_timing" message]

/-- The macro of the record, when its fields have their types. -/
def macroOf (members : List (Units × JsValue)) : Option RepositoryMacro :=
  match get members (property "id"), get members (property "name"), get members (property "source"),
    get members (property "keyPressMs"), get members (property "interKeyMs") with
  | .string id, .string name, .string source, .number keyPressMs, .number interKeyMs =>
    some ⟨id, name, source, keyPressMs, interKeyMs⟩
  | _, _, _, _, _ => none

/-- The identifiers of macros and the issues collected so far. -/
structure Collected where
  macroIds : List Units
  issues : List RepositoryValidationIssue
deriving DecidableEq

def Collected.add (collected : Collected) (issues : List RepositoryValidationIssue) : Collected :=
  { collected with issues := collected.issues ++ issues }

def validateMacro (validateSource : MacroSourceValidator) (value : JsValue) (path : Units) (collected : Collected) :
    Option RepositoryMacro × Collected :=
  match value with
  | .record members =>
    if !hasExactKeys members macroKeys then
      (none, collected.add [issue path "invalid_fields" "Macro contains missing or unknown fields."])
    else
      let (idIssues, macroIds) := validateId (get members (property "id")) (path ++ jsString ".id")
        "Macro ID must be a canonical lowercase UUID v4." "Macro ID must be unique across the repository."
        collected.macroIds
      let added := idIssues ++ validateName (get members (property "name")) (path ++ jsString ".name") ++
        validateMacroSource (get members (property "source")) (path ++ jsString ".source") validateSource ++
        validateTiming (get members (property "keyPressMs")) (path ++ jsString ".keyPressMs")
          "Key press time must be an integer from 0 to 10000 ms." ++
        validateTiming (get members (property "interKeyMs")) (path ++ jsString ".interKeyMs")
          "Inter-key time must be an integer from 0 to 10000 ms."
      (if added = [] then macroOf members else none, ⟨macroIds, collected.issues ++ added⟩)
  | _ => (none, collected.add [issue path "invalid_object" "Macro must be a plain object."])

def indexed (path : Units) (index : Nat) : Units :=
  path ++ jsString "[" ++ jsString (toString index) ++ jsString "]"

def validateMacros (validateSource : MacroSourceValidator) (path : Units) :
    List JsValue → Nat → Collected → (List RepositoryMacro × Bool) × Collected
  | [], _, collected => (([], true), collected)
  | value :: values, index, collected =>
    let (validated, collected) := validateMacro validateSource value (indexed path index) collected
    let ((macros, valid), collected) := validateMacros validateSource path values (index + 1) collected
    match validated with
    | none => ((macros, false), collected)
    | some validated => ((validated :: macros, valid), collected)

/-- The macros of a package. An array with a hole is none of the arrays of items. -/
def validateMacroArray (validateSource : MacroSourceValidator) (value : JsValue) (path : Units)
    (collected : Collected) : (List RepositoryMacro × Bool) × Collected :=
  match value with
  | .array items => validateMacros validateSource path items 0 collected
  | _ => (([], false), collected.add [issue path "invalid_array" "Macros must be a dense array."])

/-- The package of the record with these macros, when its fields have their types. -/
def packageOf (members : List (Units × JsValue)) (macros : List RepositoryMacro) : Option RepositoryPackage :=
  match get members (property "id"), get members (property "name") with
  | .string id, .string name => some ⟨id, name, macros⟩
  | _, _ => none

def validatePackage (validateSource : MacroSourceValidator) (value : JsValue) (index : Nat)
    (packageIds : List Units) (collected : Collected) : Option RepositoryPackage × List Units × Collected :=
  let path := indexed (jsString "$.packages") index
  match value with
  | .record members =>
    if !hasExactKeys members packageKeys then
      (none, packageIds, collected.add [issue path "invalid_fields" "Package contains missing or unknown fields."])
    else
      let (idIssues, packageIds) := validateId (get members (property "id")) (path ++ jsString ".id")
        "Package ID must be a canonical lowercase UUID v4." "Package ID must be unique within the repository."
        packageIds
      let added := idIssues ++ validateName (get members (property "name")) (path ++ jsString ".name")
      let collected := collected.add added
      let ((macros, valid), collected) :=
        validateMacroArray validateSource (get members (property "macros")) (path ++ jsString ".macros") collected
      (if added = [] && valid then packageOf members macros else none, packageIds, collected)
  | _ => (none, packageIds, collected.add [issue path "invalid_object" "Package must be a plain object."])

def validatePackages (validateSource : MacroSourceValidator) :
    List JsValue → Nat → List Units → Collected → List RepositoryPackage × Collected
  | [], _, _, collected => ([], collected)
  | value :: values, index, packageIds, collected =>
    let (validated, packageIds, collected) := validatePackage validateSource value index packageIds collected
    let (packages, collected) := validatePackages validateSource values (index + 1) packageIds collected
    (validated.toList ++ packages, collected)

def validatePackageArray (validateSource : MacroSourceValidator) (value : JsValue) (collected : Collected) :
    List RepositoryPackage × Collected :=
  match value with
  | .array items => validatePackages validateSource items 0 [] collected
  | _ => ([], collected.add [issue (jsString "$.packages") "invalid_array" "Packages must be a dense array."])

def validateFormat (value : JsValue) : List RepositoryValidationIssue :=
  match value with
  | .string units =>
    if units = repositoryFormat then []
    else [issue (jsString "$.format") "invalid_format" "Repository format is not supported."]
  | _ => [issue (jsString "$.format") "invalid_format" "Repository format is not supported."]

def validateSchemaVersion (value : JsValue) : List RepositoryValidationIssue :=
  match value with
  | .number q =>
    if q = 1 then []
    else [issue (jsString "$.schemaVersion") "unsupported_schema" "Repository schema version is not supported."]
  | _ => [issue (jsString "$.schemaVersion") "unsupported_schema" "Repository schema version is not supported."]

def validateRepository (value : JsValue) (validateSource : MacroSourceValidator) : RepositoryValidationResult :=
  match value with
  | .record members =>
    if !hasExactKeys members repositoryKeys then
      .invalid [issue (jsString "$") "invalid_fields" "Repository contains missing or unknown fields."]
    else
      let collected : Collected := ⟨[], validateFormat (get members (property "format")) ++
        validateSchemaVersion (get members (property "schemaVersion"))⟩
      let (packages, collected) := validatePackageArray validateSource (get members (property "packages")) collected
      if collected.issues.length > 0 then .invalid collected.issues
      else .ok ⟨repositoryFormat, 1, packages⟩
  | _ => .invalid [issue (jsString "$") "invalid_object" "Repository must be a plain object."]

end Validation

section Serialization

/-- The text of a number: the digits of a natural number below the exponent
notation, and otherwise what `others` says. -/
def numberToString (others : ℚ → List UInt8) (q : ℚ) : List UInt8 :=
  if q.den = 1 ∧ 0 ≤ q.num ∧ q.num < 10 ^ 21 then natText q.num.toNat else others q

/-- The number that a decimal literal stands for: a safe integer itself, and
otherwise what `others` says. -/
def numberOfLiteral (others : ℚ → ℚ) (q : ℚ) : ℚ :=
  if q.den = 1 ∧ |q| ≤ maxSafeInteger then q else others q

def macroJson (m : RepositoryMacro) : Value Units :=
  .object [(property "id", .string m.id), (property "name", .string m.name), (property "source", .string m.source),
    (property "keyPressMs", .number m.keyPressMs), (property "interKeyMs", .number m.interKeyMs)]

def packageJson (pkg : RepositoryPackage) : Value Units :=
  .object [(property "id", .string pkg.id), (property "name", .string pkg.name),
    (property "macros", .array (pkg.macros.map macroJson))]

def repositoryJson (repository : Repository) : Value Units :=
  .object [(property "format", .string repository.format), (property "schemaVersion", .number repository.schemaVersion),
    (property "packages", .array (repository.packages.map packageJson))]

def serializeRepository (others : ℚ → List UInt8) (repository : Repository) : List UInt8 :=
  stringify (numberToString others) (repositoryJson repository)

end Serialization

section Snapshots

/-- The compression streams of the browser. -/
structure Gzip where
  gzipCompress : List UInt8 → List UInt8
  gzipDecompress : List UInt8 → Option (List UInt8)
  decompress_compress : ∀ text, gzipDecompress (gzipCompress text) = some text

def encodeRepositorySnapshot (gzip : Gzip) (others : ℚ → List UInt8) (repository : Repository) : List UInt8 :=
  gzip.gzipCompress (serializeRepository others repository)

def byteOrderMark : List UInt8 := [0xef, 0xbb, 0xbf]

/-- `TextDecoder` drops the mark at the start of a text. -/
def withoutMark (bytes : List UInt8) : List UInt8 :=
  if byteOrderMark.isPrefixOf bytes then bytes.drop byteOrderMark.length else bytes

/-- `decodeRepositorySnapshot` yields the value. It throws for bytes that are not
compressed or whose content is not the text of a value. -/
def DecodesTo (gzip : Gzip) (others : ℚ → ℚ) (bytes : List UInt8) (value : JsValue) : Prop :=
  ∃ text json, gzip.gzipDecompress bytes = some text ∧ DocumentText json (withoutMark text) ∧
    value = parsed (numberOfLiteral others) json

end Snapshots

end MacroKeyboard.Webapp
