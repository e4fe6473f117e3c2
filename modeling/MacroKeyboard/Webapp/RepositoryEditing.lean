import MacroKeyboard.Webapp.Repository

namespace MacroKeyboard.Webapp

open Json

section Lookup

def findPackage (repository : Repository) (packageId : Units) : Option RepositoryPackage :=
  repository.packages.find? (fun pkg => pkg.id = packageId)

structure MacroLocation where
  pkg : RepositoryPackage
  packageIndex : Nat
  found : RepositoryMacro
  macroIndex : Nat
deriving DecidableEq

/-- The loop of `findMacro` from a package on. -/
def findMacroFrom (macroId : Units) : List RepositoryPackage → Nat → Option MacroLocation
  | [], _ => none
  | pkg :: packages, packageIndex =>
    let macroIndex := pkg.macros.findIdx (fun m => m.id = macroId)
    match pkg.macros[macroIndex]? with
    | some found => some ⟨pkg, packageIndex, found, macroIndex⟩
    | none => findMacroFrom macroId packages (packageIndex + 1)

def findMacro (repository : Repository) (macroId : Units) : Option MacroLocation :=
  findMacroFrom macroId repository.packages 0

def replacePackage (repository : Repository) (packageId : Units) (next : RepositoryPackage) : Repository :=
  { repository with packages := repository.packages.map (fun pkg => if pkg.id = packageId then next else pkg) }

end Lookup

section Names

/-- The loop of `truncateToUtf8Bytes` over the characters of the text. -/
def truncateFrom (maxBytes : Nat) : Units → List CodePoint → Units
  | result, [] => result
  | result, character :: rest =>
    if byteLength (result ++ character.units) > maxBytes then result
    else truncateFrom maxBytes (result ++ character.units) rest

def truncateToUtf8Bytes (value : Units) (maxBytes : Nat) : Units :=
  if byteLength value ≤ maxBytes then value else truncateFrom maxBytes [] (codePoints value)

def copyName (originalName : Units) (maxBytes : Nat) : Units :=
  truncateToUtf8Bytes (originalName ++ jsString " copy") maxBytes

namespace v2Limits

def packageNameMaxBytes : Nat := 64
def macroNameMaxBytes : Nat := 64

end v2Limits

end Names

section Arrays

variable {α : Type}

/-- `splice(index, 1)` and `splice(target, 0, moved)` of the item removed. -/
def moveItem (items : List α) (index target : Nat) : Option (List α) :=
  match items[index]? with
  | none => none
  | some moved => some ((items.eraseIdx index).insertIdx target moved)

/-- The move of an item by the indices of the script; none when one is out of
range. -/
def moved (items : List α) (index target : Int) : Option (List α) :=
  if index < 0 ∨ index ≥ items.length ∨ target < 0 ∨ target ≥ items.length then none
  else moveItem items index.toNat target.toNat

end Arrays

section Macros

structure MacroChanges where
  name : Units
  source : Units
  keyPressMs : ℚ
  interKeyMs : ℚ
deriving DecidableEq

def addMacro (repository : Repository) (packageId : Units) (m : RepositoryMacro) : Repository :=
  match findPackage repository packageId with
  | none => repository
  | some pkg => replacePackage repository packageId { pkg with macros := pkg.macros ++ [m] }

def updateMacro (repository : Repository) (macroId : Units) (changes : MacroChanges) : Repository :=
  match findMacro repository macroId with
  | none => repository
  | some located =>
    replacePackage repository located.pkg.id { located.pkg with
      macros := located.pkg.macros.set located.macroIndex
        ⟨macroId, changes.name, changes.source, changes.keyPressMs, changes.interKeyMs⟩ }

/-- The copy has the identifier that `createMacroId` drew. -/
def duplicateMacro (repository : Repository) (macroId newMacroId : Units) : Option Repository :=
  match findMacro repository macroId with
  | none => none
  | some located =>
    let duplicate := { located.found with
      id := newMacroId, name := copyName located.found.name v2Limits.macroNameMaxBytes }
    some (replacePackage repository located.pkg.id { located.pkg with
      macros := located.pkg.macros.insertIdx (located.macroIndex + 1) duplicate })

def deleteMacro (repository : Repository) (macroId : Units) : Repository :=
  match findMacro repository macroId with
  | none => repository
  | some located =>
    replacePackage repository located.pkg.id { located.pkg with
      macros := located.pkg.macros.filter (fun m => m.id ≠ macroId) }

inductive Direction
  | up | down
deriving DecidableEq

def Direction.step : Direction → Int
  | .up => -1
  | .down => 1

def moveMacroToIndex (repository : Repository) (packageId : Units) (index targetIndex : Int) : Repository :=
  match findPackage repository packageId with
  | none => repository
  | some pkg =>
    match moved pkg.macros index targetIndex with
    | none => repository
    | some macros => replacePackage repository packageId { pkg with macros := macros }

def moveMacro (repository : Repository) (packageId : Units) (index : Int) (direction : Direction) : Repository :=
  match findPackage repository packageId with
  | none => repository
  | some pkg =>
    match moved pkg.macros index (index + direction.step) with
    | none => repository
    | some macros => replacePackage repository packageId { pkg with macros := macros }

end Macros

section Packages

def addPackage (repository : Repository) (pkg : RepositoryPackage) : Repository :=
  { repository with packages := repository.packages ++ [pkg] }

def renamePackage (repository : Repository) (packageId name : Units) : Repository :=
  match findPackage repository packageId with
  | none => repository
  | some pkg => replacePackage repository packageId { pkg with name := name }

/-- The macros of the copy have the identifiers that `createMacroId` drew for
them, in their order. -/
def duplicatePackage (repository : Repository) (packageId newPackageId : Units) (newMacroId : Nat → Units) :
    Option Repository :=
  let index := repository.packages.findIdx (fun pkg => pkg.id = packageId)
  match repository.packages[index]? with
  | none => none
  | some pkg =>
    let duplicate : RepositoryPackage :=
      { id := newPackageId, name := copyName pkg.name v2Limits.packageNameMaxBytes
        macros := pkg.macros.mapIdx (fun n m => { m with id := newMacroId n }) }
    some { repository with packages := repository.packages.insertIdx (index + 1) duplicate }

def deletePackage (repository : Repository) (packageId : Units) : Repository :=
  { repository with packages := repository.packages.filter (fun pkg => pkg.id ≠ packageId) }

def movePackageToIndex (repository : Repository) (index targetIndex : Int) : Repository :=
  match moved repository.packages index targetIndex with
  | none => repository
  | some packages => { repository with packages := packages }

def movePackage (repository : Repository) (index : Int) (direction : Direction) : Repository :=
  match moved repository.packages index (index + direction.step) with
  | none => repository
  | some packages => { repository with packages := packages }

end Packages

end MacroKeyboard.Webapp
