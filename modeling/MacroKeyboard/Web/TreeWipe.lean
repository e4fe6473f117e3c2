import MacroKeyboard.Heaps.Siblings
import MacroKeyboard.Records.CString
import MacroKeyboard.Web.Passwords
import MacroKeyboard.Web.SettingsPut

namespace MacroKeyboard.Web.TreeWipe

open Heaps.Siblings Json Auth Settings

inductive JsonKind
  | null | bool (value : Bool) | number (value : ℚ) | string | array | object
deriving DecidableEq

/-- An item of `cJSON` but for its place in the tree, with its name and its string as the
blocks of memory that it owns. -/
structure JsonData where
  kind : JsonKind
  string : Option (List UInt8)
  valuestring : Option (List UInt8)

/-- `secure_zero_local` of the first bytes of a block. -/
def secureZero (block : List UInt8) (length : Nat) : List UInt8 :=
  List.replicate (min length block.length) 0 ++ block.drop length

def wipeString (block : List UInt8) : List UInt8 := secureZero block ((cString block).length + 1)

/-- What the round of `wipe_json_tree` does to the strings of its item. -/
def wipeItem (data : JsonData) : JsonData :=
  { data with
    string := data.string.map wipeString
    valuestring := if data.kind = .string then data.valuestring.map wipeString else data.valuestring }

structure JsonTree where
  heap : Heap JsonData
  root : Nat
  data : JsonData
  children : Forest JsonData
  laid : Laid heap (some root) (.cons root data children .nil)
  nodup : (Forest.cons root data children .nil).addresses.Nodup

def JsonTree.forest (tree : JsonTree) : Forest JsonData := .cons tree.root tree.data tree.children .nil

def IsZero (block : Option (List UInt8)) : Prop := ∀ text, block = some text → ∀ b ∈ text, b = 0

def JsonData.Blank (data : JsonData) : Prop := IsZero data.string ∧ IsZero data.valuestring

def Terminated (block : List UInt8) : Prop := ∃ text, 0 ∉ text ∧ block = text ++ [0]

/-- The strings of an item, of which only a string has one besides its name. -/
structure JsonData.Parsed (data : JsonData) : Prop where
  string : ∀ block, data.string = some block → Terminated block
  valuestring : ∀ block, data.valuestring = some block → Terminated block ∧ data.kind = .string

/-- The calls of `cJSON`: what a parser makes of a text and where it stops, and the items
that a deletion from an address on releases, with what is in them then. -/
structure CJsonCalls where
  parse : List UInt8 → Option (JsonTree × Nat)
  delete : Heap JsonData → Option Nat → List (Nat × JsonData)

/-- A zero character comes only from its escape, and `cJSON_Delete` releases an item, the
items beside it and all below them. -/
structure CJsonCalls.Faithful (calls : CJsonCalls) : Prop where
  parse : ∀ text tree parseEnd, containsEmbeddedNulEscape text = false → calls.parse text = some (tree, parseEnd) →
    ∀ item ∈ tree.forest.items, item.2.Parsed
  delete : ∀ heap first (forest : Forest JsonData), Laid heap first forest → forest.addresses.Nodup →
    (calls.delete heap first).Perm forest.items

/-- A value, from its item and what is below it. -/
def jsonValue (data : JsonData) (below : List (List UInt8 × CJson)) : CJson :=
  match data.kind with
  | .null => .null
  | .bool value => .bool value
  | .number value => .number value
  | .string => .string (data.valuestring.getD [])
  | .array => .array (below.map Prod.snd)
  | .object => .object below

def jsonMembers : Forest JsonData → List (List UInt8 × CJson)
  | .nil => []
  | .cons _ data children rest => (data.string.getD [], jsonValue data (jsonMembers children)) :: jsonMembers rest

/-- `cJSON_GetObjectItemCaseSensitive`, with the address of the item. -/
def findItem : Forest JsonData → List UInt8 → Option (Nat × JsonData)
  | .nil, _ => none
  | .cons address data _ rest, name =>
    if cString (data.string.getD []) = name then some (address, data) else findItem rest name

/-- What a handler returns, its body and the items that it has released by then. -/
structure Handled (α : Type) where
  result : α
  body : List UInt8
  released : List (Nat × JsonData)

def zeroed (body : List UInt8) : List UInt8 := List.replicate body.length 0

section Deletion

variable (calls : CJsonCalls)

def deleteJson (tree : Option JsonTree) : List (Nat × JsonData) :=
  match tree with
  | none => calls.delete (fun _ => none) none
  | some tree => calls.delete tree.heap (some tree.root)

/-- `wipe_json_tree`, which ends within as many rounds as there are items. -/
def wipeJsonTree (tree : JsonTree) : Option (Heap JsonData × List Nat) :=
  walk wipeItem tree.forest.items.length tree.heap (some tree.root)

def wipeAndDeleteJsonTree (tree : Option JsonTree) : List (Nat × JsonData) :=
  match tree with
  | none => deleteJson calls none
  | some tree =>
    match wipeJsonTree tree with
    | none => []
    | some (heap, _) => calls.delete heap (some tree.root)

end Deletion

section Handlers

variable (calls : CJsonCalls)

def parseExactBody (body : List UInt8) : Handled (Option JsonTree) :=
  match boundedBody body.length body with
  | none => ⟨none, zeroed body, []⟩
  | some text =>
    if containsEmbeddedNulEscape text then ⟨none, zeroed body, []⟩
    else
      match calls.parse text with
      | none => ⟨none, zeroed body, wipeAndDeleteJsonTree calls none⟩
      | some (tree, parseEnd) =>
        if parseEnd ≠ text.length ∨ tree.data.kind ≠ .object then
          ⟨none, zeroed body, wipeAndDeleteJsonTree calls (some tree)⟩
        else ⟨some tree, zeroed body, []⟩

inductive SettingsPutResult
  | ok | invalidBody | internal
  | refused (reason : SettingsUpdateResult)
  | backendUnavailable (detail : AppError)
deriving DecidableEq, Repr

structure SettingsPutAnswers where
  settingsRead : Except AppError DeviceSettings
  settingsReplace : AppError
  responseBuilt : Bool

def webSettingsPutHandle (answers : SettingsPutAnswers) (body : List UInt8) : Handled SettingsPutResult :=
  match parseExactBody calls body with
  | ⟨none, body, released⟩ => ⟨.invalidBody, body, released ++ deleteJson calls none⟩
  | ⟨some tree, body, released⟩ =>
    let deleted := released ++ deleteJson calls (some tree)
    if ¬ exactSettingsPutFields (jsonMembers tree.children) then ⟨.invalidBody, body, deleted⟩
    else
      match populateSettingsUpdateRequest (jsonMembers tree.children) with
      | none => ⟨.invalidBody, body, deleted⟩
      | some request =>
        match answers.settingsRead with
        | .error error => ⟨.backendUnavailable error, body, deleted⟩
        | .ok current =>
          match prepareUpdate current request with
          | .error reason => ⟨.refused reason, body, deleted⟩
          | .ok _ =>
            if answers.settingsReplace ≠ .none then ⟨.backendUnavailable answers.settingsReplace, body, deleted⟩
            else if ¬ answers.responseBuilt then ⟨.internal, body, deleted⟩
            else ⟨.ok, body, deleted⟩

inductive PasswordOutcome
  | ok | invalidBody | unverified | noCandidate | uncommitted
  | transitionUnavailable (detail : AppError)
deriving DecidableEq, Repr

structure ChangePasswordAnswers where
  transitionBegin : AppError
  verifyCurrent : List UInt8 → List UInt8 → Bool
  buildCandidate : List UInt8 → Bool
  commitCandidate : Bool

/-- `change_password_views_from_root`. -/
def changePasswordViews (tree : JsonTree) : Option (List UInt8 × List UInt8) :=
  let members := jsonMembers tree.children
  if exactChangePasswordFields members then do
    let currentPassword ← stringViewFromItem (getObjectItem members currentPasswordField)
    let newPassword ← stringViewFromItem (getObjectItem members newPasswordField)
    some (currentPassword, newPassword)
  else none

def webChangePasswordHandle (answers : ChangePasswordAnswers) (body : List UInt8) : Handled PasswordOutcome :=
  match parseExactBody calls body with
  | ⟨none, body, released⟩ => ⟨.invalidBody, body, released ++ wipeAndDeleteJsonTree calls none⟩
  | ⟨some tree, body, released⟩ =>
    match changePasswordViews tree with
    | none => ⟨.invalidBody, body, released ++ wipeAndDeleteJsonTree calls (some tree)⟩
    | some (currentPassword, newPassword) =>
      if answers.transitionBegin ≠ .none then
        ⟨.transitionUnavailable answers.transitionBegin, body, released ++ wipeAndDeleteJsonTree calls (some tree)⟩
      else if ¬ answers.verifyCurrent currentPassword newPassword then
        ⟨.unverified, body, released ++ wipeAndDeleteJsonTree calls (some tree)⟩
      else
        let released := released ++ wipeAndDeleteJsonTree calls (some tree)
        if ¬ answers.buildCandidate newPassword then
          ⟨.noCandidate, body, released ++ wipeAndDeleteJsonTree calls none⟩
        else
          ⟨if answers.commitCandidate then .ok else .uncommitted, body, released ++ wipeAndDeleteJsonTree calls none⟩

def webAuthLoginParse (passwordCapacity : Nat) (body : List UInt8) : Handled (Option (List UInt8)) :=
  match boundedBody body.length body with
  | none => ⟨none, zeroed body, []⟩
  | some text =>
    if containsEmbeddedNulEscape text then ⟨none, zeroed body, []⟩
    else
      match calls.parse text with
      | none => ⟨none, zeroed body, deleteJson calls none⟩
      | some (tree, parseEnd) =>
        if parseEnd ≠ text.length ∨ tree.data.kind ≠ .object ∨ ¬ exactLoginFields (jsonMembers tree.children) then
          ⟨none, zeroed body, deleteJson calls (some tree)⟩
        else
          match findItem tree.children adminPasswordField with
          | none => ⟨none, zeroed body, deleteJson calls (some tree)⟩
          | some (address, data) =>
            match data.kind, data.valuestring with
            | .string, some password =>
              let wiped := tree.heap.modify address (fun item =>
                { item with data := { item.data with valuestring := some (secureZero password (cString password).length) } })
              ⟨if (cString password).length < passwordCapacity then some (cString password) else none, zeroed body,
                calls.delete wiped (some tree.root)⟩
            | _, _ => ⟨none, zeroed body, deleteJson calls (some tree)⟩

def webSetupSubmitHandle (derive : Derivation) (answers : SetupSubmitAnswers) (session : SetupSession)
    (body : List UInt8) : Handled SetupSubmitOutcome :=
  match boundedBody body.length body with
  | none => ⟨⟨.invalidBody, .none⟩, zeroed body, []⟩
  | some text =>
    if containsEmbeddedNulEscape text then ⟨⟨.invalidBody, .none⟩, zeroed body, []⟩
    else
      match calls.parse text with
      | none => ⟨⟨.invalidBody, .none⟩, zeroed body, []⟩
      | some (tree, parseEnd) =>
        let released := wipeAndDeleteJsonTree calls (some tree)
        if parseEnd ≠ text.length then ⟨⟨.invalidBody, .none⟩, zeroed body, released⟩
        else if tree.data.kind ≠ .object ∨ ¬ exactSetupFields (jsonMembers tree.children) then
          ⟨⟨.invalidBody, .none⟩, zeroed body, released⟩
        else
          match populateSetupRequest (jsonMembers tree.children) with
          | none => ⟨⟨.invalidBody, .none⟩, zeroed body, released⟩
          | some request =>
            match answers.settingsRead with
            | .error error => ⟨⟨.settingsUnavailable, error⟩, zeroed body, released⟩
            | .ok current =>
              match passwordCreate derive answers.salt answers.derives request.adminPassword with
              | .error error =>
                ⟨if error = .invalidArgument then ⟨.refused .invalidAdminPassword, .none⟩
                  else ⟨.passwordDerivationFailed, error⟩, zeroed body, released⟩
              | .ok material =>
                match setupPrepareCandidate session request current material with
                | .error result => ⟨mapPrepareResult result, zeroed body, released⟩
                | .ok _ =>
                  if answers.settingsReplace ≠ .none then
                    ⟨⟨.commitFailed, answers.settingsReplace⟩, zeroed body, released⟩
                  else if session.consumed then ⟨⟨.internal, .none⟩, zeroed body, released⟩
                  else ⟨⟨.ok, .none⟩, zeroed body, released⟩

end Handlers

end MacroKeyboard.Web.TreeWipe
