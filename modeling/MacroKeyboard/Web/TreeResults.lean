import MacroKeyboard.Web.TreeWipe

namespace MacroKeyboard.Web.TreeWipe

open Heaps.Siblings Json Auth Settings

section Values

def JsonTree.value (tree : JsonTree) : CJson := jsonValue tree.data (jsonMembers tree.children)

/-- The parser of values that a parser of trees is, for whole texts. -/
def CJsonCalls.parseValue (calls : CJsonCalls) : CJsonParse := fun text =>
  match calls.parse text with
  | none => none
  | some (tree, parseEnd) => if parseEnd = text.length then some tree.value else none

/-- Every string of a parsed tree has its text in memory. -/
def CJsonCalls.HasTexts (calls : CJsonCalls) : Prop :=
  ∀ text tree parseEnd, calls.parse text = some (tree, parseEnd) →
    ∀ item ∈ tree.forest.items, item.2.kind = .string → item.2.valuestring.isSome = true

def membersOf : Option CJson → Option (List (List UInt8 × CJson))
  | some (.object members) => some members
  | _ => none

theorem membersOf_value (tree : JsonTree) :
    membersOf (some tree.value) = if tree.data.kind = .object then some (jsonMembers tree.children) else none := by
  unfold JsonTree.value jsonValue
  cases tree.data.kind <;> rfl

theorem membersOf_parseExactBody (calls : CJsonCalls) (body : List UInt8) :
    membersOf (Web.parseExactBody calls.parseValue body.length body) =
      (parseExactBody calls body).result.map (fun tree => jsonMembers tree.children) := by
  unfold Web.parseExactBody parseExactBody CJsonCalls.parseValue
  cases boundedBody body.length body with
  | none => rfl
  | some text =>
    dsimp only
    by_cases hescape : containsEmbeddedNulEscape text = true
    · rw [if_pos hescape, if_pos hescape]
      rfl
    · rw [if_neg hescape, if_neg hescape]
      cases calls.parse text with
      | none => rfl
      | some parsed =>
        dsimp only
        by_cases hend : parsed.2 = text.length
        · rw [if_pos hend, membersOf_value]
          by_cases hobject : parsed.1.data.kind = .object
          · rw [if_pos hobject, if_neg (not_or.mpr ⟨not_not.mpr hend, not_not.mpr hobject⟩)]
            rfl
          · rw [if_neg hobject, if_pos (Or.inr hobject)]
            rfl
        · rw [if_neg hend, if_pos (Or.inl hend)]
          rfl

/-- The first item of a name and the first member of it have the same text. -/
theorem stringViewFromItem_jsonMembers (forest : Forest JsonData) (name : List UInt8) :
    stringViewFromItem (getObjectItem (jsonMembers forest) name) =
      (findItem forest name).bind (fun found =>
        if found.2.kind = .string then some (cString (found.2.valuestring.getD [])) else none) := by
  induction forest with
  | nil => rfl
  | cons address data children rest _ ih =>
    rw [jsonMembers, findItem, getObjectItem, List.find?_cons]
    by_cases hname : cString (data.string.getD []) = name
    · simp only [hname, decide_true, if_true, Option.map_some, Option.bind_some, jsonValue]
      cases data.kind <;> rfl
    · simp only [hname, decide_false, if_false]
      exact ih

end Values

section Results

theorem findItem_mem {forest : Forest JsonData} {name : List UInt8} {item : Nat × JsonData}
    (h : findItem forest name = some item) : item ∈ forest.items := by
  induction forest with
  | nil => cases h
  | cons address data children rest _ ih =>
    unfold findItem at h
    split at h
    · cases h
      exact List.mem_cons_self
    · exact List.mem_cons_of_mem _ (List.mem_append_right _ (ih h))

theorem value_of_object {tree : JsonTree} (h : tree.data.kind = .object) :
    tree.value = .object (jsonMembers tree.children) := by
  unfold JsonTree.value jsonValue
  rw [h]

variable {calls : CJsonCalls} (body : List UInt8)

/-- The handlers over a tree answer as those over the value of it do. -/
theorem webAuthLoginParse_result (htexts : calls.HasTexts) (passwordCapacity : Nat) :
    (webAuthLoginParse calls passwordCapacity body).result =
      Web.webAuthLoginParse calls.parseValue body.length passwordCapacity body := by
  unfold webAuthLoginParse Web.webAuthLoginParse Web.parseExactBody CJsonCalls.parseValue
  cases boundedBody body.length body with
  | none => rfl
  | some text =>
    dsimp only
    by_cases hescape : containsEmbeddedNulEscape text = true
    · rw [if_pos hescape, if_pos hescape]
    rw [if_neg hescape, if_neg hescape]
    cases hparse : calls.parse text with
    | none => rfl
    | some parsed =>
      obtain ⟨tree, parseEnd⟩ := parsed
      dsimp only
      by_cases hend : parseEnd = text.length
      · rw [if_pos hend]
        by_cases hobject : tree.data.kind = .object
        · rw [value_of_object hobject]
          dsimp only
          by_cases hexact : exactLoginFields (jsonMembers tree.children) = true
          · rw [if_neg (by simp [hend, hobject, hexact]), if_neg (not_not.mpr hexact), stringViewFromItem_jsonMembers]
            cases hfound : findItem tree.children adminPasswordField with
            | none => rfl
            | some found =>
              obtain ⟨address, data⟩ := found
              have hmem : (address, data) ∈ tree.forest.items :=
                List.mem_cons_of_mem _ (List.mem_append_left _ (findItem_mem hfound))
              dsimp only [Option.bind_some]
              by_cases hkind : data.kind = .string
              · obtain ⟨password, hpassword⟩ :=
                  Option.isSome_iff_exists.mp (htexts text tree parseEnd hparse _ hmem hkind)
                rw [hkind, hpassword]
                rfl
              · rw [if_neg hkind]
                split
                next hstring _ => exact absurd hstring hkind
                · rfl
          · rw [if_pos (Or.inr (Or.inr hexact)), if_pos hexact]
        · rw [if_pos (Or.inr (Or.inl hobject))]
          unfold JsonTree.value jsonValue
          cases hkind : tree.data.kind with
          | object => exact absurd hkind hobject
          | _ => rfl
      · rw [if_neg hend, if_pos (Or.inl hend)]

/-- What `web_settings_put_handle` returns for a request that was read. -/
def settingsPutResult (answers : SettingsPutAnswers) : Option SettingsUpdateRequest → SettingsPutResult
  | none => .invalidBody
  | some request =>
    match answers.settingsRead with
    | .error error => .backendUnavailable error
    | .ok current =>
      match prepareUpdate current request with
      | .error reason => .refused reason
      | .ok _ =>
        if answers.settingsReplace ≠ .none then .backendUnavailable answers.settingsReplace
        else if ¬ answers.responseBuilt then .internal
        else .ok

theorem webSettingsPutHandle_result (answers : SettingsPutAnswers) :
    (webSettingsPutHandle calls answers body).result =
      settingsPutResult answers (settingsUpdateRequestOfBody calls.parseValue body.length body) := by
  have hrequest : settingsUpdateRequestOfBody calls.parseValue body.length body =
      ((parseExactBody calls body).result.map (fun tree => jsonMembers tree.children)).bind (fun members =>
        if exactSettingsPutFields members then populateSettingsUpdateRequest members else none) := by
    rw [← membersOf_parseExactBody, settingsUpdateRequestOfBody]
    generalize Web.parseExactBody calls.parseValue body.length body = value
    cases value with
    | none => rfl
    | some value => cases value <;> rfl
  rw [hrequest]
  unfold webSettingsPutHandle
  generalize parseExactBody calls body = exact
  obtain ⟨result, zeros, released⟩ := exact
  cases result with
  | none => rfl
  | some tree =>
    dsimp only [Option.map_some, Option.bind_some]
    by_cases hexact : exactSettingsPutFields (jsonMembers tree.children) = true
    · rw [if_neg (not_not.mpr hexact), if_pos hexact]
      unfold settingsPutResult
      cases populateSettingsUpdateRequest (jsonMembers tree.children) with
      | none => rfl
      | some request =>
        dsimp only
        cases answers.settingsRead with
        | error error => rfl
        | ok current =>
          dsimp only
          cases prepareUpdate current request with
          | error reason => rfl
          | ok candidate =>
            dsimp only
            split_ifs <;> rfl
    · rw [if_pos hexact, if_neg hexact]
      rfl

/-- What `web_change_password_handle` returns for the two passwords that were read. -/
def changePasswordResult (answers : ChangePasswordAnswers) : Option (List UInt8 × List UInt8) → PasswordOutcome
  | none => .invalidBody
  | some (currentPassword, newPassword) =>
    if answers.transitionBegin ≠ .none then .transitionUnavailable answers.transitionBegin
    else if ¬ answers.verifyCurrent currentPassword newPassword then .unverified
    else if ¬ answers.buildCandidate newPassword then .noCandidate
    else if answers.commitCandidate then .ok
    else .uncommitted

theorem webChangePasswordHandle_result (answers : ChangePasswordAnswers) :
    (webChangePasswordHandle calls answers body).result =
      changePasswordResult answers (changePasswordOfBody calls.parseValue body.length body) := by
  have hviews : changePasswordOfBody calls.parseValue body.length body =
      (parseExactBody calls body).result.bind changePasswordViews := by
    have hmembers := membersOf_parseExactBody calls body
    unfold changePasswordOfBody
    generalize Web.parseExactBody calls.parseValue body.length body = value at hmembers
    cases hresult : (parseExactBody calls body).result with
    | none =>
      rw [hresult] at hmembers
      cases value with
      | none => rfl
      | some value =>
        cases value with
        | object members => cases hmembers
        | _ => rfl
    | some tree =>
      rw [hresult] at hmembers
      cases value with
      | none => cases hmembers
      | some value =>
        cases value with
        | object members =>
          cases hmembers
          rfl
        | _ => cases hmembers
  rw [hviews]
  unfold webChangePasswordHandle
  generalize parseExactBody calls body = exact
  obtain ⟨result, zeros, released⟩ := exact
  cases result with
  | none => rfl
  | some tree =>
    dsimp only [Option.bind_some]
    unfold changePasswordResult
    cases changePasswordViews tree with
    | none => rfl
    | some views =>
      dsimp only
      split_ifs <;> rfl

theorem webSetupSubmitHandle_result (derive : Derivation) (answers : SetupSubmitAnswers) (session : SetupSession)
    (hlength : body.length = jsonBodyMaxBytes + 1) :
    (webSetupSubmitHandle calls derive answers session body).result =
      (Web.webSetupSubmitHandle calls.parseValue derive answers session body).1 := by
  unfold webSetupSubmitHandle Web.webSetupSubmitHandle setupRequestOfBody Web.parseExactBody CJsonCalls.parseValue
  rw [hlength]
  cases boundedBody (jsonBodyMaxBytes + 1) body with
  | none => rfl
  | some text =>
    dsimp only
    by_cases hescape : containsEmbeddedNulEscape text = true
    · rw [if_pos hescape, if_pos hescape]
    rw [if_neg hescape, if_neg hescape]
    cases calls.parse text with
    | none => rfl
    | some parsed =>
      obtain ⟨tree, parseEnd⟩ := parsed
      dsimp only
      by_cases hend : parseEnd = text.length
      · rw [if_pos hend, if_neg (not_not.mpr hend)]
        by_cases hobject : tree.data.kind = .object
        · rw [value_of_object hobject]
          dsimp only
          by_cases hexact : exactSetupFields (jsonMembers tree.children) = true
          · rw [if_neg (by simp [hobject, hexact]), if_pos hexact]
            cases populateSetupRequest (jsonMembers tree.children) with
            | none => rfl
            | some request =>
              dsimp only [webSetupSubmit]
              cases answers.settingsRead with
              | error error => rfl
              | ok current =>
                dsimp only
                cases passwordCreate derive answers.salt answers.derives request.adminPassword with
                | error error => rfl
                | ok material =>
                  dsimp only
                  cases setupPrepareCandidate session request current material with
                  | error result => rfl
                  | ok candidate =>
                    dsimp only
                    split_ifs <;> rfl
          · rw [if_pos (Or.inr hexact), if_neg hexact]
        · rw [if_pos (Or.inl hobject)]
          unfold JsonTree.value jsonValue
          cases hkind : tree.data.kind with
          | object => exact absurd hkind hobject
          | _ => rfl
      · rw [if_neg hend, if_pos hend]

end Results

end MacroKeyboard.Web.TreeWipe
