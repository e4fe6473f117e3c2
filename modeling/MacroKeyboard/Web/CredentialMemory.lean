import MacroKeyboard.Web.TreeWipe

namespace MacroKeyboard.Web.TreeWipe

open Heaps.Siblings Json Auth Settings

section Strings

theorem cString_terminated {text : List UInt8} (h : 0 ∉ text) : cString (text ++ [0]) = text := by
  have hall : ∀ b ∈ text, decide (b ≠ 0) = true := by
    intro b hmem
    rw [decide_eq_true_eq]
    rintro rfl
    exact h hmem
  rw [cString, List.takeWhile_append_of_pos hall]
  simp

theorem zero_of_mem_secureZero {block : List UInt8} {length : Nat} (h : ∀ b ∈ block.drop length, b = 0) :
    ∀ b ∈ secureZero block length, b = 0 := by
  intro b hmem
  rcases List.mem_append.mp hmem with hzero | hrest
  · exact List.eq_of_mem_replicate hzero
  · exact h b hrest

theorem wipeString_zero {block : List UInt8} (h : Terminated block) :
    (∀ b ∈ wipeString block, b = 0) ∧ ∀ b ∈ secureZero block (cString block).length, b = 0 := by
  obtain ⟨text, hfree, rfl⟩ := h
  rw [wipeString, cString_terminated hfree]
  constructor
  · apply zero_of_mem_secureZero
    rw [List.drop_eq_nil_of_le (by simp)]
    exact nofun
  · apply zero_of_mem_secureZero
    rw [List.drop_left]
    exact fun b hb => List.mem_singleton.mp hb

theorem wipeItem_blank {data : JsonData} (h : data.Parsed) : (wipeItem data).Blank := by
  constructor
  · intro block hblock b hb
    obtain ⟨before, hbefore, rfl⟩ := Option.map_eq_some_iff.mp hblock
    exact (wipeString_zero (h.string before hbefore)).1 b hb
  · intro block hblock b hb
    unfold wipeItem at hblock
    dsimp only at hblock
    by_cases hkind : data.kind = .string
    · rw [if_pos hkind] at hblock
      obtain ⟨before, hbefore, rfl⟩ := Option.map_eq_some_iff.mp hblock
      exact (wipeString_zero (h.valuestring before hbefore).1).1 b hb
    · rw [if_neg hkind] at hblock
      exact absurd (h.valuestring block hblock).2 hkind

end Strings

section Released

variable {calls : CJsonCalls}

def Blanked (released : List (Nat × JsonData)) : Prop := ∀ item ∈ released, item.2.Blank

def ReleasesAll (tree : Option JsonTree) (released : List (Nat × JsonData)) : Prop :=
  (released.map Prod.fst).Perm (tree.elim [] (fun tree => tree.forest.addresses))

/-- The walk over a tree comes to every item once, and leaves them all beside the root with
nothing but zeros in their strings. -/
theorem wipeJsonTree_spec (tree : JsonTree) : ∃ heap, wipeJsonTree tree = some (heap, tree.forest.addresses) ∧
    Laid heap (some tree.root) (.chain (tree.forest.items.map (fun item => (item.1, wipeItem item.2)))) ∧
    ∀ address, address ∉ tree.forest.addresses → heap address = tree.heap address :=
  walk_spec wipeItem tree.laid tree.nodup (Nat.le_refl _)

theorem delete_none (hfaithful : calls.Faithful) (heap : Heap JsonData) : calls.delete heap none = [] :=
  List.perm_nil.mp (hfaithful.delete heap none .nil rfl List.nodup_nil)

theorem deleteJson_none (hfaithful : calls.Faithful) : deleteJson calls none = [] := delete_none hfaithful _

theorem wipeAndDelete_none (hfaithful : calls.Faithful) : wipeAndDeleteJsonTree calls none = [] :=
  deleteJson_none hfaithful

theorem delete_releasesAll (hfaithful : calls.Faithful) (tree : JsonTree) {heap : Heap JsonData} {forest : Forest JsonData}
    (hlaid : Laid heap (some tree.root) forest) (haddresses : forest.addresses = tree.forest.addresses) :
    ReleasesAll (some tree) (calls.delete heap (some tree.root)) := by
  have hperm := hfaithful.delete heap (some tree.root) forest hlaid (by rw [haddresses]; exact tree.nodup)
  refine (hperm.map Prod.fst).trans ?_
  rw [show forest.items.map Prod.fst = tree.forest.addresses from haddresses]
  exact .refl _

theorem deleteJson_perm (hfaithful : calls.Faithful) (tree : JsonTree) :
    (deleteJson calls (some tree)).Perm tree.forest.items :=
  hfaithful.delete tree.heap (some tree.root) tree.forest tree.laid tree.nodup

theorem deleteJson_releasesAll (hfaithful : calls.Faithful) (tree : JsonTree) :
    ReleasesAll (some tree) (deleteJson calls (some tree)) :=
  delete_releasesAll hfaithful tree tree.laid rfl

theorem deleteJson_blanked_iff (hfaithful : calls.Faithful) (tree : JsonTree) :
    Blanked (deleteJson calls (some tree)) ↔ ∀ item ∈ tree.forest.items, item.2.Blank := by
  unfold Blanked
  simp only [(deleteJson_perm hfaithful tree).mem_iff]

theorem wipeAndDelete_spec (hfaithful : calls.Faithful) {tree : JsonTree}
    (hparsed : ∀ item ∈ tree.forest.items, item.2.Parsed) :
    ReleasesAll (some tree) (wipeAndDeleteJsonTree calls (some tree)) ∧
      Blanked (wipeAndDeleteJsonTree calls (some tree)) := by
  obtain ⟨heap, hwalk, hlaid, -⟩ := wipeJsonTree_spec tree
  have haddresses : (Forest.chain (tree.forest.items.map (fun item => (item.1, wipeItem item.2)))).addresses =
      tree.forest.addresses := by
    rw [Forest.addresses, Forest.items_chain, List.map_map]
    rfl
  simp only [wipeAndDeleteJsonTree, hwalk]
  refine ⟨delete_releasesAll hfaithful tree hlaid haddresses, ?_⟩
  have hperm := hfaithful.delete heap (some tree.root) _ hlaid (by rw [haddresses]; exact tree.nodup)
  intro item hitem
  rw [hperm.mem_iff, Forest.items_chain, List.mem_map] at hitem
  obtain ⟨before, hbefore, rfl⟩ := hitem
  exact wipeItem_blank (hparsed before hbefore)

end Released

section Handlers

variable {calls : CJsonCalls} {body : List UInt8}

/-- What the parser makes of a body: the tree, and where it stops in how many bytes. -/
def parsedBody (calls : CJsonCalls) (body : List UInt8) : Option (JsonTree × Nat × Nat) :=
  match boundedBody body.length body with
  | none => none
  | some text =>
    if containsEmbeddedNulEscape text then none
    else (calls.parse text).map (fun parsed => (parsed.1, parsed.2, text.length))

def parsedTree (calls : CJsonCalls) (body : List UInt8) : Option JsonTree := (parsedBody calls body).map Prod.fst

def IsDocument (calls : CJsonCalls) (body : List UInt8) (tree : JsonTree) : Prop :=
  (∃ length, parsedBody calls body = some (tree, length, length)) ∧ tree.data.kind = .object

theorem IsDocument.parsed {tree : JsonTree} (h : IsDocument calls body tree) : parsedTree calls body = some tree := by
  obtain ⟨⟨length, hparsed⟩, -⟩ := h
  rw [parsedTree, hparsed]
  rfl

theorem IsDocument.read {tree : JsonTree} (h : IsDocument calls body tree) :
    ∃ text, boundedBody body.length body = some text ∧ containsEmbeddedNulEscape text = false ∧
      calls.parse text = some (tree, text.length) ∧ tree.data.kind = .object := by
  obtain ⟨⟨length, hbody⟩, hobject⟩ := h
  unfold parsedBody at hbody
  split at hbody
  · cases hbody
  next text hbounded =>
    split at hbody
    · cases hbody
    next hescape =>
      obtain ⟨⟨made, stop⟩, hparse, hmade⟩ := Option.map_eq_some_iff.mp hbody
      cases hmade
      exact ⟨text, hbounded, Bool.eq_false_of_not_eq_true hescape, hparse, hobject⟩

theorem parsed_items (hfaithful : calls.Faithful) {tree : JsonTree} (h : parsedTree calls body = some tree) :
    ∀ item ∈ tree.forest.items, item.2.Parsed := by
  obtain ⟨⟨found, parseEnd, length⟩, hbody, rfl⟩ := Option.map_eq_some_iff.mp h
  unfold parsedBody at hbody
  split at hbody
  · cases hbody
  next text _ =>
    split at hbody
    · cases hbody
    next hescape =>
      obtain ⟨⟨made, stop⟩, hparse, hmade⟩ := Option.map_eq_some_iff.mp hbody
      cases hmade
      exact hfaithful.parse text made stop (Bool.eq_false_of_not_eq_true hescape) hparse

/-- The body is zeroed, and of a tree that is not a whole object everything is wiped and
released already. -/
inductive ExactBody (calls : CJsonCalls) (body : List UInt8) : Handled (Option JsonTree) → Prop
  | refused {released : List (Nat × JsonData)} (all : ReleasesAll (parsedTree calls body) released)
      (blanked : Blanked released) (other : ∀ tree, ¬ IsDocument calls body tree) :
      ExactBody calls body ⟨none, zeroed body, released⟩
  | read {tree : JsonTree} (document : IsDocument calls body tree) : ExactBody calls body ⟨some tree, zeroed body, []⟩

theorem parseExactBody_spec (hfaithful : calls.Faithful) (body : List UInt8) :
    ExactBody calls body (parseExactBody calls body) := by
  have hnone : parsedBody calls body = none → ExactBody calls body ⟨none, zeroed body, []⟩ := by
    intro h
    refine .refused ?_ (fun _ hmem => absurd hmem List.not_mem_nil) ?_
    · rw [parsedTree, h]
      exact .refl _
    · rintro tree ⟨⟨length, hparsed⟩, -⟩
      rw [h] at hparsed
      cases hparsed
  unfold parseExactBody
  cases hbounded : boundedBody body.length body with
  | none => exact hnone (by simp only [parsedBody, hbounded])
  | some text =>
    dsimp only
    by_cases hescape : containsEmbeddedNulEscape text = true
    · rw [if_pos hescape]
      exact hnone (by simp only [parsedBody, hbounded, if_pos hescape])
    · rw [if_neg hescape]
      cases hparse : calls.parse text with
      | none =>
        dsimp only
        rw [wipeAndDelete_none hfaithful]
        exact hnone (by simp only [parsedBody, hbounded, if_neg hescape, hparse, Option.map_none])
      | some parsed =>
        obtain ⟨tree, parseEnd⟩ := parsed
        have hbody : parsedBody calls body = some (tree, parseEnd, text.length) := by
          simp only [parsedBody, hbounded, if_neg hescape, hparse, Option.map_some]
        have htree : parsedTree calls body = some tree := by rw [parsedTree, hbody, Option.map_some]
        dsimp only
        by_cases hrefused : parseEnd ≠ text.length ∨ tree.data.kind ≠ .object
        · rw [if_pos hrefused]
          obtain ⟨hall, hblanked⟩ := wipeAndDelete_spec hfaithful (parsed_items hfaithful htree)
          refine .refused (by rw [htree]; exact hall) hblanked ?_
          rintro other ⟨⟨length, hparsed⟩, hobject⟩
          rw [hbody] at hparsed
          cases hparsed
          rcases hrefused with hend | hkind
          · exact hend rfl
          · exact hkind hobject
        · rw [if_neg hrefused]
          push Not at hrefused
          exact .read ⟨⟨text.length, by rw [hbody, hrefused.1]⟩, hrefused.2⟩

/-- The body is zeroed when a handler returns, and every item of its tree is released once. -/
structure Released {α : Type} (calls : CJsonCalls) (body : List UInt8) (handled : Handled α) : Prop where
  zeroed : handled.body = zeroed body
  all : ReleasesAll (parsedTree calls body) handled.released

/-- The handlers that wipe release nothing but zeros. -/
theorem webChangePasswordHandle_spec (hfaithful : calls.Faithful) (answers : ChangePasswordAnswers) (body : List UInt8) :
    Released calls body (webChangePasswordHandle calls answers body) ∧
      Blanked (webChangePasswordHandle calls answers body).released := by
  have hexact := parseExactBody_spec hfaithful body
  unfold webChangePasswordHandle
  generalize parseExactBody calls body = exact at hexact
  cases hexact with
  | refused all blanked other =>
    dsimp only
    rw [wipeAndDelete_none hfaithful, List.append_nil]
    exact ⟨⟨rfl, all⟩, blanked⟩
  | @read tree document =>
    obtain ⟨hreleased, hblanked⟩ := wipeAndDelete_spec hfaithful (parsed_items hfaithful document.parsed)
    have hall : ReleasesAll (parsedTree calls body) (wipeAndDeleteJsonTree calls (some tree)) := by
      rw [document.parsed]
      exact hreleased
    have hwiped : ∀ outcome : PasswordOutcome,
        Released calls body ⟨outcome, zeroed body, [] ++ wipeAndDeleteJsonTree calls (some tree)⟩ ∧
          Blanked ([] ++ wipeAndDeleteJsonTree calls (some tree)) := fun _ => ⟨⟨rfl, hall⟩, hblanked⟩
    dsimp only
    rw [wipeAndDelete_none hfaithful]
    cases changePasswordViews tree with
    | none => exact hwiped .invalidBody
    | some views =>
      dsimp only
      by_cases htransition : answers.transitionBegin ≠ .none
      · rw [if_pos htransition]
        exact hwiped _
      · rw [if_neg htransition]
        by_cases hverified : ¬ answers.verifyCurrent views.1 views.2 = true
        · rw [if_pos hverified]
          exact hwiped _
        · rw [if_neg hverified, List.append_nil]
          by_cases hbuilt : ¬ answers.buildCandidate views.2 = true
          · rw [if_pos hbuilt]
            exact hwiped _
          · rw [if_neg hbuilt]
            exact hwiped _

theorem webSetupSubmitHandle_spec (hfaithful : calls.Faithful) (derive : Derivation) (answers : SetupSubmitAnswers)
    (session : SetupSession) (body : List UInt8) :
    Released calls body (webSetupSubmitHandle calls derive answers session body) ∧
      Blanked (webSetupSubmitHandle calls derive answers session body).released := by
  have hnone : parsedBody calls body = none → ∀ outcome : SetupSubmitOutcome,
      Released calls body ⟨outcome, zeroed body, []⟩ ∧ Blanked [] := by
    intro h outcome
    refine ⟨⟨rfl, ?_⟩, fun _ hmem => absurd hmem List.not_mem_nil⟩
    rw [parsedTree, h]
    exact .refl _
  unfold webSetupSubmitHandle
  cases hbounded : boundedBody body.length body with
  | none => exact hnone (by simp only [parsedBody, hbounded]) _
  | some text =>
    dsimp only
    by_cases hescape : containsEmbeddedNulEscape text = true
    · rw [if_pos hescape]
      exact hnone (by simp only [parsedBody, hbounded, if_pos hescape]) _
    · rw [if_neg hescape]
      cases hparse : calls.parse text with
      | none => exact hnone (by simp only [parsedBody, hbounded, if_neg hescape, hparse, Option.map_none]) _
      | some parsed =>
        obtain ⟨tree, parseEnd⟩ := parsed
        have htree : parsedTree calls body = some tree := by
          simp only [parsedTree, parsedBody, hbounded, if_neg hescape, hparse, Option.map_some]
        obtain ⟨hreleased, hblanked⟩ := wipeAndDelete_spec hfaithful (parsed_items hfaithful htree)
        have hall : ReleasesAll (parsedTree calls body) (wipeAndDeleteJsonTree calls (some tree)) := by
          rw [htree]
          exact hreleased
        have hwiped : ∀ outcome : SetupSubmitOutcome,
            Released calls body ⟨outcome, zeroed body, wipeAndDeleteJsonTree calls (some tree)⟩ ∧
              Blanked (wipeAndDeleteJsonTree calls (some tree)) := fun _ => ⟨⟨rfl, hall⟩, hblanked⟩
        dsimp only
        -- every exit from here on releases the wiped tree
        repeat' split
        all_goals exact hwiped _

theorem webSettingsPutHandle_spec (hfaithful : calls.Faithful) (answers : SettingsPutAnswers) (body : List UInt8) :
    Released calls body (webSettingsPutHandle calls answers body) ∧
      (Blanked (webSettingsPutHandle calls answers body).released ↔
        ∀ tree, IsDocument calls body tree → ∀ item ∈ tree.forest.items, item.2.Blank) := by
  have hexact := parseExactBody_spec hfaithful body
  unfold webSettingsPutHandle
  generalize parseExactBody calls body = exact at hexact
  cases hexact with
  | refused all blanked other =>
    dsimp only
    rw [deleteJson_none hfaithful, List.append_nil]
    exact ⟨⟨rfl, all⟩, fun _ tree hdocument => absurd hdocument (other tree), fun _ => blanked⟩
  | @read tree document =>
    have hall : ReleasesAll (parsedTree calls body) (deleteJson calls (some tree)) := by
      rw [document.parsed]
      exact deleteJson_releasesAll hfaithful tree
    have hdeleted : ∀ result : SettingsPutResult,
        Released calls body ⟨result, zeroed body, [] ++ deleteJson calls (some tree)⟩ ∧
          (Blanked ([] ++ deleteJson calls (some tree)) ↔
            ∀ tree, IsDocument calls body tree → ∀ item ∈ tree.forest.items, item.2.Blank) := by
      intro result
      refine ⟨⟨rfl, hall⟩, ?_⟩
      rw [List.nil_append, deleteJson_blanked_iff hfaithful]
      constructor
      · intro hblank other hother
        have hsame := hother.parsed
        rw [document.parsed] at hsame
        cases hsame
        exact hblank
      · exact fun hblank => hblank tree document
    dsimp only
    repeat' split
    all_goals exact hdeleted _

theorem exactLogin_children {children : Forest JsonData} (h : exactLoginFields (jsonMembers children) = true) :
    ∃ address data below, children = .cons address data below .nil ∧
      cString (data.string.getD []) = adminPasswordField := by
  unfold exactLoginFields exactFields at h
  rw [Bool.and_eq_true, beq_iff_eq] at h
  obtain ⟨honce, hlength⟩ := h
  cases children with
  | nil => cases hlength
  | cons address data below rest =>
    cases rest with
    | cons other data' below' rest' =>
      simp [jsonMembers] at hlength
    | nil =>
      refine ⟨address, data, below, rfl, ?_⟩
      simp only [jsonMembers, fieldsOnce, Bool.and_eq_true, decide_eq_true_eq] at honce
      exact List.mem_singleton.mp honce.1.1

theorem named_not_blank {block : Option (List UInt8)} (hname : cString (block.getD []) = adminPasswordField) :
    ¬ IsZero block := by
  intro hzero
  cases block with
  | none => cases hname
  | some text =>
    have hletter : (0x61 : UInt8) ∈ cString text := by
      rw [show cString text = adminPasswordField from hname]
      decide
    have hmem : (0x61 : UInt8) ∈ text := (List.takeWhile_prefix _).subset hletter
    cases hzero text rfl 0x61 hmem

theorem login_laid {tree : JsonTree} {address : Nat} {data : JsonData} {below : Forest JsonData}
    (hchildren : tree.children = .cons address data below .nil) (wipe : JsonData → JsonData) :
    Laid (tree.heap.modify address (fun item => { item with data := wipe item.data })) (some tree.root)
        (.cons tree.root tree.data (.cons address (wipe data) below .nil) .nil) ∧
      (Forest.cons tree.root tree.data (.cons address (wipe data) below .nil) .nil).addresses = tree.forest.addresses := by
  have hnodup := tree.nodup
  obtain ⟨-, next, child, hlinks, hbelow, hnext⟩ := tree.laid
  rw [hchildren] at hnodup hbelow
  rw [Forest.addresses_cons, List.nodup_cons, Forest.addresses_nil, List.append_nil] at hnodup
  have hroot : tree.root ≠ address := by
    rintro heq
    exact hnodup.1 (by rw [heq]; simp)
  refine ⟨⟨rfl, next, child, (links_modify_ne _ _ hroot).trans hlinks, hbelow.change wipe hnodup.2, hnext⟩, ?_⟩
  rw [JsonTree.forest, hchildren]
  simp

theorem login_items (hfaithful : calls.Faithful) {tree : JsonTree} {address : Nat} {data : JsonData}
    {below : Forest JsonData} (hchildren : tree.children = .cons address data below .nil) (wipe : JsonData → JsonData) :
    (calls.delete (tree.heap.modify address (fun item => { item with data := wipe item.data })) (some tree.root)).Perm
      (Forest.cons tree.root tree.data (.cons address (wipe data) below .nil) .nil).items := by
  obtain ⟨hlaid, haddresses⟩ := login_laid hchildren wipe
  exact hfaithful.delete _ _ _ hlaid (by rw [haddresses]; exact tree.nodup)

theorem login_wiped (hfaithful : calls.Faithful) {tree : JsonTree} {address : Nat} {data : JsonData}
    {below : Forest JsonData} (hchildren : tree.children = .cons address data below .nil)
    (hname : cString (data.string.getD []) = adminPasswordField) (wipe : JsonData → JsonData)
    (hwipe : ∀ before, (wipe before).string = before.string) :
    ReleasesAll (some tree)
        (calls.delete (tree.heap.modify address (fun item => { item with data := wipe item.data })) (some tree.root)) ∧
      ¬ Blanked
        (calls.delete (tree.heap.modify address (fun item => { item with data := wipe item.data })) (some tree.root)) := by
  obtain ⟨hlaid, haddresses⟩ := login_laid hchildren wipe
  refine ⟨delete_releasesAll hfaithful tree hlaid haddresses, fun hblank => ?_⟩
  have hmem : (address, wipe data) ∈ (Forest.cons tree.root tree.data (.cons address (wipe data) below .nil) .nil).items := by
    simp [Forest.items]
  have hzero := hblank (address, wipe data) ((login_items hfaithful hchildren wipe).mem_iff.mpr hmem)
  rw [JsonData.Blank, hwipe] at hzero
  exact named_not_blank hname hzero.1

theorem login_released (hfaithful : calls.Faithful) {tree : JsonTree} {address : Nat} {data : JsonData}
    {below : Forest JsonData} (hchildren : tree.children = .cons address data below .nil) (wipe : JsonData → JsonData)
    {item : Nat × JsonData} (haddress : item.1 = address)
    (hmem : item ∈ calls.delete (tree.heap.modify address (fun item => { item with data := wipe item.data }))
      (some tree.root)) :
    item.2 = wipe data := by
  obtain ⟨-, haddresses⟩ := login_laid hchildren wipe
  have hnodup := tree.nodup
  rw [show (Forest.cons tree.root tree.data tree.children .nil).addresses = _ from haddresses.symm] at hnodup
  rw [(login_items hfaithful hchildren wipe).mem_iff] at hmem
  have hitem : item = (address, wipe data) :=
    List.inj_on_of_nodup_map hnodup hmem (by simp [Forest.items]) haddress
  rw [hitem]

/-- The text of the password of a login is overwritten when it is released. -/
def PasswordOverwritten (calls : CJsonCalls) (body : List UInt8) (released : List (Nat × JsonData)) : Prop :=
  ∀ tree, IsDocument calls body tree → exactLoginFields (jsonMembers tree.children) = true →
    ∀ address data, findItem tree.children adminPasswordField = some (address, data) →
      ∀ item ∈ released, item.1 = address → IsZero item.2.valuestring

theorem webAuthLoginParse_password (hfaithful : calls.Faithful) (passwordCapacity : Nat) (body : List UInt8) :
    PasswordOverwritten calls body (webAuthLoginParse calls passwordCapacity body).released := by
  intro tree hdocument hexact address data hfound item hmem haddress
  have hparsed := parsed_items hfaithful hdocument.parsed
  obtain ⟨text, hbounded, hescape, hparse, hobject⟩ := hdocument.read
  obtain ⟨other, data', below, hchildren, hname⟩ := exactLogin_children hexact
  have hsame : (other, data') = (address, data) := by
    rw [hchildren, findItem, if_pos hname] at hfound
    exact Option.some.inj hfound
  cases hsame
  have hplace : (address, data) ∈ tree.forest.items := by
    rw [JsonTree.forest, hchildren]
    simp [Forest.items]
  have hdata := hparsed _ hplace
  have hread : ¬ (text.length ≠ text.length ∨ tree.data.kind ≠ .object ∨
      ¬ exactLoginFields (jsonMembers tree.children) = true) := by simp [hobject, hexact]
  unfold webAuthLoginParse at hmem
  rw [hbounded] at hmem
  dsimp only at hmem
  rw [hescape, if_neg Bool.false_ne_true, hparse] at hmem
  dsimp only at hmem
  rw [if_neg hread, hfound] at hmem
  dsimp only at hmem
  split at hmem
  next password _ hvalue =>
    rw [login_released hfaithful hchildren
      (fun before => { before with valuestring := some (secureZero password (cString password).length) }) haddress hmem]
    intro block hblock
    cases hblock
    exact (wipeString_zero (hdata.valuestring password hvalue).1).2
  next hother =>
    -- without a text there is nothing to overwrite
    have hnone : data.valuestring = none := by
      cases hvalue : data.valuestring with
      | none => rfl
      | some password => exact absurd hvalue (hother password (hdata.valuestring password hvalue).2)
    have hitem : item = (address, data) :=
      List.inj_on_of_nodup_map tree.nodup ((deleteJson_perm hfaithful tree).mem_iff.mp hmem) hplace haddress
    rw [hitem]
    intro block hblock
    rw [hnone] at hblock
    cases hblock

theorem webAuthLoginParse_spec (hfaithful : calls.Faithful) (passwordCapacity : Nat) (body : List UInt8) :
    Released calls body (webAuthLoginParse calls passwordCapacity body) ∧
      (Blanked (webAuthLoginParse calls passwordCapacity body).released ↔
        ∀ tree, parsedTree calls body = some tree → ∀ item ∈ tree.forest.items, item.2.Blank) := by
  have hnone : parsedBody calls body = none → ∀ password : Option (List UInt8),
      Released calls body ⟨password, zeroed body, []⟩ ∧
        (Blanked [] ↔ ∀ tree, parsedTree calls body = some tree → ∀ item ∈ tree.forest.items, item.2.Blank) := by
    intro h password
    have hparsed : parsedTree calls body = none := by rw [parsedTree, h, Option.map_none]
    refine ⟨⟨rfl, by rw [hparsed]; exact .refl _⟩, fun _ tree htree => ?_, fun _ _ hmem => absurd hmem List.not_mem_nil⟩
    rw [hparsed] at htree
    cases htree
  unfold webAuthLoginParse
  cases hbounded : boundedBody body.length body with
  | none => exact hnone (by simp only [parsedBody, hbounded]) _
  | some text =>
    dsimp only
    by_cases hescape : containsEmbeddedNulEscape text = true
    · rw [if_pos hescape]
      exact hnone (by simp only [parsedBody, hbounded, if_pos hescape]) _
    · rw [if_neg hescape]
      cases hparse : calls.parse text with
      | none =>
        dsimp only
        rw [deleteJson_none hfaithful]
        exact hnone (by simp only [parsedBody, hbounded, if_neg hescape, hparse, Option.map_none]) _
      | some parsed =>
        obtain ⟨tree, parseEnd⟩ := parsed
        have htree : parsedTree calls body = some tree := by
          simp only [parsedTree, parsedBody, hbounded, if_neg hescape, hparse, Option.map_some]
        have hall : ReleasesAll (parsedTree calls body) (deleteJson calls (some tree)) := by
          rw [htree]
          exact deleteJson_releasesAll hfaithful tree
        have hdeleted : ∀ password : Option (List UInt8),
            Released calls body ⟨password, zeroed body, deleteJson calls (some tree)⟩ ∧
              (Blanked (deleteJson calls (some tree)) ↔
                ∀ tree, parsedTree calls body = some tree → ∀ item ∈ tree.forest.items, item.2.Blank) := by
          intro password
          refine ⟨⟨rfl, hall⟩, ?_⟩
          rw [deleteJson_blanked_iff hfaithful, htree]
          simp
        dsimp only
        by_cases hrefused : parseEnd ≠ text.length ∨ tree.data.kind ≠ .object ∨
            ¬ exactLoginFields (jsonMembers tree.children) = true
        · rw [if_pos hrefused]
          exact hdeleted _
        · rw [if_neg hrefused]
          push Not at hrefused
          obtain ⟨address, data, below, hchildren, hname⟩ := exactLogin_children hrefused.2.2
          have hfound : findItem tree.children adminPasswordField = some (address, data) := by
            rw [hchildren, findItem, if_pos hname]
          rw [hfound]
          dsimp only
          split
          next password _ _ =>
            obtain ⟨hwiped, hnot⟩ := login_wiped hfaithful hchildren hname
              (fun before => { before with valuestring := some (secureZero password (cString password).length) }) (fun _ => rfl)
            refine ⟨⟨rfl, by rw [htree]; exact hwiped⟩, fun hblank => absurd hblank hnot, fun hall => ?_⟩
            exfalso
            have hmem : (address, data) ∈ tree.forest.items := by
              rw [JsonTree.forest, hchildren]
              simp [Forest.items]
            exact named_not_blank hname (hall tree htree _ hmem).1
          · exact hdeleted _

/-- Whatever is sent and whatever the operations report, the body is zeroed when a handler of
credentials returns, and every item of the tree is released once. Setup and the change of the
password release zeros only; the update of the settings does so unless the body is an object
with a name or a text in it, and a login unless the tree has one. The password of a login is
always overwritten. -/
theorem credential_memory (hfaithful : calls.Faithful) (body : List UInt8) :
    (∀ derive answers session, Released calls body (webSetupSubmitHandle calls derive answers session body) ∧
      Blanked (webSetupSubmitHandle calls derive answers session body).released) ∧
    (∀ answers, Released calls body (webChangePasswordHandle calls answers body) ∧
      Blanked (webChangePasswordHandle calls answers body).released) ∧
    (∀ answers, Released calls body (webSettingsPutHandle calls answers body) ∧
      (Blanked (webSettingsPutHandle calls answers body).released ↔
        ∀ tree, IsDocument calls body tree → ∀ item ∈ tree.forest.items, item.2.Blank)) ∧
    (∀ passwordCapacity, Released calls body (webAuthLoginParse calls passwordCapacity body) ∧
      (Blanked (webAuthLoginParse calls passwordCapacity body).released ↔
        ∀ tree, parsedTree calls body = some tree → ∀ item ∈ tree.forest.items, item.2.Blank) ∧
      PasswordOverwritten calls body (webAuthLoginParse calls passwordCapacity body).released) :=
  ⟨fun derive answers session => webSetupSubmitHandle_spec hfaithful derive answers session body,
    fun answers => webChangePasswordHandle_spec hfaithful answers body,
    fun answers => webSettingsPutHandle_spec hfaithful answers body,
    fun passwordCapacity =>
      ⟨(webAuthLoginParse_spec hfaithful passwordCapacity body).1,
        (webAuthLoginParse_spec hfaithful passwordCapacity body).2,
        webAuthLoginParse_password hfaithful passwordCapacity body⟩⟩

end Handlers

section Desk

def deskText : JsonData := ⟨.string, none, some [0x70, 0x77, 0]⟩

/-- An array with a string in it, as a tree. -/
def deskTree : JsonTree where
  heap address :=
    if address = 1 then some ⟨⟨.array, none, none⟩, none, none, some 2⟩
    else if address = 2 then some ⟨deskText, none, none, none⟩
    else none
  root := 1
  data := ⟨.array, none, none⟩
  children := .cons 2 deskText .nil .nil
  laid := ⟨rfl, none, some 2, rfl, ⟨rfl, none, none, rfl, rfl, rfl⟩, rfl⟩
  nodup := by decide

def deskBody : List UInt8 := [0x5b, 0x22, 0x70, 0x77, 0x22, 0x5d]

def deskPassword : JsonData :=
  ⟨.string, some (adminPasswordField ++ [0]), some [0x70, 0x77, 0]⟩

def loginTree : JsonTree where
  heap address :=
    if address = 1 then some ⟨⟨.object, none, none⟩, none, none, some 2⟩
    else if address = 2 then some ⟨deskPassword, none, none, none⟩
    else none
  root := 1
  data := ⟨.object, none, none⟩
  children := .cons 2 deskPassword .nil .nil
  laid := ⟨rfl, none, some 2, rfl, ⟨rfl, none, none, rfl, rfl, rfl⟩, rfl⟩
  nodup := by decide

def loginBody : List UInt8 := MacroKeyboard.bytes "\x7b\"adminPassword\":\"pw\"\x7d"

noncomputable def deskCalls : CJsonCalls where
  parse text :=
    if text = deskBody then some (deskTree, 6)
    else if text = loginBody then some (loginTree, 22)
    else none
  delete heap first := releaseAll heap first

theorem deskText_parsed : deskText.Parsed where
  string := nofun
  valuestring := by
    rintro block ⟨⟩
    exact ⟨⟨[0x70, 0x77], by decide, rfl⟩, rfl⟩

theorem deskPassword_parsed : deskPassword.Parsed where
  string := by
    rintro block ⟨⟩
    exact ⟨adminPasswordField, by decide, rfl⟩
  valuestring := by
    rintro block ⟨⟩
    exact ⟨⟨[0x70, 0x77], by decide, rfl⟩, rfl⟩

theorem parsed_of_kind (kind : JsonKind) : (⟨kind, none, none⟩ : JsonData).Parsed where
  string := fun _ hnone => by cases hnone
  valuestring := fun _ hnone => by cases hnone

theorem deskCalls_faithful : deskCalls.Faithful where
  parse := by
    intro text tree parseEnd _ hparse item hitem
    unfold deskCalls at hparse
    dsimp only at hparse
    split at hparse
    · cases hparse
      have hitems : item = (1, ⟨.array, none, none⟩) ∨ item = (2, deskText) := by
        simpa [JsonTree.forest, deskTree, Forest.items] using hitem
      rcases hitems with rfl | rfl
      · exact parsed_of_kind .array
      · exact deskText_parsed
    · split at hparse
      · cases hparse
        have hitems : item = (1, ⟨.object, none, none⟩) ∨ item = (2, deskPassword) := by
          simpa [JsonTree.forest, loginTree, Forest.items] using hitem
        rcases hitems with rfl | rfl
        · exact parsed_of_kind .object
        · exact deskPassword_parsed
      · cases hparse
  delete := fun _ _ _ hlaid _ => releaseAll_perm hlaid

theorem desk_parsed : parsedTree deskCalls (deskBody ++ [0]) = some deskTree := by
  have hbounded : boundedBody (deskBody ++ [0]).length (deskBody ++ [0]) = some deskBody := by decide
  have hescape : containsEmbeddedNulEscape deskBody = false := by decide
  simp only [parsedTree, parsedBody, hbounded, hescape, deskCalls, Bool.false_eq_true, if_false, if_true, Option.map_some]

theorem login_document : IsDocument deskCalls (loginBody ++ [0]) loginTree := by
  have hbounded : boundedBody (loginBody ++ [0]).length (loginBody ++ [0]) = some loginBody := by decide
  have hescape : containsEmbeddedNulEscape loginBody = false := by decide
  have hother : loginBody ≠ deskBody := by decide
  refine ⟨⟨22, ?_⟩, rfl⟩
  simp only [parsedBody, hbounded, hescape, deskCalls, Bool.false_eq_true, if_false, if_neg hother, if_true, Option.map_some]
  rfl

/-- The update of the settings refuses an array and wipes its text, which a login leaves,
unlike a password. -/
theorem credential_memory_desk :
    Blanked (webSettingsPutHandle deskCalls ⟨.error .io, .none, true⟩ (deskBody ++ [0])).released ∧
      ¬ Blanked (webAuthLoginParse deskCalls 129 (deskBody ++ [0])).released ∧
      ∀ item ∈ (webAuthLoginParse deskCalls 129 (loginBody ++ [0])).released, item.1 = 2 → IsZero item.2.valuestring := by
  obtain ⟨-, -, hput, hlogin⟩ := credential_memory deskCalls_faithful (deskBody ++ [0])
  obtain ⟨-, -, -, hpassword⟩ := credential_memory deskCalls_faithful (loginBody ++ [0])
  refine ⟨(hput _).2.mpr ?_, fun hblank => ?_, ?_⟩
  · intro tree hdocument
    have hparsed := hdocument.parsed
    rw [desk_parsed] at hparsed
    cases hparsed
    cases hdocument.2
  · have hitem := (hlogin 129).2.1.mp hblank deskTree desk_parsed (2, deskText) (by simp [JsonTree.forest, deskTree, Forest.items])
    cases hitem.2 _ rfl 0x70 (by decide)
  · exact (hpassword 129).2.2 loginTree login_document (by decide) 2 deskPassword (if_pos (by decide))

end Desk

end MacroKeyboard.Web.TreeWipe
