import MacroKeyboard.Webapp.DirectivesAgree

namespace MacroKeyboard.Webapp

open Json FirmwareCompiler

open MacroCompiler (Position MacroCompileError ParsedToken errorAt nextAscii parseTokenWith parseNextToken scanGroupLoop)

section Source

variable {source directive tail : Units} {position : Position}

/-- The places at which the scan reads a token: from the start, behind each token that it
has read, and behind the opening bracket of a group. -/
inductive Reads (source : Units) : Position → Prop
  | start : Reads source MacroCompiler.startPosition
  | next {position : Position} {parsed : ParsedToken} (h : Reads source position)
    (hparsed : parseNextToken source position = .ok parsed) : Reads source parsed.next
  | group {position : Position} {rest : Units} (h : Reads source position)
    (hdrop : source.drop position.index = MacroCompiler.openBracket :: rest)
    (hsingle : rest.head? ≠ some MacroCompiler.openBracket) : Reads source (nextAscii position [MacroCompiler.openBracket])

/-- The scan reads the directive, between an opening brace and the next closing one. -/
def ReadsDirective (source directive : Units) : Prop :=
  ∃ position tail, Reads source position ∧
    source.drop position.index = MacroCompiler.openBrace :: (directive ++ MacroCompiler.closeBrace :: tail) ∧
    MacroCompiler.closeBrace ∉ directive ∧ directive.head? ≠ some MacroCompiler.openBrace

def Unambiguous (source : Units) : Prop := ∀ directive, ReadsDirective source directive → ¬ Divergent directive

theorem Unambiguous.directivesSame (h : Unambiguous source) (hreads : Reads source position) (hat : At source position) :
    DirectivesSame source position :=
  fun directive tail hdrop hclose hopen =>
    (sameDirective_iff hat hclose).mpr (h directive ⟨position, tail, hreads, hdrop, hclose, hopen⟩)

/-- The text of a directive that stands at the start of a text. -/
def directiveAt : Units → Option Units
  | [] => none
  | unit :: rest =>
    if unit = MacroCompiler.openBrace ∧ rest.head? ≠ some MacroCompiler.openBrace ∧ MacroCompiler.closeBrace ∈ rest then
      some (rest.takeWhile (· != MacroCompiler.closeBrace))
    else none

def directives (source : Units) : List Units := source.tails.filterMap directiveAt

theorem mem_directives (h : ReadsDirective source directive) : directive ∈ directives source := by
  obtain ⟨position, tail, -, hdrop, hclose, hopen⟩ := h
  have hhead : (directive ++ MacroCompiler.closeBrace :: tail).head? ≠ some MacroCompiler.openBrace := by
    cases directive with
    | nil => simp [MacroCompiler.openBrace, MacroCompiler.closeBrace]
    | cons unit directive => exact hopen
  have hmem : MacroCompiler.closeBrace ∈ directive ++ MacroCompiler.closeBrace :: tail := by simp
  have hall : ∀ unit ∈ directive, (unit != MacroCompiler.closeBrace) = true := by
    intro unit hunit
    rw [bne_iff_ne]
    exact fun heq => hclose (heq ▸ hunit)
  have htake : (directive ++ MacroCompiler.closeBrace :: tail).takeWhile (· != MacroCompiler.closeBrace) = directive := by
    rw [List.takeWhile_append_of_pos hall, List.takeWhile_cons_of_neg (by simp), List.append_nil]
  refine List.mem_filterMap.mpr ⟨source.drop position.index, (List.mem_tails _ _).mpr (List.drop_suffix _ _), ?_⟩
  rw [hdrop, directiveAt, if_pos ⟨rfl, hhead, hmem⟩, htake]

theorem unambiguous_of_directives (h : ∀ directive ∈ directives source, ¬ Divergent directive) : Unambiguous source :=
  fun directive hreads => h directive (mem_directives hreads)

end Source

section Groups

variable {source rest : Units} {position groupStart : Position} {unit : UInt16}

def SameAccumulator (accumulator : MacroCompiler.GroupAccumulator) (out : GroupAccumulator) : Prop :=
  out = ⟨accumulator.modifiers, accumulator.usages⟩

theorem same_mergeUsages (h : At source position) (usages : List UInt8) (accumulator : MacroCompiler.GroupAccumulator) :
    Same SameAccumulator (MacroCompiler.mergeUsages position usages accumulator)
      (v2MergeUsages (encoded source) position.index usages ⟨accumulator.modifiers, accumulator.usages⟩) := by
  induction usages generalizing accumulator with
  | nil => exact rfl
  | cons usage rest ih =>
    rw [MacroCompiler.mergeUsages, v2MergeUsages]
    by_cases hmem : usage ∈ accumulator.usages
    · rw [if_pos hmem, if_pos hmem]
      exact h.same .macroSyntax _ _
    rw [if_neg hmem, if_neg hmem]
    have hmax : MacroCompiler.macroActionUsagesMax = macroActionUsagesMax := rfl
    rw [hmax]
    by_cases hfull : macroActionUsagesMax ≤ accumulator.usages.length
    · rw [if_pos hfull, if_pos hfull]
      exact h.same .macroLimit _ _
    rw [if_neg hfull, if_neg hfull]
    exact ih { accumulator with usages := accumulator.usages ++ [usage] }

theorem same_mergeGroupMember (h : At source position) {action : MacroCompiler.MacroAction} {sent : MacroAction}
    (hsame : SameAction action sent) (accumulator : MacroCompiler.GroupAccumulator) :
    Same SameAccumulator (MacroCompiler.mergeGroupMember accumulator action position)
      (v2MergeGroupMember ⟨accumulator.modifiers, accumulator.usages⟩ sent.modifiers sent.usages (encoded source)
        position.index) := by
  have hmodifiers : MacroCompiler.actionModifiers action = sent.modifiers := by cases hsame <;> rfl
  have husages : MacroCompiler.actionUsages action = sent.usages := by
    cases hsame with
    | key usage modifiers => rw [MacroCompiler.actionUsages, ite_not]
    | chord usages modifiers => rfl
    | delay durationMs => rfl
  rw [MacroCompiler.mergeGroupMember, v2MergeGroupMember, hmodifiers, husages]
  by_cases hduplicate : accumulator.modifiers &&& sent.modifiers ≠ 0
  · rw [if_pos hduplicate, if_pos hduplicate]
    exact h.same .macroSyntax _ _
  · rw [if_neg hduplicate, if_neg hduplicate]
    exact same_mergeUsages h sent.usages _

theorem encoded_eq_cons (unit : UInt16) (rest : Units) : ∃ byte tail, encoded (unit :: rest) = byte :: tail := by
  by_cases hunit : unit < 0x80
  · exact ⟨_, _, encoded_cons hunit rest⟩
  · obtain ⟨byte, tail, hencoded, -⟩ := encoded_cons_of_le (UInt16.not_lt.mp hunit) rest
    exact ⟨byte, tail, hencoded⟩

theorem At.byteAt_iff (h : At source position) (hdrop : source.drop position.index = unit :: rest) (byte : UInt8)
    (hlow : byte < 0x80) : byteAt (encoded source) position.index = byte ↔ unit = byte.toUInt16 := by
  have hhead := head_encoded hlow (unit :: rest)
  obtain ⟨first, tail, hencoded⟩ := encoded_eq_cons unit rest
  rw [hencoded, List.head?_cons, List.head?_cons, Option.some_inj, Option.some_inj] at hhead
  rw [h.byteAt_eq, hdrop, hencoded, List.headD_cons, hhead]

theorem At.lt_length (h : At source position) (hdrop : source.drop position.index = unit :: rest) :
    position.index < (encoded source).length := by
  obtain ⟨first, tail, hencoded⟩ := encoded_eq_cons unit rest
  rw [h.length_encoded, hdrop, hencoded, List.length_cons]
  omega

/-- A token of the browser merged into a group, with the position behind it. -/
def groupMember (accumulator : MacroCompiler.GroupAccumulator) (position : Position) :
    Except MacroCompileError ParsedToken → Except MacroCompileError (MacroCompiler.GroupAccumulator × Position)
  | .error failure => .error failure
  | .ok ⟨.delay _, _⟩ =>
    .error (errorAt position .macroSyntax "a delay is not permitted inside a simultaneous-key group")
  | .ok ⟨action, next⟩ => (MacroCompiler.mergeGroupMember accumulator action position).map (·, next)

/-- A token of the firmware merged into a group. -/
def v2GroupMember (out : GroupAccumulator) (source : List UInt8) (offset : Nat) :
    Except MacroParseError Token → Except MacroParseError GroupStep
  | .error error => .error error
  | .ok member =>
    if member.action.type = .delay then
      .error (v2Fail source offset "a delay is not permitted inside a simultaneous-key group" .macroSyntax)
    else
      (v2MergeGroupMember out member.action.modifiers member.action.usages source offset).map
        (GroupStep.more · member.consumed)

/-- The same accumulated group behind a member, at the same place. -/
inductive SameMember (source : Units) (position : Position) :
    MacroCompiler.GroupAccumulator × Position → GroupStep → Prop
  | more (accumulator : MacroCompiler.GroupAccumulator) (next : Position) (consumed : Nat) (hat : At source next)
      (hindex : next.index = position.index + consumed) (hpos : 0 < consumed) :
      SameMember source position (accumulator, next) (.more ⟨accumulator.modifiers, accumulator.usages⟩ consumed)

theorem same_groupMember (h : At source position) {parsed : Except MacroCompileError ParsedToken}
    {token : Except MacroParseError Token} (hsame : Same (SameToken source position) parsed token)
    (accumulator : MacroCompiler.GroupAccumulator) : Same (SameMember source position)
      (groupMember accumulator position parsed)
      (v2GroupMember ⟨accumulator.modifiers, accumulator.usages⟩ (encoded source) position.index token) := by
  match parsed, token, hsame with
  | .error failure, .error error, hsame => exact hsame
  | .ok ⟨action, next⟩, .ok ⟨sent, consumed⟩, hsame =>
    obtain ⟨haction, hnext, hindex, hconsumed⟩ := hsame
    have hmerge (hdelay : sent.type ≠ .delay) : Same (SameMember source position)
        ((MacroCompiler.mergeGroupMember accumulator action position).map (·, next))
        (v2GroupMember ⟨accumulator.modifiers, accumulator.usages⟩ (encoded source) position.index
          (.ok ⟨sent, consumed⟩)) := by
      rw [v2GroupMember, if_neg hdelay]
      refine Same.map (same_mergeGroupMember h haction accumulator) fun merged out _ _ hout => ?_
      rw [hout]
      exact .more merged next consumed hnext hindex hconsumed
    cases haction with
    | key usage modifiers => exact hmerge nofun
    | chord usages modifiers => exact hmerge nofun
    | delay durationMs => exact h.same .macroSyntax _ _

theorem v2MergeLiteralBracket_eq (bracket : UInt8) (out : GroupAccumulator) (bytes : List UInt8) (offset : Nat) :
    (v2MergeLiteralBracket bracket out bytes offset).map (GroupStep.more · 2) =
      v2GroupMember out bytes offset (v2ParseEscape bracket bytes offset) := by
  rw [v2MergeLiteralBracket, v2ParseEscape]
  cases Keymap.macroKeymapUsPrintable bracket with
  | none => rfl
  | some key =>
    have hkey : (v2KeyAction key).type ≠ .delay := MacroActionType.noConfusion
    dsimp only [v2GroupMember]
    rw [if_neg hkey]

/-- The accumulated group and the place behind its closing bracket. -/
def SameGroup (source : Units) (groupStart : Position) (scanned : MacroCompiler.GroupAccumulator × Position)
    (sent : GroupAccumulator × Nat) : Prop :=
  SameAccumulator scanned.1 sent.1 ∧ At source scanned.2 ∧ scanned.2.index = sent.2 ∧ groupStart.index < sent.2

theorem scanGroupLoop_end (hend : source.length ≤ position.index) (fuel : Nat)
    (accumulator : MacroCompiler.GroupAccumulator) : scanGroupLoop source fuel accumulator position groupStart =
      .error (errorAt groupStart .macroSyntax "unmatched opening bracket") := by
  cases fuel with
  | zero => rfl
  | succ fuel => rw [scanGroupLoop, List.getElem?_eq_none hend]

theorem v2ScanGroupContent_end {bytes : List UInt8} {offset : Nat} (hend : bytes.length ≤ offset) (start left : Nat)
    (out : GroupAccumulator) : v2ScanGroupContent bytes start left offset out =
      .error (v2Fail bytes start "unmatched opening bracket" .macroSyntax) := by
  cases left with
  | zero => rfl
  | succ left => rw [v2ScanGroupContent, if_pos hend]

theorem At.length_of_end (h : At source position) (hend : source.length ≤ position.index) :
    (encoded source).length ≤ position.index := by
  rw [h.length_encoded, List.drop_eq_nil_iff.mpr hend]
  exact le_rfl

theorem scanGroupLoop_member (hdrop : source.drop position.index = unit :: rest) (fuel : Nat)
    (accumulator : MacroCompiler.GroupAccumulator)
    (hclose : ¬ (unit = MacroCompiler.closeBracket ∧ rest.head? ≠ some unit))
    (hopen : ¬ (unit = MacroCompiler.openBracket ∧ rest.head? ≠ some unit)) :
    scanGroupLoop source (fuel + 1) accumulator position groupStart =
      match groupMember accumulator position (parseTokenWith (scanGroupLoop source fuel ⟨0, []⟩) source position) with
      | .error failure => .error failure
      | .ok (merged, next) => scanGroupLoop source fuel merged next groupStart := by
  rw [scanGroupLoop, At.getElem?_eq hdrop, At.getElem?_succ_eq hdrop]
  dsimp only
  rw [if_neg hclose, if_neg hopen]
  cases parseTokenWith (scanGroupLoop source fuel ⟨0, []⟩) source position with
  | error failure => rfl
  | ok parsed =>
    obtain ⟨action, next⟩ := parsed
    cases action with
    | delay durationMs => rfl
    | key usage modifiers =>
      simp only [groupMember]
      cases MacroCompiler.mergeGroupMember accumulator (.key usage modifiers) position <;> rfl
    | chord usages modifiers =>
      simp only [groupMember]
      cases MacroCompiler.mergeGroupMember accumulator (.chord usages modifiers) position <;> rfl

theorem same_doubledClose (h : At source position)
    (hdrop : source.drop position.index = MacroCompiler.closeBracket :: MacroCompiler.closeBracket :: rest)
    (scan : MacroCompiler.GroupScan) : Same (SameToken source position) (parseTokenWith scan source position)
      (v2ParseEscape closeBracket (encoded source) position.index) := by
  have hparsed : parseTokenWith scan source position = .ok ⟨.key 0x30 (.mask 0),
      nextAscii position [MacroCompiler.closeBracket, MacroCompiler.closeBracket]⟩ := by
    rw [parseTokenWith, At.getElem?_eq hdrop]
    exact (if_pos (At.getElem?_succ_eq hdrop))
  rw [hparsed]
  exact h.samePair hdrop (by decide) 0x30 0

theorem same_doubledOpen (h : At source position)
    (hdrop : source.drop position.index = MacroCompiler.openBracket :: MacroCompiler.openBracket :: rest)
    (scan : MacroCompiler.GroupScan) : Same (SameToken source position) (parseTokenWith scan source position)
      (v2ParseEscape openBracket (encoded source) position.index) := by
  have hparsed : parseTokenWith scan source position = .ok ⟨.key 0x2f (.mask 0),
      nextAscii position [MacroCompiler.openBracket, MacroCompiler.openBracket]⟩ := by
    rw [parseTokenWith, At.getElem?_eq hdrop]
    exact (if_pos (At.getElem?_succ_eq hdrop))
  rw [hparsed]
  exact h.samePair hdrop (by decide) 0x2f 0

/-- The token that both merge at a character that is no single bracket. -/
theorem same_memberToken (hsource : Unambiguous source) (hreads : Reads source position) (h : At source position)
    (hdrop : source.drop position.index = unit :: rest)
    (hclose : ¬ (unit = MacroCompiler.closeBracket ∧ rest.head? ≠ some unit))
    (hopen : ¬ (unit = MacroCompiler.openBracket ∧ rest.head? ≠ some unit))
    (scan : MacroCompiler.GroupScan) (start : Nat) (out : GroupAccumulator) :
    ∃ token, Same (SameToken source position) (parseTokenWith scan source position) token ∧
      v2ScanGroupStep (encoded source) start position.index out =
        v2GroupMember out (encoded source) position.index token := by
  have hcloseByte := h.byteAt_iff hdrop closeBracket (by decide)
  have hopenByte := h.byteAt_iff hdrop openBracket (by decide)
  unfold v2ScanGroupStep
  dsimp only
  by_cases hclosing : unit = MacroCompiler.closeBracket
  · subst hclosing
    rw [not_and, not_not] at hclose
    obtain ⟨rest, rfl⟩ := eq_cons_of_head (hclose rfl)
    have hdoubled := (h.followedBy_iff hdrop (by decide) closeBracket (by decide)).mpr rfl
    refine ⟨_, same_doubledClose h hdrop scan, ?_⟩
    rw [hcloseByte.mpr rfl, if_pos rfl, if_pos hdoubled, v2MergeLiteralBracket_eq]
  rw [if_neg (mt hcloseByte.mp hclosing)]
  by_cases hopening : unit = MacroCompiler.openBracket
  · subst hopening
    rw [not_and, not_not] at hopen
    obtain ⟨rest, rfl⟩ := eq_cons_of_head (hopen rfl)
    have hdoubled := (h.followedBy_iff hdrop (by decide) openBracket (by decide)).mpr rfl
    refine ⟨_, same_doubledOpen h hdrop scan, ?_⟩
    rw [hopenByte.mpr rfl, if_pos rfl, if_neg (not_not.mpr hdoubled), v2MergeLiteralBracket_eq]
  rw [if_neg (mt hopenByte.mp hopening)]
  refine ⟨_, same_nonBracketToken h hdrop hopening hclosing (hsource.directivesSame hreads h), ?_⟩
  cases v2ParseNonBracketToken (encoded source) position.index <;> rfl

theorem same_groupEnd (h : At source position) (hstart : At source groupStart) (hafter : groupStart.index < position.index)
    (hdrop : source.drop position.index = MacroCompiler.closeBracket :: rest)
    (hsingle : rest.head? ≠ some MacroCompiler.closeBracket) (fuel left : Nat)
    (accumulator : MacroCompiler.GroupAccumulator) :
    Same (SameGroup source groupStart) (scanGroupLoop source (fuel + 1) accumulator position groupStart)
      (v2ScanGroupContent (encoded source) groupStart.index (left + 1) position.index
        ⟨accumulator.modifiers, accumulator.usages⟩) := by
  have hbyte := (h.byteAt_iff hdrop closeBracket (by decide)).mpr rfl
  have hdoubled := mt (h.followedBy_iff hdrop (by decide) closeBracket (by decide)).mp hsingle
  rw [scanGroupLoop, At.getElem?_eq hdrop, At.getElem?_succ_eq hdrop, v2ScanGroupContent,
    if_neg (Nat.not_le.mpr (h.lt_length hdrop)), v2ScanGroupStep]
  dsimp only
  rw [hbyte, if_pos ⟨rfl, hsingle⟩, if_pos rfl, if_neg hdoubled]
  by_cases hempty : accumulator.usages.length = 0 ∧ accumulator.modifiers = 0
  · rw [if_pos hempty, if_pos hempty]
    exact hstart.same .macroSyntax _ _
  · rw [if_neg hempty, if_neg hempty]
    have hsplit : source.drop position.index = [MacroCompiler.closeBracket] ++ rest := hdrop
    exact ⟨rfl, h.next hsplit (List.forall_mem_singleton.mpr (by decide)), rfl, Nat.lt_succ_of_lt hafter⟩

theorem same_nested (h : At source position) (hdrop : source.drop position.index = MacroCompiler.openBracket :: rest)
    (hsingle : rest.head? ≠ some MacroCompiler.openBracket) (fuel left : Nat)
    (accumulator : MacroCompiler.GroupAccumulator) :
    Same (SameGroup source groupStart) (scanGroupLoop source (fuel + 1) accumulator position groupStart)
      (v2ScanGroupContent (encoded source) groupStart.index (left + 1) position.index
        ⟨accumulator.modifiers, accumulator.usages⟩) := by
  have hbyte := (h.byteAt_iff hdrop openBracket (by decide)).mpr rfl
  have hdoubled := mt (h.followedBy_iff hdrop (by decide) openBracket (by decide)).mp hsingle
  rw [scanGroupLoop, At.getElem?_eq hdrop, At.getElem?_succ_eq hdrop, v2ScanGroupContent,
    if_neg (Nat.not_le.mpr (h.lt_length hdrop)), v2ScanGroupStep]
  dsimp only
  rw [hbyte, if_neg (fun hclose => absurd hclose.1 (by decide)), if_pos ⟨rfl, hsingle⟩, if_neg (by decide), if_pos rfl,
    if_pos hdoubled]
  exact h.same .macroSyntax _ _

theorem parseTokenWith_member (hdrop : source.drop position.index = unit :: rest)
    (hopen : ¬ (unit = MacroCompiler.openBracket ∧ rest.head? ≠ some unit)) (scan : MacroCompiler.GroupScan) :
    parseTokenWith scan source position = parseNextToken source position := by
  by_cases hopening : unit = MacroCompiler.openBracket
  · subst hopening
    rw [not_and, not_not] at hopen
    have hdoubled : source[position.index + 1]? = some MacroCompiler.openBracket := by
      rw [At.getElem?_succ_eq hdrop]
      exact hopen rfl
    have hparsed (other : MacroCompiler.GroupScan) : parseTokenWith other source position =
        MacroCompiler.parseOpenBracket other source position := by
      rw [parseTokenWith, At.getElem?_eq hdrop]
      rfl
    rw [parseNextToken, hparsed, hparsed, MacroCompiler.parseOpenBracket, MacroCompiler.parseOpenBracket, if_pos hdoubled,
      if_pos hdoubled]
  · rw [parseNextToken, parseTokenWith, parseTokenWith, At.getElem?_eq hdrop]
    dsimp only
    rw [if_neg hopening, if_neg hopening]

/-- The scan reads a token behind a member of a group. -/
theorem Reads.member (h : Reads source position) (hdrop : source.drop position.index = unit :: rest)
    (hopen : ¬ (unit = MacroCompiler.openBracket ∧ rest.head? ≠ some unit)) {scan : MacroCompiler.GroupScan}
    {accumulator merged : MacroCompiler.GroupAccumulator} {next : Position}
    (hmember : groupMember accumulator position (parseTokenWith scan source position) = .ok (merged, next)) :
    Reads source next := by
  rw [parseTokenWith_member hdrop hopen] at hmember
  cases hparsed : parseNextToken source position with
  | error failure =>
    rw [hparsed] at hmember
    cases hmember
  | ok parsed =>
    have hnext : parsed.next = next := by
      rw [hparsed] at hmember
      obtain ⟨action, place⟩ := parsed
      have hmerged {merging : Except MacroCompileError MacroCompiler.GroupAccumulator}
          (hmap : merging.map (·, place) = .ok (merged, next)) : place = next := by
        cases merging with
        | error failure => cases hmap
        | ok out =>
          cases hmap
          rfl
      cases action with
      | delay durationMs => cases hmember
      | key usage modifiers => exact hmerged hmember
      | chord usages modifiers => exact hmerged hmember
    exact hnext ▸ h.next hparsed

/-- What remains of a group is scanned alike, when both scans have enough rounds left. -/
theorem same_scanGroup (hsource : Unambiguous source) (hstart : At source groupStart) (fuel : Nat) :
    ∀ left (position : Position) (accumulator : MacroCompiler.GroupAccumulator), Reads source position →
      At source position → groupStart.index < position.index →
      source.length ≤ position.index + fuel → (encoded source).length ≤ position.index + left →
      Same (SameGroup source groupStart) (scanGroupLoop source fuel accumulator position groupStart)
        (v2ScanGroupContent (encoded source) groupStart.index left position.index
          ⟨accumulator.modifiers, accumulator.usages⟩) := by
  induction fuel with
  | zero =>
    intro left position accumulator _ h _ hfuel _
    rw [scanGroupLoop_end hfuel, v2ScanGroupContent_end (h.length_of_end hfuel)]
    exact hstart.same .macroSyntax _ _
  | succ fuel ih =>
    intro left position accumulator hreads h hafter hfuel hleft
    by_cases hend : source.length ≤ position.index
    · rw [scanGroupLoop_end hend, v2ScanGroupContent_end (h.length_of_end hend)]
      exact hstart.same .macroSyntax _ _
    obtain ⟨unit, rest, hdrop⟩ : ∃ unit rest, source.drop position.index = unit :: rest :=
      List.exists_cons_of_ne_nil (mt List.drop_eq_nil_iff.mp hend)
    have hlt := h.lt_length hdrop
    obtain ⟨left, rfl⟩ := Nat.exists_eq_add_one_of_ne_zero (show left ≠ 0 by omega)
    by_cases hclose : unit = MacroCompiler.closeBracket ∧ rest.head? ≠ some unit
    · obtain ⟨rfl, hsingle⟩ := hclose
      exact same_groupEnd h hstart hafter hdrop hsingle fuel left accumulator
    by_cases hopen : unit = MacroCompiler.openBracket ∧ rest.head? ≠ some unit
    · obtain ⟨rfl, hsingle⟩ := hopen
      exact same_nested h hdrop hsingle fuel left accumulator
    obtain ⟨token, htoken, hstep⟩ := same_memberToken hsource hreads h hdrop hclose hopen
      (scanGroupLoop source fuel ⟨0, []⟩) groupStart.index ⟨accumulator.modifiers, accumulator.usages⟩
    have hmember := same_groupMember h htoken accumulator
    rw [scanGroupLoop_member hdrop fuel accumulator hclose hopen, v2ScanGroupContent, if_neg (Nat.not_le.mpr hlt), hstep]
    have hbehind {merged : MacroCompiler.GroupAccumulator} {next : Position} (hmerged : groupMember accumulator position
        (parseTokenWith (scanGroupLoop source fuel ⟨0, []⟩) source position) = .ok (merged, next)) : Reads source next :=
      hreads.member hdrop hopen hmerged
    revert hmember hbehind
    generalize groupMember accumulator position (parseTokenWith (scanGroupLoop source fuel ⟨0, []⟩) source position) = merged
    generalize v2GroupMember ⟨accumulator.modifiers, accumulator.usages⟩ (encoded source) position.index token = sent
    intro hmember hbehind
    match merged, sent, hmember with
    | .error failure, .error error, hmember => exact hmember
    | .ok _, .ok _, .more merged next consumed hat hindex hpos =>
      dsimp only
      rw [← hindex]
      exact ih left next merged (hbehind rfl) hat (by omega) (by omega) (by omega)

end Groups

end MacroKeyboard.Webapp
