import MacroKeyboard.LiteralText
import MacroKeyboard.Webapp.GroupsAgree

namespace MacroKeyboard.Webapp

open Json FirmwareCompiler

open LiteralText (TimingsOk keyTime keyTime_le safeAdd_of_lt)

open MacroCompiler (Position MacroCompileError CompileState errorAt nextAscii parseNextToken)

section Tokens

variable {source rest : Units} {position : Position} {unit : UInt16}

theorem same_openBracket (hsource : Unambiguous source) (hreads : Reads source position) (h : At source position)
    (hdrop : source.drop position.index = MacroCompiler.openBracket :: rest) : Same (SameToken source position)
      (parseNextToken source position) (v2ParseOpenBracket (encoded source) position.index) := by
  have hfollowed := h.followedBy_iff hdrop (by decide) openBracket (by decide)
  by_cases hopen : rest.head? = some MacroCompiler.openBracket
  · obtain ⟨rest, rfl⟩ := eq_cons_of_head hopen
    rw [v2ParseOpenBracket, if_pos (hfollowed.mpr hopen)]
    exact same_doubledOpen h hdrop _
  have hsplit : source.drop position.index = [MacroCompiler.openBracket] ++ rest := hdrop
  have hnext := h.next hsplit (List.forall_mem_singleton.mpr (by decide))
  have hscan := same_scanGroup hsource h source.length (encoded source).length _ ⟨0, []⟩ (hreads.group hdrop hopen) hnext (Nat.lt_succ_self _)
    (Nat.le_add_left _ _) (Nat.le_add_left _ _)
  have hparsed : parseNextToken source position =
      (MacroCompiler.scanGroupContent source (nextAscii position [MacroCompiler.openBracket]) position).map
        (fun scanned => ⟨.chord scanned.1.usages scanned.1.modifiers, scanned.2⟩) := by
    have htoken : parseNextToken source position =
        MacroCompiler.parseOpenBracket (MacroCompiler.scanGroupContent source) source position := by
      rw [parseNextToken, MacroCompiler.parseTokenWith, At.getElem?_eq hdrop]
      rfl
    rw [htoken, MacroCompiler.parseOpenBracket, At.getElem?_succ_eq hdrop, if_neg hopen]
    cases MacroCompiler.scanGroupContent source (nextAscii position [MacroCompiler.openBracket]) position <;> rfl
  have hsent : v2ParseOpenBracket (encoded source) position.index =
      (v2ScanGroupContent (encoded source) position.index (encoded source).length (position.index + 1) ⟨0, []⟩).map
        (fun scanned => ⟨⟨.chord, scanned.1.modifiers, scanned.1.usages, 0⟩, scanned.2 - position.index⟩) := by
    rw [v2ParseOpenBracket, if_neg (mt hfollowed.mp hopen)]
    cases v2ScanGroupContent (encoded source) position.index (encoded source).length (position.index + 1) ⟨0, []⟩ <;> rfl
  rw [hparsed, hsent]
  refine Same.map hscan fun scanned sent _ _ hgroup => ?_
  obtain ⟨haccumulator, hat, hindex, hafter⟩ := hgroup
  have hout : sent.1 = ⟨scanned.1.modifiers, scanned.1.usages⟩ := haccumulator
  refine ⟨?_, hat, ?_, ?_⟩
  · rw [hout]
    exact .chord scanned.1.usages scanned.1.modifiers
  · dsimp only
    omega
  · exact Nat.sub_pos_of_lt hafter

theorem same_closeBracket (h : At source position)
    (hdrop : source.drop position.index = MacroCompiler.closeBracket :: rest) : Same (SameToken source position)
      (parseNextToken source position) (v2ParseCloseBracket (encoded source) position.index) := by
  have hfollowed := h.followedBy_iff hdrop (by decide) closeBracket (by decide)
  rw [v2ParseCloseBracket]
  by_cases hclose : rest.head? = some MacroCompiler.closeBracket
  · obtain ⟨rest, rfl⟩ := eq_cons_of_head hclose
    rw [if_pos (hfollowed.mpr hclose)]
    exact same_doubledClose h hdrop _
  · have hparsed : parseNextToken source position = .error (errorAt position .macroSyntax "unmatched closing bracket") := by
      have htoken : parseNextToken source position = MacroCompiler.parseCloseBracket source position := by
        rw [parseNextToken, MacroCompiler.parseTokenWith, At.getElem?_eq hdrop]
        rfl
      rw [htoken, MacroCompiler.parseCloseBracket, At.getElem?_succ_eq hdrop, if_neg hclose]
    rw [hparsed, if_neg (mt hfollowed.mp hclose)]
    exact h.same .macroSyntax _ _

theorem same_nextToken (hsource : Unambiguous source) (hreads : Reads source position) (h : At source position)
    (hdrop : source.drop position.index = unit :: rest) : Same (SameToken source position)
      (parseNextToken source position) (v2ParseNextToken (encoded source) position.index) := by
  have hopenByte := h.byteAt_iff hdrop openBracket (by decide)
  have hcloseByte := h.byteAt_iff hdrop closeBracket (by decide)
  rw [v2ParseNextToken]
  by_cases hopen : unit = MacroCompiler.openBracket
  · subst hopen
    rw [if_pos (hopenByte.mpr rfl)]
    exact same_openBracket hsource hreads h hdrop
  rw [if_neg (mt hopenByte.mp hopen)]
  by_cases hclose : unit = MacroCompiler.closeBracket
  · subst hclose
    rw [if_pos (hcloseByte.mpr rfl)]
    exact same_closeBracket h hdrop
  rw [if_neg (mt hcloseByte.mp hclose)]
  exact same_nonBracketToken h hdrop hopen hclose (hsource.directivesSame hreads h)

end Tokens

section Compile

variable {source : Units} {timings : MacroCompileOptions}

def browserOptions (timings : MacroCompileOptions) : MacroCompiler.MacroCompileOptions :=
  ⟨timings.keyPressMs.toNat, timings.interKeyMs.toNat⟩

/-- The same actions so far, taking the same time, which is within the limit. -/
structure SameState (state : CompileState) (working : MacroPlan) : Prop where
  actions : ∃ sent, working.actions = some sent ∧ List.Forall₂ SameAction state.actions sent
  duration : state.estimatedDurationMs = working.estimatedDurationMs.toNat
  within : working.estimatedDurationMs.toNat ≤ 300000

theorem addedDuration_eq {action : MacroCompiler.MacroAction} {sent : MacroAction} (h : SameAction action sent) :
    MacroCompiler.addedDuration (browserOptions timings) action = (sent.cost timings : ℚ) := by
  cases h with
  | key usage modifiers => exact (Nat.cast_add _ _).symm
  | chord usages modifiers => exact (Nat.cast_add _ _).symm
  | delay durationMs => rfl

theorem v2ActionDuration_eq (htimings : TimingsOk timings) (sent : MacroAction) :
    ∃ duration, v2ActionDuration timings sent = some duration ∧ duration.toNat = sent.cost timings := by
  have hle := keyTime_le htimings
  unfold keyTime at hle
  obtain ⟨hsum, hnat⟩ := safeAdd_of_lt timings.keyPressMs timings.interKeyMs (by omega)
  unfold v2ActionDuration MacroAction.cost
  cases sent.type with
  | delay => exact ⟨_, rfl, rfl⟩
  | key => exact ⟨_, hsum, hnat⟩
  | chord => exact ⟨_, hsum, hnat⟩

theorem v2SafeAddU32_eq (total duration : UInt32) :
    (v2SafeAddU32 total duration = none ∧ 2 ^ 32 ≤ total.toNat + duration.toNat) ∨
      ∃ sum : UInt32, v2SafeAddU32 total duration = some sum ∧ sum.toNat = total.toNat + duration.toNat := by
  have hmax : uint32Max.toNat = 2 ^ 32 - 1 := by decide
  have hlt := total.toNat_lt
  by_cases h : total.toNat + duration.toNat < 2 ^ 32
  · obtain ⟨hsum, hnat⟩ := safeAdd_of_lt total duration h
    exact Or.inr ⟨_, hsum, hnat⟩
  · exact Or.inl ⟨if_pos (by omega), by omega⟩

theorem same_appendAction {position : Position} (htimings : TimingsOk timings) (h : At source position)
    {state : CompileState} {working : MacroPlan} (hstate : SameState state working)
    {action : MacroCompiler.MacroAction} {sent : MacroAction} (haction : SameAction action sent) :
    Same SameState (MacroCompiler.appendAction state action position (browserOptions timings))
      (v2AppendAction working sent timings (encoded source) position.index) := by
  obtain ⟨⟨actions, hactions, hsame⟩, hduration, hwithin⟩ := hstate
  obtain ⟨duration, hsome, hcost⟩ := v2ActionDuration_eq htimings sent
  have hcount : working.actionCount = state.actions.length := by
    rw [MacroPlan.actionCount, MacroPlan.actionList, hactions, Option.getD_some, hsame.length_eq]
  have hlimit : v2Limits.compiledActionsMax = Limits.compiledActionsMax := rfl
  have hadded : state.estimatedDurationMs + MacroCompiler.addedDuration (browserOptions timings) action =
      ((working.estimatedDurationMs.toNat + duration.toNat : ℕ) : ℚ) := by
    rw [hduration, addedDuration_eq haction, hcost, Nat.cast_add]
  have hover : (v2Limits.estimatedDurationMaxMs : ℚ) <
      state.estimatedDurationMs + MacroCompiler.addedDuration (browserOptions timings) action ↔
      300000 < working.estimatedDurationMs.toNat + duration.toNat := by
    rw [hadded, Nat.cast_lt]
    rfl
  rw [MacroCompiler.appendAction, v2AppendAction, hcount, hlimit, hsome]
  by_cases hfull : Limits.compiledActionsMax ≤ state.actions.length
  · rw [if_pos hfull, if_pos hfull]
    exact h.same .macroLimit _ _
  rw [if_neg hfull, if_neg hfull]
  dsimp only
  rcases v2SafeAddU32_eq working.estimatedDurationMs duration with ⟨hnone, hwrap⟩ | ⟨total, htotal, hsum⟩
  · rw [if_pos (hover.mpr (by omega)), hnone]
    exact h.same .macroLimit _ _
  have hexceeds : total > Limits.estimatedDurationMaxMs ↔ 300000 < working.estimatedDurationMs.toNat + duration.toNat := by
    rw [gt_iff_lt, UInt32.lt_iff_toNat_lt, PlanWellFormed.estimatedDurationMaxMs_toNat, hsum]
  rw [htotal]
  dsimp only
  by_cases hpast : 300000 < working.estimatedDurationMs.toNat + duration.toNat
  · rw [if_pos (hover.mpr hpast), if_pos (hexceeds.mpr hpast)]
    exact h.same .macroLimit _ _
  · rw [if_neg (mt hover.mp hpast), if_neg (mt hexceeds.mp hpast)]
    refine ⟨⟨actions ++ [sent], by rw [hactions]; rfl, ?_⟩, ?_, ?_⟩
    · exact List.rel_append hsame (List.Forall₂.cons haction .nil)
    · rw [hadded, hsum]
    · rw [hsum]
      exact Nat.not_lt.mp hpast

theorem compileTokens_end {options : MacroCompiler.MacroCompileOptions} {state : CompileState}
    (hend : source.length ≤ state.position.index) (fuel : Nat) :
    MacroCompiler.compileTokens source options fuel state = .ok state := by
  cases fuel with
  | zero => rfl
  | succ fuel => rw [MacroCompiler.compileTokens, if_neg (Nat.not_lt.mpr hend)]

theorem v2CompileTokens_end {bytes : List UInt8} {offset : Nat} (hend : bytes.length ≤ offset) (left : Nat)
    (working : MacroPlan) : v2CompileTokens bytes timings left offset working = .ok working := by
  cases left with
  | zero => rfl
  | succ left => rw [v2CompileTokens, if_neg (Nat.not_lt.mpr hend)]

/-- What remains of a source is compiled alike, when both loops have enough rounds left. -/
theorem same_compileTokens (hsource : Unambiguous source) (htimings : TimingsOk timings) (fuel : Nat) :
    ∀ left (state : CompileState) working, Reads source state.position → At source state.position → SameState state working →
      source.length ≤ state.position.index + fuel → (encoded source).length ≤ state.position.index + left →
      Same SameState (MacroCompiler.compileTokens source (browserOptions timings) fuel state)
        (v2CompileTokens (encoded source) timings left state.position.index working) := by
  induction fuel with
  | zero =>
    intro left state working _ h hstate hfuel _
    rw [compileTokens_end hfuel, v2CompileTokens_end (h.length_of_end hfuel)]
    exact hstate
  | succ fuel ih =>
    intro left state working hreads h hstate hfuel hleft
    by_cases hend : source.length ≤ state.position.index
    · rw [compileTokens_end hend, v2CompileTokens_end (h.length_of_end hend)]
      exact hstate
    obtain ⟨unit, rest, hdrop⟩ : ∃ unit rest, source.drop state.position.index = unit :: rest :=
      List.exists_cons_of_ne_nil (mt List.drop_eq_nil_iff.mp hend)
    have hlt := h.lt_length hdrop
    obtain ⟨left, rfl⟩ := Nat.exists_eq_add_one_of_ne_zero (show left ≠ 0 by omega)
    rw [MacroCompiler.compileTokens, if_pos (Nat.not_le.mp hend), v2CompileTokens, if_pos hlt]
    obtain ⟨failure, error, hparsed, htoken, hsame⟩ | ⟨parsed, token, hparsed, htoken, hsame⟩ :=
      (same_nextToken hsource hreads h hdrop).cases
    · rw [hparsed, htoken]
      exact hsame
    obtain ⟨haction, hnext, hindex, hconsumed⟩ := hsame
    rw [hparsed, htoken]
    dsimp only
    obtain ⟨failure, error, happended, hsent, hsame⟩ | ⟨appended, sent, happended, hsent, hsame⟩ :=
      (same_appendAction htimings h hstate haction).cases
    · rw [happended, hsent]
      exact hsame
    rw [happended, hsent]
    dsimp only
    rw [← hindex]
    exact ih left { appended with position := parsed.next } sent (hreads.next hparsed) hnext ⟨hsame.1, hsame.2, hsame.3⟩
      (by dsimp only; omega) (by dsimp only; omega)

/-- The same verdict. Accepted, the same actions in order and the same duration; rejected,
the same error at the same place. -/
def SameVerdict : Except MacroCompileError MacroCompiler.MacroCompiled → CompileOutcome → Prop
  | .ok compiled, outcome => outcome.result = .none ∧
      List.Forall₂ SameAction compiled.actions outcome.outPlan.actionList ∧
      compiled.estimatedDurationMs = outcome.outPlan.estimatedDurationMs.toNat
  | .error failure, outcome => outcome.result = failure.code.appError ∧ SameError failure outcome.outError

theorem validTiming_iff (timing : UInt32) : MacroCompiler.validTiming (timing.toNat : ℚ) = true ↔ timing.toNat ≤ 10000 := by
  rw [MacroCompiler.validTiming, isBoundedInteger_iff (by decide)]
  constructor
  · rintro ⟨n, hn, hle⟩
    rw [Nat.cast_inj.mp hn]
    exact hle
  · exact fun hle => ⟨timing.toNat, rfl, hle⟩

theorem invalidTimings_iff : (¬ MacroCompiler.validTiming (browserOptions timings).keyPressMs = true ∨
      ¬ MacroCompiler.validTiming (browserOptions timings).interKeyMs = true) ↔
    (timings.keyPressMs > Limits.keyPressMaxMs ∨ timings.interKeyMs > Limits.interKeyMaxMs) := by
  have hpress : Limits.keyPressMaxMs.toNat = 10000 := by decide
  have hinter : Limits.interKeyMaxMs.toNat = 10000 := by decide
  rw [browserOptions, validTiming_iff, validTiming_iff, gt_iff_lt, gt_iff_lt, UInt32.lt_iff_toNat_lt,
    UInt32.lt_iff_toNat_lt, hpress, hinter, Nat.not_le, Nat.not_le]

theorem sameVerdict_failed {failure : MacroCompileError} {error : MacroParseError} (h : SameError failure error) :
    SameVerdict (.error failure) (.failed error) :=
  ⟨h.1, h⟩

/-- What the firmware makes of the result of its loop. -/
def tokensOutcome : Except MacroParseError MacroPlan → CompileOutcome
  | .error error => .failed error
  | .ok working =>
    if working.actionCount = 0 then ⟨.none, clearedPlan, clearedError, 0⟩ else ⟨.none, working, clearedError, 1⟩

/-- The verdict on a source that has text. -/
theorem sameVerdict_tokens {state : Except MacroCompileError CompileState} {working : Except MacroParseError MacroPlan}
    (h : Same SameState state working)
    (hempty : ∀ plan, working = .ok plan → plan.actionCount = 0 → plan.estimatedDurationMs = 0) :
    SameVerdict (state.map fun state => ⟨state.actions, state.estimatedDurationMs⟩)
      (tokensOutcome working) := by
  match state, working, h with
  | .error failure, .error error, h => exact sameVerdict_failed h
  | .ok state, .ok working, h =>
    obtain ⟨⟨actions, hactions, hsame⟩, hduration, -⟩ := h
    have hlist : working.actionList = actions := by rw [MacroPlan.actionList, hactions, Option.getD_some]
    rw [tokensOutcome]
    by_cases hcount : working.actionCount = 0
    · rw [if_pos hcount]
      have hzero := hempty working rfl hcount
      rw [MacroPlan.actionCount, hlist, List.length_eq_zero_iff] at hcount
      rw [hzero] at hduration
      rw [hcount, List.forall₂_nil_right_iff] at hsame
      refine ⟨rfl, ?_, hduration⟩
      dsimp only
      rw [hsame]
      exact .nil
    · rw [if_neg hcount]
      refine ⟨rfl, ?_, hduration⟩
      dsimp only
      rwa [hlist]

theorem empty_plan_free {bytes : List UInt8} {fuel offset : Nat} {plan : MacroPlan} (htimings : TimingsOk timings)
    (h : v2CompileTokens bytes timings fuel offset ⟨some [], 0⟩ = .ok plan) (hcount : plan.actionCount = 0) :
    plan.estimatedDurationMs = 0 := by
  have hle := keyTime_le htimings
  unfold keyTime at hle
  have hstart : PlanWellFormed.PlanOk timings ⟨some [], 0⟩ := PlanWellFormed.emptyPlan_ok rfl (by omega)
  have hestimate := (PlanWellFormed.compileTokens_ok rfl hstart h).2.estimate_eq
  rw [MacroPlan.actionCount, List.length_eq_zero_iff] at hcount
  rw [hcount] at hestimate
  exact UInt32.toNat_inj.mp hestimate

theorem sameVerdict_unambiguous (source : Units) (timings : MacroCompileOptions) (hsource : Unambiguous source) :
    SameVerdict (MacroCompiler.compileMacro source (browserOptions timings))
      (macroCompileV2 true (encoded source) (some timings)) := by
  have hstart := at_startPosition source
  rw [MacroCompiler.compileMacro, MacroCompiler.validateCompileInput, macroCompileV2]
  dsimp only [Option.getD_some]
  by_cases hinvalid : timings.keyPressMs > Limits.keyPressMaxMs ∨ timings.interKeyMs > Limits.interKeyMaxMs
  · rw [if_pos (invalidTimings_iff.mpr hinvalid), if_pos hinvalid]
    exact sameVerdict_failed (hstart.sameError .invalidArgument _ _)
  rw [if_neg (mt invalidTimings_iff.mp hinvalid), if_neg hinvalid, byteLength_eq]
  have hbytes : v2Limits.macroSourceMaxBytes = Limits.macroSourceMaxBytes := rfl
  rw [hbytes]
  by_cases hlong : Limits.macroSourceMaxBytes < (encoded source).length
  · rw [if_pos hlong, if_pos hlong]
    exact sameVerdict_failed (hstart.sameError .macroLimit _ _)
  rw [if_neg hlong, if_neg hlong]
  dsimp only
  have htimings : TimingsOk timings := by
    rw [not_or, gt_iff_lt, gt_iff_lt, UInt32.not_lt, UInt32.not_lt] at hinvalid
    exact hinvalid
  by_cases hnil : source = []
  · subst hnil
    have hzero : (encoded []).length = 0 := rfl
    rw [if_pos hzero]
    exact ⟨rfl, .nil, rfl⟩
  have hne : ¬ (encoded source).length = 0 := by
    obtain ⟨unit, rest, rfl⟩ := List.exists_cons_of_ne_nil hnil
    obtain ⟨byte, tail, hencoded⟩ := encoded_eq_cons unit rest
    rw [hencoded]
    exact Nat.succ_ne_zero _
  rw [if_neg hne, if_neg (not_not.mpr rfl)]
  have hsame : Same SameState
      (MacroCompiler.compileTokens source (browserOptions timings) source.length ⟨[], 0, MacroCompiler.startPosition⟩)
      (v2CompileTokens (encoded source) timings (encoded source).length 0 ⟨some [], 0⟩) :=
    same_compileTokens hsource htimings source.length (encoded source).length
      ⟨[], 0, MacroCompiler.startPosition⟩ ⟨some [], 0⟩ .start hstart ⟨⟨[], rfl, .nil⟩, rfl, Nat.zero_le _⟩
      (Nat.le_add_left _ _) (Nat.le_add_left _ _)
  have hverdict := sameVerdict_tokens hsame fun plan hplan hcount => empty_plan_free htimings hplan hcount
  revert hverdict
  cases MacroCompiler.compileTokens source (browserOptions timings) source.length
    ⟨[], 0, MacroCompiler.startPosition⟩ <;>
  cases v2CompileTokens (encoded source) timings (encoded source).length 0 ⟨some [], 0⟩ <;>
  exact id

end Compile

section Differ

variable {directive : Units} {timings : MacroCompileOptions}

def bracedSource (directive : Units) : Units :=
  MacroCompiler.openBrace :: (directive ++ [MacroCompiler.closeBrace])

theorem drop_braced : (bracedSource directive).drop MacroCompiler.startPosition.index =
    MacroCompiler.openBrace :: (directive ++ MacroCompiler.closeBrace :: []) := rfl

theorem length_braced : (bracedSource directive).length = directive.length + 2 := by
  rw [bracedSource, List.length_cons, List.length_append, List.length_singleton]

/-- The browser's loop on one directive ends with its error, or that of the limits, or
accepts it. -/
theorem compileTokens_braced (hclose : MacroCompiler.closeBrace ∉ directive)
    (hopen : directive.head? ≠ some MacroCompiler.openBrace) (options : MacroCompiler.MacroCompileOptions) :
    MacroCompiler.compileTokens (bracedSource directive) options (bracedSource directive).length
      ⟨[], 0, MacroCompiler.startPosition⟩ =
    match checkedDirective directive MacroCompiler.startPosition with
    | .error failure => .error failure
    | .ok action =>
      (MacroCompiler.appendAction ⟨[], 0, MacroCompiler.startPosition⟩ action MacroCompiler.startPosition options).map
        fun state => { state with position := nextAscii MacroCompiler.startPosition (bracedSource directive) } := by
  have htoken : parseNextToken (bracedSource directive) MacroCompiler.startPosition =
      MacroCompiler.parseOpenBrace (bracedSource directive) MacroCompiler.startPosition := by
    rw [parseNextToken, MacroCompiler.parseTokenWith, At.getElem?_eq drop_braced]
    rfl
  have hpos : MacroCompiler.startPosition.index < (bracedSource directive).length := Nat.succ_pos _
  obtain ⟨fuel, hfuel⟩ := Nat.exists_eq_add_one_of_ne_zero (Nat.ne_of_gt hpos)
  conv_lhs => rw [hfuel, MacroCompiler.compileTokens, if_pos hpos, htoken, parseOpenBrace_directive drop_braced hclose hopen]
  cases checkedDirective directive MacroCompiler.startPosition with
  | error failure => rfl
  | ok action =>
    dsimp only [Except.map]
    cases MacroCompiler.appendAction ⟨[], 0, MacroCompiler.startPosition⟩ action MacroCompiler.startPosition options with
    | error failure => rfl
    | ok state =>
      refine compileTokens_end (le_of_eq ?_) fuel
      exact (Nat.zero_add _).symm

theorem v2CompileTokens_braced (hclose : MacroCompiler.closeBrace ∉ directive)
    (hopen : directive.head? ≠ some MacroCompiler.openBrace) {error : MacroParseError}
    (herror : v2ParseDirective (encoded (bracedSource directive)) 0 (encoded directive) = .error error) :
    v2CompileTokens (encoded (bracedSource directive)) timings (encoded (bracedSource directive)).length 0 ⟨some [], 0⟩ =
      .error error := by
  have hstart := at_startPosition (bracedSource directive)
  have hlt := hstart.lt_length drop_braced
  have hbyte := hstart.byteAt_of_cons drop_braced (by decide)
  have htoken : v2ParseNextToken (encoded (bracedSource directive)) 0 = .error error := by
    have hbrace := hstart.v2ParseOpenBrace_directive drop_braced hclose hopen
    have hzero : MacroCompiler.startPosition.index = 0 := rfl
    rw [hzero] at hbyte hbrace
    rw [herror] at hbrace
    rw [v2ParseNextToken, hbyte, v2ParseNonBracketToken, hbyte]
    exact hbrace
  obtain ⟨fuel, hfuel⟩ := Nat.exists_eq_add_one_of_ne_zero (Nat.ne_of_gt hlt)
  have hfirst : 0 < (encoded (bracedSource directive)).length := hlt
  conv_lhs => rw [hfuel, v2CompileTokens, if_pos hfirst, htoken]

theorem appendAction_code {state : CompileState} {action : MacroCompiler.MacroAction} {position : Position}
    {options : MacroCompiler.MacroCompileOptions} {failure : MacroCompileError}
    (h : MacroCompiler.appendAction state action position options = .error failure) : failure.code = .macroLimit := by
  unfold MacroCompiler.appendAction at h
  split_ifs at h
  · cases h
    rfl
  · cases h
    rfl

theorem not_sameVerdict_failed {compiled : Except MacroCompileError MacroCompiler.MacroCompiled} {error : MacroParseError}
    (hnone : error.code ≠ .none) (hcode : ∀ failure, compiled = .error failure → error.code ≠ failure.code.appError) :
    ¬ SameVerdict compiled (.failed error) := by
  intro h
  cases compiled with
  | ok compiled => exact hnone h.1
  | error failure => exact hcode failure rfl h.1

theorem not_sameVerdict_divergent (timings : MacroCompileOptions) (htimings : TimingsOk timings)
    (hdivergent : Divergent directive) (hclose : MacroCompiler.closeBrace ∉ directive)
    (hlength : directive.length + 2 ≤ Limits.macroSourceMaxBytes) :
    ¬ SameVerdict (MacroCompiler.compileMacro (bracedSource directive) (browserOptions timings))
      (macroCompileV2 true (encoded (bracedSource directive)) (some timings)) := by
  have hall := ((validDirectiveText_iff hclose).mp hdivergent.1).2
  have hopen : directive.head? ≠ some MacroCompiler.openBrace := fun hhead =>
    (hall _ (List.mem_of_mem_head? hhead)).2.2.1 rfl
  have hbytes : (encoded (bracedSource directive)).length = directive.length + 2 := by
    have hascii : ∀ unit ∈ bracedSource directive, unit < 0x80 := by
      intro unit hmem
      simp only [bracedSource, List.mem_cons, List.mem_append, List.not_mem_nil, or_false] at hmem
      rcases hmem with rfl | hmem | rfl
      · decide
      · exact (hall unit hmem).ascii
      · decide
    rw [encoded_of_ascii hascii, List.length_map, length_braced]
  have hvalid : ¬ (timings.keyPressMs > Limits.keyPressMaxMs ∨ timings.interKeyMs > Limits.interKeyMaxMs) :=
    not_or.mpr ⟨UInt32.not_lt.mpr htimings.1, UInt32.not_lt.mpr htimings.2⟩
  have hfits : ¬ Limits.macroSourceMaxBytes < (encoded (bracedSource directive)).length := by
    rw [hbytes]
    exact Nat.not_lt.mpr hlength
  obtain ⟨error, herror, hdiffer⟩ :=
    divergent_differ (bracedSource directive) MacroCompiler.startPosition 0 hclose hdivergent
  have hsent : macroCompileV2 true (encoded (bracedSource directive)) (some timings) = .failed error := by
    have hne : ¬ (encoded (bracedSource directive)).length = 0 := by
      rw [hbytes]
      exact Nat.succ_ne_zero _
    rw [macroCompileV2]
    dsimp only [Option.getD_some]
    rw [if_neg hvalid, if_neg hfits, if_neg hne, if_neg (not_not.mpr rfl), v2CompileTokens_braced hclose hopen herror]
  have hlimit : v2Limits.macroSourceMaxBytes = Limits.macroSourceMaxBytes := rfl
  rw [hsent, MacroCompiler.compileMacro, MacroCompiler.validateCompileInput, if_neg (mt invalidTimings_iff.mp hvalid),
    byteLength_eq, hlimit, if_neg hfits]
  dsimp only
  rw [compileTokens_braced hclose hopen]
  rcases hdiffer with ⟨hcode, hbrowser⟩ | ⟨hcode, failure, hbrowser, hsyntax⟩
  · refine not_sameVerdict_failed (by rw [hcode]; intro heq; cases heq) fun failure hfailure => ?_
    have hlimited : failure.code = .macroLimit := by
      cases hchecked : checkedDirective directive MacroCompiler.startPosition with
      | error failed =>
        rw [hchecked] at hfailure
        cases hfailure
        exact hbrowser _ hchecked
      | ok action =>
        rw [hchecked] at hfailure
        dsimp only at hfailure
        cases happend : MacroCompiler.appendAction ⟨[], 0, MacroCompiler.startPosition⟩ action
            MacroCompiler.startPosition (browserOptions timings) with
        | error failed =>
          rw [happend] at hfailure
          cases hfailure
          exact appendAction_code happend
        | ok state =>
          rw [happend] at hfailure
          cases hfailure
    rw [hcode, hlimited]
    intro heq
    cases heq
  · rw [hbrowser]
    refine not_sameVerdict_failed (by rw [hcode]; intro heq; cases heq) fun failed hfailed => ?_
    cases hfailed
    rw [hcode, hsyntax]
    intro heq
    cases heq

end Differ

end MacroKeyboard.Webapp
