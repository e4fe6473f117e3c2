import MacroKeyboard.FirmwareCompiler

namespace MacroKeyboard.ParseErrors

open Keymap FirmwareCompiler

/-- An error of the scanner: a syntax or a limit error whose line and column
are those of its byte offset. -/
def Located (source : List UInt8) (error : MacroParseError) : Prop :=
  (error.code = .macroSyntax ∨ error.code = .macroLimit) ∧
    ∃ message, error = v2Fail source error.byteOffset message error.code

def FailsLocated {α : Type} (source : List UInt8) (result : Except MacroParseError α) : Prop :=
  ∀ error, result = .error error → Located source error

section Rules

variable {α β : Type} {source : List UInt8}

theorem failsLocated_ok {a : α} : FailsLocated source (.ok a : Except MacroParseError α) := nofun

theorem failsLocated_syntax {offset : Nat} {message : String} :
    FailsLocated source (.error (v2Fail source offset message .macroSyntax) : Except _ α) := by
  rintro _ ⟨⟩
  exact ⟨Or.inl rfl, message, rfl⟩

theorem failsLocated_limit {offset : Nat} {message : String} :
    FailsLocated source (.error (v2Fail source offset message .macroLimit) : Except _ α) := by
  rintro _ ⟨⟩
  exact ⟨Or.inr rfl, message, rfl⟩

theorem failsLocated_error {result : Except MacroParseError α} {error : MacroParseError}
    (hresult : FailsLocated source result) (h : result = .error error) :
    FailsLocated source (.error error : Except _ β) := by
  rintro _ ⟨⟩
  exact hresult error h

theorem failsLocated_map {result : Except MacroParseError α} (f : α → β)
    (h : FailsLocated source result) : FailsLocated source (result.map f) := by
  cases result with
  | error error => exact failsLocated_error h rfl
  | ok a => exact failsLocated_ok

end Rules

variable {source : List UInt8} {offset : Nat}

theorem delayDigits_error {digits : List UInt8} :
    ∀ {value code}, v2DelayDigits digits value = .error code →
    code = .macroSyntax ∨ code = .macroLimit := by
  induction digits with
  | nil => nofun
  | cons character rest ih =>
    intro value code h
    simp only [v2DelayDigits] at h
    split_ifs at h
    · cases h; exact Or.inl rfl
    · cases h; exact Or.inr rfl
    · exact ih h

theorem parseDelay_error {directive : List UInt8} {code : AppError}
    (h : v2ParseDelay directive = .error code) : code = .macroSyntax ∨ code = .macroLimit := by
  unfold v2ParseDelay at h
  split_ifs at h
  · cases h; exact Or.inl rfl
  · split at h
    · next hdigits =>
      cases h
      exact delayDigits_error hdigits
    · split_ifs at h
      cases h
      exact Or.inr rfl

theorem parseDirective_fails {directive : List UInt8} :
    FailsLocated source (v2ParseDirective source offset directive) := by
  unfold v2ParseDirective
  split_ifs
  · exact failsLocated_syntax
  · split
    · exact failsLocated_limit
    · next code hne hdelay =>
      rcases parseDelay_error hdelay with rfl | rfl
      · exact failsLocated_syntax
      · contradiction
    · exact failsLocated_ok
  · split
    · exact failsLocated_syntax
    · exact failsLocated_ok

theorem parseEscape_fails {bracket : UInt8} :
    FailsLocated source (v2ParseEscape bracket source offset) := by
  unfold v2ParseEscape
  split
  · exact failsLocated_syntax
  · exact failsLocated_ok

theorem parseOpenBrace_fails : FailsLocated source (v2ParseOpenBrace source offset) := by
  unfold v2ParseOpenBrace
  split_ifs
  · exact parseEscape_fails
  · split
    · exact failsLocated_syntax
    · split
      · next h => exact failsLocated_error parseDirective_fails h
      · exact failsLocated_ok

theorem parseCloseBrace_fails : FailsLocated source (v2ParseCloseBrace source offset) := by
  unfold v2ParseCloseBrace
  split_ifs
  · exact parseEscape_fails
  · exact failsLocated_syntax

theorem parsePrintable_fails : FailsLocated source (v2ParsePrintable source offset) := by
  unfold v2ParsePrintable
  split
  · exact failsLocated_syntax
  · exact failsLocated_ok

theorem parseNonBracketToken_fails :
    FailsLocated source (v2ParseNonBracketToken source offset) := by
  unfold v2ParseNonBracketToken
  dsimp only
  split_ifs
  · exact failsLocated_syntax
  · exact failsLocated_ok
  · exact failsLocated_syntax
  · exact failsLocated_ok
  · exact failsLocated_ok
  · exact parseOpenBrace_fails
  · exact parseCloseBrace_fails
  · exact failsLocated_syntax
  · exact parsePrintable_fails

theorem mergeUsages_fails {usages : List UInt8} :
    ∀ {out}, FailsLocated source (v2MergeUsages source offset usages out) := by
  induction usages with
  | nil => exact failsLocated_ok
  | cons usage rest ih =>
    intro out
    unfold v2MergeUsages
    split_ifs
    · exact failsLocated_syntax
    · exact failsLocated_limit
    · exact ih

theorem mergeGroupMember_fails {out : GroupAccumulator} {modifiers : UInt8} {usages : List UInt8} :
    FailsLocated source (v2MergeGroupMember out modifiers usages source offset) := by
  unfold v2MergeGroupMember
  split_ifs
  · exact failsLocated_syntax
  · exact mergeUsages_fails

theorem mergeLiteralBracket_fails {bracket : UInt8} {out : GroupAccumulator} :
    FailsLocated source (v2MergeLiteralBracket bracket out source offset) := by
  unfold v2MergeLiteralBracket
  split
  · exact failsLocated_syntax
  · exact mergeGroupMember_fails

theorem scanGroupStep_fails {bracketOffset : Nat} {out : GroupAccumulator} :
    FailsLocated source (v2ScanGroupStep source bracketOffset offset out) := by
  unfold v2ScanGroupStep
  dsimp only
  split_ifs
  · exact failsLocated_map _ mergeLiteralBracket_fails
  · exact failsLocated_syntax
  · exact failsLocated_ok
  · exact failsLocated_map _ mergeLiteralBracket_fails
  · exact failsLocated_syntax
  · split
    · next h => exact failsLocated_error parseNonBracketToken_fails h
    · split_ifs
      · exact failsLocated_syntax
      · exact failsLocated_map _ mergeGroupMember_fails

theorem scanGroupContent_fails {bracketOffset fuel : Nat} :
    ∀ {offset out}, FailsLocated source (v2ScanGroupContent source bracketOffset fuel offset out) := by
  induction fuel with
  | zero => exact failsLocated_syntax
  | succ fuel ih =>
    intro offset out
    unfold v2ScanGroupContent
    split_ifs
    · exact failsLocated_syntax
    · split
      · next h => exact failsLocated_error scanGroupStep_fails h
      · exact failsLocated_ok
      · exact ih

theorem parseNextToken_fails : FailsLocated source (v2ParseNextToken source offset) := by
  unfold v2ParseNextToken v2ParseOpenBracket v2ParseCloseBracket
  split_ifs
  · exact parseEscape_fails
  · split
    · next h => exact failsLocated_error scanGroupContent_fails h
    · exact failsLocated_ok
  · exact parseEscape_fails
  · exact failsLocated_syntax
  · exact parseNonBracketToken_fails

theorem appendAction_fails {plan : MacroPlan} {action : MacroAction}
    {options : MacroCompileOptions} :
    FailsLocated source (v2AppendAction plan action options source offset) := by
  unfold v2AppendAction
  split_ifs
  · exact failsLocated_limit
  · cases v2ActionDuration options action with
    | none => exact failsLocated_limit
    | some duration =>
      dsimp only
      generalize v2SafeAddU32 plan.estimatedDurationMs duration = total
      cases total with
      | none => exact failsLocated_limit
      | some total =>
        dsimp only
        split_ifs
        · exact failsLocated_limit
        · exact failsLocated_ok

theorem compileTokens_fails {options : MacroCompileOptions} {fuel : Nat} :
    ∀ {offset working}, FailsLocated source (v2CompileTokens source options fuel offset working) := by
  induction fuel with
  | zero => exact failsLocated_ok
  | succ fuel ih =>
    intro offset working
    unfold v2CompileTokens
    split_ifs
    · split
      · next h => exact failsLocated_error parseNextToken_fails h
      · split
        · next h => exact failsLocated_error appendAction_fails h
        · exact ih
    · exact failsLocated_ok

end MacroKeyboard.ParseErrors
