import MacroKeyboard.MacroPlan

namespace MacroKeyboard.FirmwareCompiler

open Keymap

def asciiTab : UInt8 := 0x09
def asciiLineFeed : UInt8 := 0x0a
def asciiCarriageReturn : UInt8 := 0x0d
def asciiSpace : UInt8 := 0x20
def openBracket : UInt8 := 0x5b
def closeBracket : UInt8 := 0x5d
def openBrace : UInt8 := 0x7b
def closeBrace : UInt8 := 0x7d
def asciiTilde : UInt8 := 0x7e
def asciiDelete : UInt8 := 0x7f
def hidUsageEnter : UInt8 := 0x28
def hidUsageTab : UInt8 := 0x2b
def directiveBufferBytes : Nat := 64
def uint32Max : UInt32 := 0xffffffff

structure SourcePosition where
  line : Nat
  column : Nat
deriving DecidableEq, Repr

def SourcePosition.advance (position : SourcePosition) (byte : UInt8) : SourcePosition :=
  if byte = asciiLineFeed then ⟨position.line + 1, 1⟩ else ⟨position.line, position.column + 1⟩

def v2Locate (source : List UInt8) (offset : Nat) : SourcePosition :=
  (source.take offset).foldl SourcePosition.advance ⟨1, 1⟩

def v2Fail (source : List UInt8) (offset : Nat) (message : String) (code : AppError) :
    MacroParseError :=
  let position := v2Locate source offset
  ⟨code, offset, position.line, position.column, message⟩

/-- `UINT32_MAX - left` cannot go below zero, so the difference is taken in `Nat`. -/
def v2SafeAddU32 (left right : UInt32) : Option UInt32 :=
  if uint32Max.toNat - left.toNat < right.toNat then none else some (left + right)

def v2ActionDuration (options : MacroCompileOptions) (action : MacroAction) : Option UInt32 :=
  if action.type = .delay then some action.delayMs
  else v2SafeAddU32 options.keyPressMs options.interKeyMs

def v2AppendAction (plan : MacroPlan) (action : MacroAction) (options : MacroCompileOptions)
    (source : List UInt8) (offset : Nat) : Except MacroParseError MacroPlan :=
  if plan.actionCount ≥ Limits.compiledActionsMax then
    .error (v2Fail source offset "action limit exceeded" .macroLimit)
  else
    match v2ActionDuration options action with
    | none => .error (v2Fail source offset "action duration overflow" .macroLimit)
    | some actionDuration =>
      match v2SafeAddU32 plan.estimatedDurationMs actionDuration with
      | none => .error (v2Fail source offset "estimated duration limit exceeded" .macroLimit)
      | some totalDuration =>
        if totalDuration > Limits.estimatedDurationMaxMs then
          .error (v2Fail source offset "estimated duration limit exceeded" .macroLimit)
        else .ok ⟨plan.actions.map (· ++ [action]), totalDuration⟩

def v2DirectiveHasInvalidCharacter (text : List UInt8) : Bool :=
  text.any (fun value =>
    value ≤ asciiSpace || asciiDelete ≤ value || value == openBrace || value == closeBrace)

/-- A usage of 0 is a standalone modifier tap: the action then carries the
modifier bit alone. -/
def v2KeyAction (key : HidKey) : MacroAction :=
  ⟨.key, key.modifiers, if key.usage ≠ 0 then [key.usage] else [], 0⟩

def delayPrefix : List UInt8 := bytes "DELAY:"

def v2DelayDigits : List UInt8 → UInt32 → Except AppError UInt32
  | [], value => .ok value
  | character :: rest, value =>
    if character < 0x30 ∨ 0x39 < character then .error .macroSyntax
    else
      let digit := (character - 0x30).toUInt32
      if value > (uint32Max - digit) / 10 then .error .macroLimit
      else v2DelayDigits rest (value * 10 + digit)

def v2ParseDelay (directive : List UInt8) : Except AppError MacroAction :=
  if directive.length ≤ delayPrefix.length ∨ directive.take delayPrefix.length ≠ delayPrefix then
    .error .macroSyntax
  else
    match v2DelayDigits (directive.drop delayPrefix.length) 0 with
    | .error code => .error code
    | .ok value =>
      if value = 0 ∨ value > Limits.delayDirectiveMaxMs then .error .macroLimit
      else .ok ⟨.delay, 0, [], value⟩

def v2ParseDirective (source : List UInt8) (offset : Nat) (directive : List UInt8) :
    Except MacroParseError MacroAction :=
  if directive.length = 0 ∨ directive.length ≥ directiveBufferBytes ∨
      v2DirectiveHasInvalidCharacter directive then
    .error (v2Fail source offset "invalid directive" .macroSyntax)
  else if directive.take delayPrefix.length = delayPrefix then
    match v2ParseDelay directive with
    | .error .macroLimit =>
      .error (v2Fail source offset "delay is outside the allowed range" .macroLimit)
    | .error code => .error (v2Fail source offset "invalid delay directive" code)
    | .ok action => .ok action
  else
    match macroKeymapUsV2NamedDirective directive with
    | none => .error (v2Fail source offset "unknown key directive" .macroSyntax)
    | some key => .ok (v2KeyAction key)

structure GroupAccumulator where
  modifiers : UInt8
  usages : List UInt8
deriving DecidableEq, Repr

/-- The inner loop of `v2_merge_group_member`, over the member's usages. -/
def v2MergeUsages (source : List UInt8) (offset : Nat) :
    List UInt8 → GroupAccumulator → Except MacroParseError GroupAccumulator
  | [], accumulator => .ok accumulator
  | usage :: rest, accumulator =>
    if usage ∈ accumulator.usages then
      .error (v2Fail source offset "duplicate key in a simultaneous-key group" .macroSyntax)
    else if accumulator.usages.length ≥ macroActionUsagesMax then
      .error (v2Fail source offset "simultaneous-key group exceeds the 6-key limit" .macroLimit)
    else v2MergeUsages source offset rest
      { accumulator with usages := accumulator.usages ++ [usage] }

def v2MergeGroupMember (accumulator : GroupAccumulator) (memberModifiers : UInt8)
    (memberUsages : List UInt8) (source : List UInt8) (offset : Nat) :
    Except MacroParseError GroupAccumulator :=
  if accumulator.modifiers &&& memberModifiers ≠ 0 then
    .error (v2Fail source offset "duplicate modifier in a simultaneous-key group" .macroSyntax)
  else v2MergeUsages source offset memberUsages
    { accumulator with modifiers := accumulator.modifiers ||| memberModifiers }

def v2MergeLiteralBracket (bracket : UInt8) (accumulator : GroupAccumulator)
    (source : List UInt8) (offset : Nat) : Except MacroParseError GroupAccumulator :=
  match macroKeymapUsPrintable bracket with
  | none => .error (v2Fail source offset "source contains unsupported character" .macroSyntax)
  | some key =>
    let literal := v2KeyAction key
    v2MergeGroupMember accumulator literal.modifiers literal.usages source offset

/-- A parsed token: its action and the number of bytes it takes. -/
structure Token where
  action : MacroAction
  consumed : Nat
deriving DecidableEq, Repr

/-- `source[offset]`; the callers keep `offset` below the source length. -/
def byteAt (source : List UInt8) (offset : Nat) : UInt8 := source.getD offset 0

/-- `offset + 1 < source_length && source[offset + 1] == byte`. -/
def followedBy (source : List UInt8) (offset : Nat) (byte : UInt8) : Prop :=
  offset + 1 < source.length ∧ byteAt source (offset + 1) = byte

instance (source : List UInt8) (offset : Nat) (byte : UInt8) :
    Decidable (followedBy source offset byte) :=
  inferInstanceAs (Decidable (_ ∧ _))

/-- The doubled-delimiter escape shared by the four bracket parsers. -/
def v2ParseEscape (bracket : UInt8) (source : List UInt8) (offset : Nat) :
    Except MacroParseError Token :=
  match macroKeymapUsPrintable bracket with
  | none => .error (v2Fail source offset "source contains unsupported character" .macroSyntax)
  | some key => .ok ⟨v2KeyAction key, 2⟩

/-- `memchr` over the bytes from `start` on, as an offset into `source`. -/
def memchrFrom (source : List UInt8) (start : Nat) (byte : UInt8) : Option Nat :=
  ((source.drop start).findIdx? (· == byte)).map (start + ·)

def v2ParseOpenBrace (source : List UInt8) (offset : Nat) : Except MacroParseError Token :=
  if followedBy source offset openBrace then v2ParseEscape openBrace source offset
  else
    match memchrFrom source (offset + 1) closeBrace with
    | none => .error (v2Fail source offset "unmatched opening brace" .macroSyntax)
    | some closingOffset =>
      match v2ParseDirective source offset
          ((source.drop (offset + 1)).take (closingOffset - offset - 1)) with
      | .error error => .error error
      | .ok action => .ok ⟨action, closingOffset + 1 - offset⟩

def v2ParseCloseBrace (source : List UInt8) (offset : Nat) : Except MacroParseError Token :=
  if followedBy source offset closeBrace then v2ParseEscape closeBrace source offset
  else .error (v2Fail source offset "unmatched closing brace" .macroSyntax)

def v2ParsePrintable (source : List UInt8) (offset : Nat) : Except MacroParseError Token :=
  match macroKeymapUsPrintable (byteAt source offset) with
  | none => .error (v2Fail source offset "source contains unsupported character" .macroSyntax)
  | some key => .ok ⟨v2KeyAction key, 1⟩

/-- Every token except the two square brackets. -/
def v2ParseNonBracketToken (source : List UInt8) (offset : Nat) :
    Except MacroParseError Token :=
  let byte := byteAt source offset
  if 0x80 ≤ byte ∨ byte = 0 then
    .error (v2Fail source offset "source contains unsupported character" .macroSyntax)
  else if byte = asciiCarriageReturn then
    if followedBy source offset asciiLineFeed then .ok ⟨v2KeyAction ⟨0, hidUsageEnter⟩, 2⟩
    else
      .error (v2Fail source offset "carriage return must be followed by line feed" .macroSyntax)
  else if byte = asciiLineFeed then .ok ⟨v2KeyAction ⟨0, hidUsageEnter⟩, 1⟩
  else if byte = asciiTab then .ok ⟨v2KeyAction ⟨0, hidUsageTab⟩, 1⟩
  else if byte = openBrace then v2ParseOpenBrace source offset
  else if byte = closeBrace then v2ParseCloseBrace source offset
  else if byte < asciiSpace ∨ asciiTilde < byte then
    .error (v2Fail source offset "source contains unsupported character" .macroSyntax)
  else v2ParsePrintable source offset

inductive GroupStep
  | more (accumulator : GroupAccumulator) (consumed : Nat)
  | done
deriving DecidableEq, Repr

/-- One position inside a `[...]` group whose opening bracket is at
`bracketOffset`. -/
def v2ScanGroupStep (source : List UInt8) (bracketOffset offset : Nat) (out : GroupAccumulator) :
    Except MacroParseError GroupStep :=
  let byte := byteAt source offset
  let doubled := followedBy source offset byte
  if byte = closeBracket then
    if doubled then
      (v2MergeLiteralBracket closeBracket out source offset).map (GroupStep.more · 2)
    else if out.usages.length = 0 ∧ out.modifiers = 0 then
      .error (v2Fail source bracketOffset "empty simultaneous-key group" .macroSyntax)
    else .ok .done
  else if byte = openBracket then
    if ¬ doubled then
      .error (v2Fail source offset "simultaneous-key groups do not nest" .macroSyntax)
    else (v2MergeLiteralBracket openBracket out source offset).map (GroupStep.more · 2)
  else
    match v2ParseNonBracketToken source offset with
    | .error error => .error error
    | .ok member =>
      if member.action.type = .delay then
        .error (v2Fail source offset "a delay is not permitted inside a simultaneous-key group"
          .macroSyntax)
      else
        (v2MergeGroupMember out member.action.modifiers member.action.usages source offset).map
          (GroupStep.more · member.consumed)

/-- The `while (true)` of `v2_scan_group_content`. Every step consumes a byte,
so `source.length` rounds reach the end of the source and the fuel never runs out. -/
def v2ScanGroupContent (source : List UInt8) (bracketOffset : Nat) :
    Nat → Nat → GroupAccumulator → Except MacroParseError (GroupAccumulator × Nat)
  | 0, _, _ => .error (v2Fail source bracketOffset "unmatched opening bracket" .macroSyntax)
  | fuel + 1, offset, out =>
    if offset ≥ source.length then
      .error (v2Fail source bracketOffset "unmatched opening bracket" .macroSyntax)
    else
      match v2ScanGroupStep source bracketOffset offset out with
      | .error error => .error error
      | .ok .done => .ok (out, offset + 1)
      | .ok (.more out consumed) =>
        v2ScanGroupContent source bracketOffset fuel (offset + consumed) out

def v2ParseOpenBracket (source : List UInt8) (offset : Nat) : Except MacroParseError Token :=
  if followedBy source offset openBracket then v2ParseEscape openBracket source offset
  else
    match v2ScanGroupContent source offset source.length (offset + 1) ⟨0, []⟩ with
    | .error error => .error error
    | .ok (accumulator, groupEnd) =>
      .ok ⟨⟨.chord, accumulator.modifiers, accumulator.usages, 0⟩, groupEnd - offset⟩

def v2ParseCloseBracket (source : List UInt8) (offset : Nat) : Except MacroParseError Token :=
  if followedBy source offset closeBracket then v2ParseEscape closeBracket source offset
  else .error (v2Fail source offset "unmatched closing bracket" .macroSyntax)

def v2ParseNextToken (source : List UInt8) (offset : Nat) : Except MacroParseError Token :=
  if byteAt source offset = openBracket then v2ParseOpenBracket source offset
  else if byteAt source offset = closeBracket then v2ParseCloseBracket source offset
  else v2ParseNonBracketToken source offset

/-- The token loop of `macro_compile_v2`; every token consumes a byte, so
`source.length` rounds are enough. -/
def v2CompileTokens (source : List UInt8) (options : MacroCompileOptions) :
    Nat → Nat → MacroPlan → Except MacroParseError MacroPlan
  | 0, _, working => .ok working
  | fuel + 1, offset, working =>
    if offset < source.length then
      match v2ParseNextToken source offset with
      | .error error => .error error
      | .ok token =>
        match v2AppendAction working token.action options source offset with
        | .error error => .error error
        | .ok working => v2CompileTokens source options fuel (offset + token.consumed) working
    else .ok working

/-- The result code, the two output structures and the heap blocks the call
leaves allocated. -/
structure CompileOutcome where
  result : AppError
  outPlan : MacroPlan
  outError : MacroParseError
  blocksHeld : Nat
deriving DecidableEq, Repr

def clearedPlan : MacroPlan := ⟨none, 0⟩
def clearedError : MacroParseError := ⟨.none, 0, 0, 0, ""⟩
def defaultOptions : MacroCompileOptions := ⟨8, 15⟩

def CompileOutcome.failed (error : MacroParseError) : CompileOutcome :=
  ⟨error.code, clearedPlan, error, 0⟩

/-- `callocOk` is the answer of the one allocation. The shrinking `realloc`
keeps the block and its contents whether it succeeds or not. -/
def macroCompileV2 (callocOk : Bool) (source : List UInt8)
    (options : Option MacroCompileOptions) : CompileOutcome :=
  let effective := options.getD defaultOptions
  if effective.keyPressMs > Limits.keyPressMaxMs ∨ effective.interKeyMs > Limits.interKeyMaxMs then
    .failed (v2Fail source 0 "invalid macro timing" .invalidArgument)
  else if source.length > Limits.macroSourceMaxBytes then
    .failed (v2Fail source 0 "macro source exceeds the byte limit" .macroLimit)
  else if source.length = 0 then ⟨.none, clearedPlan, clearedError, 0⟩
  else if ¬ callocOk then ⟨.internal, clearedPlan, clearedError, 0⟩
  else
    match v2CompileTokens source effective source.length 0 ⟨some [], 0⟩ with
    | .error error => .failed error
    | .ok working =>
      if working.actionCount = 0 then ⟨.none, clearedPlan, clearedError, 0⟩
      else ⟨.none, working, clearedError, 1⟩

end MacroKeyboard.FirmwareCompiler
