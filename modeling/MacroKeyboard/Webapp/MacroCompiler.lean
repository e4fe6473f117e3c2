import MacroKeyboard.Webapp.RequestGuards

namespace MacroKeyboard.Webapp.MacroCompiler

open Json

def asciiTab : UInt16 := 0x09
def asciiLineFeed : UInt16 := 0x0a
def asciiCarriageReturn : UInt16 := 0x0d
def openBracket : UInt16 := 0x5b
def closeBracket : UInt16 := 0x5d
def openBrace : UInt16 := 0x7b
def closeBrace : UInt16 := 0x7d
def hidUsageEnter : UInt8 := 0x28
def hidUsageTab : UInt8 := 0x2b
def shift : UInt8 := 0x02
def macroActionUsagesMax : Nat := 6

section Actions

/-- The modifiers of a directive: a mask of the table, or the value of a property
that the table inherits as an object of the script. -/
inductive Modifiers
  | mask (bits : UInt8)
  | inherited
deriving DecidableEq, Repr

/-- The number that the bitwise operators make of it. A function or an object is no
number, so that they make zero of one. -/
def Modifiers.toInt32 : Modifiers → UInt8
  | .mask bits => bits
  | .inherited => 0

inductive MacroAction
  | key (usage : UInt8) (modifiers : Modifiers)
  | chord (usages : List UInt8) (modifiers : UInt8)
  | delay (durationMs : Nat)
deriving DecidableEq, Repr

inductive ErrorCode
  | invalidArgument | macroSyntax | macroLimit
deriving DecidableEq, Repr

structure MacroCompileError where
  code : ErrorCode
  byteOffset : Nat
  line : Nat
  column : Nat
  message : String
deriving DecidableEq, Repr

structure MacroCompileOptions where
  keyPressMs : ℚ
  interKeyMs : ℚ

structure KeyStroke where
  usage : UInt8
  modifiers : UInt8
deriving DecidableEq, Repr

structure Position where
  index : Nat
  byteOffset : Nat
  line : Nat
  column : Nat
deriving DecidableEq, Repr

structure ParsedToken where
  action : MacroAction
  next : Position
deriving DecidableEq, Repr

def startPosition : Position := ⟨0, 0, 1, 1⟩

end Actions

section Tables

def namedKeys : List (Units × UInt8) :=
  [ (property "ENTER", 0x28), (property "TAB", 0x2b), (property "ESC", 0x29), (property "BACKSPACE", 0x2a),
    (property "DELETE", 0x4c), (property "INSERT", 0x49), (property "HOME", 0x4a), (property "END", 0x4d),
    (property "PAGEUP", 0x4b), (property "PAGEDOWN", 0x4e), (property "UP", 0x52), (property "DOWN", 0x51),
    (property "LEFT", 0x50), (property "RIGHT", 0x4f), (property "SPACE", 0x2c), (property "F1", 0x3a),
    (property "F2", 0x3b), (property "F3", 0x3c), (property "F4", 0x3d), (property "F5", 0x3e),
    (property "F6", 0x3f), (property "F7", 0x40), (property "F8", 0x41), (property "F9", 0x42),
    (property "F10", 0x43), (property "F11", 0x44), (property "F12", 0x45) ]

def modifierBits : List (Units × UInt8) :=
  [(property "CTRL", 0x01), (property "SHIFT", 0x02), (property "ALT", 0x04), (property "GUI", 0x08)]

/-- The properties of `Object.prototype`, which every object literal inherits. -/
def inheritedProperties : List Units :=
  [ property "constructor", property "__proto__", property "__defineGetter__", property "__defineSetter__",
    property "__lookupGetter__", property "__lookupSetter__", property "hasOwnProperty",
    property "isPrototypeOf", property "propertyIsEnumerable", property "toLocaleString", property "toString",
    property "valueOf" ]

def punctuation : List (UInt16 × KeyStroke) :=
  [ -- space - _ = +
    (0x20, ⟨0x2c, 0⟩), (0x2d, ⟨0x2d, 0⟩), (0x5f, ⟨0x2d, shift⟩), (0x3d, ⟨0x2e, 0⟩), (0x2b, ⟨0x2e, shift⟩),
    -- [ { ] }
    (0x5b, ⟨0x2f, 0⟩), (0x7b, ⟨0x2f, shift⟩), (0x5d, ⟨0x30, 0⟩), (0x7d, ⟨0x30, shift⟩),
    -- \ | ; : and the two quotes
    (0x5c, ⟨0x31, 0⟩), (0x7c, ⟨0x31, shift⟩), (0x3b, ⟨0x33, 0⟩), (0x3a, ⟨0x33, shift⟩),
    (0x27, ⟨0x34, 0⟩), (0x22, ⟨0x34, shift⟩),
    -- grave and tilde, then , < . > / ?
    (0x60, ⟨0x35, 0⟩), (0x7e, ⟨0x35, shift⟩), (0x2c, ⟨0x36, 0⟩), (0x3c, ⟨0x36, shift⟩),
    (0x2e, ⟨0x37, 0⟩), (0x3e, ⟨0x37, shift⟩), (0x2f, ⟨0x38, 0⟩), (0x3f, ⟨0x38, shift⟩),
    -- ! @ # $ % ^ & * ( )
    (0x21, ⟨0x1e, shift⟩), (0x40, ⟨0x1f, shift⟩), (0x23, ⟨0x20, shift⟩), (0x24, ⟨0x21, shift⟩),
    (0x25, ⟨0x22, shift⟩), (0x5e, ⟨0x23, shift⟩), (0x26, ⟨0x24, shift⟩), (0x2a, ⟨0x25, shift⟩),
    (0x28, ⟨0x26, shift⟩), (0x29, ⟨0x27, shift⟩) ]

/-- The character is one code unit. No inherited property has a name of one. -/
def printableKey (code : UInt16) : Option KeyStroke :=
  if 0x61 ≤ code ∧ code ≤ 0x7a then some ⟨(0x04 + code - 0x61).toUInt8, 0⟩
  else if 0x41 ≤ code ∧ code ≤ 0x5a then some ⟨(0x04 + code - 0x41).toUInt8, shift⟩
  else if 0x31 ≤ code ∧ code ≤ 0x39 then some ⟨(0x1e + code - 0x31).toUInt8, 0⟩
  else if code = 0x30 then some ⟨0x27, 0⟩
  else punctuation.lookup code

/-- `modifierBits[directive]`, and `namedKeys[directive]` when that is undefined. -/
def namedDirectiveKey (directive : Units) : Option (UInt8 × Modifiers) :=
  match modifierBits.lookup directive with
  | some modifier => some (0, .mask modifier)
  | none =>
    if directive ∈ inheritedProperties then some (0, .inherited)
    else (namedKeys.lookup directive).map (·, .mask 0)

end Tables

section Tokens

def errorAt (position : Position) (code : ErrorCode) (message : String) : MacroCompileError :=
  ⟨code, position.byteOffset, position.line, position.column, message⟩

def nextAscii (position : Position) (consumed : Units) : Position :=
  ⟨position.index + consumed.length, position.byteOffset + consumed.length, position.line,
    position.column + consumed.length⟩

def nextLine (position : Position) (consumedLength : Nat) : Position :=
  ⟨position.index + consumedLength, position.byteOffset + consumedLength, position.line + 1, 1⟩

/-- `Number` of a string of digits. It is exact up to the largest safe integer, and
above it only compared with it. -/
def numberOfDigits (digits : Units) : Nat :=
  digits.foldl (fun value digit => value * 10 + (digit.toNat - 0x30)) 0

def delayPrefix : Units := property "DELAY:"

def parseDirective (directive : Units) (start : Position) : Except MacroCompileError MacroAction :=
  if delayPrefix.isPrefixOf directive then
    let rawValue := directive.drop delayPrefix.length
    if rawValue = [] ∨ ¬ rawValue.all isDigit then .error (errorAt start .macroSyntax "invalid delay directive")
    else
      let durationMs := numberOfDigits rawValue
      if maxSafeInteger < durationMs ∨ durationMs < 1 ∨ v2Limits.delayDirectiveMaxMs < durationMs then
        .error (errorAt start .macroLimit "delay is outside the allowed range")
      else .ok (.delay durationMs)
  else
    match namedDirectiveKey directive with
    | some (usage, modifiers) => .ok (.key usage modifiers)
    | none => .error (errorAt start .macroSyntax "unknown key directive")

/-- The characters of the class `\s`. -/
def isWhitespace (unit : UInt16) : Bool :=
  (0x09 ≤ unit && unit ≤ 0x0d) || unit == 0x20 || unit == 0xa0 || unit == 0x1680 ||
    (0x2000 ≤ unit && unit ≤ 0x200a) || unit == 0x2028 || unit == 0x2029 || unit == 0x202f ||
    unit == 0x205f || unit == 0x3000 || unit == 0xfeff

def validDirectiveText (directive : Units) : Bool :=
  !(directive.length == 0 || directive.contains openBrace || directive.any isWhitespace) &&
    directive.all (fun code => 0x21 ≤ code && code ≤ 0x7e)

def parseCarriageReturn (source : Units) (position : Position) : Except MacroCompileError ParsedToken :=
  if source[position.index + 1]? ≠ some asciiLineFeed then
    .error (errorAt position .macroSyntax "carriage return must be followed by line feed")
  else .ok ⟨.key hidUsageEnter (.mask 0), nextLine position 2⟩

def indexOf (source : Units) (unit : UInt16) (start : Nat) : Option Nat :=
  ((source.drop start).findIdx? (· == unit)).map (start + ·)

/-- `slice`, with `start` at most `stop`. -/
def slice (source : Units) (start stop : Nat) : Units := (source.drop start).take (stop - start)

def parseOpenBrace (source : Units) (position : Position) : Except MacroCompileError ParsedToken :=
  if source[position.index + 1]? = some openBrace then
    .ok ⟨.key 0x2f (.mask shift), nextAscii position [openBrace, openBrace]⟩
  else
    match indexOf source closeBrace (position.index + 1) with
    | none => .error (errorAt position .macroSyntax "unmatched opening brace")
    | some closing =>
      let directive := slice source (position.index + 1) closing
      if ¬ validDirectiveText directive then .error (errorAt position .macroSyntax "invalid directive")
      else
        match parseDirective directive position with
        | .error failure => .error failure
        | .ok action => .ok ⟨action, nextAscii position (slice source position.index (closing + 1))⟩

def parseCloseBrace (source : Units) (position : Position) : Except MacroCompileError ParsedToken :=
  if source[position.index + 1]? ≠ some closeBrace then
    .error (errorAt position .macroSyntax "unmatched closing brace")
  else .ok ⟨.key 0x30 (.mask shift), nextAscii position [closeBrace, closeBrace]⟩

structure GroupAccumulator where
  modifiers : UInt8
  usages : List UInt8
deriving DecidableEq, Repr

def actionUsages : MacroAction → List UInt8
  | .chord usages _ => usages
  | .key usage _ => if usage = 0 then [] else [usage]
  | .delay _ => []

/-- The modifiers of a key or a chord, as the bitwise operators take them. -/
def actionModifiers : MacroAction → UInt8
  | .chord _ modifiers => modifiers
  | .key _ modifiers => modifiers.toInt32
  | .delay _ => 0

/-- The loop of `mergeGroupMember` over the usages of the member. -/
def mergeUsages (position : Position) :
    List UInt8 → GroupAccumulator → Except MacroCompileError GroupAccumulator
  | [], accumulator => .ok accumulator
  | usage :: rest, accumulator =>
    if usage ∈ accumulator.usages then
      .error (errorAt position .macroSyntax "duplicate key in a simultaneous-key group")
    else if macroActionUsagesMax ≤ accumulator.usages.length then
      .error (errorAt position .macroLimit "simultaneous-key group exceeds the 6-key limit")
    else mergeUsages position rest { accumulator with usages := accumulator.usages ++ [usage] }

def mergeGroupMember (accumulator : GroupAccumulator) (action : MacroAction) (position : Position) :
    Except MacroCompileError GroupAccumulator :=
  if accumulator.modifiers &&& actionModifiers action ≠ 0 then
    .error (errorAt position .macroSyntax "duplicate modifier in a simultaneous-key group")
  else
    mergeUsages position (actionUsages action)
      { accumulator with modifiers := accumulator.modifiers ||| actionModifiers action }

/-- The content of a group, scanned from a position to the end of the group, with
the position of its opening bracket. -/
abbrev GroupScan : Type := Position → Position → Except MacroCompileError (GroupAccumulator × Position)

def parseOpenBracket (scanGroupContent : GroupScan) (source : Units) (position : Position) :
    Except MacroCompileError ParsedToken :=
  if source[position.index + 1]? = some openBracket then
    .ok ⟨.key 0x2f (.mask 0), nextAscii position [openBracket, openBracket]⟩
  else
    match scanGroupContent (nextAscii position [openBracket]) position with
    | .error failure => .error failure
    | .ok (accumulator, next) => .ok ⟨.chord accumulator.usages accumulator.modifiers, next⟩

def parseCloseBracket (source : Units) (position : Position) : Except MacroCompileError ParsedToken :=
  if source[position.index + 1]? = some closeBracket then
    .ok ⟨.key 0x30 (.mask 0), nextAscii position [closeBracket, closeBracket]⟩
  else .error (errorAt position .macroSyntax "unmatched closing bracket")

def parsePrintable (character : UInt16) (position : Position) : Except MacroCompileError ParsedToken :=
  match printableKey character with
  | none => .error (errorAt position .macroSyntax "source contains unsupported character")
  | some key =>
    if character < 0x20 ∨ 0x7e < character then
      .error (errorAt position .macroSyntax "source contains unsupported character")
    else .ok ⟨.key key.usage (.mask key.modifiers), nextAscii position [character]⟩

/-- `parseNextToken`, over the scan of a group. -/
def parseTokenWith (scanGroupContent : GroupScan) (source : Units) (position : Position) :
    Except MacroCompileError ParsedToken :=
  match source[position.index]? with
  | none => .error (errorAt position .macroSyntax "invalid source position")
  | some character =>
    if character = asciiCarriageReturn then parseCarriageReturn source position
    else if character = asciiLineFeed then .ok ⟨.key hidUsageEnter (.mask 0), nextLine position 1⟩
    else if character = asciiTab then .ok ⟨.key hidUsageTab (.mask 0), nextAscii position [character]⟩
    else if character = openBrace then parseOpenBrace source position
    else if character = closeBrace then parseCloseBrace source position
    else if character = openBracket then parseOpenBracket scanGroupContent source position
    else if character = closeBracket then parseCloseBracket source position
    else parsePrintable character position

/-- The loop of `scanGroupContent`. Every token takes a character, so that
`source.length` rounds reach the end of the source. -/
def scanGroupLoop (source : Units) :
    Nat → GroupAccumulator → Position → Position → Except MacroCompileError (GroupAccumulator × Position)
  | 0, _, _, groupStart => .error (errorAt groupStart .macroSyntax "unmatched opening bracket")
  | fuel + 1, accumulator, position, groupStart =>
    match source[position.index]? with
    | none => .error (errorAt groupStart .macroSyntax "unmatched opening bracket")
    | some character =>
      let doubled := source[position.index + 1]? = some character
      if character = closeBracket ∧ ¬ doubled then
        if accumulator.usages.length = 0 ∧ accumulator.modifiers = 0 then
          .error (errorAt groupStart .macroSyntax "empty simultaneous-key group")
        else .ok (accumulator, nextAscii position [closeBracket])
      else if character = openBracket ∧ ¬ doubled then
        .error (errorAt position .macroSyntax "simultaneous-key groups do not nest")
      else
        match parseTokenWith (scanGroupLoop source fuel ⟨0, []⟩) source position with
        | .error failure => .error failure
        | .ok ⟨.delay _, _⟩ =>
          .error (errorAt position .macroSyntax "a delay is not permitted inside a simultaneous-key group")
        | .ok ⟨action, next⟩ =>
          match mergeGroupMember accumulator action position with
          | .error failure => .error failure
          | .ok accumulator => scanGroupLoop source fuel accumulator next groupStart

def scanGroupContent (source : Units) : GroupScan := scanGroupLoop source source.length ⟨0, []⟩

def parseNextToken (source : Units) (position : Position) : Except MacroCompileError ParsedToken :=
  parseTokenWith (scanGroupContent source) source position

end Tokens

section Compile

structure CompileState where
  actions : List MacroAction
  estimatedDurationMs : ℚ
  position : Position

/-- The time that `appendAction` adds for an action. -/
def addedDuration (options : MacroCompileOptions) : MacroAction → ℚ
  | .delay durationMs => durationMs
  | _ => options.keyPressMs + options.interKeyMs

def appendAction (state : CompileState) (action : MacroAction) (actionPosition : Position)
    (options : MacroCompileOptions) : Except MacroCompileError CompileState :=
  if v2Limits.compiledActionsMax ≤ state.actions.length then
    .error (errorAt actionPosition .macroLimit "action limit exceeded")
  else if v2Limits.estimatedDurationMaxMs < state.estimatedDurationMs + addedDuration options action then
    .error (errorAt actionPosition .macroLimit "estimated duration limit exceeded")
  else
    .ok { state with actions := state.actions ++ [action],
                     estimatedDurationMs := state.estimatedDurationMs + addedDuration options action }

/-- The token loop of `compileMacro`; every token takes a character. -/
def compileTokens (source : Units) (options : MacroCompileOptions) :
    Nat → CompileState → Except MacroCompileError CompileState
  | 0, state => .ok state
  | fuel + 1, state =>
    if state.position.index < source.length then
      match parseNextToken source state.position with
      | .error failure => .error failure
      | .ok parsed =>
        match appendAction state parsed.action state.position options with
        | .error failure => .error failure
        | .ok state => compileTokens source options fuel { state with position := parsed.next }
    else .ok state

def validTiming (value : ℚ) : Bool := isBoundedInteger (.number value) 0 v2Limits.keyPressMaxMs

def validateCompileInput (source : Units) (options : MacroCompileOptions) : Except MacroCompileError Unit :=
  if ¬ validTiming options.keyPressMs ∨ ¬ validTiming options.interKeyMs then
    .error (errorAt startPosition .invalidArgument "invalid macro timing")
  else if v2Limits.macroSourceMaxBytes < byteLength source then
    .error (errorAt startPosition .macroLimit "macro source exceeds the byte limit")
  else .ok ()

structure MacroCompiled where
  actions : List MacroAction
  estimatedDurationMs : ℚ

def compileMacro (source : Units) (options : MacroCompileOptions) : Except MacroCompileError MacroCompiled :=
  match validateCompileInput source options with
  | .error failure => .error failure
  | .ok () =>
    match compileTokens source options source.length ⟨[], 0, startPosition⟩ with
    | .error failure => .error failure
    | .ok state => .ok ⟨state.actions, state.estimatedDurationMs⟩

end Compile

end MacroKeyboard.Webapp.MacroCompiler
