import MacroKeyboard.Keymap

namespace MacroKeyboard

def macroActionUsagesMax : Nat := 6

inductive MacroActionType
  | key | chord | delay
deriving DecidableEq, Repr

/-- `usages` holds the first `usage_count` entries of the C array, so its
length is the count. -/
structure MacroAction where
  type : MacroActionType
  modifiers : UInt8
  usages : List UInt8
  delayMs : UInt32
deriving DecidableEq, Repr

/-- `actions` is `none` for a null pointer, and otherwise the first
`action_count` entries of the buffer. -/
structure MacroPlan where
  actions : Option (List MacroAction)
  estimatedDurationMs : UInt32
deriving DecidableEq, Repr

def MacroPlan.actionList (plan : MacroPlan) : List MacroAction := plan.actions.getD []

def MacroPlan.actionCount (plan : MacroPlan) : Nat := plan.actionList.length

structure MacroCompileOptions where
  keyPressMs : UInt32
  interKeyMs : UInt32
deriving DecidableEq, Repr

structure MacroParseError where
  code : AppError
  byteOffset : Nat
  line : Nat
  column : Nat
  message : String
deriving DecidableEq, Repr

/-- What one action adds to the estimate: a delay its own length, a key or a
chord one press and one pause. -/
def MacroAction.cost (options : MacroCompileOptions) (action : MacroAction) : Nat :=
  match action.type with
  | .delay => action.delayMs.toNat
  | .key | .chord => options.keyPressMs.toNat + options.interKeyMs.toNat

end MacroKeyboard
