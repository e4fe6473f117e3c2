import MacroKeyboard.Limits

namespace MacroKeyboard.Keymap

/-- One key stroke of the boot keyboard report: a modifier mask and a usage. -/
structure HidKey where
  modifiers : UInt8
  usage : UInt8
deriving DecidableEq, Repr, Inhabited

def modLeftCtrl : UInt8 := 0x01
def modLeftShift : UInt8 := 0x02
def modLeftAlt : UInt8 := 0x04
def modLeftGui : UInt8 := 0x08

/-- The `switch` of `macro_keymap_us_printable`, one row per character code. -/
def punctuationKeys : List (UInt8 × HidKey) :=
  [ -- space - _ = +
    (0x20, ⟨0, 0x2c⟩), (0x2d, ⟨0, 0x2d⟩), (0x5f, ⟨modLeftShift, 0x2d⟩),
    (0x3d, ⟨0, 0x2e⟩), (0x2b, ⟨modLeftShift, 0x2e⟩),
    -- the four brackets, square before curly
    (0x5b, ⟨0, 0x2f⟩), (0x7b, ⟨modLeftShift, 0x2f⟩),
    (0x5d, ⟨0, 0x30⟩), (0x7d, ⟨modLeftShift, 0x30⟩),
    -- backslash, bar, semicolon, colon, the two quotes, grave, tilde
    (0x5c, ⟨0, 0x31⟩), (0x7c, ⟨modLeftShift, 0x31⟩),
    (0x3b, ⟨0, 0x33⟩), (0x3a, ⟨modLeftShift, 0x33⟩),
    (0x27, ⟨0, 0x34⟩), (0x22, ⟨modLeftShift, 0x34⟩),
    (0x60, ⟨0, 0x35⟩), (0x7e, ⟨modLeftShift, 0x35⟩),
    -- , < . > / ?
    (0x2c, ⟨0, 0x36⟩), (0x3c, ⟨modLeftShift, 0x36⟩),
    (0x2e, ⟨0, 0x37⟩), (0x3e, ⟨modLeftShift, 0x37⟩),
    (0x2f, ⟨0, 0x38⟩), (0x3f, ⟨modLeftShift, 0x38⟩),
    -- the shifted digit row, ! to )
    (0x21, ⟨modLeftShift, 0x1e⟩), (0x40, ⟨modLeftShift, 0x1f⟩),
    (0x23, ⟨modLeftShift, 0x20⟩), (0x24, ⟨modLeftShift, 0x21⟩),
    (0x25, ⟨modLeftShift, 0x22⟩), (0x5e, ⟨modLeftShift, 0x23⟩),
    (0x26, ⟨modLeftShift, 0x24⟩), (0x2a, ⟨modLeftShift, 0x25⟩),
    (0x28, ⟨modLeftShift, 0x26⟩), (0x29, ⟨modLeftShift, 0x27⟩) ]

def macroKeymapUsPrintable (character : UInt8) : Option HidKey :=
  if 0x61 ≤ character ∧ character ≤ 0x7a then some ⟨0, 0x04 + (character - 0x61)⟩
  else if 0x41 ≤ character ∧ character ≤ 0x5a then
    some ⟨modLeftShift, 0x04 + (character - 0x41)⟩
  else if 0x31 ≤ character ∧ character ≤ 0x39 then some ⟨0, 0x1e + (character - 0x31)⟩
  else if character = 0x30 then some ⟨0, 0x27⟩
  else punctuationKeys.lookup character

def namedKeys : List (List UInt8 × UInt8) :=
  [ (bytes "ENTER", 0x28), (bytes "TAB", 0x2b), (bytes "ESC", 0x29), (bytes "BACKSPACE", 0x2a),
    (bytes "DELETE", 0x4c), (bytes "INSERT", 0x49), (bytes "HOME", 0x4a), (bytes "END", 0x4d),
    (bytes "PAGEUP", 0x4b), (bytes "PAGEDOWN", 0x4e), (bytes "UP", 0x52), (bytes "DOWN", 0x51),
    (bytes "LEFT", 0x50), (bytes "RIGHT", 0x4f), (bytes "SPACE", 0x2c), (bytes "F1", 0x3a),
    (bytes "F2", 0x3a + 1), (bytes "F3", 0x3a + 2), (bytes "F4", 0x3a + 3),
    (bytes "F5", 0x3a + 4), (bytes "F6", 0x3a + 5), (bytes "F7", 0x3a + 6),
    (bytes "F8", 0x3a + 7), (bytes "F9", 0x3a + 8), (bytes "F10", 0x3a + 9),
    (bytes "F11", 0x3a + 10), (bytes "F12", 0x3a + 11) ]

def macroKeymapUsNamed (name : List UInt8) : Option HidKey :=
  match namedKeys.lookup name with
  | some usage => some ⟨0, usage⟩
  | none =>
    match name with
    | [character] => macroKeymapUsPrintable character
    | _ => none

def macroKeymapUsModifier (name : List UInt8) : Option UInt8 :=
  if name = bytes "CTRL" then some modLeftCtrl
  else if name = bytes "SHIFT" then some modLeftShift
  else if name = bytes "ALT" then some modLeftAlt
  else if name = bytes "GUI" then some modLeftGui
  else none

def isUppercaseDecimalToken (name : List UInt8) : Bool :=
  !name.isEmpty && name.all (fun character =>
    (0x41 ≤ character && character ≤ 0x5a) || (0x30 ≤ character && character ≤ 0x39))

def macroKeymapUsV2NamedDirective (name : List UInt8) : Option HidKey :=
  match macroKeymapUsModifier name with
  | some modifier => some ⟨modifier, 0⟩
  | none =>
    if 1 < name.length ∧ isUppercaseDecimalToken name then macroKeymapUsNamed name else none

def legalModifiers (modifiers : UInt8) : Prop := modifiers &&& 0xf0 = 0

instance : DecidablePred legalModifiers := fun _ => inferInstanceAs (Decidable (_ = _))

theorem forall_uint8 {P : UInt8 → Prop} (h : ∀ n < 256, P (UInt8.ofNat n)) (c : UInt8) : P c := by
  have hc := h c.toNat c.toNat_lt
  rwa [UInt8.ofNat_toNat] at hc

theorem mem_of_lookup {α β : Type} [BEq α] [LawfulBEq α] {table : List (α × β)} {a : α} {b : β}
    (h : table.lookup a = some b) : (a, b) ∈ table := by
  obtain ⟨front, back, rfl, -⟩ := List.lookup_eq_some_iff.mp h
  simp

theorem printable_legal (c : UInt8) (key : HidKey) (h : macroKeymapUsPrintable c = some key) :
    key.usage ≠ 0 ∧ legalModifiers key.modifiers := by
  have hall : ∀ n < 256, (macroKeymapUsPrintable (UInt8.ofNat n)).all (fun key =>
      decide (key.usage ≠ 0 ∧ legalModifiers key.modifiers)) = true := by decide +kernel
  have hc := forall_uint8 (P := fun c => (macroKeymapUsPrintable c).all (fun key =>
    decide (key.usage ≠ 0 ∧ legalModifiers key.modifiers)) = true) hall c
  simpa [h] using hc

theorem named_legal (name : List UInt8) (key : HidKey) (h : macroKeymapUsNamed name = some key) :
    key.usage ≠ 0 ∧ legalModifiers key.modifiers := by
  unfold macroKeymapUsNamed at h
  split at h
  · next usage hl =>
    have hall : ∀ row ∈ namedKeys, row.2 ≠ 0 := by decide
    cases h
    exact ⟨hall _ (mem_of_lookup hl), by simp [legalModifiers]⟩
  · split at h
    · exact printable_legal _ key h
    · cases h

theorem modifier_legal (name : List UInt8) (m : UInt8) (h : macroKeymapUsModifier name = some m) :
    m ≠ 0 ∧ legalModifiers m := by
  unfold macroKeymapUsModifier at h
  split_ifs at h <;> cases h <;> decide

theorem namedDirective_legal (name : List UInt8) (key : HidKey)
    (h : macroKeymapUsV2NamedDirective name = some key) :
    (key.usage ≠ 0 ∨ key.modifiers ≠ 0) ∧ legalModifiers key.modifiers := by
  unfold macroKeymapUsV2NamedDirective at h
  split at h
  · next m hm =>
    cases h
    obtain ⟨h0, hl⟩ := modifier_legal name m hm
    exact ⟨Or.inr h0, hl⟩
  · split at h
    · obtain ⟨h0, hl⟩ := named_legal name key h
      exact ⟨Or.inl h0, hl⟩
    · cases h

end MacroKeyboard.Keymap
