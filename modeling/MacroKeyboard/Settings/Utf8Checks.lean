import MacroKeyboard.Settings.Utf8

namespace MacroKeyboard.Settings

open Json

section Checks

def readByte (text : List UInt8) (index : Nat) : Option UInt8 := text[index]?

/-- The `for` loop over the continuation bytes of the sequence at an index, by the
passes that are left; nothing is the outcome of a read beyond the text. -/
def continuationLoop (shift : UInt32) (text : List UInt8) (index : Nat) : Nat → Nat → UInt32 → Option (Option UInt32)
  | 0, _, codePoint => some (some codePoint)
  | remaining + 1, offset, codePoint => do
    let continuation ← readByte text (index + offset)
    if continuation &&& 0xc0 ≠ 0x80 then some none
    else
      continuationLoop shift text index remaining (offset + 1)
        ((codePoint <<< shift) ||| (continuation &&& 0x3f).toUInt32)

/-- What follows the range checks of a first byte: the code point and the index of the
next sequence, unless the sequence is refused. -/
def checkSequence (shift : UInt32) (text : List UInt8) (index : Nat) (first : UInt8) : Option (Option Nat) :=
  match utf8Lead first with
  | none => some none
  | some (bits, continuationCount, minimum) =>
    if continuationCount > text.length - index - 1 then some none
    else do
      let codePoint ← continuationLoop shift text index continuationCount 1 bits
      match codePoint with
      | none => some none
      | some codePoint =>
        if codePoint < minimum ∨ codePoint > 0x10ffff ∨ (0xd800 ≤ codePoint ∧ codePoint ≤ 0xdfff) then some none
        else some (some (index + continuationCount + 1))

/-- The `while` loop of the checks; nothing is also the outcome of too few passes. -/
def checkLoop (shift : UInt32) (text : List UInt8) : Nat → Nat → Option Bool
  | 0, index => if index < text.length then none else some true
  | passes + 1, index =>
    if index < text.length then do
      let first ← readByte text index
      if first ≤ 0x7f then checkLoop shift text passes (index + 1)
      else
        let next ← checkSequence shift text index first
        match next with
        | none => some false
        | some next => checkLoop shift text passes next
    else some true

def checkUtf8 (shift : UInt32) (text : List UInt8) : Option Bool := checkLoop shift text text.length 0

namespace DeviceSettingsV2

def appV2SettingsUtf8ContinuationShift : UInt32 := 6

/-- `valid_utf8` of `device_settings_v2.c`. -/
def validUtf8 (text : List UInt8) : Option Bool := checkUtf8 appV2SettingsUtf8ContinuationShift text

end DeviceSettingsV2

namespace SettingsContractV2

def settingsUtf8ContinuationShift : UInt32 := 6

/-- `valid_utf8` of `settings_contract_v2.c`. -/
def validUtf8 (text : List UInt8) : Option Bool := checkUtf8 settingsUtf8ContinuationShift text

end SettingsContractV2

namespace SetupContractV2

def appV2SetupUtf8ContinuationShift : UInt32 := 6

/-- `valid_utf8` of `setup_contract_v2.c`. -/
def validUtf8 (text : List UInt8) : Option Bool := checkUtf8 appV2SetupUtf8ContinuationShift text

end SetupContractV2

end Checks

section Agreement

variable {text : List UInt8}

theorem readByte_of_drop {index : Nat} {first : UInt8} {rest : List UInt8} (h : text.drop index = first :: rest) :
    readByte text index = some first := by
  rw [readByte, ← List.head?_drop, h]
  rfl

theorem continuationLoop_eq (index : Nat) {remaining offset : Nat} (codePoint : UInt32)
    (h : index + offset + remaining ≤ text.length) : continuationLoop 6 text index remaining offset codePoint =
      some (utf8Continue codePoint ((text.drop (index + offset)).take remaining)) := by
  induction remaining generalizing offset codePoint with
  | zero => rfl
  | succ remaining ih =>
    obtain ⟨continuation, rest, hdrop⟩ := List.exists_cons_of_ne_nil (l := text.drop (index + offset)) (by
      rw [Ne, List.drop_eq_nil_iff]
      omega)
    have hrest : text.drop (index + (offset + 1)) = rest := by
      rw [← Nat.add_assoc, ← List.drop_drop, hdrop]
      rfl
    rw [continuationLoop, readByte_of_drop hdrop, hdrop, List.take_succ_cons, utf8Continue, Option.bind_eq_bind,
      Option.bind_some]
    split_ifs with hmark
    · rfl
    · rw [ih _ (by omega), hrest]

/-- The loop by indexes is the loop over what is left of the text. -/
theorem checkLoop_eq {passes index : Nat} (h : text.length - index ≤ passes) :
    checkLoop 6 text passes index = some (validUtf8Loop passes (text.drop index)) := by
  induction passes generalizing index with
  | zero =>
    rw [checkLoop, if_neg (by omega), List.drop_eq_nil_of_le (by omega), validUtf8Loop]
  | succ passes ih =>
    rw [checkLoop]
    split_ifs with hindex
    · obtain ⟨first, rest, hdrop⟩ := List.exists_cons_of_ne_nil (l := text.drop index) (by
        rw [Ne, List.drop_eq_nil_iff]
        omega)
      have hrest (count : Nat) : text.drop (index + count + 1) = rest.drop count := by
        rw [Nat.add_assoc, Nat.add_comm count, ← Nat.add_assoc, ← List.drop_drop, ← List.drop_drop, hdrop]
        rfl
      have hlength : rest.length = text.length - index - 1 := by
        rw [← List.length_drop, hdrop]
        rfl
      rw [readByte_of_drop hdrop, hdrop, validUtf8Loop, Option.bind_eq_bind, Option.bind_some]
      split_ifs with hascii
      · rw [ih (by omega)]
        exact congrArg (fun left => some (validUtf8Loop passes left)) (hrest 0)
      · unfold checkSequence
        cases utf8Lead first with
        | none => rfl
        | some lead =>
          obtain ⟨bits, count, minimum⟩ := lead
          dsimp only
          rw [hlength]
          split_ifs with hcount
          · rfl
          · rw [continuationLoop_eq index bits (by omega), show text.drop (index + 1) = rest from hrest 0]
            simp only [Option.bind_eq_bind, Option.bind_some]
            cases utf8Continue bits (rest.take count) with
            | none => rfl
            | some codePoint =>
              dsimp only
              split_ifs with hbad
              · rfl
              · rw [Option.bind_some]
                dsimp only
                rw [ih (by omega), hrest count]
    · rw [List.drop_eq_nil_of_le (by omega), validUtf8Loop]

theorem checkUtf8_eq (text : List UInt8) : checkUtf8 6 text = some (validUtf8 text) := checkLoop_eq (Nat.sub_le _ _)

/-- The three checks read no byte beyond the text, and each accepts the encodings of
texts and nothing else. -/
theorem copies_accept_utf8 (text : List UInt8) : ∃ accepted : Bool,
    DeviceSettingsV2.validUtf8 text = some accepted ∧ SettingsContractV2.validUtf8 text = some accepted ∧
      SetupContractV2.validUtf8 text = some accepted ∧ (accepted = true ↔ ∃ s : List Char, text = utf8 s) :=
  ⟨validUtf8 text, checkUtf8_eq text, checkUtf8_eq text, checkUtf8_eq text, validUtf8_iff⟩

end Agreement

end MacroKeyboard.Settings
