import MacroKeyboard.PlanWellFormed

namespace MacroKeyboard.LiteralText

open Keymap FirmwareCompiler PlanWellFormed

section Text

def PlainCharacter (character : UInt8) : Prop :=
  (asciiSpace ≤ character ∧ character ≤ asciiTilde) ∨ character = asciiTab ∨ character = asciiLineFeed

def isBracket (character : UInt8) : Bool :=
  character == openBracket || character == closeBracket || character == openBrace || character == closeBrace

def escapeCharacter (character : UInt8) : List UInt8 :=
  if isBracket character then [character, character] else [character]

def escape (text : List UInt8) : List UInt8 := text.flatMap escapeCharacter

/-- The key of a character in the keyboard map, where a line feed and a tab are those
of their names. -/
def keyOf (character : UInt8) : Option HidKey :=
  if character = asciiLineFeed then macroKeymapUsNamed (bytes "ENTER")
  else if character = asciiTab then macroKeymapUsNamed (bytes "TAB")
  else macroKeymapUsPrintable character

def actionOf (character : UInt8) : Option MacroAction := (keyOf character).map v2KeyAction

/-- Each carriage return and line feed read as one line feed. -/
def normalizeLineEndings : List UInt8 → List UInt8
  | [] => []
  | [character] => [character]
  | first :: second :: rest =>
    if first = asciiCarriageReturn ∧ second = asciiLineFeed then second :: normalizeLineEndings rest
    else first :: normalizeLineEndings (second :: rest)

/-- A source where every bracket that opens is doubled, so that it has no directive
and no group. -/
def literal : List UInt8 → Bool
  | [] => true
  | [character] => character != openBracket && character != openBrace
  | first :: second :: rest =>
    if first = openBracket ∨ first = openBrace then second == first && literal rest else literal (second :: rest)

end Text

section Characters

variable {character : UInt8}

theorem ne_carriageReturn (h : PlainCharacter character) : character ≠ asciiCarriageReturn := by
  rintro rfl
  revert h
  unfold PlainCharacter
  decide

theorem length_escapeCharacter_pos (character : UInt8) : 0 < (escapeCharacter character).length := by
  unfold escapeCharacter
  split <;> simp

theorem length_le_escape (text : List UInt8) : text.length ≤ (escape text).length := by
  induction text with
  | nil => exact Nat.le_refl 0
  | cons character text ih =>
    have hpos := length_escapeCharacter_pos character
    rw [escape, List.flatMap_cons, List.length_append, ← escape, List.length_cons]
    omega

theorem escape_cons (character : UInt8) (text : List UInt8) :
    escape (character :: text) = escapeCharacter character ++ escape text := rfl

/-- A text is determined by its escaped form. -/
theorem escape_injective : Function.Injective escape := by
  intro text
  induction text with
  | nil =>
    intro other h
    cases other with
    | nil => rfl
    | cons second other =>
      have hlength := length_le_escape (second :: other)
      rw [← h] at hlength
      exact absurd hlength (Nat.not_succ_le_zero _)
  | cons first text ih =>
    intro other h
    cases other with
    | nil =>
      have hlength := length_le_escape (first :: text)
      rw [h] at hlength
      exact absurd hlength (Nat.not_succ_le_zero _)
    | cons second other =>
      rw [escape_cons, escape_cons] at h
      have hhead : first = second := by
        have hfirst := congrArg List.head? h
        unfold escapeCharacter at hfirst
        split at hfirst <;> split at hfirst <;> exact Option.some.inj hfirst
      subst hhead
      rw [ih (List.append_cancel_left h)]

theorem keyOf_isSome (h : PlainCharacter character) : ∃ key, keyOf character = some key := by
  have hall : ∀ n < 256, PlainCharacter (UInt8.ofNat n) → (keyOf (UInt8.ofNat n)).isSome = true := by
    unfold PlainCharacter
    decide +kernel
  exact Option.isSome_iff_exists.mp
    (forall_uint8 (P := fun c => PlainCharacter c → (keyOf c).isSome = true) hall character h)

end Characters

section Tokens

variable {source rest : List UInt8} {offset : Nat} {first : UInt8}

theorem lt_of_drop (h : source.drop offset = first :: rest) : offset < source.length := by
  have hlength := congrArg List.length h
  rw [List.length_drop, List.length_cons] at hlength
  omega

theorem byteAt_of_drop (h : source.drop offset = first :: rest) : byteAt source offset = first := by
  rw [byteAt, List.getD_eq_getElem?_getD, ← List.head?_drop, h, List.head?_cons, Option.getD_some]

theorem drop_add_of_drop {front : List UInt8} (h : source.drop offset = front ++ rest) :
    source.drop (offset + front.length) = rest := by
  rw [← List.drop_drop, h, List.drop_left]

theorem followedBy_of_drop (h : source.drop offset = first :: rest) (byte : UInt8) :
    followedBy source offset byte ↔ rest.head? = some byte := by
  have hrest : source.drop (offset + 1) = rest := by
    rw [← List.drop_drop, h, List.drop_one, List.tail_cons]
  rw [← hrest, List.head?_drop, followedBy, byteAt, List.getD_eq_getElem?_getD]
  constructor
  · rintro ⟨hlt, rfl⟩
    rw [List.getElem?_eq_getElem hlt, Option.getD_some]
  · intro hsome
    obtain ⟨hlt, -⟩ := List.getElem?_eq_some_iff.mp hsome
    exact ⟨hlt, by rw [hsome, Option.getD_some]⟩

theorem isBracket_iff {character : UInt8} : isBracket character = true ↔
    character = openBracket ∨ character = closeBracket ∨ character = openBrace ∨ character = closeBrace := by
  simp [isBracket, or_assoc]

theorem parseEscape_of_key {bracket : UInt8} (h : isBracket bracket = true) {key : HidKey} (hkey : keyOf bracket = some key) :
    v2ParseEscape bracket source offset = .ok ⟨v2KeyAction key, 2⟩ := by
  have hsame : macroKeymapUsPrintable bracket = some key := by
    rw [isBracket_iff] at h
    rcases h with rfl | rfl | rfl | rfl <;> exact hkey
  rw [v2ParseEscape, hsame]

theorem parseNextToken_doubled (hbracket : isBracket first = true) (h : source.drop offset = first :: first :: rest)
    {key : HidKey} (hkey : keyOf first = some key) : v2ParseNextToken source offset = .ok ⟨v2KeyAction key, 2⟩ := by
  have hescape : v2ParseEscape first source offset = .ok ⟨v2KeyAction key, 2⟩ := parseEscape_of_key hbracket hkey
  have hfollowed : followedBy source offset first := (followedBy_of_drop h first).mpr rfl
  have hbyte := byteAt_of_drop h
  rw [v2ParseNextToken, hbyte]
  rcases isBracket_iff.mp hbracket with rfl | rfl | rfl | rfl
  · rw [if_pos rfl, v2ParseOpenBracket, if_pos hfollowed, hescape]
  · rw [if_neg (by decide), if_pos rfl, v2ParseCloseBracket, if_pos hfollowed, hescape]
  · rw [if_neg (by decide), if_neg (by decide), v2ParseNonBracketToken, hbyte]
    exact (if_pos hfollowed).trans hescape
  · rw [if_neg (by decide), if_neg (by decide), v2ParseNonBracketToken, hbyte]
    exact (if_pos hfollowed).trans hescape

/-- A character that is no bracket is one key. -/
theorem parseNextToken_single (hplain : PlainCharacter first) (hbracket : isBracket first = false)
    (h : source.drop offset = first :: rest) {key : HidKey} (hkey : keyOf first = some key) :
    v2ParseNextToken source offset = .ok ⟨v2KeyAction key, 1⟩ := by
  have hbyte := byteAt_of_drop h
  have hne : ¬ (first = openBracket ∨ first = closeBracket ∨ first = openBrace ∨ first = closeBrace) := by
    rw [← isBracket_iff, hbracket]
    exact Bool.false_ne_true
  rw [not_or, not_or, not_or] at hne
  have hascii : ¬ (0x80 ≤ first ∨ first = 0) := by
    rcases hplain with ⟨hlow, hhigh⟩ | rfl | rfl
    · rintro (hlarge | rfl)
      · exact absurd (UInt8.le_trans hlarge hhigh) (by decide)
      · exact absurd hlow (by decide)
    · decide
    · decide
  rw [v2ParseNextToken, hbyte, if_neg hne.1, if_neg hne.2.1, v2ParseNonBracketToken, hbyte, if_neg hascii,
    if_neg (ne_carriageReturn hplain), if_neg hne.2.2.1, if_neg hne.2.2.2]
  by_cases hfeed : first = asciiLineFeed
  · subst hfeed
    cases hkey
    rfl
  by_cases htab : first = asciiTab
  · subst htab
    cases hkey
    rfl
  have hprintable : ¬ (first < asciiSpace ∨ asciiTilde < first) := by
    rcases hplain with ⟨hlow, hhigh⟩ | heq | heq
    · rw [not_or, UInt8.not_lt, UInt8.not_lt]
      exact ⟨hlow, hhigh⟩
    · exact absurd heq htab
    · exact absurd heq hfeed
  rw [keyOf, if_neg hfeed, if_neg htab] at hkey
  rw [if_neg hfeed, if_neg htab, if_neg hprintable, v2ParsePrintable, hbyte, hkey]

theorem parseNextToken_lineEnding {token : Token} (h : source.drop offset = asciiCarriageReturn :: rest)
    (htoken : v2ParseNextToken source offset = .ok token) :
    token.consumed = 2 ∧ ∃ tail, rest = asciiLineFeed :: tail := by
  have hbyte := byteAt_of_drop h
  rw [v2ParseNextToken, hbyte, if_neg (by decide), if_neg (by decide), v2ParseNonBracketToken, hbyte,
    if_neg (by decide), if_pos rfl] at htoken
  by_cases hfollowed : followedBy source offset asciiLineFeed
  · rw [if_pos hfollowed] at htoken
    cases htoken
    exact ⟨rfl, List.head?_eq_some_iff.mp ((followedBy_of_drop h _).mp hfollowed)⟩
  · rw [if_neg hfollowed] at htoken
    cases htoken

theorem parseNextToken_closing {token : Token} (hclosing : first = closeBracket ∨ first = closeBrace)
    (h : source.drop offset = first :: rest) (htoken : v2ParseNextToken source offset = .ok token) :
    ∃ tail, rest = first :: tail := by
  have hbyte := byteAt_of_drop h
  have hfollowed : followedBy source offset first := by
    by_contra hsingle
    rw [v2ParseNextToken, hbyte] at htoken
    rcases hclosing with rfl | rfl
    · rw [if_neg (by decide), if_pos rfl, v2ParseCloseBracket, if_neg hsingle] at htoken
      cases htoken
    · rw [if_neg (by decide), if_neg (by decide), v2ParseNonBracketToken, hbyte] at htoken
      have hfails := htoken.symm.trans (if_neg hsingle : v2ParseCloseBrace source offset = _)
      cases hfails
  exact List.head?_eq_some_iff.mp ((followedBy_of_drop h _).mp hfollowed)

theorem plain_of_parseNextToken {token : Token} (hbracket : isBracket first = false)
    (hreturn : first ≠ asciiCarriageReturn) (h : source.drop offset = first :: rest)
    (htoken : v2ParseNextToken source offset = .ok token) : PlainCharacter first := by
  have hbyte := byteAt_of_drop h
  have hne : ¬ (first = openBracket ∨ first = closeBracket ∨ first = openBrace ∨ first = closeBrace) := by
    rw [← isBracket_iff, hbracket]
    exact Bool.false_ne_true
  rw [not_or, not_or, not_or] at hne
  rw [v2ParseNextToken, hbyte, if_neg hne.1, if_neg hne.2.1, v2ParseNonBracketToken, hbyte] at htoken
  by_cases hascii : 0x80 ≤ first ∨ first = 0
  · rw [if_pos hascii] at htoken
    cases htoken
  rw [if_neg hascii, if_neg hreturn] at htoken
  by_cases hfeed : first = asciiLineFeed
  · exact Or.inr (Or.inr hfeed)
  by_cases htab : first = asciiTab
  · exact Or.inr (Or.inl htab)
  rw [if_neg hfeed, if_neg htab, if_neg hne.2.2.1, if_neg hne.2.2.2] at htoken
  by_cases hprintable : first < asciiSpace ∨ asciiTilde < first
  · rw [if_pos hprintable] at htoken
    cases htoken
  · rw [not_or, UInt8.not_lt, UInt8.not_lt] at hprintable
    exact Or.inl hprintable

end Tokens

section Accepted

variable {first : UInt8} {rest : List UInt8}

theorem literal_single (h : ¬ (first = openBracket ∨ first = openBrace)) (hliteral : literal (first :: rest) = true) :
    literal rest = true := by
  cases rest with
  | nil => rfl
  | cons second rest => rwa [literal, if_neg h] at hliteral

theorem literal_opening (h : first = openBracket ∨ first = openBrace) (hliteral : literal (first :: rest) = true) :
    ∃ tail, rest = first :: tail ∧ literal tail = true := by
  cases rest with
  | nil =>
    rcases h with rfl | rfl
    · exact absurd hliteral (by decide)
    · exact absurd hliteral (by decide)
  | cons second tail =>
    rw [literal, if_pos h, Bool.and_eq_true, beq_iff_eq] at hliteral
    exact ⟨tail, by rw [hliteral.1], hliteral.2⟩

theorem normalize_cons (h : first ≠ asciiCarriageReturn) :
    normalizeLineEndings (first :: rest) = first :: normalizeLineEndings rest := by
  cases rest with
  | nil => rfl
  | cons second rest => rw [normalizeLineEndings, if_neg (fun hboth => h hboth.1)]

theorem escapeCharacter_bracket (h : isBracket first = true) : escapeCharacter first = [first, first] := if_pos h

theorem escapeCharacter_single (h : isBracket first = false) : escapeCharacter first = [first] :=
  if_neg (by rw [h]; exact Bool.false_ne_true)

theorem plain_of_isBracket (h : isBracket first = true) : PlainCharacter first := by
  rcases isBracket_iff.mp h with rfl | rfl | rfl | rfl
  all_goals exact Or.inl (by decide)

/-- A literal token stands for one plain character, of which it is the escaped form once
the line endings are read alike. -/
theorem literalToken {source : List UInt8} {offset : Nat} {token : Token} (h : source.drop offset = first :: rest)
    (hliteral : literal (first :: rest) = true) (htoken : v2ParseNextToken source offset = .ok token) :
    ∃ character front tail, PlainCharacter character ∧ first :: rest = front ++ tail ∧ front.length = token.consumed ∧
      0 < token.consumed ∧ literal tail = true ∧
      normalizeLineEndings (first :: rest) = escapeCharacter character ++ normalizeLineEndings tail := by
  by_cases hreturn : first = asciiCarriageReturn
  · subst hreturn
    obtain ⟨hconsumed, tail, rfl⟩ := parseNextToken_lineEnding h htoken
    have hrest := literal_single (by decide) hliteral
    exact ⟨asciiLineFeed, [asciiCarriageReturn, asciiLineFeed], tail, Or.inr (Or.inr rfl), rfl, hconsumed.symm,
      by omega, literal_single (by decide) hrest, rfl⟩
  cases hbracket : isBracket first with
  | false =>
    have hplain := plain_of_parseNextToken hbracket hreturn h htoken
    obtain ⟨key, hkey⟩ := keyOf_isSome hplain
    cases htoken.symm.trans (parseNextToken_single hplain hbracket h hkey)
    have hopening : ¬ (first = openBracket ∨ first = openBrace) := by
      rintro (rfl | rfl)
      · exact absurd hbracket (by decide)
      · exact absurd hbracket (by decide)
    refine ⟨first, [first], rest, hplain, rfl, rfl, Nat.one_pos, literal_single hopening hliteral, ?_⟩
    rw [escapeCharacter_single hbracket, normalize_cons hreturn, List.singleton_append]
  | true =>
    have hdoubled : ∃ tail, rest = first :: tail ∧ literal tail = true := by
      by_cases hopening : first = openBracket ∨ first = openBrace
      · exact literal_opening hopening hliteral
      · have hclosing : first = closeBracket ∨ first = closeBrace := by
          have hall := isBracket_iff.mp hbracket
          tauto
        obtain ⟨tail, rfl⟩ := parseNextToken_closing hclosing h htoken
        exact ⟨tail, rfl, literal_single hopening (literal_single hopening hliteral)⟩
    obtain ⟨tail, rfl, htail⟩ := hdoubled
    have hplain := plain_of_isBracket hbracket
    obtain ⟨key, hkey⟩ := keyOf_isSome hplain
    cases htoken.symm.trans (parseNextToken_doubled hbracket h hkey)
    refine ⟨first, [first, first], tail, hplain, rfl, rfl, Nat.two_pos, htail, ?_⟩
    rw [escapeCharacter_bracket hbracket, normalize_cons hreturn, normalize_cons hreturn]
    rfl

/-- The remaining source is the escaped form of a text. -/
theorem compileTokens_escape {source : List UInt8} {options : MacroCompileOptions} {fuel offset : Nat}
    {working result : MacroPlan} (hfuel : source.length ≤ offset + fuel)
    (hliteral : literal (source.drop offset) = true)
    (h : v2CompileTokens source options fuel offset working = .ok result) :
    ∃ text, (∀ character ∈ text, PlainCharacter character) ∧
      escape text = normalizeLineEndings (source.drop offset) := by
  induction fuel generalizing offset working with
  | zero =>
    have hend : source.drop offset = [] := List.drop_of_length_le hfuel
    rw [hend]
    exact ⟨[], fun _ h => absurd h List.not_mem_nil, rfl⟩
  | succ fuel ih =>
    cases hdrop : source.drop offset with
    | nil => exact ⟨[], fun _ h => absurd h List.not_mem_nil, rfl⟩
    | cons first rest =>
      rw [v2CompileTokens, if_pos (lt_of_drop hdrop)] at h
      cases htoken : v2ParseNextToken source offset with
      | error error =>
        rw [htoken] at h
        cases h
      | ok token =>
        rw [htoken] at h
        rw [hdrop] at hliteral
        obtain ⟨character, front, tail, hplain, hsplit, hconsumed, hpos, htail, hnormal⟩ :=
          literalToken hdrop hliteral htoken
        have hnext : source.drop (offset + token.consumed) = tail := by
          rw [← hconsumed]
          exact drop_add_of_drop (hdrop.trans hsplit)
        cases happend : v2AppendAction working token.action options source offset with
        | error error =>
          simp only [happend] at h
          cases h
        | ok appended =>
          simp only [happend] at h
          obtain ⟨text, hall, hescape⟩ := ih (by omega) (by rw [hnext]; exact htail) h
          rw [hnext] at hescape
          refine ⟨character :: text, ?_, ?_⟩
          · intro other hother
            rcases List.mem_cons.mp hother with rfl | hother
            · exact hplain
            · exact hall other hother
          · rw [escape_cons, hescape, hnormal]

end Accepted

section Compiled

variable {source : List UInt8} {options : MacroCompileOptions}

def keyTime (options : MacroCompileOptions) : Nat := options.keyPressMs.toNat + options.interKeyMs.toNat

def TimingsOk (options : MacroCompileOptions) : Prop :=
  options.keyPressMs ≤ Limits.keyPressMaxMs ∧ options.interKeyMs ≤ Limits.interKeyMaxMs

theorem safeAdd_of_lt (left right : UInt32) (h : left.toNat + right.toNat < 2 ^ 32) :
    v2SafeAddU32 left right = some (left + right) ∧ (left + right).toNat = left.toNat + right.toNat := by
  have hmax : uint32Max.toNat = 2 ^ 32 - 1 := by decide
  have hfits : ¬ (uint32Max.toNat - left.toNat < right.toNat) := by omega
  exact ⟨if_neg hfits, by rw [UInt32.toNat_add, Nat.mod_eq_of_lt h]⟩

theorem keyTime_le (h : TimingsOk options) : keyTime options ≤ 20000 := by
  have hpress : Limits.keyPressMaxMs.toNat = 10000 := by decide
  have hinter : Limits.interKeyMaxMs.toNat = 10000 := by decide
  have hle₁ := UInt32.le_iff_toNat_le.mp h.1
  have hle₂ := UInt32.le_iff_toNat_le.mp h.2
  unfold keyTime
  omega

theorem appendAction_key (source : List UInt8) (offset : Nat) (key : HidKey) (actions : List MacroAction) (total : UInt32)
    (hoptions : TimingsOk options) (hcount : actions.length < Limits.compiledActionsMax)
    (htotal : total.toNat + keyTime options ≤ 300000) :
    ∃ sum : UInt32, sum.toNat = total.toNat + keyTime options ∧
      v2AppendAction ⟨some actions, total⟩ (v2KeyAction key) options source offset =
        .ok ⟨some (actions ++ [v2KeyAction key]), sum⟩ := by
  have hle := keyTime_le hoptions
  unfold keyTime at htotal hle ⊢
  obtain ⟨hduration, hcost⟩ := safeAdd_of_lt options.keyPressMs options.interKeyMs (by omega)
  obtain ⟨hsum, htime⟩ := safeAdd_of_lt total (options.keyPressMs + options.interKeyMs) (by omega)
  have hnotfull : ¬ ((⟨some actions, total⟩ : MacroPlan).actionCount ≥ Limits.compiledActionsMax) := Nat.not_le.mpr hcount
  have hlimit : ¬ (total + (options.keyPressMs + options.interKeyMs) > Limits.estimatedDurationMaxMs) := by
    rw [gt_iff_lt, UInt32.lt_iff_toNat_lt, estimatedDurationMaxMs_toNat]
    omega
  have hkey : v2ActionDuration options (v2KeyAction key) = some (options.keyPressMs + options.interKeyMs) := by
    have hpress : ¬ (v2KeyAction key).type = .delay := nofun
    rw [v2ActionDuration, if_neg hpress, hduration]
  refine ⟨total + (options.keyPressMs + options.interKeyMs), by omega, ?_⟩
  rw [v2AppendAction, if_neg hnotfull, hkey]
  simp only [hsum, if_neg hlimit, Option.map_some]

theorem parseNextToken_escape {character : UInt8} {offset : Nat} {rest : List UInt8} (hplain : PlainCharacter character)
    (h : source.drop offset = escapeCharacter character ++ rest) {key : HidKey} (hkey : keyOf character = some key) :
    v2ParseNextToken source offset = .ok ⟨v2KeyAction key, (escapeCharacter character).length⟩ := by
  cases hbracket : isBracket character with
  | true =>
    rw [escapeCharacter_bracket hbracket] at h ⊢
    exact parseNextToken_doubled hbracket h hkey
  | false =>
    rw [escapeCharacter_single hbracket] at h ⊢
    exact parseNextToken_single hplain hbracket h hkey

/-- From an escaped text on, the loop appends one key action for each character. -/
theorem compileTokens_text (hoptions : TimingsOk options) :
    ∀ (text : List UInt8) (fuel offset : Nat) (actions : List MacroAction) (total : UInt32),
      (∀ character ∈ text, PlainCharacter character) → source.drop offset = escape text → text.length ≤ fuel →
      actions.length + text.length ≤ Limits.compiledActionsMax →
      total.toNat + text.length * keyTime options ≤ 300000 →
      ∃ added sum, added.map some = text.map actionOf ∧
        v2CompileTokens source options fuel offset ⟨some actions, total⟩ = .ok ⟨some (actions ++ added), sum⟩ := by
  intro text
  induction text with
  | nil =>
    intro fuel offset actions total _ hdrop _ _ _
    refine ⟨[], total, rfl, ?_⟩
    have hend : ¬ offset < source.length := Nat.not_lt.mpr (List.drop_eq_nil_iff.mp hdrop)
    rw [List.append_nil]
    cases fuel with
    | zero => rfl
    | succ fuel => rw [v2CompileTokens, if_neg hend]
  | cons character text ih =>
    intro fuel offset actions total hplain hdrop hfuel hcount htotal
    rw [List.length_cons] at hfuel hcount htotal
    obtain ⟨key, hkey⟩ := keyOf_isSome (hplain character List.mem_cons_self)
    have htoken := parseNextToken_escape (hplain character List.mem_cons_self) hdrop hkey
    rw [Nat.add_mul, Nat.one_mul] at htotal
    obtain ⟨sum, hsum, happend⟩ := appendAction_key source offset key actions total hoptions (by omega)
      (by omega)
    have hlt : offset < source.length := by
      have hpos := length_escapeCharacter_pos character
      have hlength := congrArg List.length hdrop
      rw [List.length_drop, escape_cons, List.length_append] at hlength
      omega
    have hrest : ∀ other ∈ text, PlainCharacter other := fun other h => hplain other (List.mem_cons_of_mem _ h)
    cases fuel with
    | zero => exact absurd hfuel (Nat.not_succ_le_zero _)
    | succ fuel =>
      obtain ⟨added, last, hadded, hcompile⟩ := ih fuel _ (actions ++ [v2KeyAction key]) sum
        hrest (drop_add_of_drop hdrop) (by omega) (by rw [List.length_append, List.length_singleton]; omega) (by omega)
      refine ⟨v2KeyAction key :: added, last, ?_, ?_⟩
      · rw [List.map_cons, List.map_cons, hadded, actionOf, hkey, Option.map_some]
      · rw [v2CompileTokens, if_pos hlt, htoken]
        simp only [happend]
        rw [hcompile, List.append_assoc, List.singleton_append]

/-- An escaped text within the limits compiles to its keys. -/
theorem macroCompileV2_escape {options : Option MacroCompileOptions} {text : List UInt8}
    (hoptions : TimingsOk (options.getD defaultOptions)) (hplain : ∀ character ∈ text, PlainCharacter character)
    (hlength : (escape text).length ≤ Limits.macroSourceMaxBytes)
    (htime : text.length * keyTime (options.getD defaultOptions) ≤ 300000) :
    (macroCompileV2 true (escape text) options).result = .none ∧
      (macroCompileV2 true (escape text) options).outPlan.actionList.map some = text.map actionOf := by
  have htimings : ¬ ((options.getD defaultOptions).keyPressMs > Limits.keyPressMaxMs ∨
      (options.getD defaultOptions).interKeyMs > Limits.interKeyMaxMs) := by
    rw [not_or, gt_iff_lt, gt_iff_lt, UInt32.not_lt, UInt32.not_lt]
    exact hoptions
  have hle := length_le_escape text
  cases text with
  | nil =>
    unfold macroCompileV2
    simp only [if_neg htimings]
    exact ⟨rfl, rfl⟩
  | cons character text =>
    have hactions : Limits.compiledActionsMax = Limits.macroSourceMaxBytes := rfl
    obtain ⟨added, sum, hadded, hcompile⟩ := compileTokens_text hoptions (character :: text)
      (escape (character :: text)).length 0 [] 0 hplain (List.drop_zero : (escape (character :: text)).drop 0 = _) hle
      (by rw [List.length_nil]; omega) (by rw [UInt32.toNat_zero]; omega)
    rw [List.length_cons] at hle
    have hnonempty : (escape (character :: text)).length ≠ 0 := by omega
    have hcount : (⟨some ([] ++ added), sum⟩ : MacroPlan).actionCount ≠ 0 := by
      have hsame := congrArg List.length hadded
      rw [List.length_map, List.length_map, List.length_cons] at hsame
      rw [MacroPlan.actionCount, MacroPlan.actionList, Option.getD_some, List.nil_append]
      omega
    have hresult : macroCompileV2 true (escape (character :: text)) options =
        ⟨.none, ⟨some ([] ++ added), sum⟩, clearedError, 1⟩ := by
      unfold macroCompileV2
      simp only [if_neg htimings, gt_iff_lt, if_neg (Nat.not_lt.mpr hlength), if_neg hnonempty, not_true, if_false,
        hcompile, if_neg hcount]
    rw [hresult]
    exact ⟨rfl, hadded⟩

theorem escape_of_accepted {callocOk : Bool} {options : Option MacroCompileOptions}
    (h : (macroCompileV2 callocOk source options).result = .none) (hliteral : literal source = true) :
    ∃ text, (∀ character ∈ text, PlainCharacter character) ∧ escape text = normalizeLineEndings source := by
  unfold macroCompileV2 at h
  dsimp only at h
  split_ifs at h with htimings hlimit hempty hcalloc
  · cases h
  · cases h
  · rw [List.length_eq_zero_iff.mp hempty]
    exact ⟨[], fun _ h => absurd h List.not_mem_nil, rfl⟩
  · split at h
    · next error herror =>
      exfalso
      rcases (ParseErrors.compileTokens_fails error herror).1 with hcode | hcode
      · rw [CompileOutcome.failed, hcode] at h
        cases h
      · rw [CompileOutcome.failed, hcode] at h
        cases h
    · next working hworking =>
      have hwhole : literal (source.drop 0) = true := hliteral
      exact compileTokens_escape (Nat.le_of_eq (Nat.zero_add _).symm) hwhole hworking

/-- An escaped text within the limits compiles to one key action for each of its
characters, and an accepted source without directives and groups, its line endings read
alike, is the escaped form of exactly one text. -/
theorem literal_text_law (options : Option MacroCompileOptions) :
    (∀ text, TimingsOk (options.getD defaultOptions) → (∀ character ∈ text, PlainCharacter character) →
      (escape text).length ≤ Limits.macroSourceMaxBytes →
      text.length * keyTime (options.getD defaultOptions) ≤ Limits.estimatedDurationMaxMs.toNat →
      (macroCompileV2 true (escape text) options).result = .none ∧
        (macroCompileV2 true (escape text) options).outPlan.actionList.map some = text.map actionOf) ∧
    (∀ callocOk source, (macroCompileV2 callocOk source options).result = .none → literal source = true →
      ∃! text, (∀ character ∈ text, PlainCharacter character) ∧ escape text = normalizeLineEndings source) := by
  constructor
  · intro text hoptions hplain hlength htime
    rw [estimatedDurationMaxMs_toNat] at htime
    exact macroCompileV2_escape hoptions hplain hlength htime
  · intro callocOk source h hliteral
    obtain ⟨text, hplain, hescape⟩ := escape_of_accepted h hliteral
    refine ⟨text, ⟨hplain, hescape⟩, ?_⟩
    rintro other ⟨-, hother⟩
    exact escape_injective (hother.trans hescape.symm)

theorem literal_text_law_braces :
    ((macroCompileV2 true (escape (bytes "a\x7b")) none).result = .none ∧
      (macroCompileV2 true (escape (bytes "a\x7b")) none).outPlan.actionList.map some = (bytes "a\x7b").map actionOf) ∧
    ∃! text, (∀ character ∈ text, PlainCharacter character) ∧ escape text = normalizeLineEndings (bytes "]]\r\n") := by
  have hplain : ∀ character ∈ bytes "a\x7b", PlainCharacter character := by
    intro character hmem
    have hall : character = 0x61 ∨ character = 0x7b := by simpa [bytes] using hmem
    rcases hall with rfl | rfl
    · exact Or.inl (by decide)
    · exact Or.inl (by decide)
  have hsource : literal (bytes "]]\r\n") = true := by decide
  exact ⟨(literal_text_law none).1 (bytes "a\x7b") ⟨by decide, by decide⟩ hplain (by decide) (by decide),
    (literal_text_law none).2 true (bytes "]]\r\n") (by decide +kernel) hsource⟩

/-- A line that ends in a carriage return and a line feed is accepted and has no
directive, but escaping never writes a carriage return. -/
theorem carriage_return_not_escaped :
    (macroCompileV2 true [asciiCarriageReturn, asciiLineFeed] none).result = .none ∧
      literal [asciiCarriageReturn, asciiLineFeed] = true ∧
      ¬ ∃ text, (∀ character ∈ text, PlainCharacter character) ∧
        escape text = [asciiCarriageReturn, asciiLineFeed] := by
  refine ⟨by decide +kernel, by decide, ?_⟩
  rintro ⟨text, hplain, hescape⟩
  cases text with
  | nil => cases hescape
  | cons character text =>
    have hhead := congrArg List.head? hescape
    have hfirst : character = asciiCarriageReturn := by
      unfold escape escapeCharacter at hhead
      rw [List.flatMap_cons] at hhead
      split at hhead
      · exact Option.some.inj hhead
      · exact Option.some.inj hhead
    exact ne_carriageReturn (hplain character List.mem_cons_self) hfirst

end Compiled

end MacroKeyboard.LiteralText
