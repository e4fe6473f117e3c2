import MacroKeyboard.Webapp.SourceBytes

namespace MacroKeyboard.Webapp

open Json FirmwareCompiler

open MacroCompiler (Position MacroCompileError ParsedToken errorAt nextAscii nextLine validDirectiveText parseDirective
  parseOpenBrace parseTokenWith indexOf slice)

section Same

def MacroCompiler.ErrorCode.appError : MacroCompiler.ErrorCode → AppError
  | .invalidArgument => .invalidArgument
  | .macroSyntax => .macroSyntax
  | .macroLimit => .macroLimit

def SameError (failure : MacroCompileError) (error : MacroParseError) : Prop :=
  error.code = failure.code.appError ∧ error.byteOffset = failure.byteOffset ∧ error.line = failure.line ∧
    error.column = failure.column

/-- Two results that are both accepted and related, or rejected with the same error. -/
def Same {α β : Type} (related : α → β → Prop) : Except MacroCompileError α → Except MacroParseError β → Prop
  | .ok a, .ok b => related a b
  | .error failure, .error error => SameError failure error
  | _, _ => False

/-- Two actions of one kind, with the same modifiers, usages and delay. -/
inductive SameAction : MacroCompiler.MacroAction → MacroAction → Prop
  | key (usage modifiers : UInt8) :
      SameAction (.key usage (.mask modifiers)) ⟨.key, modifiers, if usage ≠ 0 then [usage] else [], 0⟩
  | chord (usages : List UInt8) (modifiers : UInt8) : SameAction (.chord usages modifiers) ⟨.chord, modifiers, usages, 0⟩
  | delay (durationMs : UInt32) : SameAction (.delay durationMs.toNat) ⟨.delay, 0, [], durationMs⟩

/-- The same action, and the position behind it. -/
structure SameToken (source : Units) (position : Position) (parsed : ParsedToken) (token : Token) : Prop where
  action : SameAction parsed.action token.action
  next : At source parsed.next
  index : parsed.next.index = position.index + token.consumed
  consumed : 0 < token.consumed

theorem Same.cases {α β : Type} {related : α → β → Prop} {result : Except MacroCompileError α}
    {sent : Except MacroParseError β} (h : Same related result sent) :
    (∃ failure error, result = .error failure ∧ sent = .error error ∧ SameError failure error) ∨
      ∃ a b, result = .ok a ∧ sent = .ok b ∧ related a b := by
  cases result with
  | error failure =>
    cases sent with
    | error error => exact Or.inl ⟨failure, error, rfl, rfl, h⟩
    | ok b => exact h.elim
  | ok a =>
    cases sent with
    | error error => exact h.elim
    | ok b => exact Or.inr ⟨a, b, rfl, rfl, h⟩

theorem Same.map {α β γ δ : Type} {related : α → β → Prop} {after : γ → δ → Prop} {f : α → γ} {g : β → δ}
    {result : Except MacroCompileError α} {sent : Except MacroParseError β} (h : Same related result sent)
    (hmap : ∀ a b, result = .ok a → sent = .ok b → related a b → after (f a) (g b)) :
    Same after (result.map f) (sent.map g) := by
  obtain ⟨failure, error, rfl, rfl, hsame⟩ | ⟨a, b, rfl, rfl, hsame⟩ := h.cases
  · exact hsame
  · exact hmap a b rfl rfl hsame

variable {source : Units} {position : Position}

theorem At.sameError (h : At source position) (code : MacroCompiler.ErrorCode) (message said : String) :
    SameError (errorAt position code message) (v2Fail (encoded source) position.index said code.appError) := by
  refine ⟨rfl, h.byteOffset.symm, ?_, ?_⟩
  · rw [v2Fail, h.located, errorAt]
  · rw [v2Fail, h.located, errorAt]

theorem At.same {α β : Type} (h : At source position) {related : α → β → Prop} (code : MacroCompiler.ErrorCode)
    (message said : String) : Same related (.error (errorAt position code message))
      (.error (v2Fail (encoded source) position.index said code.appError)) :=
  h.sameError code message said

theorem At.sameKey (h : At source position) {chunk rest : Units} (hdrop : source.drop position.index = chunk ++ rest)
    (hchunk : ∀ unit ∈ chunk, unit < 0x80 ∧ unit ≠ MacroCompiler.asciiLineFeed) (hpos : 0 < chunk.length)
    (usage modifiers : UInt8) : SameToken source position ⟨.key usage (.mask modifiers), nextAscii position chunk⟩
      ⟨v2KeyAction ⟨modifiers, usage⟩, chunk.length⟩ :=
  ⟨.key usage modifiers, h.next hdrop hchunk, rfl, hpos⟩

theorem At.samePair (h : At source position) {unit : UInt16} {rest : Units}
    (hdrop : source.drop position.index = unit :: unit :: rest)
    (hunit : unit < 0x80 ∧ unit ≠ MacroCompiler.asciiLineFeed) (usage modifiers : UInt8) :
    SameToken source position ⟨.key usage (.mask modifiers), nextAscii position [unit, unit]⟩
      ⟨v2KeyAction ⟨modifiers, usage⟩, 2⟩ := by
  have hsplit : source.drop position.index = [unit, unit] ++ rest := hdrop
  exact h.sameKey hsplit (by simpa using hunit) (Nat.succ_pos _) usage modifiers

theorem At.sameEnter (h : At source position) {chunk rest : Units}
    (hdrop : source.drop position.index = chunk ++ MacroCompiler.asciiLineFeed :: rest)
    (hchunk : ∀ unit ∈ chunk, unit < 0x80 ∧ unit ≠ MacroCompiler.asciiLineFeed) :
    SameToken source position ⟨.key MacroCompiler.hidUsageEnter (.mask 0), nextLine position (chunk.length + 1)⟩
      ⟨v2KeyAction ⟨0, hidUsageEnter⟩, chunk.length + 1⟩ :=
  ⟨.key MacroCompiler.hidUsageEnter 0, h.line hdrop hchunk, rfl, Nat.succ_pos _⟩

end Same

section Directive

/-- The check and the parse of the text between two braces. -/
def checkedDirective (directive : Units) (position : Position) : Except MacroCompileError MacroCompiler.MacroAction :=
  if ¬ validDirectiveText directive then .error (errorAt position .macroSyntax "invalid directive")
  else parseDirective directive position

/-- Both compilers make the same of a directive. -/
def SameDirective (source : Units) (position : Position) (directive : Units) : Prop :=
  Same SameAction (checkedDirective directive position)
    (v2ParseDirective (encoded source) position.index (encoded directive))

variable {source : Units} {position : Position} {directive tail rest : Units}

theorem ascii_of_valid (h : validDirectiveText directive = true) :
    ∀ unit ∈ directive, unit < 0x80 ∧ unit ≠ MacroCompiler.asciiLineFeed := by
  unfold validDirectiveText at h
  rw [Bool.and_eq_true, List.all_eq_true] at h
  intro unit hmem
  have hunit := h.2 unit hmem
  rw [Bool.and_eq_true, decide_eq_true_eq, decide_eq_true_eq] at hunit
  refine ⟨UInt16.lt_of_le_of_lt hunit.2 (by decide), ?_⟩
  rintro rfl
  exact absurd hunit.1 (by decide)

theorem indexOf_split (hdrop : source.drop position.index = MacroCompiler.openBrace :: (directive ++ MacroCompiler.closeBrace :: tail))
    (hclose : MacroCompiler.closeBrace ∉ directive) :
    indexOf source MacroCompiler.closeBrace (position.index + 1) = some (position.index + 1 + directive.length) := by
  rw [indexOf, ← List.drop_drop, hdrop, List.drop_one, List.tail_cons, findIdx?_split hclose, Option.map_some]

theorem At.memchr_split (h : At source position)
    (hdrop : source.drop position.index = MacroCompiler.openBrace :: (directive ++ MacroCompiler.closeBrace :: tail))
    (hclose : MacroCompiler.closeBrace ∉ directive) :
    memchrFrom (encoded source) (position.index + 1) closeBrace =
      some (position.index + 1 + (encoded directive).length) := by
  have hnot : closeBrace ∉ encoded directive := fun hmem => hclose (mem_of_mem_encoded hmem (by decide))
  have hsplit : encoded (directive ++ MacroCompiler.closeBrace :: tail) =
      encoded directive ++ closeBrace :: encoded tail := encoded_append_cons (by decide) directive tail
  rw [memchrFrom, h.drop_succ_encoded hdrop (by decide), hsplit, findIdx?_split hnot, Option.map_some]

/-- A directive is the text up to the first closing brace. -/
theorem parseOpenBrace_directive
    (hdrop : source.drop position.index = MacroCompiler.openBrace :: (directive ++ MacroCompiler.closeBrace :: tail))
    (hclose : MacroCompiler.closeBrace ∉ directive) (hopen : directive.head? ≠ some MacroCompiler.openBrace) :
    parseOpenBrace source position = (checkedDirective directive position).map
      (fun action => ⟨action, nextAscii position (MacroCompiler.openBrace :: directive ++ [MacroCompiler.closeBrace])⟩) := by
  have hnext : source[position.index + 1]? ≠ some MacroCompiler.openBrace := by
    rw [At.getElem?_succ_eq hdrop]
    cases directive with
    | nil => simp [MacroCompiler.openBrace, MacroCompiler.closeBrace]
    | cons unit directive => exact hopen
  have hslice : slice source (position.index + 1) (position.index + 1 + directive.length) = directive := by
    rw [slice, ← List.drop_drop, hdrop, List.drop_one, List.tail_cons, Nat.add_sub_cancel_left, List.take_left]
  have hwhole : slice source position.index (position.index + 1 + directive.length + 1) =
      MacroCompiler.openBrace :: directive ++ [MacroCompiler.closeBrace] := by
    have hlength : position.index + 1 + directive.length + 1 - position.index =
        (MacroCompiler.openBrace :: directive ++ [MacroCompiler.closeBrace]).length := by
      rw [List.length_append, List.length_cons, List.length_singleton]
      omega
    have hsplit : MacroCompiler.openBrace :: (directive ++ MacroCompiler.closeBrace :: tail) =
        (MacroCompiler.openBrace :: directive ++ [MacroCompiler.closeBrace]) ++ tail := by simp
    rw [slice, hdrop, hlength, hsplit, List.take_left]
  rw [parseOpenBrace, if_neg hnext, indexOf_split hdrop hclose]
  dsimp only
  rw [hslice, hwhole, checkedDirective]
  split
  · rfl
  · cases parseDirective directive position <;> rfl

theorem At.v2ParseOpenBrace_directive (h : At source position)
    (hdrop : source.drop position.index = MacroCompiler.openBrace :: (directive ++ MacroCompiler.closeBrace :: tail))
    (hclose : MacroCompiler.closeBrace ∉ directive) (hopen : directive.head? ≠ some MacroCompiler.openBrace) :
    v2ParseOpenBrace (encoded source) position.index =
      (v2ParseDirective (encoded source) position.index (encoded directive)).map
        (fun action => ⟨action, (encoded directive).length + 2⟩) := by
  have hnext : ¬ followedBy (encoded source) position.index openBrace := by
    rw [h.followedBy_iff hdrop (by decide) openBrace (by decide)]
    cases directive with
    | nil => simp [openBrace, MacroCompiler.closeBrace]
    | cons unit directive => exact hopen
  have hsplit : encoded (directive ++ MacroCompiler.closeBrace :: tail) =
      encoded directive ++ closeBrace :: encoded tail := encoded_append_cons (by decide) directive tail
  have htake : ((encoded source).drop (position.index + 1)).take
      (position.index + 1 + (encoded directive).length - position.index - 1) = encoded directive := by
    have hlength : position.index + 1 + (encoded directive).length - position.index - 1 = (encoded directive).length := by
      omega
    rw [h.drop_succ_encoded hdrop (by decide), hsplit, hlength, List.take_left]
  have hconsumed : position.index + 1 + (encoded directive).length + 1 - position.index =
      (encoded directive).length + 2 := by omega
  rw [v2ParseOpenBrace, if_neg hnext, h.memchr_split hdrop hclose]
  dsimp only
  rw [htake, hconsumed]
  cases v2ParseDirective (encoded source) position.index (encoded directive) <;> rfl

/-- The directives that stand at a position, if any, are the same for both compilers. -/
def DirectivesSame (source : Units) (position : Position) : Prop :=
  ∀ directive tail, source.drop position.index = MacroCompiler.openBrace :: (directive ++ MacroCompiler.closeBrace :: tail) →
    MacroCompiler.closeBrace ∉ directive → directive.head? ≠ some MacroCompiler.openBrace →
    SameDirective source position directive

theorem same_directive (h : At source position)
    (hdrop : source.drop position.index = MacroCompiler.openBrace :: (directive ++ MacroCompiler.closeBrace :: tail))
    (hclose : MacroCompiler.closeBrace ∉ directive) (hopen : directive.head? ≠ some MacroCompiler.openBrace)
    (hsame : SameDirective source position directive) : Same (SameToken source position)
      (parseOpenBrace source position) (v2ParseOpenBrace (encoded source) position.index) := by
  rw [parseOpenBrace_directive hdrop hclose hopen, h.v2ParseOpenBrace_directive hdrop hclose hopen]
  refine Same.map hsame fun action sent hchecked _ hsent => ?_
  have hvalid : validDirectiveText directive = true := by
    by_contra hinvalid
    rw [checkedDirective, if_pos hinvalid] at hchecked
    cases hchecked
  have hascii := ascii_of_valid hvalid
  have hlength : (encoded directive).length = directive.length := by
    rw [encoded_of_ascii fun unit hmem => (hascii unit hmem).1, List.length_map]
  have hsplit : source.drop position.index =
      (MacroCompiler.openBrace :: directive ++ [MacroCompiler.closeBrace]) ++ tail := by simpa using hdrop
  refine ⟨hsent, h.next hsplit ?_, ?_, Nat.succ_pos _⟩
  · intro unit hmem
    simp only [List.cons_append, List.mem_cons, List.mem_append, List.not_mem_nil, or_false] at hmem
    rcases hmem with rfl | hmem | rfl
    · decide
    · exact hascii unit hmem
    · decide
  · rw [hlength]
    simp [nextAscii]

theorem eq_cons_of_head {units : Units} {unit : UInt16} (h : units.head? = some unit) : ∃ rest, units = unit :: rest :=
  ⟨units.tail, List.eq_cons_of_mem_head? (Option.mem_def.mpr h)⟩

theorem same_openBrace (h : At source position) (hdrop : source.drop position.index = MacroCompiler.openBrace :: rest)
    (hsame : DirectivesSame source position) : Same (SameToken source position)
      (parseOpenBrace source position) (v2ParseOpenBrace (encoded source) position.index) := by
  have hfollowed := h.followedBy_iff hdrop (by decide) openBrace (by decide)
  by_cases hopen : rest.head? = some MacroCompiler.openBrace
  · obtain ⟨rest, rfl⟩ := eq_cons_of_head hopen
    rw [parseOpenBrace, At.getElem?_succ_eq hdrop, if_pos hopen, v2ParseOpenBrace, if_pos (hfollowed.mpr hopen)]
    exact h.samePair hdrop (by decide) 0x2f MacroCompiler.shift
  · by_cases hmem : MacroCompiler.closeBrace ∈ rest
    · obtain ⟨directive, tail, rfl, hclose⟩ := List.eq_append_cons_of_mem hmem
      have hhead : directive.head? ≠ some MacroCompiler.openBrace := by
        cases directive with
        | nil => simp
        | cons unit directive => exact hopen
      exact same_directive h hdrop hclose hhead (hsame directive tail hdrop hclose hhead)
    · have hnone : closeBrace ∉ encoded rest := fun hin => hmem (mem_of_mem_encoded hin (by decide))
      rw [parseOpenBrace, At.getElem?_succ_eq hdrop, if_neg hopen, v2ParseOpenBrace, if_neg (mt hfollowed.mp hopen),
        indexOf, ← List.drop_drop, hdrop, List.drop_one, List.tail_cons, findIdx?_none hmem, memchrFrom,
        h.drop_succ_encoded hdrop (by decide), findIdx?_none hnone]
      exact h.same .macroSyntax _ _

end Directive

section Token

variable {source rest : Units} {position : Position} {unit : UInt16} {scan : MacroCompiler.GroupScan}

theorem same_closeBrace (h : At source position) (hdrop : source.drop position.index = MacroCompiler.closeBrace :: rest) :
    Same (SameToken source position) (MacroCompiler.parseCloseBrace source position)
      (v2ParseCloseBrace (encoded source) position.index) := by
  have hfollowed := h.followedBy_iff hdrop (by decide) closeBrace (by decide)
  rw [MacroCompiler.parseCloseBrace, At.getElem?_succ_eq hdrop, v2ParseCloseBrace]
  by_cases hclose : rest.head? = some MacroCompiler.closeBrace
  · obtain ⟨rest, rfl⟩ := eq_cons_of_head hclose
    rw [if_neg (not_not.mpr hclose), if_pos (hfollowed.mpr hclose)]
    exact h.samePair hdrop (by decide) 0x30 MacroCompiler.shift
  · rw [if_pos hclose, if_neg (mt hfollowed.mp hclose)]
    exact h.same .macroSyntax _ _

theorem same_carriageReturn (h : At source position)
    (hdrop : source.drop position.index = MacroCompiler.asciiCarriageReturn :: rest) :
    Same (SameToken source position) (MacroCompiler.parseCarriageReturn source position)
      (if followedBy (encoded source) position.index asciiLineFeed then .ok ⟨v2KeyAction ⟨0, hidUsageEnter⟩, 2⟩
        else .error (v2Fail (encoded source) position.index "carriage return must be followed by line feed"
          .macroSyntax)) := by
  have hfollowed := h.followedBy_iff hdrop (by decide) asciiLineFeed (by decide)
  rw [MacroCompiler.parseCarriageReturn, At.getElem?_succ_eq hdrop]
  by_cases hfeed : rest.head? = some MacroCompiler.asciiLineFeed
  · obtain ⟨rest, rfl⟩ := eq_cons_of_head hfeed
    rw [if_neg (not_not.mpr hfeed), if_pos (hfollowed.mpr hfeed)]
    have hsplit : source.drop position.index =
        [MacroCompiler.asciiCarriageReturn] ++ MacroCompiler.asciiLineFeed :: rest := hdrop
    exact h.sameEnter hsplit (List.forall_mem_singleton.mpr (by decide))
  · rw [if_pos hfeed, if_neg (mt hfollowed.mp hfeed)]
    exact h.same .macroSyntax _ _

theorem printable_same (h : unit < 0x80) : Keymap.macroKeymapUsPrintable unit.toUInt8 =
    if 0x20 ≤ unit ∧ unit ≤ 0x7e then
      (MacroCompiler.printableKey unit).map (fun key => ⟨key.modifiers, key.usage⟩) else none := by
  have hall : ∀ n < 0x80, Keymap.macroKeymapUsPrintable (UInt16.ofNat n).toUInt8 =
      if 0x20 ≤ UInt16.ofNat n ∧ UInt16.ofNat n ≤ 0x7e then
        (MacroCompiler.printableKey (UInt16.ofNat n)).map (fun key => ⟨key.modifiers, key.usage⟩) else none := by
    decide +kernel
  have hunit := hall unit.toNat (UInt16.lt_iff_toNat_lt.mp h)
  rwa [UInt16.ofNat_toNat] at hunit

theorem parsePrintable_of_gt (h : 0x7e < unit) : MacroCompiler.parsePrintable unit position =
    .error (errorAt position .macroSyntax "source contains unsupported character") := by
  unfold MacroCompiler.parsePrintable
  cases MacroCompiler.printableKey unit with
  | none => rfl
  | some key => exact if_pos (Or.inr h)

theorem same_printable (h : At source position) (hdrop : source.drop position.index = unit :: rest) (hunit : unit < 0x80) :
    Same (SameToken source position) (MacroCompiler.parsePrintable unit position)
      (if unit.toUInt8 < asciiSpace ∨ asciiTilde < unit.toUInt8 then
        .error (v2Fail (encoded source) position.index "source contains unsupported character" .macroSyntax)
        else v2ParsePrintable (encoded source) position.index) := by
  have hlt : unit.toNat < 0x80 := UInt16.lt_iff_toNat_lt.mp hunit
  have hrange : (unit.toUInt8 < asciiSpace ∨ asciiTilde < unit.toUInt8) ↔ (unit < 0x20 ∨ 0x7e < unit) := by
    rw [UInt8.lt_iff_toNat_lt, UInt8.lt_iff_toNat_lt, UInt16.lt_iff_toNat_lt, UInt16.lt_iff_toNat_lt,
      UInt16.toNat_toUInt8, Nat.mod_eq_of_lt (by omega)]
    rfl
  have hfails : Same (SameToken source position)
      (.error (errorAt position .macroSyntax "source contains unsupported character"))
      (.error (v2Fail (encoded source) position.index "source contains unsupported character" .macroSyntax)) :=
    h.same .macroSyntax _ _
  unfold MacroCompiler.parsePrintable
  by_cases hout : unit < 0x20 ∨ 0x7e < unit
  · rw [if_pos (hrange.mpr hout)]
    cases MacroCompiler.printableKey unit with
    | none => exact hfails
    | some key =>
      dsimp only
      rw [if_pos hout]
      exact hfails
  · have hin : 0x20 ≤ unit ∧ unit ≤ 0x7e := by
      rw [not_or, UInt16.not_lt, UInt16.not_lt] at hout
      exact hout
    rw [if_neg (mt hrange.mp hout), v2ParsePrintable, h.byteAt_of_cons hdrop hunit, printable_same hunit, if_pos hin]
    cases MacroCompiler.printableKey unit with
    | none => exact hfails
    | some key =>
      dsimp only
      rw [if_neg hout]
      have hfeed : unit ≠ MacroCompiler.asciiLineFeed := by
        rintro rfl
        exact absurd hin.1 (by decide)
      have hsplit : source.drop position.index = [unit] ++ rest := hdrop
      exact h.sameKey hsplit (List.forall_mem_singleton.mpr ⟨hunit, hfeed⟩) Nat.one_pos key.usage key.modifiers

/-- Every token except the two square brackets, where the directives are the same. -/
theorem same_nonBracketToken (h : At source position) (hdrop : source.drop position.index = unit :: rest)
    (hopen : unit ≠ MacroCompiler.openBracket) (hclose : unit ≠ MacroCompiler.closeBracket)
    (hsame : DirectivesSame source position) : Same (SameToken source position) (parseTokenWith scan source position)
      (v2ParseNonBracketToken (encoded source) position.index) := by
  rw [parseTokenWith, At.getElem?_eq hdrop, v2ParseNonBracketToken]
  dsimp only
  by_cases hunit : unit < 0x80
  · rw [h.byteAt_of_cons hdrop hunit]
    have hbyte {other : UInt16} (byte : UInt8) (hsame : other.toUInt8 = byte) (hother : other < 0x80)
        (hne : unit ≠ other) : unit.toUInt8 ≠ byte := by
      rintro rfl
      have hlt : unit.toNat < 0x80 := UInt16.lt_iff_toNat_lt.mp hunit
      have hlt' : other.toNat < 0x80 := UInt16.lt_iff_toNat_lt.mp hother
      rw [← UInt8.toNat_inj, UInt16.toNat_toUInt8, UInt16.toNat_toUInt8] at hsame
      rw [Ne, ← UInt16.toNat_inj] at hne
      omega
    have hlow : ¬ 0x80 ≤ unit.toUInt8 := by
      have hlt : unit.toNat < 0x80 := UInt16.lt_iff_toNat_lt.mp hunit
      rw [UInt8.le_iff_toNat_le, UInt16.toNat_toUInt8, Nat.mod_eq_of_lt (by omega)]
      exact Nat.not_le.mpr hlt
    by_cases hzero : unit = 0
    · subst hzero
      have hnul : (0 : UInt16).toUInt8 = 0 := rfl
      rw [hnul, if_pos (Or.inr rfl)]
      exact h.same .macroSyntax _ _
    rw [if_neg (not_or.mpr ⟨hlow, hbyte 0 rfl (by decide) hzero⟩)]
    by_cases hreturn : unit = MacroCompiler.asciiCarriageReturn
    · subst hreturn
      exact same_carriageReturn h hdrop
    rw [if_neg hreturn, if_neg (hbyte asciiCarriageReturn rfl (by decide) hreturn)]
    by_cases hfeed : unit = MacroCompiler.asciiLineFeed
    · subst hfeed
      have hsplit : source.drop position.index = [] ++ MacroCompiler.asciiLineFeed :: rest := hdrop
      exact h.sameEnter hsplit (fun _ hmem => absurd hmem List.not_mem_nil)
    rw [if_neg hfeed, if_neg (hbyte asciiLineFeed rfl (by decide) hfeed)]
    by_cases htab : unit = MacroCompiler.asciiTab
    · subst htab
      have hsplit : source.drop position.index = [MacroCompiler.asciiTab] ++ rest := hdrop
      exact h.sameKey hsplit (List.forall_mem_singleton.mpr (by decide)) Nat.one_pos 0x2b 0
    rw [if_neg htab, if_neg (hbyte asciiTab rfl (by decide) htab)]
    by_cases hbrace : unit = MacroCompiler.openBrace
    · subst hbrace
      exact same_openBrace h hdrop hsame
    rw [if_neg hbrace, if_neg (hbyte openBrace rfl (by decide) hbrace)]
    by_cases hclosing : unit = MacroCompiler.closeBrace
    · subst hclosing
      exact same_closeBrace h hdrop
    rw [if_neg hclosing, if_neg (hbyte closeBrace rfl (by decide) hclosing), if_neg hopen, if_neg hclose]
    exact same_printable h hdrop hunit
  · obtain ⟨byte, tail, hencoded, hbyte⟩ := encoded_cons_of_le (UInt16.not_lt.mp hunit) rest
    have hgt : 0x7e < unit := UInt16.lt_of_lt_of_le (by decide) (UInt16.not_lt.mp hunit)
    have hne (other : UInt16) (hother : other < 0x80) : unit ≠ other := fun heq => hunit (heq ▸ hother)
    rw [h.byteAt_eq, hdrop, hencoded, List.headD_cons, if_pos (Or.inl hbyte), if_neg (hne _ (by decide)),
      if_neg (hne _ (by decide)), if_neg (hne _ (by decide)), if_neg (hne _ (by decide)), if_neg (hne _ (by decide)),
      if_neg hopen, if_neg hclose, parsePrintable_of_gt hgt]
    exact h.same .macroSyntax _ _

end Token

end MacroKeyboard.Webapp
