import MacroKeyboard.Limits
import MacroKeyboard.Records.CString
import MacroKeyboard.Records.PaddedText

namespace MacroKeyboard.Web.SessionCookie

open Records Records.CString Records.PaddedText

def authTokenHexBytes : Nat := 65

/-- `MKSESSION=`. -/
def sessionCookiePrefix : List UInt8 := bytes "MKSESSION="

def isTokenCharacter (b : UInt8) : Bool := (0x30 ≤ b && b ≤ 0x39) || (0x61 ≤ b && b ≤ 0x66)

section Scan

/-- The `for` loop of `valid_token` over the bytes that are left. -/
def tokenLoop (text : List UInt8) : Nat → Nat → Option Bool
  | 0, _ => some true
  | remaining + 1, index => do
    let b ← readAt text index
    if isTokenCharacter b then tokenLoop text remaining (index + 1) else some false

def validToken (text : List UInt8) (start length : Nat) : Option Bool :=
  if length ≠ authTokenHexBytes - 1 then some false else tokenLoop text length start

def isSkipped (b : UInt8) : Bool := b == 0x20 || b == 0x09 || b == 0x3b

/-- The first loop of a pass, over spaces, tabs and semicolons. -/
def skipSeparators (text : List UInt8) : Nat → Nat → Option Nat
  | 0, _ => none
  | passes + 1, cursor => do
    let b ← readAt text cursor
    if isSkipped b then skipSeparators text passes (cursor + 1) else some cursor

/-- `strchr` of a semicolon: where it is, or where the string ends, and whether there
is one. -/
def findSemicolon (text : List UInt8) : Nat → Nat → Option (Nat × Bool)
  | 0, _ => none
  | passes + 1, cursor => do
    let b ← readAt text cursor
    if b = 0x3b then some (cursor, true)
    else if b = 0 then some (cursor, false)
    else findSemicolon text passes (cursor + 1)

/-- The loop that leaves out trailing spaces and tabs. -/
def trimLength (text : List UInt8) (cursor : Nat) : Nat → Option Nat
  | 0 => some 0
  | length + 1 => do
    let b ← readAt text (cursor + length)
    if b = 0x20 ∨ b = 0x09 then trimLength text cursor length else some (length + 1)

/-- `memcmp` of the bytes from an index on. -/
def equalsAt (text : List UInt8) : List UInt8 → Nat → Option Bool
  | [], _ => some true
  | expected :: rest, index => do
    let b ← readAt text index
    let same ← equalsAt text rest (index + 1)
    some (b == expected && same)

def namedAt (text : List UInt8) (cursor trimmedLength : Nat) : Option Bool :=
  if sessionCookiePrefix.length ≤ trimmedLength then equalsAt text sessionCookiePrefix cursor else some false

/-- The outer loop, with the value found so far by its start and its length. -/
def scanLoop (text : List UInt8) : Nat → Nat → Option (Nat × Nat) → Option (Except AppError (Option (Nat × Nat)))
  | 0, _, _ => none
  | passes + 1, cursor, found => do
    let b ← readAt text cursor
    if b = 0 then some (.ok found)
    else
      let cursor ← skipSeparators text (text.length + 1) cursor
      let (finish, separated) ← findSemicolon text (text.length + 1) cursor
      let trimmedLength ← trimLength text cursor (finish - cursor)
      let named ← namedAt text cursor trimmedLength
      if named && found.isSome then some (.error .authRequired)
      else
        let found :=
          if named then some (cursor + sessionCookiePrefix.length, trimmedLength - sessionCookiePrefix.length)
          else found
        if separated then scanLoop text passes (finish + 1) found else some (.ok found)

/-- `web_cookie_extract_session`: the answer and the buffer after it. A pointer that is
null is no string, or no buffer; nothing is the outcome of a read behind the string or
of too few passes. -/
def webCookieExtractSession (cookie : Option CString) (outToken : Option (List UInt8)) :
    Option (AppError × Option (List UInt8)) :=
  match cookie, outToken with
  | some cookie, some buffer =>
    if buffer.length < authTokenHexBytes then some (.invalidArgument, some (cleared buffer))
    else do
      let outcome ← scanLoop cookie.bytes (cookie.bytes.length + 1) 0 none
      match outcome with
      | .error error => some (error, some (cleared buffer))
      | .ok none => some (.authRequired, some (cleared buffer))
      | .ok (some (start, length)) =>
        let valid ← validToken cookie.bytes start length
        if !valid || buffer.length ≤ length then some (.authRequired, some (cleared buffer))
        else
          some (.none, some ((cookie.bytes.drop start).take length ++ 0 :: (cleared buffer).drop (length + 1)))
  | _, outToken => some (.invalidArgument, outToken.map cleared)

def webCookieBuildSessionHeader (sessionToken : Option CString) (outHeader : Option (List UInt8)) :
    Option (AppError × Option (List UInt8)) :=
  match sessionToken, outHeader with
  | some token, some buffer =>
    if buffer.length = 0 then some (.invalidArgument, some buffer)
    else do
      let valid ← validToken token.bytes 0 token.bytes.length
      if !valid then some (.invalidArgument, some (cleared buffer))
      else
        let written := sessionCookiePrefix ++ token.bytes ++ bytes "; HttpOnly; SameSite=Strict; Path=/"
        let printed := written.take (buffer.length - 1) ++ 0 :: buffer.drop (written.length + 1)
        if written.length ≥ buffer.length then some (.internal, some (cleared printed))
        else some (.none, some printed)
  | _, outHeader => some (.invalidArgument, outHeader.map cleared)

end Scan

section Grammar

def isBlank (b : UInt8) : Bool := b == 0x20 || b == 0x09

def trimmed (segment : List UInt8) : List UInt8 := (segment.dropWhile isBlank).rdropWhile isBlank

def valueOf (segment : List UInt8) : Option (List UInt8) :=
  if sessionCookiePrefix.isPrefixOf segment then some (segment.drop sessionCookiePrefix.length) else none

def sessionValues (cookie : List UInt8) : List (List UInt8) :=
  ((cookie.splitOn 0x3b).map trimmed).filterMap valueOf

def IsToken (text : List UInt8) : Prop := text.length = 64 ∧ text.all isTokenCharacter = true

theorem sessionValues_nil : sessionValues [] = [] := by decide

theorem sessionValues_cons_skipped {b : UInt8} (h : isSkipped b = true) (rest : List UInt8) :
    sessionValues (b :: rest) = sessionValues rest := by
  unfold sessionValues
  obtain ⟨first, others, hsplit⟩ := List.exists_cons_of_ne_nil (List.splitOn_ne_nil (0x3b : UInt8) rest)
  rw [List.splitOn_cons_eq_if_modifyHead, hsplit]
  split_ifs with hseparator
  · rw [List.map_cons, List.filterMap_cons, show valueOf (trimmed []) = none by decide]
  · have hblank : isBlank b = true := by
      rw [isSkipped, Bool.or_eq_true] at h
      exact h.resolve_right hseparator
    rw [List.modifyHead_cons, List.map_cons, List.map_cons, trimmed, List.dropWhile_cons_of_pos hblank, ← trimmed]

theorem sessionValues_dropWhile (rest : List UInt8) : sessionValues (rest.dropWhile isSkipped) = sessionValues rest := by
  induction rest with
  | nil => rfl
  | cons b rest ih =>
    rw [List.dropWhile_cons]
    split_ifs with h
    · rw [ih, sessionValues_cons_skipped h]
    · rfl

theorem sessionValues_of_notMem {segment : List UInt8} (h : 0x3b ∉ segment) :
    sessionValues segment = (valueOf (trimmed segment)).toList := by
  rw [sessionValues, List.splitOn_eq_singleton h, List.map_singleton]
  cases hvalue : valueOf (trimmed segment) with
  | none => rw [List.filterMap_cons_none hvalue, List.filterMap_nil, Option.toList_none]
  | some value => rw [List.filterMap_cons_some hvalue, List.filterMap_nil, Option.toList_some]

theorem sessionValues_append {segment : List UInt8} (h : 0x3b ∉ segment) (rest : List UInt8) :
    sessionValues (segment ++ 0x3b :: rest) = (valueOf (trimmed segment)).toList ++ sessionValues rest := by
  rw [sessionValues, List.splitOn_append_cons_self_of_not_mem h, List.map_cons]
  cases hvalue : valueOf (trimmed segment) with
  | none => rw [List.filterMap_cons_none hvalue, Option.toList_none, List.nil_append, sessionValues]
  | some value => rw [List.filterMap_cons_some hvalue, Option.toList_some, List.singleton_append, sessionValues]

theorem trimmed_of_head {segment : List UInt8} (h : ∀ b, segment.head? = some b → isBlank b = false) :
    trimmed segment = segment.rdropWhile isBlank := by
  cases segment with
  | nil => rfl
  | cons b rest => rw [trimmed, List.dropWhile_cons_of_neg (by rw [h b rfl]; exact Bool.false_ne_true)]

end Grammar

section Steps

variable {text : List UInt8}

theorem skipSeparators_spec {passes cursor : Nat} (hcursor : cursor ≤ text.length)
    (hpasses : text.length - cursor < passes) : ∃ next, skipSeparators text passes cursor = some next ∧ cursor ≤ next ∧
      next ≤ text.length ∧ text.drop next = (text.drop cursor).dropWhile isSkipped := by
  induction passes generalizing cursor with
  | zero => omega
  | succ passes ih =>
    rw [skipSeparators]
    rcases drop_cons_or_end hcursor with ⟨b, rest, hdrop, hrest⟩ | ⟨hdrop, rfl⟩
    · rw [readAt_of_drop hdrop, Option.bind_eq_bind, Option.bind_some, hdrop, List.dropWhile_cons]
      have hlength := congrArg List.length hdrop
      rw [List.length_drop, List.length_cons] at hlength
      split_ifs with hskipped
      · have hcursor' : cursor + 1 ≤ text.length := by omega
        obtain ⟨next, hnext, hle, hend, hleft⟩ := ih hcursor' (by omega)
        exact ⟨next, hnext, by omega, hend, by rw [hleft, hrest]⟩
      · exact ⟨cursor, rfl, le_rfl, hcursor, hdrop⟩
    · rw [readAt_length, Option.bind_eq_bind, Option.bind_some, if_neg (by decide), hdrop]
      exact ⟨_, rfl, le_rfl, le_rfl, hdrop⟩

theorem findSemicolon_spec (hzero : 0 ∉ text) {passes cursor : Nat} (hcursor : cursor ≤ text.length)
    (hpasses : text.length - cursor < passes) : ∃ segment, 0x3b ∉ segment ∧
      ((∃ rest, text.drop cursor = segment ++ 0x3b :: rest ∧
          findSemicolon text passes cursor = some (cursor + segment.length, true)) ∨
        (text.drop cursor = segment ∧ findSemicolon text passes cursor = some (cursor + segment.length, false))) := by
  induction passes generalizing cursor with
  | zero => omega
  | succ passes ih =>
    rw [findSemicolon]
    rcases drop_cons_or_end hcursor with ⟨b, rest, hdrop, hrest⟩ | ⟨hdrop, rfl⟩
    · rw [readAt_of_drop hdrop, Option.bind_eq_bind, Option.bind_some, hdrop]
      have hlength := congrArg List.length hdrop
      rw [List.length_drop, List.length_cons] at hlength
      by_cases hsemicolon : b = 0x3b
      · rw [if_pos hsemicolon, hsemicolon]
        exact ⟨[], List.not_mem_nil, Or.inl ⟨rest, rfl, rfl⟩⟩
      · have hne : b ≠ 0 := by
          rintro rfl
          exact hzero (List.mem_of_mem_drop (hdrop ▸ List.mem_cons_self))
        rw [if_neg hsemicolon, if_neg hne]
        have hcursor' : cursor + 1 ≤ text.length := by omega
        obtain ⟨segment, hsegment, hfound⟩ := ih hcursor' (by omega)
        rw [hrest] at hfound
        refine ⟨b :: segment, ?_, ?_⟩
        · rw [List.mem_cons, not_or]
          exact ⟨Ne.symm hsemicolon, hsegment⟩
        · rw [List.length_cons, show cursor + (segment.length + 1) = cursor + 1 + segment.length by omega]
          rcases hfound with ⟨tail, hleft, hfind⟩ | ⟨hleft, hfind⟩
          · exact Or.inl ⟨tail, by rw [hleft, List.cons_append], hfind⟩
          · exact Or.inr ⟨by rw [hleft], hfind⟩
    · rw [readAt_length, Option.bind_eq_bind, Option.bind_some, if_neg (by decide), if_pos rfl, hdrop]
      exact ⟨[], List.not_mem_nil, Or.inr ⟨rfl, rfl⟩⟩

theorem trimLength_spec {cursor : Nat} {segment : List UInt8} (h : segment <+: text.drop cursor) :
    trimLength text cursor segment.length = some (segment.rdropWhile isBlank).length := by
  induction segment using List.reverseRecOn with
  | nil => rfl
  | append_singleton segment b ih =>
    obtain ⟨rest, hrest⟩ := h
    have hdrop : text.drop (cursor + segment.length) = b :: rest := by
      rw [← List.drop_drop, ← hrest, List.append_assoc, List.drop_left, List.singleton_append]
    rw [List.length_append, List.length_singleton, trimLength, readAt_of_drop hdrop, Option.bind_eq_bind,
      Option.bind_some, List.rdropWhile_concat]
    by_cases hblank : b = 0x20 ∨ b = 0x09
    · rw [if_pos hblank, if_pos (by rw [isBlank, Bool.or_eq_true, beq_iff_eq, beq_iff_eq]; exact hblank)]
      exact ih ⟨b :: rest, by rw [← hrest, List.append_assoc, List.singleton_append]⟩
    · rw [if_neg hblank, if_neg (by rw [isBlank, Bool.or_eq_true, beq_iff_eq, beq_iff_eq]; exact hblank),
        List.length_append, List.length_singleton]

theorem equalsAt_spec {expected : List UInt8} {index : Nat} (h : index + expected.length ≤ text.length) :
    equalsAt text expected index = some (expected.isPrefixOf (text.drop index)) := by
  induction expected generalizing index with
  | nil => rfl
  | cons b expected ih =>
    rw [List.length_cons] at h
    rcases drop_cons_or_end (show index ≤ text.length by omega) with ⟨c, rest, hdrop, hrest⟩ | ⟨-, hend⟩
    · rw [equalsAt, readAt_of_drop hdrop, ih (by omega), hrest, hdrop]
      simp only [Option.bind_eq_bind, Option.bind_some, List.isPrefixOf]
      rw [Bool.beq_comm]
    · omega

theorem tokenLoop_spec {length start : Nat} (h : start + length ≤ text.length) :
    tokenLoop text length start = some (((text.drop start).take length).all isTokenCharacter) := by
  induction length generalizing start with
  | zero => rfl
  | succ length ih =>
    rcases drop_cons_or_end (show start ≤ text.length by omega) with ⟨b, rest, hdrop, hrest⟩ | ⟨-, hend⟩
    · rw [tokenLoop, readAt_of_drop hdrop, hdrop, List.take_succ_cons, List.all_cons, Option.bind_eq_bind, Option.bind_some]
      cases hcharacter : isTokenCharacter b with
      | false => rfl
      | true => rw [if_pos rfl, ih (by omega), hrest, Bool.true_and]
    · omega

end Steps

section Runs

variable {text : List UInt8}

/-- The values that an outcome of the scan stands for. -/
def Outcome (text : List UInt8) (values : List (List UInt8)) : Except AppError (Option (Nat × Nat)) → Prop
  | .error error => error = .authRequired ∧ 2 ≤ values.length
  | .ok none => values = []
  | .ok (some (start, length)) => start + length ≤ text.length ∧ values = [(text.drop start).take length]

theorem named_spec {cursor : Nat} {segment : List UInt8} (hcursor : cursor ≤ text.length)
    (h : segment <+: text.drop cursor) : ∃ named : Bool,
      namedAt text cursor segment.length = some named ∧
      ((named = false ∧ valueOf segment = none) ∨
        (named = true ∧ ∃ value, valueOf segment = some value ∧ Outcome text [value]
          (.ok (some (cursor + sessionCookiePrefix.length, segment.length - sessionCookiePrefix.length))))) := by
  have hlength := h.length_le
  rw [List.length_drop] at hlength
  unfold namedAt valueOf
  split_ifs with hlong hnamed hnamed
  · rw [List.isPrefixOf_iff_prefix] at hnamed
    rw [equalsAt_spec (by omega)]
    refine ⟨true, ?_, Or.inr ⟨rfl, _, rfl, by omega, ?_⟩⟩
    · rw [List.isPrefixOf_iff_prefix.mpr (hnamed.trans h)]
    · obtain ⟨rest, hrest⟩ := h
      rw [← List.drop_drop, ← hrest, List.drop_append_of_le_length hlong, ← List.length_drop, List.take_left]
  · rw [equalsAt_spec (by omega)]
    refine ⟨false, ?_, Or.inl ⟨rfl, rfl⟩⟩
    rw [Option.some.injEq, ← Bool.not_eq_true, List.isPrefixOf_iff_prefix]
    intro hfront
    exact hnamed (List.isPrefixOf_iff_prefix.mpr (List.prefix_of_prefix_length_le hfront h hlong))
  · exact absurd (List.isPrefixOf_iff_prefix.mp hnamed).length_le hlong
  · exact ⟨false, rfl, Or.inl ⟨rfl, rfl⟩⟩

/-- What a pass of the loop finds: a segment, the value of the session in it when it
names the session, and what is left behind its semicolon. -/
structure Pass (text : List UInt8) (cursor : Nat) where
  finish : Nat
  separated : Bool
  named : Option (Nat × Nat)
  value : Option (List UInt8)
  rest : List UInt8
  inside : finish ≤ text.length
  forward : cursor ≤ finish
  outcome : ∀ start length, named = some (start, length) →
    ∃ found, value = some found ∧ Outcome text [found] (.ok (some (start, length)))
  unnamed : named = none → value = none
  left : if separated then finish < text.length ∧ text.drop (finish + 1) = rest else rest = []
  values : sessionValues (text.drop cursor) = value.toList ++ sessionValues rest
  run : ∀ passes found, scanLoop text (passes + 1) cursor found =
    if named.isSome && found.isSome then some (.error .authRequired)
    else if separated then scanLoop text passes (finish + 1) (named.or found) else some (.ok (named.or found))

theorem isBlank_of_dropWhile {rest : List UInt8} {b : UInt8} (h : (rest.dropWhile isSkipped).head? = some b) :
    isBlank b = false := by
  have hskipped := List.head?_dropWhile_not isSkipped rest
  rw [h] at hskipped
  change isSkipped b = false at hskipped
  rw [isSkipped, Bool.or_eq_false_iff] at hskipped
  exact hskipped.1

def placeOf (named : Bool) (next : Nat) (segment : List UInt8) : Option (Nat × Nat) :=
  if named then some (next + sessionCookiePrefix.length, (segment.rdropWhile isBlank).length - sessionCookiePrefix.length)
  else none

theorem exists_pass (hzero : 0 ∉ text) {cursor : Nat} (hcursor : cursor < text.length) : Nonempty (Pass text cursor) := by
  have hb : ∃ b, readAt text cursor = some b ∧ b ≠ 0 := by
    rcases drop_cons_or_end hcursor.le with ⟨b, rest, hdrop, -⟩ | ⟨-, hend⟩
    · refine ⟨b, readAt_of_drop hdrop, ?_⟩
      rintro rfl
      exact hzero (List.mem_of_mem_drop (hdrop ▸ List.mem_cons_self))
    · omega
  obtain ⟨b, hread, hne⟩ := hb
  have hpasses (position : Nat) : text.length - position < text.length + 1 := by omega
  obtain ⟨next, hnext, hle, hend, hleft⟩ := skipSeparators_spec hcursor.le (hpasses cursor)
  obtain ⟨segment, hsegment, hfind⟩ := findSemicolon_spec hzero hend (hpasses next)
  have hfront : segment <+: text.drop next := by
    rcases hfind with ⟨rest, hrest, -⟩ | ⟨hrest, -⟩
    · exact ⟨_, hrest.symm⟩
    · exact hrest ▸ List.prefix_refl _
  have hhead : ∀ c, segment.head? = some c → isBlank c = false := by
    intro c hc
    obtain ⟨rest, hrest⟩ := hfront
    have hfirst : ((text.drop cursor).dropWhile isSkipped).head? = some c := by
      rw [← hleft, ← hrest, List.head?_append, hc]
      rfl
    exact isBlank_of_dropWhile hfirst
  have hshort : segment.rdropWhile isBlank <+: text.drop next := (List.rdropWhile_prefix isBlank segment).trans hfront
  have hlength := hfront.length_le
  rw [List.length_drop] at hlength
  obtain ⟨named, hnamed, hvalue⟩ := named_spec hend hshort
  have hvalues : sessionValues (text.drop cursor) = sessionValues (text.drop next) := by
    rw [hleft, sessionValues_dropWhile]
  have hrun (separated : Bool) (hsemicolon : findSemicolon text (text.length + 1) next =
      some (next + segment.length, separated)) (passes : Nat) (found : Option (Nat × Nat)) :
      scanLoop text (passes + 1) cursor found =
        if (placeOf named next segment).isSome && found.isSome then some (.error .authRequired)
        else if separated then scanLoop text passes (next + segment.length + 1) ((placeOf named next segment).or found)
        else some (.ok ((placeOf named next segment).or found)) := by
    rw [scanLoop]
    simp only [hread, Option.bind_eq_bind, Option.bind_some, if_neg hne, hnext, hsemicolon, Nat.add_sub_cancel_left,
      trimLength_spec hfront, hnamed]
    cases named <;> rfl
  have houtcome (start length : Nat) (hplace : placeOf named next segment = some (start, length)) :
      ∃ found, valueOf (trimmed segment) = some found ∧ Outcome text [found] (.ok (some (start, length))) := by
    rw [trimmed_of_head hhead]
    rcases hvalue with ⟨rfl, -⟩ | ⟨rfl, found, hfound, houtcome⟩
    · cases hplace
    · cases hplace
      exact ⟨found, hfound, houtcome⟩
  have hunnamed (hplace : placeOf named next segment = none) : valueOf (trimmed segment) = none := by
    rw [trimmed_of_head hhead]
    rcases hvalue with ⟨rfl, hnone⟩ | ⟨rfl, -⟩
    · exact hnone
    · cases hplace
  rcases hfind with ⟨rest, hrest, hsemicolon⟩ | ⟨hrest, hsemicolon⟩
  · have hdrop := congrArg List.length hrest
    rw [List.length_drop, List.length_append, List.length_cons] at hdrop
    refine ⟨⟨next + segment.length, true, placeOf named next segment, valueOf (trimmed segment), rest, by omega, by omega,
      houtcome, hunnamed, ⟨by omega, ?_⟩, ?_, hrun true hsemicolon⟩⟩
    · rw [Nat.add_assoc, ← List.drop_drop, hrest, ← List.drop_drop, List.drop_left]
      rfl
    · rw [hvalues, hrest, sessionValues_append hsegment]
  · refine ⟨⟨next + segment.length, false, placeOf named next segment, valueOf (trimmed segment), [], by omega, by omega,
      houtcome, hunnamed, rfl, ?_, hrun false hsemicolon⟩⟩
    rw [hvalues, hrest, sessionValues_of_notMem hsegment, sessionValues_nil, List.append_nil]

/-- The scan ends, and its outcome stands for the values found before and those of what
was left. -/
theorem scanLoop_spec (hzero : 0 ∉ text) {passes cursor : Nat} (hcursor : cursor ≤ text.length)
    (hpasses : text.length - cursor < passes) {before : List (List UInt8)} {found : Option (Nat × Nat)}
    (hfound : Outcome text before (.ok found)) : ∃ outcome, scanLoop text passes cursor found = some outcome ∧
      Outcome text (before ++ sessionValues (text.drop cursor)) outcome := by
  induction passes generalizing cursor before found with
  | zero => omega
  | succ passes ih =>
    rcases Nat.lt_or_eq_of_le hcursor with hlt | rfl
    · obtain ⟨pass⟩ := exists_pass hzero hlt
      rw [pass.run, pass.values]
      have hforward := pass.forward
      have hfound' : (pass.named.isSome && found.isSome) = false →
          Outcome text (before ++ pass.value.toList) (.ok (pass.named.or found)) := by
        intro hone
        cases hnamed : pass.named with
        | none =>
          rw [pass.unnamed hnamed, Option.toList_none, List.append_nil]
          exact hfound
        | some place =>
          rw [hnamed] at hone
          cases found with
          | some _ => cases hone
          | none =>
            obtain ⟨value, hvalue, houtcome⟩ := pass.outcome place.1 place.2 hnamed
            change before = [] at hfound
            rw [hfound, hvalue, Option.toList_some, List.nil_append]
            exact houtcome
      split_ifs with htwice hseparated
      · refine ⟨_, rfl, rfl, ?_⟩
        rw [Bool.and_eq_true, Option.isSome_iff_exists, Option.isSome_iff_exists] at htwice
        obtain ⟨⟨place, hplace⟩, ⟨start, length⟩, rfl⟩ := htwice
        obtain ⟨value, hvalue, -⟩ := pass.outcome place.1 place.2 hplace
        rw [hfound.2, hvalue]
        simp
      · have hleft := pass.left
        rw [if_pos hseparated] at hleft
        rw [← List.append_assoc, ← hleft.2]
        exact ih (by omega) (by omega) (hfound' (Bool.eq_false_iff.mpr htwice))
      · have hleft := pass.left
        rw [if_neg hseparated] at hleft
        rw [hleft, sessionValues_nil, List.append_nil]
        exact ⟨_, rfl, hfound' (Bool.eq_false_iff.mpr htwice)⟩
    · rw [scanLoop, readAt_length, List.drop_length, sessionValues_nil, List.append_nil]
      exact ⟨_, rfl, hfound⟩

end Runs

section Extraction

theorem validToken_spec {text : List UInt8} {start length : Nat} (h : start + length ≤ text.length) :
    ∃ valid, validToken text start length = some valid ∧ (valid = true ↔ IsToken ((text.drop start).take length)) := by
  have hlength : ((text.drop start).take length).length = length := by
    rw [List.length_take, List.length_drop]
    omega
  unfold validToken IsToken
  rw [hlength]
  split_ifs with hother
  · exact ⟨false, rfl, fun hfalse => (by cases hfalse), fun htoken => absurd htoken.1 hother⟩
  · refine ⟨_, tokenLoop_spec h, fun hall => ⟨not_not.mp hother, hall⟩, fun htoken => htoken.2⟩

theorem IsToken.zero_notMem {text : List UInt8} (h : IsToken text) : 0 ∉ text := by
  intro hmem
  have hzero := List.all_eq_true.mp h.2 0 hmem
  exact absurd hzero (by decide)

theorem textOf_token {token : List UInt8} (h : IsToken token) (rest : List UInt8) : textOf (token ++ 0 :: rest) = token :=
  textOf_append_zero h.zero_notMem

/-- The session is extracted exactly when one segment names it, with a token. -/
theorem extract_spec (cookie : CString) (buffer : List UInt8) : ∃ result after,
    webCookieExtractSession (some cookie) (some buffer) = some (result, some after) ∧ after.length = buffer.length ∧
      ((result = .none ∧ authTokenHexBytes ≤ buffer.length ∧
          ∃ token, IsToken token ∧ sessionValues cookie.bytes = [token] ∧ textOf after = token) ∨
        (result ≠ .none ∧ textOf after = [] ∧ ¬ (authTokenHexBytes ≤ buffer.length ∧
          ∃ token, IsToken token ∧ sessionValues cookie.bytes = [token]))) := by
  rw [webCookieExtractSession]
  by_cases hsmall : buffer.length < authTokenHexBytes
  · rw [if_pos hsmall]
    exact ⟨_, _, rfl, length_cleared buffer, Or.inr ⟨by decide, textOf_cleared buffer, fun h => by omega⟩⟩
  rw [if_neg hsmall]
  have hpasses : cookie.bytes.length - 0 < cookie.bytes.length + 1 := by omega
  have hnone : Outcome cookie.bytes [] (.ok none) := rfl
  obtain ⟨outcome, hscan, houtcome⟩ := scanLoop_spec cookie.terminated (Nat.zero_le _) hpasses hnone
  rw [List.nil_append, List.drop_zero] at houtcome
  simp only [hscan, Option.bind_eq_bind, Option.bind_some]
  have hrefused {error : AppError} (herror : error ≠ .none)
      (hnone : ¬ ∃ token, IsToken token ∧ sessionValues cookie.bytes = [token]) : ∃ result after,
      some (error, some (cleared buffer)) = some (result, some after) ∧ after.length = buffer.length ∧
        ((result = .none ∧ authTokenHexBytes ≤ buffer.length ∧
            ∃ token, IsToken token ∧ sessionValues cookie.bytes = [token] ∧ textOf after = token) ∨
          (result ≠ .none ∧ textOf after = [] ∧ ¬ (authTokenHexBytes ≤ buffer.length ∧
            ∃ token, IsToken token ∧ sessionValues cookie.bytes = [token]))) :=
    ⟨_, _, rfl, length_cleared buffer, Or.inr ⟨herror, textOf_cleared buffer, fun h => hnone h.2⟩⟩
  cases outcome with
  | error error =>
    obtain ⟨rfl, htwo⟩ := houtcome
    refine hrefused (by decide) ?_
    rintro ⟨token, -, hvalues⟩
    rw [hvalues] at htwo
    exact absurd htwo (by simp)
  | ok found =>
    cases found with
    | none =>
      refine hrefused (by decide) ?_
      rintro ⟨token, -, hvalues⟩
      rw [show sessionValues cookie.bytes = [] from houtcome] at hvalues
      cases hvalues
    | some place =>
      obtain ⟨start, length⟩ := place
      obtain ⟨hinside, hvalues⟩ := houtcome
      obtain ⟨valid, hvalid, htoken⟩ := validToken_spec hinside
      simp only [hvalid, Option.bind_some]
      have hlength : ((cookie.bytes.drop start).take length).length = length := by
        rw [List.length_take, List.length_drop]
        omega
      split_ifs with hbad
      · refine hrefused (by decide) ?_
        rintro ⟨token, htoken', hvalues'⟩
        rw [hvalues] at hvalues'
        cases hvalues'
        rw [htoken.mpr htoken'] at hbad
        simp only [Bool.not_true, Bool.false_or, decide_eq_true_eq] at hbad
        have hsize := htoken'.1
        rw [authTokenHexBytes] at hsmall
        omega
      · simp only [Bool.or_eq_true, not_or, Bool.not_eq_true', Bool.not_eq_false, decide_eq_true_eq] at hbad
        have hgood := htoken.mp hbad.1
        refine ⟨_, _, rfl, ?_, Or.inl ⟨rfl, not_lt.mp hsmall, _, hgood, hvalues, textOf_token hgood _⟩⟩
        rw [List.length_append, List.length_cons, List.length_drop, length_cleared, hlength]
        omega

def sessionHeader (token : List UInt8) : List UInt8 :=
  sessionCookiePrefix ++ token ++ bytes "; HttpOnly; SameSite=Strict; Path=/"

/-- The first attribute of the header in a buffer, which the browser sends back. -/
def firstAttribute (buffer : List UInt8) : CString where
  bytes := (textOf buffer).takeWhile (· != 0x3b)
  terminated := fun hmem => zero_notMem_textOf buffer ((List.takeWhile_sublist _).mem hmem)

theorem firstAttribute_bytes (buffer : List UInt8) :
    (firstAttribute buffer).bytes = (textOf buffer).takeWhile (· != 0x3b) := rfl

/-- A header is built exactly of a token, when the buffer holds it. -/
theorem build_spec (token : CString) (buffer header : List UInt8) :
    webCookieBuildSessionHeader (some token) (some buffer) = some (.none, some header) ↔
      IsToken token.bytes ∧ (sessionHeader token.bytes).length < buffer.length ∧
        header = sessionHeader token.bytes ++ 0 :: buffer.drop ((sessionHeader token.bytes).length + 1) := by
  have hall : 0 + token.bytes.length ≤ token.bytes.length := (Nat.zero_add _).le
  obtain ⟨valid, hvalid, htoken⟩ := validToken_spec hall
  rw [List.drop_zero, List.take_length] at htoken
  rw [webCookieBuildSessionHeader]
  split_ifs with hempty
  · refine ⟨fun h => (by cases h), fun h => ?_⟩
    omega
  · simp only [hvalid, Option.bind_eq_bind, Option.bind_some]
    cases valid with
    | false => exact ⟨fun h => (by cases h), fun h => absurd (htoken.mpr h.1) Bool.false_ne_true⟩
    | true =>
      rw [Bool.not_true, if_neg Bool.false_ne_true]
      have hgood := htoken.mp rfl
      split_ifs with hlong
      · refine ⟨fun h => (by cases h), fun h => ?_⟩
        have hfits := h.2.1
        rw [sessionHeader] at hfits
        omega
      · rw [not_le] at hlong
        rw [List.take_of_length_le (by omega)]
        constructor
        · intro h
          cases h
          exact ⟨hgood, hlong, rfl⟩
        · rintro ⟨-, -, rfl⟩
          rfl

theorem firstAttribute_build {token : List UInt8} (htoken : IsToken token) (rest : List UInt8) :
    (firstAttribute (sessionHeader token ++ 0 :: rest)).bytes = sessionCookiePrefix ++ token := by
  have hzero : (0 : UInt8) ∉ sessionHeader token := by
    rw [sessionHeader, List.mem_append, List.mem_append, not_or, not_or]
    exact ⟨⟨by decide, htoken.zero_notMem⟩, by decide⟩
  have hsemicolon : ∀ b ∈ sessionCookiePrefix ++ token, (b != 0x3b) = true := by
    intro b hmem
    rw [bne_iff_ne]
    rintro rfl
    rcases List.mem_append.mp hmem with hfront | hin
    · exact absurd hfront (by decide)
    · exact absurd (List.all_eq_true.mp htoken.2 _ hin) (by decide)
  rw [firstAttribute_bytes, textOf_append_zero hzero, sessionHeader, List.takeWhile_append_of_pos hsemicolon]
  exact List.append_nil _

theorem sessionValues_token {token : List UInt8} (htoken : IsToken token) :
    sessionValues (sessionCookiePrefix ++ token) = [token] := by
  have hin {b : UInt8} (hmem : b ∈ token) : isTokenCharacter b = true := List.all_eq_true.mp htoken.2 b hmem
  have hsemicolon : (0x3b : UInt8) ∉ sessionCookiePrefix ++ token := by
    rw [List.mem_append, not_or]
    exact ⟨by decide, fun hmem => absurd (hin hmem) (by decide)⟩
  have hblank {b : UInt8} (hcharacter : isTokenCharacter b = true) : isBlank b = false := by
    rw [Bool.eq_false_iff]
    intro hblank
    rw [isBlank, Bool.or_eq_true, beq_iff_eq, beq_iff_eq] at hblank
    rcases hblank with rfl | rfl <;> exact absurd hcharacter (by decide)
  have htrimmed : trimmed (sessionCookiePrefix ++ token) = sessionCookiePrefix ++ token := by
    rw [trimmed_of_head fun b hb => by cases hb; decide]
    cases htoken' : token using List.reverseRecOn with
    | nil => decide
    | append_singleton front b _ =>
      rw [← List.append_assoc, List.rdropWhile_concat, if_neg]
      rw [hblank (hin (htoken' ▸ List.mem_append_right front List.mem_cons_self))]
      exact Bool.false_ne_true
  rw [sessionValues_of_notMem hsemicolon, htrimmed, valueOf, if_pos, List.drop_left, Option.toList_some]
  exact List.isPrefixOf_iff_prefix.mpr (List.prefix_append _ _)

/-- The grammar of the session cookie: what is extracted, that nothing else is, and that
a header that was built is read back. -/
theorem session_cookie_grammar :
    (∀ (cookie : CString) (buffer : List UInt8), ∃ result after,
      webCookieExtractSession (some cookie) (some buffer) = some (result, some after) ∧ after.length = buffer.length ∧
        (∀ token, result = .none ∧ textOf after = token ↔
          authTokenHexBytes ≤ buffer.length ∧ IsToken token ∧ sessionValues cookie.bytes = [token]) ∧
        (result = .none ∨ textOf after = [])) ∧
    ∀ (token : CString) (buffer : List UInt8),
      ((∃ header, webCookieBuildSessionHeader (some token) (some buffer) = some (.none, some header)) ↔
        IsToken token.bytes ∧ (sessionHeader token.bytes).length < buffer.length) ∧
      ∀ header, webCookieBuildSessionHeader (some token) (some buffer) = some (.none, some header) →
        ∀ outToken : List UInt8, authTokenHexBytes ≤ outToken.length → ∃ after,
          webCookieExtractSession (some (firstAttribute header)) (some outToken) = some (.none, some after) ∧
            textOf after = token.bytes := by
  refine ⟨fun cookie buffer => ?_, fun token buffer => ⟨⟨?_, ?_⟩, fun header hheader outToken hsize => ?_⟩⟩
  · obtain ⟨result, after, hrun, hlength, hresult⟩ := extract_spec cookie buffer
    refine ⟨result, after, hrun, hlength, fun token => ⟨?_, ?_⟩, ?_⟩
    · rintro ⟨rfl, rfl⟩
      obtain ⟨-, hfits, token, htoken, hvalues, htext⟩ := hresult.resolve_right fun h => h.1 rfl
      rw [htext]
      exact ⟨hfits, htoken, hvalues⟩
    · rintro ⟨hfits, htoken, hvalues⟩
      obtain ⟨rfl, -, found, -, hfound, htext⟩ := hresult.resolve_right fun h => h.2.2 ⟨hfits, token, htoken, hvalues⟩
      rw [hvalues] at hfound
      cases hfound
      exact ⟨rfl, htext⟩
    · exact hresult.imp And.left fun h => h.2.1
  · rintro ⟨header, hheader⟩
    obtain ⟨htoken, hfits, -⟩ := (build_spec token buffer header).mp hheader
    exact ⟨htoken, hfits⟩
  · rintro ⟨htoken, hfits⟩
    exact ⟨_, (build_spec token buffer _).mpr ⟨htoken, hfits, rfl⟩⟩
  · obtain ⟨htoken, -, rfl⟩ := (build_spec token buffer header).mp hheader
    obtain ⟨result, after, hrun, -, hresult⟩ := extract_spec
      (firstAttribute (sessionHeader token.bytes ++ 0 :: buffer.drop ((sessionHeader token.bytes).length + 1))) outToken
    rw [firstAttribute_build htoken, sessionValues_token htoken] at hresult
    obtain ⟨rfl, -, found, -, hfound, htext⟩ := hresult.resolve_right fun h => h.2.2 ⟨hsize, _, htoken, rfl⟩
    cases hfound
    exact ⟨after, hrun, htext⟩

end Extraction

end MacroKeyboard.Web.SessionCookie
