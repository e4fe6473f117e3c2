import MacroKeyboard.Limits
import MacroKeyboard.Records.Decimal

namespace MacroKeyboard.Blobs

open Records.Decimal

def uint64Max : Nat := 2 ^ 64 - 1
def blobIdDigits : Nat := 20
abbrev Name : Type := List UInt8

def blobSuffix : Name := bytes ".gz"
def temporarySuffix : Name := bytes ".gz.tmp"

def formatFilename (blobId : Nat) : Name := padded blobIdDigits blobId ++ blobSuffix

/-- The temporary name that `build_upload_paths` makes. -/
def formatTemporaryFilename (blobId : Nat) : Name := formatFilename blobId ++ bytes ".tmp"

/-- The two parsers of names, of the digits before a suffix. -/
def parseName (suffix name : Name) : Option Nat :=
  if name.length ≠ blobIdDigits + suffix.length ∨ name.drop blobIdDigits ≠ suffix then none
  else
    match parse uint64Max 0 (name.take blobIdDigits) with
    | none => none
    | some value => if value = 0 then none else some value

def parseFilename (name : Name) : Option Nat := parseName blobSuffix name
def parseTemporaryFilename (name : Name) : Option Nat := parseName temporarySuffix name

/-- What a name in the directory stands for. -/
inductive Node
  | file (content : List UInt8)
  | directory
deriving DecidableEq, Repr

abbrev Directory : Type := AList (fun _ : Name => Node)

theorem temporarySuffix_eq : temporarySuffix = blobSuffix ++ bytes ".tmp" := by decide

theorem formatTemporaryFilename_eq (blobId : Nat) :
    formatTemporaryFilename blobId = padded blobIdDigits blobId ++ temporarySuffix := by
  rw [formatTemporaryFilename, formatFilename, temporarySuffix_eq, List.append_assoc]

theorem parseName_padded {suffix : Name} {blobId : Nat} (hpositive : 0 < blobId) (hmax : blobId ≤ uint64Max) :
    parseName suffix (padded blobIdDigits blobId ++ suffix) = some blobId := by
  have hdigits : blobId < 10 ^ blobIdDigits := lt_of_le_of_lt hmax (by decide)
  have hlength := length_padded blobIdDigits blobId
  rw [parseName, if_neg]
  · rw [List.take_left' hlength, parse_padded hdigits hmax]
    simp only [Nat.ne_of_gt hpositive, if_false]
  · rw [List.drop_left' hlength, List.length_append, hlength]
    simp

theorem parseName_eq_some {suffix name : Name} {blobId : Nat} (h : parseName suffix name = some blobId) :
    name = padded blobIdDigits blobId ++ suffix ∧ 0 < blobId ∧ blobId ≤ uint64Max := by
  unfold parseName at h
  split at h
  · cases h
  next hshape =>
    push Not at hshape
    split at h
    · cases h
    next value hvalue =>
      split at h
      · cases h
      next hpositive =>
        cases h
        obtain ⟨htext, hmax⟩ := padded_of_parse (by decide) hvalue
        have hlength : (name.take blobIdDigits).length = blobIdDigits := by
          rw [List.length_take, hshape.1]
          exact Nat.min_eq_left (Nat.le_add_right _ _)
        rw [hlength] at htext
        refine ⟨?_, Nat.pos_of_ne_zero hpositive, hmax⟩
        rw [htext, ← hshape.2, List.take_append_drop]

theorem parseFilename_format {blobId : Nat} (hpositive : 0 < blobId) (hmax : blobId ≤ uint64Max) :
    parseFilename (formatFilename blobId) = some blobId := parseName_padded hpositive hmax

theorem parseFilename_eq_some {name : Name} {blobId : Nat} (h : parseFilename name = some blobId) :
    name = formatFilename blobId ∧ 0 < blobId ∧ blobId ≤ uint64Max := parseName_eq_some h

theorem parseTemporaryFilename_eq_some {name : Name} {blobId : Nat} (h : parseTemporaryFilename name = some blobId) :
    name = formatTemporaryFilename blobId ∧ 0 < blobId ∧ blobId ≤ uint64Max := by
  rw [formatTemporaryFilename_eq]
  exact parseName_eq_some h

theorem parseTemporaryFilename_format {blobId : Nat} (hpositive : 0 < blobId) (hmax : blobId ≤ uint64Max) :
    parseTemporaryFilename (formatTemporaryFilename blobId) = some blobId := by
  rw [formatTemporaryFilename_eq]
  exact parseName_padded hpositive hmax

theorem parseFilename_temporary (blobId : Nat) : parseFilename (formatTemporaryFilename blobId) = none := by
  rw [parseFilename, parseName, if_pos]
  left
  rw [formatTemporaryFilename_eq, List.length_append, length_padded]
  decide

theorem formatFilename_ne_temporary (blobId other : Nat) : formatFilename blobId ≠ formatTemporaryFilename other := by
  intro h
  have hlength := congrArg List.length h
  rw [formatTemporaryFilename_eq, formatFilename, List.length_append, List.length_append, length_padded,
    length_padded] at hlength
  revert hlength
  decide

theorem formatFilename_injective {a b : Nat} (ha : 0 < a) (hamax : a ≤ uint64Max) (hb : 0 < b) (hbmax : b ≤ uint64Max)
    (h : formatFilename a = formatFilename b) : a = b := by
  have hparse := parseFilename_format ha hamax
  rw [h, parseFilename_format hb hbmax] at hparse
  exact (Option.some.inj hparse).symm

end MacroKeyboard.Blobs
