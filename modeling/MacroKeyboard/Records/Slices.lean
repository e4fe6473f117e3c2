import Mathlib

namespace Records.Slices

variable {α : Type}

/-- The `length` elements of a record from `offset` on. -/
def slice (offset length : Nat) (record : List α) : List α := (record.drop offset).take length

/-- The record with `content` written over it at `offset`. -/
def overwrite (offset : Nat) (content record : List α) : List α :=
  record.take offset ++ content ++ record.drop (offset + content.length)

theorem length_slice {offset length : Nat} {record : List α} (h : offset + length ≤ record.length) :
    (slice offset length record).length = length := by
  simp only [slice, List.length_take, List.length_drop]
  omega

theorem length_overwrite {offset : Nat} {content record : List α}
    (h : offset + content.length ≤ record.length) :
    (overwrite offset content record).length = record.length := by
  simp only [overwrite, List.length_append, List.length_take, List.length_drop]
  omega

theorem slice_overwrite_before {offset length start : Nat} {content record : List α}
    (h : offset + length ≤ start) (hrecord : start ≤ record.length) :
    slice offset length (overwrite start content record) = slice offset length record := by
  have htake : (record.take start).length = start := by
    rw [List.length_take]
    omega
  rw [slice, slice, overwrite, List.append_assoc, List.drop_append_of_le_length (by omega),
    List.take_append_of_le_length (by rw [List.length_drop]; omega), List.drop_take, List.take_take,
    min_eq_left (by omega)]

theorem slice_overwrite_after {offset length start : Nat} {content record : List α}
    (h : start + content.length ≤ offset) (hrecord : start + content.length ≤ record.length) :
    slice offset length (overwrite start content record) = slice offset length record := by
  have htake : (record.take start ++ content).length = start + content.length := by
    rw [List.length_append, List.length_take]
    omega
  rw [slice, slice, overwrite, List.drop_append, htake, List.drop_eq_nil_of_le (by omega),
    List.nil_append, List.drop_drop]
  congr 2
  omega

theorem slice_overwrite_front {offset length : Nat} {content record : List α}
    (hcontent : content.length ≤ length) (h : offset + length ≤ record.length) :
    slice offset length (overwrite offset content record) =
      content ++ (slice offset length record).drop content.length := by
  have htake : (record.take offset).length = offset := by
    rw [List.length_take]
    omega
  rw [slice, slice, overwrite, List.append_assoc, List.drop_left' htake, List.take_append,
    List.take_of_length_le hcontent, List.drop_take, List.drop_drop]

abbrev Field : Type := Nat × Nat

def Apart (a b : Field) : Prop := a.1 + a.2 ≤ b.1 ∨ b.1 + b.2 ≤ a.1

instance (a b : Field) : Decidable (Apart a b) :=
  inferInstanceAs (Decidable (a.1 + a.2 ≤ b.1 ∨ b.1 + b.2 ≤ a.1))

theorem slice_overwrite_apart {field other : Field} {content record : List α} (h : Apart field other)
    (hcontent : content.length ≤ other.2) (hrecord : other.1 + other.2 ≤ record.length) :
    slice field.1 field.2 (overwrite other.1 content record) = slice field.1 field.2 record := by
  rcases h with h | h
  · exact slice_overwrite_before h (by omega)
  · exact slice_overwrite_after (by omega) (by omega)

def writeAll (writes : List (Field × List α)) (record : List α) : List α :=
  writes.foldl (fun record write => overwrite write.1.1 write.2 record) record

def Fitting (writes : List (Field × List α)) (length : Nat) : Prop :=
  ∀ write ∈ writes, write.2.length ≤ write.1.2 ∧ write.1.1 + write.1.2 ≤ length

theorem Fitting.tail {write : Field × List α} {writes : List (Field × List α)} {length : Nat}
    (h : Fitting (write :: writes) length) : Fitting writes length :=
  fun other hmem => h other (List.mem_cons_of_mem _ hmem)

theorem length_writeAll {writes : List (Field × List α)} {record : List α}
    (h : Fitting writes record.length) : (writeAll writes record).length = record.length := by
  induction writes generalizing record with
  | nil => rfl
  | cons write rest ih =>
    obtain ⟨hcontent, hfield⟩ := h write List.mem_cons_self
    have hlength : (overwrite write.1.1 write.2 record).length = record.length :=
      length_overwrite (by omega)
    have hrest := @ih (overwrite write.1.1 write.2 record) (by rw [hlength]; exact h.tail)
    exact hrest.trans hlength

theorem slice_writeAll_apart {writes : List (Field × List α)} {record : List α} {field : Field}
    (h : Fitting writes record.length) (hfield : ∀ write ∈ writes, Apart field write.1) :
    slice field.1 field.2 (writeAll writes record) = slice field.1 field.2 record := by
  induction writes generalizing record with
  | nil => rfl
  | cons write rest ih =>
    obtain ⟨hcontent, hfits⟩ := h write List.mem_cons_self
    have hlength : (overwrite write.1.1 write.2 record).length = record.length :=
      length_overwrite (by omega)
    have hrest := @ih (overwrite write.1.1 write.2 record) (by rw [hlength]; exact h.tail)
      fun other hmem => hfield other (List.mem_cons_of_mem _ hmem)
    exact hrest.trans (slice_overwrite_apart (hfield write List.mem_cons_self) hcontent hfits)

theorem slice_writeAll {writes : List (Field × List α)} {record : List α} {write : Field × List α}
    (h : Fitting writes record.length) (hapart : (writes.map Prod.fst).Pairwise Apart)
    (hmem : write ∈ writes) : slice write.1.1 write.1.2 (writeAll writes record) =
      write.2 ++ (slice write.1.1 write.1.2 record).drop write.2.length := by
  induction writes generalizing record with
  | nil => cases hmem
  | cons first rest ih =>
    obtain ⟨hcontent, hfits⟩ := h first List.mem_cons_self
    have hlength : (overwrite first.1.1 first.2 record).length = record.length :=
      length_overwrite (by omega)
    have htail : Fitting rest (overwrite first.1.1 first.2 record).length := by
      rw [hlength]
      exact h.tail
    rw [List.map_cons, List.pairwise_cons] at hapart
    rcases List.mem_cons.mp hmem with rfl | hmem
    · have hkept := slice_writeAll_apart htail fun other hother =>
        hapart.1 other.1 (List.mem_map_of_mem hother)
      exact hkept.trans (slice_overwrite_front hcontent hfits)
    · have hrest := ih htail hapart.2 hmem
      have happart : Apart write.1 first.1 := (hapart.1 write.1 (List.mem_map_of_mem hmem)).symm
      rw [slice_overwrite_apart happart hcontent hfits] at hrest
      exact hrest

/-- Fields, as offsets and lengths, that lie one behind the other. -/
def Tiles : Nat → List Field → Nat → Prop
  | start, [], finish => start = finish
  | start, (offset, length) :: rest, finish => offset = start ∧ Tiles (start + length) rest finish

instance decidableTiles : (start : Nat) → (fields : List Field) → (finish : Nat) →
    Decidable (Tiles start fields finish)
  | start, [], finish => inferInstanceAs (Decidable (start = finish))
  | start, (offset, length) :: rest, finish =>
    have := decidableTiles (start + length) rest finish
    inferInstanceAs (Decidable (offset = start ∧ Tiles (start + length) rest finish))

theorem drop_eq_of_tiles {fields : List Field} {start : Nat} {a b : List α}
    (ha : Tiles start fields a.length) (hb : a.length = b.length)
    (h : ∀ field ∈ fields, slice field.1 field.2 a = slice field.1 field.2 b) :
    a.drop start = b.drop start := by
  induction fields generalizing start with
  | nil =>
    rw [List.drop_eq_nil_of_le (Nat.le_of_eq ha.symm), List.drop_eq_nil_of_le (by rw [← hb, ha])]
  | cons field rest ih =>
    obtain ⟨offset, length⟩ := field
    obtain ⟨rfl, htiles⟩ := ha
    have hfirst : slice offset length a = slice offset length b := h _ List.mem_cons_self
    have hrest := ih htiles fun field hmem => h field (List.mem_cons_of_mem _ hmem)
    rw [← List.take_append_drop length (a.drop offset), ← List.take_append_drop length (b.drop offset),
      List.drop_drop, List.drop_drop, hrest]
    exact congrArg (· ++ _) hfirst

theorem eq_of_tiles {fields : List Field} {a b : List α} (ha : Tiles 0 fields a.length)
    (hb : a.length = b.length) (h : ∀ field ∈ fields, slice field.1 field.2 a = slice field.1 field.2 b) :
    a = b := drop_eq_of_tiles ha hb h

end Records.Slices
