import MacroKeyboard.Webapp.RepositoryEditing
import MacroKeyboard.Webapp.RepositoryRules
import MacroKeyboard.Webapp.SourceBytes

namespace MacroKeyboard.Webapp

open Json

/-- The bytes of code points for `TextEncoder`. -/
def pointsLength (points : List CodePoint) : Nat := (points.flatMap encodedPoint).length

theorem pointsLength_append (front back : List CodePoint) :
    pointsLength (front ++ back) = pointsLength front + pointsLength back := by
  rw [pointsLength, List.flatMap_append, List.length_append]
  rfl

theorem units_ne_nil (point : CodePoint) : point.units ≠ [] := by
  cases point with
  | scalar c =>
    rw [CodePoint.units, utf16EncodeChar]
    split_ifs <;> exact List.cons_ne_nil _ _
  | lone unit => exact List.cons_ne_nil _ _

theorem codePoints_take (value : Units) (n : Nat) :
    codePoints (((codePoints value).take n).flatMap CodePoint.units) = (codePoints value).take n := by
  induction value using codePoints.induct generalizing n with
  | case1 => simp [codePoints]
  | case2 unit => cases n <;> simp [codePoints, units_codePointOfUnit]
  | case3 first second rest hpair ih =>
    cases n with
    | zero => rfl
    | succ n =>
      rw [codePoints, if_pos hpair, List.take_succ_cons, List.flatMap_cons, CodePoint.units,
        utf16EncodeChar_charOfPair hpair.1 hpair.2, List.cons_append, List.cons_append, List.nil_append, codePoints,
        if_pos hpair, ih n]
  | case4 first second rest hpair ih =>
    cases n with
    | zero => rfl
    | succ n =>
      rw [codePoints, if_neg hpair, List.take_succ_cons, List.flatMap_cons, units_codePointOfUnit, List.singleton_append]
      cases n with
      | zero => rfl
      | succ n =>
        have hrest := ih (n + 1)
        obtain ⟨others, hothers⟩ : ∃ others, ((codePoints (second :: rest)).take (n + 1)).flatMap CodePoint.units =
            second :: others := by
          have hwhole := units_codePoints (second :: rest)
          cases hpoints : codePoints (second :: rest) with
          | nil =>
            rw [hpoints] at hwhole
            cases hwhole
          | cons point points =>
            rw [hpoints, List.flatMap_cons] at hwhole
            rw [List.take_succ_cons, List.flatMap_cons]
            cases hunits : point.units with
            | nil => exact absurd hunits (units_ne_nil point)
            | cons unit units =>
              rw [hunits, List.cons_append] at hwhole
              rw [(List.cons.inj hwhole).1]
              exact ⟨_, rfl⟩
        rw [hothers] at hrest ⊢
        rw [codePoints, if_neg hpair, hrest]

theorem byteLength_take (value : Units) (n : Nat) :
    byteLength (((codePoints value).take n).flatMap CodePoint.units) = pointsLength ((codePoints value).take n) := by
  rw [byteLength, codePoints_take]
  rfl

theorem truncateFrom_spec (maxBytes : Nat) (value : Units) (n : Nat) (hn : n ≤ (codePoints value).length)
    (hfits : pointsLength ((codePoints value).take n) ≤ maxBytes) : ∃ m, m ≤ (codePoints value).length ∧
      truncateFrom maxBytes (((codePoints value).take n).flatMap CodePoint.units) ((codePoints value).drop n) =
        ((codePoints value).take m).flatMap CodePoint.units ∧
      pointsLength ((codePoints value).take m) ≤ maxBytes ∧
      (m = (codePoints value).length ∨ maxBytes < pointsLength ((codePoints value).take (m + 1))) := by
  induction hdrop : (codePoints value).drop n generalizing n with
  | nil => exact ⟨n, hn, rfl, hfits, Or.inl (le_antisymm hn (List.drop_eq_nil_iff.mp hdrop))⟩
  | cons character rest ih =>
    have hlt : n < (codePoints value).length := by
      by_contra hge
      rw [List.drop_of_length_le (not_lt.mp hge)] at hdrop
      cases hdrop
    rw [List.drop_eq_getElem_cons hlt, List.cons.injEq] at hdrop
    have hnext : (codePoints value).take (n + 1) = (codePoints value).take n ++ [character] := by
      rw [← hdrop.1, List.take_append_getElem]
    have hunits : ((codePoints value).take n).flatMap CodePoint.units ++ character.units =
        ((codePoints value).take (n + 1)).flatMap CodePoint.units := by
      rw [hnext, List.flatMap_append, List.flatMap_singleton]
    rw [truncateFrom, hunits, byteLength_take]
    split_ifs with hlong
    · exact ⟨n, hn, rfl, hfits, Or.inr hlong⟩
    · exact ih (n + 1) hlt (not_lt.mp hlong) hdrop.2

theorem codePoints_copy : codePoints (jsString " copy") = " copy".toList.map .scalar := codePoints_utf16 _

/-- The name of a copy: as much of the suffix as there is room for. -/
theorem copyName_eq {name : Units} {maxBytes : Nat} (h : byteLength name ≤ maxBytes) :
    copyName name maxBytes = name ++ (jsString " copy").take (maxBytes - byteLength name) := by
  have hpoints : codePoints (name ++ jsString " copy") = codePoints name ++ codePoints (jsString " copy") :=
    codePoints_append (by decide) name _
  have hname : pointsLength (codePoints name) = byteLength name := rfl
  have hsuffix (k : Nat) (hk : k ≤ 5) : pointsLength ((codePoints (jsString " copy")).take k) = k ∧
      ((codePoints (jsString " copy")).take k).flatMap CodePoint.units = (jsString " copy").take k := by
    rw [codePoints_copy]
    interval_cases k <;> exact ⟨rfl, rfl⟩
  have hlength : (codePoints (jsString " copy")).length = 5 := by rw [codePoints_copy]; rfl
  have hall : byteLength (name ++ jsString " copy") = byteLength name + 5 := by
    have hfive := (hsuffix 5 le_rfl).1
    rw [List.take_of_length_le hlength.le] at hfive
    change pointsLength (codePoints (name ++ jsString " copy")) = _
    rw [hpoints, pointsLength_append, hfive, hname]
  rw [copyName, truncateToUtf8Bytes]
  split_ifs with hshort
  · rw [List.take_of_length_le]
    change 5 ≤ maxBytes - byteLength name
    omega
  obtain ⟨m, hm, hresult, hfits, hlast⟩ := truncateFrom_spec maxBytes (name ++ jsString " copy") 0 (Nat.zero_le _)
    (Nat.zero_le _)
  rw [hpoints] at hm hresult hfits hlast
  rw [List.length_append, hlength] at hm hlast
  have hover : (codePoints name).length ≤ m := by
    by_contra hless
    rw [not_le] at hless
    rcases hlast with hend | hlong
    · omega
    · have hwithin : m + 1 ≤ (codePoints name).length := hless
      rw [List.take_append_of_le_length hwithin] at hlong
      have hwhole : pointsLength (codePoints name) = pointsLength ((codePoints name).take (m + 1)) +
          pointsLength ((codePoints name).drop (m + 1)) := by
        rw [← pointsLength_append, List.take_append_drop]
      omega
  obtain ⟨k, rfl⟩ := Nat.exists_eq_add_of_le hover
  have hk : k ≤ 5 := by omega
  rw [List.take_length_add_append] at hresult hfits
  rw [pointsLength_append, hname, (hsuffix k hk).1] at hfits
  rw [hpoints]
  refine hresult.trans ?_
  rw [List.flatMap_append, units_codePoints, (hsuffix k hk).2]
  congr 2
  rcases hlast with hend | hlong
  · omega
  · rw [Nat.add_assoc, List.take_length_add_append, pointsLength_append, hname] at hlong
    have hfive : k < 5 := by
      by_contra hge
      omega
    rw [(hsuffix (k + 1) hfive).1] at hlong
    omega

theorem byteLength_append_copy (name : Units) (k : Nat) :
    byteLength (name ++ (jsString " copy").take k) = byteLength name + min k 5 := by
  cases k with
  | zero => rw [List.take_zero, List.append_nil, Nat.zero_min, Nat.add_zero]
  | succ k =>
    have hsplit : codePoints (name ++ (jsString " copy").take (k + 1)) =
        codePoints name ++ codePoints ((jsString " copy").take (k + 1)) := codePoints_append (by decide) name _
    have hsuffix : pointsLength (codePoints ((jsString " copy").take (k + 1))) = min (k + 1) 5 := by
      rcases Nat.lt_or_ge k 5 with hlt | hge
      · interval_cases k <;> rfl
      · rw [min_eq_right (by omega), List.take_of_length_le (show (jsString " copy").length ≤ k + 1 from by
          change 5 ≤ k + 1
          omega)]
        rfl
    change pointsLength (codePoints _) = pointsLength (codePoints name) + _
    rw [hsplit, pointsLength_append, hsuffix]

theorem validName_copyName {name : Units} (h : ValidName name) : ValidName (copyName name nameMaximumBytes) := by
  have hbytes := h.bytes
  obtain ⟨unit, hmem, hvisible⟩ := h.visible
  rw [copyName_eq hbytes]
  refine ⟨⟨unit, List.mem_append_left _ hmem, hvisible⟩, ?_⟩
  rw [byteLength_append_copy]
  omega

end MacroKeyboard.Webapp
