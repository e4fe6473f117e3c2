import MacroKeyboard.Files.AtomicWrite

namespace MacroKeyboard.Files

open Blobs Loops.Rounds Records.Decimal

section Verification

variable {content expected : List UInt8}

theorem readFile_ok {call : ReadCall} {offset requested count : Nat} {buffer : List UInt8}
    (h : readFile call content offset requested = .ok (count, buffer)) (hcount : count ≤ requested) :
    buffer = (content.drop offset).take count := by
  cases call with
  | error number => cases h
  | ok asked =>
    simp only [readFile] at h
    by_cases hmore : asked > requested
    · rw [if_pos hmore] at h
      cases h
      omega
    · rw [if_neg hmore] at h
      have hpair := Prod.mk.inj (Except.ok.inj h)
      have hfirst : buffer <+: content.drop offset := by
        rw [← hpair.2]
        exact (List.take_prefix _ _).trans (List.take_prefix _ _)
      rw [← hpair.1, hpair.2]
      exact List.prefix_iff_eq_take.mp hfirst

theorem readFile_zero {call : ReadCall} {offset requested : Nat} {buffer : List UInt8} (hrequested : 0 < requested)
    (h : readFile call content offset requested = .ok (0, buffer)) : content.drop offset = [] := by
  cases call with
  | error number => cases h
  | ok asked =>
    simp only [readFile] at h
    by_cases hmore : asked > requested
    · rw [if_pos hmore] at h
      have hpair := Prod.mk.inj (Except.ok.inj h)
      omega
    · rw [if_neg hmore] at h
      have hlength := (Prod.mk.inj (Except.ok.inj h)).1
      simp only [List.length_take] at hlength
      apply List.eq_nil_of_length_eq_zero
      omega

def Verified (content expected : List UInt8) (verified : Nat) : Prop :=
  verified ≤ expected.length ∧ content.take verified = expected.take verified

theorem verifyRound_holds (call : ReadCall) (verified : Nat) (h : Verified content expected verified) :
    (verifyRound content expected call verified).Holds (Verified content expected)
      (fun result => result = .none → content.take expected.length = expected) := by
  unfold verifyRound
  by_cases hmore : verified < expected.length
  · simp only [if_pos hmore]
    generalize hread : readFile call content verified (min (expected.length - verified) verifyBufferBytes) = answer
    match answer with
    | .error .eintr => exact h
    | .error .enospc | .error .enoent | .error .einval | .error .enotsup | .error .other => exact nofun
    | .ok (count, buffer) =>
      show Round.Holds _ _ (if _ then _ else if _ then _ else _)
      by_cases hcount : count = 0 ∨ count > min (expected.length - verified) verifyBufferBytes
      · rw [if_pos hcount]
        exact nofun
      · rw [if_neg hcount]
        by_cases hbuffer : buffer ≠ (expected.drop verified).take count
        · rw [if_pos hbuffer]
          exact nofun
        · rw [if_neg hbuffer]
          push Not at hcount hbuffer
          have hcontent := readFile_ok hread hcount.2
          refine ⟨by omega, ?_⟩
          rw [List.take_add, List.take_add, h.2, ← hcontent, ← hbuffer]
  · simp only [if_neg hmore]
    intro _
    obtain ⟨hle, htake⟩ := h
    have heq : verified = expected.length := by omega
    rw [heq, List.take_length] at htake
    exact htake

/-- A verified file holds exactly what was expected of it. -/
theorem eq_of_verifyFile {calls : AtomicCalls} {fuel : Nat} (h : verifyFile calls content expected fuel = some .none) :
    content = expected := by
  unfold verifyFile at h
  match hopen : calls.openVerified with
  | some number =>
    rw [hopen] at h
    cases number <;> cases h
  | none =>
    rw [hopen] at h
    obtain ⟨result, hrounds, hresult⟩ := Option.map_eq_some_iff.mp h
    have hpost := rounds_post (I := Verified content expected) verifyRound_holds ⟨Nat.zero_le _, rfl⟩ hrounds
    by_cases hnone : result = .none
    · have hverified := hpost hnone
      rw [if_pos hnone] at hresult
      have hend : content.drop expected.length = [] := by
        match hread : readFile calls.readExtra content expected.length 1 with
        | .error number =>
          rw [hread] at hresult
          cases number <;> cases hclose : calls.closeVerified <;> rw [hclose] at hresult <;> cases hresult
        | .ok (0, buffer) => exact readFile_zero Nat.one_pos hread
        | .ok (count + 1, buffer) =>
          rw [hread] at hresult
          cases hclose : calls.closeVerified <;> rw [hclose] at hresult <;> cases hresult
      calc content = content.take expected.length ++ content.drop expected.length := (List.take_append_drop _ _).symm
        _ = expected := by rw [hverified, hend, List.append_nil]
    · rw [if_neg hnone] at hresult
      cases hclose : calls.closeVerified with
      | none =>
        rw [hclose] at hresult
        exact absurd hresult hnone
      | some number =>
        rw [hclose] at hresult
        simp only [if_neg hnone] at hresult
        exact absurd hresult hnone

end Verification

section Staging

variable {calls : AtomicCalls} {fuel : Nat} {temporary : Path} {data : List UInt8} {syncRequired : Bool}
  {files after : FileSystem} {result : OperationResult}

theorem mapErrorNumber_ne_none (number : ErrorNumber) : mapErrorNumber number ≠ .none := by
  cases number <;> decide

theorem openTruncated_ok {answer : Answer} {opened : FileSystem} (h : openTruncated answer temporary files = .ok opened) :
    opened = Function.update files temporary (some (.file [])) := by
  unfold openTruncated at h
  split at h
  · cases h
  · cases h
  · exact (Except.ok.inj h).symm
  · exact (Except.ok.inj h).symm

theorem cleanupPath_spec (answer : Answer) (path : Path) (files : FileSystem) :
    (∀ other, other ≠ path → (cleanupPath answer path files).2 other = files other) ∧
      (answer = none → (cleanupPath answer path files).2 path = none) := by
  unfold cleanupPath unlinkFile
  cases answer with
  | some number =>
    refine ⟨?_, nofun⟩
    intro other _
    cases number <;> rfl
  | none =>
    cases hnode : files path with
    | none => exact ⟨fun _ _ => rfl, fun _ => hnode⟩
    | some node =>
      refine ⟨?_, ?_⟩
      · intro other hother
        exact Function.update_of_ne hother _ _
      · intro _
        exact Function.update_self _ _ _

@[simp] theorem recordCleanup_primaryError (result : OperationResult) (error : AppError) :
    (result.recordCleanup error).primaryError = result.primaryError := by
  rw [OperationResult.recordCleanup]
  by_cases h : error = .none
  · rw [if_pos h]
  · rw [if_neg h]

theorem recordPrimary_primaryError (error : AppError) : (OperationResult.success.recordPrimary error).primaryError = error := by
  rw [OperationResult.recordPrimary]
  by_cases h : error = .none
  · rw [if_neg (fun hboth => hboth.1 h), h]
    rfl
  · exact congrArg OperationResult.primaryError (if_pos ⟨h, rfl⟩)

theorem resultOk_primary {error : AppError} (cleanup : AppError) (h : error ≠ .none) :
    resultOk ((OperationResult.success.recordPrimary error).recordCleanup cleanup) = false := by
  simp only [resultOk, recordCleanup_primaryError, recordPrimary_primaryError, h, false_and, decide_false]

/-- What is true of the file system when the temporary file is not activated. -/
structure Discarded (answer : Answer) (temporary : Path) (files after : FileSystem) : Prop where
  frame : ∀ other, other ≠ temporary → after other = files other
  nothingLeft : answer = none → after temporary ≠ none → after = files

/-- A stage either leaves the data in the temporary file, or fails and takes it away. -/
theorem stage_cases (h : stageTemporaryFile calls fuel temporary data syncRequired files = some (result, after)) :
    (result = .success ∧ after = Function.update files temporary (some (.file data))) ∨
      (resultOk result = false ∧ Discarded calls.unlink temporary files after) := by
  unfold stageTemporaryFile at h
  cases hopen : openTruncated calls.openTemporary temporary files with
  | error number =>
    rw [hopen] at h
    have hpair := Prod.mk.inj (Option.some.inj h)
    right
    refine ⟨?_, ?_⟩
    · rw [← hpair.1]
      exact resultOk_primary .none (mapErrorNumber_ne_none number)
    · rw [← hpair.2]
      exact ⟨fun _ _ => rfl, fun _ _ => rfl⟩
  | ok opened =>
    rw [hopen] at h
    obtain ⟨⟨written, content⟩, -, hstage⟩ := Option.bind_eq_some_iff.mp h
    obtain ⟨staged, hstaged, hend⟩ := Option.map_eq_some_iff.mp hstage
    rw [openTruncated_ok hopen, Function.update_idem] at hend
    by_cases hnone : staged = .none
    · left
      rw [if_neg (not_not_intro hnone)] at hend
      have hpair := Prod.mk.inj hend
      have hcontent : content = data := by
        by_cases hclosed : closeWritten calls syncRequired written = .none
        · rw [if_pos hclosed, hnone] at hstaged
          exact eq_of_verifyFile hstaged
        · rw [if_neg hclosed] at hstaged
          exact absurd ((Option.some.inj hstaged).trans hnone) hclosed
      exact ⟨hpair.1.symm, by rw [← hpair.2, hcontent]⟩
    · right
      rw [if_pos hnone] at hend
      let staging := Function.update files temporary (some (Node.file content))
      obtain ⟨hframe, hfree⟩ := cleanupPath_spec calls.unlink temporary staging
      have hresult : (OperationResult.success.recordPrimary staged).recordCleanup (cleanupPath calls.unlink temporary staging).1 =
        result := (Prod.mk.inj hend).1
      have hafter : (cleanupPath calls.unlink temporary staging).2 = after := (Prod.mk.inj hend).2
      refine ⟨?_, ?_, ?_⟩
      · rw [← hresult]
        exact resultOk_primary _ hnone
      · intro other hother
        rw [← hafter, hframe other hother]
        exact Function.update_of_ne hother _ _
      · intro hworks hleft
        rw [← hafter] at hleft
        exact absurd (hfree hworks) hleft

end Staging

/-- What a write of a file at `path` promises. -/
structure AtomicOutcome (calls : AtomicCalls) (path : Path) (data : List UInt8) (files : FileSystem)
    (result : OperationResult) (after : FileSystem) : Prop where
  reported : result.commitState = .notCommitted ∨ result.commitState = .committed ∨ result.commitState = .commitUncertain
  unchanged : result.commitState = .notCommitted → after path = files path
  written : result.commitState = .committed ∨ result.commitState = .commitUncertain → after path = some (.file data)
  nothingLeft : calls.unlink = none → after (temporaryPath path) ≠ none → after = files
  frame : ∀ other, other ≠ path → other ≠ temporaryPath path → after other = files other

theorem temporaryPath_ne (path : Path) : path ≠ temporaryPath path := by
  intro h
  have hlength := congrArg List.length h
  rw [temporaryPath, List.length_append] at hlength
  have hsuffix : (bytes ".tmp").length = 4 := by decide
  omega

section Outcome

variable {calls : AtomicCalls} {fuel : Nat} {path : Path} {data : List UInt8} {syncRequired : Bool}
  {files after : FileSystem} {result : OperationResult}

theorem Discarded.outcome (h : Discarded calls.unlink (temporaryPath path) files after)
    (hresult : result.commitState = .notCommitted) : AtomicOutcome calls path data files result after where
  reported := Or.inl hresult
  unchanged _ := h.frame path (temporaryPath_ne path)
  written hwritten := by
    rw [hresult] at hwritten
    rcases hwritten with hwritten | hwritten <;> cases hwritten
  nothingLeft := h.nothingLeft
  frame other _ htemporary := h.frame other htemporary

theorem renameFile_staged {answer : Answer} {renamed : FileSystem}
    (h : renameFile answer (temporaryPath path) path (Function.update files (temporaryPath path) (some (.file data))) = .ok renamed) :
    renamed path = some (.file data) ∧ renamed (temporaryPath path) = none ∧
      ∀ other, other ≠ path → other ≠ temporaryPath path → renamed other = files other := by
  have hrenamed : renamed = Function.update (Function.update (Function.update files (temporaryPath path)
      (some (.file data))) (temporaryPath path) none) path (some (.file data)) := by
    unfold renameFile at h
    rw [Function.update_self] at h
    split at h
    · cases h
    · next hsource => cases hsource
    · cases h
    · next hsource _ =>
      cases hsource
      exact (Except.ok.inj h).symm
    · next hsource _ =>
      cases hsource
      exact (Except.ok.inj h).symm
  subst hrenamed
  refine ⟨Function.update_self _ _ _, ?_, ?_⟩
  · rw [Function.update_of_ne (temporaryPath_ne path).symm, Function.update_self]
  · intro other hpath htemporary
    rw [Function.update_of_ne hpath, Function.update_of_ne htemporary, Function.update_of_ne htemporary]

theorem outcome_of_activation
    (h : activateStaged calls path .success (Function.update files (temporaryPath path) (some (.file data))) = (result, after)) :
    AtomicOutcome calls path data files result after := by
  let staging := Function.update files (temporaryPath path) (some (Node.file data))
  rw [activateStaged, if_neg (by decide)] at h
  cases hrename : renameFile calls.rename (temporaryPath path) path staging with
  | error number =>
    simp only [staging, hrename] at h
    have hpair := Prod.mk.inj h
    obtain ⟨hframe, hfree⟩ := cleanupPath_spec calls.unlink (temporaryPath path) staging
    apply Discarded.outcome
    · refine ⟨?_, ?_⟩
      · intro other hother
        rw [← hpair.2]
        exact (hframe other hother).trans (Function.update_of_ne hother _ _)
      · intro hworks hleft
        rw [← hpair.2] at hleft
        exact absurd (hfree hworks) hleft
    · rw [← hpair.1]
  | ok renamed =>
    simp only [staging, hrename] at h
    obtain ⟨hpath, htemporary, hframe⟩ := renameFile_staged hrename
    have hresult : after = renamed ∧ (result.commitState = .committed ∨ result.commitState = .commitUncertain) := by
      by_cases hsynced : syncParentPath calls.syncParent ≠ .none
      · rw [if_pos hsynced] at h
        have hpair := Prod.mk.inj h
        exact ⟨hpair.2.symm, Or.inr (by rw [← hpair.1]; rfl)⟩
      · rw [if_neg hsynced] at h
        have hpair := Prod.mk.inj h
        exact ⟨hpair.2.symm, Or.inl (by rw [← hpair.1])⟩
    obtain ⟨rfl, hstate⟩ := hresult
    refine ⟨Or.inr hstate, ?_, fun _ => hpath, fun _ hleft => absurd htemporary hleft, hframe⟩
    intro hnot
    rw [hnot] at hstate
    rcases hstate with hstate | hstate <;> cases hstate

theorem outcome_of_write (h : storageAtomicWrite calls fuel path data syncRequired files = some (result, after)) :
    AtomicOutcome calls path data files result after := by
  rw [storageAtomicWrite] at h
  by_cases hlong : path.length ≥ pathMaxBytes ∨ (temporaryPath path).length ≥ pathMaxBytes
  · rw [if_pos hlong] at h
    have hpair := Prod.mk.inj (Option.some.inj h)
    rw [← hpair.1, ← hpair.2]
    exact Discarded.outcome ⟨fun _ _ => rfl, fun _ _ => rfl⟩ rfl
  · rw [if_neg hlong] at h
    obtain ⟨⟨staged, stagedFiles⟩, hstage, hend⟩ := Option.map_eq_some_iff.mp h
    rcases stage_cases hstage with ⟨hsuccess, hfiles⟩ | ⟨hfailed, hdiscarded⟩
    · rw [hsuccess, hfiles] at hend
      exact outcome_of_activation hend
    · rw [activateStaged, if_pos (by rw [hfailed]; exact Bool.false_ne_true)] at hend
      have hpair := Prod.mk.inj hend
      rw [← hpair.1, ← hpair.2]
      exact hdiscarded.outcome rfl

end Outcome

section Termination

def InterruptsEnd {C : Type} (interrupted : C → Prop) (calls : Nat → C) : Prop := ∀ n, ∃ m, n ≤ m ∧ ¬ interrupted (calls m)

theorem writeRound_progress {data : List UInt8} (call : WriteCall) (state next : Nat × List UInt8)
    (h : writeRound data call state = .next next) :
    data.length - next.1 < data.length - state.1 ∨
      (call.answer = .error .eintr ∧ data.length - next.1 ≤ data.length - state.1) := by
  unfold writeRound at h
  by_cases hmore : state.1 < data.length
  · rw [if_pos hmore] at h
    match hanswer : call.answer with
    | .error .eintr =>
      simp only [hanswer] at h
      cases h
      exact Or.inr ⟨rfl, le_refl _⟩
    | .error .enospc | .error .enoent | .error .einval | .error .enotsup | .error .other =>
      simp only [hanswer] at h
      cases h
    | .ok count =>
      simp only [hanswer] at h
      by_cases hcount : count = 0 ∨ count > data.length - state.1
      · rw [if_pos hcount] at h
        cases h
      · rw [if_neg hcount] at h
        cases h
        left
        push Not at hcount
        show data.length - (state.1 + count) < data.length - state.1
        omega
  · rw [if_neg hmore] at h
    cases h

theorem verifyRound_progress {content expected : List UInt8} (call : ReadCall) (verified next : Nat)
    (h : verifyRound content expected call verified = .next next) :
    expected.length - next < expected.length - verified ∨
      (call = .error .eintr ∧ expected.length - next ≤ expected.length - verified) := by
  unfold verifyRound at h
  by_cases hmore : verified < expected.length
  · simp only [if_pos hmore] at h
    match hread : readFile call content verified (min (expected.length - verified) verifyBufferBytes) with
    | .error .eintr =>
      rw [hread] at h
      cases h
      cases call with
      | error number =>
        cases hread
        exact Or.inr ⟨rfl, le_refl _⟩
      | ok asked =>
        rw [readFile] at hread
        split at hread <;> cases hread
    | .error .enospc | .error .enoent | .error .einval | .error .enotsup | .error .other =>
      rw [hread] at h
      cases h
    | .ok (count, buffer) =>
      rw [hread] at h
      dsimp only at h
      by_cases hcount : count = 0 ∨ count > min (expected.length - verified) verifyBufferBytes
      · rw [if_pos hcount] at h
        cases h
      · rw [if_neg hcount] at h
        by_cases hbuffer : buffer ≠ (expected.drop verified).take count
        · rw [if_pos hbuffer] at h
          cases h
        · rw [if_neg hbuffer] at h
          cases h
          left
          push Not at hcount
          omega
  · rw [if_neg hmore] at h
    cases h

/-- A write returns unless its calls are interrupted for ever. -/
theorem write_returns (calls : AtomicCalls) (path : Path) (data : List UInt8) (syncRequired : Bool) (files : FileSystem)
    (hwrites : InterruptsEnd (fun call => call.answer = .error .eintr) calls.write)
    (hreads : InterruptsEnd (fun call => call = .error .eintr) calls.read) :
    ∃ fuel, (storageAtomicWrite calls fuel path data syncRequired files).isSome := by
  obtain ⟨writes, ⟨error, content⟩, hwrite⟩ := rounds_end (writeRound data) calls.write
    (fun call => call.answer = .error .eintr) (fun state => data.length - state.1) hwrites writeRound_progress 0 (0, [])
  obtain ⟨reads, read, hread⟩ := rounds_end (verifyRound content data) calls.read
    (fun call => call = .error .eintr) (fun verified => data.length - verified) hreads verifyRound_progress 0 0
  refine ⟨writes + reads, ?_⟩
  have hwritten : writeAll calls.write data (writes + reads) = some (error, content) := rounds_add reads hwrite
  have hverified : (verifyFile calls content data (writes + reads)).isSome := by
    unfold verifyFile
    cases calls.openVerified with
    | some number => rfl
    | none =>
      rw [Nat.add_comm, rounds_add writes hread]
      rfl
  have hstaged : (stageTemporaryFile calls (writes + reads) (temporaryPath path) data syncRequired files).isSome := by
    unfold stageTemporaryFile
    cases openTruncated calls.openTemporary (temporaryPath path) files with
    | error number => rfl
    | ok opened =>
      dsimp only
      rw [hwritten, Option.bind_some, Option.isSome_map]
      by_cases hclosed : closeWritten calls syncRequired error = .none
      · rw [if_pos hclosed]
        exact hverified
      · rw [if_neg hclosed]
        rfl
  rw [storageAtomicWrite]
  by_cases hlong : path.length ≥ pathMaxBytes ∨ (temporaryPath path).length ≥ pathMaxBytes
  · rw [if_pos hlong]
    rfl
  · rw [if_neg hlong, Option.isSome_map]
    exact hstaged

end Termination

/-- Whatever its calls answer, a write reports what is in the file, and it returns
unless they are interrupted for ever. -/
theorem atomic_write (calls : AtomicCalls) (path : Path) (data : List UInt8) (syncRequired : Bool) (files : FileSystem) :
    (∀ fuel result after, storageAtomicWrite calls fuel path data syncRequired files = some (result, after) →
      AtomicOutcome calls path data files result after) ∧
    (InterruptsEnd (fun call => call.answer = .error .eintr) calls.write →
      InterruptsEnd (fun call => call = .error .eintr) calls.read →
      ∃ fuel, (storageAtomicWrite calls fuel path data syncRequired files).isSome) :=
  ⟨fun _ _ _ h => outcome_of_write h, write_returns calls path data syncRequired files⟩

/-- The first write and the first read are interrupted, the others are short. -/
def interruptedCalls : AtomicCalls where
  openTemporary := none
  write n := if n = 0 then ⟨.error .eintr, []⟩ else ⟨.ok 1, [UInt8.ofNat n]⟩
  sync := none
  closeTemporary := none
  openVerified := none
  read n := if n = 0 then .error .eintr else .ok 1
  readExtra := .ok 1
  closeVerified := none
  rename := none
  unlink := none
  syncParent := none

theorem atomic_write_interrupted :
    (∃ result after, storageAtomicWrite interruptedCalls 4 (bytes "a") [1, 2] true (fun _ => none) = some (result, after) ∧
      AtomicOutcome interruptedCalls (bytes "a") [1, 2] (fun _ => none) result after) ∧
    ∃ fuel, (storageAtomicWrite interruptedCalls fuel (bytes "a") [1, 2] true (fun _ => none)).isSome := by
  refine ⟨⟨_, _, rfl, (atomic_write interruptedCalls (bytes "a") [1, 2] true (fun _ => none)).1 4 _ _ rfl⟩, ?_⟩
  apply (atomic_write interruptedCalls (bytes "a") [1, 2] true (fun _ => none)).2
  · intro n
    exact ⟨n + 1, Nat.le_succ n, nofun⟩
  · intro n
    exact ⟨n + 1, Nat.le_succ n, nofun⟩

end MacroKeyboard.Files
