import MacroKeyboard.Blobs.Transfer
import MacroKeyboard.Files.AtomicOutcome

namespace MacroKeyboard.Blobs.Transfer

open Loops.Rounds

@[simp] theorem receivedBytes_append (s t : Transcript) : receivedBytes (s ++ t) = receivedBytes s ++ receivedBytes t :=
  List.flatMap_append

@[simp] theorem sentBytes_append (s t : Transcript) : sentBytes (s ++ t) = sentBytes s ++ sentBytes t :=
  List.flatMap_append

def Works (transcript : Transcript) : Prop := ∀ call ∈ transcript, call.failed = false

theorem works_append {s t : Transcript} : Works (s ++ t) ↔ Works s ∧ Works t := by
  simp only [Works, List.mem_append, or_imp, forall_and]

theorem works_singleton {call : TransferCall} : Works [call] ↔ call.failed = false := by
  simp only [Works, List.mem_singleton, forall_eq]

theorem not_works_iff {transcript : Transcript} : ¬ Works transcript ↔ ∃ call ∈ transcript, call.failed = true := by
  simp only [Works, not_forall, exists_prop, Bool.not_eq_false]

section Loop

variable {content : List UInt8}

/-- A part of a file that has been read and sent: the transcript has neither the close
nor the end of the transfer. -/
structure Sent (content : List UInt8) (bytesRead : Nat) (transcript : Transcript) : Prop where
  bounded : bytesRead ≤ content.length
  sent : sentBytes transcript = content.take bytesRead
  works : Works transcript
  open_ : closes transcript = 0
  unfinished : terminated transcript = false

/-- What is true of the state before a round. -/
structure Proceeding (content : List UInt8) (state : Sending) : Prop where
  sent : Sent content state.bytesRead state.transcript
  ending : state.eof = true → state.bytesRead = content.length

theorem closes_append (s t : Transcript) : closes (s ++ t) = closes s + closes t := List.countP_append

theorem terminated_append (s t : Transcript) : terminated (s ++ t) = (terminated s || terminated t) := by
  rw [terminated, List.contains_append]
  rfl

/-- A reader gives the next bytes of the file, and says so when they are the last ones. -/
theorem readerRead_ok {bytesRead capacity : Nat} {call : Files.ReadCall} {buffer : List UInt8} {eof : Bool}
    (h : readerRead content content.length bytesRead capacity call = .ok (buffer, eof)) (hread : bytesRead ≤ content.length) :
    buffer = (content.drop bytesRead).take buffer.length ∧ bytesRead + buffer.length ≤ content.length ∧
      eof = decide (bytesRead + buffer.length = content.length) ∧ buffer.length ≤ capacity ∧
      (buffer.length = 0 → eof = true) := by
  unfold readerRead at h
  rw [if_neg (Nat.not_lt.mpr hread)] at h
  by_cases hend : bytesRead = content.length
  · rw [if_pos hend] at h
    cases h
    simp [hend]
  · simp only [if_neg hend] at h
    cases hfile : Files.readFile call content bytesRead (min (content.length - bytesRead) capacity) with
    | error number =>
      rw [hfile] at h
      cases h
    | ok given =>
      obtain ⟨count, bytes⟩ := given
      rw [hfile] at h
      dsimp only at h
      by_cases hcount : count = 0 ∨ count > min (content.length - bytesRead) capacity
      · rw [if_pos hcount] at h
        cases h
      · rw [if_neg hcount] at h
        push Not at hcount
        have hbytes := Files.readFile_ok hfile hcount.2
        have hlength : bytes.length = count := by
          rw [hbytes, List.length_take, List.length_drop]
          omega
        cases h
        refine ⟨by rw [hlength]; exact hbytes, by omega, by rw [hlength], by omega, by omega⟩

theorem sendRound_holds (call : Files.ReadCall × Bool) (state : Sending) (h : Proceeding content state) :
    (sendRound content content.length call state).Holds (Proceeding content)
      (fun result => closes result.2 = 0 ∧ terminated result.2 = false ∧
        (result.1 = .none → sentBytes result.2 = content ∧ Works result.2)) := by
  obtain ⟨hsent, hending⟩ := h
  unfold sendRound
  by_cases heof : state.eof = true
  · rw [if_pos heof]
    refine ⟨hsent.open_, hsent.unfinished, fun _ => ⟨?_, hsent.works⟩⟩
    rw [hsent.sent, hending heof, List.take_length]
  · rw [if_neg heof]
    have hread : ∀ works, closes (state.transcript ++ [.read works]) = 0 ∧
        terminated (state.transcript ++ [.read works]) = false := by
      intro works
      rw [closes_append, terminated_append, hsent.open_, hsent.unfinished]
      exact ⟨rfl, rfl⟩
    cases hreader : readerRead content content.length state.bytesRead staticChunkBytes call.1 with
    | error error => exact ⟨(hread false).1, (hread false).2, nofun⟩
    | ok given =>
      obtain ⟨buffer, eof⟩ := given
      obtain ⟨hbuffer, hbound, hlast, hcapacity, hempty⟩ := readerRead_ok hreader hsent.bounded
      have hworks : Works (state.transcript ++ [.read true]) := works_append.mpr ⟨hsent.works, works_singleton.mpr rfl⟩
      dsimp only
      rw [if_neg (by rintro (hlong | ⟨hzero, hnot⟩); exacts [Nat.not_lt.mpr hcapacity hlong, hnot (hempty hzero)])]
      by_cases hsome : buffer.length > 0
      · rw [if_pos hsome]
        have hnonempty : buffer ≠ [] := List.ne_nil_of_length_pos hsome
        have hsend : ∀ works, closes (state.transcript ++ [.read true] ++ [.send buffer works]) = 0 ∧
            terminated (state.transcript ++ [.read true] ++ [.send buffer works]) = false := by
          intro works
          rw [closes_append, terminated_append, (hread true).1, (hread true).2]
          refine ⟨rfl, ?_⟩
          simp [terminated, hnonempty.symm]
        by_cases hok : call.2 = true
        · rw [if_neg (not_not_intro hok)]
          refine ⟨⟨hbound, ?_, works_append.mpr ⟨hworks, works_singleton.mpr rfl⟩, (hsend true).1, (hsend true).2⟩, ?_⟩
          · rw [List.take_add, ← hbuffer, sentBytes_append, sentBytes_append, hsent.sent]
            simp [sentBytes]
          · intro hlasted
            rw [hlast] at hlasted
            exact of_decide_eq_true hlasted
        · rw [if_pos hok]
          exact ⟨(hsend false).1, (hsend false).2, nofun⟩
      · rw [if_neg hsome]
        have hzero : buffer.length = 0 := by omega
        refine ⟨⟨hsent.bounded, ?_, hworks, (hread true).1, (hread true).2⟩, ?_⟩
        · rw [sentBytes_append, hsent.sent]
          simp [sentBytes]
        · intro hlasted
          rw [hlast, hzero, Nat.add_zero] at hlasted
          exact of_decide_eq_true hlasted

theorem sendRound_progress (call : Files.ReadCall × Bool) (state next : Sending) (h : Proceeding content state)
    (hround : sendRound content content.length call state = .next next) :
    Proceeding content next ∧
      content.length - next.bytesRead + (if next.eof then 0 else 1) <
        content.length - state.bytesRead + (if state.eof then 0 else 1) := by
  have hnext := sendRound_holds call state h
  rw [hround] at hnext
  refine ⟨hnext, ?_⟩
  unfold sendRound at hround
  by_cases heof : state.eof = true
  · rw [if_pos heof] at hround
    cases hround
  · rw [if_neg heof] at hround ⊢
    cases hreader : readerRead content content.length state.bytesRead staticChunkBytes call.1 with
    | error error =>
      rw [hreader] at hround
      cases hround
    | ok given =>
      obtain ⟨buffer, eof⟩ := given
      obtain ⟨-, hbound, -, -, hempty⟩ := readerRead_ok hreader h.sent.bounded
      rw [hreader] at hround
      dsimp only at hround
      split at hround
      · cases hround
      · split at hround
        · next hsome =>
          split at hround
          · cases hround
          · cases hround
            dsimp only
            split <;> omega
        · next hnone =>
          cases hround
          dsimp only
          rw [hempty (by omega), if_pos rfl]
          omega

end Loop

section Load

variable {calls : LoadCalls} {fuel : Nat}

/-- A stream of a file ends with the empty chunk only after all its bytes, and no call of it failed. -/
theorem streamFile_spec {content : List UInt8} {result : AppError} {transcript : Transcript}
    (h : streamFile calls fuel content content.length = some (result, transcript)) :
    closes transcript = 1 ∧ (terminated transcript = true ↔ result = .none) ∧
      (result = .none → sentBytes transcript = content ∧ Works transcript) := by
  obtain ⟨⟨streamed, made⟩, hrounds, hend⟩ := Option.map_eq_some_iff.mp h
  have hstart : Proceeding content ⟨0, false, []⟩ :=
    ⟨⟨Nat.zero_le _, rfl, fun call hcall => absurd hcall List.not_mem_nil, rfl, rfl⟩, nofun⟩
  obtain ⟨hcloses, hunfinished, hsent⟩ := rounds_post sendRound_holds hstart hrounds
  have hclosed : ∀ works, closes (made ++ [.close works]) = 1 ∧ terminated (made ++ [.close works]) = false := by
    intro works
    rw [closes_append, terminated_append, hcloses, hunfinished]
    cases works <;> exact ⟨rfl, rfl⟩
  dsimp only at hend
  by_cases hnone : (if ¬ calls.close = true ∧ streamed = .none then AppError.io else streamed) = .none
  · rw [if_pos hnone] at hend
    have hclose : calls.close = true ∧ streamed = .none := by
      by_cases hclose : ¬ calls.close = true ∧ streamed = .none
      · rw [if_pos hclose] at hnone
        cases hnone
      · rw [if_neg hclose] at hnone
        refine ⟨?_, hnone⟩
        by_contra hfailed
        exact hclose ⟨hfailed, hnone⟩
    obtain ⟨hbytes, hworks⟩ := hsent hclose.2
    have hpair := Prod.mk.inj hend
    rw [← hpair.1, ← hpair.2, closes_append, terminated_append, (hclosed _).1, (hclosed _).2, hclose.1]
    by_cases hsendEnd : calls.sendEnd = true
    · rw [hsendEnd]
      refine ⟨rfl, ⟨fun _ => rfl, fun _ => rfl⟩, fun _ => ⟨?_, ?_⟩⟩
      · rw [sentBytes_append, sentBytes_append, hbytes]
        simp [sentBytes]
      · exact works_append.mpr ⟨works_append.mpr ⟨hworks, works_singleton.mpr rfl⟩, works_singleton.mpr rfl⟩
    · rw [Bool.not_eq_true] at hsendEnd
      rw [hsendEnd]
      exact ⟨rfl, ⟨nofun, nofun⟩, nofun⟩
  · rw [if_neg hnone] at hend
    have hpair := Prod.mk.inj hend
    rw [← hpair.1, ← hpair.2, (hclosed _).1, (hclosed _).2]
    exact ⟨rfl, ⟨nofun, fun h => absurd h hnone⟩, fun h => absurd h hnone⟩

structure Loaded (outcome : LoadOutcome) : Prop where
  complete : terminated outcome.transcript = true ↔ outcome.answer = .ended true
  failed : (∃ call ∈ outcome.transcript, call.failed = true) → terminated outcome.transcript = false
  closed : ∀ works, outcome.answer = .ended works → closes outcome.transcript = 1
  unopened : ∀ error, outcome.answer = .refused error → outcome.transcript = []

theorem readerOpen_ok {blobId size : Nat} {directory : Directory} {content : List UInt8}
    (h : readerOpen calls blobId directory = .ok (content, size)) :
    directory.lookup (formatFilename blobId) = some (.file content) ∧ size = content.length := by
  unfold readerOpen at h
  by_cases hzero : blobId = 0
  · rw [if_pos hzero] at h
    cases h
  · rw [if_neg hzero] at h
    split at h
    · cases h
    · cases h
    · cases h
    · next file hlookup =>
      split at h
      · cases h
      · split at h
        · cases h
        · have hpair := Prod.mk.inj (Except.ok.inj h)
          rw [← hpair.1, ← hpair.2]
          exact ⟨hlookup, rfl⟩

theorem load_spec {blobId : Nat} {directory : Directory} {outcome : LoadOutcome}
    (h : blobLoadHandler calls fuel blobId directory = some outcome) :
    Loaded outcome ∧ ∀ content, directory.lookup (formatFilename blobId) = some (.file content) →
      terminated outcome.transcript = true → sentBytes outcome.transcript = content := by
  unfold blobLoadHandler at h
  cases hopen : readerOpen calls blobId directory with
  | error error =>
    rw [hopen] at h
    cases h
    refine ⟨⟨⟨nofun, nofun⟩, fun _ => rfl, nofun, fun _ _ => rfl⟩, fun content _ hterminated => ?_⟩
    cases hterminated
  | ok opened =>
    obtain ⟨content, size⟩ := opened
    obtain ⟨hlookup, hsize⟩ := readerOpen_ok hopen
    rw [hopen, hsize] at h
    dsimp only at h
    by_cases hheaders : calls.headers = true
    · rw [if_neg (not_not_intro hheaders)] at h
      obtain ⟨⟨result, transcript⟩, hstream, houtcome⟩ := Option.map_eq_some_iff.mp h
      obtain ⟨hcloses, hend, hsent⟩ := streamFile_spec hstream
      subst houtcome
      refine ⟨⟨?_, ?_, fun _ _ => hcloses, nofun⟩, ?_⟩
      · rw [hend, LoadAnswer.ended.injEq, decide_eq_true_iff]
      · intro hfailed
        by_contra hterminated
        rw [Bool.not_eq_false] at hterminated
        exact not_works_iff.mpr hfailed (hsent (hend.mp hterminated)).2
      · intro other hother hterminated
        rw [hlookup] at hother
        cases hother
        exact (hsent (hend.mp hterminated)).1
    · rw [if_pos hheaders] at h
      cases h
      have hclosed : closes [.close calls.close] = 1 ∧ terminated [.close calls.close] = false := by
        cases calls.close <;> exact ⟨rfl, rfl⟩
      refine ⟨⟨?_, fun _ => hclosed.2, fun _ _ => hclosed.1, nofun⟩, ?_⟩
      · rw [hclosed.2]
        exact ⟨nofun, nofun⟩
      · intro other _ hterminated
        rw [hclosed.2] at hterminated
        cases hterminated

theorem load_returns (calls : LoadCalls) (blobId : Nat) (directory : Directory) :
    ∃ fuel, (blobLoadHandler calls fuel blobId directory).isSome := by
  cases hopen : readerOpen calls blobId directory with
  | error error => exact ⟨0, by rw [blobLoadHandler, hopen]; rfl⟩
  | ok opened =>
    obtain ⟨content, size⟩ := opened
    obtain ⟨-, rfl⟩ := readerOpen_ok hopen
    have hstart : Proceeding content ⟨0, false, []⟩ :=
      ⟨⟨Nat.zero_le _, rfl, fun call hcall => absurd hcall List.not_mem_nil, rfl, rfl⟩, nofun⟩
    obtain ⟨result, hresult⟩ := rounds_within (n := 0) calls.transfer
      (fun state : Sending => content.length - state.bytesRead + (if state.eof then 0 else 1))
      (fun call state next h hround => sendRound_progress call state next h hround) hstart
    refine ⟨content.length + 1 + 1, ?_⟩
    rw [blobLoadHandler, hopen]
    dsimp only
    by_cases hheaders : calls.headers = true
    · rw [if_neg (not_not_intro hheaders), streamFile, Option.isSome_map, Option.isSome_map]
      exact Option.isSome_of_eq_some hresult
    · rw [if_pos hheaders]
      rfl

end Load

end MacroKeyboard.Blobs.Transfer
