import MacroKeyboard.Webapp.Saves

namespace MacroKeyboard.Webapp

open Threads.Program Threads.Monitor

variable {R : Type} {codec : SnapshotCodec R} {initial : R} {log front back : List (ClientEvent R)}
  {pending : PendingCommit}

section Runs

def byteCodec : SnapshotCodec UInt8 := ⟨some, fun repository => [repository], List.head?⟩

/-- What the tasks of a user leave after a schedule. -/
def afterTasks (tasks : List (ClientProg UInt8 Unit)) (schedule : List (Nat × ClientAnswers)) :
    Config (ClientState UInt8) ClientAnswers :=
  (⟨.initial 0, tasks⟩ : Config (ClientState UInt8) ClientAnswers).runSchedule (fun _ => false) schedule

theorem run_afterTasks {tasks : List (ClientProg UInt8 Unit)}
    (h : ∀ i p, tasks[i]? = some p → ClientTask byteCodec i p) (schedule : List (Nat × ClientAnswers)) :
    ClientRun byteCodec 0 (afterTasks tasks schedule) := by
  have hstart : ClientRun byteCodec 0 ⟨.initial 0, [] ++ tasks⟩ := by
    apply reachable_start .init rfl
    intro i p hp
    rw [List.length_nil, Nat.zero_add]
    exact h i p hp
  exact reachable_runSchedule hstart schedule

def answering (stored : List (String × List UInt8)) (posted : PostAnswer) : ClientAnswers := ⟨stored, true, posted, true⟩

end Runs

section Changes

/-- Whatever the user does while a save runs: what is not dirty is the baseline, a
save that was superseded changes nothing, and what was changed since the save
captured, and was not given up, is still there and dirty. -/
theorem working_copy_safety {c : Config (ClientState R) ClientAnswers} (h : ClientRun codec initial c) :
    c.state.store.Clean ∧ ∀ past result before after rest,
      c.state.log = past ++ .completed result before after :: rest → Kept past result before after :=
  ⟨(inv_of_run h).clean, fun past _ _ _ rest hlog => (inv_of_run h).orderly past _ rest hlog⟩

/-- The user edits the working copy while a save runs, and may discard the edit. -/
def savingWhile (tasks : List (ClientProg UInt8 Unit)) (turns : List Nat) : Config (ClientState UInt8) ClientAnswers :=
  afterTasks (saveWorkingCopyAsSnapshot byteCodec 0 :: tasks)
    ((List.replicate 2 0 ++ turns ++ List.replicate 6 0).map (fun i => (i, answering [] (.created "b1"))))

theorem run_savingWhile_edit : ClientRun byteCodec 0 (savingWhile [editWorkingCopy 1, discardWorkingCopy] [1]) ∧
    ClientRun byteCodec 0 (savingWhile [editWorkingCopy 1, discardWorkingCopy] [1, 2]) := by
  have htasks : ∀ i p, [saveWorkingCopyAsSnapshot byteCodec 0, editWorkingCopy 1, discardWorkingCopy][i]? = some p →
      ClientTask byteCodec i p := by
    intro i p hp
    match i with
    | 0 => cases hp; exact .save 0
    | 1 => cases hp; exact .edit 1 1
    | 2 => cases hp; exact .discard 2
    | _ + 3 => cases hp
  exact ⟨run_afterTasks htasks _, run_afterTasks htasks _⟩

theorem working_copy_safety_edited :
    (savingWhile [editWorkingCopy 1, discardWorkingCopy] [1]).state.store.Clean ∧
      Kept (R := UInt8) [.captured 0, .changed 1, .listed [], .posted [0]] .edited ⟨0, 1, true, 1, 0⟩
        ⟨0, 1, true, 2, 0⟩ := by
  obtain ⟨hclean, hkept⟩ := working_copy_safety run_savingWhile_edit.1
  exact ⟨hclean, hkept _ _ _ _ [] (by decide +kernel)⟩

/-- An edit made after the save captured, and discarded before it ends, is gone. -/
theorem discarded_edit_is_gone : ∃ c, ClientRun byteCodec 0 c ∧ ∃ past result before after rest,
    c.state.log = past ++ .completed result before after :: rest ∧
      .changed 1 ∈ sinceCapture past ∧ after.working ≠ 1 ∧ after.dirty = false := by
  refine ⟨_, run_savingWhile_edit.2, [.captured 0, .changed 1, .discarded, .listed [], .posted [0]], .superseded,
    ⟨0, 0, false, 2, 1⟩, ⟨0, 0, false, 2, 1⟩, [], ?_, ?_, ?_, ?_⟩ <;> decide +kernel

end Changes

section Uploads

/-- A reconciliation of the upload listed the blobs, downloaded every new one and
found other bytes in each. -/
def FoundNone (events : List (ClientEvent R)) (pending : PendingCommit) : Prop :=
  ∃ past later, events = past ++ .reconciled pending .notFound :: later ∧
    ∃ before blobIds since, past = before ++ .listed blobIds :: since ∧
      ∀ blobId ∈ blobIds, blobId ∉ pending.beforeIds → Differs pending since blobId

theorem FoundNone.append (h : FoundNone back pending) (events : List (ClientEvent R)) :
    FoundNone (back ++ events) pending := by
  obtain ⟨past, later, hback, hcompared⟩ := h
  exact ⟨past, later ++ events, by rw [hback, List.append_assoc, List.cons_append], hcompared⟩

theorem foundNone_of_compared (h : Compared (front ++ .uncertain pending :: back) pending .notFound) :
    FoundNone (back ++ [.reconciled pending .notFound]) pending := by
  obtain ⟨before, blobIds, since, hlog, hquiet, hdiffers⟩ := h
  refine ⟨back, [], rfl, ?_⟩
  rcases List.append_eq_append_iff.mp hlog with ⟨middle, hbefore, hrest⟩ | ⟨middle, hfront, hrest⟩
  · cases middle with
    | nil => cases hrest
    | cons event middle =>
      obtain ⟨-, hback⟩ := List.cons.inj hrest
      exact ⟨middle, blobIds, since, hback, hdiffers⟩
  · cases middle with
    | nil => cases hrest
    | cons event middle =>
      obtain ⟨-, hsince⟩ := List.cons.inj hrest
      refine absurd ?_ (hquiet pending)
      rw [hsince]
      exact List.mem_append_right _ List.mem_cons_self

/-- After an uncertain upload the latch holds until a reconciliation finds nothing or
the user replaces the working copy. -/
theorem latched_or_settled (h : Always Orderly (front ++ .uncertain pending :: back)) :
    uncertainCommit (front ++ .uncertain pending :: back) = some pending ∨
      FoundNone back pending ∨ ∃ repository, .replaced repository ∈ back := by
  induction back using List.reverseRecOn with
  | nil => exact Or.inl (uncertainCommit_append front (.uncertain pending))
  | append_singleton back event ih =>
    have hsplit : front ++ .uncertain pending :: (back ++ [event]) = (front ++ .uncertain pending :: back) ++ [event] := by
      rw [← List.cons_append, ← List.append_assoc]
    rw [hsplit] at h ⊢
    have hpast : Always Orderly (front ++ .uncertain pending :: back) := fun past other rest hlog =>
      h past other (rest ++ [event]) (by rw [hlog, List.append_assoc, List.cons_append])
    have horderly : Orderly (front ++ .uncertain pending :: back) event := h _ event [] rfl
    rcases ih hpast with hlatched | hfound | ⟨repository, hreplaced⟩
    · rw [uncertainCommit_append]
      cases event with
      | uncertain other =>
        rw [horderly.1] at hlatched
        cases hlatched
      | reconciled other result =>
        cases result with
        | notFound =>
          obtain ⟨hother, -, hcompared⟩ := horderly
          rw [hlatched, Option.some.injEq] at hother
          rcases hother with rfl | hother
          · exact Or.inr (Or.inl (foundNone_of_compared hcompared))
          · cases hother
        | matched blobId => exact Or.inl hlatched
        | unavailable => exact Or.inl hlatched
        | ambiguous matching => exact Or.inl hlatched
      | replaced repository => exact Or.inr (Or.inr ⟨repository, List.mem_append_right _ List.mem_cons_self⟩)
      | _ => exact Or.inl hlatched
    · exact Or.inr (Or.inl (hfound.append _))
    · exact Or.inr (Or.inr ⟨repository, List.mem_append_left _ hreplaced⟩)

/-- No upload follows an uncertain one before a reconciliation of it has found no
new blob with its bytes, or the user has replaced the working copy; and a
reconciliation that succeeds names a blob with exactly these bytes. -/
theorem uncertain_uploads_are_settled {c : Config (ClientState R) ClientAnswers} (h : ClientRun codec initial c) :
    (∀ front pending back bytes rest, c.state.log = front ++ .uncertain pending :: back ++ .posted bytes :: rest →
      FoundNone back pending ∨ ∃ repository, .replaced repository ∈ back) ∧
    ∀ past pending blobId rest, c.state.log = past ++ .reconciled pending (.matched blobId) :: rest →
      Uploaded past pending ∧ .downloaded blobId pending.bytes ∈ past := by
  have horderly := (inv_of_run h).orderly
  constructor
  · intro front pending back bytes rest hlog
    have hnone : uncertainCommit (front ++ .uncertain pending :: back) = none := horderly _ _ rest hlog
    have hpast : Always Orderly (front ++ .uncertain pending :: back) := fun past other later hsplit =>
      horderly past other (later ++ .posted bytes :: rest) (by rw [hlog, hsplit, List.append_assoc, List.cons_append])
    rcases latched_or_settled hpast with hlatched | hsettled
    · rw [hnone] at hlatched
      cases hlatched
    · exact hsettled
  · intro past pending blobId rest hlog
    exact (horderly past _ rest hlog).2

/-- A save whose commit is uncertain, what the user does then, and another save. -/
def savingTwice (task : ClientProg UInt8 Unit) (schedule : List (Nat × ClientAnswers)) :
    Config (ClientState UInt8) ClientAnswers :=
  afterTasks [saveWorkingCopyAsSnapshot byteCodec 0, task, saveWorkingCopyAsSnapshot byteCodec 2] schedule

theorem run_savingTwice {task : ClientProg UInt8 Unit} (h : ClientTask byteCodec 1 task)
    (schedule : List (Nat × ClientAnswers)) : ClientRun byteCodec 0 (savingTwice task schedule) := by
  apply run_afterTasks
  intro i p hp
  match i with
  | 0 => cases hp; exact .save 0
  | 1 => cases hp; exact h
  | 2 => cases hp; exact .save 2
  | _ + 3 => cases hp

/-- The reconciliation is not answered; the user loads a snapshot. -/
def loadedAfterUncertain : Config (ClientState UInt8) ClientAnswers :=
  savingTwice (loadSnapshotIntoWorkingCopy byteCodec "b1")
    (List.replicate 7 (0, answering [] .commitUncertain) ++ [(0, ⟨[], false, .failed, true⟩)] ++
      List.replicate 2 (0, answering [] .failed) ++ List.replicate 2 (1, answering [("b1", [0])] .failed) ++
      List.replicate 6 (2, answering [("b1", [0])] .failed))

/-- The reconciliation finds nothing, since the blob with these bytes is an old one. -/
def savedAfterNotFound : Config (ClientState UInt8) ClientAnswers :=
  savingTwice discardWorkingCopy
    (List.replicate 10 (0, answering [("b1", [0])] .commitUncertain) ++
      List.replicate 6 (2, answering [("b1", [0])] .failed))

theorem uncertain_uploads_are_settled_found : FoundNone (R := UInt8)
    [.listed ["b1"], .reconciled ⟨["b1"], [0]⟩ .notFound, .captured 0, .listed ["b1"]] ⟨["b1"], [0]⟩ := by
  have hrun : ClientRun byteCodec 0 savedAfterNotFound := run_savingTwice (.discard 1) _
  rcases (uncertain_uploads_are_settled hrun).1 [.captured 0, .listed ["b1"], .posted [0]] ⟨["b1"], [0]⟩
    [.listed ["b1"], .reconciled ⟨["b1"], [0]⟩ .notFound, .captured 0, .listed ["b1"]] [0] [] (by decide +kernel) with
    hfound | ⟨repository, hreplaced⟩
  · exact hfound
  · simp at hreplaced

/-- The same content is uploaded again with no reconciliation that found nothing,
after a snapshot was loaded; and after one that did not compare an old blob, which
has the same bytes. -/
theorem uploaded_again :
    (∃ c, ClientRun byteCodec 0 c ∧ ∃ front pending back rest,
      c.state.log = front ++ .uncertain pending :: back ++ .posted pending.bytes :: rest ∧
        ∀ other, .reconciled other .notFound ∉ back) ∧
    ∃ c, ClientRun byteCodec 0 c ∧ ∃ front pending back rest,
      c.state.log = front ++ .uncertain pending :: back ++ .posted pending.bytes :: rest ∧
        .listed ["b1"] ∈ back ∧ ∀ stored, .downloaded "b1" stored ∉ back := by
  constructor
  · refine ⟨loadedAfterUncertain, run_savingTwice (.load 1 "b1") _, [.captured 0, .listed [], .posted [0]], ⟨[], [0]⟩,
      [.reconciled ⟨[], [0]⟩ .unavailable, .downloaded "b1" [0], .replaced 0, .captured 0, .listed ["b1"]], [],
      by decide +kernel, fun other hmem => ?_⟩
    simp at hmem
  · refine ⟨savedAfterNotFound, run_savingTwice (.discard 1) _, [.captured 0, .listed ["b1"], .posted [0]],
      ⟨["b1"], [0]⟩, [.listed ["b1"], .reconciled ⟨["b1"], [0]⟩ .notFound, .captured 0, .listed ["b1"]], [],
      by decide +kernel, List.mem_cons_self, fun stored hmem => ?_⟩
    simp at hmem

end Uploads

end MacroKeyboard.Webapp
