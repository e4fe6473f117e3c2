import MacroKeyboard.Threads.RelyGuarantee
import MacroKeyboard.Threads.Monitor
import MacroKeyboard.Webapp.Snapshots

namespace MacroKeyboard.Webapp

open Threads.Program Threads.RelyGuarantee Threads.Monitor

variable {R : Type}

/-- What happened since the last save captured the working copy. -/
def sinceCapture (log : List (ClientEvent R)) : List (ClientEvent R) :=
  log.foldl (fun since event =>
    match event with
    | .captured _ => []
    | event => since ++ [event]) []

/-- The last edit or import that was neither discarded nor replaced since. -/
def lastChange (events : List (ClientEvent R)) : Option R :=
  events.foldl (fun last event =>
    match event with
    | .changed repository => some repository
    | .discarded | .replaced _ => none
    | _ => last) none

/-- The upload whose commit is uncertain, until it was reconciled with no match or
the user replaced the working copy. -/
def uncertainCommit (log : List (ClientEvent R)) : Option PendingCommit :=
  log.foldl (fun latch event =>
    match event with
    | .uncertain pending => some pending
    | .reconciled _ .notFound | .replaced _ => none
    | _ => latch) none

def Uploaded (log : List (ClientEvent R)) (pending : PendingCommit) : Prop :=
  .listed pending.beforeIds ∈ log ∧ .posted pending.bytes ∈ log

/-- Since the last uncertain upload the blobs were listed, and what was read of them
satisfies this. -/
def Listed (log : List (ClientEvent R)) (P : List String → List (ClientEvent R) → Prop) : Prop :=
  ∃ front blobIds back, log = front ++ .listed blobIds :: back ∧ (∀ pending, .uncertain pending ∉ back) ∧ P blobIds back

def Differs (pending : PendingCommit) (log : List (ClientEvent R)) (blobId : String) : Prop :=
  ∃ stored, .downloaded blobId stored ∈ log ∧ stored ≠ pending.bytes

/-- A reconciliation of an upload names a blob that has its bytes, or every blob
that the list before the upload did not have was downloaded and has other bytes. -/
def Compared (log : List (ClientEvent R)) (pending : PendingCommit) : Reconciliation → Prop
  | .matched blobId => .downloaded blobId pending.bytes ∈ log
  | .notFound => Listed log fun blobIds since =>
    ∀ blobId ∈ blobIds, blobId ∉ pending.beforeIds → Differs pending since blobId
  | .unavailable | .ambiguous _ => True

/-- A save ended: if it was superseded it changed neither the baseline nor whether
the working copy is dirty, and what was changed since it captured is still there. -/
def Kept (log : List (ClientEvent R)) (result : MarkSavedResult) (before after : WorkingCopy R) : Prop :=
  (result = .superseded → after.baseline = before.baseline ∧ after.dirty = before.dirty) ∧
    ∀ repository, lastChange (sinceCapture log) = some repository → after.working = repository ∧ after.dirty = true

/-- What holds of an event and those before it. -/
def Orderly (log : List (ClientEvent R)) : ClientEvent R → Prop
  | .completed result before after => Kept log result before after
  | .posted _ => uncertainCommit log = none
  | .uncertain pending => uncertainCommit log = none ∧ Uploaded log pending
  | .reconciled pending result =>
    (uncertainCommit log = some pending ∨ uncertainCommit log = none) ∧ Uploaded log pending ∧ Compared log pending result
  | .changed _ | .discarded | .replaced _ | .captured _ | .listed _ | .downloaded _ _ => True

structure Inv (client : ClientState R) : Prop where
  clean : client.store.Clean
  latch : client.pendingCommit = uncertainCommit client.log
  uploaded : ∀ pending, client.pendingCommit = some pending → Uploaded client.log pending
  orderly : Always Orderly client.log

/-- What the other threads do while a save is in flight: nothing to the working
copy, or what the user does to it. -/
inductive Moved (before after : ClientState R) : Prop
  | kept (hstore : after.store = before.store) (hpending : after.pendingCommit = before.pendingCommit)
    (hlog : after.log = before.log ∨ ∃ blobId stored, after.log = before.log ++ [.downloaded blobId stored])
  | changed (repository : R) (hstore : after.store = before.store.applyContentChange repository)
    (hpending : after.pendingCommit = before.pendingCommit) (hlog : after.log = before.log ++ [.changed repository])
  | discarded (hstore : after.store = before.store.discardChanges)
    (hpending : after.pendingCommit = before.pendingCommit) (hlog : after.log = before.log ++ [.discarded])
  | replaced (repository : R) (hstore : after.store = before.store.replaceWorkingCopy repository)
    (hpending : after.pendingCommit = none) (hlog : after.log = before.log ++ [.replaced repository])

def rely (task : Nat) (before after : ClientState R) : Prop :=
  before.saveInFlight = some task → after.saveInFlight = some task ∧ Moved before after

def logic (task : Nat) : Logic (ClientState R) where
  inv := Inv
  halt := fun _ => False
  rely := rely task
  guar := fun before after => ∀ other, task ≠ other → rely other before after

def Owned (task : Nat) (P : ClientState R → Prop) (client : ClientState R) : Prop :=
  client.saveInFlight = some task ∧ P client

def Lasting (P : ClientState R → Prop) : Prop := ∀ before after, Moved before after → P before → P after

section Logic

variable {task : Nat} {P Q : ClientState R → Prop} {before after : ClientState R} {α : Type}

theorem stable_owned (hP : Lasting P) : Stable (logic task) (Owned task P) := by
  rintro before after - - hrely ⟨howner, h⟩
  obtain ⟨howner', hmoved⟩ := hrely howner
  exact ⟨howner', hP before after hmoved h⟩

theorem stable_true : Stable (logic (R := R) task) (fun _ => True) := fun _ _ _ _ _ _ => trivial

theorem guar_of_owner (h : before.saveInFlight = some task) : (logic task).guar before after := by
  intro other hne hother
  rw [h, Option.some.injEq] at hother
  exact absurd hother hne

theorem valid_owned {f : ClientAnswers → ClientState R → α × ClientState R} {M : α → ClientState R → Prop}
    (hM : ∀ a, Lasting (M a))
    (h : ∀ answers client, Inv client → P client → client.saveInFlight = some task →
      Inv (f answers client).2 ∧ (f answers client).2.saveInFlight = some task ∧ M (f answers client).1 (f answers client).2) :
    Valid (logic task) (.atomic f) (Owned task P) (fun a => Owned task (M a)) := by
  refine valid_atomic (fun a => stable_owned (hM a)) fun answers client hinv hP => ?_
  obtain ⟨hinv', howner, hM'⟩ := h answers client hinv hP.2 hP.1
  exact ⟨hinv', guar_of_owner hP.1, howner, hM'⟩

theorem valid_moved {f : ClientAnswers → ClientState R → α × ClientState R}
    (h : ∀ answers client, Inv client → Inv (f answers client).2 ∧ Moved client (f answers client).2)
    (howner : ∀ answers client, (f answers client).2.saveInFlight = client.saveInFlight) :
    Valid (logic task) (.atomic f) (fun _ => True) (fun _ _ => True) := by
  refine valid_atomic (fun _ => stable_true) fun answers client hinv _ => ?_
  obtain ⟨hinv', hmoved⟩ := h answers client hinv
  exact ⟨hinv', fun other _ hother => ⟨by rw [howner, hother], hmoved⟩, trivial⟩

end Logic

section Log

variable {log : List (ClientEvent R)} {event : ClientEvent R}

theorem sinceCapture_append (log : List (ClientEvent R)) (event : ClientEvent R) :
    sinceCapture (log ++ [event]) =
      match event with
      | .captured _ => []
      | event => sinceCapture log ++ [event] := by
  rw [sinceCapture, List.foldl_append]
  rfl

theorem lastChange_append (log : List (ClientEvent R)) (event : ClientEvent R) :
    lastChange (log ++ [event]) =
      match event with
      | .changed repository => some repository
      | .discarded | .replaced _ => none
      | _ => lastChange log := by
  rw [lastChange, List.foldl_append]
  rfl

theorem uncertainCommit_append (log : List (ClientEvent R)) (event : ClientEvent R) :
    uncertainCommit (log ++ [event]) =
      match event with
      | .uncertain pending => some pending
      | .reconciled _ .notFound | .replaced _ => none
      | _ => uncertainCommit log := by
  rw [uncertainCommit, List.foldl_append]
  rfl

end Log

section Lasting

variable {before after client : ClientState R} {pending : PendingCommit} {token : SaveToken} {event : ClientEvent R}

theorem Inv.append (h : Inv before) (hlog : after.log = before.log ++ [event]) (hclean : after.store.Clean)
    (hlatch : after.pendingCommit = uncertainCommit (before.log ++ [event])) (horderly : Orderly before.log event)
    (huploaded : ∀ pending, after.pendingCommit = some pending → Uploaded before.log pending) : Inv after := by
  refine ⟨hclean, by rw [hlatch, hlog], fun pending hpending => ?_, ?_⟩
  · obtain ⟨hlisted, hposted⟩ := huploaded pending hpending
    rw [hlog]
    exact ⟨List.mem_append_left _ hlisted, List.mem_append_left _ hposted⟩
  · rw [hlog]
    exact h.orderly.append horderly

theorem Moved.refl (client : ClientState R) : Moved client client := .kept rfl rfl (Or.inl rfl)

theorem Moved.log_append (h : Moved before after) :
    ∃ events, after.log = before.log ++ events ∧ ∀ pending, .uncertain pending ∉ events := by
  cases h with
  | kept _ _ hlog =>
    rcases hlog with hlog | ⟨blobId, stored, hlog⟩
    · exact ⟨[], by rw [hlog, List.append_nil], fun pending hmem => by simp at hmem⟩
    · exact ⟨_, hlog, fun pending hmem => by simp at hmem⟩
  | changed repository _ _ hlog => exact ⟨_, hlog, fun pending hmem => by simp at hmem⟩
  | discarded _ _ hlog => exact ⟨_, hlog, fun pending hmem => by simp at hmem⟩
  | replaced repository _ _ hlog => exact ⟨_, hlog, fun pending hmem => by simp at hmem⟩

theorem Moved.pendingCommit (h : Moved before after) :
    after.pendingCommit = before.pendingCommit ∨ after.pendingCommit = none := by
  cases h with
  | kept _ hpending _ => exact Or.inl hpending
  | changed _ _ hpending _ => exact Or.inl hpending
  | discarded _ hpending _ => exact Or.inl hpending
  | replaced _ _ hpending _ => exact Or.inr hpending

theorem lasting_true : Lasting (fun _ : ClientState R => True) := fun _ _ _ _ => trivial

theorem Lasting.and {P Q : ClientState R → Prop} (hP : Lasting P) (hQ : Lasting Q) :
    Lasting (fun client => P client ∧ Q client) :=
  fun before after hmoved h => ⟨hP before after hmoved h.1, hQ before after hmoved h.2⟩

theorem lasting_mem (event : ClientEvent R) : Lasting (fun client => event ∈ client.log) := by
  intro before after hmoved h
  obtain ⟨events, hlog, -⟩ := hmoved.log_append
  rw [hlog]
  exact List.mem_append_left _ h

theorem lasting_idle : Lasting (fun client : ClientState R => client.pendingCommit = none) := by
  intro before after hmoved h
  rcases hmoved.pendingCommit with hpending | hpending
  · rw [hpending, h]
  · exact hpending

theorem Listed.append {log events : List (ClientEvent R)} {P Q : List String → List (ClientEvent R) → Prop}
    (h : Listed log P) (hquiet : ∀ pending, .uncertain pending ∉ events)
    (hP : ∀ blobIds since, P blobIds since → Q blobIds (since ++ events)) : Listed (log ++ events) Q := by
  obtain ⟨front, blobIds, back, hlog, hback, hread⟩ := h
  refine ⟨front, blobIds, back ++ events, by rw [hlog, List.append_assoc, List.cons_append], ?_, hP _ _ hread⟩
  intro pending hmem
  rcases List.mem_append.mp hmem with hmem | hmem
  · exact hback pending hmem
  · exact hquiet pending hmem

theorem Differs.append {log : List (ClientEvent R)} {blobId : String} (h : Differs pending log blobId)
    (events : List (ClientEvent R)) : Differs pending (log ++ events) blobId := by
  obtain ⟨stored, hmem, hne⟩ := h
  exact ⟨stored, List.mem_append_left _ hmem, hne⟩

/-- What a save relies on from its capture to its end. -/
structure Since (token : SaveToken) (client : ClientState R) : Prop where
  older : token.revision ≤ client.store.revision
  kept : ∀ repository, lastChange (sinceCapture client.log) = some repository →
    client.store.working = repository ∧ client.store.dirty = true ∧ token.revision < client.store.revision

theorem lasting_since (token : SaveToken) : Lasting (Since (R := R) token) := by
  intro before after hmoved h
  have holder := h.older
  cases hmoved with
  | kept hstore _ hlog =>
    refine ⟨by rw [hstore]; exact h.older, fun repository hlast => ?_⟩
    rw [hstore]
    apply h.kept repository
    rcases hlog with hlog | ⟨blobId, stored, hlog⟩
    · rwa [hlog] at hlast
    · rwa [hlog, sinceCapture_append, lastChange_append] at hlast
  | changed repository hstore _ hlog =>
    have hrevision : after.store.revision = before.store.revision + 1 := by rw [hstore]; rfl
    refine ⟨by omega, fun other hlast => ?_⟩
    rw [hlog, sinceCapture_append, lastChange_append] at hlast
    cases hlast
    refine ⟨by rw [hstore]; rfl, by rw [hstore]; rfl, by omega⟩
  | discarded hstore _ hlog =>
    have hrevision : after.store.revision = before.store.revision + 1 := by rw [hstore]; rfl
    refine ⟨by omega, fun other hlast => ?_⟩
    rw [hlog, sinceCapture_append, lastChange_append] at hlast
    cases hlast
  | replaced repository hstore _ hlog =>
    have hrevision : after.store.revision = before.store.revision + 1 := by rw [hstore]; rfl
    refine ⟨by omega, fun other hlast => ?_⟩
    rw [hlog, sinceCapture_append, lastChange_append] at hlast
    cases hlast

structure Reconciling (pending : PendingCommit) (client : ClientState R) : Prop where
  latched : client.pendingCommit = some pending ∨ client.pendingCommit = none
  uploaded : Uploaded client.log pending

theorem lasting_reconciling (pending : PendingCommit) : Lasting (Reconciling (R := R) pending) := by
  intro before after hmoved h
  refine ⟨?_, lasting_mem _ _ _ hmoved h.uploaded.1, lasting_mem _ _ _ hmoved h.uploaded.2⟩
  rcases hmoved.pendingCommit with hpending | hpending
  · rw [hpending]
    exact h.latched
  · exact Or.inr hpending

structure Comparing (pending : PendingCommit) (left matching : List String) (client : ClientState R) : Prop where
  reconciling : Reconciling pending client
  equal : ∀ blobId ∈ matching, .downloaded blobId pending.bytes ∈ client.log
  listed : Listed client.log fun blobIds since => ∀ blobId ∈ blobIds, blobId ∉ pending.beforeIds →
    blobId ∈ left ∨ blobId ∈ matching ∨ Differs pending since blobId

theorem lasting_comparing (pending : PendingCommit) (left matching : List String) :
    Lasting (Comparing (R := R) pending left matching) := by
  intro before after hmoved h
  refine ⟨lasting_reconciling pending before after hmoved h.reconciling,
    fun blobId hmem => lasting_mem _ before after hmoved (h.equal blobId hmem), ?_⟩
  obtain ⟨events, hlog, hquiet⟩ := hmoved.log_append
  rw [hlog]
  refine h.listed.append hquiet fun blobIds since hread blobId hmem hnew => ?_
  rcases hread blobId hmem hnew with hleft | hmatching | hdiffers
  · exact Or.inl hleft
  · exact Or.inr (Or.inl hmatching)
  · exact Or.inr (Or.inr (hdiffers.append events))

end Lasting

section Reconcile

variable {task : Nat} {pending : PendingCommit} {client : ClientState R}

theorem Inv.note (h : Inv client) {event : ClientEvent R} (horderly : Orderly client.log event)
    (hlatch : uncertainCommit (client.log ++ [event]) = uncertainCommit client.log) : Inv (client.note event) :=
  h.append rfl h.clean (by rw [hlatch]; exact h.latch) horderly h.uploaded

/-- What holds of a request that was not answered, and of one that was. -/
def Answered {α : Type} (P : ClientState R → Prop) (M : α → ClientState R → Prop) : Option α → ClientState R → Prop
  | none => P
  | some answer => M answer

theorem lasting_answered {α : Type} {P : ClientState R → Prop} {M : α → ClientState R → Prop} (hP : Lasting P)
    (hM : ∀ answer, Lasting (M answer)) (answer : Option α) : Lasting (Answered P M answer) := by
  cases answer with
  | none => exact hP
  | some answer => exact hM answer

theorem listSnapshots_valid {P N : ClientState R → Prop} {M : List String → ClientState R → Prop} (hN : Lasting N)
    (hM : ∀ blobIds, Lasting (M blobIds)) (hnone : ∀ client, P client → N client)
    (hsome : ∀ blobIds client, P client → M blobIds (client.note (.listed blobIds))) :
    Valid (logic task) (listSnapshots (R := R)) (Owned task P) (fun listed => Owned task (Answered N M listed)) := by
  apply valid_owned (lasting_answered hN hM)
  intro answers client hinv hclient howner
  by_cases hanswered : answers.answered = true
  · simp only [hanswered, if_true]
    exact ⟨hinv.note trivial (uncertainCommit_append _ _), howner, hsome _ client hclient⟩
  · simp only [hanswered]
    exact ⟨hinv, howner, hnone client hclient⟩

theorem downloadSnapshotBytes_valid {blobId : String} {P N : ClientState R → Prop}
    {M : List UInt8 → ClientState R → Prop} (hN : Lasting N) (hM : ∀ stored, Lasting (M stored))
    (hnone : ∀ client, P client → N client)
    (hsome : ∀ stored client, P client → M stored (client.note (.downloaded blobId stored))) :
    Valid (logic task) (downloadSnapshotBytes (R := R) blobId) (Owned task P)
      (fun stored => Owned task (Answered N M stored)) := by
  apply valid_owned (lasting_answered hN hM)
  intro answers client hinv hclient howner
  split
  next stored _ => exact ⟨hinv.note trivial (uncertainCommit_append _ _), howner, hsome stored client hclient⟩
  next => exact ⟨hinv, howner, hnone client hclient⟩

theorem Comparing.downloaded {blobId : String} {rest matching : List String}
    (h : Comparing pending (blobId :: rest) matching client) (stored : List UInt8) :
    Comparing pending rest (if stored = pending.bytes then matching ++ [blobId] else matching)
      (client.note (.downloaded blobId stored)) := by
  have hold : ∀ event, event ∈ client.log → event ∈ (client.note (.downloaded blobId stored)).log :=
    fun event hmem => List.mem_append_left _ hmem
  have hlast : .downloaded blobId stored ∈ (client.note (.downloaded blobId stored)).log :=
    List.mem_append_right _ List.mem_cons_self
  refine ⟨⟨h.reconciling.latched, hold _ h.reconciling.uploaded.1, hold _ h.reconciling.uploaded.2⟩, ?_, ?_⟩
  · intro other hmem
    split at hmem
    next hequal =>
      rcases List.mem_append.mp hmem with hmem | hmem
      · exact hold _ (h.equal other hmem)
      · rw [List.mem_singleton.mp hmem, ← hequal]
        exact hlast
    next => exact hold _ (h.equal other hmem)
  · refine h.listed.append (fun pending hmem => by simp at hmem) fun blobIds since hread other hmem hnew => ?_
    rcases hread other hmem hnew with hleft | hmatching | hdiffers
    · rcases List.mem_cons.mp hleft with rfl | hleft
      · by_cases hequal : stored = pending.bytes
        · rw [if_pos hequal]
          exact Or.inr (Or.inl (List.mem_append_right _ List.mem_cons_self))
        · exact Or.inr (Or.inr ⟨stored, List.mem_append_right _ List.mem_cons_self, hequal⟩)
      · exact Or.inl hleft
    · refine Or.inr (Or.inl ?_)
      split
      · exact List.mem_append_left _ hmatching
      · exact hmatching
    · exact Or.inr (Or.inr (hdiffers.append _))

theorem matchingBlobs_valid (left matching : List String) :
    Valid (logic task) (matchingBlobs (R := R) pending.bytes left matching) (Owned task (Comparing pending left matching))
      (fun result => Owned task fun client => Reconciling pending client ∧
        ∀ matching, result = some matching → Comparing pending [] matching client) := by
  induction left generalizing matching with
  | nil =>
    apply valid_ret
    rintro client - ⟨howner, h⟩
    exact ⟨howner, h.reconciling, fun other heq => by cases heq; exact h⟩
  | cons blobId rest ih =>
    refine valid_bind (downloadSnapshotBytes_valid (lasting_reconciling pending) (fun stored => lasting_comparing pending _ _)
      (fun client h => h.reconciling) fun stored client h => h.downloaded stored) fun answer => ?_
    cases answer with
    | none =>
      apply valid_ret
      rintro client - ⟨howner, h⟩
      exact ⟨howner, h, fun other heq => by cases heq⟩
    | some stored => exact ih _

theorem Comparing.compared {matching : List String} (h : Comparing pending [] matching client) :
    Compared client.log pending (reconciliationOf (some matching)) := by
  match matching with
  | [] =>
    obtain ⟨front, blobIds, back, hlog, hquiet, hread⟩ := h.listed
    refine ⟨front, blobIds, back, hlog, hquiet, fun blobId hmem hnew => ?_⟩
    rcases hread blobId hmem hnew with hleft | hmatching | hdiffers
    · simp at hleft
    · simp at hmatching
    · exact hdiffers
  | [blobId] => exact h.equal blobId List.mem_cons_self
  | _ :: _ :: _ => trivial

theorem reconcilePendingSnapshotCommit_valid (pending : PendingCommit) :
    Valid (logic task) (reconcilePendingSnapshotCommit (R := R) pending) (Owned task (Reconciling pending))
      (fun result => Owned task fun client => Reconciling pending client ∧ Compared client.log pending result) := by
  refine valid_bind (listSnapshots_valid (M := fun current => Comparing pending (current.filter (· ∉ pending.beforeIds)) [])
    (lasting_reconciling pending) (fun current => lasting_comparing pending _ _) (fun client h => h)
    fun current client h => ?_) fun listed => ?_
  · refine ⟨⟨h.latched, List.mem_append_left _ h.uploaded.1, List.mem_append_left _ h.uploaded.2⟩,
      fun blobId hmem => by simp at hmem, client.log, current, [], rfl, fun other hmem => by simp at hmem, ?_⟩
    intro blobId hmem hnew
    exact Or.inl (List.mem_filter.mpr ⟨hmem, by simpa using hnew⟩)
  · cases listed with
    | none =>
      apply valid_ret
      rintro client - ⟨howner, h⟩
      exact ⟨howner, h, trivial⟩
    | some current =>
      refine valid_bind (matchingBlobs_valid _ []) fun result => valid_ret ?_
      rintro client - ⟨howner, h, hcomparing⟩
      refine ⟨howner, h, ?_⟩
      cases result with
      | none => trivial
      | some matching => exact (hcomparing matching rfl).compared

theorem reconcileAndThrow_valid (pending : PendingCommit) :
    Valid (logic task) (reconcileAndThrow (R := R) pending) (Owned task (Reconciling pending))
      (fun _ => Owned task fun _ => True) := by
  refine valid_bind (reconcilePendingSnapshotCommit_valid pending) fun result => valid_owned (fun _ => lasting_true) ?_
  rintro answers client hinv ⟨hreconciling, hcompared⟩ howner
  have horderly : Orderly client.log (.reconciled pending result) :=
    ⟨by rw [← hinv.latch]; exact hreconciling.latched, hreconciling.uploaded, hcompared⟩
  refine ⟨hinv.append rfl hinv.clean ?_ horderly ?_, howner, trivial⟩
  · rw [uncertainCommit_append]
    cases result with
    | notFound => rfl
    | matched blobId => exact hinv.latch
    | unavailable => exact hinv.latch
    | ambiguous matching => exact hinv.latch
  · intro other hother
    apply hinv.uploaded other
    have hpending : (if result = .notFound then none else client.pendingCommit) = some other := hother
    split at hpending
    · cases hpending
    · exact hpending

end Reconcile

section Save

variable {task : Nat} {codec : SnapshotCodec R} {client : ClientState R} {token : SaveToken}

/-- What a save has captured, while no upload is uncertain. -/
structure Uploading (token : SaveToken) (client : ClientState R) : Prop where
  since : Since token client
  idle : client.pendingCommit = none

theorem lasting_uploading (token : SaveToken) : Lasting (Uploading (R := R) token) :=
  fun before after hmoved h => ⟨lasting_since token before after hmoved h.since, lasting_idle before after hmoved h.idle⟩

theorem Since.note (h : Since token client) {event : ClientEvent R}
    (hevent : lastChange (sinceCapture (client.log ++ [event])) = lastChange (sinceCapture client.log)) :
    Since token (client.note event) :=
  ⟨h.older, fun repository hlast => h.kept repository (by rwa [← hevent])⟩

theorem captureWorkingCopy_valid :
    Valid (logic task) (.atomic (captureWorkingCopy (R := R))) (Owned task fun _ => True)
      (fun captured => Owned task (Since captured.2)) := by
  refine valid_owned (M := fun captured : R × SaveToken => Since captured.2) (fun captured => lasting_since captured.2) ?_
  intro answers client hinv _ howner
  refine ⟨hinv.note trivial (uncertainCommit_append _ _), howner, le_rfl, fun repository hlast => ?_⟩
  have hnone : sinceCapture (client.log ++ [.captured client.store.working]) = [] := sinceCapture_append _ _
  have hlast' : lastChange (sinceCapture (client.log ++ [.captured client.store.working])) = some repository := hlast
  rw [hnone] at hlast'
  cases hlast'

theorem Since.saved (h : Since token client) (repository : R) :
    Kept client.log (client.store.markSaved repository token).1 client.store
      (client.store.markSaved repository token).2 := by
  constructor
  · intro hsuperseded
    rw [WorkingCopy.markSaved_superseded hsuperseded]
    exact ⟨rfl, rfl⟩
  · intro changed hlast
    obtain ⟨hworking, hdirty, hrevision⟩ := h.kept changed hlast
    obtain ⟨hworking', hdirty'⟩ : (client.store.markSaved repository token).2.working = client.store.working ∧
        (client.store.markSaved repository token).2.dirty = true := WorkingCopy.markSaved_older hrevision.ne hdirty
    exact ⟨hworking'.trans hworking, hdirty'⟩

theorem concludeUpload_valid (pending : PendingCommit) (repository : R) (token : SaveToken) :
    Valid (logic task) (.atomic (concludeUpload pending repository token))
      (Owned task fun client => Uploading token client ∧ Uploaded client.log pending)
      (fun uncertain => Owned task fun client => uncertain = true → Reconciling pending client) := by
  apply valid_owned
  · exact fun uncertain before after hmoved h huncertain => lasting_reconciling pending before after hmoved (h huncertain)
  rintro answers client hinv ⟨hclient, huploaded⟩ howner
  have hidle : uncertainCommit client.log = none := by rw [← hinv.latch, hclient.idle]
  unfold concludeUpload
  split
  · refine ⟨hinv.append rfl (WorkingCopy.clean_markSaved hinv.clean repository token) ?_ (hclient.since.saved repository)
      (fun other hother => by cases hother), howner, fun huncertain => by cases huncertain⟩
    rw [uncertainCommit_append]
    exact hidle.symm
  · refine ⟨hinv.append rfl hinv.clean (uncertainCommit_append client.log (.uncertain pending)).symm
      ⟨hidle, huploaded⟩ ?_, howner, fun _ => ?_⟩
    · rintro other hother
      cases hother
      exact huploaded
    · exact ⟨Or.inl rfl, List.mem_append_left _ huploaded.1, List.mem_append_left _ huploaded.2⟩
  · exact ⟨hinv, howner, fun huncertain => by cases huncertain⟩

theorem uploadSnapshot_valid (repository : R) (token : SaveToken) (bytes : List UInt8) :
    Valid (logic task) (uploadSnapshot repository token bytes) (Owned task (Uploading token))
      (fun _ => Owned task fun _ => True) := by
  refine valid_bind (listSnapshots_valid (M := fun before client => Uploading token client ∧ .listed before ∈ client.log)
    lasting_true (fun before => (lasting_uploading token).and (lasting_mem _)) (fun _ _ => trivial)
    fun before client h => ?_) fun listed => ?_
  · refine ⟨⟨h.since.note ?_, h.idle⟩, List.mem_append_right _ List.mem_cons_self⟩
    rw [sinceCapture_append, lastChange_append]
  cases listed with
  | none => exact valid_ret fun client _ h => h
  | some before =>
    refine valid_bind (M := fun _ => Owned task fun client => Uploading token client ∧ Uploaded client.log ⟨before, bytes⟩)
      (valid_owned (fun _ => (lasting_uploading token).and ((lasting_mem _).and (lasting_mem _))) ?_) fun _ => ?_
    · rintro answers client hinv ⟨hclient, hlisted⟩ howner
      have hidle : uncertainCommit client.log = none := by rw [← hinv.latch, hclient.idle]
      refine ⟨hinv.note hidle (uncertainCommit_append _ _), howner, ⟨hclient.since.note ?_, hclient.idle⟩,
        List.mem_append_left _ hlisted, List.mem_append_right _ List.mem_cons_self⟩
      rw [sinceCapture_append, lastChange_append]
    refine valid_bind (concludeUpload_valid ⟨before, bytes⟩ repository token) fun uncertain => ?_
    cases uncertain with
    | true => exact (reconcileAndThrow_valid ⟨before, bytes⟩).pre fun client _ h => ⟨h.1, h.2 rfl⟩
    | false => exact valid_ret fun client _ h => ⟨h.1, trivial⟩

theorem saveWorkingCopyAsSnapshotOnce_valid :
    Valid (logic task) (saveWorkingCopyAsSnapshotOnce codec) (Owned task fun _ => True)
      (fun _ => Owned task fun _ => True) := by
  refine valid_bind captureWorkingCopy_valid ?_
  rintro ⟨repository, token⟩
  dsimp only
  cases codec.validateRepositoryForUse repository with
  | none => exact valid_ret fun client _ h => ⟨h.1, trivial⟩
  | some validated =>
    refine valid_bind (M := fun _ => Owned task (Since token))
      (valid_owned (fun _ => lasting_since token) fun answers client hinv h howner => ⟨hinv, howner, h⟩) fun compressed => ?_
    split
    · exact valid_ret fun client _ h => ⟨h.1, trivial⟩
    refine valid_bind (M := fun pending => Owned task (Answered (Uploading token) Reconciling pending))
      (valid_owned (lasting_answered (lasting_uploading token) lasting_reconciling) ?_) fun pending => ?_
    · intro answers client hinv h howner
      refine ⟨hinv, howner, ?_⟩
      show Answered (Uploading token) Reconciling client.pendingCommit client
      match hpending : client.pendingCommit with
      | none => exact ⟨h, hpending⟩
      | some pending => exact ⟨Or.inl hpending, hinv.uploaded pending hpending⟩
    cases pending with
    | none => exact uploadSnapshot_valid validated token _
    | some pending => exact reconcileAndThrow_valid pending

theorem saveWorkingCopyAsSnapshot_valid :
    Valid (logic task) (saveWorkingCopyAsSnapshot codec task) (fun _ => True) (fun _ _ => True) := by
  refine valid_bind (M := fun claimed client => claimed = true → client.saveInFlight = some task) (valid_atomic ?_ ?_)
    fun claimed => ?_
  · exact fun claimed before after _ _ hrely h hclaimed => (hrely (h hclaimed)).1
  · intro answers client hinv _
    unfold claimSave
    split
    next => exact ⟨hinv, fun other _ hother => ⟨hother, .refl client⟩, fun hclaimed => by cases hclaimed⟩
    next hfree =>
      refine ⟨⟨hinv.clean, hinv.latch, hinv.uploaded, hinv.orderly⟩, fun other _ hother => ?_, fun _ => rfl⟩
      rw [hfree] at hother
      cases hother
  cases claimed with
  | false => exact valid_ret fun client _ _ => trivial
  | true =>
    have honce : Valid (logic task) (saveWorkingCopyAsSnapshotOnce codec) (Owned task fun _ => True)
        (fun _ => Owned task fun _ => True) := saveWorkingCopyAsSnapshotOnce_valid
    refine valid_bind (honce.pre fun client _ h => ⟨h rfl, trivial⟩)
      fun _ => valid_atomic (fun _ => stable_true) fun answers client hinv h => ?_
    exact ⟨⟨hinv.clean, hinv.latch, hinv.uploaded, hinv.orderly⟩, guar_of_owner h.1, trivial⟩

end Save

section Tasks

variable {task : Nat} {codec : SnapshotCodec R}

theorem editWorkingCopy_valid (repository : R) :
    Valid (logic task) (editWorkingCopy repository) (fun _ => True) (fun _ _ => True) := by
  apply valid_moved
  · intro answers client hinv
    refine ⟨hinv.append rfl (fun hdirty => by cases hdirty) ?_ trivial hinv.uploaded, .changed repository rfl rfl rfl⟩
    rw [uncertainCommit_append]
    exact hinv.latch
  · exact fun _ _ => rfl

theorem discardWorkingCopy_valid :
    Valid (logic task) (discardWorkingCopy (R := R)) (fun _ => True) (fun _ _ => True) := by
  apply valid_moved
  · intro answers client hinv
    refine ⟨hinv.append rfl (fun _ => rfl) ?_ trivial hinv.uploaded, .discarded rfl rfl rfl⟩
    rw [uncertainCommit_append]
    exact hinv.latch
  · exact fun _ _ => rfl

theorem loadSnapshotIntoWorkingCopy_valid (blobId : String) :
    Valid (logic task) (loadSnapshotIntoWorkingCopy codec blobId) (fun _ => True) (fun _ _ => True) := by
  refine valid_bind (valid_moved ?_ ?_) fun stored => ?_
  · intro answers client hinv
    split
    next stored _ =>
      exact ⟨hinv.note trivial (uncertainCommit_append _ _), .kept rfl rfl (Or.inr ⟨blobId, stored, rfl⟩)⟩
    next => exact ⟨hinv, .refl client⟩
  · intro answers client
    split <;> rfl
  cases stored with
  | none => exact valid_ret fun client _ _ => trivial
  | some stored =>
    dsimp only
    cases (codec.decodeRepositorySnapshot stored).bind codec.validateRepositoryForUse with
    | none => exact valid_ret fun client _ _ => trivial
    | some repository =>
      apply valid_moved
      · intro answers client hinv
        exact ⟨hinv.append rfl (fun _ => rfl) (uncertainCommit_append client.log (.replaced repository)).symm trivial
            (fun other hother => by cases hother),
          .replaced repository rfl rfl rfl⟩
      · exact fun _ _ => rfl

theorem replaceSnapshotWithWorkingCopy_valid :
    Valid (logic task) (replaceSnapshotWithWorkingCopy codec task) (fun _ => True) (fun _ _ => True) := by
  refine valid_bind (valid_moved (fun answers client hinv => ⟨hinv, .refl client⟩) fun _ _ => rfl) fun deleted => ?_
  split
  · exact valid_ret fun client _ _ => trivial
  · exact saveWorkingCopyAsSnapshot_valid

theorem compatible : Threads.RelyGuarantee.Compatible (logic (R := R)) Inv (fun _ => False) (fun _ _ => True) where
  inv_eq := fun _ => rfl
  halt_eq := fun _ => rfl
  mutual_rely := fun _ _ _ _ hne hguar => hguar _ hne
  pre_stable := fun _ => stable_true

theorem inv_initial (repository : R) : Inv (ClientState.initial repository) :=
  ⟨WorkingCopy.clean_create repository, rfl, (fun pending hpending => by cases hpending), always_nil⟩

theorem inv_of_run {initial : R} {c : Config (ClientState R) ClientAnswers} (h : ClientRun codec initial c) :
    Inv c.state := by
  have hvalid : ∀ i p, ClientTask codec i p → Valid (logic i) p (fun _ => True) (fun _ _ => True) := by
    intro i p htask
    cases htask with
    | edit repository => exact editWorkingCopy_valid repository
    | importFile repository => exact editWorkingCopy_valid repository
    | discard => exact discardWorkingCopy_valid
    | save => exact saveWorkingCopyAsSnapshot_valid
    | load blobId => exact loadSnapshotIntoWorkingCopy_valid blobId
    | replace => exact replaceSnapshotWithWorkingCopy_valid
  rcases invariant_reachable compatible (fun _ hhalt => hhalt.elim) hvalid (inv_initial initial) (fun _ => trivial) h with
    hhalt | hbetween
  · exact hhalt.elim
  · exact hbetween.inv_holds

end Tasks

end MacroKeyboard.Webapp
