import MacroKeyboard.Web.SetupMode

namespace MacroKeyboard.Web.SetupRestart

open Json Auth Settings Settings.Coherence Settings.Effects SetupMode

inductive Restart
  | none | scheduled | performed
deriving DecidableEq, Repr

/-- What the end of an accepted submission reports: whether its answer was sent and the
restart scheduled. -/
structure AnswerCalls where
  send : Bool
  schedule : Bool

structure SetupDevice where
  setup : SetupState
  restart : Restart

/-- What happens in setup mode: submissions, reads of the state, and operations of other
tasks on the settings. -/
inductive SetupEvent
  | submission (submission : Submission) (answer : AnswerCalls)
  | read (calls : LockedCalls)
  | operation (operation : Operation) (calls : StoreCalls)

section Device

variable (parse : CJsonParse) (derive : Derivation)

def setupSubmitHandler (submission : Submission) (answer : AnswerCalls) (device : SetupDevice) : SetupDevice :=
  let submitted := submit parse derive submission device.setup
  if submitted.outcome.result ≠ .ok then { device with setup := submitted.state }
  else if ¬ answer.send then { device with setup := submitted.state }
  else ⟨submitted.state, if answer.schedule then .scheduled else .performed⟩

/-- One event. A device that has restarted has left setup mode. -/
def step (device : SetupDevice) (event : SetupEvent) : SetupDevice :=
  if device.restart = .performed then device
  else
    match event with
    | .submission submission answer => setupSubmitHandler parse derive submission answer device
    | .read calls => { device with setup := { device.setup with store := (deviceSettingsRead calls device.setup.store).2 } }
    | .operation operation calls =>
      { device with setup := { device.setup with store := (perform calls operation device.setup.store).store } }

def run (events : List SetupEvent) (device : SetupDevice) : SetupDevice := events.foldl (step parse derive) device

end Device

def storedProvisioned (device : SetupDevice) : Bool :=
  (storedSettings device.setup.store.nvs.record).any (fun settings => settings.provisioned)

/-- A commit that fails left the record unwritten, or what was written can be read back. -/
def CommitSettled (calls : StoreCalls) : Prop :=
  calls.commit.isSome = true → calls.persisted = true →
    calls.reopen = none ∧ calls.reconcileSize = none ∧ calls.reconcileGet = none

/-- The answer of a submission is sent, the mutex of the settings can be given back, and
the commit is settled. -/
structure Settles (submission : Submission) (answer : AnswerCalls) : Prop where
  send : answer.send = true
  give : submission.replace.give = true
  commit : CommitSettled submission.replace.store

section Commit

variable {calls : StoreCalls}

/-- A replacement with a settled commit succeeds or leaves the record alone. -/
theorem replaceRecordAtomic_settled (h : CommitSettled calls) (record : List UInt8) (nvs : Nvs) :
    (nvs.replaceRecordAtomic calls record).1 = .none ∨ (nvs.replaceRecordAtomic calls record).2.record = nvs.record := by
  unfold Nvs.replaceRecordAtomic
  by_cases hargument : ¬ nvs.handleOpen ∨ record.length ≠ settingsRecordBytes
  · rw [if_pos hargument]
    exact Or.inr rfl
  rw [if_neg hargument]
  rw [not_or, not_not, not_not] at hargument
  unfold CommitSettled at h
  cases hset : calls.setBlob with
  | some fault =>
    rw [calls.not_persisted hset]
    exact Or.inr rfl
  | none =>
    cases hcommit : calls.commit with
    | none => exact Or.inl rfl
    | some fault =>
      dsimp only
      by_cases hpersisted : calls.persisted = true
      · left
        obtain ⟨hreopen, hsize, hget⟩ := h (by rw [hcommit]; rfl) hpersisted
        simp [Nvs.reconcileFailedCommit, Nvs.reopenSettingsHandle, Nvs.readRecord, hreopen, hsize, hget, hpersisted,
          hargument.2]
      · right
        rw [reconcileFailedCommit_record, if_neg hpersisted]

theorem replace_settled (h : CommitSettled calls) (settings : DeviceSettings) (store : Store) :
    (store.replace calls settings).error = .none ∨ (store.replace calls settings).store.nvs.record = store.nvs.record := by
  have hload := load_nvs calls store
  have hatomic := replaceRecordAtomic_settled h (encodeSettings settings).2 store.nvs
  unfold Store.replace
  dsimp only
  split
  · exact Or.inr (congrArg Nvs.record hload)
  · split
    · exact Or.inr (congrArg Nvs.record hload)
    · split
      · exact Or.inr (congrArg Nvs.record hload)
      · split
        · exact Or.inl rfl
        · rw [hload]
          generalize store.nvs.replaceRecordAtomic calls (encodeSettings settings).2 = replaced at hatomic
          obtain ⟨result, nvs⟩ := replaced
          dsimp only at hatomic ⊢
          cases result with
          | none => exact Or.inl rfl
          | commitUncertain => exact Or.inr (hatomic.resolve_left nofun)
          | _ => exact Or.inr (hatomic.resolve_left nofun)

end Commit

section Events

variable (parse : CJsonParse) (derive : Derivation) {device : SetupDevice} {submission : Submission} {answer : AnswerCalls}

/-- A submission whose commit settles is accepted or leaves the record alone. -/
theorem submit_settled (h : Coherent device.setup.store) (hsettles : Settles submission answer) :
    (submit parse derive submission device.setup).outcome.result = .ok ∨
      (submit parse derive submission device.setup).state.store.nvs.record = device.setup.store.nvs.record := by
  rcases submit_cases parse derive submission h with
    ⟨outcome, store, heq, -, -, hrecord⟩ | ⟨candidate, store, request, heq, -, hrecord, hhanded⟩
  · rw [heq]
    exact Or.inr hrecord
  rw [heq]
  have hreplace := replace_settled hsettles.commit candidate store
  unfold commitCandidate deviceSettingsReplace
  by_cases htake : ¬ submission.replace.take = true
  · rw [if_pos htake]
    exact Or.inr hrecord
  rw [if_neg htake]
  dsimp only
  by_cases herror : (store.replace submission.replace.store candidate).error = .none
  · left
    have hfinished : finishLocked submission.replace.give (store.replace submission.replace.store candidate).error =
        .none := by
      unfold finishLocked
      rw [herror, hsettles.give]
      rfl
    rw [if_neg (not_not.mpr hfinished), if_neg (by rw [hhanded.unconsumed]; exact Bool.false_ne_true)]
  · right
    have hsame := (hreplace.resolve_left herror).trans hrecord
    split
    · exact hsame
    · split
      · exact hsame
      · exact hsame

/-- Such a submission, if it makes the record provisioned, makes the device restart. -/
theorem restart_of_settled (h : Coherent device.setup.store) (hsettles : Settles submission answer)
    (hbefore : storedProvisioned device = false)
    (hafter : storedProvisioned (step parse derive device (.submission submission answer)) = true) :
    (step parse derive device (.submission submission answer)).restart ≠ .none := by
  unfold step at hafter ⊢
  split
  next hperformed =>
    rw [hperformed]
    exact nofun
  next hrunning =>
    rw [if_neg hrunning] at hafter
    dsimp only at hafter ⊢
    unfold setupSubmitHandler at hafter ⊢
    dsimp only at hafter ⊢
    rcases submit_settled parse derive h hsettles with hresult | hrecord
    · rw [if_neg (not_not.mpr hresult), if_neg (not_not.mpr hsettles.send)]
      dsimp only
      split
      · exact nofun
      · exact nofun
    · exfalso
      have hsame : storedProvisioned ⟨(submit parse derive submission device.setup).state, device.restart⟩ = false := by
        rw [← hbefore]
        unfold storedProvisioned
        rw [hrecord]
      have hother : ∀ restart,
          storedProvisioned ⟨(submit parse derive submission device.setup).state, restart⟩ = false := fun _ => hsame
      split at hafter
      · rw [hother] at hafter
        cases hafter
      · rw [if_neg (not_not.mpr hsettles.send), hother] at hafter
        cases hafter

theorem restart_step (event : SetupEvent) (h : device.restart ≠ .none) :
    (step parse derive device event).restart ≠ .none := by
  unfold step
  split
  · exact h
  · cases event with
    | submission submission answer =>
      dsimp only
      unfold setupSubmitHandler
      dsimp only
      split
      · exact h
      · split
        · exact h
        · dsimp only
          split
          · exact nofun
          · exact nofun
    | read calls => exact h
    | operation operation calls => exact h

theorem restart_run (events : List SetupEvent) (h : device.restart ≠ .none) :
    (run parse derive events device).restart ≠ .none := by
  induction events generalizing device with
  | nil => exact h
  | cons event rest ih => exact ih (restart_step parse derive event h)

theorem coherent_step (event : SetupEvent) (h : Coherent device.setup.store) :
    Coherent (step parse derive device event).setup.store := by
  unfold step
  split
  · exact h
  · cases event with
    | submission submission answer =>
      have hcoherent := (step_submit parse derive submission h).coherent
      dsimp only
      unfold setupSubmitHandler
      dsimp only
      split
      · exact hcoherent
      · split
        · exact hcoherent
        · exact hcoherent
    | read calls => exact (deviceSettingsRead_spec calls h).1
    | operation operation calls => exact (truthful_perform calls operation h).coherent

theorem coherent_run (events : List SetupEvent) (h : Coherent device.setup.store) :
    Coherent (run parse derive events device).setup.store := by
  induction events generalizing device with
  | nil => exact h
  | cons event rest ih => exact ih (coherent_step parse derive event h)

end Events

/-- After a submission that made the record provisioned, a restart has been scheduled or
performed in every state that follows. -/
def LeavesSetup (parse : CJsonParse) (derive : Derivation) (start : SetupDevice) (before : List SetupEvent)
    (submission : Submission) (answer : AnswerCalls) (after : List SetupEvent) : Prop :=
  storedProvisioned (run parse derive before start) = false →
    storedProvisioned (run parse derive (before ++ [.submission submission answer]) start) = true →
    (run parse derive (before ++ .submission submission answer :: after) start).restart ≠ .none

/-- Setup mode is left in every run in which the submissions settle. -/
theorem setup_mode_left (parse : CJsonParse) (derive : Derivation) {record : Option (List UInt8)} {start : SetupDevice}
    (hstore : Store.Reachable record start.setup.store) (before : List SetupEvent) (submission : Submission)
    (answer : AnswerCalls) (after : List SetupEvent) (hsettles : Settles submission answer) :
    LeavesSetup parse derive start before submission answer after := by
  intro hbefore hprovisioned
  have hcoherent := coherent_run parse derive before (coherent_of_reachable hstore)
  have hsplit : run parse derive (before ++ .submission submission answer :: after) start =
      run parse derive after (step parse derive (run parse derive before start) (.submission submission answer)) := by
    rw [run, List.foldl_append, List.foldl_cons]
    rfl
  have hlast : run parse derive (before ++ [.submission submission answer]) start =
      step parse derive (run parse derive before start) (.submission submission answer) := by
    rw [run, List.foldl_append]
    rfl
  rw [hlast] at hprovisioned
  rw [hsplit]
  exact restart_run parse derive after (restart_of_settled parse derive hcoherent hsettles hbefore hprovisioned)

theorem setup_mode_left_desk : (run deskParse deskDerive [.submission (deskSubmission deskBody) ⟨true, true⟩]
    ⟨deskStart, .none⟩).restart ≠ .none := by
  have hsettles : Settles (deskSubmission deskBody) ⟨true, true⟩ := ⟨rfl, rfl, nofun⟩
  have hbefore : storedProvisioned (run deskParse deskDerive [] ⟨deskStart, .none⟩) = false := by decide +kernel
  have hafter : storedProvisioned (run deskParse deskDerive [.submission (deskSubmission deskBody) ⟨true, true⟩]
      ⟨deskStart, .none⟩) = true := by decide +kernel
  exact setup_mode_left deskParse deskDerive .start [] _ _ [] hsettles hbefore hafter

/-- With an answer that cannot be sent the record is provisioned and no restart comes. -/
theorem unsent_answer_stays :
    ¬ LeavesSetup deskParse deskDerive ⟨deskStart, .none⟩ [] (deskSubmission deskBody) ⟨false, true⟩ [] := by
  intro h
  have hbefore : storedProvisioned (run deskParse deskDerive [] ⟨deskStart, .none⟩) = false := by decide +kernel
  have hafter : storedProvisioned (run deskParse deskDerive [.submission (deskSubmission deskBody) ⟨false, true⟩]
      ⟨deskStart, .none⟩) = true := by decide +kernel
  have hnone : (run deskParse deskDerive [.submission (deskSubmission deskBody) ⟨false, true⟩]
      ⟨deskStart, .none⟩).restart = .none := by decide +kernel
  exact h hbefore hafter hnone

end MacroKeyboard.Web.SetupRestart
