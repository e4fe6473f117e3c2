import MacroKeyboard.Reset.FactoryReset

namespace MacroKeyboard.Reset

open Settings Web

variable {Δ : Type} {parse : CJsonParse}

def PerformsReset (operations : RecoveryOps Δ) (state : ResetState Δ) : Prop :=
  factoryResetStateRead operations.readState state.journal = .ok .pending

/-- The reset request reaches the journal, and the write that it reports as failed
has taken effect. -/
def FactoryResetCall.leavesMarker (parse : CJsonParse) (call : FactoryResetCall Δ) : Bool :=
  call.body.length ≠ 0 && call.responseEncoded && (factoryResetRefusal parse call).isNone &&
    call.operations.markFactoryResetPending.opened.isNone && call.operations.markFactoryResetPending.fault.isSome &&
    call.operations.markFactoryResetPending.persisted

/-- What can happen after a request: a reboot, another request, and anything else,
which leaves the journal alone. -/
inductive Event (Δ : Type)
  | boot (operations : RecoveryOps Δ)
  | request (call : FactoryResetCall Δ)
  | other (effect : Δ → Δ)

def Event.after (parse : CJsonParse) (state : ResetState Δ) : Event Δ → ResetState Δ
  | .boot operations => (factoryResetRecoveryRun operations state).2
  | .request call => (handleDeviceFactoryReset parse call state).2
  | .other effect => { state with device := effect state.device }

def SomeBootPerforms (parse : CJsonParse) : List (Event Δ) → ResetState Δ → Prop
  | [], _ => False
  | event :: rest, state =>
    (∃ operations, event = .boot operations ∧ PerformsReset operations state) ∨
      SomeBootPerforms parse rest (event.after parse state)

/-- Every request of the run is refused and leaves no marker behind. -/
def AllRefused (parse : CJsonParse) : List (Event Δ) → ResetState Δ → Prop
  | [], _ => True
  | event :: rest, state =>
    (∀ call, event = .request call →
      (handleDeviceFactoryReset parse call state).1 ≠ .accepted ∧ call.leavesMarker parse = false) ∧
      AllRefused parse rest (event.after parse state)

namespace Refusals

def stagesOutcome (stages : AppError × ResetState Δ) : FactoryResetOutcome × ResetState Δ :=
  (⟨true, stages.1 ≠ .none, stages.1⟩, stages.2)

theorem deviceControlsFactoryReset_eq (operations : ResetOps Δ) (state : ResetState Δ) :
    deviceControlsFactoryReset operations state =
      if (factoryResetStateMarkPending operations.markFactoryResetPending state.journal).1 ≠ .none then
        (⟨false, false, (factoryResetStateMarkPending operations.markFactoryResetPending state.journal).1⟩,
          { state with
            journal := (factoryResetStateMarkPending operations.markFactoryResetPending state.journal).2 })
      else
        stagesOutcome (resetStages operations { state with
          journal := (factoryResetStateMarkPending operations.markFactoryResetPending state.journal).2 }) := by
  unfold deviceControlsFactoryReset onJournal
  simp only [bind, StateT.bind]
  split
  · rfl
  · rfl

theorem answer_of_stages (stages : AppError × ResetState Δ) :
    factoryResetAnswer (factoryResetBackendOutcome (stagesOutcome stages).1) = .accepted := by
  by_cases herror : stages.1 = .none
  · simp [stagesOutcome, factoryResetBackendOutcome, herror, factoryResetAnswer]
  · simp [stagesOutcome, factoryResetBackendOutcome, herror, factoryResetAnswer]

theorem handle_of_refusal {call : FactoryResetCall Δ} {state : ResetState Δ}
    (h : ¬ (call.body.length ≠ 0 ∧ call.responseEncoded = true ∧ factoryResetRefusal parse call = none)) :
    (handleDeviceFactoryReset parse call state).2 = state := by
  unfold handleDeviceFactoryReset
  by_cases hbody : call.body.length = 0
  · rw [if_pos hbody]
    rfl
  by_cases hencoded : call.responseEncoded = true
  · rw [if_neg hbody, if_neg (not_not.mpr hencoded)]
    cases hrefusal : factoryResetRefusal parse call with
    | none => exact absurd ⟨hbody, hencoded, hrefusal⟩ h
    | some refusal => simp [webDeviceFactoryResetHandle, hrefusal, bind, StateT.bind, pure, StateT.pure]
  · rw [if_neg hbody, if_pos hencoded]
    rfl

theorem handle_of_passed {call : FactoryResetCall Δ} {state : ResetState Δ} (hbody : call.body.length ≠ 0)
    (hencoded : call.responseEncoded = true) (hpassed : factoryResetRefusal parse call = none) :
    handleDeviceFactoryReset parse call state =
      (factoryResetAnswer (factoryResetBackendOutcome (deviceControlsFactoryReset call.operations state).1),
        (deviceControlsFactoryReset call.operations state).2) := by
  unfold handleDeviceFactoryReset
  rw [if_neg hbody, if_neg (not_not.mpr hencoded)]
  simp only [webDeviceFactoryResetHandle, hpassed, bind, StateT.bind, pure, StateT.pure]
  rfl

theorem journal_of_markFailed {calls : JournalCalls} {journal : Journal}
    (h : (factoryResetStateMarkPending calls journal).1 ≠ .none) :
    (factoryResetStateMarkPending calls journal).2 =
      if calls.opened.isNone && calls.fault.isSome && calls.persisted then some factoryResetStatePending else journal := by
  unfold factoryResetStateMarkPending at h ⊢
  cases hopened : calls.opened with
  | some fault => simp
  | none =>
    cases hfault : calls.fault with
    | none => simp [hopened, adapterWriteValue, hfault] at h
    | some fault => simp [adapterWriteValue, hfault]

theorem journal_of_refused {call : FactoryResetCall Δ} {state : ResetState Δ}
    (hrefused : (handleDeviceFactoryReset parse call state).1 ≠ .accepted) :
    (handleDeviceFactoryReset parse call state).2.journal =
      if call.leavesMarker parse then some factoryResetStatePending else state.journal := by
  by_cases hpassed : call.body.length ≠ 0 ∧ call.responseEncoded = true ∧ factoryResetRefusal parse call = none
  · obtain ⟨hbody, hencoded, hnone⟩ := hpassed
    rw [handle_of_passed hbody hencoded hnone] at hrefused ⊢
    rw [deviceControlsFactoryReset_eq] at hrefused ⊢
    split at hrefused
    next hmarked =>
      rw [if_pos hmarked]
      simp [journal_of_markFailed hmarked, FactoryResetCall.leavesMarker, hbody, hencoded, hnone]
    next hmarked => exact absurd (answer_of_stages _) hrefused
  · rw [handle_of_refusal hpassed, if_neg]
    simp only [FactoryResetCall.leavesMarker, Bool.and_eq_true, decide_eq_true_eq, Option.isNone_iff_eq_none]
    rintro ⟨⟨⟨⟨⟨hbody, hencoded⟩, hnone⟩, -⟩, -⟩, -⟩
    exact hpassed ⟨hbody, hencoded, hnone⟩

theorem not_performs {operations : RecoveryOps Δ} {state : ResetState Δ}
    (h : state.journal ≠ some factoryResetStatePending) : ¬ PerformsReset operations state := by
  unfold PerformsReset factoryResetStateRead
  split
  · exact fun hread => by cases hread
  · exact fun hread => by cases hread
  · exact fun hread => by cases hread
  next stored _ _ hjournal =>
    have hstored : stored ≠ factoryResetStatePending := fun heq => h (by rw [hjournal, heq])
    rw [if_pos hstored]
    exact fun hread => by cases hread

theorem recoveryRun_of_not_performs {operations : RecoveryOps Δ} {state : ResetState Δ}
    (h : ¬ PerformsReset operations state) : (factoryResetRecoveryRun operations state).2 = state := by
  unfold factoryResetRecoveryRun
  unfold PerformsReset at h
  split
  · rfl
  · rfl
  next hread => exact absurd hread h

/-- Over a run whose requests are all refused and leave no marker, the journal
stays free of one. -/
theorem not_someBootPerforms {events : List (Event Δ)} {state : ResetState Δ}
    (hjournal : state.journal ≠ some factoryResetStatePending) (hrefused : AllRefused parse events state) :
    ¬ SomeBootPerforms parse events state := by
  induction events generalizing state with
  | nil => exact id
  | cons event rest ih =>
    obtain ⟨hfirst, hrest⟩ := hrefused
    rintro (⟨operations, rfl, hperforms⟩ | hlater)
    · exact not_performs hjournal hperforms
    · refine ih ?_ hrest hlater
      cases event with
      | boot operations =>
        rw [Event.after, recoveryRun_of_not_performs (not_performs hjournal)]
        exact hjournal
      | request call =>
        obtain ⟨hanswer, hleaves⟩ := hfirst call rfl
        rw [Event.after, journal_of_refused hanswer, hleaves]
        exact hjournal
      | other effect => exact hjournal

/-- A recovery whose operations do nothing, after a read without a fault. -/
def idleRecovery (Δ : Type) : RecoveryOps Δ :=
  let calls : JournalCalls := ⟨none, none, none, false⟩
  ⟨calls, (.none, ·), (.none, ·), (.none, ·), (.none, ·), (.none, ·), (.none, ·), (.none, ·), calls⟩

theorem idleRecovery_performs {state : ResetState Δ} (h : state.journal = some factoryResetStatePending) :
    PerformsReset (idleRecovery Δ) state := by
  simp [PerformsReset, idleRecovery, factoryResetStateRead, h]

end Refusals

open Refusals

/-- After a refused request no reboot performs a reset, unless the marker was there
before or the failed write left it. -/
theorem refused_never_performed {call : FactoryResetCall Δ} {state : ResetState Δ}
    (hrefused : (handleDeviceFactoryReset parse call state).1 ≠ .accepted) :
    (∀ events, AllRefused parse events (handleDeviceFactoryReset parse call state).2 →
      ¬ SomeBootPerforms parse events (handleDeviceFactoryReset parse call state).2) ↔
    state.journal ≠ some factoryResetStatePending ∧ call.leavesMarker parse = false := by
  constructor
  · intro hnever
    have hjournal : (handleDeviceFactoryReset parse call state).2.journal ≠ some factoryResetStatePending := by
      intro hpending
      refine hnever [.boot (idleRecovery Δ)] ⟨fun _ hcall => (by cases hcall), trivial⟩ ?_
      exact Or.inl ⟨_, rfl, idleRecovery_performs hpending⟩
    rw [journal_of_refused hrefused] at hjournal
    split at hjournal
    · exact absurd rfl hjournal
    next hleaves => exact ⟨hjournal, Bool.not_eq_true _ ▸ hleaves⟩
  · rintro ⟨hjournal, hleaves⟩ events hevents
    refine not_someBootPerforms ?_ hevents
    rw [journal_of_refused hrefused, hleaves]
    exact hjournal

section Examples

def resetBody : List UInt8 :=
  MacroKeyboard.bytes "\x7b\"adminPassword\":\"long enough\",\"confirmation\":\"FACTORY RESET\"\x7d"

/-- What `cJSON` makes of the body. -/
def resetParse (body : List UInt8) : Option CJson :=
  if body = resetBody then
    some (.object [(adminPasswordField, .string (MacroKeyboard.bytes "long enough")),
      (confirmationField, .string factoryResetConfirmation)])
  else none

/-- A reset request with the right password. The device is whether it has settings. -/
def resetCall (marking : JournalCalls) : FactoryResetCall Bool where
  body := resetBody
  responseEncoded := true
  settingsRead := .ok .initUnprovisioned
  passwordVerify _ _ := .ok true
  operations := ⟨marking, fun _ => (.none, false), (.none, ·), (.none, ·), (.none, ·), (.none, ·), ⟨none, none, none, false⟩⟩

def unopened : JournalCalls := ⟨some .other, none, none, false⟩

def lostCommit : JournalCalls := ⟨none, none, some .other, true⟩

def erasingRecovery : RecoveryOps Bool := { idleRecovery Bool with eraseSettings := fun _ => (.none, false) }

theorem refused_unopened :
    (handleDeviceFactoryReset resetParse (resetCall unopened) ⟨none, true⟩).1 ≠ .accepted ∧
    ∀ events, AllRefused resetParse events (handleDeviceFactoryReset resetParse (resetCall unopened) ⟨none, true⟩).2 →
      ¬ SomeBootPerforms resetParse events (handleDeviceFactoryReset resetParse (resetCall unopened) ⟨none, true⟩).2 :=
  have hrefused := by decide +kernel
  ⟨hrefused, (refused_never_performed hrefused).mpr ⟨by decide, by decide +kernel⟩⟩

/-- A request is refused as unavailable, and the next reboot erases the settings. -/
theorem refused_and_performed :
    let refused := handleDeviceFactoryReset resetParse (resetCall lostCommit) ⟨none, true⟩
    refused.1 = .refused .storageUnavailable "factory-reset unavailable" none ∧ refused.2.device = true ∧
      SomeBootPerforms resetParse [.boot erasingRecovery] refused.2 ∧
      factoryResetRecoveryRun erasingRecovery refused.2 = (⟨.none, true⟩, ⟨none, false⟩) := by
  have hrefused : handleDeviceFactoryReset resetParse (resetCall lostCommit) ⟨none, true⟩ =
      (.refused .storageUnavailable "factory-reset unavailable" none, ⟨some factoryResetStatePending, true⟩) :=
    Prod.ext (by decide +kernel) (by decide +kernel)
  dsimp only
  rw [hrefused]
  exact ⟨rfl, rfl, Or.inl ⟨erasingRecovery, rfl, rfl⟩, rfl⟩

end Examples

end MacroKeyboard.Reset
