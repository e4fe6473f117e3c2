import MacroKeyboard.Executor.PlanFrame

namespace MacroKeyboard.Executor

open Threads.Program Threads.Turns

variable {t : Ticket} {turns : List RunTurn} {deadline start : UInt32}

def DeadlineKept (turns : List RunTurn) : Prop :=
  turns.IsChain (fun turn next => next.before.engine.deadline = turn.after.engine.deadline)

instance (turns : List RunTurn) : Decidable (DeadlineKept turns) :=
  inferInstanceAs (Decidable (turns.IsChain _))

theorem findDeadline_of_kept {turn : RunTurn} {rest : List RunTurn} (hkept : DeadlineKept (turn :: rest))
    (hown : ∀ turn ∈ rest, turn.after.engine.deadline = turn.before.engine.deadline)
    (hset : turn.after.engine.deadline = deadline) : FindDeadline deadline rest := by
  induction rest generalizing turn with
  | nil => exact fun _ hmem => absurd hmem List.not_mem_nil
  | cons next rest ih =>
    have hfound : next.before.engine.deadline = deadline := (List.isChain_cons_cons.mp hkept).1.trans hset
    refine List.forall_mem_cons.mpr ⟨hfound, ih hkept.tail (List.forall_mem_cons.mp hown).2 ?_⟩
    exact ((List.forall_mem_cons.mp hown).1).trans hfound

/-- The state that the run shows last, and otherwise the quiet end of it. -/
theorem plays_finishExecution {status : MacroExecutionStatus} {state : ExecutionState} {primaryError : AppError}
    {result : Except AppError Unit} (h : Plays (finishExecution t status state primaryError) turns result) :
    ∃ before publish after, turns = before ++ publish :: after ∧ (∀ turn ∈ before, Quiet turn) ∧
      (∀ turn ∈ after, Quiet turn) ∧ published after = [] ∧ (eventsOf publish = [] ∨ eventsOf publish = [.published state]) ∧
      (result = .ok () ∨ result = .error .internal) ∧
      ((∀ turn ∈ turns, Faultless turn) → result = .ok () ∧ eventsOf publish = [.published state]) := by
  obtain ⟨first, rest₁, released, rfl, hrelease, h₁⟩ := plays_bind h
  obtain ⟨second, rest₂, status', rfl, hrecord, h₂⟩ := plays_bind h₁
  obtain ⟨third, rest₃, unavailable, rfl, hunavailable, h₃⟩ := plays_bind h₂
  obtain ⟨fourth, rest₄, now, rfl, hnow, h₄⟩ := plays_bind h₃
  obtain ⟨fifth, rest₅, shown, rfl, hpublish, h₅⟩ := plays_bind h₄
  obtain ⟨sixth, rest₆, cleared, rfl, hreset, h₆⟩ := plays_bind h₅
  obtain ⟨latched, rest₇, _, rfl, hlatch, h₇⟩ := plays_bind h₆
  obtain ⟨rfl, rfl⟩ := plays_ret h₇
  obtain ⟨release, rfl, hreleased, rfl⟩ := plays_usbReleaseAll hrelease
  obtain ⟨hrecorded, -⟩ := plays_recordReleaseFailure hrecord
  obtain ⟨look, rfl, hlooked, -⟩ := plays_read hunavailable
  obtain ⟨clock, rfl, hclock, -⟩ := plays_ask hnow
  obtain ⟨publish, rfl, hevents, hcase⟩ := plays_publishStatus hpublish
  obtain ⟨reset, rfl, hresetcase⟩ := plays_locked hreset
  have hresetquiet : Quiet reset ∧ publishedOf reset = [] := by
    rcases hresetcase with ⟨hafter, -, -⟩ | ⟨hafter, -⟩
    · have hlog := congrArg World.log hafter
      exact ⟨quiet_same hlog, by rw [publishedOf, eventsOf_same hlog]; rfl⟩
    · have hlog := congrArg World.log hafter
      exact ⟨quiet_note hlog rfl, by rw [publishedOf, eventsOf_note hlog]; rfl⟩
  have hlatchquiet : (∀ turn ∈ latched, Quiet turn) ∧ published latched = [] := by
    unfold latchUnless at hlatch
    split at hlatch
    · obtain ⟨rfl, -⟩ := plays_ret hlatch
      exact ⟨fun _ hmem => absurd hmem List.not_mem_nil, rfl⟩
    · obtain ⟨latch, rfl, hlatched, -⟩ := plays_atomic hlatch
      have hlog := congrArg World.log hlatched
      rw [List.forall_mem_singleton, published_cons, publishedOf, eventsOf_note hlog]
      exact ⟨quiet_note hlog rfl, rfl⟩
  refine ⟨release :: (second ++ [look, clock]), publish, reset :: latched, by simp, ?_, ?_, ?_, hevents, ?_, ?_⟩
  · simp only [List.forall_mem_cons, List.forall_mem_append, List.not_mem_nil, IsEmpty.forall_iff, implies_true, and_true]
    exact ⟨hreleased, hrecorded, hlooked, hclock⟩
  · exact List.forall_mem_cons.mpr ⟨hresetquiet.1, hlatchquiet.1⟩
  · rw [published_cons, hresetquiet.2, hlatchquiet.2]
    rfl
  · rcases hcase with ⟨rfl, -⟩ | ⟨rfl, -⟩
    · exact Or.inr rfl
    · rcases hresetcase with ⟨-, rfl, -⟩ | ⟨-, ⟨rfl, -⟩ | rfl⟩
      · exact Or.inr rfl
      · exact Or.inr rfl
      · exact Or.inl rfl
  · intro hall
    have hf : Faultless publish := hall publish (by simp)
    have hf' : Faultless reset := hall reset (by simp)
    rcases hcase with ⟨-, hfault⟩ | ⟨rfl, hshown⟩
    · exact absurd hf hfault
    · rcases hresetcase with ⟨-, -, hfault⟩ | ⟨-, ⟨-, hfault⟩ | rfl⟩
      · exact absurd hf' hfault
      · exact absurd hf' hfault
      · exact ⟨rfl, hshown⟩

structure PlanRun (request : MacroExecutionRequest) (during : List RunTurn) (result : AppError) : Prop where
  issued_prefix : issued during <+: planned request.plan.actionList
  /-- without a failure, a cancellation and a timeout everything is done -/
  completes : (∀ turn ∈ during, Faultless turn) → result ≠ .timeout →
    issued during = planned request.plan.actionList ∧
    requested during = request.plan.estimatedDurationMs.toNat ∧ result = .none ∧
    (published during).getLast? = some .completed
  /-- ten seconds to spare keep the deadline away -/
  inTime : overshoot during < 10000 → (∀ turn ∈ during, turn.answer.result ≠ .timeout) →
    result ≠ .timeout ∧ .timedOut ∉ published during
  /-- no key goes down when the deadline is over, up to the time of the steps themselves -/
  early : ∀ longest, WaitsWithin longest during → longest + ownTime during ≤ 2 ^ 31 →
    ∀ head ∈ during.head?, ∀ turn ∈ during, presses turn → turn.time < head.time + 310000 + ownTime during

theorem shows_facts {turn : RunTurn} {state : ExecutionState}
    (h : eventsOf turn = [] ∨ eventsOf turn = [.published state]) : issuedOf turn = [] ∧ requestedOf turn = 0 ∧
      waits turn = false ∧ presses turn = false ∧ ∀ shown ∈ publishedOf turn, shown = state := by
  unfold issuedOf requestedOf waits presses publishedOf
  rcases h with h | h
  · rw [h]
    exact ⟨rfl, rfl, rfl, rfl, fun _ hmem => absurd hmem List.not_mem_nil⟩
  · rw [h]
    exact ⟨rfl, rfl, rfl, rfl, fun _ hmem => List.mem_singleton.mp hmem⟩

theorem terminalState_timedOut {error : AppError} (h : terminalState error = .timedOut) : error = .timeout := by
  cases error <;> first | rfl | cases h

theorem plays_setDeadline {limit : UInt32} {a : Unit} (h : Plays (setDeadline limit) turns a) :
    ∃ turn, turns = [turn] ∧ Quiet turn ∧ turn.after.engine.deadline = limit := by
  obtain ⟨turn, rfl, hstep, -⟩ := plays_atomic h
  refine ⟨turn, rfl, quiet_same ?_, ?_⟩
  · rw [hstep]
  · rw [hstep]

/-- The run of a plan: the part up to the release at its end, the state it shows
then, and the rest. -/
theorem plays_runPlan {request : MacroExecutionRequest} {status : MacroExecutionStatus} {result : AppError}
    (h : Plays (runPlan t request status) turns result) (hrunning : status.state = .running)
    (hclock : Clocked start turns) (hkept : DeadlineKept turns) :
    ∃ head body publish after ended finished, turns = (head :: body) ++ publish :: after ∧
      Performs (deadlineFrom (start + UInt32.ofNat head.time)) false (planned request.plan.actionList)
        (PlanWellFormed.totalCost ⟨request.keyPressMs, request.interKeyMs⟩ request.plan.actionList)
        (head :: body) ended ∧
      (∀ turn ∈ after, Quiet turn) ∧ published after = [] ∧
      (eventsOf publish = [] ∨ eventsOf publish = [.published (terminalState (code ended))]) ∧
      result = firstError finished (code ended) ∧ (finished = .ok () ∨ finished = .error .internal) ∧
      ((∀ turn ∈ turns, Faultless turn) →
        finished = .ok () ∧ eventsOf publish = [.published (terminalState (code ended))]) := by
  obtain ⟨first, rest₁, started, rfl, hnow, h₁⟩ := plays_bind h
  obtain ⟨second, rest₂, _, rfl, hset, h₂⟩ := plays_bind h₁
  obtain ⟨actions, rest₃, ⟨ended, status'⟩, rfl, hactions, h₃⟩ := plays_bind h₂
  obtain ⟨fourth, rest₄, _, rfl, hfree, h₄⟩ := plays_bind h₃
  obtain ⟨finishing, rest₅, finished, rfl, hfinish, h₅⟩ := plays_bind h₄
  obtain ⟨rfl, rfl⟩ := plays_ret h₅
  obtain ⟨head, rfl, hhead, rfl⟩ := plays_ask hnow
  obtain ⟨setting, rfl, hsetting, hlimit⟩ := plays_setDeadline hset
  obtain ⟨freed, rfl, hfreed⟩ := plays_noted hfree
  obtain ⟨before, publish, after, rfl, hbefore, hafter, hsilent, hshown, hcodes, hfine⟩ := plays_finishExecution hfinish
  have hread : head.answer.nowMs = start + UInt32.ofNat head.time := hclock.2 head List.mem_cons_self
  have hchain : DeadlineKept (setting :: actions) := by
    have htail : DeadlineKept ((setting :: actions) ++ freed :: (before ++ publish :: after)) := by
      simpa [DeadlineKept] using hkept.tail
    exact (List.isChain_append.mp htail).1
  have hlimit : setting.after.engine.deadline = deadlineFrom (start + UInt32.ofNat head.time) := by
    rw [hlimit, hread, deadlineFrom]
  have hfind := findDeadline_of_kept hchain ((keepsDeadline_frame.runActions _ _ _).turns hactions) hlimit
  have hshows : ({ status with startedMs := head.answer.nowMs } : MacroExecutionStatus).state = .running := hrunning
  have hperforms := runActions_performs hfind hshows hactions
  have hquiet : ∀ turn ∈ freed :: before, Quiet turn := by
    refine List.forall_mem_cons.mpr ⟨?_, hbefore⟩
    rw [Quiet, hfreed, List.forall_mem_singleton]
    rfl
  have hbody : Performs (deadlineFrom (start + UInt32.ofNat head.time)) false (planned request.plan.actionList)
      (PlanWellFormed.totalCost ⟨request.keyPressMs, request.interKeyMs⟩ request.plan.actionList)
      (head :: setting :: (actions ++ freed :: before)) ended :=
    .cons hhead (.cons hsetting (hperforms.quieted hquiet).freshen)
  refine ⟨head, setting :: (actions ++ freed :: before), publish, after, ended, finished, by simp, hbody, hafter, hsilent,
    hshown, rfl, hcodes, fun hall => hfine fun turn hmem => hall turn ?_⟩
  simp only [List.mem_append] at hmem ⊢
  exact Or.inr (Or.inr (Or.inr (Or.inr (Or.inl hmem))))

theorem code_eq_timeout {ended : Except AppError Unit} (h : code ended = .timeout) : ended = .error .timeout := by
  cases ended with
  | error error => exact congrArg Except.error h
  | ok => cases h

theorem runPlan_run {request : MacroExecutionRequest} {status : MacroExecutionStatus} {result : AppError}
    (h : Plays (runPlan t request status) turns result) (hrunning : status.state = .running)
    (hclock : Clocked start turns) (hkept : DeadlineKept turns)
    (hestimate : request.plan.estimatedDurationMs.toNat =
      PlanWellFormed.totalCost ⟨request.keyPressMs, request.interKeyMs⟩ request.plan.actionList)
    (hle : request.plan.estimatedDurationMs.toNat ≤ 300000) : PlanRun request turns result := by
  obtain ⟨head, body, publish, after, ended, finished, rfl, hperforms, hafter, hsilent, hshown, rfl, hcodes, hfine⟩ :=
    plays_runPlan h hrunning hclock hkept
  rw [← hestimate] at hperforms
  obtain ⟨hissued, hrequested, hwaits, hpresses, hstates⟩ := shows_facts hshown
  have hallIssued : issued ((head :: body) ++ publish :: after) = issued (head :: body) := by
    rw [issued_append, issued_cons publish, hissued, issued_quiet hafter, List.append_nil, List.append_nil]
  have hallRequested : requested ((head :: body) ++ publish :: after) = requested (head :: body) := by
    rw [requested_append, requested_cons publish, hrequested, requested_quiet hafter, Nat.add_zero]
  have hallPublished : published ((head :: body) ++ publish :: after) = published (head :: body) ++ publishedOf publish := by
    rw [published_append, published_cons publish, hsilent, List.append_nil]
  refine ⟨?_, ?_, ?_, ?_⟩
  · rw [hallIssued]
    exact hperforms.issued_prefix
  · intro hall hresult
    obtain ⟨rfl, hevents⟩ := hfine hall
    have hok : ended = .ok () := by
      refine (hperforms.faultless (List.forall_mem_append.mp hall).1).resolve_right ?_
      rintro rfl
      exact hresult rfl
    subst hok
    rw [hallIssued, hallRequested, hallPublished, publishedOf, hevents]
    exact ⟨(hperforms.completed rfl).1, (hperforms.completed rfl).2, rfl, List.getLast?_concat⟩
  · intro hover hanswers
    have hpunctual : ∀ turn ∈ head :: body, Punctual (deadlineFrom (start + UInt32.ofNat head.time)) turn := by
      intro turn hmem
      have hmem' := List.mem_append_left (publish :: after) hmem
      have hlate : turn.time ≤ head.time + requested (head :: body ++ publish :: after) +
          overshoot (head :: body ++ publish :: after) := elapsed_le hclock turn hmem'
      have hsum := hperforms.requested_le
      rw [hallRequested] at hlate
      have hfirst : head.time ≤ turn.time := by
        cases hmem with
        | head => exact le_refl _
        | tail _ hin => exact hclock.le_of_mem turn (List.mem_append_left _ hin)
      exact ⟨inTime_of_early (hclock.2 turn hmem') hfirst (by omega), hanswers turn hmem'⟩
    have hended : code ended ≠ .timeout := fun heq => hperforms.punctual hpunctual (code_eq_timeout heq)
    constructor
    · rcases hcodes with rfl | rfl
      · exact hended
      · exact fun heq => by cases heq
    · rw [hallPublished, List.mem_append]
      rintro (hmem | hmem)
      · cases hperforms.shows _ hmem
      · exact hended (terminalState_timedOut (hstates _ hmem).symm)
  · intro longest hlongest hbound first hfirst turn hmem hpress
    cases hfirst
    have hguarded : Guarded (deadlineFrom (start + UInt32.ofNat head.time)) false
        (head :: (body ++ publish :: after)) := by
      refine guarded_append hperforms.guarded ⟨fun hacts => ?_, guarded_quiet hafter⟩
      rw [hwaits, hpresses] at hacts
      cases hacts
    have hspent : longest + 0 + ownTime (head :: (body ++ publish :: after)) ≤ 2 ^ 31 := by
      rw [Nat.add_zero]
      exact hbound
    refine press_early hguarded hclock hlongest hspent (le_refl _) ?_ turn hmem hpress
    rw [if_neg Bool.false_ne_true]
    omega

theorem plays_readConfirmation {result : Except AppError Bool} (h : Plays (readConfirmation t) turns result) :
    ∃ turn, turns = [turn] ∧ (Faultless turn → result = .ok turn.before.engine.confirmedRequested) := by
  obtain ⟨turn, rfl, -, rfl⟩ := plays_atomic h
  refine ⟨turn, rfl, fun hf => ?_⟩
  rw [hf.lockOk, hf.unlockOk]
  rfl

/-- A faultless wait for the confirmation ends with it, or with its own timeout. -/
theorem awaitConfirmation_faultless {result : Except AppError Unit} (h : Plays (awaitConfirmation t) turns result)
    (hall : ∀ turn ∈ turns, Faultless turn) : result = .ok () ∨ result = .error .timeout := by
  obtain ⟨first, rest, now, rfl, -, hloop⟩ := plays_bind h
  obtain ⟨before, last, rfl, hlast⟩ := plays_repeatUntil hloop
  have hfine : ∀ turn ∈ last, Faultless turn := fun turn hmem => hall turn (by simp [hmem])
  obtain ⟨reading, rest₁, cancelled, rfl, hread, h₁⟩ := plays_bind hlast
  obtain ⟨read, rfl, -, ⟨-, hfault⟩ | rfl⟩ := plays_readCancellation hread
  · exact absurd (hfine read List.mem_cons_self) hfault
  · rw [(hfine read List.mem_cons_self).notCancelled] at h₁
    obtain ⟨confirming, rest₂, confirmed, rfl, hconfirm, h₂⟩ := plays_bind h₁
    obtain ⟨confirm, rfl, hconfirmed⟩ := plays_readConfirmation hconfirm
    rw [hconfirmed (hfine confirm (by simp))] at h₂
    cases hflag : confirm.before.engine.confirmedRequested with
    | true =>
      rw [hflag] at h₂
      obtain ⟨-, hresult⟩ := plays_ret h₂
      cases hresult
      exact Or.inl rfl
    | false =>
      rw [hflag] at h₂
      obtain ⟨clocking, rest₃, later, rfl, hclock, h₃⟩ := plays_bind h₂
      by_cases hexpired : deadlineExpired later (now + confirmationTimeoutMs) = true
      · rw [if_pos hexpired] at h₃
        obtain ⟨noting, rest₄, _, rfl, hnoted, h₄⟩ := plays_bind h₃
        obtain ⟨-, hresult⟩ := plays_ret h₄
        cases hresult
        exact Or.inr rfl
      · rw [if_neg hexpired] at h₃
        obtain ⟨waiting, rest₄, waited, rfl, hwait, h₄⟩ := plays_bind h₃
        obtain ⟨wait, wokenBy, rfl, -, rfl⟩ := plays_waitMs hwait
        rw [(hfine wait (by simp)).succeeds] at h₄
        obtain ⟨-, hresult⟩ := plays_ret h₄
        cases hresult

theorem publishStep_faultless {status : MacroExecutionStatus} {ended : Option AppError}
    (h : Plays (publishStep t status) turns ended) (hall : ∀ turn ∈ turns, Faultless turn) : ended = none := by
  obtain ⟨publishing, rest, shown, rfl, hpublish, h₁⟩ := plays_bind h
  obtain ⟨publish, rfl, -, ⟨-, hfault⟩ | ⟨rfl, -⟩⟩ := plays_publishStatus hpublish
  · exact absurd (hall publish (by simp)) hfault
  · exact (plays_ret h₁).2

theorem runConfirmationPhase_faultless {status : MacroExecutionStatus} {outcome : Option AppError × MacroExecutionStatus}
    (h : Plays (runConfirmationPhase t status) turns outcome) (hall : ∀ turn ∈ turns, Faultless turn) :
    outcome.1 = none ∨ outcome.1 = some .timeout := by
  obtain ⟨awaiting, rest, confirmed, rfl, hawait, h₁⟩ := plays_bind h
  rcases awaitConfirmation_faultless hawait (List.forall_mem_append.mp hall).1 with rfl | rfl
  · obtain ⟨publishing, rest₂, ended, rfl, hpublish, h₂⟩ := plays_bind h₁
    obtain ⟨rfl, rfl⟩ := plays_ret h₂
    exact Or.inl (publishStep_faultless hpublish fun turn hmem => hall turn (by simp [hmem]))
  · obtain ⟨freeing, rest₂, _, rfl, -, h₂⟩ := plays_bind h₁
    obtain ⟨finishing, rest₃, finished, rfl, hfinish, h₃⟩ := plays_bind h₂
    obtain ⟨rfl, rfl⟩ := plays_ret h₃
    obtain ⟨_, _, _, _, _, _, _, _, _, hfine⟩ := plays_finishExecution hfinish
    rw [(hfine fun turn hmem => hall turn (by simp [hmem])).1]
    exact Or.inr rfl

theorem runConfirmationPhase_running {status status' : MacroExecutionStatus}
    (h : Plays (runConfirmationPhase t status) turns (none, status')) : status'.state = .running := by
  obtain ⟨awaiting, rest, confirmed, rfl, -, h₁⟩ := plays_bind h
  cases confirmed with
  | error error =>
    obtain ⟨freeing, rest₂, _, rfl, -, h₂⟩ := plays_bind h₁
    obtain ⟨finishing, rest₃, finished, rfl, -, h₃⟩ := plays_bind h₂
    cases (plays_ret h₃).2
  | ok =>
    obtain ⟨publishing, rest₂, ended, rfl, -, h₂⟩ := plays_bind h₁
    cases (plays_ret h₂).2
    rfl

/-- What the execution of a request does with its plan. -/
structure ExecutedAsCompiled (request : MacroExecutionRequest) (turns : List RunTurn) (result : AppError) : Prop where
  issued_prefix : issued turns <+: planned request.plan.actionList
  /-- a faultless execution reaches its plan, unless its confirmation does not come in time -/
  reaches : (issued turns = [] ∧
      ((∀ turn ∈ turns, Faultless turn) → request.requireConfirmation = true ∧ result = .timeout)) ∨
    ∃ before during, turns = before ++ during ∧ issued before = [] ∧ PlanRun request during result

theorem executed_of_planRun {request : MacroExecutionRequest} {before during : List RunTurn} {result : AppError}
    (hbefore : issued before = []) (h : PlanRun request during result) :
    ExecutedAsCompiled request (before ++ during) result := by
  refine ⟨?_, Or.inr ⟨before, during, rfl, hbefore, h⟩⟩
  rw [issued_append, hbefore]
  exact h.issued_prefix

theorem executed_nothing {request : MacroExecutionRequest} {result : AppError} (hissued : issued turns = [])
    (h : (∀ turn ∈ turns, Faultless turn) → request.requireConfirmation = true ∧ result = .timeout) :
    ExecutedAsCompiled request turns result := by
  refine ⟨?_, Or.inl ⟨hissued, h⟩⟩
  rw [hissued]
  exact List.nil_prefix

theorem Clocked.right {first second : List RunTurn} (h : Clocked start (first ++ second)) : Clocked start second :=
  ⟨(List.isChain_append.mp h.1).2.1, fun turn hmem => h.2 turn (List.mem_append_right _ hmem)⟩

theorem DeadlineKept.right {first second : List RunTurn} (h : DeadlineKept (first ++ second)) : DeadlineKept second :=
  (List.isChain_append.mp h).2.1

theorem DeadlineKept.left {first second : List RunTurn} (h : DeadlineKept (first ++ second)) : DeadlineKept first :=
  (List.isChain_append.mp h).1

theorem execute_asCompiled {request : MacroExecutionRequest} {result : AppError}
    (hvalid : validateRequest request = .ok ())
    (hestimate : request.plan.estimatedDurationMs.toNat =
      PlanWellFormed.totalCost ⟨request.keyPressMs, request.interKeyMs⟩ request.plan.actionList)
    (hle : request.plan.estimatedDurationMs.toNat ≤ 300000) (hclock : Clocked start turns) (hkept : DeadlineKept turns)
    (h : Plays (macroExecutorEngineExecute t request) turns result) : ExecutedAsCompiled request turns result := by
  rw [macroExecutorEngineExecute, hvalid] at h
  obtain ⟨shown, rest, ended, rfl, hpublish, h₁⟩ := plays_bind h
  have hnothing := issued_beginsNothing publishStep_begins hpublish
  cases ended with
  | some code =>
    obtain ⟨rfl, rfl⟩ := plays_ret h₁
    refine executed_nothing (by rw [List.append_nil]; exact hnothing) fun hall => ?_
    cases publishStep_faultless hpublish (List.forall_mem_append.mp hall).1
  | none =>
    by_cases hconfirm : request.requireConfirmation = true
    · dsimp only at h₁
      rw [if_pos hconfirm] at h₁
      obtain ⟨confirming, during, ⟨ended, status⟩, rfl, hphase, h₂⟩ := plays_bind h₁
      have hstill := issued_beginsNothing runConfirmationPhase_begins hphase
      cases ended with
      | some code =>
        obtain ⟨rfl, rfl⟩ := plays_ret h₂
        refine executed_nothing (by rw [List.append_nil, issued_append, hnothing, hstill]; rfl) fun hall => ⟨hconfirm, ?_⟩
        have hcode := runConfirmationPhase_faultless hphase fun turn hmem => hall turn (by simp [hmem])
        rcases hcode with hcode | hcode
        · cases hcode
        · exact Option.some.inj hcode
      | none =>
        have hrunning := runConfirmationPhase_running hphase
        have hplan := runPlan_run h₂ hrunning hclock.right.right hkept.right.right hestimate hle
        rw [← List.append_assoc]
        exact executed_of_planRun (by rw [issued_append, hnothing, hstill]; rfl) hplan
    · dsimp only at h₁
      rw [if_neg hconfirm] at h₁
      refine executed_of_planRun hnothing (runPlan_run h₁ ?_ hclock.right hkept.right hestimate hle)
      exact if_neg hconfirm

end MacroKeyboard.Executor
