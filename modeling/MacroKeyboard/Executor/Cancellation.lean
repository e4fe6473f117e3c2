import MacroKeyboard.Executor.Confirmation

namespace MacroKeyboard.Executor.Cancellation

open Threads.Program Threads.Monitor Confirmation

variable {word : List Event} {r : Run}

/-- Once a cancellation succeeded, the execution passes no further check, so it
issues at most the action whose check had passed, and it completes only with
every action issued. -/
structure Effective (word : List Event) : Prop where
  unchecked : ∀ front back, word = front ++ .cancelRecorded true :: back → .cancelRead false ∉ back
  once : ∀ front back, word = front ++ .cancelRecorded true :: back → back.countP isAction ≤ 1
  complete : .published .completed ∈ word → ∀ request late, .accepted request late ∈ word →
    word.countP isAction = request.plan.actionCount

/-- What cancels, confirms or wakes an execution was meant for it. -/
structure Unleaked (t : Ticket) (word : List Event) : Prop where
  cancels : Always (fun past event => event = .cancelRead true →
    ∃ success, .cancelRecorded success ∈ past) word
  confirms : Always (fun past event => event = .confirmRead true → ConfirmedWhileAwaiting anyway past) word
  wakes : ∀ milliseconds wokenBy result, .waited milliseconds wokenBy result ∈ word →
    ∀ n ∈ wokenBy, n = t

theorem unchecked_of_traces (h : Traces word r) {front back : List Event}
    (hword : word = front ++ .cancelRecorded true :: back) : .cancelRead false ∉ back := by
  intro hmem
  obtain ⟨before, after, rfl⟩ := List.append_of_mem hmem
  have hsplit : word = (front ++ .cancelRecorded true :: before) ++ .cancelRead false :: after := by
    rw [hword, List.append_assoc, List.cons_append]
  rw [hsplit] at h
  obtain ⟨r₀, hpast, ha⟩ := h.past
  have hset := hpast.cancelled_iff.mpr ⟨true, by simp⟩
  rw [← ha.2] at hset
  cases hset

/-- Without a passed check in between, one action is followed by no other. -/
theorem once_of_unchecked (h : Traces word r) {front back : List Event} {event : Event}
    (hword : word = front ++ event :: back) (hnone : .cancelRead false ∉ back) :
    back.countP isAction ≤ 1 ∧
      (r.progress.stage = .checked → back.countP isAction = 0) := by
  revert front back event
  refine Traces.induction (P := fun word r => ∀ {front back : List Event} {event : Event},
    word = front ++ event :: back → .cancelRead false ∉ back → back.countP isAction ≤ 1 ∧
      (r.progress.stage = .checked → back.countP isAction = 0)) ?_ ?_ h
  · intro front back event hword
    simp at hword
  intro word r last htraces ih ha front back event hword hnone
  rcases append_singleton_eq.mp hword with ⟨rfl, -, -⟩ | ⟨middle, rfl, hmiddle⟩
  · exact ⟨Nat.zero_le _, fun _ => rfl⟩
  · have hnone' : .cancelRead false ∉ middle := fun hmem => hnone (List.mem_append_left _ hmem)
    obtain ⟨hone, hzero⟩ := ih hmiddle hnone'
    rw [List.countP_append, List.countP_singleton]
    by_cases haction : isAction last = true
    · have hs : r.progress.stage = .checked := by
        cases last <;> first | exact ha.1 | cases haction
      rw [hzero hs, if_pos haction]
      refine ⟨le_rfl, fun hnext => ?_⟩
      cases last with
      | pressed modifiers usages result => exact absurd hnext (by simp [Stage.next])
      | timedAction delayMs => exact absurd hnext (by simp [Stage.next])
      | _ => cases haction
    · rw [if_neg haction, Nat.add_zero]
      refine ⟨hone, fun hnext => ?_⟩
      rcases checked_of_next hnext with hs | ⟨-, rfl⟩
      · exact hzero hs
      · simp at hnone

theorem issued_eq (h : Traces word r) : r.progress.issued = word.countP isAction := by
  refine Traces.induction (P := fun word r => r.progress.issued = word.countP isAction) rfl ?_ h
  intro word r event htraces ih ha
  rw [List.countP_append, List.countP_singleton]
  cases event with
  | dequeued pending =>
    have hshown := shown_of_traces htraces
    rw [show r.progress.stage = .queued from ha] at hshown
    have hnone : ∀ event ∈ word, ¬ isAction event = true := fun event hmem haction => by
      have htwo := shown_of_action htraces hmem haction
      rw [show word.count (.published .running) = 0 from hshown] at htwo
      omega
    rw [List.countP_eq_zero.mpr hnone]
    rfl
  | pressed modifiers usages result => exact congrArg (· + 1) ih
  | timedAction delayMs => exact congrArg (· + 1) ih
  | _ => exact ih

/-- The stages between the freeing of the plan and the end. -/
def isFreed : Stage → Bool
  | .freed | .silent | .cleared | .done | .stuck => true
  | _ => false

theorem freed_before {event : Event} (ha : r.allows event)
    (hfreed : isFreed (r.after event).progress.stage = true) :
    isFreed r.progress.stage = true ∨ ∃ result, event = .freed result := by
  cases event with
  | freed result => exact Or.inr ⟨result, rfl⟩
  | published state =>
    cases hs : r.progress.stage <;> cases hc : r.progress.requiresConfirmation <;>
      simp_all [Run.allows, Stage.next, Stage.afterPublished, isFreed]
  | cancelRead value =>
    cases hs : r.progress.stage <;> cases value <;>
      simp_all [Stage.next, Stage.afterRead, isFreed]
  | released result =>
    rcases ha with hs | hs | hs <;> simp_all [Stage.next, Stage.afterReleased, isFreed]
  | cleared => rcases ha with hs | hs <;> simp_all [Stage.next, Stage.afterCleared, isFreed]
  | returned result => rcases ha.1 with hs | hs <;> exact Or.inl (by rw [hs]; rfl)
  | withdrew succeeded => cases succeeded <;> simp_all [Stage.next, isFreed]
  | confirmRead value => cases value <;> simp_all [Stage.next, isFreed]
  | _ => first | exact Or.inl hfreed | cases hfreed

theorem freed_of_stage (h : Traces word r) (hfreed : isFreed r.progress.stage = true) :
    .freed r.progress.result ∈ word := by
  revert hfreed
  refine Traces.induction (P := fun word r => isFreed r.progress.stage = true →
    Event.freed r.progress.result ∈ word) nofun ?_ h
  intro word r event htraces ih ha hfreed
  rcases freed_before ha hfreed with hbefore | ⟨result, rfl⟩
  · cases event with
    | freed result => simp [Run.after, Progress.record]
    | _ => exact List.mem_append_left _ (ih hbefore)
  · simp [Run.after, Progress.record]

theorem accepted_before_freed {front back : List Event} {code : AppError}
    (h : Traces (front ++ .freed code :: back) r) {request : MacroExecutionRequest} {late : Bool}
    (hmem : .accepted request late ∈ front ++ .freed code :: back) : .accepted request late ∈ front := by
  by_contra hnot
  have hback : .accepted request late ∈ back := by simpa [hnot] using hmem
  obtain ⟨middle, rest, rfl⟩ := List.append_of_mem hback
  rw [← List.cons_append, ← List.append_assoc] at h
  obtain ⟨r₀, hpast, ha⟩ := h.past
  have hover := (over_of_freed hpast rfl).1
  rw [ha.1] at hover
  cases hover

/-- A run is published as completed only with every action of its plan issued. -/
theorem complete_of_traces (h : Traces word r) (hcompleted : .published .completed ∈ word)
    {request : MacroExecutionRequest} {late : Bool} (hmem : .accepted request late ∈ word) :
    word.countP isAction = request.plan.actionCount := by
  obtain ⟨front, back, rfl⟩ := List.append_of_mem hcompleted
  obtain ⟨r₀, hfront, ha⟩ := h.past
  have hstage : r₀.progress.stage = .silent ∧ .completed = terminalState r₀.progress.result := by
    cases hs : r₀.progress.stage <;> cases hc : r₀.progress.requiresConfirmation <;>
      simp_all [Run.allows]
  have hnone : r₀.progress.result = .none := by
    have hresult := hstage.2
    unfold terminalState at hresult
    split at hresult <;> first | assumption | cases hresult
  have hfreed := freed_of_stage hfront (by rw [hstage.1]; rfl)
  rw [hnone] at hfreed
  obtain ⟨before, after, rfl⟩ := List.append_of_mem hfreed
  have hsplit : (before ++ .freed .none :: after) ++ .published .completed :: back =
      before ++ .freed .none :: (after ++ .published .completed :: back) := by
    rw [List.append_assoc, List.cons_append]
  rw [hsplit] at h hmem ⊢
  obtain ⟨r₁, hbefore, hallowed⟩ := h.past
  obtain ⟨hall, -⟩ : r₁.progress.finished := (hallowed.resolve_right fun hf => hf.1 rfl).2
  have hrequest := (hbefore.request_iff request).mp ⟨late, accepted_before_freed h hmem⟩
  have hquiet := (over_of_freed h rfl).2
  have hlast : (after ++ .published .completed :: back).countP isAction = 0 :=
    List.countP_eq_zero.mpr fun event he haction => by
      rw [hquiet event he] at haction
      cases haction
  rw [List.countP_append, List.countP_cons_of_neg (by simp [isAction]), hlast, Nat.add_zero,
    ← issued_eq hbefore]
  exact hall request hrequest

theorem effective_of_traces (h : Traces word r) : Effective word where
  unchecked := fun _ _ hword => unchecked_of_traces h hword
  once := fun _ _ hword => (once_of_unchecked h hword (unchecked_of_traces h hword)).1
  complete := fun hcompleted _ _ hmem => complete_of_traces h hcompleted hmem

/-- In a clean run nothing that was meant for another execution reaches this
one. -/
theorem unleaked_of_clean {c : Config World Env} (h : ExecutorReachable c) (hclean : CleanLog c.state.log)
    (t : Ticket) : Unleaked t (project c.state.log t) := by
  obtain ⟨r, hr⟩ := traces_of_reachable h t
  refine ⟨?_, ?_, ?_⟩
  · rintro past event rest hword rfl
    rw [hword] at hr
    obtain ⟨r₀, hpast, ha⟩ := hr.past
    exact hpast.cancelled_iff.mp ha.2.symm
  · rintro past event rest hword rfl
    rw [hword] at hr
    obtain ⟨r₀, hpast, ha⟩ := hr.past
    refine confirmed_while_awaiting hpast ?_ ha.2.symm
    by_contra hstale
    have hmem := hpast.staleClaim (by simpa using hstale)
    have hlog : (t, Event.claimed .awaitingConfirmation) ∈ c.state.log :=
      mem_project.mp (by rw [hword]; exact List.mem_append_left _ hmem)
    exact hclean t _ hlog rfl
  · intro milliseconds wokenBy result hmem
    exact woken_of_reachable h hclean t milliseconds wokenBy result (mem_project.mp hmem)

theorem cleanLog_iff {log : Log Ticket Event} : CleanLog log ↔ ∀ entry ∈ log, Clean entry.1 entry.2 :=
  ⟨fun h entry hmem => h entry.1 entry.2 hmem, fun h t event hmem => h (t, event) hmem⟩

instance (t : Ticket) (event : Event) : Decidable (Clean t event) :=
  match event with
  | .dequeued pending => inferInstanceAs (Decidable (∀ n ∈ pending, n = t))
  | .notified current => inferInstanceAs (Decidable (current = none ∨ current = some t))
  | .claimed published => inferInstanceAs (Decidable (published ≠ .awaitingConfirmation))
  | .submitted _ | .accepted _ _ | .withdrew _ | .answered _ _ | .callerFreed | .published _
  | .cancelRecorded _ | .confirmRecorded _ | .cancelRead _ | .expired | .confirmRead _
  | .waited _ _ _ | .pressed _ _ _ | .timedAction _ | .released _ | .freed _ | .cleared | .latched
  | .returned _ | .drained | .lost | .erased => isTrue trivial

/-- Cancellation is effective in every run, and as long as no notification
comes or is left for another execution and no execution claims the engine under
an awaiting state, nothing meant for one execution reaches another. -/
theorem cancellation_effective_and_contained {c : Config World Env} (h : ExecutorReachable c)
    (t : Ticket) : Effective (project c.state.log t) ∧
      (CleanLog c.state.log → Unleaked t (project c.state.log t)) := by
  obtain ⟨r, hr⟩ := traces_of_reachable h t
  exact ⟨effective_of_traces hr, fun hclean => unleaked_of_clean h hclean t⟩

/-- A send whose confirmation wakes it, and a cancellation while it holds its
keys. -/
def wokenRun : Config World Env :=
  deviceRun [.send ⟨bytes "a", 8, 15⟩, .confirm, .cancel]
    (turns 2 12 confirmEnv ++ turns 0 5 confirmEnv ++ turns 3 4 confirmEnv ++ turns 0 14 confirmEnv ++
      turns 4 4 confirmEnv ++ turns 0 30 confirmEnv)

theorem cancellation_wokenRun :
    (2, Event.cancelRecorded true) ∈ wokenRun.state.log ∧
      (2, Event.waited 8 [2] .none) ∈ wokenRun.state.log ∧
      Effective (project wokenRun.state.log 2) ∧ Unleaked 2 (project wokenRun.state.log 2) := by
  obtain ⟨heffective, hunleaked⟩ :=
    cancellation_effective_and_contained (c := wokenRun) (deviceRun_reachable _ _) 2
  exact ⟨by decide +kernel, by decide +kernel, heffective,
    hunleaked (cleanLog_iff.mpr (by decide +kernel))⟩

/-- A send that is cancelled between its check and its hold, and whose
cancellation notifies the worker only after that run; then another send. -/
def lateNotificationRun : Config World Env :=
  deviceRun [.send ⟨bytes "a", 8, 15⟩, .cancel, .send ⟨bytes "a", 8, 15⟩]
    (turns 2 12 fineEnv ++ turns 0 7 fineEnv ++ turns 3 2 fineEnv ++ turns 0 20 fineEnv ++
      turns 3 2 fineEnv ++ turns 4 12 fineEnv ++ turns 0 20 fineEnv)

/-- The notification of one cancellation shortens the hold of the next
execution. -/
theorem notification_shortens_next : ¬ ∀ c, ExecutorReachable c → ∀ t,
    Effective (project c.state.log t) ∧ Unleaked t (project c.state.log t) := by
  intro hall
  obtain ⟨-, hunleaked⟩ := hall lateNotificationRun (deviceRun_reachable _ _) 4
  have hwaited : .waited 8 [2] .none ∈ project lateNotificationRun.state.log 4 := by decide +kernel
  have hown := hunleaked.wakes 8 [2] .none hwaited 2 (by simp)
  exact absurd hown (by decide)

end MacroKeyboard.Executor.Cancellation
