import MacroKeyboard.Executor.PlanExecution

namespace MacroKeyboard.Executor

open Threads.Program Threads.Turns FirmwareCompiler

def timedAnswers (times : List Nat) : List (Nat × Env) :=
  times.map (fun time => (time, { fineEnv with nowMs := UInt32.ofNat time }))

def twoKeys : MacroExecutionRequest where
  executionId := fineEnv.uuid
  setId := fineEnv.uuid
  macroId := fineEnv.uuid
  macroRevision := 1
  keyPressMs := 1
  interKeyMs := 0
  plan := (macroCompileV2 true (bytes "ab") (some ⟨1, 0⟩)).outPlan
  acceptedMs := 0
  requireConfirmation := false

/-- A key goes down long after the deadline when one wait takes so long that the
signed comparison wraps around, and when the time passes between the look at
the deadline and the press; and a run that loses no time is timed out by a
press that answers so. The run starts at its second step. -/
theorem late_press :
    (∃ turns result, Plays (macroExecutorEngineExecute 2 twoKeys) turns result ∧ Clocked 0 turns ∧
      DeadlineKept turns ∧ ownTime turns = 0 ∧ (∀ turn ∈ turns.take 3, turn.time = 0) ∧
      ∃ turn ∈ turns, presses turn = true ∧ 310000 < turn.time) ∧
    (∃ turns result, Plays (macroExecutorEngineExecute 2 twoKeys) turns result ∧ Clocked 0 turns ∧
      DeadlineKept turns ∧ WaitsWithin 1 turns ∧ (∀ turn ∈ turns.take 3, turn.time = 0) ∧
      ∃ turn ∈ turns, presses turn = true ∧ 310000 < turn.time) ∧
    ∃ turns result, Plays (macroExecutorEngineExecute 2 twoKeys) turns result ∧ Clocked 0 turns ∧
      DeadlineKept turns ∧ overshoot turns = 0 ∧ .timedOut ∈ published turns := by
  refine ⟨?_, ?_, ?_⟩
  · apply exists_of_play (timedAnswers (List.replicate 12 0 ++ List.replicate 17 (2 ^ 31 + 310000))) initialWorld
    decide +kernel
  · apply exists_of_play (timedAnswers (List.replicate 7 0 ++ List.replicate 22 310001)) initialWorld
    decide +kernel
  · apply exists_of_play (timedAnswers (List.replicate 7 0) ++ [(0, { fineEnv with result := .timeout })] ++
      timedAnswers (List.replicate 7 0)) initialWorld
    decide +kernel

theorem deadlineKept_of_run {c d : Config World Env} {turns : List RunTurn} (hc : ExecutorReachable c)
    (h : RunsOn executorSystem 0 c turns d) : DeadlineKept turns :=
  (RunsOn.chain (fun w : World => w.engine.deadline)
    (fun hreachable _ _ hj hq env => others_keep_deadline hreachable hj hq env) hc h).1

/-- A worker at an execution is still at it later in the run, or its turns have gone through
all of it with the deadline kept. -/
theorem execution_of_run {c d : Config World Env} {turns : List RunTurn} {t : Ticket} {request : MacroExecutionRequest}
    {g : AppError → Thread Unit} (hc : ExecutorReachable c)
    (hp : c.threads[0]? = some ((macroExecutorEngineExecute t request).bind g))
    (h : RunsOn executorSystem 0 c turns d) :
    (∃ rest, Leaves (macroExecutorEngineExecute t request) turns rest ∧ d.threads[0]? = some (rest.bind g)) ∨
      ∃ during after result, turns = during ++ after ∧ Plays (macroExecutorEngineExecute t request) during result ∧
        DeadlineKept during := by
  obtain ⟨q, hq, hleaves⟩ := h.leaves hp
  have hkept := deadlineKept_of_run hc h
  rcases leaves_bind hleaves with ⟨rest, hrest, rfl⟩ | ⟨during, after, result, rfl, hplays, -⟩
  · exact .inl ⟨rest, hrest, hq⟩
  · exact .inr ⟨during, after, result, rfl, hplays, hkept.left⟩

/-- What the execution of a compiled plan does, whatever the other threads and
the platform do, for every start of the clock: it begins the actions of the
plan in order and, when it is not cut short, all of them, having waited as long
as the compiler estimated. -/
theorem executed_as_compiled {callocOk : Bool} {source : List UInt8} {options : Option MacroCompileOptions}
    {request : MacroExecutionRequest} {t : Ticket} {start : UInt32} {turns : List RunTurn} {result : AppError}
    (hcompiled : (macroCompileV2 callocOk source options).result = .none)
    (hplan : request.plan = (macroCompileV2 callocOk source options).outPlan)
    (htimings : options.getD defaultOptions = ⟨request.keyPressMs, request.interKeyMs⟩)
    (hvalid : validateRequest request = .ok ()) (hclock : Clocked start turns) (hkept : DeadlineKept turns)
    (h : Plays (macroExecutorEngineExecute t request) turns result) : ExecutedAsCompiled request turns result := by
  have hok := PlanWellFormed.planOk_of_compiled hcompiled
  rw [htimings, ← hplan] at hok
  exact execute_asCompiled hvalid hok.estimate_eq hok.estimate_le hclock hkept h

/-- Two keys at 40 milliseconds before the clock wraps around. -/
theorem two_keys_executed : ∃ turns result,
    Plays (macroExecutorEngineExecute 2 twoKeys) turns result ∧ issued turns = [.keys 0 [4], .keys 0 [5]] ∧
    requested turns = 2 ∧ ExecutedAsCompiled twoKeys turns result := by
  obtain ⟨turns, result, hplays, hclock, hkept, hissued, hrequested⟩ :
      ∃ turns result, Plays (macroExecutorEngineExecute 2 twoKeys) turns result ∧ Clocked 4294967256 turns ∧
        DeadlineKept turns ∧ issued turns = [.keys 0 [4], .keys 0 [5]] ∧ requested turns = 2 := by
    apply exists_of_play ((List.range 29).map (fun step =>
      (5 * step, { fineEnv with nowMs := 4294967256 + UInt32.ofNat (5 * step) }))) initialWorld
    decide +kernel
  refine ⟨turns, result, hplays, hissued, hrequested, ?_⟩
  exact executed_as_compiled (by decide +kernel : (macroCompileV2 true (bytes "ab") (some ⟨1, 0⟩)).result = .none)
    rfl rfl (by decide +kernel) hclock hkept hplays

end MacroKeyboard.Executor
