import MacroKeyboard.Executor.ExecuteValid
import MacroKeyboard.Executor.SubmitValid
import MacroKeyboard.Executor.ShutdownValid

namespace MacroKeyboard.Executor

open Threads.Program Threads.Monitor Threads.RelyGuarantee

theorem valid_executorTask : Valid (threadLogic 0) executorTask WorkerFree (fun _ _ => True) := by
  refine valid_bind (M := fun _ => WorkerFree) (valid_repeatUntil stable_workerFree
    (fun _ => stable_workerFree) ?_) fun _ => valid_exitTask
  refine valid_bind valid_queueReceive fun message => ?_
  rcases message with _ | (⟨t, request⟩ | _)
  · exact valid_ret fun _ _ hP => hP
  · exact valid_bind valid_execute fun result =>
      valid_bind valid_executionReturned fun _ => valid_ret fun _ _ hP => hP
  · exact valid_ret fun _ _ hP => hP

/-- What a thread of the device needs before it starts. -/
def beforeStart : Nat → World → Prop
  | 0 => WorkerFree
  | 1 => fun _ => True
  | n + 2 => Holding (n + 2) (n + 2) Fresh

theorem valid_mayStart {i : Nat} {p : Thread Unit} (h : MayStart i p) :
    Valid (threadLogic i) p (beforeStart i) (fun _ _ => True) := by
  cases h with
  | worker => exact valid_executorTask
  | lifecycle => exact valid_lifecycleTask
  | call n c =>
    cases c with
    | send request => exact valid_bind valid_webSendCreateHandle fun _ => valid_ret fun _ _ h => h
    | cancel => exact (valid_bind valid_cancel fun _ => valid_ret fun _ _ h => h).pre fun _ _ _ => trivial
    | confirm => exact (valid_bind valid_confirm fun _ => valid_ret fun _ _ h => h).pre fun _ _ _ => trivial
    | getStatus =>
      exact (valid_bind valid_getStatus fun _ => valid_ret fun _ _ h => h).pre fun _ _ _ => trivial

theorem compatible : Compatible threadLogic Inv Final beforeStart where
  inv_eq := fun _ => rfl
  halt_eq := fun _ => rfl
  mutual_rely := fun i _ _ _ hij hg => ⟨i, hij, hg⟩
  pre_stable := fun i => by
    match i with
    | 0 => exact stable_workerFree
    | 1 => exact stable_true
    | n + 2 => exact stable_holding

theorem fits_initial (t : Ticket) : Fits initialWorld t freshRun where
  owner := ⟨nofun, nofun⟩
  current := ⟨nofun, nofun⟩
  queued := rfl
  request := nofun
  flags := nofun
  latched := nofun
  awaiting := nofun

theorem inv_initial : Inv initialWorld where
  fits := fun t => ⟨freshRun, rfl, fits_initial t⟩
  busy := rfl
  pending := fun _ _ h => nomatch h
  woken := fun _ _ _ _ _ hmem => absurd hmem List.not_mem_nil
  orderly :=
    { stopped := nofun
      gone := nofun
      exited := nofun
      deleted := nofun
      drained := fun _ _ => rfl
      noLoss := fun _ _ hmem => absurd hmem List.not_mem_nil
      latched := nofun }

theorem beforeStart_initial (i : Nat) : beforeStart i initialWorld := by
  match i with
  | 0 => exact ⟨rfl, rfl⟩
  | 1 => trivial
  | n + 2 => exact ⟨freshRun, rfl, rfl, fun _ => ⟨rfl, rfl⟩, rfl⟩

/-- Under every interleaving and every failure of the platform, the executor
keeps its invariant until a shutdown erases the engine. -/
theorem inv_of_reachable {c : Config World Env} (h : ExecutorReachable c) :
    Final c.state ∨ Inv c.state := by
  have hbetween := invariant_reachable compatible (fun t ht => ht.erased)
    (fun _ _ hp => valid_mayStart hp) inv_initial beforeStart_initial h
  exact hbetween.imp id (·.inv_holds)

theorem runs_of_reachable {c : Config World Env} (h : ExecutorReachable c) (t : Ticket) :
    ∃ r, runIn c.state.log t = some r := by
  rcases inv_of_reachable h with hf | hw
  · obtain ⟨r, hr, -⟩ := hf.runs t
    exact ⟨r, hr⟩
  · obtain ⟨r, hr, -⟩ := hw.fits t
    exact ⟨r, hr⟩

theorem traces_of_reachable {c : Config World Env} (h : ExecutorReachable c) (t : Ticket) :
    ∃ r, Traces (project c.state.log t) r := by
  obtain ⟨r, hr⟩ := runs_of_reachable h t
  exact ⟨r, traces_of_runIn hr⟩

theorem woken_of_reachable {c : Config World Env} (h : ExecutorReachable c) : OwnWakeUps c.state.log :=
  (inv_of_reachable h).elim (·.woken) (·.woken)

end MacroKeyboard.Executor
