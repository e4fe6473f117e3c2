import MacroKeyboard.Threads.RelyGuarantee
import MacroKeyboard.Threads.Monitor
import MacroKeyboard.Webapp.SendClient

namespace MacroKeyboard.Webapp.SendOnce

open Threads.Program Threads.RelyGuarantee Threads.Monitor

/-- The task whose read of the status found that no send is pending or running. -/
def foundInactive : SendEvent → Option Nat
  | .polled task (.ok status) => if isTerminalSendState status.state then some task else none
  | .recovered task (.ok none) => some task
  | .recovered task (.ok (some status)) => if isTerminalSendState status.state then some task else none
  | _ => none

/-- What an event makes of the doubt about an earlier send: there is none, or these
tasks have asked for the status since it arose. -/
def doubtAfter (doubt : Option (List Nat)) : SendEvent → Option (List Nat)
  | .failed _ error => if error.outcomeUnknown then some [] else doubt
  | .asked task => doubt.map (task :: ·)
  | event =>
    match foundInactive event with
    | none => doubt
    | some task => if task ∈ doubt.getD [] then none else doubt

def doubtOf (log : List SendEvent) : Option (List Nat) := log.foldl doubtAfter none

/-- A send is posted only when there is no doubt. -/
def Once (log : List SendEvent) : SendEvent → Prop
  | .posted _ => doubtOf log = none
  | _ => True

/-- The events after which the client may take the state of the device as known. -/
def mayClear : SendEvent → Bool
  | .tracked _ => true
  | .polled _ (.ok status) => isTerminalSendState status.state
  | .recovered _ (.ok _) => true
  | _ => false

/-- A send whose outcome is unknown ends in a conflict; and while there is doubt no
send is tracked, and what is read to be over or recovered was asked for since and is
not active. -/
def Careful (log : List SendEvent) (event : SendEvent) : Prop :=
  (match event with
  | .failed _ error => error.outcomeUnknown = true → error.isConflict = true
  | _ => True) ∧
  (mayClear event = true → doubtOf (log ++ [event]) = none)

/-- In a careful run the latch is set while there is doubt. -/
structure Inv (client : SendClient) : Prop where
  latched : Always Careful client.log → doubtOf client.log ≠ none → client.latched = true
  once : Always Careful client.log → Always Once client.log

section Steps

variable {client : SendClient} {event : SendEvent} {error : RequestError}

theorem doubtOf_append (log : List SendEvent) (event : SendEvent) :
    doubtOf (log ++ [event]) = doubtAfter (doubtOf log) event := by
  rw [doubtOf, List.foldl_append]
  rfl

theorem careful_of_append {log : List SendEvent} (h : Always Careful (log ++ [event])) :
    Always Careful log ∧ Careful log event :=
  ⟨fun past other rest hlog => h past other (rest ++ [event]) (by rw [hlog, List.append_assoc, List.cons_append]),
    h log event [] rfl⟩

theorem doubt_of_append {log : List SendEvent} (hevent : ∀ task error, event ≠ .failed task error)
    (h : doubtOf (log ++ [event]) ≠ none) : doubtOf log ≠ none := by
  intro hnone
  apply h
  rw [doubtOf_append, hnone]
  unfold doubtAfter
  split
  next task error => exact absurd rfl (hevent task error)
  · rfl
  · split
    · rfl
    · exact if_neg (by simp)

theorem Inv.note (h : Inv client) (hfailed : ∀ task error, event ≠ .failed task error)
    (hposted : ∀ task, event ≠ .posted task) : Inv (client.note event) := by
  refine ⟨fun hcareful hdoubt => ?_, fun hcareful => ?_⟩
  · exact h.latched (careful_of_append hcareful).1 (doubt_of_append hfailed hdoubt)
  · refine (h.once (careful_of_append hcareful).1).append ?_
    unfold Once
    split
    next task => exact absurd rfl (hposted task)
    · trivial

theorem Inv.onStatus (h : Inv client) (callbacks : SendMacroCallbacks) (status : SendStatus) :
    Inv (client.note (.onStatus callbacks status)) :=
  h.note (fun _ _ h => by cases h) (fun _ h => by cases h)

theorem Inv.setTracker (h : Inv client) (task : Nat) (tracker : SendTracker) : Inv (client.setTracker task tracker) :=
  ⟨h.latched, h.once⟩

theorem inv_markRecoveryUnavailable (h : Always Careful client.log → Always Once client.log)
    (lastKnown : Option SendStatus) (callbacks : Option SendMacroCallbacks) :
    Inv (client.markRecoveryUnavailable error lastKnown callbacks) :=
  ⟨fun _ _ => by simp [SendClient.latched, SendClient.markRecoveryUnavailable], h⟩

theorem Inv.clearRecoveryState (h : Inv client) (hnone : Always Careful client.log → doubtOf client.log = none) :
    Inv client.clearRecoveryState :=
  ⟨fun hcareful hdoubt => absurd (hnone hcareful) hdoubt, h.once⟩

theorem settled_of_mayClear (h : mayClear event = true) (hcareful : Always Careful (client.note event).log) :
    doubtOf (client.note event).log = none :=
  (careful_of_append hcareful).2.2 h

theorem doubt_of_quiet {log : List SendEvent} (hquiet : ∀ doubt, doubtAfter doubt event = doubt)
    (h : doubtOf log = none) : doubtOf (log ++ [event]) = none := by
  rw [doubtOf_append, hquiet, h]

end Steps

section Tasks

variable {client : SendClient} {task : Nat}

theorem inv_startPoll (answers : SendAnswers) (h : Inv client) : Inv (startPoll task answers client).2 := by
  unfold startPoll
  split
  · exact h
  · split
    · exact h
    · exact h.note (fun _ _ h => by cases h) (fun _ h => by cases h)

theorem inv_pollFailed {tracker : SendTracker} {error : RequestError} (h : Inv client) :
    Inv (pollFailed task tracker error client).2 := by
  unfold pollFailed
  dsimp only
  generalize (if isTransientPollFailure error = true then tracker.consecutiveTransientFailures + 1
    else tracker.consecutiveTransientFailures) = failures
  split
  · exact h.setTracker task _
  · refine Inv.note ?_ (fun _ _ h => by cases h) (fun _ h => by cases h)
    exact inv_markRecoveryUnavailable (h.setTracker task _).once _ _

theorem inv_pollSucceeded {tracker : SendTracker} {status : SendStatus} (h : Inv client)
    (hover : isTerminalSendState status.state = true → Always Careful client.log → doubtOf client.log = none) :
    Inv (pollSucceeded task tracker status client).2 := by
  have htold : Inv (if isMeaningfulChange tracker.previous status then client.note (.onStatus tracker.callbacks status)
      else client) := by
    split
    · exact h.note (fun _ _ h => by cases h) (fun _ h => by cases h)
    · exact h
  unfold pollSucceeded
  dsimp only
  split
  next hterminal =>
    split
    · exact htold.setTracker task _
    · refine Inv.note (Inv.clearRecoveryState (htold.setTracker task _) ?_) (fun _ _ h => by cases h) (fun _ h => by cases h)
      show Always Careful (if isMeaningfulChange tracker.previous status then client.note (.onStatus tracker.callbacks status)
        else client).log → doubtOf (if isMeaningfulChange tracker.previous status then
          client.note (.onStatus tracker.callbacks status) else client).log = none
      split
      · exact fun hcareful => doubt_of_quiet (fun _ => rfl) (hover hterminal (careful_of_append hcareful).1)
      · exact hover hterminal
  · exact htold.setTracker task _

theorem inv_finishPoll (answers : SendAnswers) (h : Inv client) : Inv (finishPoll task answers client).2 := by
  have hpolled (answer : Except RequestError SendStatus) : Inv (client.note (.polled task answer)) :=
    h.note (fun _ _ h => by cases h) (fun _ h => by cases h)
  unfold finishPoll
  split
  · exact h
  · split
    · exact hpolled _
    · split
      · exact inv_pollFailed (hpolled _)
      · split
        · exact hpolled _
        · exact inv_pollSucceeded (hpolled _) fun hterminal hcareful => settled_of_mayClear hterminal hcareful

theorem inv_startSend (answers : SendAnswers) (h : Inv client) : Inv (startSend task answers client).2 := by
  unfold startSend
  split
  · exact h
  next hlatched =>
    refine ⟨fun hcareful hdoubt => ?_, fun hcareful => ?_⟩
    · exact h.latched (careful_of_append hcareful).1 (doubt_of_append (fun _ _ h => by cases h) hdoubt)
    · refine (h.once (careful_of_append hcareful).1).append ?_
      by_contra hdoubt
      exact hlatched (h.latched (careful_of_append hcareful).1 hdoubt)

theorem inv_finishSend (answers : SendAnswers) (h : Inv client) : Inv (finishSend task answers client).2 := by
  unfold finishSend
  split
  next error _ =>
    have honce (hcareful : Always Careful (client.note (.failed task error)).log) :
        Always Once (client.note (.failed task error)).log :=
      (h.once (careful_of_append hcareful).1).append trivial
    dsimp only
    split
    · exact inv_markRecoveryUnavailable honce _ _
    next hconflict =>
      refine ⟨fun hcareful hdoubt => ?_, honce⟩
      obtain ⟨hbefore, hfailed, -⟩ := careful_of_append hcareful
      have hknown : ¬ error.outcomeUnknown = true := fun hunknown => hconflict (hfailed hunknown)
      apply h.latched hbefore
      intro hnone
      apply hdoubt
      show doubtOf (client.log ++ [.failed task error]) = none
      rw [doubtOf_append, doubtAfter, if_neg hknown, hnone]
  · exact (h.note (fun _ _ h => by cases h) (fun _ h => by cases h)).setTracker task _

theorem inv_finishRecovery (answers : SendAnswers) (h : Inv client) : Inv (finishRecovery task answers client).2 := by
  have hread (answer : Except RequestError (Option SendStatus)) : Inv (client.note (.recovered task answer)) :=
    h.note (fun _ _ h => by cases h) (fun _ h => by cases h)
  unfold finishRecovery
  dsimp only
  split
  next error heq =>
    rw [heq]
    exact inv_markRecoveryUnavailable (hread _).once _ _
  next heq =>
    rw [heq]
    exact (hread _).clearRecoveryState (settled_of_mayClear rfl)
  next status heq =>
    rw [heq]
    split
    · exact (hread _).clearRecoveryState (settled_of_mayClear rfl)
    · split
      · exact (hread _).clearRecoveryState (settled_of_mayClear rfl)
      · exact hread _

theorem inv_finishRetry (callbacks : Option SendMacroCallbacks) (answers : SendAnswers) (h : Inv client) :
    Inv (finishRetry task callbacks answers client).2 := by
  have hread (answer : Except RequestError (Option SendStatus)) : Inv (client.note (.recovered task answer)) :=
    h.note (fun _ _ h => by cases h) (fun _ h => by cases h)
  have hcleared (answer : Option SendStatus) : Inv (client.note (.recovered task (.ok answer))).clearRecoveryState :=
    (hread _).clearRecoveryState (settled_of_mayClear rfl)
  unfold finishRetry
  dsimp only
  split
  next error _ heq =>
    rw [heq]
    exact inv_markRecoveryUnavailable (hread _).once _ _
  next heq =>
    rw [heq]
    exact hcleared none
  next heq =>
    rw [heq]
    exact (hcleared none).note (fun _ _ h => by cases h) (fun _ h => by cases h)
  next status heq =>
    rw [heq]
    exact (hcleared (some status)).note (fun _ _ h => by cases h) (fun _ h => by cases h)
  next status callbacks heq =>
    rw [heq]
    have htold := (hcleared (some status)).onStatus callbacks status
    split
    · exact htold.note (fun _ _ h => by cases h) (fun _ h => by cases h)
    · exact htold.setTracker task _

end Tasks

section Runs

variable {task : Nat}

def logic : Logic SendClient := ⟨Inv, fun _ => False, fun _ _ => True, fun _ _ => True⟩

theorem stable_true : Stable logic (fun _ => True) := fun _ _ _ _ _ _ => trivial

theorem valid_step {α : Type} {f : SendAnswers → SendClient → α × SendClient}
    (h : ∀ answers client, Inv client → Inv (f answers client).2) :
    Valid logic (.atomic f) (fun _ => True) (fun _ _ => True) :=
  valid_atomic (fun _ => stable_true) fun answers client hinv _ => ⟨h answers client hinv, trivial, trivial⟩

theorem pollUntilDone_valid : Valid logic (pollUntilDone task) (fun _ => True) (fun _ _ => True) := by
  refine (valid_repeatUntil stable_true (fun _ => stable_true) ?_).post fun _ _ _ _ => trivial
  refine valid_bind (valid_step fun answers client => inv_startPoll answers) fun started => ?_
  split
  · exact valid_ret fun _ _ _ => trivial
  refine valid_bind (valid_step fun answers client => inv_finishPoll answers) fun scheduled => valid_ret fun _ _ _ => ?_
  split <;> trivial

theorem sendMacro_valid : Valid logic (sendMacro task) (fun _ => True) (fun _ _ => True) := by
  refine valid_bind (valid_step fun answers client => inv_startSend answers) fun started => ?_
  split
  · exact valid_ret fun _ _ h => h
  refine valid_bind (valid_step fun answers client => inv_finishSend answers) fun tracking => ?_
  split
  · exact pollUntilDone_valid
  · exact valid_ret fun _ _ h => h

theorem trackSend_valid (seed : SendStatus) : Valid logic (trackSend task seed) (fun _ => True) (fun _ _ => True) := by
  refine valid_bind (valid_step fun answers client h => ?_) fun _ => pollUntilDone_valid
  have htracked : Inv (client.note (.tracked seed)) := h.note (fun _ _ h => by cases h) (fun _ h => by cases h)
  exact (htracked.clearRecoveryState (settled_of_mayClear rfl)).setTracker task _

theorem inv_ask {client : SendClient} (h : Inv client) : Inv (client.note (.asked task)) :=
  h.note (fun _ _ h => by cases h) (fun _ h => by cases h)

theorem recoverSendState_valid : Valid logic (recoverSendState task) (fun _ => True) (fun _ _ => True) :=
  valid_bind (valid_step fun _ _ => inv_ask) fun _ => valid_step fun answers _ => inv_finishRecovery answers

theorem retryExecutionRecovery_valid : Valid logic (retryExecutionRecovery task) (fun _ => True) (fun _ _ => True) := by
  refine valid_bind (valid_step fun _ _ => inv_ask) fun callbacks => ?_
  refine valid_bind (valid_step fun answers client => inv_finishRetry callbacks answers) fun tracking => ?_
  split
  · exact pollUntilDone_valid
  · exact valid_ret fun _ _ h => h

theorem stopTracker_valid (other : Nat) : Valid logic (stopTracker other) (fun _ => True) (fun _ _ => True) := by
  refine valid_step fun answers client h => ?_
  split
  · exact h
  · exact h.setTracker other _

theorem sendTask_valid {program : SendProg Unit} (h : SendTask task program) :
    Valid logic program (fun _ => True) (fun _ _ => True) := by
  cases h with
  | send => exact sendMacro_valid
  | track seed => exact trackSend_valid seed
  | stop other => exact stopTracker_valid other
  | cancel => exact valid_step fun _ _ h => h.note (fun _ _ h => by cases h) (fun _ h => by cases h)
  | recover => exact recoverSendState_valid
  | retry => exact retryExecutionRecovery_valid

theorem inv_of_run {c : Config SendClient SendAnswers} (h : SendRun c) : Inv c.state := by
  have hcompatible : Compatible (fun _ => logic) Inv (fun _ => False) (fun _ _ => True) :=
    ⟨fun _ => rfl, fun _ => rfl, fun _ _ _ _ _ _ => trivial, fun _ => stable_true⟩
  have hinitial : Inv .initial := ⟨fun _ hdoubt => absurd rfl hdoubt, fun _ => always_nil⟩
  rcases invariant_reachable hcompatible (fun _ hhalt => hhalt.elim) (fun _ _ htask => sendTask_valid htask) hinitial
    (fun _ => trivial) h with hhalt | hbetween
  · exact hhalt.elim
  · exact hbetween.inv_holds

/-- In every careful run no send is posted while it is not known what became of an
earlier one. -/
theorem posts_at_most_once {c : Config SendClient SendAnswers} (h : SendRun c) (hcareful : Always Careful c.state.log) :
    Always Once c.state.log :=
  (inv_of_run h).once hcareful

/-- Two sends, of which the first ends like this. -/
def sendingTwice (error : RequestError) : Config SendClient SendAnswers :=
  (⟨.initial, [sendMacro 0, sendMacro 1]⟩ : Config SendClient SendAnswers).runSchedule (fun _ => false)
    ([0, 0, 1].map (fun task => (task, ⟨.error error, .error error⟩)))

theorem run_sendingTwice (error : RequestError) : SendRun (sendingTwice error) := by
  have hstart : SendRun ⟨.initial, [] ++ [sendMacro 0, sendMacro 1]⟩ := by
    apply reachable_start .init rfl
    intro i p hp
    match i with
    | 0 => cases hp; exact .send 0
    | 1 => cases hp; exact .send 1
    | _ + 2 => cases hp
  exact reachable_runSchedule hstart _

theorem posts_at_most_once_conflict : Always Once (sendingTwice (.api 409 "conflict" "a send is already active")).state.log := by
  apply posts_at_most_once (run_sendingTwice _)
  have hlog : (sendingTwice (.api 409 "conflict" "a send is already active")).state.log =
      [] ++ [.posted 0] ++ [.failed 0 (.api 409 "conflict" "a send is already active")] := by decide +kernel
  rw [hlog]
  exact (always_nil.append ⟨trivial, fun h => by cases h⟩).append ⟨fun _ => rfl, fun h => by cases h⟩

/-- The network fails during a send, and the next send is posted at once. -/
theorem posted_after_network_failure : ¬ ∀ c, SendRun c → Always Once c.state.log := by
  intro h
  have hlog : (sendingTwice (.network "Failed to fetch")).state.log =
      [.posted 0, .failed 0 (.network "Failed to fetch")] ++ .posted 1 :: [] := by decide +kernel
  have honce : doubtOf [.posted 0, .failed 0 (.network "Failed to fetch")] = none := h _ (run_sendingTwice _) _ _ _ hlog
  revert honce
  decide +kernel

end Runs

end MacroKeyboard.Webapp.SendOnce
