import MacroKeyboard.Threads.Endings
import MacroKeyboard.Threads.Monitor
import MacroKeyboard.Webapp.SendClient

namespace MacroKeyboard.Webapp.Tracking

open Threads.Program Threads.RelyGuarantee Threads.Monitor

section Rules

def readStatus : SendEvent → Option SendStatus
  | .polled _ (.ok status) | .recovered _ (.ok (some status)) => some status
  | _ => none

def isPoll : SendEvent → Bool
  | .polled _ _ => true
  | _ => false

/-- The answer of a poll after which there may be another one. -/
def Onward : Except RequestError SendStatus → Prop
  | .error error => isTransientPollFailure error = true
  | .ok status => isTerminalSendState status.state = false

def Asked (task : Nat) (log : List SendEvent) : Prop :=
  ∃ earlier since, log = earlier ++ .asked task :: since ∧ ∀ answer, .polled task answer ∉ since

/-- What is announced has just been read, a completion is the end of a send, and a task
polls again only after polls that read of no end and failed only for the moment, each of
them the answer of a request of its own. -/
def Announced (log : List SendEvent) : SendEvent → Prop
  | .polled task _ => Asked task log ∧ ∀ answer, .polled task answer ∈ log → Onward answer
  | .onStatus _ status => ∃ front event, log = front ++ [event] ∧ readStatus event = some status
  | .onComplete callbacks status => isTerminalSendState status.state = true ∧ ∃ front event rest,
      log = front ++ event :: rest ∧ readStatus event = some status ∧ (rest = [] ∨ rest = [.onStatus callbacks status])
  | .onError _ error => ∃ front task, log = front ++ [.polled task (.error error)]
  | _ => True

/-- What a tracker keeps is of its own send, and it is complete when that has ended. -/
structure Sound (tracker : SendTracker) : Prop where
  own : ∀ status, tracker.previous = some status → status.id = tracker.id
  completed : tracker.completed = true ↔ ∃ status, tracker.previous = some status ∧ isTerminalSendState status.state = true

structure Inv (client : SendClient) : Prop where
  announced : Always Announced client.log
  sound : ∀ task tracker, client.trackers task = some tracker → Sound tracker

/-- What the other tasks leave of a task: they may stop its tracker, and they do not poll
for it. -/
structure Aside (task : Nat) (client next : SendClient) : Prop where
  tracker : next.trackers task = client.trackers task ∨
    ∃ tracker, client.trackers task = some tracker ∧ next.trackers task = some { tracker with stopped := true }
  log : ∃ added, next.log = client.log ++ added ∧ ∀ answer, .polled task answer ∉ added

def guarantee (task : Nat) (client next : SendClient) : Prop := ∀ other, other ≠ task → Aside other client next

def logic (task : Nat) : Logic SendClient where
  inv := Inv
  halt := fun _ => False
  rely := Aside task
  guar := guarantee task

def Fresh (task : Nat) (client : SendClient) : Prop :=
  client.trackers task = none ∧ ∀ answer, .polled task answer ∉ client.log

def Ready (task : Nat) (client : SendClient) : Prop :=
  (∃ tracker, client.trackers task = some tracker) ∧ ∀ answer, .polled task answer ∈ client.log → Onward answer

def InFlight (task : Nat) (client : SendClient) : Prop :=
  (∃ tracker, client.trackers task = some tracker ∧ tracker.completed = false) ∧ Asked task client.log ∧
    ∀ answer, .polled task answer ∈ client.log → Onward answer

/-- The tracker polls no more: it was stopped, its send has ended, or the device has
turned to another send. -/
def Over (task : Nat) (client : SendClient) : Prop :=
  ∀ tracker, client.trackers task = some tracker → tracker.stopped = true ∨ tracker.completed = true ∨
    ∃ status, status.id ≠ tracker.id ∧ .polled task (.ok status) ∈ client.log

end Rules

section Stability

variable {task : Nat}

theorem Sound.stop {tracker : SendTracker} (h : Sound tracker) : Sound { tracker with stopped := true } := ⟨h.own, h.completed⟩

theorem Aside.polled {client next : SendClient} (h : Aside task client next) (answer : Except RequestError SendStatus) :
    .polled task answer ∈ next.log ↔ .polled task answer ∈ client.log := by
  obtain ⟨added, hlog, hnone⟩ := h.log
  rw [hlog, List.mem_append]
  exact or_iff_left (hnone answer)

theorem Asked.append {log added : List SendEvent} (h : Asked task log) (hadded : ∀ answer, .polled task answer ∉ added) :
    Asked task (log ++ added) := by
  obtain ⟨earlier, since, rfl, hsince⟩ := h
  refine ⟨earlier, since ++ added, by simp, fun answer hmem => ?_⟩
  obtain hmem | hmem := List.mem_append.mp hmem
  · exact hsince answer hmem
  · exact hadded answer hmem

theorem stable_fresh : Stable (logic task) (Fresh task) := by
  rintro client next _ _ haside ⟨hnone, hpolled⟩
  refine ⟨?_, fun answer hmem => hpolled answer ((haside.polled answer).mp hmem)⟩
  obtain hsame | ⟨tracker, hsome, -⟩ := haside.tracker
  · rw [hsame, hnone]
  · rw [hnone] at hsome
    cases hsome

theorem stable_ready : Stable (logic task) (Ready task) := by
  rintro client next _ _ haside ⟨⟨tracker, htracker⟩, hpolled⟩
  refine ⟨?_, fun answer hmem => hpolled answer ((haside.polled answer).mp hmem)⟩
  obtain hsame | ⟨other, -, hstopped⟩ := haside.tracker
  · exact ⟨tracker, hsame.trans htracker⟩
  · exact ⟨_, hstopped⟩

theorem stable_inFlight : Stable (logic task) (InFlight task) := by
  rintro client next _ _ haside ⟨⟨tracker, htracker, hgoing⟩, hasked, hpolled⟩
  refine ⟨?_, ?_, fun answer hmem => hpolled answer ((haside.polled answer).mp hmem)⟩
  swap
  · obtain ⟨added, hlog, hnone⟩ := haside.log
    rw [hlog]
    exact hasked.append hnone
  obtain hsame | ⟨other, hother, hstopped⟩ := haside.tracker
  · exact ⟨tracker, hsame.trans htracker, hgoing⟩
  · rw [htracker] at hother
    cases hother
    exact ⟨_, hstopped, hgoing⟩

theorem stable_over : Stable (logic task) (Over task) := by
  intro client next _ _ haside hover tracker htracker
  obtain hsame | ⟨other, hother, hstopped⟩ := haside.tracker
  · rw [hsame] at htracker
    refine (hover tracker htracker).imp_right (Or.imp_right ?_)
    rintro ⟨status, hid, hmem⟩
    exact ⟨status, hid, (haside.polled _).mpr hmem⟩
  · rw [hstopped] at htracker
    cases htracker
    exact Or.inl rfl

theorem over_of_fresh {client : SendClient} (h : Fresh task client) : Over task client := by
  intro tracker htracker
  rw [h.1] at htracker
  cases htracker

end Stability

section Steps

variable {task : Nat} {client next : SendClient} {event : SendEvent} {tracker : SendTracker}

theorem Aside.refl (other : Nat) (client : SendClient) : Aside other client client :=
  ⟨Or.inl rfl, [], (List.append_nil _).symm, fun _ hmem => by cases hmem⟩

/-- A step of a task that keeps the invariant and leaves the others alone. -/
structure Moves (task : Nat) (client next : SendClient) : Prop where
  inv : Inv next
  guar : guarantee task client next

theorem Inv.moves (h : Inv client) : Moves task client client := ⟨h, fun other _ => Aside.refl other client⟩

theorem Moves.note (h : Moves task client next) (hannounced : Announced next.log event)
    (hown : ∀ other answer, event = .polled other answer → other = task) : Moves task client (next.note event) := by
  refine ⟨⟨h.inv.announced.append hannounced, h.inv.sound⟩, fun other hother => ?_⟩
  obtain ⟨added, hlog, hnone⟩ := (h.guar other hother).log
  refine ⟨(h.guar other hother).tracker, added ++ [event], by simp [SendClient.note, hlog], fun answer hmem => ?_⟩
  obtain hmem | heq := List.mem_append.mp hmem
  · exact hnone answer hmem
  · exact hother (hown other answer (List.mem_singleton.mp heq).symm)

theorem ne_polled (h : isPoll event = false) (other : Nat) (answer : Except RequestError SendStatus) :
    event ≠ .polled other answer := by
  rintro rfl
  cases h

theorem Moves.tell (h : Moves task client next) (hannounced : Announced next.log event) (hquiet : isPoll event = false) :
    Moves task client (next.note event) :=
  h.note hannounced fun other answer heq => absurd heq (ne_polled hquiet other answer)

theorem Moves.setTracker (h : Moves task client next) (hsound : Sound tracker) :
    Moves task client (next.setTracker task tracker) := by
  refine ⟨⟨h.inv.announced, fun other held hheld => ?_⟩, fun other hother => ⟨?_, (h.guar other hother).log⟩⟩
  · unfold SendClient.setTracker at hheld
    dsimp only at hheld
    split at hheld
    · cases hheld
      exact hsound
    · exact h.inv.sound other held hheld
  · simpa [SendClient.setTracker, hother] using (h.guar other hother).tracker

theorem Moves.markRecoveryUnavailable (h : Moves task client next) (error : RequestError) (lastKnown : Option SendStatus)
    (callbacks : Option SendMacroCallbacks) : Moves task client (next.markRecoveryUnavailable error lastKnown callbacks) :=
  ⟨⟨h.inv.announced, h.inv.sound⟩, fun other hother => ⟨(h.guar other hother).tracker, (h.guar other hother).log⟩⟩

theorem Moves.clearRecoveryState (h : Moves task client next) : Moves task client next.clearRecoveryState :=
  ⟨⟨h.inv.announced, h.inv.sound⟩, fun other hother => ⟨(h.guar other hother).tracker, (h.guar other hother).log⟩⟩

@[simp] theorem setTracker_self (client : SendClient) (task : Nat) (tracker : SendTracker) :
    (client.setTracker task tracker).trackers task = some tracker := if_pos rfl

theorem sound_newTracker (id : String) (seed : Option SendStatus) (callbacks : SendMacroCallbacks)
    (hseed : ∀ status, seed = some status → status.id = id) : Sound (newTracker id seed callbacks) := by
  refine ⟨hseed, ?_⟩
  cases seed <;> simp [newTracker]

end Steps

section Polls

variable {task : Nat} {client : SendClient} {tracker : SendTracker}

theorem onward_note {answer : Except RequestError SendStatus}
    (h : ∀ earlier, .polled task earlier ∈ client.log → Onward earlier) (hanswer : Onward answer) :
    ∀ earlier, .polled task earlier ∈ (client.note (.polled task answer)).log → Onward earlier := by
  intro earlier hmem
  obtain hmem | heq := List.mem_append.mp hmem
  · exact h earlier hmem
  · cases List.mem_singleton.mp heq
    exact hanswer

theorem Moves.polled (hinv : Inv client) (hasked : Asked task client.log)
    (h : ∀ earlier, .polled task earlier ∈ client.log → Onward earlier)
    (answer : Except RequestError SendStatus) : Moves task client (client.note (.polled task answer)) :=
  hinv.moves.note ⟨hasked, h⟩ fun _ _ heq => by cases heq; rfl

theorem startPoll_valid : Valid (logic task) (.atomic (startPoll task) : SendProg Bool) (Ready task)
    (fun started client => if started then InFlight task client else Over task client) := by
  refine valid_atomic (fun started => by cases started <;> [exact stable_over; exact stable_inFlight])
    fun answers client hinv hready => ?_
  obtain ⟨⟨tracker, htracker⟩, hpolled⟩ := hready
  unfold startPoll
  rw [htracker]
  dsimp only
  split
  next hended =>
    have hstay : Moves task client client := hinv.moves
    refine ⟨hstay.inv, hstay.guar, fun other hother => ?_⟩
    rw [htracker] at hother
    cases hother
    rw [Bool.or_eq_true] at hended
    exact hended.imp_right Or.inl
  next hgoing =>
    have hasked : Moves task client (client.note (.asked task)) := hinv.moves.tell trivial rfl
    rw [Bool.or_eq_true, not_or, Bool.not_eq_true, Bool.not_eq_true] at hgoing
    refine ⟨hasked.inv, hasked.guar, ⟨tracker, htracker, hgoing.2⟩, ⟨client.log, [], rfl, fun _ hmem => by cases hmem⟩,
      fun answer hmem => hpolled answer ?_⟩
    simpa [SendClient.note] using hmem

theorem pollFailed_moves {error : RequestError} (hinv : Inv client) (hsound : Sound tracker) (hasked : Asked task client.log)
    (hpolled : ∀ answer, .polled task answer ∈ client.log → Onward answer)
    {scheduled : Bool} {next : SendClient}
    (hnext : pollFailed task tracker error (client.note (.polled task (.error error))) = (scheduled, next)) :
    Moves task client next ∧ if scheduled then Ready task next else Over task next := by
  have hmoves : Moves task client (client.note (.polled task (.error error))) := .polled hinv hasked hpolled _
  unfold pollFailed at hnext
  dsimp only at hnext
  generalize (if isTransientPollFailure error = true then tracker.consecutiveTransientFailures + 1
    else tracker.consecutiveTransientFailures) = failures at hnext
  split at hnext
  next hagain =>
    cases hnext
    exact ⟨hmoves.setTracker ⟨hsound.own, hsound.completed⟩, ⟨_, setTracker_self _ _ _⟩, onward_note hpolled hagain.1⟩
  next =>
    cases hnext
    refine ⟨Moves.tell ?_ ⟨client.log, task, rfl⟩ rfl, fun other hother => ?_⟩
    · have hstopped : Sound { tracker with stopped := true, consecutiveTransientFailures := failures } :=
        ⟨hsound.own, hsound.completed⟩
      exact (hmoves.setTracker hstopped).markRecoveryUnavailable _ _ _
    · cases (setTracker_self _ _ _).symm.trans hother
      exact Or.inl rfl

/-- The tracker of a poll that read its send polls again until that has ended. -/
theorem pollSucceeded_moves {status : SendStatus} (hinv : Inv client)
    (hgoing : tracker.completed = false) (hid : status.id = tracker.id) (hasked : Asked task client.log)
    (hpolled : ∀ answer, .polled task answer ∈ client.log → Onward answer) {scheduled : Bool} {next : SendClient}
    (hnext : pollSucceeded task tracker status (client.note (.polled task (.ok status))) = (scheduled, next)) :
    Moves task client next ∧ if scheduled then Ready task next else Over task next := by
  have hmoves : Moves task client (client.note (.polled task (.ok status))) := .polled hinv hasked hpolled _
  obtain ⟨told, htold, hlog, hmovesTold⟩ : ∃ told, told = (if isMeaningfulChange tracker.previous status then
      (client.note (.polled task (.ok status))).note (.onStatus tracker.callbacks status)
      else client.note (.polled task (.ok status))) ∧
      (∃ rest, told.log = client.log ++ .polled task (.ok status) :: rest ∧
        (rest = [] ∨ rest = [.onStatus tracker.callbacks status])) ∧ Moves task client told := by
    refine ⟨_, rfl, ?_, ?_⟩
    · split
      · exact ⟨[.onStatus tracker.callbacks status], by simp [SendClient.note], Or.inr rfl⟩
      · exact ⟨[], rfl, Or.inl rfl⟩
    · split
      · exact hmoves.tell ⟨client.log, _, rfl, rfl⟩ rfl
      · exact hmoves
  obtain ⟨rest, hlog, hrest⟩ := hlog
  have hown : ∀ other, some status = some other → other.id = tracker.id := fun other heq => by cases heq; exact hid
  unfold pollSucceeded at hnext
  rw [← htold, hgoing] at hnext
  dsimp only at hnext
  split at hnext
  next hterminal =>
    cases hnext
    refine ⟨Moves.tell ((hmovesTold.setTracker ⟨hown, ?_⟩).clearRecoveryState) ⟨hterminal, ?_⟩ rfl, fun other hother => ?_⟩
    · exact ⟨fun _ => ⟨status, rfl, hterminal⟩, fun _ => rfl⟩
    · exact ⟨client.log, _, rest, hlog, rfl, hrest⟩
    · cases (setTracker_self _ _ _).symm.trans hother
      exact Or.inr (Or.inl rfl)
  next hrunning =>
    cases hnext
    rw [Bool.not_eq_true] at hrunning
    refine ⟨hmovesTold.setTracker ⟨hown, ⟨fun h => ?_, ?_⟩⟩, ⟨_, setTracker_self _ _ _⟩, fun answer hmem => ?_⟩
    · cases h
    · rintro ⟨other, heq, hterminal⟩
      cases heq
      rw [hrunning] at hterminal
      cases hterminal
    · have hmem : SendEvent.polled task answer ∈ told.log := hmem
      rw [hlog] at hmem
      have honward : Onward (.ok status) := hrunning
      refine onward_note hpolled honward answer ?_
      obtain rfl | rfl := hrest <;> simpa [SendClient.note] using hmem

theorem finishPoll_valid : Valid (logic task) (.atomic (finishPoll task) : SendProg Bool) (InFlight task)
    (fun scheduled client => if scheduled then Ready task client else Over task client) := by
  refine valid_atomic (fun scheduled => by cases scheduled <;> [exact stable_over; exact stable_ready])
    fun answers client hinv hflight => ?_
  obtain ⟨⟨tracker, htracker, hgoing⟩, hasked, hpolled⟩ := hflight
  have hsound : Sound tracker := hinv.sound task tracker htracker
  have hmoves (answer : Except RequestError SendStatus) : Moves task client (client.note (.polled task answer)) :=
    .polled hinv hasked hpolled answer
  unfold finishPoll
  rw [htracker]
  dsimp only
  split
  next hstopped =>
    refine ⟨(hmoves _).inv, (hmoves _).guar, fun other hother => ?_⟩
    cases htracker.symm.trans hother
    exact Or.inl hstopped
  next =>
    split
    next error _ =>
      obtain ⟨hnext, hpost⟩ := pollFailed_moves hinv hsound hasked hpolled (Prod.mk.eta (p := pollFailed task tracker error _)).symm
      exact ⟨hnext.inv, hnext.guar, hpost⟩
    next status _ =>
      split
      next hother =>
        refine ⟨(hmoves _).inv, (hmoves _).guar, fun held hheld => ?_⟩
        cases htracker.symm.trans hheld
        exact Or.inr (Or.inr ⟨status, hother, List.mem_append_right _ (List.mem_singleton.mpr rfl)⟩)
      next hown =>
        obtain ⟨hnext, hpost⟩ := pollSucceeded_moves hinv hgoing (not_not.mp hown) hasked hpolled
          (Prod.mk.eta (p := pollSucceeded task tracker status _)).symm
        exact ⟨hnext.inv, hnext.guar, hpost⟩

theorem pollUntilDone_valid : Valid (logic task) (pollUntilDone task) (Ready task) (fun _ => Over task) := by
  refine valid_repeatUntil stable_ready (fun _ => stable_over) (valid_bind startPoll_valid fun started => ?_)
  cases started with
  | false => exact valid_ret fun _ _ h => h
  | true =>
    refine valid_bind finishPoll_valid fun scheduled => valid_ret fun _ _ h => ?_
    cases scheduled <;> exact h

end Polls

section Tasks

variable {task : Nat} {client : SendClient}

theorem fresh_note {event : SendEvent} (h : Fresh task client) (hquiet : isPoll event = false) :
    Fresh task (client.note event) := by
  refine ⟨h.1, fun answer hmem => ?_⟩
  obtain hmem | heq := List.mem_append.mp hmem
  · exact h.2 answer hmem
  · exact ne_polled hquiet task answer (List.mem_singleton.mp heq).symm

theorem ready_new {tracker : SendTracker} (h : Fresh task client) : Ready task (client.setTracker task tracker) :=
  ⟨⟨tracker, setTracker_self _ _ _⟩, fun answer hmem => absurd hmem (h.2 answer)⟩

theorem sendMacro_valid : Valid (logic task) (sendMacro task) (Fresh task) (fun _ => Over task) := by
  refine valid_bind (M := fun _ => Fresh task) (valid_atomic (fun _ => stable_fresh) fun answers client hinv h => ?_)
    fun started => ?_
  · unfold startSend
    split
    · exact ⟨hinv, hinv.moves.guar, h⟩
    · have hposted : Moves task client (client.note (.posted task)) := hinv.moves.tell trivial rfl
      exact ⟨hposted.inv, hposted.guar, fresh_note h rfl⟩
  split
  · exact valid_ret fun _ _ h => over_of_fresh h
  refine valid_bind (M := fun tracking client => if tracking then Ready task client else Over task client)
    (valid_atomic (fun tracking => by cases tracking <;> [exact stable_over; exact stable_ready])
      fun answers client hinv h => ?_) fun tracking => ?_
  · unfold finishSend
    split
    next error _ =>
      have hfailed : Moves task client (client.note (.failed task error)) := hinv.moves.tell trivial rfl
      have hfresh : Fresh task (client.note (.failed task error)) := fresh_note h rfl
      dsimp only
      split
      · have hlatched := hfailed.markRecoveryUnavailable error none (some task)
        exact ⟨hlatched.inv, hlatched.guar, over_of_fresh ⟨hfresh.1, hfresh.2⟩⟩
      · exact ⟨hfailed.inv, hfailed.guar, over_of_fresh hfresh⟩
    next id _ =>
      have haccepted : Moves task client (client.note (.accepted task id)) := hinv.moves.tell trivial rfl
      have htracked := haccepted.setTracker (sound_newTracker id none task fun _ heq => by cases heq)
      exact ⟨htracked.inv, htracked.guar, ready_new (fresh_note h rfl)⟩
  cases tracking with
  | false => exact valid_ret fun _ _ h => h
  | true => exact pollUntilDone_valid

theorem trackSend_valid (seed : SendStatus) : Valid (logic task) (trackSend task seed) (Fresh task) (fun _ => Over task) := by
  refine valid_bind (M := fun _ => Ready task) (valid_atomic (fun _ => stable_ready) fun answers client hinv h => ?_)
    fun _ => pollUntilDone_valid
  have htracked : Moves task client (client.note (.tracked seed)) := hinv.moves.tell trivial rfl
  have hset := htracked.clearRecoveryState.setTracker (sound_newTracker seed.id (some seed) task fun _ heq => by cases heq; rfl)
  have hfresh : Fresh task (client.note (.tracked seed)) := fresh_note h rfl
  exact ⟨hset.inv, hset.guar, ready_new ⟨hfresh.1, hfresh.2⟩⟩

theorem stopTracker_valid (other : Nat) : Valid (logic task) (stopTracker other) (Fresh task) (fun _ => Over task) := by
  refine valid_atomic (fun _ => stable_over) fun answers client hinv h => ?_
  cases hother : client.trackers other with
  | none => exact ⟨hinv, hinv.moves.guar, over_of_fresh h⟩
  | some tracker =>
    have hne : task ≠ other := by
      rintro rfl
      rw [h.1] at hother
      cases hother
    refine ⟨⟨hinv.announced, fun held kept hkept => ?_⟩, fun held _ => ⟨?_, (Aside.refl held client).log⟩, over_of_fresh ⟨?_, h.2⟩⟩
    · unfold SendClient.setTracker at hkept
      dsimp only at hkept
      split at hkept
      · cases hkept
        exact (hinv.sound other tracker hother).stop
      · exact hinv.sound held kept hkept
    · by_cases heq : held = other
      · exact Or.inr ⟨tracker, heq ▸ hother, if_pos heq⟩
      · exact Or.inl (if_neg heq)
    · exact (if_neg hne).trans h.1

theorem asking_valid {α : Type} (f : SendClient → α) :
    Valid (logic task) (.atomic fun _ client => (f client, client.note (.asked task)) : SendProg α) (Fresh task)
      (fun _ => Fresh task) := by
  refine valid_atomic (fun _ => stable_fresh) fun answers client hinv h => ?_
  have hasked : Moves task client (client.note (.asked task)) := hinv.moves.tell trivial rfl
  exact ⟨hasked.inv, hasked.guar, fresh_note h rfl⟩

theorem recovered_moves (hinv : Inv client) (answer : Except RequestError (Option SendStatus)) :
    Moves task client (client.note (.recovered task answer)) := hinv.moves.tell trivial rfl

theorem recoverSendState_valid : Valid (logic task) (recoverSendState task) (Fresh task) (fun _ => Over task) := by
  refine valid_bind (asking_valid _) fun _ => valid_atomic (fun _ => stable_over) fun answers client hinv h => ?_
  have hread : Moves task client (client.note (.recovered task (recoveredSend answers))) := recovered_moves hinv _
  have hcleared := hread.clearRecoveryState
  have hfresh : Fresh task (client.note (.recovered task (recoveredSend answers))) := fresh_note h rfl
  have hover : Over task (client.note (.recovered task (recoveredSend answers))) := over_of_fresh hfresh
  unfold finishRecovery
  dsimp only
  split
  next error _ =>
    have hlatched (lastKnown : Option SendStatus) := hread.markRecoveryUnavailable error lastKnown
    exact ⟨(hlatched _ _).inv, (hlatched _ _).guar, hover⟩
  · exact ⟨hcleared.inv, hcleared.guar, hover⟩
  · split
    · exact ⟨hcleared.inv, hcleared.guar, hover⟩
    split
    · exact ⟨hcleared.inv, hcleared.guar, hover⟩
    · exact ⟨hread.inv, hread.guar, hover⟩

/-- A retry tells what it read, and tracks a send that has not ended. -/
theorem finishRetry_valid (callbacks : Option SendMacroCallbacks) :
    Valid (logic task) (.atomic (finishRetry task callbacks) : SendProg Bool) (Fresh task)
      (fun tracking client => if tracking then Ready task client else Over task client) := by
  refine valid_atomic (fun tracking => by cases tracking <;> [exact stable_over; exact stable_ready])
    fun answers client hinv h => ?_
  have hread : Moves task client (client.note (.recovered task (recoveredSend answers))) := recovered_moves hinv _
  have hcleared := hread.clearRecoveryState
  have hfresh : Fresh task (client.note (.recovered task (recoveredSend answers))).clearRecoveryState := by
    have hnoted : Fresh task (client.note (.recovered task (recoveredSend answers))) := fresh_note h rfl
    exact ⟨hnoted.1, hnoted.2⟩
  unfold finishRetry
  dsimp only
  split
  next error _ =>
    have hlatched (lastKnown : Option SendStatus) := hread.markRecoveryUnavailable error lastKnown
    exact ⟨(hlatched _ _).inv, (hlatched _ _).guar, over_of_fresh ⟨hfresh.1, hfresh.2⟩⟩
  · exact ⟨hcleared.inv, hcleared.guar, over_of_fresh hfresh⟩
  · have hhanded : Moves task client ((client.note (.recovered task (recoveredSend answers))).clearRecoveryState.note
        (.handedOff none)) := hcleared.tell trivial rfl
    exact ⟨hhanded.inv, hhanded.guar, over_of_fresh (fresh_note hfresh rfl)⟩
  next status _ =>
    have hhanded : Moves task client ((client.note (.recovered task (recoveredSend answers))).clearRecoveryState.note
        (.handedOff (some status))) := hcleared.tell trivial rfl
    exact ⟨hhanded.inv, hhanded.guar, over_of_fresh (fresh_note hfresh rfl)⟩
  next status callbacks heq =>
    have hstatus : readStatus (.recovered task (recoveredSend answers)) = some status := by rw [heq]; rfl
    have htold : Moves task client ((client.note (.recovered task (recoveredSend answers))).clearRecoveryState.note
        (.onStatus callbacks status)) := hcleared.tell ⟨client.log, _, rfl, hstatus⟩ rfl
    split
    next hterminal =>
      have hannounced : Announced ((client.note (.recovered task (recoveredSend answers))).clearRecoveryState.note
          (.onStatus callbacks status)).log (.onComplete callbacks status) :=
        ⟨hterminal, client.log, _, [.onStatus callbacks status], by simp [SendClient.note, SendClient.clearRecoveryState],
          hstatus, Or.inr rfl⟩
      have hcompleted := htold.tell hannounced rfl
      exact ⟨hcompleted.inv, hcompleted.guar, over_of_fresh (fresh_note (fresh_note hfresh rfl) rfl)⟩
    next =>
      have htracked := htold.setTracker (sound_newTracker status.id (some status) callbacks fun _ heq => by cases heq; rfl)
      exact ⟨htracked.inv, htracked.guar, ready_new (fresh_note hfresh rfl)⟩

theorem retryExecutionRecovery_valid :
    Valid (logic task) (retryExecutionRecovery task) (Fresh task) (fun _ => Over task) := by
  refine valid_bind (asking_valid _) fun callbacks => valid_bind (finishRetry_valid callbacks) fun tracking => ?_
  cases tracking with
  | false => exact valid_ret fun _ _ h => h
  | true => exact pollUntilDone_valid

theorem sendTask_valid {program : SendProg Unit} (h : SendTask task program) :
    Valid (logic task) program (Fresh task) (fun _ => Over task) := by
  cases h with
  | send => exact sendMacro_valid
  | track seed => exact trackSend_valid seed
  | stop other => exact stopTracker_valid other
  | cancel =>
    refine valid_atomic (fun _ => stable_over) fun answers client hinv h => ?_
    have hdeleted : Moves task client (client.note .deleted) := hinv.moves.tell trivial rfl
    exact ⟨hdeleted.inv, hdeleted.guar, over_of_fresh (fresh_note h rfl)⟩
  | recover => exact recoverSendState_valid
  | retry => exact retryExecutionRecovery_valid

end Tasks

section Points

variable {task : Nat} {client : SendClient}

def scheduledRest (task : Nat) (scheduled : Bool) : SendProg Unit := if scheduled then pollUntilDone task else .ret ()

def startedRest (task : Nat) (started : Bool) : SendProg Unit :=
  if started then .act (finishPoll task) (scheduledRest task) else .ret ()

/-- What is left of the polls of a tracker. -/
inductive Polling (task : Nat) : SendProg Unit → Prop
  | waiting : Polling task (pollUntilDone task)
  | asking : Polling task (.act (startPoll task) (startedRest task))
  | asked : Polling task (.act (finishPoll task) (scheduledRest task))
  | done : Polling task (.ret ())

theorem step_waiting (answers : SendAnswers) (client : SendClient) :
    (pollUntilDone task).step answers client = (.act (startPoll task) (startedRest task), client) := by
  have hrest : ((pollUntilDone task).step answers client).1 = .act (startPoll task) (startedRest task) := by
    refine congrArg (Prog.act (startPoll task)) (funext fun started => ?_)
    cases started with
    | false => rfl
    | true =>
      refine congrArg (Prog.act (finishPoll task)) (funext fun scheduled => ?_)
      cases scheduled <;> rfl
  exact Prod.ext hrest rfl

theorem polling_scheduledRest (scheduled : Bool) : Polling task (scheduledRest task scheduled) := by
  cases scheduled with
  | false => exact .done
  | true => exact .waiting

theorem polling_step {program : SendProg Unit} (h : Polling task program) (answers : SendAnswers) (client : SendClient) :
    Polling task (program.step answers client).1 := by
  cases h with
  | waiting =>
    rw [step_waiting]
    exact .asking
  | asking =>
    change Polling task (startedRest task _)
    unfold startedRest
    split
    · exact .asked
    · exact .done
  | asked => exact polling_scheduledRest _
  | done => exact .done

theorem toward_tracking {P : SendClient → Prop} (tracking : Bool) :
    Toward P (Polling task) (if tracking then pollUntilDone task else pure ()) := by
  cases tracking with
  | false => trivial
  | true => exact .waiting

theorem toward_sendMacro : Toward (fun client => client.trackers task = none) (Polling task) (sendMacro task) := by
  refine ⟨fun answers client hnone => Or.inl ?_, fun started => ?_⟩
  · unfold startSend
    split <;> exact hnone
  cases started with
  | false => trivial
  | true =>
    refine ⟨fun answers client hnone => ?_, toward_tracking⟩
    unfold finishSend
    split
    · refine Or.inl ?_
      dsimp only
      split <;> exact hnone
    · exact Or.inr .waiting

theorem toward_retryExecutionRecovery :
    Toward (fun client => client.trackers task = none) (Polling task) (retryExecutionRecovery task) := by
  refine ⟨fun answers client hnone => Or.inl hnone, fun callbacks => ⟨fun answers client hnone => ?_, toward_tracking⟩⟩
  unfold finishRetry
  dsimp only
  split
  · exact Or.inl hnone
  · exact Or.inl hnone
  · exact Or.inl hnone
  · exact Or.inl hnone
  · split
    · exact Or.inl hnone
    · exact Or.inr .waiting

/-- The programs of the pages come to the polls as soon as they have a tracker. -/
theorem toward_sendTask {program : SendProg Unit} (h : SendTask task program) :
    Toward (fun client => client.trackers task = none) (Polling task) program := by
  cases h with
  | send => exact toward_sendMacro
  | track seed => exact ⟨fun _ _ _ => Or.inr .waiting, fun _ => .waiting⟩
  | stop other =>
    refine ⟨fun answers client hnone => Or.inl ?_, fun _ => trivial⟩
    dsimp only at hnone ⊢
    split
    next => exact hnone
    next tracker hother =>
      have hne : task ≠ other := by
        rintro rfl
        rw [hnone] at hother
        cases hother
      exact (if_neg hne).trans hnone
  | cancel => exact ⟨fun _ _ hnone => Or.inl hnone, fun _ => trivial⟩
  | recover =>
    refine ⟨fun _ _ hnone => Or.inl hnone, fun _ => ⟨fun answers client hnone => Or.inl ?_, fun _ => trivial⟩⟩
    unfold finishRecovery
    dsimp only
    split
    · exact hnone
    · exact hnone
    · split
      · exact hnone
      · split <;> exact hnone
  | retry => exact toward_retryExecutionRecovery

/-- The next step of the program, while the tracker goes on, asks for the status or
takes the answer. -/
def Requests (task : Nat) (program : SendProg Unit) : Prop :=
  ∀ answers client tracker, client.trackers task = some tracker → tracker.stopped = false → tracker.completed = false →
    ∃ added, (program.step answers client).2.log = client.log ++ added ∧
      (.asked task ∈ added ∨ ∃ answer, .polled task answer ∈ added)

theorem log_finishPoll {tracker : SendTracker} (answers : SendAnswers) (htracker : client.trackers task = some tracker) :
    ∃ rest, (finishPoll task answers client).2.log = client.log ++ .polled task answers.status :: rest := by
  unfold finishPoll
  rw [htracker]
  dsimp only
  split
  · exact ⟨[], rfl⟩
  split
  next error herror =>
    rw [herror]
    unfold pollFailed
    dsimp only
    generalize (if isTransientPollFailure error = true then tracker.consecutiveTransientFailures + 1
      else tracker.consecutiveTransientFailures) = failures
    split
    · exact ⟨[], rfl⟩
    · exact ⟨[.onError tracker.callbacks error], List.append_assoc _ _ _⟩
  next status hstatus =>
    rw [hstatus]
    split
    · exact ⟨[], rfl⟩
    unfold pollSucceeded
    dsimp only
    have htold : ∃ rest, (if isMeaningfulChange tracker.previous status = true then
        (client.note (.polled task (.ok status))).note (.onStatus tracker.callbacks status)
        else client.note (.polled task (.ok status))).log = client.log ++ .polled task (.ok status) :: rest := by
      split
      · exact ⟨[.onStatus tracker.callbacks status], List.append_assoc _ _ _⟩
      · exact ⟨[], rfl⟩
    obtain ⟨rest, hrest⟩ := htold
    split
    · split
      · exact ⟨rest, hrest⟩
      · exact ⟨rest ++ [.onComplete tracker.callbacks status], by
          simp only [SendClient.note, SendClient.clearRecoveryState, SendClient.setTracker] at hrest ⊢
          rw [hrest, List.append_assoc, List.cons_append]⟩
    · exact ⟨rest, hrest⟩

/-- A task that polls asks or takes an answer at once, or after a step that changes
nothing. -/
theorem requests_polling {program : SendProg Unit} (h : Polling task program) (hgoing : program ≠ .ret ()) :
    Requests task program ∨
      ∀ answers client, (program.step answers client).2 = client ∧ Requests task (program.step answers client).1 := by
  have hasking : Requests task (.act (startPoll task) (startedRest task)) := by
    intro answers client tracker htracker hstopped hcompleted
    refine ⟨[.asked task], ?_, Or.inl (List.mem_singleton.mpr rfl)⟩
    change (startPoll task answers client).2.log = _
    unfold startPoll
    rw [htracker]
    dsimp only
    rw [hstopped, hcompleted]
    rfl
  cases h with
  | waiting =>
    refine Or.inr fun answers client => ?_
    rw [step_waiting]
    exact ⟨rfl, hasking⟩
  | asking => exact Or.inl hasking
  | asked =>
    refine Or.inl fun answers client tracker htracker _ _ => ?_
    obtain ⟨rest, hlog⟩ := log_finishPoll answers htracker
    exact ⟨_, hlog, Or.inr ⟨answers.status, List.mem_cons_self⟩⟩
  | done => exact absurd rfl hgoing

end Points

section Runs

theorem compatible : Compatible logic Inv (fun _ => False) Fresh where
  inv_eq := fun _ => rfl
  halt_eq := fun _ => rfl
  mutual_rely := fun _ j _ _ hij hguar => hguar j hij.symm
  pre_stable := fun _ => stable_fresh

theorem inv_initial : Inv .initial := ⟨always_nil, fun _ _ h => by cases h⟩

theorem concluding_of_run {c : Config SendClient SendAnswers} (h : SendRun c) :
    Concluding logic Inv Fresh Over c :=
  (concluding_reachable compatible (fun _ hhalt => hhalt.elim) (fun _ _ htask => sendTask_valid htask) inv_initial
    (fun _ => ⟨rfl, fun _ hmem => by cases hmem⟩) h).resolve_left id

theorem polling_of_run {c : Config SendClient SendAnswers} (h : SendRun c) {task : Nat} {program : SendProg Unit}
    (hthread : c.threads[task]? = some program) {tracker : SendTracker} (htracker : c.state.trackers task = some tracker) :
    Polling task program := by
  have hstable (i : Nat) : Stable (logic i) (fun client => client.trackers i = none) := by
    rintro client next - - haside hnone
    obtain hsame | ⟨other, hother, -⟩ := haside.tracker
    · rw [hsame, hnone]
    · rw [hnone] at hother
      cases hother
  have harriving := arriving_reachable (D := Polling) compatible (fun _ hhalt => hhalt) (fun _ _ htask => sendTask_valid htask) inv_initial
    (fun _ => ⟨rfl, fun _ hmem => by cases hmem⟩) hstable (fun _ _ hfresh => hfresh.1)
    (fun _ _ answers client hpolling => polling_step hpolling answers client) (fun _ _ htask => toward_sendTask htask) h hthread
  obtain ⟨hnone, -⟩ | hpolling := harriving
  · rw [hnone] at htracker
    cases htracker
  · exact hpolling

def busyAnswers : SendAnswers := ⟨.ok "one", .error (.network "Failed to fetch")⟩

/-- A send is accepted, and its first poll fails. -/
def pollingRun : Config SendClient SendAnswers :=
  (⟨.initial, [] ++ [sendMacro 0]⟩ : Config SendClient SendAnswers).runSchedule sendSystem.stopped
    (List.replicate 5 (0, busyAnswers))

theorem run_pollingRun : SendRun pollingRun := by
  have hstart : SendRun ⟨.initial, [] ++ [sendMacro 0]⟩ := by
    apply reachable_start .init rfl
    intro i p hp
    cases i with
    | zero =>
      cases hp
      exact .send 0
    | succ => cases hp
  exact reachable_runSchedule hstart _

end Runs

end MacroKeyboard.Webapp.Tracking
