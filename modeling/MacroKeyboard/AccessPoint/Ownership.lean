import MacroKeyboard.AccessPoint.Engine
import MacroKeyboard.Threads.Parts

namespace MacroKeyboard.AccessPoint

open Device Threads.Program Threads.Monitor Threads.RelyGuarantee

section Statements

/-- A resource is acquired when it is not held, and released when it is. -/
def use (resource : Resource) (held : Bool) : Use → Option Bool
  | .acquire result => if held then none else some (heldAfterAcquire resource result)
  | .release result => if held then some (result ≠ .none) else none

def Owned (caller : CallerState) : Prop :=
  ∀ resource, runOf (use resource) false caller.history resource = some (caller.flags.holds resource)

def firstErrorOf (results : List AppError) : AppError := (results.find? (· ≠ .none)).getD .none

/-- A stop tries to release what is held, each resource once and in order, reports
the first error, and leaves what it could not release. -/
def StopsProperly (held : List Resource) (uses : Log Resource Use) (result : AppError) (left : List Resource) : Prop :=
  ∃ attempts : List (Resource × AppError), uses = attempts.map (fun attempt => (attempt.1, .release attempt.2)) ∧
    attempts.map Prod.fst = held ∧ result = firstErrorOf (attempts.map Prod.snd) ∧
    left = (attempts.filter (fun attempt => attempt.2 ≠ .none)).map Prod.fst ∧ (result = .none → left = [])

def CallRecord.Proper : CallRecord → Prop
  | .start _ _ _ _ => True
  | .stop held uses result left => StopsProperly held uses result left

/-- Whether the last call, starts that were refused apart, is a stop that reported
success. -/
def CallRecord.leavesStopped (before : Bool) : CallRecord → Bool
  | .start _ _ accepted _ => before && !accepted
  | .stop _ _ result _ => result = .none

def stoppedBy (calls : List CallRecord) : Bool := calls.foldl CallRecord.leavesStopped false

/-- After a stop that reported success, a start with a valid configuration is
accepted. -/
def Restarts (calls : List CallRecord) : Prop :=
  ∀ front ssid passphrase accepted result back, calls = front ++ .start ssid passphrase accepted result :: back →
    stoppedBy front = true → (makeConfiguration ssid passphrase).toOption.isSome → accepted = true

def Idle (status : WifiApStatus) : Prop :=
  (status.state = .stopped ∨ status.state = .error) ∧ status.clientCount = 0

structure Sound (world : World) : Prop where
  owned : Owned world.caller
  clients : world.status.clientCount ≤ 4
  stops : ∀ call ∈ world.caller.calls, call.Proper

/-- What holds as long as no event handler writes back a status that a call has
replaced. -/
structure Steady (world : World) : Prop where
  restarts : Restarts world.caller.calls
  idle : world.caller.inCall = false → (∀ resource, world.caller.flags.holds resource = false) → Idle world.status

/-- The event makes of the status that is published what it makes of the one that
its handler has read. -/
def Fresh (write : WriteBack) : Prop := write.event.apply write.read = write.event.apply write.found

def Undisturbed (world : World) : Prop := ∀ write ∈ world.writeBacks, Fresh write

end Statements

section Caller

variable {caller : CallerState} {resource : Resource} {result : AppError}

theorem owned_acquired (h : Owned caller) (hfree : caller.flags.holds resource = false) :
    Owned (caller.acquired resource result) := by
  intro other
  have hbefore := h other
  by_cases hother : resource = other
  · subst hother
    rw [hfree] at hbefore
    rw [CallerState.acquired, runOf_concat_self hbefore, use, if_neg Bool.false_ne_true]
    split_ifs with hheld
    · rw [Ownership.holds_set, if_pos rfl, hheld]
    · rw [hfree, Bool.eq_false_iff.mpr hheld]
  · rw [CallerState.acquired, runOf_concat_ne hother, hbefore]
    split_ifs
    · rw [Ownership.holds_set, if_neg (Ne.symm hother)]
    · rfl

theorem holds_released (caller : CallerState) (resource other : Resource) (result : AppError) :
    (caller.released resource result).flags.holds other =
      if other = resource ∧ result = .none then false else caller.flags.holds other := by
  by_cases hresult : result = .none
  · simp only [CallerState.released, hresult, if_true, Ownership.holds_set, and_true]
  · simp only [CallerState.released, hresult, if_false, and_false]

theorem owned_released (h : Owned caller) (hheld : caller.flags.holds resource = true) :
    Owned (caller.released resource result) := by
  intro other
  have hbefore := h other
  rw [holds_released]
  by_cases hother : resource = other
  · subst hother
    rw [hheld] at hbefore ⊢
    rw [CallerState.released, runOf_concat_self hbefore, use, if_pos rfl]
    by_cases hresult : result = .none <;> simp [hresult]
  · rw [CallerState.released, runOf_concat_ne hother, hbefore, if_neg (fun h => hother h.1.symm)]

end Caller

section Cleanup

variable {before caller after : CallerState} {order : List Resource} {resource : Resource}
  {firstError result error : AppError} {attempts : List (Resource × AppError)}

theorem firstErrorOf_cons (error : AppError) (results : List AppError) :
    firstErrorOf (error :: results) = if error = .none then firstErrorOf results else error := by
  by_cases h : error = .none <;> simp [firstErrorOf, h]

theorem firstErrorOf_recordFirstError (candidate firstError : AppError) (results : List AppError) :
    firstErrorOf (recordFirstError candidate firstError :: results) = firstErrorOf (firstError :: candidate :: results) := by
  rw [recordFirstError]
  by_cases hcandidate : candidate = .none <;> by_cases hfirst : firstError = .none <;>
    simp [firstErrorOf_cons, hcandidate, hfirst]

/-- What a cleanup of these resources has done. -/
structure Cleaned (order : List Resource) (before : CallerState) (firstError result : AppError)
    (attempts : List (Resource × AppError)) (after : CallerState) : Prop where
  history : after.history = before.history ++ attempts.map (fun attempt => (attempt.1, .release attempt.2))
  calls : after.calls = before.calls
  inCall : after.inCall = before.inCall
  accepted : after.accepted = before.accepted
  tried : attempts.map Prod.fst = order.filter before.flags.holds
  left : order.filter after.flags.holds = (attempts.filter (fun attempt => attempt.2 ≠ .none)).map Prod.fst
  others : ∀ other, other ∉ order → after.flags.holds other = before.flags.holds other
  result : result = firstErrorOf (firstError :: attempts.map Prod.snd)

theorem cleaned_nil : Cleaned [] before firstError firstError [] before where
  history := (List.append_nil _).symm
  calls := rfl
  inCall := rfl
  accepted := rfl
  tried := rfl
  left := rfl
  others := fun _ _ => rfl
  result := by
    rw [List.map_nil, firstErrorOf_cons]
    split_ifs with h
    · exact h
    · rfl

theorem Cleaned.free (h : Cleaned order before firstError result attempts after) (hfree : before.flags.holds resource = false)
    (hnew : resource ∉ order) : Cleaned (resource :: order) before firstError result attempts after where
  history := h.history
  calls := h.calls
  inCall := h.inCall
  accepted := h.accepted
  tried := by rw [h.tried, List.filter_cons, hfree, if_neg Bool.false_ne_true]
  left := by rw [List.filter_cons, h.others resource hnew, hfree, if_neg Bool.false_ne_true, h.left]
  others := fun other hother => h.others other (fun hmem => hother (List.mem_cons_of_mem _ hmem))
  result := h.result

theorem Cleaned.held (h : Cleaned order (before.released resource error) (recordFirstError error firstError) result attempts after)
    (hheld : before.flags.holds resource = true) (hnew : resource ∉ order) :
    Cleaned (resource :: order) before firstError result ((resource, error) :: attempts) after where
  history := by
    rw [h.history, CallerState.released, List.append_assoc]
    rfl
  calls := h.calls
  inCall := h.inCall
  accepted := h.accepted
  tried := by
    have hsame : order.filter (before.released resource error).flags.holds = order.filter before.flags.holds := by
      apply List.filter_congr
      intro other hmem
      rw [holds_released, if_neg]
      rintro ⟨rfl, -⟩
      exact hnew hmem
    rw [List.map_cons, h.tried, hsame, List.filter_cons, if_pos hheld]
  left := by
    rw [List.filter_cons, h.others resource hnew, holds_released, h.left]
    by_cases herror : error = .none <;> simp [herror, hheld]
  others := fun other hother => by
    rw [List.mem_cons, not_or] at hother
    rw [h.others other hother.2, holds_released, if_neg (fun hsame => hother.1 hsame.1)]
  result := by rw [h.result, firstErrorOf_recordFirstError, List.map_cons]

end Cleanup

section Events

variable {event : WifiApEvent} {status next : WifiApStatus}

theorem apply_stopped (h : event.apply status = some next) (hstopped : status.state = .stopped) : next.state = .stopped := by
  cases event <;> simp only [WifiApEvent.apply, Option.some.injEq, reduceCtorEq] at h <;> rw [← h] <;>
    simp [hstopped]

theorem apply_idle (h : event.apply status = some next) (hidle : Idle status) : Idle next := by
  obtain ⟨hstate, hclients⟩ := hidle
  rcases hstate with hstate | hstate <;> cases event <;>
    simp only [WifiApEvent.apply, Option.some.injEq, reduceCtorEq] at h <;> rw [← h] <;> simp [Idle, hstate, hclients]

theorem apply_clients (h : event.apply status = some next) (hclients : status.clientCount ≤ 4) : next.clientCount ≤ 4 := by
  cases event <;> simp only [WifiApEvent.apply, Option.some.injEq, reduceCtorEq] at h <;> rw [← h]
  · split_ifs <;> exact hclients
  · exact Nat.zero_le _
  · split_ifs with hroom
    · exact hroom.2
    · exact hclients
  · split_ifs
    · exact (Nat.sub_le _ _).trans hclients
    · exact hclients

end Events

end MacroKeyboard.AccessPoint
