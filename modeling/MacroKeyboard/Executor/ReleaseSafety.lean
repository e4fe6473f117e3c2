import MacroKeyboard.Executor.Safety

namespace MacroKeyboard.Executor.ReleaseSafety

open Threads.Program Threads.Monitor

def isPress : Event → Bool
  | .pressed _ _ _ => true
  | _ => false

def isRelease : Event → Bool
  | .released _ => true
  | _ => false

def isTerminal : ExecutionState → Bool
  | .completed | .cancelled | .failed | .timedOut => true
  | _ => false

/-- The run records its terminal state, or leaves the engine. -/
def endsRun : Event → Bool
  | .published state => isTerminal state
  | .returned _ => true
  | _ => false

/-- Every press so far has been followed by a release. -/
def KeysUp (past : List Event) : Prop :=
  ∀ front press back, past = front ++ press :: back → isPress press = true →
    ∃ release ∈ back, isRelease release = true

theorem keysUp_nil : KeysUp [] := by
  intro front press back h
  simp at h

theorem keysUp_concat {past : List Event} {event : Event} (h : KeysUp past)
    (hpress : isPress event = false) : KeysUp (past ++ [event]) := by
  intro front press back hpast hp
  rcases append_singleton_eq.mp hpast with ⟨-, -, rfl⟩ | ⟨middle, rfl, hmiddle⟩
  · rw [hp] at hpress
    cases hpress
  · obtain ⟨release, hmem, hr⟩ := h front press middle hmiddle hp
    exact ⟨release, List.mem_append_left _ hmem, hr⟩

theorem keysUp_released {past : List Event} {event : Event} (h : isRelease event = true) :
    KeysUp (past ++ [event]) := by
  intro front press back hpast hp
  rcases append_singleton_eq.mp hpast with ⟨-, -, rfl⟩ | ⟨middle, rfl, -⟩
  · cases press <;> simp_all [isPress, isRelease]
  · exact ⟨event, by simp, h⟩

theorem holding_until_released {r : Run} {event : Event} (ha : r.allows event)
    (hs : r.progress.stage = .holding) (hr : isRelease event = false) :
    (r.after event).progress.stage = .holding := by
  cases event <;> simp_all [Run.allows, Stage.next, isRelease, Stage.afterRead,
    Stage.fails, Stage.mayFree, Stage.holder, Progress.finished, Progress.refused]

theorem keysUp_of_traces {word : List Event} {r : Run} (h : Traces word r) :
    r.progress.stage ≠ .holding → KeysUp word := by
  refine Traces.induction (P := fun word r => r.progress.stage ≠ .holding → KeysUp word)
    (fun _ => keysUp_nil) ?_ h
  intro word r event _ ih ha hs
  by_cases hr : isRelease event = true
  · exact keysUp_released hr
  · have hkept : r.progress.stage ≠ .holding := fun hh =>
      hs (holding_until_released ha hh (by simpa using hr))
    refine keysUp_concat (ih hkept) ?_
    cases event with
    | pressed modifiers usages result => exact absurd rfl hs
    | _ => rfl

theorem not_holding {r : Run} {event : Event} (ha : r.allows event)
    (he : isPress event = true ∨ endsRun event = true) : r.progress.stage ≠ .holding := by
  intro hs
  cases event <;> simp_all [Run.allows, isPress, endsRun]

/-- HID release safety: whenever an execution presses, records its terminal
state or returns, every press it issued before has been followed by a release. -/
theorem keysUp_before_press_and_end {c : Config World Env} (h : ExecutorReachable c) (t : Ticket) :
    Always (fun past event => isPress event = true ∨ endsRun event = true → KeysUp past)
      (project c.state.log t) := by
  obtain ⟨r, hr⟩ := traces_of_reachable h t
  intro past event rest hword he
  rw [hword] at hr
  obtain ⟨r₀, hpast, ha⟩ := hr.past
  exact keysUp_of_traces hpast (not_holding ha he)

/-- A run that types `a`, with a release that fails. -/
def typingRun : Config World Env :=
  deviceRun [.send ⟨bytes "a", 8, 15⟩]
    (turns 2 12 fineEnv ++ turns 0 20 fineEnv ++ turns 0 20 { fineEnv with result := .io })

theorem keysUp_typingRun : (2, Event.pressed 0 [4] .none) ∈ typingRun.state.log ∧
    (2, Event.published .failed) ∈ typingRun.state.log ∧
    Always (fun past event => isPress event = true ∨ endsRun event = true → KeysUp past)
      (project typingRun.state.log 2) :=
  ⟨by decide +kernel, by decide +kernel, keysUp_before_press_and_end (c := typingRun) (deviceRun_reachable _ _) 2⟩

end MacroKeyboard.Executor.ReleaseSafety
