import Mathlib

namespace Threads.Monitor

abbrev Log (κ η : Type) : Type := List (κ × η)

variable {κ η ρ : Type} [DecidableEq κ]

def project (log : Log κ η) (key : κ) : List η :=
  log.filterMap (fun entry => if entry.1 = key then some entry.2 else none)

@[simp] theorem project_nil (key : κ) : project ([] : Log κ η) key = [] := rfl

theorem project_append (front back : Log κ η) (key : κ) :
    project (front ++ back) key = project front key ++ project back key :=
  List.filterMap_append

@[simp] theorem project_singleton_self (key : κ) (event : η) : project [(key, event)] key = [event] := by
  simp [project]

theorem project_singleton_ne {key other : κ} (h : other ≠ key) (event : η) :
    project [(other, event)] key = [] := by
  simp [project, h]

theorem mem_project {log : Log κ η} {key : κ} {event : η} :
    event ∈ project log key ↔ (key, event) ∈ log := by
  unfold project
  rw [List.mem_filterMap]
  constructor
  · rintro ⟨⟨k, e⟩, hmem, heq⟩
    split_ifs at heq with hk
    cases heq
    rwa [← hk]
  · intro h
    exact ⟨(key, event), h, by simp⟩

def follow (advance : ρ → η → Option ρ) (start : ρ) (word : List η) : Option ρ :=
  word.foldlM advance start

variable {advance : ρ → η → Option ρ} {start : ρ}

@[simp] theorem follow_nil : follow advance start [] = some start := rfl

theorem follow_append (front back : List η) :
    follow advance start (front ++ back) =
      (follow advance start front).bind (fun r => follow advance r back) := by
  simp only [follow, List.foldlM_append]
  rfl

theorem follow_concat (word : List η) (event : η) :
    follow advance start (word ++ [event]) =
      (follow advance start word).bind (fun r => advance r event) := by
  rw [follow_append]
  congr 1
  funext r
  simp [follow]

def runOf (advance : ρ → η → Option ρ) (start : ρ) (log : Log κ η) (key : κ) : Option ρ :=
  follow advance start (project log key)

@[simp] theorem runOf_nil (key : κ) : runOf advance start ([] : Log κ η) key = some start := rfl

theorem runOf_concat_self {log : Log κ η} {key : κ} {event : η} {r : ρ}
    (h : runOf advance start log key = some r) :
    runOf advance start (log ++ [(key, event)]) key = advance r event := by
  unfold runOf at *
  rw [project_append, project_singleton_self, follow_concat, h, Option.bind_some]

theorem runOf_concat_ne {log : Log κ η} {key other : κ} {event : η} (h : other ≠ key) :
    runOf advance start (log ++ [(other, event)]) key = runOf advance start log key := by
  unfold runOf
  rw [project_append, project_singleton_ne h, List.append_nil]

/-- Induction over an accepted word: what holds of the start and is kept by
every accepted event holds of the whole word. -/
theorem follow_induction {P : List η → ρ → Prop} (hstart : P [] start)
    (hstep : ∀ word r event r', P word r → advance r event = some r' → P (word ++ [event]) r')
    {word : List η} {r : ρ} (h : follow advance start word = some r) : P word r := by
  induction word using List.reverseRecOn generalizing r with
  | nil =>
    cases h
    exact hstart
  | append_singleton front event ih =>
    rw [follow_concat] at h
    obtain ⟨r₀, h₀, hlast⟩ := Option.bind_eq_some_iff.mp h
    exact hstep front r₀ event r (ih h₀) hlast

/-- Whenever an event occurs, `G` holds of it and the events before it. -/
def Always (G : List η → η → Prop) (word : List η) : Prop :=
  ∀ past event rest, word = past ++ event :: rest → G past event

theorem append_singleton_eq {word front back : List η} {event other : η} :
    word ++ [event] = front ++ other :: back ↔
      (back = [] ∧ front = word ∧ other = event) ∨
        ∃ middle, back = middle ++ [event] ∧ word = front ++ other :: middle := by
  constructor
  · intro h
    rcases List.eq_nil_or_concat back with rfl | ⟨middle, last, rfl⟩
    · obtain ⟨hfront, hlast⟩ := List.append_inj' h rfl
      exact Or.inl ⟨rfl, hfront.symm, (List.cons.inj hlast).1.symm⟩
    · rw [List.concat_eq_append, ← List.cons_append, ← List.append_assoc] at h
      obtain ⟨hfront, hlast⟩ := List.append_inj' h rfl
      exact Or.inr ⟨middle, by rw [List.concat_eq_append, (List.cons.inj hlast).1], hfront⟩
  · rintro (⟨rfl, rfl, rfl⟩ | ⟨middle, rfl, rfl⟩)
    · rfl
    · rw [List.append_assoc, List.cons_append]

theorem always_nil {G : List η → η → Prop} : Always G [] := fun past event rest h => by simp at h

theorem Always.append {G : List η → η → Prop} {word : List η} (h : Always G word) {event : η} (hlast : G word event) :
    Always G (word ++ [event]) := by
  intro past other rest hsplit
  rcases append_singleton_eq.mp hsplit with ⟨-, rfl, rfl⟩ | ⟨middle, -, hword⟩
  · exact hlast
  · exact h past other middle hword

/-- An accepted word splits at any place into an accepted prefix and the rest,
read from the state the prefix reaches. -/
theorem follow_split {front back : List η} {r : ρ}
    (h : follow advance start (front ++ back) = some r) :
    ∃ r₀, follow advance start front = some r₀ ∧ follow advance r₀ back = some r := by
  rw [follow_append] at h
  exact Option.bind_eq_some_iff.mp h

end Threads.Monitor
