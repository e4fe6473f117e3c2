import MacroKeyboard.Auth.ThrottledRuns

namespace MacroKeyboard.Auth.Throttling

open Lifetimes Eviction AuthRateLimitEntry

section Lockouts

variable {source : UInt32} {calls : AuthCalls} {core next : AuthCore} {effect : Effect} {slot deadline : Nat}

def LockedUntil (source : UInt32) (deadline slot : Nat) (table : List AuthRateLimitEntry) : Prop :=
  ∃ entry, Holds source table slot entry ∧ entry.lockoutUntilUs = deadline

theorem locked_of_lockedUntil {now : Nat} {entry : AuthRateLimitEntry} (huntil : entry.lockoutUntilUs = deadline)
    (hnow : now < deadline) : entry.locked now = true := by
  simpa [AuthRateLimitEntry.locked, huntil] using hnow

theorem prune_locked {now : Nat} {entry : AuthRateLimitEntry} (h : now < entry.lockoutUntilUs) :
    (entry.pruneFailures now).lockoutUntilUs = entry.lockoutUntilUs := by
  unfold pruneFailures
  split
  · rfl
  · have hkept : entry.clearExpiredLockout now = entry := if_neg fun hexpired => by omega
    dsimp only
    rw [hkept]
    split <;> rfl

theorem Kept.lockedUntil {now : Nat} {before after : List AuthRateLimitEntry} (h : Kept now before after slot)
    (hlocked : LockedUntil source deadline slot before) (hnow : now < deadline) : LockedUntil source deadline slot after := by
  obtain ⟨entry, hholds, huntil⟩ := hlocked
  obtain hheld | hheld := h.held hholds
  · exact ⟨entry, hheld, huntil⟩
  · exact ⟨_, hheld, (prune_locked (huntil ▸ hnow)).trans huntil⟩

/-- Nothing takes the slot of a locked entry before its time but a success of its source. -/
theorem LockedUntil.change (h : LockedUntil source deadline slot core.rateLimits) (hchange : Change calls core next effect)
    (hnow : next.lastNowUs < deadline) (hsuccess : effect ≠ .cleared source) :
    LockedUntil source deadline slot next.rateLimits := by
  obtain ⟨entry, hholds, huntil⟩ := h
  have hlocked {now : Nat} (hlt : now < deadline) : entry.locked now = true := locked_of_lockedUntil huntil hlt
  have hstays : LockedUntil source deadline slot core.rateLimits := ⟨entry, hholds, huntil⟩
  cases hchange with
  | aside haside => exact haside.1 ▸ hstays
  | absent habsent haside => exact haside.1 ▸ hstays
  | @pruned hreads other taken old hold hlast htakes =>
    rw [hlast] at hnow
    by_cases hslot : slot = taken
    · rw [← hslot] at hold htakes
      have hentry := hold.eq hholds.get
      rw [hentry] at htakes
      have hpruned := prune_active calls.nowUs.toNat entry
      refine ⟨_, ⟨htakes.here, hpruned.1.trans hholds.active, hpruned.2.trans hholds.source⟩, ?_⟩
      exact (prune_locked (huntil ▸ hnow)).trans huntil
    · exact Kept.lockedUntil (htakes.others slot hslot) hstays hnow
  | @recorded hreads other taken old hold hunlocked hlast htakes =>
    rw [hlast] at hnow
    have hslot : slot ≠ taken := fun hslot => by
      rw [← hslot] at hold
      rw [hold.eq hholds.get, hlocked hnow] at hunlocked
      cases hunlocked
    exact Kept.lockedUntil (htakes.others slot hslot) hstays hnow
  | @taken hreads other habsent taken old hget hfree hlast htakes =>
    rw [hlast] at hnow
    have hslot : slot ≠ taken := fun hslot => by
      rw [← hslot] at hget
      rw [← hholds.eq hget, hholds.active, hlocked hnow] at hfree
      obtain hinactive | ⟨-, hunlocked⟩ := hfree
      · cases hinactive
      · cases hunlocked
    exact Kept.lockedUntil (htakes.others slot hslot) hstays hnow
  | full hreads hlast htable =>
    rw [htable]
    rw [hlast] at hnow
    exact (kept_map _ _ slot).lockedUntil hstays hnow
  | @removed other taken old hold hlast htable =>
    rw [htable]
    have hslot : slot ≠ taken := fun hslot => by
      rw [← hslot] at hold
      have hentry := hold.eq hholds.get
      rw [hentry] at hold
      exact hsuccess (congrArg Effect.cleared (hold.source.symm.trans hholds.source))
    exact ⟨entry, ⟨(List.getElem?_set_ne hslot.symm).trans hholds.get, hholds.active, hholds.source⟩, huntil⟩

theorem lockedUntil_run (run more : List (AuthCalls × AuthOperation))
    (h : LockedUntil source deadline slot (runOperations run).1.rateLimits)
    (hsuccess : ∀ step ∈ more, step.2 ≠ .recordSuccess source) (hnow : (runOperations (run ++ more)).1.lastNowUs < deadline) :
    LockedUntil source deadline slot (runOperations (run ++ more)).1.rateLimits := by
  induction more using List.reverseRecOn with
  | nil => rwa [List.append_nil]
  | append_singleton more step ih =>
    rw [← List.append_assoc] at hnow ⊢
    obtain ⟨effect, hchange, -, -, hcleared⟩ := change_apply step.1 (runOperations (run ++ more)).1 step.2
    rw [runOperations_concat] at hnow ⊢
    have hprefix := ih (fun earlier hmem => hsuccess earlier (List.mem_append_left _ hmem))
      ((hchange.lastNow_le (clocked_run _)).trans_lt hnow)
    refine hprefix.change hchange hnow fun heffect => ?_
    exact hsuccess step (List.mem_append_right _ List.mem_cons_self) (hcleared source heffect)

theorem LockedUntil.refused (h : LockedUntil source deadline slot core.rateLimits) (hseated : Seated core.rateLimits)
    (hreads : Reads calls core) (hnow : calls.nowUs.toNat < deadline) :
    (core.loginAttemptAllowed calls source).1 = .rateLimited ∧
      (core.loginAttemptAllowed calls source).2.1 = retrySeconds (deadline - calls.nowUs.toNat) ∧
      (core.loginRecordFailure calls source).1 = .rateLimited := by
  obtain ⟨entry, hholds, huntil⟩ := h
  have hlocked := locked_of_lockedUntil huntil hnow
  have hsame {other : Nat} {old : AuthRateLimitEntry} (hold : Holds source core.rateLimits other old) : old = entry := by
    have hslot := hseated.distinct hold hholds
    rw [hslot] at hold
    exact hold.eq hholds.get
  have hattempt : (core.loginAttemptAllowed calls source).1 = .rateLimited ∧
      (core.loginAttemptAllowed calls source).2.1 = retrySeconds (deadline - calls.nowUs.toNat) := by
    obtain ⟨hnot, -⟩ | ⟨-, habsent, -⟩ | ⟨-, other, old, hold, heq⟩ := attemptAllowed_cases source calls core
    · exact absurd hreads hnot
    · exact absurd habsent hholds.not_absent
    · rw [heq, hsame hold, hlocked, prune_locked (huntil ▸ hnow), huntil]
      exact ⟨rfl, rfl⟩
  refine ⟨hattempt.1, hattempt.2, ?_⟩
  cases recordFailure_outcome source calls core with
  | unread hnot heq => exact absurd hreads hnot
  | held _ _ _ heq => rw [heq]
  | added _ hold hunlocked heq =>
    rw [hsame hold, hlocked] at hunlocked
    cases hunlocked
  | taken _ habsent hget hfree htakes heq => exact absurd habsent hholds.not_absent
  | full _ habsent hfull heq => exact absurd habsent hholds.not_absent

/-- A source without an entry is let through, and its failure is not recorded while
every entry is locked. -/
theorem unrecorded_of_full (habsent : Absent source core.rateLimits) (hreads : Reads calls core)
    (hfull : ∀ entry ∈ core.rateLimits, entry.active = true ∧ entry.locked calls.nowUs.toNat = true) :
    (core.loginAttemptAllowed calls source).1 = .none ∧ (core.loginRecordFailure calls source).1 = .rateLimited := by
  constructor
  · obtain ⟨hnot, -⟩ | ⟨-, -, heq⟩ | ⟨-, other, old, hold, heq⟩ := attemptAllowed_cases source calls core
    · exact absurd hreads hnot
    · rw [heq]
    · exact absurd habsent hold.not_absent
  · cases recordFailure_outcome source calls core with
    | unread hnot heq => exact absurd hreads hnot
    | held _ hold hlocked heq => rw [heq]
    | added _ hold hunlocked heq => exact absurd habsent hold.not_absent
    | taken _ _ hget hfree htakes heq =>
      have hentry := hfull _ (List.mem_of_getElem? hget)
      rw [hentry.1, hentry.2] at hfree
      obtain hinactive | ⟨-, hunlocked⟩ := hfree
      · cases hinactive
      · cases hunlocked
    | full _ _ _ heq => rw [heq]

end Lockouts

/-- In every run, a lockout stands until its time whatever the other sources do: until
its own source succeeds it is refused, and its failures are not recorded. But while all
eight entries are locked, a source that has none is let through at every attempt, and
none of its failures is recorded. -/
theorem lockouts_stand (run more : List (AuthCalls × AuthOperation)) (deadline : Nat) (calls : AuthCalls)
    (hreads : Reads calls (runOperations (run ++ more)).1) (hnow : calls.nowUs.toNat < deadline) :
    (∀ source slot, LockedUntil source deadline slot (runOperations run).1.rateLimits →
      (∀ step ∈ more, step.2 ≠ .recordSuccess source) →
      ((runOperations (run ++ more)).1.loginAttemptAllowed calls source).1 = .rateLimited ∧
      ((runOperations (run ++ more)).1.loginAttemptAllowed calls source).2.1 =
        retrySeconds (deadline - calls.nowUs.toNat) ∧
      ((runOperations (run ++ more)).1.loginRecordFailure calls source).1 = .rateLimited) ∧
    ∀ source, Absent source (runOperations run).1.rateLimits →
      (∀ entry ∈ (runOperations run).1.rateLimits, entry.active = true ∧ deadline ≤ entry.lockoutUntilUs) →
      (∀ step ∈ more, ∀ other, step.2 = .recordSuccess other → Absent other (runOperations run).1.rateLimits) →
      ((runOperations (run ++ more)).1.loginAttemptAllowed calls source).1 = .none ∧
      ((runOperations (run ++ more)).1.loginRecordFailure calls source).1 = .rateLimited := by
  have hlast : (runOperations (run ++ more)).1.lastNowUs ≤ calls.nowUs.toNat :=
    (Change.aside (aside_ticked hreads)).lastNow_le (clocked_run _)
  have hseated := seated_run (run ++ more)
  constructor
  · intro source slot hlocked hsuccess
    exact (lockedUntil_run run more hlocked hsuccess (hlast.trans_lt hnow)).refused hseated hreads hnow
  · intro source habsent hfull hsuccess
    -- each slot goes on holding the entry it had
    have hslots (i : Nat) (hlt : i < (runOperations (run ++ more)).1.rateLimits.length) :
        ∃ entry deadline', entry ∈ (runOperations run).1.rateLimits ∧ calls.nowUs.toNat < deadline' ∧
          LockedUntil entry.sourceIpv4 deadline' i (runOperations (run ++ more)).1.rateLimits := by
      rw [hseated.size, ← (seated_run run).size] at hlt
      have hmem := List.getElem_mem hlt
      obtain ⟨hactive, hlater⟩ := hfull _ hmem
      have hbefore := hnow.trans_le hlater
      have hholds : Holds _ (runOperations run).1.rateLimits i _ := ⟨List.getElem?_eq_getElem hlt, hactive, rfl⟩
      refine ⟨_, _, hmem, hbefore, lockedUntil_run run more ⟨_, hholds, rfl⟩ (fun step hstep heq => ?_)
        (hlast.trans_lt hbefore)⟩
      exact absurd (hsuccess step hstep _ heq) hholds.not_absent
    have hentries (entry : AuthRateLimitEntry) (hmem : entry ∈ (runOperations (run ++ more)).1.rateLimits) :
        entry.active = true ∧ entry.locked calls.nowUs.toNat = true ∧ entry.sourceIpv4 ≠ source := by
      obtain ⟨i, hget⟩ := List.getElem?_of_mem hmem
      obtain ⟨old, deadline', hold, hbefore, held, hheld, huntil⟩ := hslots i (List.getElem?_eq_some_iff.mp hget).1
      have hentry := hheld.eq hget
      rw [← hentry]
      refine ⟨hheld.active, locked_of_lockedUntil huntil hbefore, fun heq => ?_⟩
      exact habsent old hold (hfull old hold).1 (hheld.source.symm.trans heq)
    exact unrecorded_of_full (fun entry hmem _ => (hentries entry hmem).2.2) hreads
      fun entry hmem => ⟨(hentries entry hmem).1, (hentries entry hmem).2.1⟩

def eightLocked : List (AuthCalls × AuthOperation) :=
  (List.range 8).flatMap fun n => List.replicate 5 (atSeconds 1, .recordFailure (.ofNat n))

def ninthFails : List (AuthCalls × AuthOperation) := List.replicate 6 (atSeconds 2, .recordFailure 8)

theorem lockouts_stand_eight :
    ((runOperations (eightLocked ++ ninthFails)).1.loginAttemptAllowed (atSeconds 2) 0).1 = .rateLimited ∧
    ((runOperations (eightLocked ++ ninthFails)).1.loginAttemptAllowed (atSeconds 2) 8).1 = .none := by
  have hstand := lockouts_stand eightLocked ninthFails 301000000 (atSeconds 2) ⟨rfl, rfl, by decide +kernel⟩
    (by decide +kernel)
  have hsuccess (step : AuthCalls × AuthOperation) (hmem : step ∈ ninthFails) (source : UInt32) :
      step.2 ≠ .recordSuccess source := by
    rw [List.eq_of_mem_replicate hmem]
    nofun
  constructor
  · refine (hstand.1 0 0 ⟨(runOperations eightLocked).1.rateLimits.getD 0 .cleared, ⟨?_, ?_, ?_⟩, ?_⟩
      fun step hmem => hsuccess step hmem 0).1
    · decide +kernel
    · decide +kernel
    · decide +kernel
    · decide +kernel
  · refine (hstand.2 8 (fun entry hmem _ => ?_) (fun entry hmem => ?_) fun step hmem other heq =>
      absurd heq (hsuccess step hmem other)).1
    · have hsources : ((runOperations eightLocked).1.rateLimits.all fun entry => entry.sourceIpv4 != 8) = true := by
        decide +kernel
      simpa using List.all_eq_true.mp hsources entry hmem
    · have hlocked : ((runOperations eightLocked).1.rateLimits.all fun entry =>
          entry.active && decide (301000000 ≤ entry.lockoutUntilUs)) = true := by decide +kernel
      simpa using List.all_eq_true.mp hlocked entry hmem

end MacroKeyboard.Auth.Throttling
