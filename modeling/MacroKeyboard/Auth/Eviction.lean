import MacroKeyboard.Auth.Lifetimes

namespace MacroKeyboard.Auth.Eviction

open Lifetimes AuthRateLimitEntry

section Fairness

/-- The operation is an attempt or a failure of the source that gets to read the clock. -/
def uses (calls : AuthCalls) (core : AuthCore) (source : UInt32) : AuthOperation → Bool
  | .attemptAllowed sourceIpv4 | .recordFailure sourceIpv4 =>
    calls.lock && calls.unlock && (core.readNow calls).isSome && sourceIpv4 == source
  | _ => false

def lastUsed (run : List (AuthCalls × AuthOperation)) (source : UInt32) : Nat :=
  (run.foldl (fun (state : AuthCore × Nat) step => (step.2.apply step.1 state.1,
    if uses step.1 state.1 source step.2 then step.1.nowUs.toNat else state.2)) (.init, 0)).2

/-- What an entry holds against its source: the failures of the last minute, and the
end of a lockout in force. -/
def standing (now : Nat) (entry : AuthRateLimitEntry) : UInt32 × List Nat × Nat :=
  (entry.sourceIpv4, entry.failuresUs.filter (fun failure => now - failure < failureWindowUs),
    if entry.locked now then entry.lockoutUntilUs else 0)

/-- The slot holds an entry that is not locked, and whose source was used least
recently among those of the entries that are not locked. -/
def LeastRecent (now : Nat) (used : UInt32 → Nat) (table : List AuthRateLimitEntry) (slot : Nat) : Prop :=
  ∃ entry, table[slot]? = some entry ∧ entry.locked now = false ∧
    ∀ other ∈ table, other.locked now = false → used entry.sourceIpv4 ≤ used other.sourceIpv4

/-- The source gets the slot of the least recent entry that is not locked, or none
when every entry is locked, and every other entry keeps its standing. -/
def Fair (now : Nat) (used : UInt32 → Nat) (source : UInt32) (before after : List AuthRateLimitEntry) : Prop :=
  ∃ victim : Option Nat, (victim = none → ∀ entry ∈ before, entry.locked now = true) ∧
    (∀ slot, victim = some slot → LeastRecent now used before slot ∧
      ∃ taken, after[slot]? = some taken ∧ taken.sourceIpv4 = source) ∧
    ∀ i entry, before[i]? = some entry → victim ≠ some i →
      ∃ kept, after[i]? = some kept ∧ standing now kept = standing now entry

/-- A failure of a source that has no entry in a full table, recorded at a time of
the clock. -/
structure Allocates (calls : AuthCalls) (core : AuthCore) (source : UInt32) : Prop where
  lock : calls.lock = true
  unlock : calls.unlock = true
  clock : core.clockInitialized = true → core.lastNowUs ≤ calls.nowUs.toNat
  full : ∀ entry ∈ core.rateLimits, entry.active = true
  absent : ∀ entry ∈ core.rateLimits, entry.sourceIpv4 ≠ source

end Fairness

section Table

variable {now : Nat} {entry : AuthRateLimitEntry} {table : List AuthRateLimitEntry}

/-- A lockout ends five minutes after the failures of its entry, and no failure is
later than the clock. -/
def Timed (clock : Nat) (entry : AuthRateLimitEntry) : Prop :=
  ∀ failure ∈ entry.failuresUs, failure ≤ clock ∧ (entry.lockoutUntilUs ≠ 0 → failure + lockoutUs ≤ entry.lockoutUntilUs)

theorem timed_fresh (clock : Nat) (source : UInt32) (now : Nat) : Timed clock (fresh source now) :=
  fun _ hmem => absurd hmem List.not_mem_nil

theorem timed_cleared (clock : Nat) : Timed clock .cleared := fun _ hmem => absurd hmem List.not_mem_nil

theorem Timed.mono {clock later : Nat} (h : Timed clock entry) (hle : clock ≤ later) : Timed later entry :=
  fun failure hmem => ⟨(h failure hmem).1.trans hle, (h failure hmem).2⟩

theorem locked_clearExpired : (entry.clearExpiredLockout now).locked now = entry.locked now := by
  unfold clearExpiredLockout
  split
  next h =>
    have hlocked : entry.locked now = false := by simpa [locked] using h.2
    rw [hlocked]
    rfl
  · rfl

theorem pruneFailures_of_active (now : Nat) (hactive : entry.active = true) :
    (entry.pruneFailures now).active = true ∧ (entry.pruneFailures now).sourceIpv4 = entry.sourceIpv4 ∧
    (entry.pruneFailures now).lastUsedUs = now ∧ (entry.pruneFailures now).locked now = entry.locked now := by
  have hcleared : (entry.clearExpiredLockout now).active = true ∧
      (entry.clearExpiredLockout now).sourceIpv4 = entry.sourceIpv4 := by
    unfold clearExpiredLockout
    split
    · exact ⟨rfl, rfl⟩
    · exact ⟨hactive, rfl⟩
  have hlocked : (entry.clearExpiredLockout now).locked now = entry.locked now := locked_clearExpired
  rw [pruneFailures, if_neg (not_not.mpr hactive)]
  dsimp only
  split
  · exact ⟨hcleared.1, hcleared.2, rfl, hlocked⟩
  · exact ⟨hcleared.1, hcleared.2, rfl, hlocked⟩

theorem Timed.prune {clock : Nat} (h : Timed clock entry) : Timed clock (entry.pruneFailures now) := by
  have hcleared : Timed clock (entry.clearExpiredLockout now) := by
    unfold clearExpiredLockout
    split
    · exact timed_fresh clock _ now
    · exact h
  unfold pruneFailures
  split
  · exact h
  · dsimp only
    split
    · exact hcleared
    · exact fun failure hmem => hcleared failure (List.mem_of_mem_filter hmem)

theorem standing_prune {clock : Nat} (h : Timed clock entry) : standing now (entry.pruneFailures now) = standing now entry := by
  unfold pruneFailures
  split
  · rfl
  have hcleared : standing now (entry.clearExpiredLockout now) = standing now entry := by
    unfold clearExpiredLockout
    split
    next hexpired =>
      have hnone : entry.failuresUs.filter (fun failure => now - failure < failureWindowUs) = [] := by
        rw [List.filter_eq_nil_iff]
        intro failure hmem
        have hlockout := (h failure hmem).2 hexpired.1
        rw [decide_eq_true_eq, failureWindowUs]
        rw [lockoutUs] at hlockout
        omega
      have hlocked : entry.locked now = false := by simpa [locked] using hexpired.2
      rw [standing, standing, hnone, hlocked]
      rfl
    · rfl
  rw [← hcleared]
  dsimp only
  split
  · rfl
  · simp [standing, locked]

theorem allocateLoop_some (hactive : ∀ entry ∈ table, entry.active = true) (index least : Nat) :
    allocateLoop now table index (some (least, now)) = (some least, table.map (pruneFailures · now)) := by
  induction table generalizing index with
  | nil => rfl
  | cons entry rest ih =>
    have hentry := pruneFailures_of_active now (hactive entry List.mem_cons_self)
    have hrest := ih (fun other hmem => hactive other (List.mem_cons_of_mem _ hmem)) (index + 1)
    rw [allocateLoop, if_neg (not_not.mpr (hactive entry List.mem_cons_self))]
    dsimp only
    rw [hentry.2.2.1, if_neg (lt_irrefl now), ite_self, hrest]
    rfl

/-- The pruning of a full table makes every entry look used now, so that the first
one that is not locked goes. -/
theorem allocateLoop_none (hactive : ∀ entry ∈ table, entry.active = true) (index : Nat) :
    allocateLoop now table index none =
      ((table.findIdx? (fun entry => !entry.locked now)).map (index + ·), table.map (pruneFailures · now)) := by
  induction table generalizing index with
  | nil => rfl
  | cons entry rest ih =>
    have hentry := pruneFailures_of_active now (hactive entry List.mem_cons_self)
    have hrest (other : AuthRateLimitEntry) (hmem : other ∈ rest) := hactive other (List.mem_cons_of_mem _ hmem)
    rw [allocateLoop, if_neg (not_not.mpr (hactive entry List.mem_cons_self)), List.findIdx?_cons]
    dsimp only
    rw [hentry.2.2.2, hentry.2.2.1]
    cases hlocked : entry.locked now with
    | true =>
      rw [if_pos rfl, ih hrest]
      simp [Function.comp_def, Nat.add_assoc, Nat.add_comm 1]
    | false =>
      rw [if_neg Bool.false_ne_true, allocateLoop_some hrest]
      rfl

end Table

section Reached

variable {calls : AuthCalls} {core : AuthCore}

/-- The invariant of the limiter over runs. -/
structure Clocked (core : AuthCore) : Prop where
  start : core.clockInitialized = false → core.lastNowUs = 0
  timed : ∀ entry ∈ core.rateLimits, Timed core.lastNowUs entry

theorem clocked_init : Clocked .init where
  start := fun _ => rfl
  timed := fun entry hmem => by
    rw [List.eq_of_mem_replicate hmem]
    exact timed_cleared _

theorem Clocked.read (h : Clocked core) {now : Nat} {ticked : AuthCore} (hnow : core.readNow calls = some (now, ticked)) :
    now = calls.nowUs.toNat ∧ Clocked ticked ∧ ticked.rateLimits = core.rateLimits ∧ ticked.lastNowUs = now := by
  unfold AuthCore.readNow at hnow
  split at hnow
  · cases hnow
  next hclock =>
    cases hnow
    refine ⟨rfl, ⟨(fun hfalse => by cases hfalse), fun entry hmem => (h.timed entry hmem).mono ?_⟩, rfl, rfl⟩
    by_cases hinit : core.clockInitialized = true
    · exact Nat.le_of_not_lt fun hlt => hclock ⟨hinit, hlt⟩
    · rw [h.start (by simpa using hinit)]
      exact Nat.zero_le _

theorem Clocked.table (h : Clocked core) {table : List AuthRateLimitEntry}
    (htable : ∀ entry ∈ table, Timed core.lastNowUs entry) : Clocked { core with rateLimits := table } := ⟨h.start, htable⟩

theorem timed_set {clock : Nat} {table : List AuthRateLimitEntry} (h : ∀ entry ∈ table, Timed clock entry)
    {entry : AuthRateLimitEntry} (hentry : Timed clock entry) (slot : Nat) :
    ∀ other ∈ table.set slot entry, Timed clock other := by
  intro other hmem
  cases List.mem_or_eq_of_mem_set hmem with
  | inl hold => exact h other hold
  | inr heq => exact heq ▸ hentry

theorem timed_getD {clock : Nat} {table : List AuthRateLimitEntry} (h : ∀ entry ∈ table, Timed clock entry) (slot : Nat) :
    Timed clock (table.getD slot .cleared) := by
  rw [List.getD_eq_getElem?_getD]
  cases hentry : table[slot]? with
  | none => exact timed_cleared clock
  | some entry => exact h entry (List.mem_of_getElem? hentry)

theorem timed_allocateLoop {clock : Nat} (now : Nat) {table : List AuthRateLimitEntry} (h : ∀ entry ∈ table, Timed clock entry)
    (index : Nat) (least : Option (Nat × Nat)) : ∀ entry ∈ (allocateLoop now table index least).2, Timed clock entry := by
  induction table generalizing index least with
  | nil => exact fun entry hmem => absurd hmem List.not_mem_nil
  | cons first rest ih =>
    have hrest := ih fun entry hmem => h entry (List.mem_cons_of_mem _ hmem)
    unfold allocateLoop
    split
    · exact h
    · intro entry hmem
      cases List.mem_cons.mp hmem with
      | inl heq => exact heq ▸ (h first List.mem_cons_self).prune
      | inr hin => exact hrest _ _ entry hin

theorem timed_failureEntry {clock : Nat} (now : Nat) (source : UInt32) {table : List AuthRateLimitEntry}
    (h : ∀ entry ∈ table, Timed clock entry) : ∀ entry ∈ (failureEntry source now table).2, Timed clock entry := by
  unfold failureEntry
  split
  · have hloop := timed_allocateLoop now h 0 none
    unfold allocateRateLimit
    split
    next hresult => exact hresult ▸ hloop
    next hresult =>
      rw [hresult] at hloop
      exact timed_set hloop (timed_fresh clock source now) _
  · exact timed_set h (timed_getD h _).prune _

theorem timed_addFailure {now : Nat} {entry : AuthRateLimitEntry} (h : Timed now entry)
    (hlocked : entry.lockoutUntilUs = 0) : Timed now (addFailure now entry).2 := by
  unfold addFailure
  have hadded (failure : Nat) (hmem : failure ∈ entry.failuresUs ++ [now]) : failure ≤ now := by
    rw [List.mem_append, List.mem_singleton] at hmem
    exact hmem.elim (fun hold => (h failure hold).1) Nat.le_of_eq
  split
  · exact h
  dsimp only
  split
  · exact fun failure hmem => ⟨hadded failure hmem, fun hne => absurd hlocked hne⟩
  split
  · exact fun failure hmem => ⟨hadded failure hmem, fun hne => absurd hlocked hne⟩
  · exact fun failure hmem => ⟨hadded failure hmem, fun _ => Nat.add_le_add_right (hadded failure hmem) _⟩

theorem getD_set {table : List AuthRateLimitEntry} (slot : Nat) (entry : AuthRateLimitEntry) :
    (table.set slot entry).getD slot .cleared = entry ∨ (table.set slot entry).getD slot .cleared = .cleared := by
  rw [List.getD_eq_getElem?_getD, List.getElem?_set_self']
  cases table[slot]? with
  | none => exact Or.inr rfl
  | some old => exact Or.inl rfl

theorem lockout_of_unlocked {now : Nat} {entry : AuthRateLimitEntry} (hactive : entry.active = true)
    (h : (entry.pruneFailures now).locked now = false) : (entry.pruneFailures now).lockoutUntilUs = 0 := by
  rw [(pruneFailures_of_active now hactive).2.2.2] at h
  have hcleared : (entry.clearExpiredLockout now).lockoutUntilUs = 0 := by
    unfold clearExpiredLockout
    split
    · rfl
    next hnot =>
      by_contra hne
      rw [locked, decide_eq_false_iff_not] at h
      exact hnot ⟨hne, Nat.le_of_not_lt h⟩
  rw [pruneFailures, if_neg (not_not.mpr hactive)]
  dsimp only
  split
  · exact hcleared
  · exact hcleared

theorem lockout_of_failureEntry {now slot : Nat} {source : UInt32} {table after : List AuthRateLimitEntry}
    (h : failureEntry source now table = (some slot, after)) (hunlocked : (after.getD slot .cleared).locked now = false) :
    (after.getD slot .cleared).lockoutUntilUs = 0 := by
  unfold failureEntry at h
  split at h
  · unfold allocateRateLimit at h
    split at h
    · cases h
    · cases h
      cases getD_set _ (fresh source now) with
      | inl heq => rw [heq, fresh]
      | inr heq => rw [heq, AuthRateLimitEntry.cleared]
  next found hfound =>
    cases h
    obtain ⟨hlt, hmatch, -⟩ := List.findIdx?_eq_some_iff_getElem.mp hfound
    have hactive : (table.getD slot .cleared).active = true := by
      rw [List.getD_eq_getElem?_getD, List.getElem?_eq_getElem hlt, Option.getD_some]
      exact (Bool.and_eq_true_iff.mp hmatch).1
    cases getD_set slot ((table.getD slot .cleared).pruneFailures now) with
    | inl heq =>
      rw [heq] at hunlocked ⊢
      exact lockout_of_unlocked hactive hunlocked
    | inr heq => rw [heq, AuthRateLimitEntry.cleared]

theorem Clocked.attempt (h : Clocked core) (source : UInt32) : Clocked (core.loginAttemptAllowed calls source).2.2 := by
  unfold AuthCore.loginAttemptAllowed
  split
  · exact h
  split
  · exact h
  next now ticked hnow =>
    obtain ⟨-, hticked, -, -⟩ := h.read hnow
    split
    · exact hticked
    next slot hslot =>
      have hpruned : Clocked { ticked with
          rateLimits := ticked.rateLimits.set slot ((ticked.rateLimits.getD slot .cleared).pruneFailures now) } :=
        hticked.table (timed_set hticked.timed (timed_getD hticked.timed slot).prune slot)
      dsimp only
      split
      · exact hpruned
      · exact hpruned

theorem Clocked.failure (h : Clocked core) (source : UInt32) : Clocked (core.loginRecordFailure calls source).2 := by
  unfold AuthCore.loginRecordFailure
  split
  · exact h
  split
  · exact h
  next now ticked hnow =>
    obtain ⟨-, hticked, -, hlast⟩ := h.read hnow
    have hentries := timed_failureEntry now source hticked.timed
    split
    next table hresult =>
      rw [hresult] at hentries
      exact hticked.table hentries
    next slot table hresult =>
      rw [hresult] at hentries
      dsimp only
      split
      · exact hticked.table hentries
      next hunlocked =>
        have hunlocked := lockout_of_failureEntry hresult (by simpa using hunlocked)
        have hentry := timed_getD hentries slot
        rw [hlast] at hentry
        refine hticked.table (timed_set hentries ?_ slot)
        rw [hlast]
        exact timed_addFailure hentry hunlocked

theorem Clocked.success (h : Clocked core) (source : UInt32) : Clocked (core.loginRecordSuccess calls source).2 := by
  unfold AuthCore.loginRecordSuccess
  split
  · exact h
  split
  · exact h
  · exact h.table (timed_set h.timed (timed_cleared _) _)

theorem Clocked.withSessions (h : Clocked core) (sessions : List AuthSessionEntry) : Clocked { core with sessions } :=
  ⟨h.start, h.timed⟩

/-- The operations on the sessions read the clock, and leave the limiter alone. -/
theorem Clocked.apply (h : Clocked core) (operation : AuthOperation) : Clocked (operation.apply calls core) := by
  cases operation with
  | create generation =>
    unfold AuthOperation.apply AuthCore.sessionCreate
    dsimp only
    split
    · exact h
    split
    · exact h
    next hnow =>
      split
      · exact h
      · split
        · exact h
        · exact (h.read hnow).2.1.withSessions _
  | validate token =>
    unfold AuthOperation.apply AuthCore.sessionValidate
    dsimp only
    split
    · exact h
    split
    · exact h
    split
    · exact h
    next hnow =>
      split
      · exact h
      · exact (h.read hnow).2.1.withSessions _
  | remaining token =>
    unfold AuthOperation.apply AuthCore.sessionRemaining
    dsimp only
    split
    · exact h
    split
    · exact h
    split
    · exact h
    next hnow =>
      split
      · exact (h.read hnow).2.1
      · split
        · exact (h.read hnow).2.1
        · exact (h.read hnow).2.1
  | logout token =>
    unfold AuthOperation.apply AuthCore.sessionLogout
    dsimp only
    split
    · exact h
    split
    · exact h
    · exact h.withSessions _
  | logoutAll =>
    unfold AuthOperation.apply AuthCore.sessionLogoutAll
    dsimp only
    split
    · exact h
    · exact h.withSessions _
  | attemptAllowed source => exact h.attempt source
  | recordFailure source => exact h.failure source
  | recordSuccess source => exact h.success source

theorem clocked_run (run : List (AuthCalls × AuthOperation)) : Clocked (runOperations run).1 := by
  induction run using List.reverseRecOn with
  | nil => exact clocked_init
  | append_singleton run step ih =>
    rw [runOperations, List.foldl_append, List.foldl_cons, List.foldl_nil]
    exact ih.apply step.2

end Reached

section Allocation

variable {calls : AuthCalls} {core : AuthCore} {source : UInt32}

def firstUnlocked (now : Nat) (table : List AuthRateLimitEntry) : Option Nat :=
  table.findIdx? (fun entry => !entry.locked now)

def failedOnce (source : UInt32) (now : Nat) : AuthRateLimitEntry := { fresh source now with failuresUs := [now] }

theorem allocateRateLimit_full {now : Nat} {table : List AuthRateLimitEntry} (hfull : ∀ entry ∈ table, entry.active = true) :
    allocateRateLimit source now table =
      match firstUnlocked now table with
      | none => (none, table.map (pruneFailures · now))
      | some slot => (some slot, (table.map (pruneFailures · now)).set slot (fresh source now)) := by
  have hmap : (firstUnlocked now table).map (0 + ·) = firstUnlocked now table := by
    cases firstUnlocked now table with
    | none => rfl
    | some slot => exact congrArg some (Nat.zero_add slot)
  rw [allocateRateLimit, allocateLoop_none hfull, ← firstUnlocked, hmap]
  cases firstUnlocked now table <;> rfl

/-- The table after a failure that allocates an entry. -/
theorem rateLimits_of_allocates (h : Allocates calls core source) :
    (core.loginRecordFailure calls source).2.rateLimits =
      match firstUnlocked calls.nowUs.toNat core.rateLimits with
      | none => core.rateLimits.map (pruneFailures · calls.nowUs.toNat)
      | some slot =>
        (core.rateLimits.map (pruneFailures · calls.nowUs.toNat)).set slot (failedOnce source calls.nowUs.toNat) := by
  have hnow : core.readNow calls = some (calls.nowUs.toNat,
      { core with lastNowUs := calls.nowUs.toNat, clockInitialized := true }) :=
    if_neg fun hclock => absurd hclock.2 (Nat.not_lt.mpr (h.clock hclock.1))
  have hfind : findRateLimit source core.rateLimits = none := by
    rw [findRateLimit, List.findIdx?_eq_none_iff]
    intro entry hmem
    simpa using fun _ => h.absent entry hmem
  rw [AuthCore.loginRecordFailure, if_neg (by simp [h.lock, h.unlock]), hnow]
  dsimp only
  rw [failureEntry, hfind]
  dsimp only
  rw [allocateRateLimit_full h.full]
  cases hfirst : firstUnlocked calls.nowUs.toNat core.rateLimits with
  | none => rfl
  | some slot =>
    obtain ⟨hlt, -, -⟩ := List.findIdx?_eq_some_iff_getElem.mp hfirst
    have hget : ((core.rateLimits.map (pruneFailures · calls.nowUs.toNat)).set slot (fresh source calls.nowUs.toNat)).getD
        slot .cleared = fresh source calls.nowUs.toNat := by
      rw [List.getD_eq_getElem?_getD, List.getElem?_set_self (by rwa [List.length_map]), Option.getD_some]
    have hunlocked : (fresh source calls.nowUs.toNat).locked calls.nowUs.toNat = false := by simp [fresh, locked]
    have hadded : (addFailure calls.nowUs.toNat (fresh source calls.nowUs.toNat)).2 =
        failedOnce source calls.nowUs.toNat := by
      simp [addFailure, fresh, failedOnce, rateLimitFailureMax]
    dsimp only
    rw [hget, hunlocked, if_neg Bool.false_ne_true, hadded, List.set_set]

/-- A failure that needs an entry of a full table takes that of the first source in
it that is not locked, so that it is fair exactly when no other one of these was
used longer ago. -/
theorem fair_iff (hclocked : Clocked core) (h : Allocates calls core source) (used : UInt32 → Nat) :
    Fair calls.nowUs.toNat used source core.rateLimits (core.loginRecordFailure calls source).2.rateLimits ↔
      ∀ slot, firstUnlocked calls.nowUs.toNat core.rateLimits = some slot →
        LeastRecent calls.nowUs.toNat used core.rateLimits slot := by
  rw [rateLimits_of_allocates h]
  have hkept (i : Nat) (entry : AuthRateLimitEntry) (hentry : core.rateLimits[i]? = some entry) :
      ∃ kept, (core.rateLimits.map (pruneFailures · calls.nowUs.toNat))[i]? = some kept ∧
        standing calls.nowUs.toNat kept = standing calls.nowUs.toNat entry :=
    ⟨_, by rw [List.getElem?_map, hentry, Option.map_some],
      standing_prune (hclocked.timed entry (List.mem_of_getElem? hentry))⟩
  constructor
  · rintro ⟨victim, -, hvictim, hothers⟩ slot hfirst
    obtain ⟨hlt, -, -⟩ := List.findIdx?_eq_some_iff_getElem.mp hfirst
    by_cases hslot : victim = some slot
    · exact (hvictim slot hslot).1
    · obtain ⟨kept, hafter, hsame⟩ := hothers slot _ (List.getElem?_eq_getElem hlt) hslot
      rw [hfirst] at hafter
      dsimp only at hafter
      rw [List.getElem?_set_self (by rwa [List.length_map]), Option.some_inj] at hafter
      have hsource : kept.sourceIpv4 = core.rateLimits[slot].sourceIpv4 := congrArg Prod.fst hsame
      rw [← hafter] at hsource
      exact absurd hsource.symm (h.absent _ (List.getElem_mem hlt))
  · intro hleast
    refine ⟨firstUnlocked calls.nowUs.toNat core.rateLimits, fun hnone entry hmem => ?_, fun slot hfirst => ?_,
      fun i entry hentry hne => ?_⟩
    · simpa using List.findIdx?_eq_none_iff.mp hnone entry hmem
    · obtain ⟨hlt, -, -⟩ := List.findIdx?_eq_some_iff_getElem.mp hfirst
      refine ⟨hleast slot hfirst, failedOnce source calls.nowUs.toNat, ?_, rfl⟩
      rw [hfirst]
      exact List.getElem?_set_self (by rwa [List.length_map])
    · cases hfirst : firstUnlocked calls.nowUs.toNat core.rateLimits with
      | none => exact hkept i entry hentry
      | some slot =>
        have hslot : slot ≠ i := fun heq => hne (heq ▸ hfirst)
        dsimp only
        rw [List.getElem?_set_ne hslot]
        exact hkept i entry hentry

end Allocation

/-- In every run, a source that needs an entry of a full table takes that of the
least recently used source that is not locked, and leaves what is held against every
other source, exactly when the first entry that is not locked is that source's. -/
theorem eviction_fair (run : List (AuthCalls × AuthOperation)) (calls : AuthCalls) (source : UInt32)
    (h : Allocates calls (runOperations run).1 source) :
    Fair calls.nowUs.toNat (lastUsed run) source (runOperations run).1.rateLimits
        ((runOperations run).1.loginRecordFailure calls source).2.rateLimits ↔
      ∀ slot, firstUnlocked calls.nowUs.toNat (runOperations run).1.rateLimits = some slot →
        LeastRecent calls.nowUs.toNat (lastUsed run) (runOperations run).1.rateLimits slot :=
  fair_iff (clocked_run run) h (lastUsed run)

section Sources

def atSeconds (seconds : UInt64) : AuthCalls := ⟨true, true, seconds * 1000000, fun _ => none⟩

def eightSources : List (AuthCalls × AuthOperation) :=
  (List.range 8).map fun n => (atSeconds (.ofNat (n + 1)), .recordFailure (.ofNat n))

theorem eviction_fair_eight : Fair 9000000 (lastUsed eightSources) 8 (runOperations eightSources).1.rateLimits
    ((runOperations eightSources).1.loginRecordFailure (atSeconds 9) 8).2.rateLimits := by
  have hallocates : Allocates (atSeconds 9) (runOperations eightSources).1 8 :=
    ⟨rfl, rfl, by decide +kernel, by decide +kernel, by decide +kernel⟩
  refine (eviction_fair eightSources (atSeconds 9) 8 hallocates).mpr fun slot hslot => ?_
  have hzero : slot = 0 := by
    have hfirst : firstUnlocked (atSeconds 9).nowUs.toNat (runOperations eightSources).1.rateLimits = some 0 := by
      decide +kernel
    exact Option.some.inj (hslot.symm.trans hfirst)
  subst hzero
  exact ⟨(runOperations eightSources).1.rateLimits.getD 0 .cleared, by decide +kernel, by decide +kernel,
    by decide +kernel⟩

def firstAgain : List (AuthCalls × AuthOperation) := eightSources ++ [(atSeconds 9, .recordFailure 0)]

/-- The source that failed last loses its entry. -/
theorem recent_source_evicted : ¬ Fair 10000000 (lastUsed firstAgain) 8
    (runOperations firstAgain).1.rateLimits
    ((runOperations firstAgain).1.loginRecordFailure (atSeconds 10) 8).2.rateLimits := by
  have hallocates : Allocates (atSeconds 10) (runOperations firstAgain).1 8 :=
    ⟨rfl, rfl, by decide +kernel, by decide +kernel, by decide +kernel⟩
  intro hfair
  obtain ⟨entry, hentry, -, hleast⟩ := (fair_iff (clocked_run _) hallocates _).mp hfair 0 (by decide +kernel)
  have hlater : ¬ ∀ other ∈ (runOperations firstAgain).1.rateLimits,
      other.locked 10000000 = false → lastUsed firstAgain 0 ≤
        lastUsed firstAgain other.sourceIpv4 := by decide +kernel
  have hsource : entry.sourceIpv4 = 0 := by
    have hfirst : ((runOperations firstAgain).1.rateLimits[0]?).map
        (·.sourceIpv4) = some 0 := by decide +kernel
    rw [hentry] at hfirst
    exact Option.some.inj hfirst
  rw [hsource] at hleast
  exact hlater hleast

end Sources

end MacroKeyboard.Auth.Eviction
