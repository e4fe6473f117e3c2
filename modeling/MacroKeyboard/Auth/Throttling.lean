import MacroKeyboard.Auth.Eviction
import MacroKeyboard.Lockouts.SlidingWindow

namespace MacroKeyboard.Auth.Throttling

open Lifetimes Eviction AuthRateLimitEntry
open Lockouts.SlidingWindow

abbrev heldUntil (failures : List Nat) : Nat :=
  Lockouts.SlidingWindow.heldUntil rateLimitFailureMax failureWindowUs lockoutUs failures

section History

/-- The failures of a source since its last success, the latest first, after an operation. -/
def counted (source : UInt32) (calls : AuthCalls) (core : AuthCore) (failures : List Nat) : AuthOperation → List Nat
  | .recordFailure sourceIpv4 =>
    if sourceIpv4 = source ∧ (core.loginRecordFailure calls sourceIpv4).1 = .none then calls.nowUs.toNat :: failures
    else failures
  | .recordSuccess sourceIpv4 =>
    if sourceIpv4 = source ∧ (core.loginRecordSuccess calls sourceIpv4).1 = .none then [] else failures
  | _ => failures

/-- The failures of a source that a run reports as recorded, since its last success. -/
def failures (source : UInt32) (run : List (AuthCalls × AuthOperation)) : List Nat :=
  (run.foldl (fun (state : AuthCore × List Nat) step =>
    (step.2.apply step.1 state.1, counted source step.1 state.1 state.2 step.2)) (.init, [])).2

theorem failures_concat (source : UInt32) (run : List (AuthCalls × AuthOperation)) (step : AuthCalls × AuthOperation) :
    failures source (run ++ [step]) =
      counted source step.1 (runOperations run).1 (failures source run) step.2 := by
  have hcore : (run.foldl (fun (state : AuthCore × List Nat) step =>
      (step.2.apply step.1 state.1, counted source step.1 state.1 state.2 step.2)) (.init, [])).1 =
      (runOperations run).1 := by
    unfold runOperations
    induction run using List.reverseRecOn with
    | nil => rfl
    | append_singleton run step ih =>
      rw [List.foldl_append, List.foldl_append, List.foldl_cons, List.foldl_cons, ih]
      rfl
  rw [failures, List.foldl_append, List.foldl_cons, List.foldl_nil]
  dsimp only
  rw [hcore, ← failures]

/-- A step of a run whose clock is a signed counter, and whose failures are of known sources. -/
structure Permitted (known : Finset UInt32) (step : AuthCalls × AuthOperation) : Prop where
  source : ∀ sourceIpv4, step.2 = .recordFailure sourceIpv4 → sourceIpv4 ∈ known
  clock : step.1.nowUs.toNat < 2 ^ 63

/-- The call gets the mutex and a time that is not before the last one. -/
structure Reads (calls : AuthCalls) (core : AuthCore) : Prop where
  lock : calls.lock = true
  unlock : calls.unlock = true
  clock : core.clockInitialized = true → core.lastNowUs ≤ calls.nowUs.toNat

theorem Reads.mutex {calls : AuthCalls} {core : AuthCore} (h : Reads calls core) :
    ¬ (¬ calls.lock = true ∨ ¬ calls.unlock = true) := by
  simp [h.lock, h.unlock]

end History

section Entry

variable {clock now : Nat} {log : List Nat} {entry : AuthRateLimitEntry}

/-- An entry holds against its source what the failures of the source earn. -/
structure Follows (clock : Nat) (log : List Nat) (entry : AuthRateLimitEntry) : Prop where
  lockout : (standing clock entry).2.2 = if clock < heldUntil log then heldUntil log else 0
  window : heldUntil log ≤ clock → (standing clock entry).2.1 = (recent failureWindowUs clock log).reverse

theorem locked_of_standing (h : (standing clock entry).2.2 ≠ 0) :
    entry.locked clock = true ∧ (standing clock entry).2.2 = entry.lockoutUntilUs := by
  cases hlocked : entry.locked clock with
  | true => exact ⟨rfl, by simp [standing, hlocked]⟩
  | false => simp [standing, hlocked] at h

theorem Follows.locked (h : Follows clock log entry) : entry.locked clock = decide (clock < heldUntil log) := by
  have hlockout := h.lockout
  by_cases hheld : clock < heldUntil log
  · rw [if_pos hheld] at hlockout
    have hpos : (standing clock entry).2.2 ≠ 0 := by omega
    rw [(locked_of_standing hpos).1, decide_eq_true hheld]
  · rw [if_neg hheld] at hlockout
    rw [decide_eq_false hheld]
    by_contra htrue
    rw [Bool.not_eq_false] at htrue
    have huntil : entry.lockoutUntilUs = 0 := by simpa [standing, htrue] using hlockout
    simp [AuthRateLimitEntry.locked, huntil] at htrue

theorem Follows.until (h : Follows clock log entry) (hheld : clock < heldUntil log) :
    entry.lockoutUntilUs = heldUntil log := by
  have hlockout := h.lockout
  rw [if_pos hheld] at hlockout
  have hpos : (standing clock entry).2.2 ≠ 0 := by omega
  rw [← (locked_of_standing hpos).2, hlockout]

/-- What an entry holds goes with the clock as its history does. -/
theorem Follows.later (h : Follows clock log entry) (htimed : Timed clock entry)
    (hordered : log.Pairwise (fun later earlier => earlier ≤ later)) (hle : clock ≤ now) : Follows now log entry := by
  by_cases hheld : clock < heldUntil log
  · have huntil := h.until hheld
    refine ⟨?_, fun hover => ?_⟩
    · simp [standing, AuthRateLimitEntry.locked, huntil]
    · have hne : heldUntil log ≠ 0 := by omega
      have hold : ∀ failure ∈ entry.failuresUs, failure + failureWindowUs ≤ now := fun failure hmem => by
        have hlockout := (htimed failure hmem).2 (by omega)
        rw [lockoutUs] at hlockout
        rw [failureWindowUs]
        omega
      have hnone : (standing now entry).2.1 = [] := recent_eq_nil hold
      have hempty := recent_of_held hordered (by decide : failureWindowUs ≤ lockoutUs) hne hover
      rw [hnone, hempty, List.reverse_nil]
  · have hunlocked : entry.lockoutUntilUs ≤ clock := by
      have hfalse := h.locked
      rw [decide_eq_false hheld] at hfalse
      simpa [AuthRateLimitEntry.locked] using hfalse
    refine ⟨?_, fun _ => ?_⟩
    · have hfalse : entry.locked now = false := by simpa [AuthRateLimitEntry.locked] using hunlocked.trans hle
      rw [if_neg (by omega)]
      simp [standing, hfalse]
    · have hwindow : recent failureWindowUs clock entry.failuresUs = (recent failureWindowUs clock log).reverse :=
        h.window (by omega)
      have hlater : recent failureWindowUs now (recent failureWindowUs clock log).reverse =
          (recent failureWindowUs now log).reverse := by
        rw [← recent_recent hle log]
        exact List.filter_reverse ..
      have hsame : recent failureWindowUs now (recent failureWindowUs clock entry.failuresUs) =
          recent failureWindowUs now entry.failuresUs := recent_recent hle entry.failuresUs
      rw [hwindow, hlater] at hsame
      exact hsame.symm

theorem Follows.prune (h : Follows now log entry) (htimed : Timed clock entry) :
    Follows now log (entry.pruneFailures now) := by
  have hstanding : standing now (entry.pruneFailures now) = standing now entry := standing_prune htimed
  exact ⟨hstanding ▸ h.lockout, hstanding ▸ h.window⟩

end Entry

section Recording

variable {now : Nat} {log : List Nat} {entry : AuthRateLimitEntry}

/-- The entry is not locked, and holds only failures of the last minute. -/
structure Pruned (now : Nat) (entry : AuthRateLimitEntry) : Prop where
  lockout : entry.lockoutUntilUs = 0
  window : recent failureWindowUs now entry.failuresUs = entry.failuresUs

theorem pruned_fresh (source : UInt32) (now : Nat) : Pruned now (fresh source now) := ⟨rfl, rfl⟩

theorem pruned_of_unlocked (hactive : entry.active = true) (h : (entry.pruneFailures now).locked now = false) :
    Pruned now (entry.pruneFailures now) := by
  refine ⟨lockout_of_unlocked hactive h, ?_⟩
  rw [(pruneFailures_of_active now hactive).2.2.2] at h
  rw [pruneFailures, if_neg (not_not.mpr hactive)]
  dsimp only
  rw [locked_clearExpired, if_neg (by simp [h])]
  exact recent_recent le_rfl _

/-- A failure outside a lockout is added to the history, and the fifth one of a
minute locks the entry. -/
theorem addFailure_follows (h : Follows now log entry) (hpruned : Pruned now entry)
    (hordered : log.Pairwise (fun later earlier => earlier ≤ later)) (hpast : ∀ failure ∈ log, failure ≤ now)
    (hclock : now < 2 ^ 63) :
    (addFailure now entry).1 = .none ∧ Follows now (now :: log) (addFailure now entry).2 := by
  have hover : heldUntil log ≤ now := by
    have hfalse := h.locked
    rw [AuthRateLimitEntry.locked, hpruned.lockout] at hfalse
    simpa using hfalse
  have hwindow : entry.failuresUs = (recent failureWindowUs now log).reverse := hpruned.window.symm.trans (h.window hover)
  have hroom := length_recent_lt hordered (by decide) hpast (by decide : failureWindowUs ≤ lockoutUs) hover
  have hlength : entry.failuresUs.length = (recent failureWindowUs now log).length := by
    rw [hwindow, List.length_reverse]
  have hrecent : recent failureWindowUs now (now :: log) = now :: recent failureWindowUs now log := by
    rw [recent, List.filter_cons_of_pos (by simp [failureWindowUs]), ← recent]
  have hadded : recent failureWindowUs now (entry.failuresUs ++ [now]) = (recent failureWindowUs now (now :: log)).reverse := by
    rw [hrecent, List.reverse_cons, ← hwindow, recent, List.filter_append, ← recent, hpruned.window]
    simp [failureWindowUs]
  have hheld : heldUntil (now :: log) =
      if rateLimitFailureMax ≤ (recent failureWindowUs now log).length + 1 then now + lockoutUs else 0 :=
    heldUntil_cons hordered (by decide)
  rw [addFailure, if_neg (by omega)]
  dsimp only
  rw [List.length_append, List.length_singleton, hlength]
  by_cases hfull : (recent failureWindowUs now log).length + 1 = rateLimitFailureMax
  · rw [if_pos hfull.ge] at hheld
    have hfits : ¬ uint64Max - now < lockoutUs := by
      rw [uint64Max, lockoutUs]
      omega
    rw [if_neg (not_not.mpr hfull), if_neg hfits]
    have hafter : now < now + lockoutUs := by rw [lockoutUs]; omega
    refine ⟨rfl, ?_, fun hend => absurd hend (by rw [hheld]; omega)⟩
    rw [hheld, if_pos hafter]
    simp [standing, AuthRateLimitEntry.locked, hafter]
  · rw [if_neg (by omega)] at hheld
    rw [if_pos hfull]
    refine ⟨rfl, ?_, fun _ => hadded⟩
    rw [hheld, if_neg (Nat.not_lt_zero now)]
    simp [standing, AuthRateLimitEntry.locked, hpruned.lockout]

end Recording

section Table

variable {now : Nat} {source : UInt32} {table after : List AuthRateLimitEntry} {entry : AuthRateLimitEntry}

def Absent (source : UInt32) (table : List AuthRateLimitEntry) : Prop :=
  ∀ entry ∈ table, entry.active = true → entry.sourceIpv4 ≠ source

/-- The slot holds the entry of the source. -/
structure Holds (source : UInt32) (table : List AuthRateLimitEntry) (slot : Nat) (entry : AuthRateLimitEntry) : Prop where
  get : table[slot]? = some entry
  active : entry.active = true
  source : entry.sourceIpv4 = source

theorem findRateLimit_cases (source : UInt32) (table : List AuthRateLimitEntry) :
    (findRateLimit source table = none ∧ Absent source table) ∨
      ∃ slot entry, findRateLimit source table = some slot ∧ Holds source table slot entry := by
  cases hfind : findRateLimit source table with
  | none =>
    refine Or.inl ⟨rfl, fun entry hmem hactive heq => ?_⟩
    have hnot := List.findIdx?_eq_none_iff.mp hfind entry hmem
    simp [hactive, heq] at hnot
  | some slot =>
    obtain ⟨hlt, hmatch, -⟩ := List.findIdx?_eq_some_iff_getElem.mp hfind
    rw [Bool.and_eq_true, beq_iff_eq] at hmatch
    exact Or.inr ⟨slot, table[slot], rfl, List.getElem?_eq_getElem hlt, hmatch.1, hmatch.2⟩

theorem getD_of_getElem? {slot : Nat} (h : table[slot]? = some entry) : table.getD slot .cleared = entry := by
  rw [List.getD_eq_getElem?_getD, h, Option.getD_some]

/-- One slot is taken, and the entries of the others are left or pruned. -/
structure Takes (now slot : Nat) (taken : AuthRateLimitEntry) (before after : List AuthRateLimitEntry) : Prop where
  size : after.length = before.length
  here : after[slot]? = some taken
  others : ∀ i, i ≠ slot → after[i]? = before[i]? ∨ after[i]? = (before[i]?).map (pruneFailures · now)

theorem takes_set (now : Nat) {slot : Nat} (h : table[slot]? = some entry) (taken : AuthRateLimitEntry) :
    Takes now slot taken table (table.set slot taken) where
  size := List.length_set
  here := List.getElem?_set_self (List.getElem?_eq_some_iff.mp h).1
  others := fun _ hne => Or.inl (List.getElem?_set_ne hne.symm)

theorem Takes.set {slot : Nat} {taken : AuthRateLimitEntry} (h : Takes now slot taken table after)
    (again : AuthRateLimitEntry) : Takes now slot again table (after.set slot again) where
  size := List.length_set.trans h.size
  here := List.getElem?_set_self (List.getElem?_eq_some_iff.mp h.here).1
  others := fun i hne => by
    rw [List.getElem?_set_ne hne.symm]
    exact h.others i hne

theorem allocateLoop_inactive {front back : List AuthRateLimitEntry} (hfront : ∀ other ∈ front, other.active = true)
    (hentry : entry.active = false) (index : Nat) (least : Option (Nat × Nat)) :
    allocateLoop now (front ++ entry :: back) index least =
      (some (index + front.length), front.map (pruneFailures · now) ++ entry :: back) := by
  induction front generalizing index least with
  | nil => rw [List.nil_append, allocateLoop, if_pos (by simp [hentry])]; rfl
  | cons first front ih =>
    have hrest := ih fun other hmem => hfront other (List.mem_cons_of_mem _ hmem)
    rw [List.cons_append, allocateLoop, if_neg (not_not.mpr (hfront first List.mem_cons_self))]
    dsimp only
    rw [hrest, List.length_cons, Nat.add_assoc, Nat.add_comm 1]
    rfl

theorem split_inactive (h : ¬ ∀ entry ∈ table, entry.active = true) :
    ∃ front entry back, table = front ++ entry :: back ∧ entry.active = false ∧ ∀ other ∈ front, other.active = true := by
  induction table with
  | nil => exact absurd (fun entry hmem => absurd hmem List.not_mem_nil) h
  | cons first rest ih =>
    cases hfirst : first.active with
    | false => exact ⟨[], first, rest, rfl, hfirst, fun other hmem => absurd hmem List.not_mem_nil⟩
    | true =>
      have hrest : ¬ ∀ entry ∈ rest, entry.active = true := fun hall => h fun entry hmem => by
        cases List.mem_cons.mp hmem with
        | inl heq => exact heq ▸ hfirst
        | inr hin => exact hall entry hin
      obtain ⟨front, entry, back, rfl, hentry, hfront⟩ := ih hrest
      refine ⟨first :: front, entry, back, rfl, hentry, fun other hmem => ?_⟩
      cases List.mem_cons.mp hmem with
      | inl heq => exact heq ▸ hfirst
      | inr hin => exact hfront other hin

/-- An allocation takes a slot that is not in use, or else one that is not locked,
and fails only when every entry is locked. -/
theorem allocateRateLimit_cases (source : UInt32) (now : Nat) (table : List AuthRateLimitEntry) :
    (∃ slot entry after, table[slot]? = some entry ∧ Takes now slot (fresh source now) table after ∧
        allocateRateLimit source now table = (some slot, after) ∧
        (entry.active = false ∨ (∀ other ∈ table, other.active = true) ∧ entry.locked now = false)) ∨
      ((∀ entry ∈ table, entry.active = true ∧ entry.locked now = true) ∧
        allocateRateLimit source now table = (none, table.map (pruneFailures · now))) := by
  by_cases hfull : ∀ entry ∈ table, entry.active = true
  · rw [allocateRateLimit_full hfull]
    cases hfirst : firstUnlocked now table with
    | none =>
      refine Or.inr ⟨fun entry hmem => ⟨hfull entry hmem, ?_⟩, rfl⟩
      simpa using List.findIdx?_eq_none_iff.mp hfirst entry hmem
    | some slot =>
      obtain ⟨hlt, hunlocked, -⟩ := List.findIdx?_eq_some_iff_getElem.mp hfirst
      refine Or.inl ⟨slot, table[slot], _, List.getElem?_eq_getElem hlt, ⟨?_, ?_, fun i hne => ?_⟩, rfl,
        Or.inr ⟨hfull, by simpa using hunlocked⟩⟩
      · rw [List.length_set, List.length_map]
      · exact List.getElem?_set_self (by rwa [List.length_map])
      · rw [List.getElem?_set_ne hne.symm, List.getElem?_map]
        exact Or.inr rfl
  · obtain ⟨front, entry, back, rfl, hentry, hfront⟩ := split_inactive hfull
    have hget : (front ++ entry :: back)[front.length]? = some entry := by simp
    have hallocated : allocateRateLimit source now (front ++ entry :: back) = (some front.length,
        (front.map (pruneFailures · now) ++ entry :: back).set front.length (fresh source now)) := by
      rw [allocateRateLimit, allocateLoop_inactive hfront hentry, Nat.zero_add]
    refine Or.inl ⟨front.length, entry, _, hget, ⟨by simp, ?_, fun i hne => ?_⟩, hallocated, Or.inl hentry⟩
    · exact List.getElem?_set_self (by simp)
    · rw [List.getElem?_set_ne hne.symm]
      by_cases hlt : i < front.length
      · right
        rw [List.getElem?_append_left (by simpa using hlt), List.getElem?_append_left hlt, List.getElem?_map]
      · left
        have hle : front.length ≤ i := Nat.le_of_not_lt hlt
        rw [List.getElem?_append_right (by simpa using hle), List.getElem?_append_right hle, List.length_map]

end Table

section Calls

variable {calls : AuthCalls} {core : AuthCore} {source : UInt32}

def ticked (calls : AuthCalls) (core : AuthCore) : AuthCore :=
  { core with lastNowUs := calls.nowUs.toNat, clockInitialized := true }

theorem Reads.read (h : Reads calls core) : core.readNow calls = some (calls.nowUs.toNat, ticked calls core) :=
  if_neg fun hclock => absurd hclock.2 (Nat.not_lt.mpr (h.clock hclock.1))

theorem reads_of_read {now : Nat} {after : AuthCore} (hlock : ¬ (¬ calls.lock = true ∨ ¬ calls.unlock = true))
    (h : core.readNow calls = some (now, after)) : Reads calls core := by
  rw [not_or, not_not, not_not] at hlock
  refine ⟨hlock.1, hlock.2, fun hinit => ?_⟩
  by_contra hlt
  rw [AuthCore.readNow, if_pos ⟨hinit, Nat.lt_of_not_le hlt⟩] at h
  cases h

/-- What an attempt leaves and answers. -/
theorem attemptAllowed_cases (source : UInt32) (calls : AuthCalls) (core : AuthCore) :
    (¬ Reads calls core ∧ core.loginAttemptAllowed calls source = (.internal, 0, core)) ∨
      (Reads calls core ∧ Absent source core.rateLimits ∧
        core.loginAttemptAllowed calls source = (.none, 0, ticked calls core)) ∨
      (Reads calls core ∧ ∃ slot entry, Holds source core.rateLimits slot entry ∧
        core.loginAttemptAllowed calls source =
          (if entry.locked calls.nowUs.toNat then .rateLimited else .none,
            if entry.locked calls.nowUs.toNat then
              retrySeconds ((entry.pruneFailures calls.nowUs.toNat).lockoutUntilUs - calls.nowUs.toNat) else 0,
            { ticked calls core with
              rateLimits := core.rateLimits.set slot (entry.pruneFailures calls.nowUs.toNat) })) := by
  by_cases hreads : Reads calls core
  · rw [AuthCore.loginAttemptAllowed, if_neg hreads.mutex, hreads.read]
    dsimp only
    have htable : (ticked calls core).rateLimits = core.rateLimits := rfl
    rw [htable]
    obtain ⟨hfind, habsent⟩ | ⟨slot, entry, hfind, hholds⟩ := findRateLimit_cases source core.rateLimits
    · rw [hfind]
      exact Or.inr (Or.inl ⟨hreads, habsent, rfl⟩)
    · rw [hfind]
      refine Or.inr (Or.inr ⟨hreads, slot, entry, hholds, ?_⟩)
      dsimp only
      rw [getD_of_getElem? hholds.get, (pruneFailures_of_active _ hholds.active).2.2.2]
      cases entry.locked calls.nowUs.toNat <;> rfl
  · refine Or.inl ⟨hreads, ?_⟩
    rw [AuthCore.loginAttemptAllowed]
    split
    · rfl
    next hlock =>
      split
      · rfl
      next hnow => exact absurd (reads_of_read hlock hnow) hreads

/-- What a failure leaves and answers. It is recorded in the entry of its source or in
a slot taken for it, unless that entry is locked or every entry is. -/
inductive FailureOutcome (source : UInt32) (calls : AuthCalls) (core : AuthCore) : Prop
  | unread (hreads : ¬ Reads calls core) (heq : core.loginRecordFailure calls source = (.internal, core))
  | held (hreads : Reads calls core) {slot : Nat} {entry : AuthRateLimitEntry}
    (hholds : Holds source core.rateLimits slot entry) (hlocked : entry.locked calls.nowUs.toNat = true)
    (heq : core.loginRecordFailure calls source = (.rateLimited, { ticked calls core with
      rateLimits := core.rateLimits.set slot (entry.pruneFailures calls.nowUs.toNat) }))
  | added (hreads : Reads calls core) {slot : Nat} {entry : AuthRateLimitEntry}
    (hholds : Holds source core.rateLimits slot entry) (hlocked : entry.locked calls.nowUs.toNat = false)
    (heq : core.loginRecordFailure calls source =
      ((addFailure calls.nowUs.toNat (entry.pruneFailures calls.nowUs.toNat)).1, { ticked calls core with
        rateLimits := core.rateLimits.set slot
          (addFailure calls.nowUs.toNat (entry.pruneFailures calls.nowUs.toNat)).2 }))
  | taken (hreads : Reads calls core) (habsent : Absent source core.rateLimits) {slot : Nat}
    {entry : AuthRateLimitEntry} (hget : core.rateLimits[slot]? = some entry)
    (hfree : entry.active = false ∨
      (∀ other ∈ core.rateLimits, other.active = true) ∧ entry.locked calls.nowUs.toNat = false)
    {table : List AuthRateLimitEntry}
    (htakes : Takes calls.nowUs.toNat slot (failedOnce source calls.nowUs.toNat) core.rateLimits table)
    (heq : core.loginRecordFailure calls source = (.none, { ticked calls core with rateLimits := table }))
  | full (hreads : Reads calls core) (habsent : Absent source core.rateLimits)
    (hlocked : ∀ entry ∈ core.rateLimits, entry.active = true ∧ entry.locked calls.nowUs.toNat = true)
    (heq : core.loginRecordFailure calls source = (.rateLimited, { ticked calls core with
      rateLimits := core.rateLimits.map (pruneFailures · calls.nowUs.toNat) }))

theorem loginRecordFailure_noSlot {source : UInt32} {calls : AuthCalls} {core : AuthCore} (hreads : Reads calls core)
    {rateLimits : List AuthRateLimitEntry}
    (hentry : failureEntry source calls.nowUs.toNat core.rateLimits = (none, rateLimits)) :
    core.loginRecordFailure calls source = (.rateLimited, { ticked calls core with rateLimits }) := by
  have hticked : failureEntry source calls.nowUs.toNat (ticked calls core).rateLimits = (none, rateLimits) := hentry
  rw [AuthCore.loginRecordFailure, if_neg hreads.mutex, hreads.read]
  dsimp only
  rw [hticked]

theorem loginRecordFailure_slot {source : UInt32} {calls : AuthCalls} {core : AuthCore} (hreads : Reads calls core)
    {slot : Nat} {rateLimits : List AuthRateLimitEntry}
    (hentry : failureEntry source calls.nowUs.toNat core.rateLimits = (some slot, rateLimits)) :
    core.loginRecordFailure calls source =
      if (rateLimits.getD slot .cleared).locked calls.nowUs.toNat then (.rateLimited, { ticked calls core with rateLimits })
      else
        ((addFailure calls.nowUs.toNat (rateLimits.getD slot .cleared)).1, { ticked calls core with
          rateLimits := rateLimits.set slot (addFailure calls.nowUs.toNat (rateLimits.getD slot .cleared)).2 }) := by
  have hticked : failureEntry source calls.nowUs.toNat (ticked calls core).rateLimits = (some slot, rateLimits) := hentry
  rw [AuthCore.loginRecordFailure, if_neg hreads.mutex, hreads.read]
  dsimp only
  rw [hticked]

theorem recordFailure_outcome (source : UInt32) (calls : AuthCalls) (core : AuthCore) :
    FailureOutcome source calls core := by
  by_cases hreads : Reads calls core
  · obtain ⟨hfind, habsent⟩ | ⟨slot, entry, hfind, hholds⟩ := findRateLimit_cases source core.rateLimits
    · have hentry : failureEntry source calls.nowUs.toNat core.rateLimits =
          allocateRateLimit source calls.nowUs.toNat core.rateLimits := by
        rw [failureEntry, hfind]
      obtain ⟨slot, entry, after, hget, htakes, hallocated, hfree⟩ | ⟨hlocked, hallocated⟩ :=
        allocateRateLimit_cases source calls.nowUs.toNat core.rateLimits
      · have hunlocked : (fresh source calls.nowUs.toNat).locked calls.nowUs.toNat = false := by simp [fresh, locked]
        have hadded : addFailure calls.nowUs.toNat (fresh source calls.nowUs.toNat) =
            (.none, failedOnce source calls.nowUs.toNat) := by
          simp [addFailure, fresh, failedOnce, rateLimitFailureMax]
        have hresult := loginRecordFailure_slot hreads (hentry.trans hallocated)
        rw [getD_of_getElem? htakes.here, hunlocked, if_neg Bool.false_ne_true, hadded] at hresult
        exact .taken hreads habsent hget hfree (htakes.set _) hresult
      · exact .full hreads habsent hlocked (loginRecordFailure_noSlot hreads (hentry.trans hallocated))
    · have hget := (takes_set calls.nowUs.toNat hholds.get (entry.pruneFailures calls.nowUs.toNat)).here
      have hentry : failureEntry source calls.nowUs.toNat core.rateLimits =
          (some slot, core.rateLimits.set slot (entry.pruneFailures calls.nowUs.toNat)) := by
        rw [failureEntry, hfind]
        dsimp only
        rw [getD_of_getElem? hholds.get]
      have hresult := loginRecordFailure_slot hreads hentry
      rw [getD_of_getElem? hget, List.set_set, (pruneFailures_of_active _ hholds.active).2.2.2] at hresult
      cases hlocked : entry.locked calls.nowUs.toNat with
      | true =>
        rw [hlocked, if_pos rfl] at hresult
        exact .held hreads hholds hlocked hresult
      | false =>
        rw [hlocked, if_neg Bool.false_ne_true] at hresult
        exact .added hreads hholds hlocked hresult
  · refine .unread hreads ?_
    rw [AuthCore.loginRecordFailure]
    split
    · rfl
    next hlock =>
      split
      · rfl
      next hnow => exact absurd (reads_of_read hlock hnow) hreads

theorem recordSuccess_cases (source : UInt32) (calls : AuthCalls) (core : AuthCore) :
    core.loginRecordSuccess calls source = (.internal, core) ∨
      (Absent source core.rateLimits ∧ core.loginRecordSuccess calls source = (.none, core)) ∨
      ∃ slot entry, Holds source core.rateLimits slot entry ∧ core.loginRecordSuccess calls source =
        (.none, { core with rateLimits := core.rateLimits.set slot .cleared }) := by
  rw [AuthCore.loginRecordSuccess]
  split
  · exact Or.inl rfl
  · obtain ⟨hfind, habsent⟩ | ⟨slot, entry, hfind, hholds⟩ := findRateLimit_cases source core.rateLimits
    · rw [hfind]
      exact Or.inr (Or.inl ⟨habsent, rfl⟩)
    · rw [hfind]
      exact Or.inr (Or.inr ⟨slot, entry, hholds, rfl⟩)

/-- The operations on the sessions leave the limiter alone, and read the clock at most. -/
def Aside (calls : AuthCalls) (core after : AuthCore) : Prop :=
  after.rateLimits = core.rateLimits ∧
    (after.lastNowUs = core.lastNowUs ∨ (∃ now base, core.readNow calls = some (now, base) ∧ after.lastNowUs = now))

theorem aside_apply (calls : AuthCalls) (core : AuthCore) (operation : AuthOperation)
    (hattempt : ∀ source, operation ≠ .attemptAllowed source) (hfailure : ∀ source, operation ≠ .recordFailure source)
    (hsuccess : ∀ source, operation ≠ .recordSuccess source) : Aside calls core (operation.apply calls core) := by
  have hread {now : Nat} {base : AuthCore} (hnow : core.readNow calls = some (now, base)) :
      base.rateLimits = core.rateLimits ∧ base.lastNowUs = now := by
    unfold AuthCore.readNow at hnow
    split at hnow
    · cases hnow
    · cases hnow
      exact ⟨rfl, rfl⟩
  have hbase {now : Nat} {base : AuthCore} (hnow : core.readNow calls = some (now, base)) (after : AuthCore)
      (htable : after.rateLimits = base.rateLimits) (hlast : after.lastNowUs = base.lastNowUs) : Aside calls core after :=
    ⟨htable.trans (hread hnow).1, Or.inr ⟨now, base, hnow, hlast.trans (hread hnow).2⟩⟩
  cases operation with
  | create generation =>
    unfold AuthOperation.apply AuthCore.sessionCreate
    dsimp only
    split
    · exact ⟨rfl, Or.inl rfl⟩
    split
    · exact ⟨rfl, Or.inl rfl⟩
    next hnow =>
      split
      · exact ⟨rfl, Or.inl rfl⟩
      · split
        · exact ⟨rfl, Or.inl rfl⟩
        · exact hbase hnow _ rfl rfl
  | validate token =>
    unfold AuthOperation.apply AuthCore.sessionValidate
    dsimp only
    split
    · exact ⟨rfl, Or.inl rfl⟩
    split
    · exact ⟨rfl, Or.inl rfl⟩
    split
    · exact ⟨rfl, Or.inl rfl⟩
    next hnow =>
      split
      · exact ⟨rfl, Or.inl rfl⟩
      · exact hbase hnow _ rfl rfl
  | remaining token =>
    unfold AuthOperation.apply AuthCore.sessionRemaining
    dsimp only
    split
    · exact ⟨rfl, Or.inl rfl⟩
    split
    · exact ⟨rfl, Or.inl rfl⟩
    split
    · exact ⟨rfl, Or.inl rfl⟩
    next hnow =>
      split
      · exact hbase hnow _ rfl rfl
      · split
        · exact hbase hnow _ rfl rfl
        · exact hbase hnow _ rfl rfl
  | logout token =>
    unfold AuthOperation.apply AuthCore.sessionLogout
    dsimp only
    split
    · exact ⟨rfl, Or.inl rfl⟩
    split
    · exact ⟨rfl, Or.inl rfl⟩
    · exact ⟨rfl, Or.inl rfl⟩
  | logoutAll =>
    unfold AuthOperation.apply AuthCore.sessionLogoutAll
    dsimp only
    split
    · exact ⟨rfl, Or.inl rfl⟩
    · exact ⟨rfl, Or.inl rfl⟩
  | attemptAllowed source => exact absurd rfl (hattempt source)
  | recordFailure source => exact absurd rfl (hfailure source)
  | recordSuccess source => exact absurd rfl (hsuccess source)

end Calls

end MacroKeyboard.Auth.Throttling
