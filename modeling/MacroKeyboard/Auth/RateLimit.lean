import MacroKeyboard.Auth.Core

namespace MacroKeyboard.Auth

def retrySeconds (remainingUs : Nat) : UInt32 := .ofNat ((remainingUs + 1000000 - 1) / 1000000)

namespace AuthRateLimitEntry

def fresh (sourceIpv4 : UInt32) (now : Nat) : AuthRateLimitEntry := ⟨true, sourceIpv4, [], 0, now⟩

def locked (entry : AuthRateLimitEntry) (now : Nat) : Bool := entry.lockoutUntilUs > now

def clearExpiredLockout (entry : AuthRateLimitEntry) (now : Nat) : AuthRateLimitEntry :=
  if entry.lockoutUntilUs ≠ 0 ∧ entry.lockoutUntilUs ≤ now then fresh entry.sourceIpv4 now else entry

def pruneFailures (entry : AuthRateLimitEntry) (now : Nat) : AuthRateLimitEntry :=
  if ¬ entry.active then entry
  else
    let entry := entry.clearExpiredLockout now
    if entry.locked now then { entry with lastUsedUs := now }
    else
      { entry with
        failuresUs := entry.failuresUs.filter (fun failure => now - failure < failureWindowUs)
        lastUsedUs := now }

end AuthRateLimitEntry

/-- `find_entry`. -/
def findRateLimit (sourceIpv4 : UInt32) (rateLimits : List AuthRateLimitEntry) : Option Nat :=
  rateLimits.findIdx? (fun entry => entry.active && entry.sourceIpv4 == sourceIpv4)

/-- The loop of `allocate_entry`, which prunes the entries it passes, with the
least recent entry that is not locked so far. It yields the slot to take. -/
def allocateLoop (now : Nat) : List AuthRateLimitEntry → Nat → Option (Nat × Nat) →
    Option Nat × List AuthRateLimitEntry
  | [], _, leastRecentUnlocked => (leastRecentUnlocked.map (·.1), [])
  | entry :: rest, index, leastRecentUnlocked =>
    if ¬ entry.active then (some index, entry :: rest)
    else
      let pruned := entry.pruneFailures now
      let leastRecentUnlocked :=
        if pruned.locked now then leastRecentUnlocked
        else
          match leastRecentUnlocked with
          | none => some (index, pruned.lastUsedUs)
          | some (least, lastUsed) =>
            if pruned.lastUsedUs < lastUsed then some (index, pruned.lastUsedUs) else some (least, lastUsed)
      ((allocateLoop now rest (index + 1) leastRecentUnlocked).1,
        pruned :: (allocateLoop now rest (index + 1) leastRecentUnlocked).2)

/-- `allocate_entry`. -/
def allocateRateLimit (sourceIpv4 : UInt32) (now : Nat) (rateLimits : List AuthRateLimitEntry) :
    Option Nat × List AuthRateLimitEntry :=
  match allocateLoop now rateLimits 0 none with
  | (none, pruned) => (none, pruned)
  | (some slot, pruned) => (some slot, pruned.set slot (.fresh sourceIpv4 now))

/-- The entry that a failure is recorded in, found and pruned or allocated. -/
def failureEntry (sourceIpv4 : UInt32) (now : Nat) (rateLimits : List AuthRateLimitEntry) :
    Option Nat × List AuthRateLimitEntry :=
  match findRateLimit sourceIpv4 rateLimits with
  | none => allocateRateLimit sourceIpv4 now rateLimits
  | some slot => (some slot, rateLimits.set slot ((rateLimits.getD slot .cleared).pruneFailures now))

/-- The failure that `auth_core_login_record_failure` adds to an entry that is
not locked. -/
def addFailure (now : Nat) (entry : AuthRateLimitEntry) : AppError × AuthRateLimitEntry :=
  if entry.failuresUs.length ≥ rateLimitFailureMax then (.internal, entry)
  else
    let failed := { entry with failuresUs := entry.failuresUs ++ [now], lastUsedUs := now }
    if failed.failuresUs.length ≠ rateLimitFailureMax then (.none, failed)
    else if uint64Max - now < lockoutUs then (.internal, failed)
    else (.none, { failed with lockoutUntilUs := now + lockoutUs })

namespace AuthCore

def loginAttemptAllowed (calls : AuthCalls) (sourceIpv4 : UInt32) (core : AuthCore) :
    AppError × UInt32 × AuthCore :=
  if ¬ calls.lock ∨ ¬ calls.unlock then (.internal, 0, core)
  else
    match core.readNow calls with
    | none => (.internal, 0, core)
    | some (now, ticked) =>
      match findRateLimit sourceIpv4 ticked.rateLimits with
      | none => (.none, 0, ticked)
      | some slot =>
        let entry := (ticked.rateLimits.getD slot .cleared).pruneFailures now
        let pruned := { ticked with rateLimits := ticked.rateLimits.set slot entry }
        if entry.locked now then (.rateLimited, retrySeconds (entry.lockoutUntilUs - now), pruned)
        else (.none, 0, pruned)

def loginRecordFailure (calls : AuthCalls) (sourceIpv4 : UInt32) (core : AuthCore) : AppError × AuthCore :=
  if ¬ calls.lock ∨ ¬ calls.unlock then (.internal, core)
  else
    match core.readNow calls with
    | none => (.internal, core)
    | some (now, ticked) =>
      match failureEntry sourceIpv4 now ticked.rateLimits with
      | (none, rateLimits) => (.rateLimited, { ticked with rateLimits })
      | (some slot, rateLimits) =>
        let entry := rateLimits.getD slot .cleared
        if entry.locked now then (.rateLimited, { ticked with rateLimits })
        else ((addFailure now entry).1, { ticked with rateLimits := rateLimits.set slot (addFailure now entry).2 })

def loginRecordSuccess (calls : AuthCalls) (sourceIpv4 : UInt32) (core : AuthCore) : AppError × AuthCore :=
  if ¬ calls.lock ∨ ¬ calls.unlock then (.internal, core)
  else
    match findRateLimit sourceIpv4 core.rateLimits with
    | none => (.none, core)
    | some slot => (.none, { core with rateLimits := core.rateLimits.set slot .cleared })

end AuthCore

section Sessions

variable {calls : AuthCalls} {core : AuthCore} {sourceIpv4 : UInt32}

theorem loginAttemptAllowed_sessions : (core.loginAttemptAllowed calls sourceIpv4).2.2.sessions = core.sessions := by
  unfold AuthCore.loginAttemptAllowed
  split
  · rfl
  split
  · rfl
  next hnow =>
    have hsessions := AuthCore.readNow_sessions hnow
    split
    · exact hsessions
    · simp only
      split <;> exact hsessions

theorem loginRecordFailure_sessions : (core.loginRecordFailure calls sourceIpv4).2.sessions = core.sessions := by
  unfold AuthCore.loginRecordFailure
  split
  · rfl
  split
  · rfl
  next hnow =>
    have hsessions := AuthCore.readNow_sessions hnow
    split
    · exact hsessions
    · simp only
      split <;> exact hsessions

theorem loginRecordSuccess_sessions : (core.loginRecordSuccess calls sourceIpv4).2.sessions = core.sessions := by
  unfold AuthCore.loginRecordSuccess
  split
  · rfl
  split <;> rfl

end Sessions

end MacroKeyboard.Auth
