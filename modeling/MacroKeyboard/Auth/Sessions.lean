import MacroKeyboard.Auth.Core

namespace MacroKeyboard.Auth

def AuthSessionEntry.expired (entry : AuthSessionEntry) (now : Nat) : Bool :=
  entry.expiresAtUs ≤ now || entry.absoluteExpiresAtUs ≤ now

def sessionEntryMatches (entry : AuthSessionEntry) (token : List UInt8) : Bool := entry.sessionToken == token

def purgeExpiredSessions (now : Nat) (sessions : List AuthSessionEntry) : List AuthSessionEntry :=
  sessions.map (fun entry => if entry.active && entry.expired now then .cleared else entry)

/-- The loop of `select_session_slot`, with the least recently used entry so far. -/
def selectSlotLoop : List AuthSessionEntry → Nat → Option (Nat × Nat) → Option Nat
  | [], _, leastRecentlyUsed => leastRecentlyUsed.map (·.1)
  | entry :: rest, index, leastRecentlyUsed =>
    if ¬ entry.active then some index
    else
      selectSlotLoop rest (index + 1)
        (match leastRecentlyUsed with
        | none => some (index, entry.lastUsedUs)
        | some (least, lastUsed) =>
          if entry.lastUsedUs < lastUsed then some (index, entry.lastUsedUs) else some (least, lastUsed))

def selectSessionSlot (sessions : List AuthSessionEntry) : Option Nat := selectSlotLoop sessions 0 none

/-- `initialize_session_lifetimes` of a session with the token. -/
def initializeSession (generation : Nat) (token : List UInt8) (now : Nat) : Option AuthSessionEntry :=
  if uint64Max - now < sessionAbsoluteUs ∨ uint64Max - now < sessionIdleUs then none
  else
    some
      { active := true
        sessionToken := token
        expiresAtUs := min (now + sessionIdleUs) (now + sessionAbsoluteUs)
        absoluteExpiresAtUs := now + sessionAbsoluteUs
        lastUsedUs := now
        generation }

def refreshSession (now : Nat) (entry : AuthSessionEntry) : Option AuthSessionEntry :=
  if uint64Max - now < sessionIdleUs then none
  else some { entry with expiresAtUs := min (now + sessionIdleUs) entry.absoluteExpiresAtUs, lastUsedUs := now }

def findAndRefreshSession (now : Nat) (token : List UInt8) :
    List AuthSessionEntry → AppError × List AuthSessionEntry
  | [] => (.authRequired, [])
  | entry :: rest =>
    if ¬ entry.active then
      ((findAndRefreshSession now token rest).1, entry :: (findAndRefreshSession now token rest).2)
    else if entry.expired now then
      ((findAndRefreshSession now token rest).1, .cleared :: (findAndRefreshSession now token rest).2)
    else if sessionEntryMatches entry token then
      match refreshSession now entry with
      | none => (.internal, entry :: rest)
      | some refreshed => (.none, refreshed :: rest)
    else ((findAndRefreshSession now token rest).1, entry :: (findAndRefreshSession now token rest).2)

/-- The loop of `auth_core_session_logout`. -/
def clearFirstSession (token : List UInt8) : List AuthSessionEntry → AppError × List AuthSessionEntry
  | [] => (.notFound, [])
  | entry :: rest =>
    if entry.active && sessionEntryMatches entry token then (.none, .cleared :: rest)
    else ((clearFirstSession token rest).1, entry :: (clearFirstSession token rest).2)

namespace AuthCore

/-- The fresh entry of `auth_core_session_create` and the table with it. -/
def createdSession (calls : AuthCalls) (generation now : Nat) (sessions : List AuthSessionEntry) :
    Option (AuthSessionEntry × List AuthSessionEntry) := do
  let purged := purgeExpiredSessions now sessions
  let slot ← selectSessionSlot purged
  let cleared := purged.set slot .cleared
  let token ← generateSessionTokens calls cleared tokenGenerationAttempts 0
  let entry ← initializeSession generation token now
  pure (entry, cleared.set slot entry)

def sessionCreate (calls : AuthCalls) (generation : Nat) (core : AuthCore) :
    Except AppError AuthSessionEntry × AuthCore :=
  if ¬ calls.lock then (.error .internal, core)
  else
    match core.readNow calls with
    | none => (.error .internal, core)
    | some (now, ticked) =>
      match createdSession calls generation now ticked.sessions with
      | none => (.error .internal, core)
      | some (entry, sessions) =>
        if ¬ calls.unlock then (.error .internal, core) else (.ok entry, { ticked with sessions })

def sessionValidate (calls : AuthCalls) (token : List UInt8) (core : AuthCore) : AppError × AuthCore :=
  if ¬ validHexToken token then (.authRequired, core)
  else if ¬ calls.lock then (.internal, core)
  else
    match core.readNow calls with
    | none => (.internal, core)
    | some (now, ticked) =>
      if ¬ calls.unlock then (.internal, core)
      else
        ((findAndRefreshSession now token ticked.sessions).1,
          { ticked with sessions := (findAndRefreshSession now token ticked.sessions).2 })

def sessionRemaining (calls : AuthCalls) (token : List UInt8) (core : AuthCore) :
    Except AppError (Nat × Nat) × AuthCore :=
  if ¬ validHexToken token then (.error .invalidArgument, core)
  else if ¬ calls.lock then (.error .internal, core)
  else
    match core.readNow calls with
    | none => (.error .internal, core)
    | some (now, ticked) =>
      if ¬ calls.unlock then (.error .internal, ticked)
      else
        match ticked.sessions.find? (fun entry => entry.active && !entry.expired now && sessionEntryMatches entry token) with
        | none => (.error .authRequired, ticked)
        | some entry =>
          (.ok ((entry.expiresAtUs - now) / 1000000, (entry.absoluteExpiresAtUs - now) / 1000000), ticked)

def sessionLogout (calls : AuthCalls) (token : List UInt8) (core : AuthCore) : AppError × AuthCore :=
  if ¬ validHexToken token then (.invalidArgument, core)
  else if ¬ calls.lock ∨ ¬ calls.unlock then (.internal, core)
  else
    ((clearFirstSession token core.sessions).1, { core with sessions := (clearFirstSession token core.sessions).2 })

def sessionLogoutAll (calls : AuthCalls) (core : AuthCore) : AppError × AuthCore :=
  if ¬ calls.lock then (.internal, core)
  else
    (if calls.unlock then .none else .internal,
      { core with sessions := List.replicate sessionTableMax .cleared })

end AuthCore

def Against (allowed : Nat → Prop) (sessions : List AuthSessionEntry) : Prop :=
  ∀ entry ∈ sessions, entry.active = true → allowed entry.generation

section Against

variable {allowed : Nat → Prop} {sessions : List AuthSessionEntry} {core : AuthCore} {calls : AuthCalls}

theorem against_replicate (n : Nat) : Against allowed (List.replicate n .cleared) := by
  intro entry hentry hactive
  rw [List.eq_of_mem_replicate hentry] at hactive
  cases hactive

theorem against_cons {entry : AuthSessionEntry} (hentry : entry.active = true → allowed entry.generation)
    (h : Against allowed sessions) : Against allowed (entry :: sessions) := by
  intro other hother hactive
  rcases List.mem_cons.mp hother with rfl | hother
  · exact hentry hactive
  · exact h other hother hactive

theorem Against.tail {entry : AuthSessionEntry} (h : Against allowed (entry :: sessions)) :
    Against allowed sessions := fun other hother => h other (List.mem_cons_of_mem _ hother)

theorem Against.head {entry : AuthSessionEntry} (h : Against allowed (entry :: sessions)) :
    entry.active = true → allowed entry.generation := h entry List.mem_cons_self

theorem against_cleared : AuthSessionEntry.cleared.active = true → allowed AuthSessionEntry.cleared.generation :=
  fun h => by cases h

theorem against_findAndRefresh {now : Nat} {token : List UInt8} (h : Against allowed sessions) :
    Against allowed (findAndRefreshSession now token sessions).2 := by
  induction sessions with
  | nil => exact h
  | cons entry rest ih =>
    have hrest := ih h.tail
    unfold findAndRefreshSession
    split
    · exact against_cons h.head hrest
    split
    · exact against_cons against_cleared hrest
    split
    · unfold refreshSession
      split_ifs
      · exact h
      · exact against_cons h.head h.tail
    · exact against_cons h.head hrest

theorem against_clearFirst {token : List UInt8} (h : Against allowed sessions) :
    Against allowed (clearFirstSession token sessions).2 := by
  induction sessions with
  | nil => exact h
  | cons entry rest ih =>
    unfold clearFirstSession
    split_ifs
    · exact against_cons against_cleared h.tail
    · exact against_cons h.head (ih h.tail)

theorem against_sessionValidate {token : List UInt8} (h : Against allowed core.sessions) :
    Against allowed (core.sessionValidate calls token).2.sessions := by
  unfold AuthCore.sessionValidate
  split
  · exact h
  split
  · exact h
  split
  · exact h
  next hnow =>
    split
    · exact h
    · exact against_findAndRefresh (by rwa [AuthCore.readNow_sessions hnow])

theorem sessionRemaining_sessions {token : List UInt8} :
    (core.sessionRemaining calls token).2.sessions = core.sessions := by
  unfold AuthCore.sessionRemaining
  split
  · rfl
  split
  · rfl
  split
  · rfl
  next hnow =>
    split
    · exact AuthCore.readNow_sessions hnow
    · split <;> exact AuthCore.readNow_sessions hnow

theorem against_sessionLogout {token : List UInt8} (h : Against allowed core.sessions) :
    Against allowed (core.sessionLogout calls token).2.sessions := by
  unfold AuthCore.sessionLogout
  split
  · exact h
  split
  · exact h
  · exact against_clearFirst h

theorem against_sessionLogoutAll (h : Against allowed core.sessions) :
    Against allowed (core.sessionLogoutAll calls).2.sessions := by
  unfold AuthCore.sessionLogoutAll
  split
  · exact h
  · exact against_replicate _

end Against

end MacroKeyboard.Auth
