import MacroKeyboard.Auth.Sessions
import MacroKeyboard.Auth.RateLimit

namespace MacroKeyboard.Auth.Lifetimes

/-- The operations of the component on its state. -/
inductive AuthOperation
  | create (generation : Nat)
  | validate (token : List UInt8)
  | remaining (token : List UInt8)
  | logout (token : List UInt8)
  | logoutAll
  | attemptAllowed (sourceIpv4 : UInt32)
  | recordFailure (sourceIpv4 : UInt32)
  | recordSuccess (sourceIpv4 : UInt32)

/-- What happens to the sessions of a token: one is created, where another may
have to go for it, it is used, or it ends. -/
inductive SessionEvent
  | created (token : List UInt8) (now : Nat) (evicted : Option (List UInt8))
  | used (token : List UInt8) (now : Nat)
  | ended (token : List UInt8)
  | allEnded
deriving DecidableEq

/-- The token of the live session that a creation would remove. -/
def evictedToken (now : Nat) (sessions : List AuthSessionEntry) : Option (List UInt8) := do
  let slot ← selectSessionSlot (purgeExpiredSessions now sessions)
  let entry ← (purgeExpiredSessions now sessions)[slot]?
  if entry.active then some entry.sessionToken else none

def AuthOperation.apply (calls : AuthCalls) (core : AuthCore) : AuthOperation → AuthCore
  | .create generation => (core.sessionCreate calls generation).2
  | .validate token => (core.sessionValidate calls token).2
  | .remaining token => (core.sessionRemaining calls token).2
  | .logout token => (core.sessionLogout calls token).2
  | .logoutAll => (core.sessionLogoutAll calls).2
  | .attemptAllowed sourceIpv4 => (core.loginAttemptAllowed calls sourceIpv4).2.2
  | .recordFailure sourceIpv4 => (core.loginRecordFailure calls sourceIpv4).2
  | .recordSuccess sourceIpv4 => (core.loginRecordSuccess calls sourceIpv4).2

/-- What the operation does to the sessions, by what it reports. -/
def AuthOperation.events (calls : AuthCalls) (core : AuthCore) : AuthOperation → List SessionEvent
  | .create generation =>
    match (core.sessionCreate calls generation).1 with
    | .ok entry => [.created entry.sessionToken calls.nowUs.toNat (evictedToken calls.nowUs.toNat core.sessions)]
    | .error _ => []
  | .validate token => if (core.sessionValidate calls token).1 = .none then [.used token calls.nowUs.toNat] else []
  | .logout token => if (core.sessionLogout calls token).1 = .none then [.ended token] else []
  | .logoutAll => if calls.lock then [.allEnded] else []
  | .remaining _ | .attemptAllowed _ | .recordFailure _ | .recordSuccess _ => []

def runOperations (run : List (AuthCalls × AuthOperation)) : AuthCore × List SessionEvent :=
  run.foldl (fun state step => (step.2.apply step.1 state.1, state.2 ++ step.2.events step.1 state.1)) (.init, [])

/-- The event ends the session of the token. -/
def Ends (token : List UInt8) : SessionEvent → Prop
  | .created _ _ evicted => evicted = some token
  | .used _ _ => False
  | .ended ended => ended = token
  | .allEnded => True

/-- The last successful use of a session since it was created. -/
def lastUse (token : List UInt8) (created : Nat) (events : List SessionEvent) : Nat :=
  events.foldl (fun last event =>
    match event with
    | .used used now => if used = token then now else last
    | _ => last) created

/-- The token belongs to a session that was created, has not ended since, and was
used in the last 24 hours and created in the last 7 days. -/
def Usable (log : List SessionEvent) (token : List UInt8) (now : Nat) : Prop :=
  ∃ front created evicted back, log = front ++ .created token created evicted :: back ∧
    (∀ event ∈ back, ¬ Ends token event) ∧ now < created + sessionAbsoluteUs ∧
    now < lastUse token created back + sessionIdleUs

/-- The deadlines of an entry are those of its session. -/
def Dated (log : List SessionEvent) (entry : AuthSessionEntry) : Prop :=
  ∃ front created evicted back, log = front ++ .created entry.sessionToken created evicted :: back ∧
    (∀ event ∈ back, ¬ Ends entry.sessionToken event) ∧
    entry.absoluteExpiresAtUs = created + sessionAbsoluteUs ∧
    entry.lastUsedUs = lastUse entry.sessionToken created back ∧
    entry.expiresAtUs = min (entry.lastUsedUs + sessionIdleUs) entry.absoluteExpiresAtUs

/-- No two active entries have the same token. -/
def Distinct (sessions : List AuthSessionEntry) : Prop :=
  ∀ (i j : Nat) (a b : AuthSessionEntry), sessions[i]? = some a → sessions[j]? = some b → a.active = true → b.active = true →
    a.sessionToken = b.sessionToken → i = j

/-- A creation puts its session into one slot of the table without the expired
entries. The slot holds a live session only when every other does, and then the
one that was used least recently. -/
def Evicts (now : Nat) (before after : List AuthSessionEntry) (entry : AuthSessionEntry) : Prop :=
  ∃ slot, slot < before.length ∧ after = (purgeExpiredSessions now before).set slot entry ∧
    ∀ evicted, (purgeExpiredSessions now before)[slot]? = some evicted → evicted.active = true →
      ∀ other ∈ before, other.active = true ∧ other.expired now = false ∧ evicted.lastUsedUs ≤ other.lastUsedUs

structure Sound (log : List SessionEvent) (sessions : List AuthSessionEntry) : Prop where
  size : sessions.length = sessionTableMax
  distinct : Distinct sessions
  dated : ∀ entry ∈ sessions, entry.active = true → Dated log entry

section Table

variable {now : Nat} {token : List UInt8} {sessions : List AuthSessionEntry}

theorem purge_getElem? {i : Nat} {entry : AuthSessionEntry} (h : (purgeExpiredSessions now sessions)[i]? = some entry)
    (hactive : entry.active = true) : sessions[i]? = some entry ∧ entry.expired now = false := by
  rw [purgeExpiredSessions, List.getElem?_map, Option.map_eq_some_iff] at h
  obtain ⟨other, hother, rfl⟩ := h
  by_cases hexpired : (other.active && other.expired now) = true
  · rw [if_pos hexpired] at hactive
    cases hactive
  · rw [if_neg hexpired] at hactive ⊢
    exact ⟨hother, by simpa [hactive] using hexpired⟩

theorem purge_length : (purgeExpiredSessions now sessions).length = sessions.length := List.length_map _

theorem Distinct.kept {after : List AuthSessionEntry} (h : Distinct sessions)
    (hkept : ∀ (i : Nat) (a : AuthSessionEntry), after[i]? = some a → a.active = true →
      ∃ b : AuthSessionEntry, sessions[i]? = some b ∧ b.active = true ∧ b.sessionToken = a.sessionToken) : Distinct after := by
  intro i j a b ha hb hactive hactive' htoken
  obtain ⟨a', ha', hactiveA, htokenA⟩ := hkept i a ha hactive
  obtain ⟨b', hb', hactiveB, htokenB⟩ := hkept j b hb hactive'
  exact h i j a' b' ha' hb' hactiveA hactiveB (htokenA.trans (htoken.trans htokenB.symm))

def Within (before after : List AuthSessionEntry) (i : Nat) : Prop :=
  ∀ entry : AuthSessionEntry, after[i]? = some entry → entry.active = true → before[i]? = some entry

/-- The live session of the token is refreshed, and the others stay or go. -/
def Refreshes (now : Nat) (token : List UInt8) (before after : List AuthSessionEntry) : Prop :=
  ∃ slot entry refreshed, before[slot]? = some entry ∧ entry.active = true ∧ entry.expired now = false ∧
    entry.sessionToken = token ∧ refreshSession now entry = some refreshed ∧ after[slot]? = some refreshed ∧
    ∀ i, i ≠ slot → Within before after i

theorem within_cons {first head : AuthSessionEntry} {rest after : List AuthSessionEntry}
    (hhead : head.active = true → head = first) (h : ∀ i, Within rest after i) (i : Nat) :
    Within (first :: rest) (head :: after) i := by
  intro entry hentry hactive
  cases i with
  | zero =>
    cases hentry
    exact congrArg some (hhead hactive).symm
  | succ i => exact h i entry hentry hactive

theorem Refreshes.cons {first head : AuthSessionEntry} {rest after : List AuthSessionEntry}
    (hhead : head.active = true → head = first) (h : Refreshes now token rest after) :
    Refreshes now token (first :: rest) (head :: after) := by
  obtain ⟨slot, entry, refreshed, hentry, hactive, hexpired, htoken, hrefreshed, hafter, hothers⟩ := h
  refine ⟨slot + 1, entry, refreshed, hentry, hactive, hexpired, htoken, hrefreshed, hafter, fun i hi => ?_⟩
  intro other hother hactive'
  cases i with
  | zero =>
    cases hother
    exact congrArg some (hhead hactive').symm
  | succ i => exact hothers i (by omega) other hother hactive'

/-- A validation refreshes the session of the token, or finds none. -/
theorem findAndRefresh_cases (now : Nat) (token : List UInt8) (sessions : List AuthSessionEntry) :
    ((findAndRefreshSession now token sessions).1 = .none ∧
      Refreshes now token sessions (findAndRefreshSession now token sessions).2) ∨
    ((findAndRefreshSession now token sessions).1 ≠ .none ∧
      ∀ i, Within sessions (findAndRefreshSession now token sessions).2 i) := by
  induction sessions with
  | nil => exact Or.inr ⟨by simp [findAndRefreshSession], fun i entry hentry => by simp [findAndRefreshSession] at hentry⟩
  | cons first rest ih =>
    have hcons {head : AuthSessionEntry} (hhead : head.active = true → head = first) :=
      ih.imp (And.imp_right (Refreshes.cons hhead)) (And.imp_right (within_cons hhead))
    unfold findAndRefreshSession
    split
    · exact hcons fun _ => rfl
    next hactive =>
      split
      · exact hcons fun h => by cases h
      next hexpired =>
        split
        next hmatches =>
          cases hrefreshed : refreshSession now first with
          | none => exact Or.inr ⟨by simp, fun _ _ h _ => h⟩
          | some refreshed =>
            refine Or.inl ⟨rfl, 0, first, refreshed, rfl, by simpa using hactive, by simpa using hexpired,
              by simpa [sessionEntryMatches] using hmatches, hrefreshed, rfl, fun i hi entry hentry _ => ?_⟩
            cases i with
            | zero => exact absurd rfl hi
            | succ i => exact hentry
        · exact hcons fun _ => rfl

theorem findAndRefresh_length : (findAndRefreshSession now token sessions).2.length = sessions.length := by
  induction sessions with
  | nil => rfl
  | cons first rest ih =>
    unfold findAndRefreshSession
    split
    · simp [ih]
    split
    · simp [ih]
    split
    · cases refreshSession now first <;> rfl
    · simp [ih]

theorem clearFirst_cases :
    ((clearFirstSession token sessions).1 = .none ∧ ∃ k entry, sessions[k]? = some entry ∧ entry.active = true ∧
      entry.sessionToken = token ∧ (clearFirstSession token sessions).2 = sessions.set k .cleared) ∨
    ((clearFirstSession token sessions).1 ≠ .none ∧ (clearFirstSession token sessions).2 = sessions) := by
  induction sessions with
  | nil => exact Or.inr ⟨by simp [clearFirstSession], rfl⟩
  | cons first rest ih =>
    unfold clearFirstSession
    split
    next hmatches =>
      rw [Bool.and_eq_true] at hmatches
      exact Or.inl ⟨rfl, 0, first, rfl, hmatches.1, by simpa [sessionEntryMatches] using hmatches.2, rfl⟩
    · rcases ih with ⟨hnone, k, entry, hentry, hactive, htoken, hafter⟩ | ⟨hnone, hafter⟩
      · exact Or.inl ⟨hnone, k + 1, entry, hentry, hactive, htoken, by rw [hafter]; rfl⟩
      · exact Or.inr ⟨hnone, by rw [hafter]⟩

/-- A slot of the table that is free, or used least recently when none is free. -/
def Selected (sessions : List AuthSessionEntry) (slot : Nat) : Prop :=
  ∃ entry, sessions[slot]? = some entry ∧ (entry.active = true →
    ∀ other ∈ sessions, other.active = true ∧ entry.lastUsedUs ≤ other.lastUsedUs)

theorem selected_of_loop {passed rest : List AuthSessionEntry} {best : Option (Nat × Nat)} {slot : Nat}
    (hpassed : ∀ other ∈ passed, other.active = true)
    (hbest : ∀ least lastUsed, best = some (least, lastUsed) → ∃ entry, passed[least]? = some entry ∧
      entry.lastUsedUs = lastUsed ∧ ∀ other ∈ passed, lastUsed ≤ other.lastUsedUs)
    (hnone : best = none → passed = []) (h : selectSlotLoop rest passed.length best = some slot) :
    Selected (passed ++ rest) slot := by
  induction rest generalizing passed best with
  | nil =>
    unfold selectSlotLoop at h
    rw [Option.map_eq_some_iff] at h
    obtain ⟨⟨least, lastUsed⟩, hsome, rfl⟩ := h
    obtain ⟨entry, hentry, hlast, hleast⟩ := hbest least lastUsed hsome
    rw [List.append_nil]
    exact ⟨entry, hentry, fun _ other hother => ⟨hpassed other hother, hlast ▸ hleast other hother⟩⟩
  | cons first rest ih =>
    unfold selectSlotLoop at h
    split at h
    next hfree =>
      cases h
      exact ⟨first, by simp, fun hactive => absurd hactive hfree⟩
    next hactive =>
      have hactive : first.active = true := by simpa using hactive
      have hresult := @ih (passed ++ [first]) _ ?_ ?_ ?_ (by simpa using h)
      · simpa using hresult
      · intro other hother
        rcases List.mem_append.mp hother with hother | hother
        · exact hpassed other hother
        · rw [List.mem_singleton.mp hother]
          exact hactive
      · intro least lastUsed hsome
        cases hbefore : best with
        | none =>
          rw [hbefore] at hsome
          cases hsome
          rw [hnone hbefore]
          exact ⟨first, by simp, rfl, by simp⟩
        | some previous =>
          obtain ⟨previous, previousUsed⟩ := previous
          obtain ⟨entry, hentry, hlast, hleast⟩ := hbest previous previousUsed hbefore
          rw [hbefore] at hsome
          simp only at hsome
          split at hsome
          next hless =>
            cases hsome
            refine ⟨first, by simp, rfl, fun other hother => ?_⟩
            rcases List.mem_append.mp hother with hother | hother
            · exact hless.le.trans (hleast other hother)
            · rw [List.mem_singleton.mp hother]
          next hless =>
            cases hsome
            have hlt := (List.getElem?_eq_some_iff.mp hentry).1
            refine ⟨entry, by rw [List.getElem?_append_left hlt]; exact hentry, hlast, fun other hother => ?_⟩
            rcases List.mem_append.mp hother with hother | hother
            · exact hleast other hother
            · rw [List.mem_singleton.mp hother]
              omega
      · intro hbest'
        cases hbefore : best with
        | none =>
          rw [hbefore] at hbest'
          cases hbest'
        | some previous =>
          rw [hbefore] at hbest'
          simp only at hbest'
          split at hbest' <;> cases hbest'

theorem selected_of_select {slot : Nat} (h : selectSessionSlot sessions = some slot) : Selected sessions slot :=
  @selected_of_loop [] sessions none slot (by simp) (by simp) (fun _ => rfl) h

theorem token_of_generate {calls : AuthCalls} {attempts attempt : Nat}
    (h : generateSessionTokens calls sessions attempts attempt = some token) : tokenExists sessions token = false := by
  induction attempts generalizing attempt with
  | zero => cases h
  | succ attempts ih =>
    rw [generateSessionTokens] at h
    split at h
    · cases h
    · split at h
      · exact ih h
      next hexists =>
        cases h
        simpa using hexists

end Table

section Dates

variable {log : List SessionEvent} {entry : AuthSessionEntry}

theorem Dated.append (h : Dated log entry) {event : SessionEvent} (hends : ¬ Ends entry.sessionToken event)
    (hused : ∀ now, event ≠ .used entry.sessionToken now) : Dated (log ++ [event]) entry := by
  obtain ⟨front, created, evicted, back, rfl, hback, habsolute, hlast, hexpires⟩ := h
  refine ⟨front, created, evicted, back ++ [event], by simp, fun other hother => ?_, habsolute, ?_, hexpires⟩
  · rcases List.mem_append.mp hother with hother | hother
    · exact hback other hother
    · rw [List.mem_singleton.mp hother]
      exact hends
  · rw [hlast, lastUse, lastUse, List.foldl_append, List.foldl_cons, List.foldl_nil]
    cases event with
    | used token now =>
      have hne : token ≠ entry.sessionToken := fun htoken => hused now (by rw [htoken])
      simp [hne]
    | created | ended | allEnded => rfl

theorem Dated.refreshed (h : Dated log entry) {now : Nat} {refreshed : AuthSessionEntry}
    (hrefreshed : refreshSession now entry = some refreshed) :
    Dated (log ++ [.used entry.sessionToken now]) refreshed := by
  obtain ⟨front, created, evicted, back, rfl, hback, habsolute, -, -⟩ := h
  unfold refreshSession at hrefreshed
  split_ifs at hrefreshed
  cases hrefreshed
  refine ⟨front, created, evicted, back ++ [.used entry.sessionToken now], by simp, fun other hother => ?_, habsolute, ?_,
    rfl⟩
  · rcases List.mem_append.mp hother with hother | hother
    · exact hback other hother
    · rw [List.mem_singleton.mp hother]
      exact id
  · simp [lastUse, List.foldl_append]

theorem dated_initialized {generation now : Nat} {token : List UInt8} {evicted : Option (List UInt8)}
    (h : initializeSession generation token now = some entry) : Dated (log ++ [.created token now evicted]) entry := by
  unfold initializeSession at h
  split_ifs at h
  cases h
  exact ⟨log, now, evicted, [], rfl, by simp, rfl, rfl, rfl⟩

theorem Dated.usable (h : Dated log entry) {now : Nat} (hexpired : entry.expired now = false) :
    Usable log entry.sessionToken now := by
  obtain ⟨front, created, evicted, back, hlog, hback, habsolute, hlast, hexpires⟩ := h
  rw [AuthSessionEntry.expired, Bool.or_eq_false_iff, decide_eq_false_iff_not, decide_eq_false_iff_not] at hexpired
  refine ⟨front, created, evicted, back, hlog, hback, by omega, ?_⟩
  rw [← hlast]
  omega

end Dates

section Sound

variable {log : List SessionEvent} {before after : List AuthSessionEntry} {now : Nat} {token : List UInt8}

theorem Sound.dated_getElem? (h : Sound log before) {i : Nat} {entry : AuthSessionEntry} (hentry : before[i]? = some entry)
    (hactive : entry.active = true) : Dated log entry := h.dated entry (List.mem_of_getElem? hentry) hactive

theorem sound_within (h : Sound log before) (hlength : after.length = before.length)
    (hwithin : ∀ i, Within before after i) : Sound log after := by
  refine ⟨hlength.trans h.size, h.distinct.kept fun i a ha hactive => ⟨a, hwithin i a ha hactive, hactive, rfl⟩,
    fun entry hentry hactive => ?_⟩
  obtain ⟨i, hi⟩ := List.getElem?_of_mem hentry
  exact h.dated_getElem? (hwithin i entry hi hactive) hactive

theorem sound_refreshes (h : Sound log before) (hlength : after.length = before.length)
    (hrefreshes : Refreshes now token before after) : Sound (log ++ [.used token now]) after := by
  obtain ⟨slot, entry, refreshed, hentry, hactive, -, rfl, hrefreshed, hafter, hothers⟩ := hrefreshes
  have hfields : refreshed.active = entry.active ∧ refreshed.sessionToken = entry.sessionToken := by
    unfold refreshSession at hrefreshed
    split_ifs at hrefreshed
    cases hrefreshed
    exact ⟨rfl, rfl⟩
  refine ⟨hlength.trans h.size, h.distinct.kept fun i a ha hactive' => ?_, fun other hother hactive' => ?_⟩
  · by_cases hi : i = slot
    · rw [hi, hafter, Option.some.injEq] at ha
      exact ⟨entry, by rw [hi, hentry], hactive, by rw [← ha, hfields.2]⟩
    · exact ⟨a, hothers i hi a ha hactive', hactive', rfl⟩
  · obtain ⟨i, hi⟩ := List.getElem?_of_mem hother
    by_cases hslot : i = slot
    · rw [hslot, hafter, Option.some.injEq] at hi
      rw [← hi]
      exact (h.dated_getElem? hentry hactive).refreshed hrefreshed
    · have hbefore := hothers i hslot other hi hactive'
      refine (h.dated_getElem? hbefore hactive').append id fun now heq => ?_
      rw [SessionEvent.used.injEq] at heq
      exact hslot (h.distinct i slot other entry hbefore hentry hactive' hactive heq.1.symm)

theorem sound_cleared (h : Sound log before) {slot : Nat} {entry : AuthSessionEntry} (hentry : before[slot]? = some entry)
    (hactive : entry.active = true) : Sound (log ++ [.ended entry.sessionToken]) (before.set slot .cleared) := by
  have hwithin : ∀ i other, (before.set slot .cleared)[i]? = some other → other.active = true →
      i ≠ slot ∧ before[i]? = some other := by
    intro i other hother hactive'
    rw [List.getElem?_set] at hother
    split_ifs at hother with hslot
    · cases hother
      cases hactive'
    · exact ⟨fun heq => hslot heq.symm, hother⟩
  refine ⟨(List.length_set ..).trans h.size,
    h.distinct.kept fun i a ha hactive' => ⟨a, (hwithin i a ha hactive').2, hactive', rfl⟩,
    fun other hother hactive' => ?_⟩
  obtain ⟨i, hi⟩ := List.getElem?_of_mem hother
  obtain ⟨hslot, hbefore⟩ := hwithin i other hi hactive'
  refine (h.dated_getElem? hbefore hactive').append (fun hends => ?_) (by simp)
  exact hslot (h.distinct i slot other entry hbefore hentry hactive' hactive (Eq.symm hends))

theorem sound_empty (log : List SessionEvent) : Sound log (List.replicate sessionTableMax .cleared) := by
  have hinactive : ∀ entry ∈ List.replicate sessionTableMax AuthSessionEntry.cleared, entry.active ≠ true := by
    intro entry hentry
    rw [List.eq_of_mem_replicate hentry]
    exact Bool.false_ne_true
  exact ⟨List.length_replicate, fun i j a b ha _ hactive => absurd hactive (hinactive a (List.mem_of_getElem? ha)),
    fun entry hentry hactive => absurd hactive (hinactive entry hentry)⟩

theorem created_of_createdSession {calls : AuthCalls} {generation : Nat} {entry : AuthSessionEntry}
    (h : AuthCore.createdSession calls generation now before = some (entry, after)) :
    ∃ slot, selectSessionSlot (purgeExpiredSessions now before) = some slot ∧
      after = (purgeExpiredSessions now before).set slot entry ∧
      tokenExists ((purgeExpiredSessions now before).set slot .cleared) entry.sessionToken = false ∧
      initializeSession generation entry.sessionToken now = some entry := by
  simp only [AuthCore.createdSession, Option.bind_eq_bind, Option.bind_eq_some_iff, Option.pure_def,
    Option.some.injEq, Prod.mk.injEq] at h
  obtain ⟨slot, hslot, token, htoken, fresh, hfresh, rfl, rfl⟩ := h
  have hsame : fresh.sessionToken = token := by
    unfold initializeSession at hfresh
    split_ifs at hfresh
    cases hfresh
    rfl
  rw [hsame]
  exact ⟨slot, hslot, List.set_set .., token_of_generate htoken, hfresh⟩

theorem sound_created (h : Sound log before) {calls : AuthCalls} {generation : Nat} {entry : AuthSessionEntry}
    (hcreated : AuthCore.createdSession calls generation now before = some (entry, after)) :
    Sound (log ++ [.created entry.sessionToken now (evictedToken now before)]) after := by
  obtain ⟨slot, hslot, rfl, hfresh, hinitialized⟩ := created_of_createdSession hcreated
  obtain ⟨selected, hselected, -⟩ := selected_of_select hslot
  have hothers : ∀ i other, ((purgeExpiredSessions now before).set slot entry)[i]? = some other → other.active = true →
      (i = slot ∧ other = entry) ∨ (i ≠ slot ∧ before[i]? = some other ∧ other.sessionToken ≠ entry.sessionToken) := by
    intro i other hother hactive
    rw [List.getElem?_set] at hother
    split_ifs at hother with hi hlt
    · exact Or.inl ⟨hi.symm, (Option.some.inj hother).symm⟩
    · refine Or.inr ⟨fun heq => hi heq.symm, (purge_getElem? hother hactive).1, fun htoken => ?_⟩
      rw [tokenExists, List.any_eq_false] at hfresh
      refine hfresh other (List.mem_of_getElem? (i := i) ?_) (by simp [hactive, htoken])
      rw [List.getElem?_set_ne hi, hother]
  refine ⟨by rw [List.length_set, purge_length, h.size], ?_, fun other hother hactive => ?_⟩
  · intro i j a b ha hb hactive hactive' htoken
    rcases hothers i a ha hactive with ⟨rfl, rfl⟩ | ⟨-, ha, hne⟩ <;>
      rcases hothers j b hb hactive' with ⟨rfl, rfl⟩ | ⟨-, hb, hne'⟩
    · rfl
    · exact absurd htoken.symm hne'
    · exact absurd htoken hne
    · exact h.distinct i j a b ha hb hactive hactive' htoken
  · obtain ⟨i, hi⟩ := List.getElem?_of_mem hother
    rcases hothers i other hi hactive with ⟨rfl, rfl⟩ | ⟨hne, hbefore, -⟩
    · exact dated_initialized hinitialized
    · refine (h.dated_getElem? hbefore hactive).append (fun hends => ?_) (by simp)
      have hends : evictedToken now before = some other.sessionToken := hends
      simp only [evictedToken, hslot, Option.bind_eq_bind, Option.bind_some, hselected, Option.ite_none_right_eq_some,
        Option.some.injEq] at hends
      exact hne (h.distinct i slot other selected hbefore (purge_getElem? hselected hends.1).1 hactive hends.1
        hends.2.symm)

theorem evicts_of_created {calls : AuthCalls} {generation : Nat} {entry : AuthSessionEntry}
    (hcreated : AuthCore.createdSession calls generation now before = some (entry, after)) :
    Evicts now before after entry := by
  obtain ⟨slot, hslot, rfl, -, -⟩ := created_of_createdSession hcreated
  obtain ⟨selected, hselected, hleast⟩ := selected_of_select hslot
  have hlt := (List.getElem?_eq_some_iff.mp hselected).1
  rw [purge_length] at hlt
  refine ⟨slot, hlt, rfl, fun evicted hevicted hactive other hother => ?_⟩
  rw [hselected, Option.some.injEq] at hevicted
  subst hevicted
  have hpurged : ∀ purged ∈ purgeExpiredSessions now before, purged.active = true ∧ selected.lastUsedUs ≤ purged.lastUsedUs :=
    hleast hactive
  have hmem : (if other.active && other.expired now then AuthSessionEntry.cleared else other) ∈
      purgeExpiredSessions now before := List.mem_map_of_mem hother
  have hlive := hpurged _ hmem
  split at hlive
  · exact absurd hlive.1 Bool.false_ne_true
  next hexpired =>
    exact ⟨hlive.1, by simpa [hlive.1] using hexpired, hlive.2⟩

end Sound

section Runs

variable {log : List SessionEvent} {core : AuthCore} {calls : AuthCalls}

theorem sessionValidate_cases (token : List UInt8) :
    (core.sessionValidate calls token).2.sessions.length = core.sessions.length ∧
    (((core.sessionValidate calls token).1 = .none ∧
      Refreshes calls.nowUs.toNat token core.sessions (core.sessionValidate calls token).2.sessions) ∨
    ((core.sessionValidate calls token).1 ≠ .none ∧
      ∀ i, Within core.sessions (core.sessionValidate calls token).2.sessions i)) := by
  have hsame : ∀ i, Within core.sessions core.sessions i := fun _ _ h _ => h
  unfold AuthCore.sessionValidate
  split
  · exact ⟨rfl, Or.inr ⟨by simp, hsame⟩⟩
  split
  · exact ⟨rfl, Or.inr ⟨by simp, hsame⟩⟩
  split
  · exact ⟨rfl, Or.inr ⟨by simp, hsame⟩⟩
  next now ticked hnow =>
    split
    · exact ⟨rfl, Or.inr ⟨by simp, hsame⟩⟩
    · have hsessions := AuthCore.readNow_sessions hnow
      have hclock : now = calls.nowUs.toNat := by
        unfold AuthCore.readNow at hnow
        split at hnow <;> cases hnow
        rfl
      rw [hsessions, hclock]
      exact ⟨findAndRefresh_length, findAndRefresh_cases _ _ _⟩

theorem sessionCreate_cases (generation : Nat) :
    (∃ entry, (core.sessionCreate calls generation).1 = .ok entry ∧
      AuthCore.createdSession calls generation calls.nowUs.toNat core.sessions =
        some (entry, (core.sessionCreate calls generation).2.sessions)) ∨
    (∃ error, (core.sessionCreate calls generation).1 = .error error) ∧
      (core.sessionCreate calls generation).2 = core := by
  unfold AuthCore.sessionCreate
  split
  · exact Or.inr ⟨⟨_, rfl⟩, rfl⟩
  split
  · exact Or.inr ⟨⟨_, rfl⟩, rfl⟩
  next now ticked hnow =>
    split
    · exact Or.inr ⟨⟨_, rfl⟩, rfl⟩
    next entry sessions hcreated =>
      split
      · exact Or.inr ⟨⟨_, rfl⟩, rfl⟩
      · have hclock : now = calls.nowUs.toNat := by
          unfold AuthCore.readNow at hnow
          split at hnow <;> cases hnow
          rfl
        rw [AuthCore.readNow_sessions hnow, hclock] at hcreated
        exact Or.inl ⟨entry, rfl, hcreated⟩

/-- Every operation keeps the invariant. -/
theorem sound_apply (h : Sound log core.sessions) (operation : AuthOperation) :
    Sound (log ++ operation.events calls core) (operation.apply calls core).sessions := by
  cases operation with
  | create generation =>
    rcases @sessionCreate_cases core calls generation with ⟨entry, hok, hcreated⟩ | ⟨⟨error, herror⟩, hsame⟩
    · simp only [AuthOperation.events, AuthOperation.apply, hok]
      exact sound_created h hcreated
    · simp only [AuthOperation.events, AuthOperation.apply, herror, hsame, List.append_nil]
      exact h
  | validate token =>
    obtain ⟨hlength, hcases⟩ := @sessionValidate_cases core calls token
    rcases hcases with ⟨hnone, hrefreshes⟩ | ⟨hnone, hwithin⟩
    · simp only [AuthOperation.events, AuthOperation.apply, if_pos hnone]
      exact sound_refreshes h hlength hrefreshes
    · simp only [AuthOperation.events, AuthOperation.apply, if_neg hnone, List.append_nil]
      exact sound_within h hlength hwithin
  | logout token =>
    simp only [AuthOperation.events, AuthOperation.apply]
    unfold AuthCore.sessionLogout
    split
    · simpa using h
    split
    · simpa using h
    · rcases @clearFirst_cases token core.sessions with ⟨hnone, slot, entry, hentry, hactive, rfl, hafter⟩ | ⟨hnone, hafter⟩
      · simp only [hnone, if_true, hafter]
        exact sound_cleared h hentry hactive
      · simp only [if_neg hnone, hafter, List.append_nil]
        exact h
  | logoutAll =>
    simp only [AuthOperation.events, AuthOperation.apply, AuthCore.sessionLogoutAll]
    by_cases hlock : calls.lock = true
    · simp only [hlock, not_true_eq_false, if_false, if_true]
      exact sound_empty _
    · simp only [hlock, Bool.false_eq_true, not_false_eq_true, if_true, if_false, List.append_nil]
      exact h
  | remaining token =>
    simp only [AuthOperation.events, AuthOperation.apply, sessionRemaining_sessions, List.append_nil]
    exact h
  | attemptAllowed sourceIpv4 =>
    simp only [AuthOperation.events, AuthOperation.apply, loginAttemptAllowed_sessions, List.append_nil]
    exact h
  | recordFailure sourceIpv4 =>
    simp only [AuthOperation.events, AuthOperation.apply, loginRecordFailure_sessions, List.append_nil]
    exact h
  | recordSuccess sourceIpv4 =>
    simp only [AuthOperation.events, AuthOperation.apply, loginRecordSuccess_sessions, List.append_nil]
    exact h

theorem sound_run (run : List (AuthCalls × AuthOperation)) :
    Sound (runOperations run).2 (runOperations run).1.sessions := by
  induction run using List.reverseRecOn with
  | nil => exact sound_empty _
  | append_singleton run step ih =>
    rw [runOperations, List.foldl_append, List.foldl_cons, List.foldl_nil]
    exact sound_apply ih step.2

end Runs

/-- In every run at most eight sessions are active, with different tokens and the
deadlines of their last use and their creation. A token validates only while its
session is usable: created with it, not ended since and within both deadlines. A
creation removes a live session only from a table full of them, and then the one
least recently used. -/
theorem session_lifetimes (run : List (AuthCalls × AuthOperation)) (calls : AuthCalls) :
    ((runOperations run).1.sessions.filter (fun entry => entry.active)).length ≤ sessionTableMax ∧
    Distinct (runOperations run).1.sessions ∧
    (∀ entry ∈ (runOperations run).1.sessions, entry.active = true → Dated (runOperations run).2 entry) ∧
    (∀ token, ((runOperations run).1.sessionValidate calls token).1 = .none →
      Usable (runOperations run).2 token calls.nowUs.toNat) ∧
    ∀ generation entry, ((runOperations run).1.sessionCreate calls generation).1 = .ok entry →
      Evicts calls.nowUs.toNat (runOperations run).1.sessions
        ((runOperations run).1.sessionCreate calls generation).2.sessions entry := by
  have hsound := sound_run run
  refine ⟨(List.length_filter_le _ _).trans hsound.size.le, hsound.distinct, hsound.dated, fun token hnone => ?_,
    fun generation entry hok => ?_⟩
  · rcases (sessionValidate_cases token).2 with ⟨-, slot, entry, refreshed, hentry, hactive, hexpired, rfl, -⟩ | ⟨hne, -⟩
    · exact (hsound.dated_getElem? hentry hactive).usable hexpired
    · exact absurd hnone hne
  · rcases sessionCreate_cases generation with ⟨created, hcreated, htable⟩ | ⟨⟨error, herror⟩, -⟩
    · rw [hok, Except.ok.injEq] at hcreated
      subst hcreated
      exact evicts_of_created htable
    · rw [hok] at herror
      cases herror

/-- Random bytes that come twice make the token of a session that has ended
valid again. -/
theorem ended_token_issued_again : ¬ ∀ run calls token, .ended token ∈ (runOperations run).2 →
    ((runOperations run).1.sessionValidate calls token).1 ≠ .none := by
  intro h
  exact h [(⟨true, true, 1000000, fun _ => some (List.replicate sessionTokenBytes 0)⟩, .create 0),
    (⟨true, true, 1000000, fun _ => none⟩, .logout (hexOf (List.replicate sessionTokenBytes 0))),
    (⟨true, true, 1000000, fun _ => some (List.replicate sessionTokenBytes 0)⟩, .create 0)]
    ⟨true, true, 1000000, fun _ => none⟩ (hexOf (List.replicate sessionTokenBytes 0)) (by decide +kernel) (by decide +kernel)

end MacroKeyboard.Auth.Lifetimes
