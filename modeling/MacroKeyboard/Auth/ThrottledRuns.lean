import MacroKeyboard.Auth.Throttling

namespace MacroKeyboard.Auth.Throttling

open Lifetimes Eviction AuthRateLimitEntry
open Lockouts.SlidingWindow

section Changes

/-- What an operation adds to the history of a source, or takes from it. -/
inductive Effect
  | none
  | failed (source : UInt32)
  | cleared (source : UInt32)

def Effect.history (source : UInt32) (now : Nat) (log : List Nat) : Effect → List Nat
  | .none => log
  | .failed sourceIpv4 => if sourceIpv4 = source then now :: log else log
  | .cleared sourceIpv4 => if sourceIpv4 = source then [] else log

def Kept (now : Nat) (before after : List AuthRateLimitEntry) (i : Nat) : Prop :=
  after[i]? = before[i]? ∨ after[i]? = (before[i]?).map (pruneFailures · now)

/-- Everything that one operation can do to the limiter. -/
inductive Change (calls : AuthCalls) (core after : AuthCore) : Effect → Prop
  | aside (haside : Aside calls core after) : Change calls core after .none
  | absent {source : UInt32} (habsent : Absent source core.rateLimits) (haside : Aside calls core after) :
    Change calls core after (.cleared source)
  | pruned (hreads : Reads calls core) {source : UInt32} {slot : Nat} {entry : AuthRateLimitEntry}
    (hholds : Holds source core.rateLimits slot entry) (hlast : after.lastNowUs = calls.nowUs.toNat)
    (htakes : Takes calls.nowUs.toNat slot (entry.pruneFailures calls.nowUs.toNat) core.rateLimits after.rateLimits) :
    Change calls core after .none
  | recorded (hreads : Reads calls core) {source : UInt32} {slot : Nat} {entry : AuthRateLimitEntry}
    (hholds : Holds source core.rateLimits slot entry) (hlocked : entry.locked calls.nowUs.toNat = false)
    (hlast : after.lastNowUs = calls.nowUs.toNat)
    (htakes : Takes calls.nowUs.toNat slot (addFailure calls.nowUs.toNat (entry.pruneFailures calls.nowUs.toNat)).2
      core.rateLimits after.rateLimits) :
    Change calls core after
      (if (addFailure calls.nowUs.toNat (entry.pruneFailures calls.nowUs.toNat)).1 = .none then .failed source else .none)
  | taken (hreads : Reads calls core) {source : UInt32} (habsent : Absent source core.rateLimits) {slot : Nat}
    {entry : AuthRateLimitEntry} (hget : core.rateLimits[slot]? = some entry)
    (hfree : entry.active = false ∨
      (∀ other ∈ core.rateLimits, other.active = true) ∧ entry.locked calls.nowUs.toNat = false)
    (hlast : after.lastNowUs = calls.nowUs.toNat)
    (htakes : Takes calls.nowUs.toNat slot (failedOnce source calls.nowUs.toNat) core.rateLimits after.rateLimits) :
    Change calls core after (.failed source)
  | full (hreads : Reads calls core) (hlast : after.lastNowUs = calls.nowUs.toNat)
    (htable : after.rateLimits = core.rateLimits.map (pruneFailures · calls.nowUs.toNat)) : Change calls core after .none
  | removed {source : UInt32} {slot : Nat} {entry : AuthRateLimitEntry}
    (hholds : Holds source core.rateLimits slot entry) (hlast : after.lastNowUs = core.lastNowUs)
    (htable : after.rateLimits = core.rateLimits.set slot .cleared) : Change calls core after (.cleared source)

variable {calls : AuthCalls} {core : AuthCore}

theorem aside_refl (calls : AuthCalls) (core : AuthCore) : Aside calls core core := ⟨rfl, Or.inl rfl⟩

theorem aside_ticked (hreads : Reads calls core) : Aside calls core (ticked calls core) :=
  ⟨rfl, Or.inr ⟨calls.nowUs.toNat, ticked calls core, hreads.read, rfl⟩⟩

/-- A step of the component is a change of the limiter, with this effect on the
history of every source. -/
theorem change_apply (calls : AuthCalls) (core : AuthCore) (operation : AuthOperation) :
    ∃ effect, Change calls core (operation.apply calls core) effect ∧
      (∀ source log, counted source calls core log operation = effect.history source calls.nowUs.toNat log) ∧
      (∀ source, effect = .failed source → operation = .recordFailure source) ∧
      ∀ source, effect = .cleared source → operation = .recordSuccess source := by
  have haside (hattempt : ∀ source, operation ≠ .attemptAllowed source)
      (hfailure : ∀ source, operation ≠ .recordFailure source)
      (hsuccess : ∀ source, operation ≠ .recordSuccess source) :
      Change calls core (operation.apply calls core) .none :=
    .aside (aside_apply calls core operation hattempt hfailure hsuccess)
  cases operation with
  | create generation => exact ⟨.none, haside nofun nofun nofun, fun _ _ => rfl, nofun, nofun⟩
  | validate token => exact ⟨.none, haside nofun nofun nofun, fun _ _ => rfl, nofun, nofun⟩
  | remaining token => exact ⟨.none, haside nofun nofun nofun, fun _ _ => rfl, nofun, nofun⟩
  | logout token => exact ⟨.none, haside nofun nofun nofun, fun _ _ => rfl, nofun, nofun⟩
  | logoutAll => exact ⟨.none, haside nofun nofun nofun, fun _ _ => rfl, nofun, nofun⟩
  | attemptAllowed sourceIpv4 =>
    refine ⟨.none, ?_, fun _ _ => rfl, nofun, nofun⟩
    rw [AuthOperation.apply]
    obtain ⟨-, heq⟩ | ⟨hreads, -, heq⟩ | ⟨hreads, slot, entry, hholds, heq⟩ :=
      attemptAllowed_cases sourceIpv4 calls core
    · rw [heq]
      exact .aside (aside_refl calls core)
    · rw [heq]
      exact .aside (aside_ticked hreads)
    · rw [heq]
      exact .pruned hreads hholds rfl (takes_set _ hholds.get _)
  | recordFailure sourceIpv4 =>
    rw [AuthOperation.apply]
    refine ⟨if (core.loginRecordFailure calls sourceIpv4).1 = .none then .failed sourceIpv4 else .none, ?_,
      fun source log => ?_, fun source heq => ?_, fun source heq => ?_⟩
    · cases recordFailure_outcome sourceIpv4 calls core with
      | unread hreads heq =>
        rw [heq]
        exact .aside (aside_refl calls core)
      | held hreads hholds hlocked heq =>
        rw [heq]
        exact .pruned hreads hholds rfl (takes_set _ hholds.get _)
      | added hreads hholds hlocked heq =>
        rw [heq]
        exact .recorded hreads hholds hlocked rfl (takes_set _ hholds.get _)
      | taken hreads habsent hget hfree htakes heq =>
        rw [heq]
        exact .taken hreads habsent hget hfree rfl htakes
      | full hreads habsent hlocked heq =>
        rw [heq]
        exact .full hreads rfl rfl
    · rw [counted]
      by_cases hrecorded : (core.loginRecordFailure calls sourceIpv4).1 = .none
      · rw [if_pos hrecorded]
        exact if_congr (and_iff_left hrecorded) rfl rfl
      · rw [if_neg hrecorded, if_neg fun hboth => hrecorded hboth.2]
        rfl
    · split at heq
      · cases heq
        rfl
      · cases heq
    · split at heq <;> cases heq
  | recordSuccess sourceIpv4 =>
    rw [AuthOperation.apply]
    obtain heq | ⟨habsent, heq⟩ | ⟨slot, entry, hholds, heq⟩ := recordSuccess_cases sourceIpv4 calls core
    · rw [heq]
      exact ⟨.none, .aside (aside_refl calls core), fun source log => by simp [counted, heq, Effect.history], nofun, nofun⟩
    · rw [heq]
      refine ⟨_, .absent habsent (aside_refl calls core), fun source log => by simp [counted, heq, Effect.history],
        (fun source heffect => by cases heffect), fun source heffect => ?_⟩
      cases heffect
      rfl
    · rw [heq]
      refine ⟨_, .removed hholds rfl rfl, fun source log => by simp [counted, heq, Effect.history],
        (fun source heffect => by cases heffect), fun source heffect => ?_⟩
      cases heffect
      rfl

end Changes

section Slots

variable {now slot i : Nat} {source : UInt32} {before after : List AuthRateLimitEntry} {a b entry : AuthRateLimitEntry}

theorem Holds.mem (h : Holds source before slot entry) : entry ∈ before := List.mem_of_getElem? h.get

theorem Holds.not_absent (h : Holds source before slot entry) : ¬ Absent source before :=
  fun habsent => habsent entry h.mem h.active h.source

theorem Holds.eq (ha : Holds source before slot a) (hb : before[slot]? = some b) : a = b :=
  Option.some.inj (ha.get.symm.trans hb)

theorem prune_active (now : Nat) (entry : AuthRateLimitEntry) :
    (entry.pruneFailures now).active = entry.active ∧ (entry.pruneFailures now).sourceIpv4 = entry.sourceIpv4 := by
  cases hactive : entry.active with
  | true =>
    have hpruned := pruneFailures_of_active now hactive
    exact ⟨hpruned.1, hpruned.2.1⟩
  | false => rw [pruneFailures, if_pos (by simp [hactive])]; exact ⟨hactive, rfl⟩

theorem addFailure_active (now : Nat) (entry : AuthRateLimitEntry) :
    (addFailure now entry).2.active = entry.active ∧ (addFailure now entry).2.sourceIpv4 = entry.sourceIpv4 := by
  unfold addFailure
  split
  · exact ⟨rfl, rfl⟩
  dsimp only
  split
  · exact ⟨rfl, rfl⟩
  · split <;> exact ⟨rfl, rfl⟩

theorem Kept.held (h : Kept now before after i) (hholds : Holds source before i entry) :
    Holds source after i entry ∨ Holds source after i (entry.pruneFailures now) := by
  cases h with
  | inl heq => exact Or.inl ⟨heq.trans hholds.get, hholds.active, hholds.source⟩
  | inr heq =>
    rw [hholds.get, Option.map_some] at heq
    have hpruned := prune_active now entry
    exact Or.inr ⟨heq, hpruned.1.trans hholds.active, hpruned.2.trans hholds.source⟩

theorem Kept.came (h : Kept now before after i) (hholds : Holds source after i entry) :
    ∃ old, Holds source before i old ∧ (entry = old ∨ entry = old.pruneFailures now) := by
  cases h with
  | inl heq => exact ⟨entry, ⟨heq.symm.trans hholds.get, hholds.active, hholds.source⟩, Or.inl rfl⟩
  | inr heq =>
    rw [hholds.get] at heq
    obtain ⟨old, hold, hpruned⟩ := Option.map_eq_some_iff.mp heq.symm
    have hsame := prune_active now old
    rw [hpruned] at hsame
    exact ⟨old, ⟨hold, hsame.1.symm.trans hholds.active, hsame.2.symm.trans hholds.source⟩, Or.inr hpruned.symm⟩

theorem kept_map (now : Nat) (before : List AuthRateLimitEntry) (i : Nat) :
    Kept now before (before.map (pruneFailures · now)) i := Or.inr List.getElem?_map

/-- The table has its eight slots, and each source at most one of them. -/
structure Seated (table : List AuthRateLimitEntry) : Prop where
  size : table.length = rateLimitSourceMax
  distinct : ∀ {source : UInt32} {i j : Nat} {a b : AuthRateLimitEntry},
    Holds source table i a → Holds source table j b → i = j

theorem Seated.moved (h : Seated before) (slot : Nat) (hsize : after.length = before.length)
    (hcame : ∀ {source : UInt32} {i : Nat} {a : AuthRateLimitEntry}, Holds source after i a →
      (∃ b, Holds source before i b) ∨ (i = slot ∧ Absent source before)) : Seated after := by
  refine ⟨hsize.trans h.size, fun ha hb => ?_⟩
  obtain ⟨a', ha'⟩ | ⟨hi, habsent⟩ := hcame ha
  · obtain ⟨b', hb'⟩ | ⟨-, habsent⟩ := hcame hb
    · exact h.distinct ha' hb'
    · exact absurd habsent ha'.not_absent
  · obtain ⟨b', hb'⟩ | ⟨hj, -⟩ := hcame hb
    · exact absurd habsent hb'.not_absent
    · exact hi.trans hj.symm

theorem Seated.takes (h : Seated before) (htakes : Takes now slot entry before after)
    (hsource : entry.active = true → (∃ b, Holds entry.sourceIpv4 before slot b) ∨ Absent entry.sourceIpv4 before) :
    Seated after := by
  refine h.moved slot htakes.size fun {source i a} ha => ?_
  by_cases hslot : i = slot
  · rw [hslot] at ha ⊢
    have hentry : a = entry := ha.eq htakes.here
    rw [← ha.source, hentry]
    exact (hsource (hentry ▸ ha.active)).imp id fun habsent => ⟨rfl, habsent⟩
  · obtain ⟨old, hold, -⟩ := Kept.came (htakes.others i hslot) ha
    exact Or.inl ⟨old, hold⟩

variable {calls : AuthCalls} {core next : AuthCore} {effect : Effect}

theorem Seated.change (h : Seated core.rateLimits) (hchange : Change calls core next effect) : Seated next.rateLimits := by
  have hheld {source : UInt32} {slot : Nat} {old new : AuthRateLimitEntry} (hold : Holds source core.rateLimits slot old)
      (hsame : new.sourceIpv4 = old.sourceIpv4) : ∃ b, Holds new.sourceIpv4 core.rateLimits slot b :=
    ⟨old, hold.get, hold.active, hsame.symm⟩
  cases hchange with
  | aside haside => exact haside.1 ▸ h
  | absent habsent haside => exact haside.1 ▸ h
  | pruned hreads hholds hlast htakes => exact h.takes htakes fun _ => Or.inl (hheld hholds (prune_active _ _).2)
  | recorded hreads hholds hlocked hlast htakes =>
    exact h.takes htakes fun _ => Or.inl (hheld hholds ((addFailure_active _ _).2.trans (prune_active _ _).2))
  | taken hreads habsent hget hfree hlast htakes => exact h.takes htakes fun _ => Or.inr habsent
  | full hreads hlast htable =>
    rw [htable]
    refine h.moved 0 (List.length_map _) fun {source i a} ha => ?_
    obtain ⟨old, hold, -⟩ := (kept_map calls.nowUs.toNat core.rateLimits i).came ha
    exact Or.inl ⟨old, hold⟩
  | removed hholds hlast htable =>
    rw [htable]
    exact h.takes (takes_set calls.nowUs.toNat hholds.get .cleared) fun hactive => by cases hactive

theorem seated_init : Seated AuthCore.init.rateLimits := by
  refine ⟨rfl, fun ha _ => ?_⟩
  have hactive := ha.active
  rw [List.eq_of_mem_replicate ha.mem] at hactive
  cases hactive

theorem Change.lastNow_le (h : Change calls core next effect) (hclocked : Clocked core) : core.lastNowUs ≤ next.lastNowUs := by
  have hread {now : Nat} {base : AuthCore} (hnow : core.readNow calls = some (now, base)) : core.lastNowUs ≤ now := by
    by_cases hinit : core.clockInitialized = true
    · rw [(hclocked.read hnow).1]
      by_contra hlt
      rw [AuthCore.readNow, if_pos ⟨hinit, Nat.lt_of_not_le hlt⟩] at hnow
      cases hnow
    · rw [hclocked.start (by simpa using hinit)]
      exact Nat.zero_le _
  have haside (h : Aside calls core next) : core.lastNowUs ≤ next.lastNowUs := by
    obtain ⟨-, heq | ⟨now, base, hnow, heq⟩⟩ := h
    · exact heq.ge
    · exact heq ▸ hread hnow
  cases h with
  | aside h => exact haside h
  | absent habsent h => exact haside h
  | pruned hreads hholds hlast htakes => exact hlast ▸ hread hreads.read
  | recorded hreads hholds hlocked hlast htakes => exact hlast ▸ hread hreads.read
  | taken hreads habsent hget hfree hlast htakes => exact hlast ▸ hread hreads.read
  | full hreads hlast htable => exact hlast ▸ hread hreads.read
  | removed hholds hlast htable => exact hlast.ge

end Slots

section Runs

variable {source : UInt32} {known : Finset UInt32} {log : List Nat} {calls : AuthCalls} {core next : AuthCore} {effect : Effect}

/-- The limiter follows the history of a source: its entry holds what the history
earns, it has none only while the history is empty, and the sources of all entries
are known. -/
structure Tracked (source : UInt32) (known : Finset UInt32) (log : List Nat) (core : AuthCore) : Prop where
  known : ∀ {sourceIpv4 : UInt32} {i : Nat} {entry : AuthRateLimitEntry},
    Holds sourceIpv4 core.rateLimits i entry → sourceIpv4 ∈ known
  spaced : Spaced rateLimitFailureMax failureWindowUs lockoutUs log
  past : ∀ failure ∈ log, failure ≤ core.lastNowUs
  follows : ∀ {i : Nat} {entry : AuthRateLimitEntry}, Holds source core.rateLimits i entry → Follows core.lastNowUs log entry
  absent : Absent source core.rateLimits → log = []

theorem absent_of_not_holds {table : List AuthRateLimitEntry} (h : ∀ i entry, ¬ Holds source table i entry) :
    Absent source table := by
  intro entry hmem hactive heq
  obtain ⟨i, hget⟩ := List.getElem?_of_mem hmem
  exact h i entry ⟨hget, hactive, heq⟩

theorem follows_fresh (source : UInt32) (now : Nat) : Follows now [] (fresh source now) where
  lockout := rfl
  window := fun _ => rfl

theorem Tracked.later (h : Tracked source known log core) (hclocked : Clocked core) {now i : Nat} {entry : AuthRateLimitEntry}
    (hholds : Holds source core.rateLimits i entry) (hle : core.lastNowUs ≤ now) : Follows now log entry :=
  (h.follows hholds).later (hclocked.timed entry hholds.mem) h.spaced.pairwise hle

theorem Tracked.kept (h : Tracked source known log core) (hclocked : Clocked core) {now i : Nat}
    {after : List AuthRateLimitEntry} {entry : AuthRateLimitEntry} (hkept : Kept now core.rateLimits after i)
    (hle : core.lastNowUs ≤ now) (hholds : Holds source after i entry) : Follows now log entry := by
  obtain ⟨old, hold, heq | heq⟩ := hkept.came hholds
  · exact heq ▸ h.later hclocked hold hle
  · exact heq ▸ (h.later hclocked hold hle).prune (hclocked.timed old hold.mem)

theorem Tracked.aside (h : Tracked source known log core) (hclocked : Clocked core) (haside : Aside calls core next)
    (hle : core.lastNowUs ≤ next.lastNowUs) : Tracked source known log next where
  known := fun hholds => h.known (haside.1 ▸ hholds)
  spaced := h.spaced
  past := fun failure hmem => (h.past failure hmem).trans hle
  follows := fun hholds => h.later hclocked (haside.1 ▸ hholds) hle
  absent := fun habsent => h.absent (haside.1 ▸ habsent)

/-- The table after one slot was given an entry that follows the new history if it is the source's. -/
theorem Tracked.takes (h : Tracked source known log core) (hclocked : Clocked core) {after : List Nat} {slot : Nat}
    {entry : AuthRateLimitEntry} (hle : core.lastNowUs ≤ next.lastNowUs)
    (htakes : Takes next.lastNowUs slot entry core.rateLimits next.rateLimits)
    (hknown : entry.active = true → entry.sourceIpv4 ∈ known)
    (hspaced : Spaced rateLimitFailureMax failureWindowUs lockoutUs after)
    (hpast : ∀ failure ∈ after, failure ≤ next.lastNowUs)
    (hhere : Holds source next.rateLimits slot entry → Follows next.lastNowUs after entry)
    (hothers : ∀ i old, i ≠ slot → Holds source core.rateLimits i old → after = log)
    (habsent : Absent source next.rateLimits → after = []) : Tracked source known after next where
  known := fun {sourceIpv4 i a} hholds => by
    by_cases hslot : i = slot
    · rw [hslot] at hholds
      have hentry := hholds.eq htakes.here
      rw [← hholds.source, hentry]
      exact hknown (hentry ▸ hholds.active)
    · obtain ⟨old, hold, -⟩ := Kept.came (htakes.others i hslot) hholds
      exact h.known hold
  spaced := hspaced
  past := hpast
  follows := fun {i a} hholds => by
    by_cases hslot : i = slot
    · rw [hslot] at hholds
      have hentry := hholds.eq htakes.here
      rw [hentry] at hholds ⊢
      exact hhere hholds
    · obtain ⟨old, hold, -⟩ := Kept.came (htakes.others i hslot) hholds
      rw [hothers i old hslot hold]
      exact h.kept hclocked (htakes.others i hslot) hle hholds
  absent := habsent

theorem Tracked.elsewhere (h : Tracked source known log core) {slot : Nat} {entry : AuthRateLimitEntry}
    (htakes : Takes next.lastNowUs slot entry core.rateLimits next.rateLimits)
    (hslot : ∀ old, ¬ Holds source core.rateLimits slot old) (habsent : Absent source next.rateLimits) : log = [] := by
  refine h.absent (absent_of_not_holds fun i old hold => ?_)
  have hne : i ≠ slot := fun heq => hslot old (heq ▸ hold)
  obtain hkept | hkept := Kept.held (htakes.others i hne) hold
  · exact hkept.not_absent habsent
  · exact hkept.not_absent habsent

/-- A source without an entry leaves a slot of the table unused, when no more sources
are known than it has slots. -/
theorem inactive_of_absent (hseated : Seated core.rateLimits) (h : Tracked source known log core)
    (hcard : known.card ≤ rateLimitSourceMax) {sourceIpv4 : UInt32} (hmem : sourceIpv4 ∈ known)
    (habsent : Absent sourceIpv4 core.rateLimits) : ¬ ∀ entry ∈ core.rateLimits, entry.active = true := by
  intro hfull
  have hholds (i : Nat) (hlt : i < core.rateLimits.length) :
      Holds core.rateLimits[i].sourceIpv4 core.rateLimits i core.rateLimits[i] :=
    ⟨List.getElem?_eq_getElem hlt, hfull _ (List.getElem_mem hlt), rfl⟩
  have hnodup : (core.rateLimits.map (·.sourceIpv4)).Nodup := by
    rw [List.nodup_iff_injective_getElem]
    intro i j heq
    dsimp only at heq
    rw [List.getElem_map, List.getElem_map] at heq
    have hi := hholds i (by simpa using i.isLt)
    have hj := hholds j (by simpa using j.isLt)
    exact Fin.ext (hseated.distinct hi ⟨hj.get, hj.active, heq.symm⟩)
  have hsub : (core.rateLimits.map (·.sourceIpv4)).toFinset ⊆ known.erase sourceIpv4 := by
    intro other hother
    obtain ⟨entry, hentry, rfl⟩ := List.mem_map.mp (List.mem_toFinset.mp hother)
    obtain ⟨i, hget⟩ := List.getElem?_of_mem hentry
    exact Finset.mem_erase.mpr ⟨habsent entry hentry (hfull entry hentry), h.known ⟨hget, hfull entry hentry, rfl⟩⟩
  have hle := Finset.card_le_card hsub
  rw [List.toFinset_card_of_nodup hnodup, List.length_map, hseated.size, Finset.card_erase_of_mem hmem] at hle
  have hpos : 0 < known.card := Finset.card_pos.mpr ⟨sourceIpv4, hmem⟩
  omega

/-- The history after a failure of the source or of another one. -/
theorem Tracked.change (h : Tracked source known log core) (hclocked : Clocked core) (hseated : Seated core.rateLimits)
    (hcard : known.card ≤ rateLimitSourceMax) (hclock : calls.nowUs.toNat < 2 ^ 63)
    (hchange : Change calls core next effect) (hknown : ∀ sourceIpv4, effect = .failed sourceIpv4 → sourceIpv4 ∈ known) :
    Tracked source known (effect.history source calls.nowUs.toNat log) next := by
  have hle := hchange.lastNow_le hclocked
  have hpast (failure : Nat) (hmem : failure ∈ log) : failure ≤ next.lastNowUs := (h.past failure hmem).trans hle
  cases hchange with
  | aside haside => exact h.aside hclocked haside hle
  | @absent other habsent haside =>
    by_cases hother : other = source
    · have hempty := h.absent (hother ▸ habsent)
      rw [hempty] at h
      rw [Effect.history, hempty, ite_self]
      exact h.aside hclocked haside hle
    · rw [Effect.history, if_neg hother]
      exact h.aside hclocked haside hle
  | @pruned hreads other slot entry hholds hlast htakes =>
    rw [← hlast] at htakes
    have hsame := prune_active next.lastNowUs entry
    refine h.takes hclocked hle htakes (fun _ => ?_) h.spaced hpast (fun hhere => ?_) (fun _ _ _ _ => rfl) fun habsent => ?_
    · exact hsame.2 ▸ hholds.source ▸ h.known hholds
    · have hold : Holds source core.rateLimits slot entry := ⟨hholds.get, hholds.active, hsame.2.symm.trans hhere.source⟩
      exact (h.later hclocked hold hle).prune (hclocked.timed entry hholds.mem)
    · refine h.absent (absent_of_not_holds fun i old hold => ?_)
      by_cases hslot : i = slot
      · rw [hslot] at hold
        have hentry := hold.eq hholds.get
        rw [hentry] at hold
        exact (Holds.mk htakes.here (hsame.1.trans hold.active) (hsame.2.trans hold.source)).not_absent habsent
      · obtain hkept | hkept := Kept.held (htakes.others i hslot) hold
        · exact hkept.not_absent habsent
        · exact hkept.not_absent habsent
  | @recorded hreads other slot entry hholds hlocked hlast htakes =>
    rw [← hlast] at htakes hlocked hclock ⊢
    have hsame := addFailure_active next.lastNowUs (entry.pruneFailures next.lastNowUs)
    have hpruned := prune_active next.lastNowUs entry
    have hsource := hsame.2.trans hpruned.2
    have hactive := hsame.1.trans (hpruned.1.trans hholds.active)
    have hmem : (addFailure next.lastNowUs (entry.pruneFailures next.lastNowUs)).2.sourceIpv4 ∈ known :=
      hsource ▸ hholds.source ▸ h.known hholds
    by_cases hother : other = source
    · rw [hother] at hholds
      have hfollows := (h.later hclocked hholds hle).prune (hclocked.timed entry hholds.mem)
      have hunlocked : (entry.pruneFailures next.lastNowUs).locked next.lastNowUs = false :=
        (pruneFailures_of_active _ hholds.active).2.2.2.trans hlocked
      have hadded := addFailure_follows hfollows (pruned_of_unlocked hholds.active hunlocked) h.spaced.pairwise hpast hclock
      have hfree : heldUntil log ≤ next.lastNowUs := by
        have hfalse := hfollows.locked.symm.trans hunlocked
        simpa using hfalse
      rw [if_pos hadded.1, Effect.history, if_pos hother]
      refine h.takes hclocked hle htakes (fun _ => hmem) ⟨hfree, hpast, h.spaced⟩ (fun failure hin => ?_)
        (fun _ => hadded.2) (fun i old hslot hold => absurd (hseated.distinct hold hholds) hslot) fun habsent => ?_
      · exact (List.mem_cons.mp hin).elim le_of_eq (hpast failure)
      · exact absurd habsent (Holds.mk htakes.here hactive (hsource.trans hholds.source)).not_absent
    · have hlog : Effect.history source next.lastNowUs log
          (if (addFailure next.lastNowUs (entry.pruneFailures next.lastNowUs)).1 = .none then .failed other else .none) =
          log := by
        split
        · exact if_neg hother
        · rfl
      rw [hlog]
      refine h.takes hclocked hle htakes (fun _ => hmem) h.spaced hpast (fun hhere => ?_) (fun _ _ _ _ => rfl)
        (h.elsewhere htakes fun old hold => ?_)
      · exact absurd (hholds.source.symm.trans (hsource.symm.trans hhere.source)) hother
      · exact hother (hholds.source.symm.trans (hold.eq hholds.get ▸ hold.source))
  | @taken hreads other habsent slot entry hget hfree hlast htakes =>
    rw [← hlast] at htakes hclock ⊢
    have hmem := hknown other rfl
    have hinactive : entry.active = false := by
      cases hfree with
      | inl hfree => exact hfree
      | inr hfree => exact absurd hfree.1 (inactive_of_absent hseated h hcard hmem habsent)
    have hnew : Holds other next.rateLimits slot (failedOnce other next.lastNowUs) := ⟨htakes.here, rfl, rfl⟩
    by_cases hother : other = source
    · have hempty := h.absent (hother ▸ habsent)
      rw [Effect.history, if_pos hother, hempty]
      refine h.takes hclocked hle htakes (fun _ => hmem) ⟨Nat.zero_le _, nofun, trivial⟩ (fun failure hin => ?_)
        (fun _ => ?_) (fun i old hslot hold => absurd (hother ▸ habsent) hold.not_absent) fun hgone => ?_
      · exact (List.mem_singleton.mp hin).le
      · have hadded := (addFailure_follows (follows_fresh other next.lastNowUs) (pruned_fresh other next.lastNowUs)
          List.Pairwise.nil nofun hclock).2
        have hfailed : (addFailure next.lastNowUs (fresh other next.lastNowUs)).2 = failedOnce other next.lastNowUs := by
          simp [addFailure, fresh, failedOnce, rateLimitFailureMax]
        exact hfailed ▸ hadded
      · exact absurd (hother.symm ▸ hgone) hnew.not_absent
    · rw [Effect.history, if_neg hother]
      refine h.takes hclocked hle htakes (fun _ => hmem) h.spaced hpast (fun hhere => absurd hhere.source hother)
        (fun _ _ _ _ => rfl) (h.elsewhere htakes fun old hold => ?_)
      have hactive := hold.active
      rw [hold.eq hget, hinactive] at hactive
      cases hactive
  | full hreads hlast htable =>
    have hkept (i : Nat) : Kept next.lastNowUs core.rateLimits next.rateLimits i := by
      rw [htable, ← hlast]
      exact kept_map _ _ i
    refine ⟨fun {sourceIpv4 i entry} hholds => ?_, h.spaced, hpast, fun {i entry} hholds => ?_, fun habsent => ?_⟩
    · obtain ⟨old, hold, -⟩ := (hkept i).came hholds
      exact h.known hold
    · exact h.kept hclocked (hkept i) hle hholds
    · refine h.absent (absent_of_not_holds fun i old hold => ?_)
      obtain hheld | hheld := (hkept i).held hold
      · exact hheld.not_absent habsent
      · exact hheld.not_absent habsent
  | @removed other slot entry hholds hlast htable =>
    have htakes : Takes next.lastNowUs slot .cleared core.rateLimits next.rateLimits := by
      rw [htable]
      exact takes_set _ hholds.get _
    by_cases hother : other = source
    · rw [hother] at hholds
      rw [Effect.history, if_pos hother]
      refine h.takes hclocked hle htakes (fun hactive => by cases hactive) trivial nofun (fun hhere => ?_)
        (fun i old hslot hold => absurd (hseated.distinct hold hholds) hslot) fun _ => rfl
      cases hhere.active
    · rw [Effect.history, if_neg hother]
      refine h.takes hclocked hle htakes (fun hactive => by cases hactive) h.spaced hpast (fun hhere => ?_)
        (fun _ _ _ _ => rfl) (h.elsewhere htakes fun old hold => ?_)
      · cases hhere.active
      · exact hother (hholds.source.symm.trans (hold.eq hholds.get ▸ hold.source))

theorem runOperations_concat (run : List (AuthCalls × AuthOperation)) (step : AuthCalls × AuthOperation) :
    (runOperations (run ++ [step])).1 = step.2.apply step.1 (runOperations run).1 := by
  rw [runOperations, List.foldl_append, List.foldl_cons, List.foldl_nil]
  rfl

theorem seated_run (run : List (AuthCalls × AuthOperation)) : Seated (runOperations run).1.rateLimits := by
  induction run using List.reverseRecOn with
  | nil => exact seated_init
  | append_singleton run step ih =>
    obtain ⟨effect, hchange, -⟩ := change_apply step.1 (runOperations run).1 step.2
    rw [runOperations_concat]
    exact ih.change hchange

theorem tracked_run (source : UInt32) (hcard : known.card ≤ rateLimitSourceMax) (run : List (AuthCalls × AuthOperation))
    (hrun : ∀ step ∈ run, Permitted known step) :
    Tracked source known (failures source run) (runOperations run).1 := by
  induction run using List.reverseRecOn with
  | nil =>
    have hnone {sourceIpv4 : UInt32} {i : Nat} {entry : AuthRateLimitEntry} :
        ¬ Holds sourceIpv4 AuthCore.init.rateLimits i entry := fun hholds => by
      have hactive := hholds.active
      rw [List.eq_of_mem_replicate hholds.mem] at hactive
      cases hactive
    exact ⟨fun hholds => absurd hholds hnone, trivial, nofun, fun hholds => absurd hholds hnone, fun _ => rfl⟩
  | append_singleton run step ih =>
    have hprefix := ih fun earlier hmem => hrun earlier (List.mem_append_left _ hmem)
    have hstep := hrun step (List.mem_append_right _ List.mem_cons_self)
    obtain ⟨effect, hchange, hcounted, hfailed, -⟩ := change_apply step.1 (runOperations run).1 step.2
    rw [runOperations_concat, failures_concat, hcounted]
    exact hprefix.change (clocked_run run) (seated_run run) hcard hstep.clock hchange
      fun sourceIpv4 heffect => hstep.source sourceIpv4 (hfailed sourceIpv4 heffect)

end Runs

section Answers

variable {source : UInt32} {known : Finset UInt32} {log : List Nat} {calls : AuthCalls} {core : AuthCore}

theorem heldUntil_nil : heldUntil [] = 0 := rfl

theorem Tracked.attempt (h : Tracked source known log core) (hclocked : Clocked core) (hreads : Reads calls core) :
    ((core.loginAttemptAllowed calls source).1, (core.loginAttemptAllowed calls source).2.1) =
      if calls.nowUs.toNat < heldUntil log then (.rateLimited, retrySeconds (heldUntil log - calls.nowUs.toNat))
      else (.none, 0) := by
  have hle : core.lastNowUs ≤ calls.nowUs.toNat :=
    (Change.aside (aside_ticked hreads)).lastNow_le hclocked
  obtain ⟨hnot, -⟩ | ⟨-, habsent, heq⟩ | ⟨-, slot, entry, hholds, heq⟩ := attemptAllowed_cases source calls core
  · exact absurd hreads hnot
  · rw [heq, h.absent habsent, heldUntil_nil, if_neg (Nat.not_lt_zero _)]
  · have hfollows := h.later hclocked hholds hle
    have hpruned := hfollows.prune (hclocked.timed entry hholds.mem)
    rw [heq, hfollows.locked]
    by_cases hheld : calls.nowUs.toNat < heldUntil log
    · rw [if_pos hheld, hpruned.until hheld, decide_eq_true hheld]
      rfl
    · rw [if_neg hheld, decide_eq_false hheld]
      rfl

theorem Tracked.failure (h : Tracked source known log core) (hclocked : Clocked core) (hseated : Seated core.rateLimits)
    (hcard : known.card ≤ rateLimitSourceMax) (hmem : source ∈ known) (hreads : Reads calls core)
    (hclock : calls.nowUs.toNat < 2 ^ 63) :
    (core.loginRecordFailure calls source).1 =
      if calls.nowUs.toNat < heldUntil log then .rateLimited else .none := by
  have hle : core.lastNowUs ≤ calls.nowUs.toNat :=
    (Change.aside (aside_ticked hreads)).lastNow_le hclocked
  have hlocked {slot : Nat} {entry : AuthRateLimitEntry} (hholds : Holds source core.rateLimits slot entry) :
      entry.locked calls.nowUs.toNat = decide (calls.nowUs.toNat < heldUntil log) := (h.later hclocked hholds hle).locked
  cases recordFailure_outcome source calls core with
  | unread hnot heq => exact absurd hreads hnot
  | held _ hholds hheld heq =>
    rw [heq, if_pos (of_decide_eq_true ((hlocked hholds).symm.trans hheld))]
  | added _ hholds hfree heq =>
    have hpruned := (h.later hclocked hholds hle).prune (hclocked.timed _ hholds.mem)
    have hunlocked := (pruneFailures_of_active calls.nowUs.toNat hholds.active).2.2.2.trans hfree
    have hadded := addFailure_follows hpruned (pruned_of_unlocked hholds.active hunlocked) h.spaced.pairwise
      (fun failure hin => (h.past failure hin).trans hle) hclock
    rw [heq, if_neg (of_decide_eq_false ((hlocked hholds).symm.trans hfree)), hadded.1]
  | taken _ habsent hget hfree htakes heq =>
    rw [heq, h.absent habsent, heldUntil_nil, if_neg (Nat.not_lt_zero _)]
  | full _ habsent hfull heq =>
    exact absurd (fun entry hin => (hfull entry hin).1) (inactive_of_absent hseated h hcard hmem habsent)

end Answers

/-- When no more than eight sources ever fail, the limiter answers each source by its
own history alone, whatever the others do in between: it is refused exactly during the
five minutes after a failure that is the fifth within a minute, a failure is recorded
at every other time, and no minute holds more than five. -/
theorem login_throttle (source : UInt32) {known : Finset UInt32} (hcard : known.card ≤ rateLimitSourceMax)
    (run : List (AuthCalls × AuthOperation)) (hrun : ∀ step ∈ run, Permitted known step) (calls : AuthCalls)
    (hreads : Reads calls (runOperations run).1) (hclock : calls.nowUs.toNat < 2 ^ 63) :
    Spaced rateLimitFailureMax failureWindowUs lockoutUs (failures source run) ∧
    (∀ start, ((failures source run).filter
      (fun failure => start ≤ failure ∧ failure < start + failureWindowUs)).length ≤ rateLimitFailureMax) ∧
    (((runOperations run).1.loginAttemptAllowed calls source).1,
      ((runOperations run).1.loginAttemptAllowed calls source).2.1) =
      (if calls.nowUs.toNat < heldUntil (failures source run) then
        (.rateLimited, retrySeconds (heldUntil (failures source run) - calls.nowUs.toNat))
      else (.none, 0)) ∧
    (source ∈ known → ((runOperations run).1.loginRecordFailure calls source).1 =
      if calls.nowUs.toNat < heldUntil (failures source run) then .rateLimited else .none) := by
  have htracked := tracked_run source hcard run hrun
  refine ⟨htracked.spaced, fun start => ?_, htracked.attempt (clocked_run run) hreads, fun hmem => ?_⟩
  · exact htracked.spaced.length_le (by decide) (by decide) start
  · exact htracked.failure (clocked_run run) (seated_run run) hcard hmem hreads hclock

def fiveFailures : List (AuthCalls × AuthOperation) :=
  (atSeconds 1, .recordFailure 7) :: (List.range 5).map fun n => (atSeconds (.ofNat (n + 1)), .recordFailure 3)

theorem login_throttle_five : ((runOperations fiveFailures).1.loginAttemptAllowed (atSeconds 6) 3).1 = .rateLimited ∧
    ((runOperations fiveFailures).1.loginAttemptAllowed (atSeconds 6) 3).2.1 = 299 := by
  have hrun : ∀ step ∈ fiveFailures, Permitted {3, 7} step := by
    intro step hmem
    have hsteps : step.2 = .recordFailure 7 ∨ step.2 = .recordFailure 3 := by
      obtain rfl | hlater := List.mem_cons.mp hmem
      · exact Or.inl rfl
      · obtain ⟨n, -, rfl⟩ := List.mem_map.mp hlater
        exact Or.inr rfl
    have hclocks : (fiveFailures.all fun step => decide (step.1.nowUs.toNat < 2 ^ 63)) = true := by decide +kernel
    refine ⟨fun sourceIpv4 heq => ?_, of_decide_eq_true (List.all_eq_true.mp hclocks step hmem)⟩
    obtain hseven | hthree := hsteps
    · cases heq.symm.trans hseven
      decide
    · cases heq.symm.trans hthree
      decide
  have hthrottle := (login_throttle 3 (by decide : ({3, 7} : Finset UInt32).card ≤ rateLimitSourceMax) fiveFailures hrun
    (atSeconds 6) ⟨rfl, rfl, by decide +kernel⟩ (by decide +kernel)).2.2.1
  have hheld : heldUntil (failures 3 fiveFailures) = 305000000 := by decide +kernel
  have hnow : (atSeconds 6).nowUs.toNat = 6000000 := by decide +kernel
  rw [hheld, hnow, if_pos (by decide)] at hthrottle
  exact ⟨congrArg Prod.fst hthrottle, (congrArg Prod.snd hthrottle).trans (by decide)⟩

end MacroKeyboard.Auth.Throttling
