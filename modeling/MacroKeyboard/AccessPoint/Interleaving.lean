import MacroKeyboard.AccessPoint.Ownership

namespace MacroKeyboard.AccessPoint

open Device Threads.Program Threads.Monitor Threads.RelyGuarantee

/-- Between calls: nothing is held only at rest, and after a stop that reported
success the engine is stopped and holds nothing. -/
def Resting (caller : CallerState) (status : WifiApStatus) : Prop :=
  ((∀ resource, caller.flags.holds resource = false) → Idle status) ∧
    (stoppedBy caller.calls = true → status.state = .stopped ∧ ∀ resource, caller.flags.holds resource = false)

structure Inv (world : World) : Prop where
  sound : Sound world
  restarts : Undisturbed world → Restarts world.caller.calls
  resting : Undisturbed world → world.caller.inCall = false → Resting world.caller world.status

/-- What the event handler may do between two steps of a call: handle events, and
write back a status that a call has replaced. -/
def Meanwhile (before after : World) : Prop :=
  after.caller = before.caller ∧ (Undisturbed after → Undisturbed before ∧
    (after.status = before.status ∨ ∃ event : WifiApEvent, event.apply before.status = some after.status))

def callerLogic : Logic World := ⟨Inv, fun _ => False, Meanwhile, fun _ _ => True⟩

def eventLogic : Logic World := ⟨Inv, fun _ => False, fun _ _ => True, Meanwhile⟩

section Assertions

def Kept (Q : WifiApStatus → Prop) : Prop :=
  ∀ (event : WifiApEvent) (status next : WifiApStatus), Q status → event.apply status = some next → Q next

/-- A fact of what the calls own, and one of the published status in an undisturbed
run. -/
def Holds (P : CallerState → Prop) (Q : CallerState → WifiApStatus → Prop) (world : World) : Prop :=
  P world.caller ∧ (Undisturbed world → Q world.caller world.status)

theorem stable_holds {P : CallerState → Prop} {Q : CallerState → WifiApStatus → Prop} (hQ : ∀ caller, Kept (Q caller)) :
    Stable callerLogic (Holds P Q) := by
  rintro before after - - ⟨hcaller, hstatus⟩ ⟨hP, h⟩
  refine ⟨by rwa [hcaller], fun hafter => ?_⟩
  obtain ⟨hbefore, hsame | ⟨event, happly⟩⟩ := hstatus hafter
  · rw [hcaller, hsame]
    exact h hbefore
  · rw [hcaller]
    exact hQ _ event _ _ (h hbefore) happly

theorem kept_true : Kept (fun _ => True) := fun _ _ _ _ _ => trivial

theorem kept_idle : Kept Idle := fun _ _ _ hidle happly => apply_idle happly hidle

theorem kept_resting (caller : CallerState) : Kept (Resting caller) := fun _ _ _ h happly =>
  ⟨fun hfree => apply_idle happly (h.1 hfree), fun hstopped => ⟨apply_stopped happly (h.2 hstopped).1, (h.2 hstopped).2⟩⟩

theorem Kept.and {Q R : WifiApStatus → Prop} (hQ : Kept Q) (hR : Kept R) : Kept (fun status => Q status ∧ R status) :=
  fun event status next h happly => ⟨hQ event status next h.1 happly, hR event status next h.2 happly⟩

theorem kept_stopped (c : Prop) : Kept (fun status => c → status.state = .stopped) :=
  fun _ _ _ h happly hc => apply_stopped happly (h hc)

theorem kept_const (c : Prop) : Kept (fun _ => c) := fun _ _ _ h _ => h

end Assertions

section CallSteps

def Busy (accepted : Bool) (calls : List CallRecord) (caller : CallerState) : Prop :=
  caller.inCall = true ∧ caller.accepted = accepted ∧ caller.calls = calls

variable {P : CallerState → Prop} {Q : CallerState → WifiApStatus → Prop} {accepted : Bool} {calls : List CallRecord}

theorem Inv.call {before after : World} (h : Inv before) (hcall : after.caller.inCall = true)
    (hcalls : after.caller.calls = before.caller.calls) (hwrites : after.writeBacks = before.writeBacks)
    (howned : Owned after.caller) (hclients : after.status.clientCount ≤ 4) : Inv after where
  sound := ⟨howned, hclients, by rw [hcalls]; exact h.sound.stops⟩
  restarts := by
    rw [Undisturbed, hwrites, hcalls]
    exact h.restarts
  resting := fun _ hrest => by rw [hcall] at hrest; cases hrest

theorem valid_statusGet (hQ : ∀ caller, Kept (Q caller)) : Valid callerLogic statusGet (Holds P Q) (fun current =>
    Holds P (fun caller status => Q caller status ∧ Q caller current ∧ (current.state = .stopped → status.state = .stopped))) := by
  refine valid_atomic (fun current => stable_holds fun caller => ?_) fun driver world hinv hP => ⟨hinv, trivial, hP.1, ?_⟩
  · exact (hQ caller).and ((kept_const _).and (kept_stopped _))
  · exact fun hundisturbed => ⟨hP.2 hundisturbed, hP.2 hundisturbed, fun hstopped => hstopped⟩

theorem valid_ownsResources (hQ : ∀ caller, Kept (Q caller)) : Valid callerLogic ownsResources (Holds P Q) (fun owned =>
    Holds (fun caller => P caller ∧ caller.flags.ownsResources = owned) Q) :=
  valid_atomic (fun _ => stable_holds hQ) fun _ _ hinv hP => ⟨hinv, trivial, ⟨hP.1, rfl⟩, hP.2⟩

theorem valid_ask (f : WifiDriver → AppError) (hQ : ∀ caller, Kept (Q caller)) :
    Valid callerLogic (Prog.ask f) (Holds P Q) (fun _ => Holds P Q) :=
  valid_atomic (fun _ => stable_holds hQ) fun _ _ hinv hP => ⟨hinv, trivial, hP⟩

theorem valid_publishStatus {status : WifiApStatus} {R : WifiApStatus → Prop} (hclients : status.clientCount ≤ 4)
    (hkept : Kept R) (hR : R status) (hP : ∀ caller, P caller → caller.inCall = true) :
    Valid callerLogic (publishStatus status) (Holds P Q) (fun _ => Holds P (fun _ => R)) := by
  refine valid_atomic (fun _ => stable_holds fun _ => hkept) fun driver world hinv h => ⟨?_, trivial, h.1, fun _ => hR⟩
  exact hinv.call (hP _ h.1) rfl rfl hinv.sound.owned hclients

theorem valid_releaseHeld (resource : Resource) (firstError : AppError) {before : CallerState} (hcall : before.inCall = true) :
    Valid callerLogic (releaseHeld resource firstError) (Holds (fun caller => caller = before) fun _ _ => True) (fun error world =>
      ∃ middle, ((before.flags.holds resource = true ∧
          ∃ result, middle = before.released resource result ∧ error = recordFirstError result firstError) ∨
        (before.flags.holds resource = false ∧ middle = before ∧ error = firstError)) ∧
        Holds (fun caller => caller = middle) (fun _ _ => True) world) := by
  refine valid_atomic (fun error => ?_) ?_
  · rintro world world' hinv hinv' hmeanwhile ⟨middle, hmiddle, hholds⟩
    exact ⟨middle, hmiddle, stable_holds (fun _ => kept_true) world world' hinv hinv' hmeanwhile hholds⟩
  · rintro driver world hinv ⟨rfl, -⟩
    dsimp only
    by_cases hheld : world.caller.flags.holds resource = true
    · rw [if_pos hheld]
      have howned : Owned (world.caller.released resource (releaseCall driver resource)) :=
        owned_released hinv.sound.owned hheld
      exact ⟨hinv.call hcall rfl rfl howned hinv.sound.clients, trivial, _, Or.inl ⟨hheld, _, rfl, rfl⟩, rfl, fun _ => trivial⟩
    · rw [if_neg hheld]
      exact ⟨hinv, trivial, _, Or.inr ⟨Bool.eq_false_iff.mpr hheld, rfl, rfl⟩, rfl, fun _ => trivial⟩

theorem valid_releaseAll (order : List Resource) (hnodup : order.Nodup) (firstError : AppError) (before : CallerState)
    (hcall : before.inCall = true) : Valid callerLogic (releaseAll order firstError)
      (Holds (fun caller => caller = before) fun _ _ => True)
      (fun result => Holds (fun after => ∃ attempts, Cleaned order before firstError result attempts after) fun _ _ => True) := by
  induction order generalizing firstError before with
  | nil =>
    refine valid_ret ?_
    rintro world - ⟨rfl, -⟩
    exact ⟨⟨[], cleaned_nil⟩, fun _ => trivial⟩
  | cons resource rest ih =>
    rw [List.nodup_cons] at hnodup
    refine valid_bind (valid_releaseHeld resource firstError hcall) fun error => valid_exists fun middle => ?_
    refine valid_pure_and fun hmiddle => ?_
    have hstill : middle.inCall = true := by
      rcases hmiddle with ⟨-, result, rfl, -⟩ | ⟨-, rfl, -⟩ <;> exact hcall
    refine (ih hnodup.2 error middle hstill).post fun result world _ hpost => ?_
    obtain ⟨⟨attempts, hcleaned⟩, -⟩ := hpost
    rcases hmiddle with ⟨hheld, tried, rfl, rfl⟩ | ⟨hfree, rfl, rfl⟩
    · exact ⟨⟨_, hcleaned.held hheld hnodup.1⟩, fun _ => trivial⟩
    · exact ⟨⟨_, hcleaned.free hfree hnodup.1⟩, fun _ => trivial⟩

theorem valid_cleanupResources {before : CallerState} (hcall : before.inCall = true) : Valid callerLogic cleanupResources
    (Holds (fun caller => caller = before) fun _ _ => True)
    (fun result => Holds (fun after => ∃ attempts, Cleaned releaseOrder before .none result attempts after) fun _ _ => True) :=
  valid_releaseAll releaseOrder (by decide) .none before hcall

end CallSteps

section Starts

variable {calls : List CallRecord} {held : List Resource}

def Starting (calls : List CallRecord) (held : List Resource) (caller : CallerState) : Prop :=
  Busy true calls caller ∧ ∀ resource, caller.flags.holds resource = decide (resource ∈ held)

def Started (calls : List CallRecord) : World → Prop :=
  Holds (Busy true calls) fun caller status => (∀ resource, caller.flags.holds resource = false) → Idle status

theorem valid_failStart (original : AppError) : Valid callerLogic (failStart original)
    (Holds (Busy true calls) fun _ _ => True) (fun _ => Started calls) := by
  have hfixed (before : CallerState) (hbusy : Busy true calls before) : Valid callerLogic (failStart original)
      (Holds (fun caller => caller = before) fun _ _ => True) (fun _ => Started calls) := by
    refine valid_bind (valid_cleanupResources hbusy.1) fun cleanupError => ?_
    have hafter : ∀ after, (∃ attempts, Cleaned releaseOrder before .none cleanupError attempts after) →
        Busy true calls after := by
      rintro after ⟨attempts, hcleaned⟩
      exact ⟨hcleaned.inCall.trans hbusy.1, hcleaned.accepted.trans hbusy.2.1, hcleaned.calls.trans hbusy.2.2⟩
    have hidle : Idle ⟨.error, 0, original, cleanupError⟩ := ⟨Or.inr rfl, rfl⟩
    refine valid_bind (valid_publishStatus (Nat.zero_le _) kept_idle hidle fun after h => (hafter after h).1) fun _ => ?_
    exact valid_ret fun world _ h => ⟨hafter _ h.1, fun hundisturbed _ => h.2 hundisturbed⟩
  exact (valid_exists fun before => valid_pure_and (hfixed before)).pre fun world _ h =>
    ⟨world.caller, h.1, rfl, fun _ => trivial⟩

theorem valid_orFail {call rest : ApProg AppError} {next : List Resource}
    (hcall : Valid callerLogic call (Holds (Starting calls held) fun _ _ => True) (fun result =>
      Holds (fun caller => Busy true calls caller ∧ (result = .none → Starting calls next caller)) fun _ _ => True))
    (hrest : Valid callerLogic rest (Holds (Starting calls next) fun _ _ => True) (fun _ => Started calls)) :
    Valid callerLogic (orFail call rest) (Holds (Starting calls held) fun _ _ => True) (fun _ => Started calls) := by
  refine valid_bind hcall fun result => ?_
  by_cases hresult : result = .none
  · rw [if_neg (not_not.mpr hresult)]
    exact hrest.pre fun world _ h => ⟨h.1.2 hresult, h.2⟩
  · rw [if_pos hresult]
    exact (valid_failStart result).pre fun world _ h => ⟨h.1.1, h.2⟩

theorem valid_orFail_ask (f : WifiDriver → AppError) {rest : ApProg AppError}
    (hrest : Valid callerLogic rest (Holds (Starting calls held) fun _ _ => True) (fun _ => Started calls)) :
    Valid callerLogic (orFail (Prog.ask f) rest) (Holds (Starting calls held) fun _ _ => True) (fun _ => Started calls) :=
  valid_orFail ((valid_ask f fun _ => kept_true).post fun _ _ _ h => ⟨⟨h.1.1, fun _ => h.1⟩, h.2⟩) hrest

theorem valid_orFail_acquire (resource : Resource) (call : WifiDriver → AppError) (hnew : resource ∉ held)
    {rest : ApProg AppError}
    (hrest : Valid callerLogic rest (Holds (Starting calls (resource :: held)) fun _ _ => True) (fun _ => Started calls)) :
    Valid callerLogic (orFail (acquire resource call) rest) (Holds (Starting calls held) fun _ _ => True)
      (fun _ => Started calls) := by
  refine valid_orFail (valid_atomic (fun _ => stable_holds fun _ => kept_true) ?_) hrest
  rintro driver world hinv ⟨⟨hbusy, hheld⟩, -⟩
  have hfree : world.caller.flags.holds resource = false := by
    rw [hheld]
    exact decide_eq_false hnew
  have howned : Owned (world.caller.acquired resource (call driver)) := owned_acquired hinv.sound.owned hfree
  refine ⟨hinv.call hbusy.1 rfl rfl howned hinv.sound.clients, trivial, ⟨hbusy, fun hresult => ⟨hbusy, fun other => ?_⟩⟩,
    fun _ => trivial⟩
  have hnone : call driver = .none := hresult
  have hacquired : heldAfterAcquire resource (call driver) = true := by simp [heldAfterAcquire, hnone]
  simp only [CallerState.acquired, hacquired, if_true, Ownership.holds_set, List.mem_cons, Bool.decide_or, hheld]
  by_cases hother : other = resource <;> simp [hother]

theorem valid_bringUp (configuration : WifiApRuntimeConfig) : Valid callerLogic (bringUp configuration)
    (Holds (Starting calls []) fun _ _ => True) (fun _ => Started calls) := by
  refine valid_orFail_ask _ (valid_orFail_ask _ ?_)
  refine valid_orFail_acquire .netif _ (by decide) ?_
  refine valid_orFail_acquire .wifi _ (by decide) ?_
  refine valid_orFail_acquire .handler _ (by decide) ?_
  refine valid_orFail_ask _ (valid_orFail_ask _ ?_)
  refine valid_orFail_acquire .running _ (by decide) ?_
  refine valid_ret fun world _ h => ⟨h.1.1, fun _ hfree => ?_⟩
  have hrunning := h.1.2 .running
  rw [hfree] at hrunning
  exact absurd hrunning (by decide)

/-- Whether a start was accepted, what it leaves behind, and why it was not. -/
def StartEnds (ssid passphrase : List UInt8) (calls : List CallRecord) : World → Prop :=
  Holds (fun caller => caller.inCall = true ∧ caller.calls = calls) fun caller status =>
    ((∀ resource, caller.flags.holds resource = false) → Idle status) ∧
      (caller.accepted = false → stoppedBy calls = true →
        (status.state = .stopped ∧ ∀ resource, caller.flags.holds resource = false) ∧
          ¬ (makeConfiguration ssid passphrase).toOption.isSome)

theorem valid_publishStarting {Q : CallerState → WifiApStatus → Prop} : Valid callerLogic publishStarting
    (Holds (fun caller => Busy false calls caller ∧ caller.flags.ownsResources = false) Q)
    (fun _ => Holds (Starting calls []) fun _ _ => True) := by
  refine valid_atomic (fun _ => stable_holds fun _ => kept_true) ?_
  rintro driver world hinv ⟨⟨⟨hcall, -, hcalls⟩, hfree⟩, -⟩
  refine ⟨hinv.call hcall rfl rfl hinv.sound.owned (Nat.zero_le _), trivial, ⟨⟨hcall, rfl, hcalls⟩, fun resource => ?_⟩,
    fun _ => trivial⟩
  exact (Ownership.ownsResources_eq_false.mp hfree resource).trans (by simp)

theorem valid_wifiApEngineStart (ssid passphrase : List UInt8) : Valid callerLogic (wifiApEngineStart ssid passphrase)
    (Holds (Busy false calls) Resting) (fun _ => StartEnds ssid passphrase calls) := by
  refine valid_bind (valid_statusGet kept_resting) fun current => ?_
  refine valid_bind (valid_ownsResources fun caller => (kept_resting caller).and ((kept_const _).and (kept_stopped _)))
    fun owned => ?_
  have hrefused (hwhy : (current.state ≠ .stopped ∨ owned = true) ∨ ¬ (makeConfiguration ssid passphrase).toOption.isSome)
      (world : World) (h : Holds (fun caller => Busy false calls caller ∧ caller.flags.ownsResources = owned)
        (fun caller status => Resting caller status ∧ Resting caller current ∧
          (current.state = .stopped → status.state = .stopped)) world) : StartEnds ssid passphrase calls world := by
    obtain ⟨⟨⟨hcall, -, hcalls⟩, howned⟩, hstatus⟩ := h
    refine ⟨⟨hcall, hcalls⟩, fun hundisturbed => ?_⟩
    obtain ⟨hrest, hcurrent, -⟩ := hstatus hundisturbed
    refine ⟨hrest.1, fun _ hstopped => ?_⟩
    rw [← hcalls] at hstopped
    refine ⟨hrest.2 hstopped, ?_⟩
    rcases hwhy with (hstate | hheld) | hinvalid
    · exact absurd (hcurrent.2 hstopped).1 hstate
    · rw [Ownership.ownsResources_eq_false.mpr (hrest.2 hstopped).2] at howned
      rw [← howned] at hheld
      cases hheld
    · exact hinvalid
  split_ifs with hconflict
  · exact valid_ret fun world _ h => hrefused (Or.inl hconflict) world h
  rw [not_or] at hconflict
  obtain rfl : owned = false := Bool.eq_false_iff.mpr hconflict.2
  cases hconfiguration : makeConfiguration ssid passphrase with
  | error result =>
    refine valid_ret fun world _ h => hrefused (Or.inr ?_) world h
    rw [hconfiguration]
    exact Bool.false_ne_true
  | ok configuration =>
    refine valid_bind valid_publishStarting fun _ => (valid_bringUp configuration).post fun _ world _ h => ?_
    obtain ⟨⟨hcall, haccepted, hcalls⟩, hidle⟩ := h
    refine ⟨⟨hcall, hcalls⟩, fun hundisturbed => ⟨hidle hundisturbed, fun hrefused => ?_⟩⟩
    rw [haccepted] at hrefused
    cases hrefused

end Starts

section Stops

variable {calls : List CallRecord} {begun : List Resource × Nat}

theorem heldResources_eq_nil {caller : CallerState} :
    caller.heldResources = [] ↔ ∀ resource, caller.flags.holds resource = false := by
  rw [CallerState.heldResources, List.filter_eq_nil_iff]
  constructor
  · intro h resource
    have hmem : resource ∈ releaseOrder := by cases resource <;> decide
    exact Bool.eq_false_iff.mpr (h resource hmem)
  · intro h resource _
    rw [h resource]
    exact Bool.false_ne_true

theorem firstErrorOf_eq_none {results : List AppError} : firstErrorOf results = .none ↔ ∀ result ∈ results, result = .none := by
  induction results with
  | nil => exact ⟨fun _ _ h => absurd h List.not_mem_nil, fun _ => rfl⟩
  | cons error results ih =>
    rw [firstErrorOf_cons, List.forall_mem_cons]
    split_ifs with herror
    · rw [ih]
      exact ⟨fun h => ⟨herror, h⟩, fun h => h.2⟩
    · exact ⟨fun h => absurd h herror, fun h => h.1⟩

theorem Cleaned.stopsProperly {before after : CallerState} {result : AppError} {attempts : List (Resource × AppError)}
    (h : Cleaned releaseOrder before .none result attempts after) :
    StopsProperly before.heldResources (after.history.drop before.history.length) result after.heldResources := by
  have hresult : result = firstErrorOf (attempts.map Prod.snd) := by rw [h.result, firstErrorOf_cons, if_pos rfl]
  refine ⟨attempts, ?_, h.tried, hresult, h.left, fun hnone => ?_⟩
  · rw [h.history, List.drop_left]
  · rw [hnone] at hresult
    rw [CallerState.heldResources, h.left, List.map_eq_nil_iff, List.filter_eq_nil_iff]
    intro attempt hmem hfailed
    exact of_decide_eq_true hfailed (firstErrorOf_eq_none.mp hresult.symm _ (List.mem_map_of_mem hmem))

def Begun (calls : List CallRecord) (begun : List Resource × Nat) (caller : CallerState) : Prop :=
  Busy false calls caller ∧ caller.heldResources = begun.1 ∧ caller.history.length = begun.2

/-- What a stop has done, and what it leaves behind. -/
def StopEnds (begun : List Resource × Nat) (calls : List CallRecord) (result : AppError) : World → Prop :=
  Holds (fun caller => caller.inCall = true ∧ caller.calls = calls ∧
      StopsProperly begun.1 (caller.history.drop begun.2) result caller.heldResources) fun _ status =>
    Idle status ∧ (result = .none → status.state = .stopped)

theorem valid_stopHeld (current : WifiApStatus) : Valid callerLogic (stopHeld current)
    (Holds (Begun calls begun) fun _ _ => True) (fun result => StopEnds begun calls result) := by
  have hfixed (before : CallerState) (hbegun : Begun calls begun before) : Valid callerLogic (stopHeld current)
      (Holds (fun caller => caller = before) fun _ _ => True) (fun result => StopEnds begun calls result) := by
    obtain ⟨hbusy, hheld, hlength⟩ := hbegun
    refine valid_bind (valid_cleanupResources hbusy.1) fun cleanupError => ?_
    have hafter (after : CallerState) (h : ∃ attempts, Cleaned releaseOrder before .none cleanupError attempts after) :
        after.inCall = true ∧ after.calls = calls ∧
          StopsProperly begun.1 (after.history.drop begun.2) cleanupError after.heldResources := by
      obtain ⟨attempts, hcleaned⟩ := h
      rw [← hheld, ← hlength]
      exact ⟨hcleaned.inCall.trans hbusy.1, hcleaned.calls.trans hbusy.2.2, hcleaned.stopsProperly⟩
    by_cases hnone : cleanupError = .none
    · rw [if_pos hnone]
      have hidle : Idle stoppedStatus ∧ (True → stoppedStatus.state = .stopped) := ⟨⟨Or.inl rfl, rfl⟩, fun _ => rfl⟩
      refine valid_bind (valid_publishStatus (Nat.zero_le _) (kept_idle.and (kept_stopped True)) hidle
        fun after h => (hafter after h).1) fun _ => valid_ret fun world _ h => ?_
      refine ⟨hnone ▸ hafter _ h.1, fun hundisturbed => ⟨(h.2 hundisturbed).1, fun _ => (h.2 hundisturbed).2 trivial⟩⟩
    · rw [if_neg hnone]
      have hidle (original : AppError) : Idle ⟨.error, 0, original, cleanupError⟩ := ⟨Or.inr rfl, rfl⟩
      refine valid_bind (valid_publishStatus (Nat.zero_le _) kept_idle (hidle _) fun after h => (hafter after h).1) fun _ =>
        valid_ret fun world _ h => ?_
      exact ⟨hafter _ h.1, fun hundisturbed => ⟨h.2 hundisturbed, fun hresult => absurd hresult hnone⟩⟩
  exact (valid_exists fun before => valid_pure_and (hfixed before)).pre fun world _ h =>
    ⟨world.caller, h.1, rfl, fun _ => trivial⟩

theorem valid_wifiApEngineStop : Valid callerLogic wifiApEngineStop (Holds (Begun calls begun) Resting)
    (fun result => StopEnds begun calls result) := by
  refine valid_bind (valid_statusGet kept_resting) fun current => ?_
  refine valid_bind (valid_ownsResources fun caller => (kept_resting caller).and ((kept_const _).and (kept_stopped _)))
    fun owned => ?_
  by_cases hstopped : current.state = .stopped ∧ ¬ owned = true
  · rw [if_pos hstopped]
    refine valid_ret fun world _ h => ?_
    obtain ⟨⟨⟨⟨hcall, -, hcalls⟩, hheld, hlength⟩, howned⟩, hstatus⟩ := h
    have hfree : ∀ resource, world.caller.flags.holds resource = false := by
      rw [← Ownership.ownsResources_eq_false, howned]
      exact Bool.eq_false_iff.mpr hstopped.2
    have hnothing := heldResources_eq_nil.mpr hfree
    refine ⟨⟨hcall, hcalls, [], ?_, ?_, rfl, ?_, fun _ => hnothing⟩, fun hundisturbed => ?_⟩
    · rw [← hlength, List.drop_length]
      rfl
    · rw [← hheld, hnothing]
      rfl
    · rw [hnothing]
      rfl
    · obtain ⟨hrest, -, hstill⟩ := hstatus hundisturbed
      exact ⟨hrest.1 hfree, fun _ => hstill hstopped.1⟩
  · rw [if_neg hstopped]
    exact (valid_stopHeld current).pre fun world _ h => ⟨h.1.1, fun _ => trivial⟩

end Stops

section Tasks

variable {calls : List CallRecord}

def Between : World → Prop := Holds (fun caller => caller.inCall = false) fun _ _ => True

theorem stable_between : Stable callerLogic Between := stable_holds fun _ => kept_true

theorem stoppedBy_append (calls : List CallRecord) (call : CallRecord) :
    stoppedBy (calls ++ [call]) = call.leavesStopped (stoppedBy calls) := by
  rw [stoppedBy, stoppedBy, List.foldl_append]
  rfl

theorem Restarts.append (h : Restarts calls) {call : CallRecord}
    (hcall : ∀ ssid passphrase accepted result, call = .start ssid passphrase accepted result →
      stoppedBy calls = true → (makeConfiguration ssid passphrase).toOption.isSome → accepted = true) :
    Restarts (calls ++ [call]) := by
  intro front ssid passphrase accepted result back hsplit
  rcases append_singleton_eq.mp hsplit with ⟨-, rfl, hlast⟩ | ⟨middle, -, hfront⟩
  · exact hcall ssid passphrase accepted result hlast.symm
  · exact h front ssid passphrase accepted result middle hfront

theorem valid_callBegins : Valid callerLogic callBegins Between (fun begun world =>
    ∃ calls, Holds (Begun calls begun) Resting world) := by
  refine valid_atomic (fun begun => ?_) ?_
  · rintro world world' hinv hinv' hmeanwhile ⟨calls, h⟩
    exact ⟨calls, stable_holds kept_resting world world' hinv hinv' hmeanwhile h⟩
  · rintro driver world hinv ⟨hrest, -⟩
    refine ⟨hinv.call rfl rfl rfl hinv.sound.owned hinv.sound.clients, trivial, world.caller.calls, ⟨⟨rfl, rfl, rfl⟩, rfl, rfl⟩,
      fun hundisturbed => ?_⟩
    exact hinv.resting hundisturbed hrest

theorem valid_callEnds {P : CallerState → Prop} {Q : CallerState → WifiApStatus → Prop} {record : CallerState → CallRecord}
    (hcalls : ∀ caller, P caller → caller.calls = calls)
    (hproper : ∀ caller, P caller → (record caller).Proper)
    (hrestarts : ∀ caller status, P caller → Q caller status → Restarts calls → Restarts (calls ++ [record caller]))
    (hidle : ∀ caller status, P caller → Q caller status →
      (∀ resource, caller.flags.holds resource = false) → Idle status)
    (hstopped : ∀ caller status, P caller → Q caller status → (record caller).leavesStopped (stoppedBy calls) = true →
      status.state = .stopped ∧ ∀ resource, caller.flags.holds resource = false) :
    Valid callerLogic (callEnds record) (Holds P Q) (fun _ => Between) := by
  refine valid_atomic (fun _ => stable_between) ?_
  rintro driver world hinv ⟨hP, hQ⟩
  obtain rfl := hcalls _ hP
  refine ⟨⟨⟨hinv.sound.owned, hinv.sound.clients, ?_⟩, fun hundisturbed => ?_, fun hundisturbed _ => ⟨?_, fun hend => ?_⟩⟩,
    trivial, rfl, fun _ => trivial⟩
  · intro call hmem
    rcases List.mem_append.mp hmem with hearlier | hlast
    · exact hinv.sound.stops call hearlier
    · rw [List.mem_singleton.mp hlast]
      exact hproper _ hP
  · exact hrestarts _ _ hP (hQ hundisturbed) (hinv.restarts hundisturbed)
  · exact hidle world.caller _ hP (hQ hundisturbed)
  · rw [stoppedBy_append] at hend
    exact hstopped world.caller _ hP (hQ hundisturbed) hend

theorem valid_runCall (call : Call) : Valid callerLogic (runCall call) Between (fun _ => Between) := by
  cases call with
  | start ssid passphrase =>
    refine valid_bind valid_callBegins fun begun => valid_exists fun calls => ?_
    refine valid_bind ((valid_wifiApEngineStart ssid passphrase).pre fun _ _ h => ⟨h.1.1, h.2⟩) fun result => ?_
    refine valid_callEnds (fun _ hP => hP.2) (fun _ _ => trivial) ?_ (fun _ _ _ hQ => hQ.1) ?_
    · intro caller status hP hQ hrestarts
      refine hrestarts.append fun ssid' passphrase' accepted result' hcall hstopped hvalid => ?_
      cases hcall
      by_contra haccepted
      exact (hQ.2 (Bool.eq_false_iff.mpr haccepted) hstopped).2 hvalid
    · intro caller status hP hQ hend
      rw [CallRecord.leavesStopped, Bool.and_eq_true, Bool.not_eq_true'] at hend
      exact (hQ.2 hend.2 hend.1).1
  | stop =>
    refine valid_bind valid_callBegins fun begun => valid_exists fun calls => ?_
    refine valid_bind valid_wifiApEngineStop fun result => ?_
    refine valid_callEnds (fun _ hP => hP.2.1) (fun _ hP => hP.2.2) ?_ (fun _ _ _ hQ _ => hQ.1) ?_
    · intro caller status hP hQ hrestarts
      exact hrestarts.append fun ssid passphrase accepted result' hcall => by cases hcall
    · intro caller status hP hQ hend
      have hnone : result = .none := of_decide_eq_true hend
      obtain ⟨attempts, -, -, -, -, hleft⟩ := hP.2.2
      exact ⟨hQ.2 hnone, heldResources_eq_nil.mp (hleft hnone)⟩

theorem stable_event (P : Prop) : Stable eventLogic (fun _ => P) := fun _ _ _ _ _ h => h

theorem valid_wifiApEngineHandleEvent (event : WifiApEvent) :
    Valid eventLogic (wifiApEngineHandleEvent event) (fun _ => True) (fun _ _ => True) := by
  have hread : Valid eventLogic statusGet (fun _ => True) (fun current _ => current.clientCount ≤ 4) :=
    valid_atomic (fun _ => stable_event _) fun driver world hinv _ =>
      ⟨hinv, ⟨rfl, fun h => ⟨h, Or.inl rfl⟩⟩, hinv.sound.clients⟩
  refine valid_bind hread fun current => ?_
  cases happly : event.apply current with
  | none => exact valid_ret fun _ _ _ => trivial
  | some next =>
    refine valid_atomic (fun _ => stable_event True) fun driver world hinv hclients => ?_
    -- The status that is found makes the same next one, when the write is fresh.
    have hearlier (h : Undisturbed { world with
        status := next, writeBacks := world.writeBacks ++ [⟨event, current, world.status⟩] }) :
        Undisturbed world ∧ event.apply world.status = some next := by
      refine ⟨fun write hmem => h write (List.mem_append_left _ hmem), ?_⟩
      have hfresh : event.apply current = event.apply world.status :=
        h _ (List.mem_append_right _ (List.mem_singleton.mpr rfl))
      rw [← hfresh, happly]
    refine ⟨⟨⟨hinv.sound.owned, apply_clients happly hclients, hinv.sound.stops⟩, fun h => hinv.restarts (hearlier h).1,
      fun h hrest => ?_⟩, ⟨rfl, fun h => ⟨(hearlier h).1, Or.inr ⟨event, (hearlier h).2⟩⟩⟩, trivial⟩
    exact kept_resting _ event _ _ (hinv.resting (hearlier h).1 hrest) (hearlier h).2

end Tasks

section Runs

def logic : Nat → Logic World
  | 0 => callerLogic
  | _ + 1 => eventLogic

def beforeTask : Nat → World → Prop
  | 0 => Between
  | _ + 1 => fun _ => True

theorem compatible : Compatible logic Inv (fun _ => False) beforeTask where
  inv_eq := fun i => by cases i <;> rfl
  halt_eq := fun i => by cases i <;> rfl
  mutual_rely := fun i j before after hij hguar => by
    cases j with
    | succ j => trivial
    | zero =>
      cases i with
      | zero => exact absurd rfl hij
      | succ i => exact hguar
  pre_stable := fun i => by
    cases i with
    | zero => exact stable_between
    | succ i => exact stable_event True

theorem valid_apTask {i : Nat} {program : ApProg Unit} (h : ApTask i program) :
    Valid (logic i) program (beforeTask i) (fun _ _ => True) := by
  cases h with
  | calls calls => exact (valid_inTurn valid_runCall calls).post fun _ _ _ _ => trivial
  | events events => exact valid_inTurn valid_wifiApEngineHandleEvent events

theorem inv_initialWorld : Inv initialWorld where
  sound := ⟨fun resource => by cases resource <;> rfl, Nat.zero_le _, fun _ hmem => absurd hmem List.not_mem_nil⟩
  restarts := fun _ front ssid passphrase accepted result back hsplit => by cases front <;> cases hsplit
  resting := fun _ _ => ⟨fun _ => ⟨Or.inl rfl, rfl⟩, fun hstopped => by cases hstopped⟩

/-- In every run the resources are released as they were acquired, and as long as
every event handler makes of the published status what it makes of the one it has
read, an engine that holds nothing rests, and starts again after a stop. -/
theorem ownership_of_run {c : Config World WifiDriver} (h : ApRun c) :
    Sound c.state ∧ (Undisturbed c.state → Steady c.state) := by
  have hbefore (i : Nat) : beforeTask i initialWorld := by
    cases i with
    | zero => exact ⟨rfl, fun _ => trivial⟩
    | succ i => trivial
  rcases invariant_reachable compatible (fun _ hhalt => hhalt.elim) (fun _ _ htask => valid_apTask htask) inv_initialWorld
    hbefore h with hhalt | hbetween
  · exact hhalt.elim
  · have hinv := hbetween.inv_holds
    exact ⟨hinv.sound, fun hundisturbed => ⟨hinv.restarts hundisturbed, fun hrest =>
      (hinv.resting hundisturbed hrest).1⟩⟩

def runningDriver : WifiDriver :=
  ⟨32, 64, .none, .created, .none, .none, .none, .none, fun _ => .none, .none, .none, .none, .none, .none, .none, true,
    fun _ => .none⟩

def startCall : Call := .start (bytes "keyboard" ++ [0]) (bytes "123456789012" ++ [0])

/-- A start, a stop and a start, with two events of the first start, in this order
of the steps of the two tasks. -/
def restarted (order : List Nat) : Config World WifiDriver :=
  (⟨initialWorld, [Prog.inTurn runCall [startCall, .stop, startCall],
    Prog.inTurn wifiApEngineHandleEvent [.started, .clientConnected]]⟩ : Config World WifiDriver).runSchedule
    (fun _ => false) (order.map fun task => (task, runningDriver))

theorem run_restarted (order : List Nat) : ApRun (restarted order) := by
  have hstart : ApRun ⟨initialWorld, [] ++ [Prog.inTurn runCall [startCall, .stop, startCall],
      Prog.inTurn wifiApEngineHandleEvent [.started, .clientConnected]]⟩ := by
    apply reachable_start .init rfl
    intro i p hp
    match i with
    | 0 => cases hp; exact .calls _
    | 1 => cases hp; exact .events _
    | _ + 2 => cases hp
  exact reachable_runSchedule hstart _

def orderly : List Nat := List.replicate 13 0 ++ List.replicate 4 1 ++ List.replicate 22 0

theorem ownership_orderly : (restarted orderly).state.caller.calls.length = 3 ∧
    Sound (restarted orderly).state ∧ Steady (restarted orderly).state := by
  have hfresh : ∀ write ∈ (restarted orderly).state.writeBacks,
      write.event.apply write.read = write.event.apply write.found := by decide +kernel
  have hownership := ownership_of_run (run_restarted orderly)
  exact ⟨by decide +kernel, hownership.1, hownership.2 hfresh⟩

def stale : List Nat := List.replicate 13 0 ++ List.replicate 3 1 ++ List.replicate 9 0 ++ [1] ++ List.replicate 4 0

/-- The stop succeeds, the status is ready again, and the next start is refused. -/
theorem stale_status_blocks_start : ¬ ∀ c, ApRun c → Sound c.state ∧ Steady c.state := by
  intro h
  have hrestarts := (h (restarted stale) (run_restarted stale)).2.restarts
  have hcalls : (restarted stale).state.caller.calls =
      [.start (bytes "keyboard" ++ [0]) (bytes "123456789012" ++ [0]) true .none,
        .stop [.running, .handler, .wifi, .netif] [(.running, .release .none), (.handler, .release .none),
          (.wifi, .release .none), (.netif, .release .none)] .none []] ++
      .start (bytes "keyboard" ++ [0]) (bytes "123456789012" ++ [0]) false .conflict :: [] := by decide +kernel
  have haccepted := hrestarts _ _ _ _ _ _ hcalls (by decide +kernel) (by decide +kernel)
  cases haccepted

end Runs

end MacroKeyboard.AccessPoint
