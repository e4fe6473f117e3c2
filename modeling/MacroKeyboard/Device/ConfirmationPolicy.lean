import MacroKeyboard.Device.Effects
import MacroKeyboard.Device.Runs
import MacroKeyboard.Threads.Monitor

namespace MacroKeyboard.Device.ConfirmationPolicy

open Settings Settings.Coherence Auth Codec Threads.Program Threads.RelyGuarantee Threads.Restarts Threads.Monitor Runs

def Gated (call : ApiCall) : Prop := physicalConfirmationRequired call true = true

/-- The task serves the call, which it has evaluated while this requirement was
stored and not performed yet, and it has taken a confirmation since or not. -/
def Serving (task : Nat) (call : ApiCall) (stored : Option Bool) (confirmed : Prop) (past : List DeviceEvent) : Prop :=
  ∃ earlier since, past = earlier ++ .evaluated task call stored :: since ∧
    (∀ other required, .evaluated task other required ∉ since) ∧ (∀ other, .performed task other ∉ since) ∧
    (.confirmed task ∈ since ↔ confirmed)

/-- The stored requirement decides. A task waits only for a gated call that it
evaluated while the settings required a confirmation; it performs a call after a
confirmation taken since exactly if the call is gated and they did; and a send asks
the executor for what is stored. -/
def Decided (past : List DeviceEvent) : DeviceEvent → Prop
  | .waited task => ∃ call, Gated call ∧ Serving task call (some true) False past
  | .performed task call => ∃ stored, Serving task call stored (Gated call ∧ stored = some true) past
  | .submitted requireConfirmation stored => stored = some requireConfirmation
  | .wrote _ | .purged _ _ | .answered _ | .responded _ | .evaluated _ _ _ | .confirmed _ => True

def Live (log : List DeviceEvent) : Prop := Always Decided log

/-- No write changed the stored requirement. -/
def RequirementKept (log : List DeviceEvent) : Prop :=
  ∀ write ∈ writesOf log,
    write.after.map (·.requireSerialConfirmation) = write.before.map (·.requireSerialConfirmation)

/-- The server requires what the store does, as long as no write changed that. -/
structure Agrees (device : DeviceState) : Prop where
  coherent : Coherent device.settings
  requirement : RequirementKept device.log → device.storedRequirement = some device.server.requirePhysicalConfirmation

/-- The invariant: it says nothing of a run that changed the stored requirement. -/
structure Inv (device : DeviceState) : Prop where
  agrees : Agrees device
  live : RequirementKept device.log → Live device.log

/-- A step that leaves the requirement of the server alone and notes nothing of the
policy of the task. -/
structure Foreign (task : Nat) (before after : DeviceState) : Prop where
  requirePhysicalConfirmation : after.server.requirePhysicalConfirmation = before.server.requirePhysicalConfirmation
  log : after.log = before.log ∨ ∃ event, ¬ OfPolicy task event ∧ after.log = before.log ++ [event]

def logic (task : Nat) : Logic DeviceState where
  inv := Inv
  halt := fun _ => False
  rely := Foreign task
  guar := fun before after => ∀ other, task ≠ other → Foreign other before after

section Serving

variable {task : Nat} {call : ApiCall} {stored : Option Bool} {confirmed : Prop} {past : List DeviceEvent}

theorem serving_evaluated : Serving task call stored False (past ++ [.evaluated task call stored]) := by
  refine ⟨past, [], rfl, ?_, ?_, ?_⟩ <;> simp

theorem Serving.append (h : Serving task call stored confirmed past) {event : DeviceEvent}
    (hevaluated : ∀ other required, event ≠ .evaluated task other required)
    (hperformed : ∀ other, event ≠ .performed task other) (hconfirmed : event ≠ .confirmed task) :
    Serving task call stored confirmed (past ++ [event]) := by
  obtain ⟨earlier, since, rfl, hnone, hpending, htaken⟩ := h
  refine ⟨earlier, since ++ [event], by simp, fun other required hmem => ?_, fun other hmem => ?_, ?_⟩
  · rcases List.mem_append.mp hmem with hmem | hmem
    · exact hnone other required hmem
    · exact hevaluated other required (List.mem_singleton.mp hmem).symm
  · rcases List.mem_append.mp hmem with hmem | hmem
    · exact hpending other hmem
    · exact hperformed other (List.mem_singleton.mp hmem).symm
  · rw [List.mem_append, List.mem_singleton, htaken]
    exact or_iff_left fun h => hconfirmed h.symm

theorem Serving.foreign (h : Serving task call stored confirmed past) {event : DeviceEvent}
    (hevent : ¬ OfPolicy task event) : Serving task call stored confirmed (past ++ [event]) := by
  refine h.append ?_ ?_ ?_
  · rintro other required rfl
    exact hevent (.evaluated other required)
  · rintro other rfl
    exact hevent (.performed other)
  · rintro rfl
    exact hevent .confirmed

theorem Serving.waiting (h : Serving task call stored confirmed past) :
    Serving task call stored confirmed (past ++ [.waited task]) := by
  refine h.append ?_ ?_ ?_ <;> intros <;> simp

theorem Serving.taken (h : Serving task call stored False past) :
    Serving task call stored True (past ++ [.confirmed task]) := by
  obtain ⟨earlier, since, rfl, hnone, hpending, -⟩ := h
  refine ⟨earlier, since ++ [.confirmed task], by simp, fun other required hmem => ?_, fun other hmem => ?_, by simp⟩
  · exact hnone other required (by simpa using hmem)
  · exact hpending other (by simpa using hmem)

theorem Serving.congr {confirmed' : Prop} (h : Serving task call stored confirmed past)
    (hconfirmed : confirmed ↔ confirmed') : Serving task call stored confirmed' past := by
  obtain ⟨earlier, since, hpast, hnone, hpending, htaken⟩ := h
  exact ⟨earlier, since, hpast, hnone, hpending, htaken.trans hconfirmed⟩

theorem required_iff (enabled : Bool) : physicalConfirmationRequired call enabled = true ↔ Gated call ∧ enabled = true := by
  cases enabled with
  | true => exact (and_iff_left rfl).symm
  | false => simp [physicalConfirmationRequired]

end Serving

section Steps

variable {noted : DeviceEvent → Prop} {before after : DeviceState} {task : Nat}

theorem requirementKept_append {log : List DeviceEvent} {event : DeviceEvent} (h : RequirementKept (log ++ [event])) :
    RequirementKept log := by
  intro write hwrite
  refine h write ?_
  rw [writesOf_append]
  exact List.mem_append_left _ hwrite

theorem agrees_of_boots {record : Option (List UInt8)} {device : DeviceState} (h : Boots record device) :
    Agrees device := by
  obtain ⟨hcoherent, -, stored, hstored, hsame⟩ := h.coherent
  refine ⟨hcoherent, fun _ => ?_⟩
  rw [DeviceState.storedRequirement, hstored, h.server, Option.map_some, ← hsame.requireSerialConfirmation]
  rfl

theorem agrees_step (h : Effective noted before after) (hbefore : Agrees before) : Agrees after := by
  cases h.effect with
  | kept hrecord hcoherent hwrites =>
    refine ⟨hcoherent hbefore.coherent, fun hkept => ?_⟩
    rw [DeviceState.storedRequirement, DeviceState.stored, hrecord, h.requirePhysicalConfirmation]
    refine hbefore.requirement fun write hwrite => hkept write ?_
    rwa [hwrites]
  | wrote calls hproper hsettings hlog =>
    refine ⟨?_, fun hkept => ?_⟩
    · rw [hsettings]
      exact (truthful_perform calls.store _ hbefore.coherent).coherent
    · rw [hlog] at hkept
      simp only [deviceSettingsWrite, DeviceState.note, RequirementKept, writesOf_append, List.mem_append] at hkept
      have hearlier := hbefore.requirement fun write hwrite => hkept write (Or.inl hwrite)
      have hlast := hkept _ (Or.inr (List.mem_singleton.mpr rfl))
      rw [h.requirePhysicalConfirmation, ← hearlier, DeviceState.storedRequirement, DeviceState.stored, hsettings]
      exact hlast

/-- A step keeps the invariant if what it notes was decided by the requirement of
the server. -/
theorem inv_step (h : Effective noted before after) (hinv : Inv before)
    (hdecided : ∀ event, after.log = before.log ++ [event] → RequirementKept before.log → Decided before.log event) :
    Inv after := by
  refine ⟨agrees_step h hinv.agrees, fun hkept => ?_⟩
  obtain hlog | ⟨event, -, hlog⟩ := h.log
  · rw [hlog] at hkept ⊢
    exact hinv.live hkept
  · rw [hlog] at hkept ⊢
    have hbefore := requirementKept_append hkept
    exact (hinv.live hbefore).append (hdecided event hlog hbefore)

theorem decided_plain {past : List DeviceEvent} {event : DeviceEvent} (h : Plain event) : Decided past event := by
  cases event <;> trivial

theorem foreign_plain {event : DeviceEvent} (h : Plain event) : ¬ OfPolicy task event := by
  rintro (_ | _ | _ | _) <;> cases h

/-- A step of another part of the tasks keeps the invariant and is foreign to every
task. -/
theorem plain_step (h : Effective (fun _ => False) before after) (hinv : Inv before) :
    Inv after ∧ ∀ other, Foreign other before after := by
  have hplain {event : DeviceEvent} (hevent : Plain event ∨ False) : Plain event := hevent.resolve_right id
  refine ⟨inv_step h hinv fun event hlog _ => ?_, fun other => ⟨h.requirePhysicalConfirmation, ?_⟩⟩
  · obtain hsame | ⟨other, hother, hnoted⟩ := h.log
    · rw [hsame] at hlog
      simp at hlog
    · rw [hlog, List.append_cancel_left_eq, List.singleton_inj] at hnoted
      rw [hnoted]
      exact decided_plain (hplain hother)
  · exact h.log.imp_right fun ⟨event, hevent, hlog⟩ => ⟨event, foreign_plain (hplain hevent), hlog⟩

theorem foreign_ofPolicy {event : DeviceEvent} (h : OfPolicy task event) {other : Nat} (hne : task ≠ other) :
    ¬ OfPolicy other event := by
  intro hother
  cases h <;> cases hother <;> exact hne rfl

theorem noted_step {event : DeviceEvent} (h : Noting (fun noted => noted = event) before after) (hquiet : Quiet event)
    (hforeign : ∀ other, task ≠ other → ¬ OfPolicy other event) (hinv : Inv before)
    (hdecided : RequirementKept before.log → Decided before.log event) : Inv after ∧ (logic task).guar before after := by
  refine ⟨inv_step (h.effective fun noted hnoted => by rw [hnoted]; exact hquiet) hinv fun noted hlog hkept => ?_,
    fun other hne => ⟨by rw [h.server], h.log.imp_right fun ⟨noted, hnoted, hlog⟩ => ⟨noted, ?_, hlog⟩⟩⟩
  · obtain hsame | ⟨_, rfl, hnoted⟩ := h.log
    · rw [hsame] at hlog
      simp at hlog
    · rw [hlog, List.append_cancel_left_eq, List.singleton_inj] at hnoted
      rw [hnoted]
      exact hdecided hkept
  · rw [hnoted]
    exact hforeign other hne

def At (P : Bool → List DeviceEvent → Prop) (device : DeviceState) : Prop :=
  P device.server.requirePhysicalConfirmation device.log

theorem stable_of_foreign {P : Bool → List DeviceEvent → Prop}
    (h : ∀ required log event, ¬ OfPolicy task event → P required log → P required (log ++ [event])) :
    Stable (logic task) (At P) := by
  rintro before after - - hforeign hP
  rw [At, hforeign.requirePhysicalConfirmation]
  obtain hlog | ⟨event, hevent, hlog⟩ := hforeign.log
  · rw [hlog]
    exact hP
  · rw [hlog]
    exact h _ _ event hevent hP

theorem stable_true : Stable (logic task) (fun _ => True) := fun _ _ _ _ _ _ => trivial

end Steps

section Policy

variable {task : Nat} {call : ApiCall}

/-- The task serves the call under what the server requires, and has taken a
confirmation or not, as long as no write changed the stored requirement. -/
def Stage (task : Nat) (call : ApiCall) (confirmed : Bool → Prop) (required : Bool) (log : List DeviceEvent) : Prop :=
  RequirementKept log → Serving task call (some required) (confirmed required) log

theorem stage_foreign {confirmed : Bool → Prop} {required : Bool} {log : List DeviceEvent} {event : DeviceEvent}
    (hevent : ¬ OfPolicy task event) (h : Stage task call confirmed required log) :
    Stage task call confirmed required (log ++ [event]) :=
  fun hkept => (h (requirementKept_append hkept)).foreign hevent

theorem valid_confirmationRequired : Valid (logic task) (.atomic (confirmationRequired task call)) (fun _ => True)
    (fun result => At fun required log =>
      result = physicalConfirmationRequired call required ∧ Stage task call (fun _ => False) required log) := by
  refine valid_atomic (fun result => stable_of_foreign fun _ _ _ hevent h => ⟨h.1, stage_foreign hevent h.2⟩)
    fun calls device hinv _ => ?_
  obtain ⟨hafter, hguar⟩ := noted_step (noting_note device rfl) rfl (fun _ => foreign_ofPolicy (.evaluated call device.storedRequirement))
    hinv fun _ => trivial
  refine ⟨hafter, hguar, rfl, fun hkept => ?_⟩
  change Serving task call (some device.server.requirePhysicalConfirmation) False
    (device.log ++ [.evaluated task call device.storedRequirement])
  rw [← hinv.agrees.requirement (requirementKept_append hkept)]
  exact serving_evaluated

theorem valid_waitForConfirmation (call : ApiCall) : Valid (logic task) (waitForConfirmation task)
    (At fun required log => (Gated call ∧ required = true) ∧ Stage task call (fun _ => False) required log)
    (fun result => At fun required log => result = .none →
      (Gated call ∧ required = true) ∧ Stage task call (fun _ => True) required log) := by
  have hstable {confirmed : Bool → Prop} : Stable (logic task) (At fun required log =>
      (Gated call ∧ required = true) ∧ Stage task call confirmed required log) :=
    stable_of_foreign fun _ _ _ hevent h => ⟨h.1, stage_foreign hevent h.2⟩
  have hpost (result : AppError) : Stable (logic task) (At fun required log =>
      result = .none →
      (Gated call ∧ required = true) ∧ Stage task call (fun _ => True) required log) :=
    stable_of_foreign fun _ _ _ hevent h hnone => ⟨(h hnone).1, stage_foreign hevent (h hnone).2⟩
  refine valid_bind (M := fun _ => At fun required log =>
    (Gated call ∧ required = true) ∧ Stage task call (fun _ => False) required log) ?_ fun running => ?_
  · refine valid_atomic (fun _ => hstable) fun calls device hinv hstage => ?_
    obtain ⟨⟨hgated, hrequired⟩, hserving⟩ := hstage
    obtain ⟨hafter, hguar⟩ := noted_step (noting_note device rfl) rfl (fun _ => foreign_ofPolicy (@OfPolicy.waited task)) hinv
      fun hkept => ⟨call, hgated, hrequired ▸ hserving hkept⟩
    exact ⟨hafter, hguar, ⟨hgated, hrequired⟩, fun hkept => (hserving (requirementKept_append hkept)).waiting⟩
  split
  · exact valid_ret fun _ _ _ h => by cases h
  refine valid_repeatUntil hstable hpost (valid_atomic (fun result => ?_) fun calls device hinv hstage => ?_)
  · cases result with
    | none => exact hstable
    | some result => exact hpost result
  unfold takeConfirmation
  split
  · obtain ⟨⟨hgated, hrequired⟩, hserving⟩ := hstage
    have hnoting : Noting (fun noted => noted = .confirmed task) device
        ({ device with confirmationSignal := false }.note (.confirmed task)) :=
      ⟨rfl, rfl, rfl, rfl, rfl, rfl, rfl, Or.inr ⟨_, rfl, rfl⟩⟩
    obtain ⟨hafter, hguar⟩ := noted_step hnoting rfl (fun _ => foreign_ofPolicy .confirmed) hinv fun _ => trivial
    exact ⟨hafter, hguar, fun _ => ⟨⟨hgated, hrequired⟩, fun hkept => (hserving (requirementKept_append hkept)).taken⟩⟩
  · split
    · exact ⟨hinv, fun _ _ => ⟨rfl, Or.inl rfl⟩, fun h => by cases h⟩
    · exact ⟨hinv, fun _ _ => ⟨rfl, Or.inl rfl⟩, hstage⟩

theorem valid_policyConfirm : Valid (logic task) (policyConfirm task call) (fun _ => True)
    (fun result => At fun required log => result = .none →
      Stage task call (fun required => Gated call ∧ required = true) required log) := by
  refine valid_bind valid_confirmationRequired fun result => ?_
  split
  next hfree =>
    refine valid_ret fun _ _ hstage _ hkept => ((hstage.2 hkept).congr ?_)
    exact iff_of_false id fun hgated => hfree (hstage.1.trans ((required_iff _).mpr hgated))
  next hrequired =>
    refine ((valid_waitForConfirmation call).pre fun _ _ hstage => ?_).post fun _ _ _ hconfirmed hnone hkept => ?_
    · exact ⟨(required_iff _).mp (hstage.1.symm.trans (not_not.mp hrequired)), hstage.2⟩
    · obtain ⟨hgated, hserving⟩ := hconfirmed hnone
      exact (hserving hkept).congr (iff_of_true trivial hgated)

theorem valid_enforcePhysicalConfirmation : Valid (logic task) (enforcePhysicalConfirmation task call) (fun _ => True)
    (fun _ _ => True) := by
  refine valid_bind valid_policyConfirm fun result => ?_
  split
  · exact valid_ret fun _ _ _ => trivial
  next hnone =>
    refine valid_bind (M := fun _ _ => True) (valid_atomic (fun _ => stable_true) fun calls device hinv hstage => ?_)
      fun _ => valid_ret fun _ _ _ => trivial
    obtain ⟨hafter, hguar⟩ := noted_step (noting_note device rfl) rfl (fun _ => foreign_ofPolicy (.performed call)) hinv
      fun hkept => ⟨_, (hstage (not_not.mp hnone) hkept).congr (and_congr_right fun _ => (Option.some.injEq _ _).to_iff.symm)⟩
    exact ⟨hafter, hguar, trivial⟩

theorem send_reads_stored {device : DeviceState} (h : Coherent device.settings) {calls : Surroundings}
    {current : DeviceSettings} (hread : (deviceSettingsRead calls device).1 = .ok current) :
    device.storedRequirement = some current.requireSerialConfirmation := by
  have hnone : (device.settings.load calls.store).error = .none := by
    by_contra hne
    simp [deviceSettingsRead, hne] at hread
  have hcurrent := Effects.outSettings_load calls.store hnone
  obtain ⟨-, -, stored, hstored, hsame⟩ := (Effects.load_stored calls.store h).2 hnone
  simp only [deviceSettingsRead, hnone, hcurrent, ne_eq, not_true_eq_false, if_false, Option.getD_some,
    Except.ok.injEq] at hread
  rw [DeviceState.storedRequirement, DeviceState.stored, hstored, Option.map_some, ← hread,
    hsame.requireSerialConfirmation]

theorem valid_sendCreateHandler : Valid (logic task) sendCreateHandler (fun _ => True) (fun _ _ => True) := by
  have hstable (read : Except AppError DeviceSettings) : Stable (logic task) (At fun required log =>
      ∀ current, read = .ok current → RequirementKept log → required = current.requireSerialConfirmation) :=
    stable_of_foreign fun _ _ _ _ h current hread hkept => h current hread (requirementKept_append hkept)
  refine valid_bind (valid_atomic hstable fun calls device hinv _ => ?_) fun read => ?_
  · obtain ⟨hafter, hforeign⟩ := plain_step (effective_read calls device) hinv
    refine ⟨hafter, fun other _ => hforeign other, fun current hread hkept => ?_⟩
    have hrequired := hinv.agrees.requirement hkept
    rw [send_reads_stored hinv.agrees.coherent hread] at hrequired
    exact (Option.some.inj hrequired).symm
  split
  · exact valid_ret fun _ _ _ => trivial
  next current =>
    refine valid_bind (M := fun _ _ => True) (valid_atomic (fun _ => stable_true) fun calls device hinv hread => ?_)
      fun _ => valid_ret fun _ _ _ => trivial
    have hnoting : Noting (fun noted => noted = .submitted current.requireSerialConfirmation device.storedRequirement)
        device (device.note (.submitted current.requireSerialConfirmation device.storedRequirement)) :=
      noting_note device rfl
    obtain ⟨hafter, hguar⟩ := noted_step hnoting rfl (fun other _ h => by cases h) hinv fun hkept =>
      (hinv.agrees.requirement hkept).trans (congrArg some (hread current rfl hkept))
    exact ⟨hafter, hguar, trivial⟩

theorem valid_procedure {derive : Derivation} {α : Type} {p : DeviceProg α} (h : DeviceProcedure derive task α p) :
    Valid (logic task) p (fun _ => True) (fun _ _ => True) := by
  have hplain {q : DeviceProg α} (hq : MadeOfSteps derive (fun _ => False) q) :
      Valid (logic task) q (fun _ => True) (fun _ _ => True) := by
    refine valid_of_composed stable_true (fun β r hr => ?_) hq
    obtain ⟨f, rfl, hf⟩ := effective_step (fun _ h => h.elim) hr
    refine valid_atomic (fun _ => stable_true) fun calls device hinv _ => ?_
    obtain ⟨hafter, hforeign⟩ := plain_step (hf calls device) hinv
    exact ⟨hafter, fun other _ => hforeign other, trivial⟩
  cases h with
  | action h => exact hplain (.leaf (.action h))
  | login _ sourceIpv4 password => exact hplain (steps_loginVerified sourceIpv4 password)
  | changePassword h => exact hplain (steps_changePassword h)
  | policy call => exact valid_enforcePhysicalConfirmation
  | send => exact valid_sendCreateHandler

end Policy

theorem inv_of_boots {record : Option (List UInt8)} {device : DeviceState} (h : Boots record device) : Inv device := by
  refine ⟨agrees_of_boots h, fun _ => ?_⟩
  rw [h.log]
  exact always_nil

/-- In every run, as long as no write since the last start has changed the stored
requirement, a gated call waits for a confirmation exactly if the stored settings
require one when it is evaluated, and a send decides the same. -/
theorem confirmation_policy_live {derive : Derivation} {c : Config DeviceState Surroundings} (h : DeviceRun derive c)
    (hkept : RequirementKept c.state.log) : Live c.state.log := by
  have hcompatible : Compatible logic Inv (fun _ => False) (fun _ _ => True) :=
    ⟨fun _ => rfl, fun _ => rfl, fun _ j _ _ hne hguar => hguar j hne, fun _ => stable_true⟩
  refine (invariant_lifetime hcompatible (fun _ h => h) (fun i p hp => ?_) (fun device hstarted => ?_)
    (fun _ after _ hr => ⟨inv_of_boots hr.boots, fun _ => trivial⟩) h).inv_holds.live hkept
  · exact valid_of_composed stable_true (fun _ _ hq => valid_procedure hq) (made_deviceTask hp)
  · obtain ⟨record, hboots⟩ := hstarted.boots
    exact ⟨inv_of_boots hboots, fun _ => trivial⟩

def performsGated : DeviceEvent → Bool
  | .performed _ call => physicalConfirmationRequired call true
  | _ => false

def requiringStore : Store := (loadedOutcome { runningSettings with requireSerialConfirmation := true }).store

/-- A login and a restart, which the server hands over to the worker and the console
confirms. -/
def confirmedRestart : Config DeviceState Surroundings :=
  deviceRun firstByteDerivation requiringStore
    (steps 0 13 (serving (.login 1 (passwordOfByte 1))) ++ steps 0 8 (serving (.api zeroToken .deviceRestart)) ++
      steps 1 6 quietSurroundings ++ steps 2 4 { commanding .confirm with result := .notFound } ++ steps 1 3 quietSurroundings)

theorem confirmation_policy_live_confirmed :
    Live confirmedRestart.state.log ∧ confirmedRestart.state.log.any performsGated = true := by
  have hstarted : Started (bootedDevice requiringStore) :=
    started_bootedDevice
      (some (encodeSettings { runningSettings with requireSerialConfirmation := true }).2) quietCalls (by decide +kernel) rfl
      (by decide +kernel)
  have hwrites : (writesOf confirmedRestart.state.log).isEmpty = true := by decide +kernel
  refine ⟨@confirmation_policy_live firstByteDerivation confirmedRestart (deviceRun_run hstarted _) fun write hwrite => ?_,
    by decide +kernel⟩
  rw [List.isEmpty_iff.mp hwrites] at hwrite
  cases hwrite

def flagsOf (log : List DeviceEvent) : List SettingsUpdateFlags :=
  log.filterMap fun event =>
    match event with
    | .responded (.settingsUpdated _ flags) => some flags
    | _ => none

/-- The settings require a confirmation when a gated call is evaluated. -/
def evaluatesRequired : DeviceEvent → Bool
  | .evaluated _ call stored => !physicalConfirmationRequired call true || stored == some true
  | _ => true

def confirms : DeviceEvent → Bool
  | .confirmed _ => true
  | _ => false

theorem not_live_of_unconfirmed {log : List DeviceEvent} (hperformed : log.any performsGated = true)
    (hrequired : log.all evaluatesRequired = true) (hnone : log.any confirms = false) : ¬ Live log := by
  intro hlive
  obtain ⟨event, hevent, hperforms⟩ := List.any_eq_true.mp hperformed
  obtain ⟨past, rest, rfl⟩ := List.append_of_mem hevent
  cases event with
  | performed task call =>
    obtain ⟨stored, earlier, since, rfl, -, -, hconfirmed⟩ := hlive past _ rest rfl
    have hevaluated := List.all_eq_true.mp hrequired (.evaluated task call stored) (by simp)
    have hgated : physicalConfirmationRequired call true = true := hperforms
    simp only [evaluatesRequired, hgated, Bool.not_true, Bool.false_or, beq_iff_eq] at hevaluated
    have htaken := List.any_eq_false.mp hnone (.confirmed task) (by simp [hconfirmed.mpr ⟨hgated, hevaluated⟩])
    exact htaken rfl
  | _ => cases hperforms

/-- A login, an update that turns the requirement on, and a password change up to
the policy. -/
def turnedOn : Config DeviceState Surroundings :=
  deviceRun firstByteDerivation runningStore
    (steps 0 13 (serving (.login 1 (passwordOfByte 1))) ++
      steps 0 12 (serving (.api zeroToken (.settingsPut ⟨none, some true, none, none, none, none⟩))) ++
      steps 0 8 (serving (.api zeroToken (.changePassword (passwordOfByte 1) (passwordOfByte 2)))))

/-- An update turns the requirement on and is answered with no restart required,
and a password change does not wait for a confirmation. -/
theorem turned_on_not_in_force :
    ¬ ∀ derive (c : Config DeviceState Surroundings), DeviceRun derive c →
      flagsOf c.state.log = [⟨false, false⟩] → Live c.state.log := by
  intro h
  have hunconfirmed : ¬ Live turnedOn.state.log :=
    not_live_of_unconfirmed (by decide +kernel) (by decide +kernel) (by decide +kernel)
  exact hunconfirmed (h firstByteDerivation turnedOn (deviceRun_run started_running _) (by decide +kernel))

end MacroKeyboard.Device.ConfirmationPolicy
