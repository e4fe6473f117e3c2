import MacroKeyboard.Device.Actions

namespace MacroKeyboard.Device

open Settings Settings.Coherence Settings.Frame Auth Blobs Codec Threads.Program Threads.Restarts

/-- The indivisible steps of the tasks, with those that note such an event at most. -/
inductive DeviceStep (derive : Derivation) (noted : DeviceEvent → Prop) : (α : Type) → DeviceProg α → Prop
  | action {α : Type} {p : DeviceProg α} (h : DeviceAction α p) : DeviceStep derive noted α p
  | noting {α : Type} {f : Surroundings → DeviceState → α × DeviceState}
    (h : ∀ calls device, Noting noted device (f calls device).2) : DeviceStep derive noted α (.atomic f)
  | snapshot (password : List UInt8) : DeviceStep derive noted _ (.atomic (passwordRecordSnapshotForLogin derive password))
  | verify (password : List UInt8) (record : AuthPasswordRecord) :
    DeviceStep derive noted _ (.atomic (authPasswordVerify derive password record))
  | success (sourceIpv4 : UInt32) : DeviceStep derive noted _ (.atomic (authLoginRecordSuccess sourceIpv4))
  | create (generation : Nat) : DeviceStep derive noted _ (.atomic (authSessionCreate generation))
  | begin (task : Nat) : DeviceStep derive noted _ (.atomic (passwordTransitionBegin task))
  | credential {current candidate : DeviceSettings} {material : AuthPasswordRecord}
    (h : prepareCandidate current material = some candidate) :
    DeviceStep derive noted _ (.atomic (deviceSettingsReplace (fun field => field = .credential) current candidate))
  | activate (candidate : DeviceSettings) : DeviceStep derive noted _ (.atomic (passwordActivate candidate))
  | invalidate : DeviceStep derive noted _ (.atomic invalidateAllSessions)
  | finish (outcome : ChangePasswordOutcome) (new : Option AuthPasswordRecord) :
    DeviceStep derive noted _ (.atomic (passwordTransitionEnd outcome new))

section Composed

variable {derive : Derivation} {noted : DeviceEvent → Prop} {α : Type}

abbrev MadeOfSteps (derive : Derivation) (noted : DeviceEvent → Prop) {α : Type} (p : DeviceProg α) : Prop :=
  Composed (DeviceStep derive noted) α p

theorem steps_ask (f : Surroundings → α) : MadeOfSteps derive noted (.ask f) :=
  .leaf (.action (.aside fun _ device => .refl device))

theorem steps_changePasswordLoadCurrentAndValidate (newPassword : List UInt8) :
    MadeOfSteps derive noted (changePasswordLoadCurrentAndValidate newPassword) := by
  refine .bind (.leaf (.action .read)) fun read => ?_
  split
  · exact .ret _
  · split <;> exact .ret _

theorem steps_passwordLoad {newPassword : List UInt8}
    {load : DeviceProg (Except ChangePasswordOutcome DeviceSettings)} (h : PasswordLoad derive newPassword load) :
    MadeOfSteps derive noted load := by
  cases h with
  | verified currentPassword =>
    refine .bind (steps_changePasswordLoadCurrentAndValidate _) fun loaded => ?_
    split
    · exact .ret _
    refine .bind (steps_ask _) fun verified => ?_
    split <;> exact .ret _
  | unverified => exact steps_changePasswordLoadCurrentAndValidate _

theorem steps_changePasswordCommitCandidate {current candidate : DeviceSettings} {material : AuthPasswordRecord}
    (h : prepareCandidate current material = some candidate) :
    MadeOfSteps derive noted (changePasswordCommitCandidate current candidate) := by
  refine .bind (.leaf (.credential h)) fun replaced => ?_
  split
  · exact .ret _
  refine .bind (.leaf (.activate _)) fun _ => .bind (.leaf .invalidate) fun invalidated => ?_
  split <;> exact .ret _

theorem steps_loginVerified (sourceIpv4 : UInt32) (password : List UInt8) :
    MadeOfSteps derive noted (loginVerified derive sourceIpv4 password) := by
  refine .bind (.leaf (.snapshot _)) fun snapshot => ?_
  split
  · exact .ret _
  refine .bind (.leaf (.verify _ _)) fun verified => ?_
  split
  · exact .ret _
  · exact .ret _
  refine .bind (.leaf (.success _)) fun recorded => ?_
  split
  · exact .ret _
  refine .bind (.leaf (.create _)) fun created => ?_
  split <;> exact .ret _

theorem steps_changePassword {task : Nat} {newPassword : List UInt8}
    {load : DeviceProg (Except ChangePasswordOutcome DeviceSettings)} (h : PasswordLoad derive newPassword load) :
    MadeOfSteps derive noted (changePassword derive task load newPassword) := by
  refine .bind (.leaf (.begin _)) fun begun => ?_
  split
  · exact .ret _
  refine .bind (.bind (steps_passwordLoad h) fun loaded => ?_) fun changed => .bind (.leaf (.finish _ _)) fun _ => .ret _
  split
  · exact .ret _
  refine .bind (steps_ask _) fun created => ?_
  split
  · exact .ret _
  · split
    · exact .ret _
    next hprepared => exact .bind (steps_changePasswordCommitCandidate hprepared) fun _ => .ret _

theorem Noting.mono {events : DeviceEvent → Prop} {before after : DeviceState} (h : Noting events before after)
    (hevents : ∀ event, events event → noted event) : Noting noted before after where
  settings := h.settings
  server := h.server
  passwordTransition := h.passwordTransition
  auth := h.auth
  generation := h.generation
  verifying := h.verifying
  past := h.past
  log := by
    obtain hlog | ⟨event, hevent, hlog⟩ := h.log
    · exact Or.inl hlog
    · exact Or.inr ⟨event, hevents event hevent, hlog⟩

theorem noting_note {event : DeviceEvent} (device : DeviceState) (h : noted event) : Noting noted device (device.note event) :=
  ⟨rfl, rfl, rfl, rfl, rfl, rfl, rfl, Or.inr ⟨event, h, rfl⟩⟩

theorem noting_takeConfirmation (task : Nat) (calls : Surroundings) (device : DeviceState) :
    Noting (OfPolicy task) device (takeConfirmation task calls device).2 := by
  unfold takeConfirmation
  split
  · exact ⟨rfl, rfl, rfl, rfl, rfl, rfl, rfl, Or.inr ⟨_, .confirmed, rfl⟩⟩
  · split <;> exact .refl device

theorem composed_enforcePhysicalConfirmation {leaf : (α : Type) → DeviceProg α → Prop} {task : Nat} (call : ApiCall)
    (h : ∀ {α : Type} (f : Surroundings → DeviceState → α × DeviceState),
      (∀ calls device, Noting (OfPolicy task) device (f calls device).2) → leaf α (.atomic f)) :
    Composed leaf _ (enforcePhysicalConfirmation task call) := by
  refine .bind (.bind (.leaf (h _ fun _ device => noting_note device (.evaluated call _))) fun required => ?_)
    fun confirmed => ?_
  · split
    · exact .ret _
    refine .bind (.leaf (h _ fun _ device => noting_note device .waited)) fun running => ?_
    split
    · exact .ret _
    · exact .loop (.leaf (h _ (noting_takeConfirmation task)))
  · split
    · exact .ret _
    · exact .bind (.leaf (h _ fun _ device => noting_note device (.performed call))) fun _ => .ret _

theorem composed_sendCreateHandler {leaf : (α : Type) → DeviceProg α → Prop} (hread : leaf _ (.atomic deviceSettingsRead))
    (hsubmit : ∀ requireConfirmation, leaf _ (.atomic (executorSubmit requireConfirmation))) :
    Composed leaf _ sendCreateHandler := by
  refine .bind (.leaf hread) fun read => ?_
  split
  · exact .ret _
  · exact .bind (.leaf (hsubmit _)) fun _ => .ret _

abbrev Quiet (event : DeviceEvent) : Prop := event.quiet = true

theorem quiet_ofPolicy {task : Nat} {event : DeviceEvent} (h : OfPolicy task event) : Quiet event := by
  cases h <;> rfl

theorem steps_procedure {task : Nat} {p : DeviceProg α} (h : DeviceProcedure derive task α p) : MadeOfSteps derive Quiet p := by
  cases h with
  | action h => exact .leaf (.action h)
  | login _ sourceIpv4 password => exact steps_loginVerified sourceIpv4 password
  | changePassword h => exact steps_changePassword h
  | policy call =>
    exact composed_enforcePhysicalConfirmation call fun _ h =>
      .noting fun calls device => (h calls device).mono fun _ => quiet_ofPolicy
  | send =>
    exact composed_sendCreateHandler (.action .read) fun _ => .noting fun _ device => noting_note device rfl

theorem steps_deviceTask {i : Nat} {p : DeviceProg Unit} (h : DeviceTask derive i p) : MadeOfSteps derive Quiet p :=
  (made_deviceTask h).trans fun _ _ => steps_procedure

end Composed

def writesOf (log : List DeviceEvent) : List SettingsWrite :=
  log.filterMap fun event =>
    match event with
    | .wrote write => some write
    | _ => none

theorem writesOf_append (front back : List DeviceEvent) : writesOf (front ++ back) = writesOf front ++ writesOf back :=
  List.filterMap_append

/-- What the tasks write: an update of settings that were read before, a new
password in settings that were read before, or an operation under one lock. -/
inductive Proper : (SettingsField → Bool) → Option DeviceSettings → Operation → Prop
  | update {update : SettingsUpdateRequest} {current candidate : DeviceSettings} {flags : SettingsUpdateFlags}
    (h : prepareUpdate current update = .ok (candidate, flags)) : Proper update.names (some current) (.replace candidate)
  | credential {current candidate : DeviceSettings} {material : AuthPasswordRecord}
    (h : prepareCandidate current material = some candidate) :
    Proper (fun field => field = .credential) (some current) (.replace candidate)
  | inPlace {operation : Operation} (hload : operation ≠ .load) (hreplace : ∀ settings, operation ≠ .replace settings) :
    Proper operation.names none operation

/-- What a step does to the settings and to what was recorded of them: at most a
load, or one write. -/
inductive SettingsEffect (before after : DeviceState) : Prop
  | kept (hrecord : after.settings.nvs.record = before.settings.nvs.record)
    (hcoherent : Coherent before.settings → Coherent after.settings)
    (hwrites : writesOf after.log = writesOf before.log)
  | wrote {names : SettingsField → Bool} {read : Option DeviceSettings} {operation : Operation} (calls : Surroundings)
    (hproper : Proper names read operation) (hsettings : after.settings = (deviceSettingsWrite names read operation calls before).2.settings)
    (hlog : after.log = (deviceSettingsWrite names read operation calls before).2.log)

section Write

variable {names : SettingsField → Bool} {read : Option DeviceSettings} {operation : Operation} (calls : Surroundings)
  {device : DeviceState} {field : SettingsField}

theorem writes_not_load (h : Proper names read operation) : operation ≠ .load := by
  cases h with
  | update h => simp
  | credential h => simp
  | inPlace hload hreplace => exact hload

/-- What a proper write stores differs from what was stored only in the fields
that it names. -/
theorem target_unnamed (h : Proper names read operation) (hfield : names field = false) {loaded current target : DeviceSettings}
    (hloaded : SameSettings loaded current) (htarget : operation.target loaded = some target)
    (hread : ∀ settings, read = some settings → SameField field settings current) :
    SameField field target current := by
  cases h with
  | update h =>
    cases htarget
    exact sameField_trans ((prepared_of_prepareUpdate h).changes.unnamed field hfield) (hread _ rfl)
  | credential h =>
    cases htarget
    exact sameField_trans ((prepared_of_prepareCandidate h).2.2.unnamed field hfield) (hread _ rfl)
  | inPlace hload hreplace =>
    have hreset : operation ≠ .factoryReset := by
      rintro rfl
      cases hfield
    exact sameField_trans ((changes_target hreplace hreset htarget).unnamed field hfield)
      (sameField_of_same hloaded field)

theorem stored_unnamed (h : Proper names read operation) (hcoherent : Coherent device.settings)
    (hfield : names field = false) {current : DeviceSettings} (hcurrent : device.stored = some current)
    (hread : ∀ settings, read = some settings → SameField field settings current) :
    ∃ after, (deviceSettingsWrite names read operation calls device).2.stored = some after ∧
      SameField field after current := by
  have hrecord := (Effects.effect_perform calls.store (writes_not_load h) hcoherent).record
  change ∃ after, storedSettings (perform calls.store operation device.settings).store.nvs.record = some after ∧ _
  rcases hrecord with hrecord | ⟨target, htarget, hvalid, hrecord⟩
  · rw [hrecord]
    exact ⟨current, hcurrent, sameField_refl field current⟩
  · by_cases hnone : (device.settings.load calls.store).error = .none
    · obtain ⟨-, -, stored, hstored, hsame⟩ := (Effects.load_stored calls.store hcoherent).2 hnone
      rw [DeviceState.stored, hstored, Option.some.injEq] at hcurrent
      subst hcurrent
      refine ⟨canonical target, ?_, ?_⟩
      · rw [hrecord]
        exact storedSettings_recordBytes hvalid
      · exact sameField_trans (sameField_of_same (sameSettings_canonical target) field)
          (target_unnamed h hfield hsame htarget hread)
    · rw [Effects.record_of_load_error calls.store operation hcoherent hnone]
      exact ⟨current, hcurrent, sameField_refl field current⟩

theorem stored_success (h : Proper names read operation) (hcoherent : Coherent device.settings)
    (hnone : (deviceSettingsWrite names read operation calls device).1 = .none) (field : SettingsField) :
    ∃ target after, operation.target (device.settings.load calls.store).store.core.current = some target ∧
      (deviceSettingsWrite names read operation calls device).2.stored = some after ∧
      SameField field after target := by
  obtain ⟨target, after, htarget, hstored, hsame⟩ :=
    (Effects.effect_perform calls.store (writes_not_load h) hcoherent).success hnone
  exact ⟨target, after, htarget, hstored, sameField_of_same hsame field⟩

end Write

section Effect

variable {derive : Derivation} {noted : DeviceEvent → Prop} {before after : DeviceState}

theorem SettingsEffect.of_settings (hsettings : after.settings = before.settings)
    (hwrites : writesOf after.log = writesOf before.log) : SettingsEffect before after :=
  .kept (by rw [hsettings]) (by rw [hsettings]; exact id) hwrites

theorem writesOf_quiet {event : DeviceEvent} (h : Quiet event) : writesOf [event] = [] := by
  cases event <;> first | rfl | cases h

theorem Noting.writes (hnoted : ∀ event, noted event → Quiet event) (h : Noting noted before after) :
    writesOf after.log = writesOf before.log := by
  rcases h.log with hlog | ⟨event, hevent, hlog⟩
  · rw [hlog]
  · rw [hlog, writesOf_append, writesOf_quiet (hnoted event hevent), List.append_nil]

theorem Aside.writes (h : Aside before after) : writesOf after.log = writesOf before.log := by
  refine Noting.writes ?_ h
  rintro _ ⟨response, rfl⟩
  rfl

/-- The events that are neither of the policy nor of a send. -/
def Plain : DeviceEvent → Prop
  | .wrote _ | .purged _ _ | .answered _ | .responded _ => True
  | .evaluated _ _ _ | .waited _ | .confirmed _ | .performed _ _ | .submitted _ _ => False

structure Effective (noted : DeviceEvent → Prop) (before after : DeviceState) : Prop where
  effect : SettingsEffect before after
  requirePhysicalConfirmation : after.server.requirePhysicalConfirmation = before.server.requirePhysicalConfirmation
  past : after.past = before.past
  log : after.log = before.log ∨ ∃ event, (Plain event ∨ noted event) ∧ after.log = before.log ++ [event]

theorem Noting.effective (hnoted : ∀ event, noted event → Quiet event) (h : Noting noted before after) :
    Effective noted before after where
  effect := .of_settings h.settings (h.writes hnoted)
  requirePhysicalConfirmation := by rw [h.server]
  past := h.past
  log := h.log.imp_right fun ⟨event, hevent, hlog⟩ => ⟨event, Or.inr hevent, hlog⟩

theorem effective_note (event : DeviceEvent) (hsettings : after.settings = before.settings)
    (hserver : after.server.requirePhysicalConfirmation = before.server.requirePhysicalConfirmation)
    (hpast : after.past = before.past) (hlog : after.log = before.log ++ [event]) (hplain : Plain event)
    (hwrites : writesOf [event] = []) : Effective noted before after where
  effect := .of_settings hsettings (by rw [hlog, writesOf_append, hwrites, List.append_nil])
  requirePhysicalConfirmation := hserver
  past := hpast
  log := Or.inr ⟨event, Or.inl hplain, hlog⟩

theorem effective_write {names : SettingsField → Bool} {read : Option DeviceSettings} {operation : Operation}
    (calls : Surroundings) (device : DeviceState) (h : Proper names read operation) :
    Effective noted device (deviceSettingsWrite names read operation calls device).2 :=
  ⟨.wrote calls h rfl rfl, rfl, rfl, Or.inr ⟨.wrote (settingsWrite names read operation calls device), Or.inl trivial, rfl⟩⟩

theorem effective_read (calls : Surroundings) (device : DeviceState) :
    Effective noted device (deviceSettingsRead calls device).2 := by
  refine ⟨.kept ?_ (fun h => (truthful_load calls.store h).coherent) rfl, rfl, rfl, Or.inl rfl⟩
  simp only [deviceSettingsRead]
  unfold Store.load
  split
  · rfl
  · split
    · rfl
    · rfl
    · split <;> rfl

theorem effective_action {α : Type} {p : DeviceProg α} (h : DeviceAction α p) :
    ∃ f, p = .atomic f ∧ ∀ calls device, Effective noted device (f calls device).2 := by
  cases h with
  | read => exact ⟨_, rfl, effective_read⟩
  | replace h => exact ⟨_, rfl, fun calls device => effective_write calls device (.update h)⟩
  | update hload hreplace => exact ⟨_, rfl, fun calls device => effective_write calls device (.inPlace hload hreplace)⟩
  | auth h => exact ⟨_, rfl, fun _ _ => ⟨.of_settings rfl rfl, rfl, rfl, Or.inl rfl⟩⟩
  | aside h =>
    refine ⟨_, rfl, fun calls device => ?_⟩
    have haside := h calls device
    refine ⟨.of_settings haside.settings haside.writes, by rw [haside.server], haside.past, haside.log.imp_right ?_⟩
    rintro ⟨_, ⟨response, rfl⟩, hlog⟩
    exact ⟨.responded response, Or.inl trivial, hlog⟩

/-- Every step of the tasks writes the settings properly or not at all, and
leaves the requirement of the server alone. -/
theorem effective_step {α : Type} {p : DeviceProg α} (hnoted : ∀ event, noted event → Quiet event)
    (h : DeviceStep derive noted α p) : ∃ f, p = .atomic f ∧ ∀ calls device, Effective noted device (f calls device).2 := by
  cases h with
  | action h => exact effective_action h
  | noting h => exact ⟨_, rfl, fun calls device => (h calls device).effective hnoted⟩
  | credential h => exact ⟨_, rfl, fun calls device => effective_write calls device (.credential h)⟩
  | snapshot password =>
    refine ⟨_, rfl, fun calls device => ?_⟩
    unfold passwordRecordSnapshotForLogin
    split <;> exact ⟨.of_settings rfl rfl, rfl, rfl, Or.inl rfl⟩
  | verify password record =>
    refine ⟨_, rfl, fun calls device => ?_⟩
    unfold authPasswordVerify
    split <;> exact ⟨.of_settings rfl rfl, rfl, rfl, Or.inl rfl⟩
  | success sourceIpv4 => exact ⟨_, rfl, fun _ _ => ⟨.of_settings rfl rfl, rfl, rfl, Or.inl rfl⟩⟩
  | create generation => exact ⟨_, rfl, fun _ _ => ⟨.of_settings rfl rfl, rfl, rfl, Or.inl rfl⟩⟩
  | begin task =>
    refine ⟨_, rfl, fun calls device => ?_⟩
    unfold passwordTransitionBegin
    split
    · exact effective_note (.answered _) rfl rfl rfl rfl trivial rfl
    · exact ⟨.of_settings rfl rfl, rfl, rfl, Or.inl rfl⟩
  | activate candidate => exact ⟨_, rfl, fun _ _ => ⟨.of_settings rfl rfl, rfl, rfl, Or.inl rfl⟩⟩
  | invalidate =>
    refine ⟨_, rfl, fun calls device => ?_⟩
    unfold invalidateAllSessions
    simp only
    split
    · exact effective_note (.purged _ _) rfl rfl rfl rfl trivial rfl
    · exact ⟨.of_settings rfl rfl, rfl, rfl, Or.inl rfl⟩
  | finish outcome new => exact ⟨_, rfl, fun _ _ => effective_note (.answered _) rfl rfl rfl rfl trivial rfl⟩

/-- An invariant of the settings, of what was recorded of them and of the
requirement of the server holds in every run. -/
theorem invariant_of_effects {inv : DeviceState → Prop} (hstep : ∀ before after, Effective Quiet before after → inv before → inv after)
    (hstarted : ∀ device, Started device → inv device)
    (hrestarted : ∀ before after, Restarted before after → inv before → inv after)
    {c : Config DeviceState Surroundings} (h : DeviceRun derive c) : inv c.state := by
  refine invariant_of_composed (fun i p hp => steps_deviceTask hp)
    (fun _ β q hq => ?_) hstarted (fun before after hinv hr => hrestarted before after hr hinv) h
  obtain ⟨f, rfl, hf⟩ := effective_step (fun _ h => h) hq
  exact ⟨f, rfl, fun calls device => hstep device _ (hf calls device)⟩

theorem Boots.coherent {record : Option (List UInt8)} {device : DeviceState} (h : Boots record device) :
    Coherent device.settings ∧ device.settings.nvs.record = record ∧
      ∃ stored, device.stored = some stored ∧ Codec.SameSettings device.settings.core.current stored := by
  obtain ⟨calls, hnone, hsettings⟩ := h.loads
  have hstart : Coherent (Store.start record) := ⟨fun h => (by cases h), fun h => (by cases h)⟩
  obtain ⟨hrecord, hload⟩ := Effects.load_stored calls hstart
  obtain ⟨-, -, stored, hstored, hsame⟩ := hload hnone
  rw [hsettings]
  refine ⟨(truthful_load calls hstart).coherent, hrecord, stored, ?_, hsame⟩
  rw [DeviceState.stored, hsettings, hrecord]
  exact hstored

end Effect

end MacroKeyboard.Device
