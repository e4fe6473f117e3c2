import MacroKeyboard.Device.Effects
import MacroKeyboard.Device.Runs

namespace MacroKeyboard.Device.Verifier

open Settings Settings.Coherence Settings.Frame Auth Codec Threads.Program Threads.RelyGuarantee Threads.Restarts Runs

/-- The outcomes that say that the new password is in force. -/
def ChangePasswordResult.committed : ChangePasswordResult → Bool
  | .ok | .committedSessionInvalidationIncomplete => true
  | .invalidNewPassword | .incorrectCurrentPassword | .backendUnavailable | .internal => false

/-- An answer that says which password is stored. -/
def Truthful (answer : PasswordAnswer) : Prop :=
  if ChangePasswordResult.committed answer.outcome.result then answer.new.isSome ∧ answer.stored = answer.new
  else answer.stored = answer.old

/-- Outside a transition a login uses the password that is stored, and every
answer says which one that was. -/
structure LoginCoherent (device : DeviceState) : Prop where
  password : device.passwordTransition = none → device.storedPassword = some device.server.passwordRecord
  answers : ∀ answer, .answered answer ∈ device.log → Truthful answer

/-- What a write must not do: a password change that fails leaves the stored
password alone, and an update of other fields finds the password that it read. No
other write names the password but a factory reset. -/
structure Undisturbing (write : SettingsWrite) : Prop where
  read : write.names .credential = true → write.read.isSome
  failed : write.names .credential = true → write.error ≠ .none →
    write.after.map passwordOf = write.before.map passwordOf
  update : write.names .credential = false → ∀ current, write.read = some current →
    write.before.map passwordOf = some (passwordOf current)

def Undisturbed (log : List DeviceEvent) : Prop := ∀ write ∈ writesOf log, Undisturbing write

/-- The invariant: it says nothing of a run that was disturbed. -/
structure Inv (device : DeviceState) : Prop where
  coherent : Coherent device.settings
  stored : device.stored.isSome
  login : Undisturbed device.log → LoginCoherent device

/-- A step that leaves both passwords and the transition alone. -/
structure Steady (before after : DeviceState) : Prop where
  transition : after.passwordTransition = before.passwordTransition
  server : after.server.passwordRecord = before.server.passwordRecord
  stored : Undisturbed after.log → Undisturbed before.log ∧ after.storedPassword = before.storedPassword

def rely (task : Nat) (before after : DeviceState) : Prop :=
  (∃ old, before.passwordTransition = some ⟨task, old⟩) → Steady before after

def logic (task : Nat) : Logic DeviceState where
  inv := Inv
  halt := fun _ => False
  rely := rely task
  guar := fun before after => ∀ other, task ≠ other → rely other before after

/-- The task is in its transition, and unless the run was disturbed the password
stored when it began, the one stored now and the one of the server are so related. -/
def Stage (task : Nat) (R : Option AuthPasswordRecord → Option AuthPasswordRecord → AuthPasswordRecord → Prop)
    (device : DeviceState) : Prop :=
  ∃ old, device.passwordTransition = some ⟨task, old⟩ ∧
    (Undisturbed device.log → R old device.storedPassword device.server.passwordRecord)

def unchanged (old stored : Option AuthPasswordRecord) (server : AuthPasswordRecord) : Prop :=
  stored = some server ∧ old = stored

def replaced (material : AuthPasswordRecord) (_ stored : Option AuthPasswordRecord) (_ : AuthPasswordRecord) : Prop :=
  stored = some material

/-- The new password is stored and in force. -/
def activated (material : AuthPasswordRecord) (_ stored : Option AuthPasswordRecord) (server : AuthPasswordRecord) :
    Prop :=
  stored = some material ∧ server = material

/-- What a password change leaves at the end of its transition. -/
def concluded (result : ChangePasswordOutcome × Option AuthPasswordRecord) (old stored : Option AuthPasswordRecord)
    (server : AuthPasswordRecord) : Prop :=
  if ChangePasswordResult.committed result.1.result then ∃ material, result.2 = some material ∧ activated material old stored server
  else unchanged old stored server

section Steady

variable {before after : DeviceState} {task : Nat}
  {R : Option AuthPasswordRecord → Option AuthPasswordRecord → AuthPasswordRecord → Prop}

theorem Stage.steady (h : Stage task R before) (hsteady : Steady before after) : Stage task R after := by
  obtain ⟨old, htransition, hR⟩ := h
  refine ⟨old, by rw [hsteady.transition, htransition], fun hundisturbed => ?_⟩
  obtain ⟨hbefore, hstored⟩ := hsteady.stored hundisturbed
  rw [hstored, hsteady.server]
  exact hR hbefore

theorem stable_stage (task : Nat) (R : Option AuthPasswordRecord → Option AuthPasswordRecord → AuthPasswordRecord → Prop) :
    Stable (logic task) (Stage task R) := by
  rintro before after - - hrely h
  obtain ⟨old, htransition, -⟩ := id h
  exact h.steady (hrely ⟨old, htransition⟩)

theorem Stage.mono {R' : Option AuthPasswordRecord → Option AuthPasswordRecord → AuthPasswordRecord → Prop}
    (h : Stage task R before) (hmono : ∀ old stored server, R old stored server → R' old stored server) :
    Stage task R' before := by
  obtain ⟨old, htransition, hR⟩ := h
  exact ⟨old, htransition, fun hundisturbed => hmono _ _ _ (hR hundisturbed)⟩

theorem guar_of_stage (h : Stage task R before) : (logic task).guar before after := by
  obtain ⟨old, htransition, -⟩ := h
  rintro other hne ⟨old', htransition'⟩
  rw [htransition, Option.some.injEq, Transition.mk.injEq] at htransition'
  exact absurd htransition'.1 hne

theorem undisturbed_append {log : List DeviceEvent} {event : DeviceEvent} (h : Undisturbed (log ++ [event])) :
    Undisturbed log := by
  intro write hwrite
  refine h write ?_
  rw [writesOf_append]
  exact List.mem_append_left _ hwrite

theorem undisturbed_of_writes (h : writesOf after.log = writesOf before.log) :
    Undisturbed after.log ↔ Undisturbed before.log := by
  rw [Undisturbed, Undisturbed, h]

theorem isSome_write {names : SettingsField → Bool} {read : Option DeviceSettings} {operation : Operation}
    {calls : Surroundings} (h : Proper names read operation) (hinv : Inv before) :
    (deviceSettingsWrite names read operation calls before).2.stored.isSome := by
  change (storedSettings (perform calls.store operation before.settings).store.nvs.record).isSome
  rcases (Effects.effect_perform calls.store (writes_not_load h) hinv.coherent).record with
    hrecord | ⟨target, -, hvalid, hrecord⟩
  · rw [hrecord]
    exact hinv.stored
  · rw [hrecord, storedSettings_recordBytes hvalid]
    rfl

theorem password_write {names : SettingsField → Bool} {read : Option DeviceSettings} {operation : Operation}
    {calls : Surroundings} (h : Proper names read operation) (hinv : Inv before) (hnames : names .credential = false)
    (hwrite : Undisturbing (settingsWrite names read operation calls before)) :
    (deviceSettingsWrite names read operation calls before).2.storedPassword = before.storedPassword := by
  obtain ⟨current, hcurrent⟩ := Option.isSome_iff_exists.mp hinv.stored
  obtain ⟨stored, hstored, hsame⟩ := stored_unnamed calls h hinv.coherent hnames hcurrent
    fun settings hread => by
      have hfound : before.stored.map passwordOf = some (passwordOf settings) := hwrite.update hnames settings hread
      rw [hcurrent, Option.map_some, Option.some.injEq] at hfound
      exact hfound.symm
  rw [DeviceState.storedPassword, DeviceState.storedPassword, hstored, hcurrent, Option.map_some, Option.map_some]
  exact congrArg some hsame

end Steady

/-- Steps that are steady, keep the store coherent and answer no password change. -/
structure Calm (before after : DeviceState) : Prop where
  steady : Steady before after
  coherent : Coherent after.settings
  stored : after.stored.isSome
  answers : ∀ answer, .answered answer ∈ after.log → .answered answer ∈ before.log

section Calm

variable {before after : DeviceState} {task : Nat}

theorem Calm.inv (h : Calm before after) (hinv : Inv before) : Inv after where
  coherent := h.coherent
  stored := h.stored
  login := fun hundisturbed => by
    obtain ⟨hbefore, hstored⟩ := h.steady.stored hundisturbed
    have hlogin := hinv.login hbefore
    refine ⟨fun hnone => ?_, fun answer hanswer => hlogin.answers answer (h.answers answer hanswer)⟩
    rw [h.steady.transition] at hnone
    rw [hstored, h.steady.server]
    exact hlogin.password hnone

theorem calm_of_same (hinv : Inv before) (htransition : after.passwordTransition = before.passwordTransition)
    (hserver : after.server.passwordRecord = before.server.passwordRecord) (hsettings : after.settings = before.settings)
    (hwrites : writesOf after.log = writesOf before.log)
    (hanswers : ∀ answer, .answered answer ∈ after.log → .answered answer ∈ before.log) : Calm before after := by
  have hstored : after.stored = before.stored := by rw [DeviceState.stored, hsettings, DeviceState.stored]
  refine ⟨⟨htransition, hserver, fun h => ⟨(undisturbed_of_writes hwrites).mp h, ?_⟩⟩, ?_, ?_, hanswers⟩
  · rw [DeviceState.storedPassword, hstored, DeviceState.storedPassword]
  · rw [hsettings]
    exact hinv.coherent
  · rw [hstored]
    exact hinv.stored

/-- An update of other fields than the password is calm, and so is a factory reset,
which disturbs. -/
theorem calm_write {names : SettingsField → Bool} {read : Option DeviceSettings} {operation : Operation}
    (calls : Surroundings) (h : Proper names read operation) (hinv : Inv before)
    (hnames : names .credential = true → read = none) :
    Calm before (deviceSettingsWrite names read operation calls before).2 := by
  refine ⟨⟨rfl, rfl, fun hundisturbed => ⟨undisturbed_append hundisturbed, ?_⟩⟩,
    (truthful_perform calls.store operation hinv.coherent).coherent, isSome_write h hinv, fun answer hanswer => ?_⟩
  · have hwrite : Undisturbing (settingsWrite names read operation calls before) := by
      refine hundisturbed _ ?_
      simp only [deviceSettingsWrite, DeviceState.note, writesOf_append]
      exact List.mem_append_right _ (List.mem_singleton.mpr rfl)
    cases hcredential : names .credential with
    | true =>
      have hread : read.isSome := hwrite.read hcredential
      rw [hnames hcredential] at hread
      cases hread
    | false => exact password_write h hinv hcredential hwrite
  · simpa [deviceSettingsWrite, DeviceState.note] using hanswer

theorem calm_noting {noted : DeviceEvent → Prop} (hnoted : ∀ event, noted event → Quiet event) (hinv : Inv before)
    (h : Noting noted before after) : Calm before after := by
  refine calm_of_same hinv h.passwordTransition (by rw [h.server]) h.settings (h.writes hnoted) fun answer hanswer => ?_
  obtain hlog | ⟨event, hevent, hlog⟩ := h.log
  · rwa [hlog] at hanswer
  · rw [hlog, List.mem_append, List.mem_singleton] at hanswer
    obtain hanswer | rfl := hanswer
    · exact hanswer
    · cases hnoted _ hevent

theorem calm_action {α : Type} {p : DeviceProg α} (h : DeviceAction α p) :
    ∃ f, p = .atomic f ∧ ∀ calls device, Inv device → Calm device (f calls device).2 := by
  cases h with
  | read =>
    refine ⟨_, rfl, fun calls device hinv => ?_⟩
    have hrecord := (Effects.load_stored calls.store hinv.coherent).1
    have hstored : (deviceSettingsRead calls device).2.stored = device.stored := by
      simp only [DeviceState.stored, deviceSettingsRead, hrecord]
    refine ⟨⟨rfl, rfl, fun h => ⟨h, ?_⟩⟩, (truthful_load calls.store hinv.coherent).coherent, ?_, fun _ h => h⟩
    · rw [DeviceState.storedPassword, hstored, DeviceState.storedPassword]
    · rw [hstored]
      exact hinv.stored
  | replace h =>
    exact ⟨_, rfl, fun calls device hinv => calm_write calls (.update h) hinv fun h => by cases h⟩
  | update hload hreplace =>
    exact ⟨_, rfl, fun calls device hinv => calm_write calls (.inPlace hload hreplace) hinv fun _ => rfl⟩
  | auth h => exact ⟨_, rfl, fun calls device hinv => calm_of_same hinv rfl rfl rfl rfl fun _ h => h⟩
  | aside h =>
    refine ⟨_, rfl, fun calls device hinv => ?_⟩
    have haside := h calls device
    refine calm_noting (fun _ hevent => ?_) hinv haside
    obtain ⟨response, rfl⟩ := hevent
    rfl

def CalmStep (α : Type) (p : DeviceProg α) : Prop :=
  ∃ f, p = .atomic f ∧ ∀ calls device, Inv device → Calm device (f calls device).2

theorem valid_calm {α : Type} {p : DeviceProg α} {P : DeviceState → Prop} (hP : Stable (logic task) P)
    (hsteady : ∀ before after, Steady before after → P before → P after) (h : Composed CalmStep α p) :
    Valid (logic task) p P (fun _ => P) := by
  refine valid_of_composed hP (fun β q hq => ?_) h
  obtain ⟨f, rfl, hf⟩ := hq
  refine valid_atomic (fun _ => hP) fun calls device hinv hPs => ?_
  have hcalm := hf calls device hinv
  exact ⟨hcalm.inv hinv, fun _ _ _ => hcalm.steady, hsteady _ _ hcalm.steady hPs⟩

theorem stable_true : Stable (logic task) (fun _ => True) := fun _ _ _ _ _ _ => trivial

theorem calm_ask {α : Type} (f : Surroundings → α) : Composed CalmStep α (.ask f) :=
  .leaf (calm_action (.aside fun _ device => .refl device))

theorem calm_loginVerified (derive : Derivation) (sourceIpv4 : UInt32) (password : List UInt8) :
    Composed CalmStep _ (loginVerified derive sourceIpv4 password) := by
  refine .bind (.leaf ⟨_, rfl, fun calls device hinv => ?_⟩) fun snapshot => ?_
  · unfold passwordRecordSnapshotForLogin
    split <;> exact calm_of_same hinv rfl rfl rfl rfl fun _ h => h
  split
  · exact .ret _
  refine .bind (.leaf ⟨_, rfl, fun calls device hinv => ?_⟩) fun verified => ?_
  · unfold authPasswordVerify
    split <;> exact calm_of_same hinv rfl rfl rfl rfl fun _ h => h
  split
  · exact .ret _
  · exact .ret _
  refine .bind (.leaf ⟨_, rfl, fun calls device hinv => calm_of_same hinv rfl rfl rfl rfl fun _ h => h⟩) fun recorded => ?_
  split
  · exact .ret _
  refine .bind (.leaf ⟨_, rfl, fun calls device hinv => calm_of_same hinv rfl rfl rfl rfl fun _ h => h⟩) fun created => ?_
  split <;> exact .ret _

theorem calm_passwordLoad {derive : Derivation} {newPassword : List UInt8}
    {load : DeviceProg (Except ChangePasswordOutcome DeviceSettings)} (h : PasswordLoad derive newPassword load) :
    Composed CalmStep _ load := by
  have hload : Composed CalmStep _ (changePasswordLoadCurrentAndValidate newPassword) := by
    refine .bind (.leaf (calm_action .read)) fun read => ?_
    split
    · exact .ret _
    · split <;> exact .ret _
  cases h with
  | verified currentPassword =>
    refine .bind hload fun loaded => ?_
    split
    · exact .ret _
    refine .bind (calm_ask _) fun verified => ?_
    split <;> exact .ret _
  | unverified => exact hload

end Calm

section Change

variable {derive : Derivation} {task : Nat}

theorem valid_passwordTransitionBegin : Valid (logic task) (.atomic (passwordTransitionBegin task)) (fun _ => True)
    (fun begun device => begun = .none → Stage task unchanged device) := by
  refine valid_atomic (fun begun => ?_) fun calls device hinv _ => ?_
  · intro before after hbefore hafter hrely h hbegun
    exact stable_stage task unchanged before after hbefore hafter hrely (h hbegun)
  unfold passwordTransitionBegin
  split
  next transition htransition =>
    -- the answer says that the stored password is the old one
    have hwrites : writesOf (device.log ++ [.answered
        ⟨⟨.backendUnavailable, .conflict⟩, device.storedPassword, none, device.storedPassword, device.generation⟩]) =
        writesOf device.log := by
      rw [writesOf_append]
      simp [writesOf]
    refine ⟨⟨hinv.coherent, hinv.stored, fun hundisturbed => ?_⟩, fun other _ _ => ⟨rfl, rfl, fun h => ⟨?_, rfl⟩⟩,
      fun h => by cases h⟩
    · have hlogin := hinv.login ((undisturbed_of_writes hwrites).mp hundisturbed)
      refine ⟨hlogin.password, fun answer hanswer => ?_⟩
      rcases List.mem_append.mp hanswer with hanswer | hanswer
      · exact hlogin.answers answer hanswer
      · cases List.mem_singleton.mp hanswer
        rfl
    · exact (undisturbed_of_writes hwrites).mp h
  next htransition =>
    refine ⟨⟨hinv.coherent, hinv.stored, fun hundisturbed => ⟨fun h => ?_, (hinv.login hundisturbed).answers⟩⟩, ?_,
      fun _ => ⟨device.storedPassword, rfl, fun hundisturbed => ⟨(hinv.login hundisturbed).password htransition, rfl⟩⟩⟩
    · cases h
    · rintro other - ⟨old, hold⟩
      rw [htransition] at hold
      cases hold

/-- The replacement stores the new password, or fails and leaves the old one
unless it disturbs. -/
theorem valid_credentialReplace {current candidate : DeviceSettings} {material : AuthPasswordRecord}
    (h : prepareCandidate current material = some candidate) :
    Valid (logic task) (.atomic (deviceSettingsReplace (fun field => field = .credential) current candidate))
      (Stage task unchanged)
      (fun result => if result = .none then Stage task (replaced material) else Stage task unchanged) := by
  refine valid_atomic (fun result => ?_) fun calls device hinv hstage => ?_
  · split <;> exact stable_stage task _
  have hproper : Proper (fun field => decide (field = .credential)) (some current) (.replace candidate) := .credential h
  obtain ⟨old, htransition, hunchanged⟩ := id hstage
  refine ⟨⟨(truthful_perform calls.store (.replace candidate) hinv.coherent).coherent, isSome_write hproper hinv,
    fun hundisturbed => ⟨fun hnone => ?_, fun answer hanswer => ?_⟩⟩, guar_of_stage hstage, ?_⟩
  · have hnone : device.passwordTransition = none := hnone
    rw [htransition] at hnone
    cases hnone
  · refine (hinv.login (undisturbed_append hundisturbed)).answers answer ?_
    simpa [deviceSettingsReplace, deviceSettingsWrite, DeviceState.note] using hanswer
  by_cases hnone : (deviceSettingsReplace (fun field => field = .credential) current candidate calls device).1 = .none
  · rw [if_pos hnone]
    obtain ⟨target, after, htarget, hstored, hsame⟩ := stored_success calls hproper hinv.coherent hnone .credential
    cases htarget
    refine ⟨old, htransition, fun _ => ?_⟩
    rw [replaced, DeviceState.storedPassword, deviceSettingsReplace, hstored, Option.map_some,
      ← (prepared_of_prepareCandidate h).2.1]
    exact congrArg some hsame
  · rw [if_neg hnone]
    refine ⟨old, htransition, fun hundisturbed => ?_⟩
    have hwrite : Undisturbing (settingsWrite (fun field => field = .credential) (some current) (.replace candidate)
        calls device) := by
      refine hundisturbed _ ?_
      simp only [deviceSettingsReplace, deviceSettingsWrite, DeviceState.note, writesOf_append]
      exact List.mem_append_right _ (List.mem_singleton.mpr rfl)
    have hpassword : (deviceSettingsReplace (fun field => field = .credential) current candidate calls
        device).2.storedPassword = device.storedPassword := hwrite.failed rfl hnone
    rw [hpassword]
    exact hunchanged (undisturbed_append hundisturbed)

theorem valid_passwordActivate {candidate : DeviceSettings} {material : AuthPasswordRecord}
    (h : passwordOf candidate = material) : Valid (logic task) (.atomic (passwordActivate candidate))
      (Stage task (replaced material)) (fun _ => Stage task (activated material)) := by
  refine valid_atomic (fun _ => stable_stage task _) fun calls device hinv hstage => ?_
  obtain ⟨old, htransition, hreplaced⟩ := id hstage
  refine ⟨⟨hinv.coherent, hinv.stored, fun hundisturbed => ⟨fun hnone => ?_, (hinv.login hundisturbed).answers⟩⟩,
    guar_of_stage hstage, old, htransition, fun hundisturbed => ⟨hreplaced hundisturbed, h⟩⟩
  have hnone : device.passwordTransition = none := hnone
  rw [htransition] at hnone
  cases hnone

theorem calm_invalidateAllSessions : Composed CalmStep _ (.atomic invalidateAllSessions) := by
  refine .leaf ⟨_, rfl, fun calls device hinv => ?_⟩
  unfold invalidateAllSessions
  simp only
  split
  · refine calm_of_same hinv rfl rfl rfl ?_ fun answer hanswer => ?_
    · simp [DeviceState.note, writesOf, authSessionLogoutAll, authCall]
    · simpa [DeviceState.note, authSessionLogoutAll, authCall] using hanswer
  · exact calm_of_same hinv rfl rfl rfl rfl fun _ h => h

theorem valid_changePasswordCommitCandidate {current candidate : DeviceSettings} {material : AuthPasswordRecord}
    (h : prepareCandidate current material = some candidate) :
    Valid (logic task) (changePasswordCommitCandidate current candidate) (Stage task unchanged)
      (fun outcome => Stage task (concluded (outcome, some material))) := by
  refine valid_bind (valid_credentialReplace h) fun result => ?_
  by_cases hnone : result = .none
  · rw [if_pos hnone, if_neg (not_not.mpr hnone)]
    refine valid_bind (valid_passwordActivate (prepared_of_prepareCandidate h).2.1) fun _ => ?_
    refine valid_bind (valid_calm (stable_stage task _) (fun _ _ hsteady hstage => hstage.steady hsteady)
      calm_invalidateAllSessions) fun invalidated => ?_
    split <;> exact valid_ret fun _ _ hstage => hstage.mono fun _ _ _ hactivated => ⟨material, rfl, hactivated⟩
  · rw [if_neg hnone, if_pos hnone]
    exact valid_ret fun _ _ hstage => hstage.mono fun _ _ _ hunchanged => hunchanged

theorem yields_passwordLoad {newPassword : List UInt8} {load : DeviceProg (Except ChangePasswordOutcome DeviceSettings)}
    (h : PasswordLoad derive newPassword load) :
    Yields (fun loaded => ∀ outcome, loaded = .error outcome →
      ChangePasswordResult.committed outcome.result = false) load := by
  have hload : Yields (fun loaded => ∀ outcome, loaded = .error outcome →
      ChangePasswordResult.committed outcome.result = false) (changePasswordLoadCurrentAndValidate newPassword) := by
    refine yields_bind (yields_atomic _) fun read _ => ?_
    split
    · rintro _ ⟨⟩
      rfl
    · split
      · rintro _ ⟨⟩
        rfl
      · exact fun _ h => by cases h
  cases h with
  | verified currentPassword =>
    refine yields_bind hload fun loaded hfails => ?_
    split
    · rintro _ ⟨⟩
      exact hfails _ rfl
    · refine yields_bind (yields_atomic _) fun verified _ => ?_
      split
      · rintro _ ⟨⟩
        rfl
      · rintro _ ⟨⟩
        rfl
      · exact fun _ h => by cases h
  | unverified => exact hload

theorem valid_changePasswordLoaded {newPassword : List UInt8}
    {load : DeviceProg (Except ChangePasswordOutcome DeviceSettings)} (h : PasswordLoad derive newPassword load) :
    Valid (logic task) (changePasswordLoaded derive load newPassword) (Stage task unchanged)
      (fun result => Stage task (concluded result)) := by
  have hstable := stable_stage task unchanged
  have hkept {α : Type} {p : DeviceProg α} (hp : Composed CalmStep α p) :
      Valid (logic task) p (Stage task unchanged) (fun _ => Stage task unchanged) :=
    valid_calm hstable (fun _ _ hsteady hstage => hstage.steady hsteady) hp
  refine valid_bind ((hkept (calm_passwordLoad h)).yields (yields_passwordLoad h)) fun loaded => ?_
  split
  next outcome =>
    refine valid_pure_and fun hfails => valid_ret fun _ _ hstage => hstage.mono fun _ _ _ hunchanged => ?_
    rw [concluded, hfails outcome rfl]
    exact hunchanged
  next current =>
    refine valid_pure_and fun _ => valid_bind (hkept (calm_ask _)) fun created => ?_
    split
    · exact valid_ret fun _ _ hstage => hstage.mono fun _ _ _ hunchanged => hunchanged
    next material =>
      split
      · exact valid_ret fun _ _ hstage => hstage.mono fun _ _ _ hunchanged => hunchanged
      next hprepared => exact valid_bind (valid_changePasswordCommitCandidate hprepared) fun _ => valid_ret fun _ _ h => h

theorem valid_passwordTransitionEnd (outcome : ChangePasswordOutcome) (new : Option AuthPasswordRecord) :
    Valid (logic task) (.atomic (passwordTransitionEnd outcome new)) (Stage task (concluded (outcome, new)))
      (fun _ _ => True) := by
  refine valid_atomic (fun _ => stable_true) fun calls device hinv hstage => ?_
  obtain ⟨old, htransition, hconcluded⟩ := id hstage
  have hwrites (answer : PasswordAnswer) : writesOf (device.log ++ [.answered answer]) = writesOf device.log := by
    rw [writesOf_append]
    simp [writesOf]
  refine ⟨⟨hinv.coherent, hinv.stored, fun hundisturbed => ?_⟩, guar_of_stage hstage, trivial⟩
  have hbefore : Undisturbed device.log := (undisturbed_of_writes (hwrites _)).mp hundisturbed
  have hresult := hconcluded hbefore
  have hanswers := (hinv.login hbefore).answers
  by_cases hcommitted : ChangePasswordResult.committed outcome.result = true
  · rw [concluded, if_pos hcommitted] at hresult
    obtain ⟨material, hnew, hstored, hserver⟩ := hresult
    refine ⟨fun _ => ?_, fun answer hanswer => ?_⟩
    · change device.storedPassword = some device.server.passwordRecord
      rw [hstored, hserver]
    · rcases List.mem_append.mp hanswer with hanswer | hanswer
      · exact hanswers answer hanswer
      · cases List.mem_singleton.mp hanswer
        have hnew : new = some material := hnew
        rw [Truthful, if_pos hcommitted]
        exact ⟨by rw [hnew]; rfl, hstored.trans hnew.symm⟩
  · rw [concluded, if_neg hcommitted] at hresult
    obtain ⟨hstored, hold⟩ := hresult
    refine ⟨fun _ => hstored, fun answer hanswer => ?_⟩
    rcases List.mem_append.mp hanswer with hanswer | hanswer
    · exact hanswers answer hanswer
    · cases List.mem_singleton.mp hanswer
      rw [Truthful, if_neg hcommitted]
      change device.storedPassword = device.passwordTransition.bind (·.old)
      rw [htransition, ← hold]
      rfl

theorem valid_changePassword {newPassword : List UInt8}
    {load : DeviceProg (Except ChangePasswordOutcome DeviceSettings)} (h : PasswordLoad derive newPassword load) :
    Valid (logic task) (changePassword derive task load newPassword) (fun _ => True) (fun _ _ => True) := by
  refine valid_bind valid_passwordTransitionBegin fun begun => ?_
  split
  · exact valid_ret fun _ _ _ => trivial
  next hnone =>
    refine valid_bind ((valid_changePasswordLoaded h).pre fun _ _ hstage => hstage (not_not.mp hnone)) fun result => ?_
    exact valid_bind (valid_passwordTransitionEnd result.1 result.2) fun _ => valid_ret fun _ _ h => h

theorem valid_procedure {α : Type} {p : DeviceProg α} (h : DeviceProcedure derive task α p) :
    Valid (logic task) p (fun _ => True) (fun _ _ => True) := by
  have hcalm {q : DeviceProg α} (hq : Composed CalmStep α q) : Valid (logic task) q (fun _ => True) (fun _ _ => True) :=
    valid_calm stable_true (fun _ _ _ _ => trivial) hq
  cases h with
  | action h => exact hcalm (.leaf (calm_action h))
  | login _ sourceIpv4 password => exact hcalm (calm_loginVerified derive sourceIpv4 password)
  | changePassword h => exact valid_changePassword h
  | policy call =>
    exact hcalm (composed_enforcePhysicalConfirmation call fun _ h =>
      ⟨_, rfl, fun calls device hinv => calm_noting (fun _ => quiet_ofPolicy) hinv (h calls device)⟩)
  | send =>
    exact hcalm (composed_sendCreateHandler (calm_action .read) fun _ =>
      ⟨_, rfl, fun _ device hinv => calm_noting (fun _ h => h) hinv (noting_note device rfl)⟩)

end Change

theorem inv_of_boots {record : Option (List UInt8)} {device : DeviceState} (h : Boots record device) : Inv device := by
  obtain ⟨hcoherent, -, stored, hstored, hsame⟩ := h.coherent
  refine ⟨hcoherent, by rw [hstored]; rfl, fun _ => ⟨fun _ => ?_, fun answer hanswer => ?_⟩⟩
  · rw [DeviceState.storedPassword, hstored, Option.map_some, h.server]
    exact congrArg some (sameField_of_same hsame .credential).symm
  · rw [h.log] at hanswer
    cases hanswer

/-- In every run, unless a password change failed and left its record stored, an
update of other fields found another password stored than it had read, or a
factory reset wrote since the last start, a login uses the stored password
whenever no password change is in progress, and every password change has told
which password is stored. -/
theorem login_coherent {derive : Derivation} {c : Config DeviceState Surroundings} (h : DeviceRun derive c)
    (hundisturbed : Undisturbed c.state.log) : LoginCoherent c.state := by
  have hcompatible : Compatible logic Inv (fun _ => False) (fun _ _ => True) :=
    ⟨fun _ => rfl, fun _ => rfl, fun _ j _ _ hne hguar => hguar j hne, fun _ => stable_true⟩
  refine (invariant_lifetime hcompatible (fun _ h => h) (fun i p hp => ?_) (fun device hstarted => ?_)
    (fun _ after _ hr => ⟨inv_of_boots hr.boots, fun _ => trivial⟩) h).inv_holds.login hundisturbed
  · exact valid_of_composed stable_true (fun _ _ hq => valid_procedure hq) (made_deviceTask hp)
  · obtain ⟨record, hboots⟩ := hstarted.boots
    exact ⟨inv_of_boots hboots, fun _ => trivial⟩

/-- A password change at the console with these calls of the settings store, in so
many steps. -/
def consoleChange (store : StoreCalls) (count : Nat) : Config DeviceState Surroundings :=
  deviceRun firstByteDerivation runningStore
    (steps 2 count { commanding (.setAdminPassword (passwordOfByte 2)) with store })

theorem login_coherent_changed : LoginCoherent (consoleChange quietCalls 9).state := by
  refine @login_coherent firstByteDerivation (consoleChange quietCalls 9)
    (deviceRun_run started_running _) fun write hwrite => ?_
  have hwrites : (writesOf (consoleChange quietCalls 9).state.log).all (fun write =>
      write.names .credential && write.read.isSome && decide (write.error = .none)) = true := by decide +kernel
  have hfacts := List.all_eq_true.mp hwrites write hwrite
  simp only [Bool.and_eq_true, decide_eq_true_eq] at hfacts
  obtain ⟨⟨hnames, hread⟩, hnone⟩ := hfacts
  exact ⟨fun _ => hread, fun _ herror => absurd hnone herror, fun h => by rw [hnames] at h; cases h⟩

def storingCalls : StoreCalls := { unreadableCalls with persisted := true, unset := fun h => absurd h (by decide) }

/-- The commit of a password change fails and cannot be read back, but its record
is stored: logins still use the old password, and a restart the new one. -/
theorem stored_but_not_in_force : ¬ ∀ derive (c : Config DeviceState Surroundings), DeviceRun derive c →
    (∀ write ∈ writesOf c.state.log, write.names .credential = true → write.read.isSome) → LoginCoherent c.state := by
  intro h
  have hcoherent := h firstByteDerivation (consoleChange storingCalls 7)
    (deviceRun_run started_running _) (by
      have hwrites : (writesOf (consoleChange storingCalls 7).state.log).all
          (fun write => write.read.isSome) = true := by decide +kernel
      exact fun write hwrite _ => List.all_eq_true.mp hwrites write hwrite)
  have hfacts : (consoleChange storingCalls 7).state.passwordTransition.isNone ∧
      (consoleChange storingCalls 7).state.storedPassword ≠
        some (consoleChange storingCalls 7).state.server.passwordRecord := by
    decide +kernel
  exact hfacts.2 (hcoherent.password (Option.isNone_iff_eq_none.mp hfacts.1))

end MacroKeyboard.Device.Verifier
