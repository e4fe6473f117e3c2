import MacroKeyboard.Device.Tasks

namespace MacroKeyboard.Device

open Settings Settings.Coherence Auth Blobs Threads.Program Threads.Restarts

/-- An operation of the authentication component under which no session changes
what it was authenticated against. -/
def KeepsSessions {α : Type} (f : AuthCalls → AuthCore → α × AuthCore) : Prop :=
  ∀ allowed calls core, Against allowed core.sessions → Against allowed (f calls core).2.sessions

/-- A change aside from the settings, the password record and the sessions, with one
of these events at most. -/
structure Noting (events : DeviceEvent → Prop) (before after : DeviceState) : Prop where
  settings : after.settings = before.settings
  server : after.server = before.server
  passwordTransition : after.passwordTransition = before.passwordTransition
  auth : after.auth = before.auth
  generation : after.generation = before.generation
  verifying : after.verifying = before.verifying
  past : after.past = before.past
  log : after.log = before.log ∨ ∃ event, events event ∧ after.log = before.log ++ [event]

abbrev Aside : DeviceState → DeviceState → Prop := Noting fun event => ∃ response, event = .responded response

/-- The events of a task that evaluates the policy. -/
inductive OfPolicy (task : Nat) : DeviceEvent → Prop
  | evaluated (call : ApiCall) (stored : Option Bool) : OfPolicy task (.evaluated task call stored)
  | waited : OfPolicy task (.waited task)
  | confirmed : OfPolicy task (.confirmed task)
  | performed (call : ApiCall) : OfPolicy task (.performed task call)

/-- The indivisible steps of the tasks outside a login and a password change. -/
inductive DeviceAction : (α : Type) → DeviceProg α → Prop
  | read : DeviceAction _ (.atomic deviceSettingsRead)
  | replace {update : SettingsUpdateRequest} {current candidate : DeviceSettings} {flags : SettingsUpdateFlags}
    (h : prepareUpdate current update = .ok (candidate, flags)) :
    DeviceAction _ (.atomic (deviceSettingsReplace update.names current candidate))
  | update {operation : Operation} (hload : operation ≠ .load) (hreplace : ∀ settings, operation ≠ .replace settings) :
    DeviceAction _ (.atomic (deviceSettingsUpdate operation))
  | auth {α : Type} {f : AuthCalls → AuthCore → α × AuthCore} (h : KeepsSessions f) :
    DeviceAction _ (.atomic (authCall f))
  | aside {α : Type} {f : Surroundings → DeviceState → α × DeviceState} (h : ∀ calls device, Aside device (f calls device).2) :
    DeviceAction _ (.atomic f)

/-- What a password change reads of the settings. -/
inductive PasswordLoad (derive : Derivation) (newPassword : List UInt8) :
    DeviceProg (Except ChangePasswordOutcome DeviceSettings) → Prop
  | verified (currentPassword : List UInt8) :
    PasswordLoad derive newPassword (changePasswordVerifyCurrent derive currentPassword newPassword)
  | unverified : PasswordLoad derive newPassword (changePasswordLoadCurrentAndValidate newPassword)

/-- The parts of the tasks: single steps, the verified part of a login, the password
changes, the policy and the sends. -/
inductive DeviceProcedure (derive : Derivation) (task : Nat) : (α : Type) → DeviceProg α → Prop
  | action {α : Type} {p : DeviceProg α} (h : DeviceAction α p) : DeviceProcedure derive task α p
  | login (htask : task = serverTaskNumber) (sourceIpv4 : UInt32) (password : List UInt8) :
    DeviceProcedure derive task _ (loginVerified derive sourceIpv4 password)
  | changePassword {load : DeviceProg (Except ChangePasswordOutcome DeviceSettings)} {newPassword : List UInt8}
    (h : PasswordLoad derive newPassword load) :
    DeviceProcedure derive task _ (changePassword derive task load newPassword)
  | policy (call : ApiCall) : DeviceProcedure derive task _ (enforcePhysicalConfirmation task call)
  | send : DeviceProcedure derive task _ sendCreateHandler

section Aside

theorem Noting.refl {events : DeviceEvent → Prop} (device : DeviceState) : Noting events device device := ⟨rfl, rfl, rfl, rfl, rfl, rfl, rfl, Or.inl rfl⟩

theorem aside_onBlobs (device : DeviceState) (blobs : BlobStore) : Aside device { device with blobs } :=
  ⟨rfl, rfl, rfl, rfl, rfl, rfl, rfl, Or.inl rfl⟩

variable (calls : Surroundings) (device : DeviceState)

theorem aside_factoryResetStateWrite (value : Option UInt8) :
    Aside device (factoryResetStateWrite value calls device).2 := by
  unfold factoryResetStateWrite
  split
  · exact ⟨rfl, rfl, rfl, rfl, rfl, rfl, rfl, Or.inl rfl⟩
  · simp only
    split
    · exact ⟨rfl, rfl, rfl, rfl, rfl, rfl, rfl, Or.inl rfl⟩
    · exact .refl device

theorem aside_claimRestartSchedule : Aside device (claimRestartSchedule calls device).2 := by
  unfold claimRestartSchedule
  split
  · exact .refl device
  · split
    · exact .refl device
    · exact ⟨rfl, rfl, rfl, rfl, rfl, rfl, rfl, Or.inl rfl⟩

theorem aside_startRestartTimer : Aside device (startRestartTimer calls device).2 := by
  unfold startRestartTimer
  split <;> exact ⟨rfl, rfl, rfl, rfl, rfl, rfl, rfl, Or.inl rfl⟩

theorem aside_signalConfirmation : Aside device (signalConfirmation calls device).2 := by
  unfold signalConfirmation
  split
  · exact .refl device
  · split
    · exact .refl device
    · exact ⟨rfl, rfl, rfl, rfl, rfl, rfl, rfl, Or.inl rfl⟩

theorem aside_asyncQueueSend (token : List UInt8) (call : ApiCall) :
    Aside device (asyncQueueSend token call calls device).2 := by
  unfold asyncQueueSend
  split
  · exact .refl device
  · exact ⟨rfl, rfl, rfl, rfl, rfl, rfl, rfl, Or.inl rfl⟩

theorem aside_respond (response : Response) : Aside device (respond response calls device).2 :=
  ⟨rfl, rfl, rfl, rfl, rfl, rfl, rfl, Or.inr ⟨_, ⟨response, rfl⟩, rfl⟩⟩

end Aside

section Composed

variable {derive : Derivation} {task : Nat} {α : Type}

abbrev Made (derive : Derivation) (task : Nat) {α : Type} (p : DeviceProg α) : Prop :=
  Composed (DeviceProcedure derive task) α p

theorem made_action {p : DeviceProg α} (h : DeviceAction α p) : Made derive task p := .leaf (.action h)

theorem made_aside {f : Surroundings → DeviceState → α × DeviceState}
    (h : ∀ calls device, Aside device (f calls device).2) : Made derive task (.atomic f) := made_action (.aside h)

theorem made_ask (f : Surroundings → α) : Made derive task (.ask f) := made_aside fun _ device => .refl device

theorem made_look (f : DeviceState → α) : Made derive task (.read f) := made_aside fun _ device => .refl device

theorem made_onBlobs (p : BlobProg α) : Made derive task (onBlobs p) :=
  composed_zoom (fun _ _ => .action (.aside fun _ device => aside_onBlobs device _)) p

theorem made_authSessionValidate (token : List UInt8) : Made derive task (.atomic (authSessionValidate token)) :=
  made_action (.auth fun _ _ _ h => against_sessionValidate h)

theorem made_authSessionRemaining (token : List UInt8) : Made derive task (.atomic (authSessionRemaining token)) :=
  made_action (.auth fun _ _ _ h => by rwa [sessionRemaining_sessions])

theorem made_authSessionLogout (token : List UInt8) : Made derive task (.atomic (authSessionLogout token)) :=
  made_action (.auth fun _ _ _ h => against_sessionLogout h)

theorem made_authSessionLogoutAll : Made derive task (.atomic authSessionLogoutAll) :=
  made_action (.auth fun _ _ _ h => against_sessionLogoutAll h)

theorem made_authLoginAttemptAllowed (sourceIpv4 : UInt32) :
    Made derive task (.atomic (authLoginAttemptAllowed sourceIpv4)) :=
  made_action (.auth fun _ _ _ h => by rwa [loginAttemptAllowed_sessions])

theorem made_authLoginRecordFailure (sourceIpv4 : UInt32) :
    Made derive task (.atomic (authLoginRecordFailure sourceIpv4)) :=
  made_action (.auth fun _ _ _ h => by rwa [loginRecordFailure_sessions])

theorem made_loginFailure (sourceIpv4 : UInt32) : Made derive task (loginFailure sourceIpv4) :=
  .bind (made_authLoginRecordFailure _) fun _ => .ret _

theorem made_sendLoginErrorAndForgetSession (token : List UInt8) :
    Made derive task (sendLoginErrorAndForgetSession token) :=
  .bind (made_authSessionLogout _) fun _ => .ret _

theorem made_loginHandler (sourceIpv4 : UInt32) (password : List UInt8) :
    Made derive serverTaskNumber (loginHandler derive sourceIpv4 password) := by
  refine .bind (made_look _) fun loginEnabled => ?_
  split
  · exact .ret _
  refine .bind (made_authLoginAttemptAllowed _) fun allowed => ?_
  split
  split
  · exact .ret _
  refine .bind (.leaf (.login rfl _ _)) fun verified => ?_
  split
  · exact .ret _
  · exact made_loginFailure _
  · refine .bind (made_authSessionRemaining _) fun remaining => ?_
    split
    · exact made_sendLoginErrorAndForgetSession _
    · refine .bind (made_ask _) fun encoded => ?_
      split
      · exact made_sendLoginErrorAndForgetSession _
      · exact .ret _

theorem made_webSettingsPutHandle (update : SettingsUpdateRequest) :
    Made derive task (webSettingsPutHandle update) := by
  refine .bind (made_action .read) fun read => ?_
  split
  · exact .ret _
  next current =>
    split
    · exact .ret _
    next candidate flags hprepared =>
      refine .bind (made_action (.replace hprepared)) fun replaced => ?_
      split
      · exact .ret _
      · exact .bind (made_ask _) fun _ => .ret _

theorem made_webSettingsGetHandle : Made derive task webSettingsGetHandle := by
  refine .bind (made_action .read) fun read => ?_
  split <;> exact .ret _

theorem made_scheduleRestart : Made derive task scheduleRestart := by
  refine .bind (made_aside aside_claimRestartSchedule) fun claimed => ?_
  split
  · exact .ret _
  · exact made_aside aside_startRestartTimer

theorem made_webDeviceRestartHandle : Made derive task webDeviceRestartHandle :=
  .bind made_scheduleRestart fun _ => .ret _

theorem made_deviceSettingsUpdate {operation : Operation} (hload : operation ≠ .load)
    (hreplace : ∀ settings, operation ≠ .replace settings) :
    Made derive task (.atomic (deviceSettingsUpdate operation)) :=
  made_action (.update hload hreplace)

theorem made_webDeviceResetSettingsHandle : Made derive task webDeviceResetSettingsHandle := by
  have hreset : Made derive task resetSettingsNoncredential := by
    refine .bind (made_deviceSettingsUpdate (by simp) (by simp)) fun result => ?_
    split
    · exact .ret _
    · exact .bind (made_aside fun _ _ => ⟨rfl, rfl, rfl, rfl, rfl, rfl, rfl, Or.inl rfl⟩) fun _ => .ret _
  refine .bind hreset fun reset => ?_
  split
  · exact .ret _
  · exact .bind made_authSessionLogoutAll fun _ => .bind made_scheduleRestart fun _ => .ret _

theorem made_eraseSessionsAndBlobs (erased : AppError) : Made derive task (eraseSessionsAndBlobs erased) := by
  unfold eraseSessionsAndBlobs
  split
  · exact .ret _
  · exact .bind made_authSessionLogoutAll fun _ => .bind (made_onBlobs _) fun _ => .bind (made_onBlobs _) fun _ => .ret _

theorem made_deviceControlsFactoryReset : Made derive task deviceControlsFactoryReset := by
  refine .bind (made_aside fun calls device => aside_factoryResetStateWrite calls device _) fun marked => ?_
  split
  · exact .ret _
  refine .bind (made_deviceSettingsUpdate (by simp) (by simp)) fun erased => ?_
  refine .bind (made_eraseSessionsAndBlobs erased) fun firstError => .bind made_scheduleRestart fun restart => ?_
  split
  · exact .ret _
  · exact .bind (made_aside fun calls device => aside_factoryResetStateWrite calls device _) fun _ => .ret _

theorem made_webDeviceFactoryResetHandle (adminPassword : List UInt8) :
    Made derive task (webDeviceFactoryResetHandle derive adminPassword) := by
  refine .bind (made_action .read) fun read => ?_
  split
  · exact .ret _
  refine .bind (made_ask _) fun verified => ?_
  split
  · exact .ret _
  · exact .ret _
  · exact .bind made_deviceControlsFactoryReset fun _ => .ret _

theorem made_handleAdministration (token : List UInt8) (call : ApiCall) :
    Made derive task (handleAdministration derive task token call) := by
  cases call with
  | session =>
    refine .bind (made_authSessionRemaining _) fun remaining => ?_
    split <;> exact .ret _
  | settingsGet => exact made_webSettingsGetHandle
  | settingsPut update => exact made_webSettingsPutHandle update
  | changePassword currentPassword newPassword =>
    exact .bind (.leaf (.changePassword (.verified currentPassword))) fun _ => .ret _
  | deviceRestart => exact made_webDeviceRestartHandle
  | resetSettings => exact made_webDeviceResetSettingsHandle
  | factoryReset adminPassword => exact made_webDeviceFactoryResetHandle adminPassword

theorem made_webApiHandleCall (token : List UInt8) (call : ApiCall) :
    Made derive task (webApiHandleCall derive task token call) := by
  refine .bind (made_authSessionValidate _) fun validation => ?_
  split
  · exact .ret _
  refine .bind (.leaf (.policy call)) fun confirmed => ?_
  split
  · exact .ret _
  · exact made_handleAdministration token call

theorem made_releaseInFlight : Made derive task (.atomic releaseInFlight) :=
  made_aside fun _ _ => ⟨rfl, rfl, rfl, rfl, rfl, rfl, rfl, Or.inl rfl⟩

theorem made_asyncDispatch (token : List UInt8) (call : ApiCall) : Made derive task (asyncDispatch token call) := by
  refine .bind (made_aside fun _ _ => ⟨rfl, rfl, rfl, rfl, rfl, rfl, rfl, Or.inl rfl⟩) fun claimed => ?_
  split
  · exact .ret _
  refine .bind (made_ask _) fun begun => ?_
  split
  · exact .bind made_releaseInFlight fun _ => .ret _
  refine .bind (made_aside fun calls device => aside_asyncQueueSend calls device token call) fun sent => ?_
  split
  · exact .ret _
  · exact .bind made_releaseInFlight fun _ => .ret _

theorem made_authorized (token : List UInt8) {handler : DeviceProg Response} (h : Made derive task handler) :
    Made derive task (authorized token handler) := by
  refine .bind (made_authSessionValidate _) fun validation => ?_
  split
  · exact .ret _
  · exact h

theorem made_blobListHandler : Made derive task blobListHandler := by
  refine .bind (made_onBlobs _) fun listed => ?_
  split <;> exact .ret _

theorem made_blobCreateHandler (contentLength : Nat) : Made derive task (blobCreateHandler contentLength) := by
  refine .bind (made_ask _) fun received => .bind (made_onBlobs _) fun created => ?_
  split <;> exact .ret _

theorem made_routeHandler (request : Request) : Made derive serverTaskNumber (routeHandler derive request) := by
  cases request with
  | login sourceIpv4 password => exact .bind (made_loginHandler _ _) fun _ => .ret _
  | logout token =>
    exact .bind (made_authorized _ (.bind (made_authSessionLogout _) fun _ => .ret _)) fun _ => .ret _
  | blobList token => exact .bind (made_authorized _ made_blobListHandler) fun _ => .ret _
  | blobCreate token contentLength => exact .bind (made_authorized _ (made_blobCreateHandler _)) fun _ => .ret _
  | blobDelete token blobId =>
    exact .bind (made_authorized _ (.bind (made_onBlobs _) fun _ => .ret _)) fun _ => .ret _
  | sendCreate token => exact .bind (made_authorized _ (.leaf .send)) fun _ => .ret _
  | api token call =>
    refine .bind (made_look _) fun requiresWorker => ?_
    split
    · exact made_asyncDispatch token call
    · exact .bind (made_webApiHandleCall token call) fun _ => .ret _

theorem made_answer (response : Option Response) : Made derive task (answer response) := by
  cases response with
  | none => exact .ret _
  | some response => exact made_aside fun calls device => aside_respond calls device response

theorem made_serverTask : Made derive serverTaskNumber (serverTask derive) := by
  refine .loop (.bind (made_ask _) fun request => .bind ?_ fun response =>
    .bind (made_answer response) fun _ => .ret _)
  refine .bind (made_look _) fun restartRequired => ?_
  split
  · exact .ret _
  refine .bind (made_aside fun _ device => .refl device) fun state => ?_
  split
  · exact .ret _
  · exact .ret _
  · exact made_routeHandler request

theorem made_asyncWorker : Made derive asyncTaskNumber (asyncWorker derive) := by
  refine .loop (.bind (made_aside fun _ _ => ⟨rfl, rfl, rfl, rfl, rfl, rfl, rfl, Or.inl rfl⟩) fun item => ?_)
  split
  · exact .ret _
  · exact .bind (made_webApiHandleCall _ _) fun response =>
      .bind (made_answer _) fun _ => .bind made_releaseInFlight fun _ => .ret _

theorem made_runCommand (command : Command) : Made derive consoleTaskNumber (runCommand derive command) := by
  cases command with
  | wifiConnect ssid passphrase =>
    refine .bind (made_ask _) fun connected => ?_
    split
    · exact .ret _
    · exact .bind (made_deviceSettingsUpdate (by simp) (by simp)) fun _ => .ret _
  | setAdminPassword password => exact .bind (.leaf (.changePassword .unverified)) fun _ => .ret _
  | setApPassphrase passphrase => exact .bind (made_deviceSettingsUpdate (by simp) (by simp)) fun _ => .ret _
  | confirm =>
    refine .bind (.bind (made_ask _) fun sent => ?_) fun _ => .ret _
    split
    · exact .ret _
    · split
      · exact .ret _
      · exact made_aside aside_signalConfirmation

theorem made_consoleTask : Made derive consoleTaskNumber (consoleTask derive) :=
  .loop (.bind (made_ask _) fun command => .bind (made_runCommand command) fun _ => .ret _)

theorem made_deviceTask {i : Nat} {p : DeviceProg Unit} (h : DeviceTask derive i p) : Made derive i p := by
  cases h with
  | server => exact made_serverTask
  | async => exact made_asyncWorker
  | console => exact made_consoleTask

end Composed

end MacroKeyboard.Device
