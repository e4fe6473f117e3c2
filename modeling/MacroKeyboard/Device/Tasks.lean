import MacroKeyboard.Device.Operations
import MacroKeyboard.Threads.Restarts

namespace MacroKeyboard.Device

open Settings Settings.Coherence Auth Blobs Threads.Program Threads.Restarts

def serverTaskNumber : Nat := 0
def asyncTaskNumber : Nat := 1
def consoleTaskNumber : Nat := 2

def onBlobs {α : Type} (p : BlobProg α) : DeviceProg α :=
  p.zoom (fun calls => calls.files) (fun device => device.blobs) (fun blobs device => { device with blobs })

variable (derive : Derivation)

section Login

def loginFailure (sourceIpv4 : UInt32) : DeviceProg Response := do
  let recorded ← .atomic (authLoginRecordFailure sourceIpv4)
  pure (.error (if recorded = .none then .authFailed else recorded))

def sendLoginErrorAndForgetSession (token : List UInt8) : DeviceProg Response := do
  let logout ← .atomic (authSessionLogout token)
  pure (.error (if logout = .none then .internal else logout))

/-- `login_handler` from the snapshot of the password record to the session. -/
def loginVerified (sourceIpv4 : UInt32) (password : List UInt8) :
    DeviceProg (Except AppError (Option AuthSessionEntry)) := do
  match ← .atomic (passwordRecordSnapshotForLogin derive password) with
  | .error error => pure (.error error)
  | .ok (record, generation) =>
    match ← .atomic (authPasswordVerify derive password record) with
    | .error error => pure (.error error)
    | .ok false => pure (.ok none)
    | .ok true =>
      let recorded ← .atomic (authLoginRecordSuccess sourceIpv4)
      if recorded ≠ .none then pure (.error recorded)
      else
        match ← .atomic (authSessionCreate generation) with
        | .error error => pure (.error error)
        | .ok session => pure (.ok (some session))

def loginHandler (sourceIpv4 : UInt32) (password : List UInt8) : DeviceProg Response := do
  let loginEnabled ← .read (fun device => device.server.loginEnabled)
  if ¬ loginEnabled then pure (.error .authRequired)
  else
    let (allowed, _) ← .atomic (authLoginAttemptAllowed sourceIpv4)
    if allowed ≠ .none then pure (.error allowed)
    else
      match ← loginVerified derive sourceIpv4 password with
      | .error error => pure (.error error)
      | .ok none => loginFailure sourceIpv4
      | .ok (some session) =>
        match ← .atomic (authSessionRemaining session.sessionToken) with
        | .error _ => sendLoginErrorAndForgetSession session.sessionToken
        | .ok _ =>
          let encoded ← .ask (fun calls => calls.result)
          if encoded ≠ .none then sendLoginErrorAndForgetSession session.sessionToken
          else pure (.sessionCreated session.sessionToken)

end Login

section Settings

/-- The error that answers an update that is refused. -/
def settingsPutError : SettingsUpdateResult → AppError
  | .invalidCurrentSettings => .internal
  | .empty | .invalidDeviceName | .invalidSnapshotRetentionTarget | .invalidLastSelectedPackageId
  | .invalidAccessPointSsid | .invalidAccessPointPassphrase | .invalidStationSsid | .invalidStationPassphrase =>
    .invalidArgument

def webSettingsPutHandle (update : SettingsUpdateRequest) : DeviceProg Response := do
  match ← .atomic deviceSettingsRead with
  | .error error => pure (.error error)
  | .ok current =>
    match prepareUpdate current update with
    | .error result => pure (.error (settingsPutError result))
    | .ok (candidate, flags) =>
      let replaced ← .atomic (deviceSettingsReplace update.names current candidate)
      if replaced ≠ .none then pure (.error replaced)
      else
        let encoded ← .ask (fun calls => calls.result)
        pure (if encoded = .none then .settingsUpdated candidate flags else .error .internal)

def webSettingsGetHandle : DeviceProg Response := do
  match ← .atomic deviceSettingsRead with
  | .error error => pure (.error error)
  | .ok current => pure (.settings current)

end Settings

section Password

def changePasswordLoadCurrentAndValidate (newPassword : List UInt8) :
    DeviceProg (Except ChangePasswordOutcome DeviceSettings) := do
  match ← .atomic deviceSettingsRead with
  | .error error => pure (.error ⟨.backendUnavailable, error⟩)
  | .ok current =>
    if passwordChangeValidate current newPassword ≠ .ok then pure (.error ⟨.invalidNewPassword, .none⟩)
    else pure (.ok current)

def changePasswordVerifyCurrent (currentPassword newPassword : List UInt8) :
    DeviceProg (Except ChangePasswordOutcome DeviceSettings) := do
  match ← changePasswordLoadCurrentAndValidate newPassword with
  | .error outcome => pure (.error outcome)
  | .ok current =>
    match ← .ask (fun calls => passwordVerify derive calls.derives currentPassword (passwordOf current)) with
    | .error error => pure (.error ⟨.backendUnavailable, error⟩)
    | .ok false => pure (.error ⟨.incorrectCurrentPassword, .none⟩)
    | .ok true => pure (.ok current)

def productionPasswordCreate (newPassword : List UInt8) : DeviceProg (Except AppError AuthPasswordRecord) :=
  .ask (fun calls => passwordCreate derive calls.salt calls.derives newPassword)

def changePasswordCommitCandidate (current candidate : DeviceSettings) : DeviceProg ChangePasswordOutcome := do
  let replaced ← .atomic (deviceSettingsReplace (fun field => field = .credential) current candidate)
  if replaced ≠ .none then pure ⟨.backendUnavailable, replaced⟩
  else
    .atomic (passwordActivate candidate)
    let invalidated ← .atomic invalidateAllSessions
    if invalidated ≠ .none then pure ⟨.committedSessionInvalidationIncomplete, invalidated⟩
    else pure ⟨.ok, .none⟩

/-- A password change between the ends of its transition, from the settings that
it loads to the outcome and the password that it made. -/
def changePasswordLoaded (load : DeviceProg (Except ChangePasswordOutcome DeviceSettings))
    (newPassword : List UInt8) : DeviceProg (ChangePasswordOutcome × Option AuthPasswordRecord) := do
  match ← load with
  | .error outcome => pure (outcome, none)
  | .ok current =>
    match ← productionPasswordCreate derive newPassword with
    | .error error => pure (⟨.backendUnavailable, error⟩, none)
    | .ok material =>
      match prepareCandidate current material with
      | none => pure (⟨.internal, .none⟩, some material)
      | some candidate =>
        let outcome ← changePasswordCommitCandidate current candidate
        pure (outcome, some material)

def changePassword (task : Nat) (load : DeviceProg (Except ChangePasswordOutcome DeviceSettings))
    (newPassword : List UInt8) : DeviceProg ChangePasswordOutcome := do
  let begun ← .atomic (passwordTransitionBegin task)
  if begun ≠ .none then pure ⟨.backendUnavailable, begun⟩
  else
    let (outcome, material) ← changePasswordLoaded derive load newPassword
    .atomic (passwordTransitionEnd outcome material)
    pure outcome

def webChangePasswordHandle (task : Nat) (currentPassword newPassword : List UInt8) :
    DeviceProg ChangePasswordOutcome :=
  changePassword derive task (changePasswordVerifyCurrent derive currentPassword newPassword) newPassword

def webChangePasswordApplyWithoutVerification (task : Nat) (newPassword : List UInt8) :
    DeviceProg ChangePasswordOutcome :=
  changePassword derive task (changePasswordLoadCurrentAndValidate newPassword) newPassword

/-- `handle_change_password` after the body. -/
def changePasswordResponse (outcome : ChangePasswordOutcome) : Response :=
  match outcome.result with
  | .ok => .noContent
  | .invalidNewPassword => .error .invalidArgument
  | .incorrectCurrentPassword => .error .authFailed
  | .committedSessionInvalidationIncomplete => .error .authStateIncomplete
  | .backendUnavailable => .error outcome.detail
  | .internal => .error .internal

end Password

section DeviceActions

def scheduleRestart : DeviceProg AppError := do
  match ← .atomic claimRestartSchedule with
  | some result => pure result
  | none => .atomic startRestartTimer

def webDeviceRestartHandle : DeviceProg Response := do
  let scheduled ← scheduleRestart
  pure (if scheduled = .none then .accepted else .error scheduled)

def resetSettingsNoncredential : DeviceProg AppError := do
  let result ← .atomic (deviceSettingsUpdate .resetNoncredential)
  if result ≠ .none then pure result
  else
    .atomic markResetSettingsRestartRequired
    pure result

/-- `device_controls_reset_engine_reset_settings` and the response to it. -/
def webDeviceResetSettingsHandle : DeviceProg Response := do
  let reset ← resetSettingsNoncredential
  if reset ≠ .none then pure (.error reset)
  else
    let _ ← .atomic authSessionLogoutAll
    let restart ← scheduleRestart
    pure (if restart = .none then .accepted else .error .resetSettingsIncomplete)

structure FactoryResetOutcome where
  durablyAccepted : Bool
  primaryError : AppError
deriving DecidableEq, Repr

def recordFirstError (candidate firstError : AppError) : AppError :=
  if firstError = .none then candidate else firstError

/-- What follows a successful erasure of the settings, with the first error. -/
def eraseSessionsAndBlobs (erased : AppError) : DeviceProg AppError := do
  if erased ≠ .none then pure erased
  else
    let sessions ← .atomic authSessionLogoutAll
    let blobs ← onBlobs blobDeleteAll
    let temporary ← onBlobs recoverStartup
    pure (recordFirstError temporary (recordFirstError blobs sessions))

/-- `device_controls_reset_engine_factory_reset`. -/
def deviceControlsFactoryReset : DeviceProg FactoryResetOutcome := do
  let marked ← .atomic factoryResetStateMarkPending
  if marked ≠ .none then pure ⟨false, marked⟩
  else
    let erased ← .atomic (deviceSettingsUpdate .factoryReset)
    let firstError ← eraseSessionsAndBlobs erased
    let restart ← scheduleRestart
    if recordFirstError restart firstError ≠ .none then pure ⟨true, recordFirstError restart firstError⟩
    else
      let cleared ← .atomic factoryResetStateClear
      pure ⟨true, cleared⟩

def webDeviceFactoryResetHandle (adminPassword : List UInt8) : DeviceProg Response := do
  match ← .atomic deviceSettingsRead with
  | .error error => pure (.error error)
  | .ok current =>
    match ← .ask (fun calls => passwordVerify derive calls.derives adminPassword (passwordOf current)) with
    | .error error => pure (.error error)
    | .ok false => pure (.error .authFailed)
    | .ok true =>
      let outcome ← deviceControlsFactoryReset
      pure (if outcome.durablyAccepted then .accepted else .error outcome.primaryError)

end DeviceActions

section Policy

def waitForConfirmation (task : Nat) : DeviceProg AppError := do
  let running ← .atomic (beginWait task)
  if ¬ running then pure .conflict
  else .repeatUntil (.atomic (takeConfirmation task))

def policyConfirm (task : Nat) (call : ApiCall) : DeviceProg AppError := do
  let required ← .atomic (confirmationRequired task call)
  if ¬ required then pure .none
  else waitForConfirmation task

def enforcePhysicalConfirmation (task : Nat) (call : ApiCall) : DeviceProg AppError := do
  let confirmed ← policyConfirm task call
  if confirmed ≠ .none then pure confirmed
  else
    .atomic (performCall task call)
    pure .none

def handleAdministration (task : Nat) (token : List UInt8) : ApiCall → DeviceProg Response
  | .session => do
    match ← .atomic (authSessionRemaining token) with
    | .error error => pure (.error error)
    | .ok (idle, absolute) => pure (.sessionRemaining idle absolute)
  | .settingsGet => webSettingsGetHandle
  | .settingsPut update => webSettingsPutHandle update
  | .changePassword currentPassword newPassword => do
    let outcome ← webChangePasswordHandle derive task currentPassword newPassword
    pure (changePasswordResponse outcome)
  | .deviceRestart => webDeviceRestartHandle
  | .resetSettings => webDeviceResetSettingsHandle
  | .factoryReset adminPassword => webDeviceFactoryResetHandle derive adminPassword

/-- `web_api_handle_call_with_body`, with the request policy. -/
def webApiHandleCall (task : Nat) (token : List UInt8) (call : ApiCall) : DeviceProg Response := do
  let validation ← .atomic (authSessionValidate token)
  if validation ≠ .none then pure (.error validation)
  else
    let confirmed ← enforcePhysicalConfirmation task call
    if confirmed ≠ .none then pure (.error confirmed)
    else handleAdministration derive task token call

def asyncDispatch (token : List UInt8) (call : ApiCall) : DeviceProg (Option Response) := do
  let claimed ← .atomic claimInFlight
  if ¬ claimed then pure (some (.error .conflict))
  else
    let begun ← .ask (fun calls => calls.result)
    if begun ≠ .none then
      .atomic releaseInFlight
      pure (some (.error begun))
    else
      let sent ← .atomic (asyncQueueSend token call)
      if sent then pure none
      else
        .atomic releaseInFlight
        pure (some (.error .internal))

def apiHandler (token : List UInt8) (call : ApiCall) : DeviceProg (Option Response) := do
  let requiresWorker ← .read (fun device =>
    physicalConfirmationRequired call device.server.requirePhysicalConfirmation)
  if requiresWorker then asyncDispatch token call
  else
    let response ← webApiHandleCall derive serverTaskNumber token call
    pure (some response)

end Policy

section Server

/-- A handler that answers only a valid session. -/
def authorized (token : List UInt8) (handler : DeviceProg Response) : DeviceProg Response := do
  let validation ← .atomic (authSessionValidate token)
  if validation ≠ .none then pure (.error validation) else handler

def logoutHandler (token : List UInt8) : DeviceProg Response := do
  let logout ← .atomic (authSessionLogout token)
  pure (if logout = .none then .noContent else .error logout)

def blobListHandler : DeviceProg Response := do
  match ← onBlobs blobList with
  | .error error => pure (.error error)
  | .ok entries => pure (.blobs entries)

def blobCreateHandler (contentLength : Nat) : DeviceProg Response := do
  let received ← .ask (fun calls => calls.received)
  match ← onBlobs (blobCreate contentLength received) with
  | .error error => pure (.error error)
  | .ok blobId => pure (.blobCreated blobId)

def blobDeleteHandler (blobId : Nat) : DeviceProg Response := do
  let result ← onBlobs (blobDelete blobId)
  pure (if result = .none then .noContent else .error result)

def sendCreateHandler : DeviceProg Response := do
  match ← .atomic deviceSettingsRead with
  | .error error => pure (.error error)
  | .ok current =>
    let submitted ← .atomic (executorSubmit current.requireSerialConfirmation)
    pure (if submitted = .none then .sendAccepted else .error submitted)

def routeHandler : Request → DeviceProg (Option Response)
  | .login sourceIpv4 password => do
    let response ← loginHandler derive sourceIpv4 password
    pure (some response)
  | .logout token => do
    let response ← authorized token (logoutHandler token)
    pure (some response)
  | .blobList token => do
    let response ← authorized token blobListHandler
    pure (some response)
  | .blobCreate token contentLength => do
    let response ← authorized token (blobCreateHandler contentLength)
    pure (some response)
  | .blobDelete token blobId => do
    let response ← authorized token (blobDeleteHandler blobId)
    pure (some response)
  | .sendCreate token => do
    let response ← authorized token sendCreateHandler
    pure (some response)
  | .api token call => apiHandler derive token call

def resetGuardedRequest (handler : DeviceProg (Option Response)) : DeviceProg (Option Response) := do
  let restartRequired ← .read (fun device => device.resetSettingsRestartRequired)
  if restartRequired then pure (some (.error .resetSettingsIncomplete))
  else
    match ← .atomic factoryResetStateRead with
    | .error error => pure (some (.error error))
    | .ok true => pure (some (.error .resetRecoveryRequired))
    | .ok false => handler

def answer : Option Response → DeviceProg Unit
  | none => pure ()
  | some response => .atomic (respond response)

def serverTask : DeviceProg Unit :=
  .repeatUntil do
    let request ← .ask (fun calls => calls.request)
    let response ← resetGuardedRequest (routeHandler derive request)
    answer response
    pure none

def asyncWorker : DeviceProg Unit :=
  .repeatUntil do
    match ← .atomic asyncQueueReceive with
    | none => pure none
    | some (token, call) =>
      let response ← webApiHandleCall derive asyncTaskNumber token call
      answer (some response)
      .atomic releaseInFlight
      pure none

end Server

section Console

def commandWifiConnect (ssid passphrase : List UInt8) : DeviceProg Unit := do
  let connected ← .ask (fun calls => calls.result)
  if connected ≠ .none then pure ()
  else
    let _ ← .atomic (deviceSettingsUpdate (.setStation ssid passphrase))
    pure ()

def routeConfirmation : DeviceProg AppError := do
  let sent ← .ask (fun calls => calls.result)
  if sent = .none ∨ sent = .conflict then pure .none
  else if sent ≠ .notFound then pure sent
  else .atomic signalConfirmation

def runCommand : Command → DeviceProg Unit
  | .wifiConnect ssid passphrase => commandWifiConnect ssid passphrase
  | .setAdminPassword password => do
    let _ ← webChangePasswordApplyWithoutVerification derive consoleTaskNumber password
    pure ()
  | .setApPassphrase passphrase => do
    let _ ← .atomic (deviceSettingsUpdate (.setAccessPointPassphrase passphrase))
    pure ()
  | .confirm => do
    let _ ← routeConfirmation
    pure ()

def consoleTask : DeviceProg Unit :=
  .repeatUntil do
    let command ← .ask (fun calls => calls.command)
    runCommand derive command
    pure none

end Console

/-- The tasks of a device in normal mode, which start in this order. -/
inductive DeviceTask : Nat → DeviceProg Unit → Prop
  | server : DeviceTask serverTaskNumber (serverTask derive)
  | async : DeviceTask asyncTaskNumber (asyncWorker derive)
  | console : DeviceTask consoleTaskNumber (consoleTask derive)

def deviceSystem : System DeviceState Surroundings where
  mayStart := DeviceTask derive
  stopped := fun _ => false

/-- A device that starts in normal mode, with what it has read of the settings. -/
structure Boots (record : Option (List UInt8)) (device : DeviceState) : Prop where
  loads : ∃ calls, (Store.load calls (Store.start record)).error = .none ∧
    device.settings = (Store.load calls (Store.start record)).store
  provisioned : device.settings.core.current.provisioned = true
  server : device.server = configureNormalServer device.settings.core.current
  passwordTransition : device.passwordTransition = none
  auth : device.auth = .init
  resetSettingsRestartRequired : device.resetSettingsRestartRequired = false
  restartScheduled : device.restartScheduled = false
  restartScheduleInProgress : device.restartScheduleInProgress = false
  factoryResetMarker : device.factoryResetMarker = none
  confirmationSignal : device.confirmationSignal = false
  asyncInFlight : device.asyncInFlight = false
  asyncItem : device.asyncItem = none
  verifying : device.verifying = none
  log : device.log = []

/-- A device that starts for the first time in the run. -/
structure Started (device : DeviceState) : Prop where
  boots : ∃ record, Boots record device
  past : device.past = []

/-- A device that restarts from what its stores hold, with no factory reset
pending. The storage is free to remove temporary files. -/
structure Restarted (before after : DeviceState) : Prop where
  pending : before.factoryResetMarker = none
  boots : Boots before.settings.nvs.record after
  blobs : ∀ name, parseTemporaryFilename name = none →
    after.blobs.directory.lookup name = before.blobs.directory.lookup name
  persistedNextId : after.blobs.persistedNextId = before.blobs.persistedNextId
  past : after.past = before.past ++ before.log

abbrev DeviceRun : Config DeviceState Surroundings → Prop := Lifetime (deviceSystem derive) Started Restarted

end MacroKeyboard.Device
