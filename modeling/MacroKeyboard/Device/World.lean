import MacroKeyboard.Auth.Sessions
import MacroKeyboard.Auth.RateLimit
import MacroKeyboard.Blobs.Storage
import MacroKeyboard.Device.Startup
import MacroKeyboard.Settings.Frame

namespace MacroKeyboard.Device

open Settings Settings.Coherence Auth Blobs Threads.Program

def factoryResetStatePending : UInt8 := 1

/-- The routes that the request policy serves, in normal mode. -/
inductive ApiCall
  | session
  | settingsGet
  | settingsPut (update : SettingsUpdateRequest)
  | changePassword (currentPassword newPassword : List UInt8)
  | deviceRestart
  | resetSettings
  | factoryReset (adminPassword : List UInt8)

def physicalConfirmationRequired (call : ApiCall) (confirmationEnabled : Bool) : Bool :=
  if ¬ confirmationEnabled then false
  else
    match call with
    | .changePassword _ _ | .deviceRestart | .resetSettings | .factoryReset _ => true
    | .session | .settingsGet | .settingsPut _ => false

/-- A request with a body of the right form, with its session token. -/
inductive Request
  | login (sourceIpv4 : UInt32) (password : List UInt8)
  | logout (token : List UInt8)
  | blobList (token : List UInt8)
  | blobCreate (token : List UInt8) (contentLength : Nat)
  | blobDelete (token : List UInt8) (blobId : Nat)
  | sendCreate (token : List UInt8)
  | api (token : List UInt8) (call : ApiCall)

/-- The commands of the serial console that reach the stores or a wait. -/
inductive Command
  | wifiConnect (ssid passphrase : List UInt8)
  | setAdminPassword (password : List UInt8)
  | setApPassphrase (passphrase : List UInt8)
  | confirm

inductive Response
  | error (code : AppError)
  | noContent
  | accepted
  | sessionCreated (token : List UInt8)
  | sessionRemaining (idleSeconds absoluteSeconds : Nat)
  | settings (current : DeviceSettings)
  | settingsUpdated (settings : DeviceSettings) (flags : SettingsUpdateFlags)
  | blobs (entries : List BlobEntry)
  | blobCreated (blobId : Nat)
  | sendAccepted

inductive ChangePasswordResult
  | ok | invalidNewPassword | incorrectCurrentPassword | committedSessionInvalidationIncomplete
  | backendUnavailable | internal
deriving DecidableEq, Repr

structure ChangePasswordOutcome where
  result : ChangePasswordResult
  detail : AppError
deriving DecidableEq, Repr

/-- One write to the settings store: the fields that its request names, the
settings that the writer had read in a step of its own, what it asks to store,
what is stored before and after it, and what it returns. -/
structure SettingsWrite where
  names : SettingsField → Bool
  read : Option DeviceSettings
  target : Option DeviceSettings
  before : Option DeviceSettings
  after : Option DeviceSettings
  error : AppError

/-- The answer of a password change: the password stored when it began, the one
it made, the one stored now, and the generation of the one that logins use. -/
structure PasswordAnswer where
  outcome : ChangePasswordOutcome
  old : Option AuthPasswordRecord
  new : Option AuthPasswordRecord
  stored : Option AuthPasswordRecord
  generation : Nat

inductive DeviceEvent
  | wrote (write : SettingsWrite)
  /-- a password change has logged out all sessions, while the login in progress
  had verified its password against a record of this generation -/
  | purged (generation : Nat) (verifying : Option Nat)
  | answered (answer : PasswordAnswer)
  | responded (response : Response)
  /-- a task asks whether the call that it serves has to be confirmed, while this
  requirement is stored -/
  | evaluated (task : Nat) (call : ApiCall) (stored : Option Bool)
  | waited (task : Nat)
  | confirmed (task : Nat)
  /-- the policy lets a call pass -/
  | performed (task : Nat) (call : ApiCall)
  /-- a send goes to the executor, while this requirement is stored -/
  | submitted (requireConfirmation : Bool) (stored : Option Bool)

/-- Whether the event is neither of the settings nor of a password. -/
def DeviceEvent.quiet : DeviceEvent → Bool
  | .wrote _ | .purged _ _ | .answered _ => false
  | .responded _ | .evaluated _ _ _ | .waited _ | .confirmed _ | .performed _ _ | .submitted _ _ => true

/-- The thread that a credential transition belongs to, of which the code keeps
only that there is one, and the password stored when it began. -/
structure Transition where
  task : Nat
  old : Option AuthPasswordRecord

/-- The state that the tasks of the device share in normal mode. The last three
fields record what happened and nothing reads them: how often the password record
of the server was replaced, the generation of the record that the login in
progress has matched, and what happened since the start and before it. -/
structure DeviceState where
  settings : Store
  server : WebServerConfig
  passwordTransition : Option Transition
  auth : AuthCore
  resetSettingsRestartRequired : Bool
  restartScheduled : Bool
  restartScheduleInProgress : Bool
  factoryResetMarker : Option UInt8
  blobs : BlobStore
  confirmationSignal : Bool
  asyncInFlight : Bool
  asyncItem : Option (List UInt8 × ApiCall)
  generation : Nat
  verifying : Option Nat
  log : List DeviceEvent
  past : List DeviceEvent

/-- What the operations below one step report, and what arrives from outside. -/
structure Surroundings where
  store : StoreCalls
  auth : AuthCalls
  files : FileCalls
  markerFault : Option NvsFault
  markerPersisted : Bool
  salt : Option (Buffer passwordSaltBytes)
  derives : Bool
  controlsRunning : Bool
  timedOut : Bool
  result : AppError
  request : Request
  command : Command
  received : List Received

abbrev DeviceProg (α : Type) : Type 1 := Prog DeviceState Surroundings α

namespace DeviceState

def stored (device : DeviceState) : Option DeviceSettings := storedSettings device.settings.nvs.record

def storedRequirement (device : DeviceState) : Option Bool := device.stored.map (·.requireSerialConfirmation)

def storedPassword (device : DeviceState) : Option AuthPasswordRecord := device.stored.map passwordOf

def note (event : DeviceEvent) (device : DeviceState) : DeviceState := { device with log := device.log ++ [event] }

end DeviceState

end MacroKeyboard.Device
