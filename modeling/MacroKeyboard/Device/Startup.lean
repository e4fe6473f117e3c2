import MacroKeyboard.Device.WifiAp
import MacroKeyboard.Auth.Core

namespace MacroKeyboard.Device

open Settings Auth

inductive WebServerMode
  | normal | setup
deriving DecidableEq, Repr

structure WebServerConfig where
  mode : WebServerMode
  loginEnabled : Bool
  passwordRecord : AuthPasswordRecord
  requirePhysicalConfirmation : Bool
  setupDeviceName : List UInt8
  setupCode : List UInt8
deriving DecidableEq, Repr

structure WifiConfiguration where
  apSsid : List UInt8
  apPassphrase : List UInt8
  stationConfigured : Bool
  stationSsid : List UInt8
  stationPassphrase : List UInt8
deriving DecidableEq, Repr

structure ProvisioningBootstrap where
  deviceId : List UInt8
  apSsid : List UInt8
  apPassphrase : List UInt8
deriving DecidableEq, Repr

inductive NvsResult
  | ok | noFreePages | newVersionFound | otherFailure
deriving DecidableEq, Repr

def mapNvsResult : NvsResult → AppError
  | .ok => .none
  | .noFreePages | .newVersionFound => .storageCorrupt
  | .otherFailure => .storageUnavailable

/-- What the operations of the startup return; Wi-Fi and the web server are
started with a configuration. -/
structure AppCoreOps where
  setIndicatorBooting : AppError
  nvsInit : NvsResult
  settingsInit : AppError
  settingsRead : Except AppError DeviceSettings
  storageMount : AppError
  authInit : AppError
  usbInit : AppError
  executorInit : AppError
  controlsInit : AppError
  bootstrapDerive : Except AppError ProvisioningBootstrap
  setupCodeGenerate : Except AppError (List UInt8)
  setupCodePublish : AppError
  wifiStart : WifiConfiguration → AppError
  httpStart : WebServerConfig → AppError
  setIndicatorReady : AppError

def stage (result : AppError) : Except AppError Unit := if result = .none then .ok () else .error result

def configureNormalServer (settings : DeviceSettings) : WebServerConfig where
  mode := .normal
  loginEnabled := true
  passwordRecord := ⟨settings.passwordIterations, settings.passwordSalt, settings.passwordVerifier⟩
  requirePhysicalConfirmation := settings.requireSerialConfirmation
  setupDeviceName := []
  setupCode := []

def configureSetupServer (settings : DeviceSettings) (setupCode : List UInt8) : WebServerConfig where
  mode := .setup
  loginEnabled := false
  passwordRecord := ⟨0, .zero _, .zero _⟩
  requirePhysicalConfirmation := false
  setupDeviceName := settings.deviceName.bytes
  setupCode := setupCode

def startNetwork (operations : AppCoreOps) (wifi : WifiConfiguration) (web : WebServerConfig) :
    Except AppError Unit := do
  stage (operations.wifiStart wifi)
  stage (operations.httpStart web)

/-- The network that the settings describe. -/
def normalNetwork (settings : DeviceSettings) : WifiConfiguration where
  apSsid := settings.apSsid.bytes
  apPassphrase := settings.apPassphrase.bytes
  stationConfigured := settings.stationConfigured
  stationSsid := settings.stationSsid.bytes
  stationPassphrase := settings.stationPassphrase.bytes

def startNormalMode (operations : AppCoreOps) (settings : DeviceSettings) : Except AppError Unit := do
  stage operations.authInit
  stage operations.usbInit
  stage operations.executorInit
  stage operations.controlsInit
  startNetwork operations (normalNetwork settings) (configureNormalServer settings)

def startSetupMode (operations : AppCoreOps) (settings : DeviceSettings) : Except AppError Unit := do
  stage operations.authInit
  let bootstrap ← operations.bootstrapDerive
  let setupCode ← operations.setupCodeGenerate
  stage operations.setupCodePublish
  startNetwork operations
    { normalNetwork settings with apSsid := bootstrap.apSsid, apPassphrase := bootstrap.apPassphrase }
    (configureSetupServer settings setupCode)

def sequenceStart (operations : AppCoreOps) : Except AppError Unit := do
  stage operations.setIndicatorBooting
  stage (mapNvsResult operations.nvsInit)
  stage operations.settingsInit
  let settings ← operations.settingsRead
  stage operations.storageMount
  if settings.provisioned then startNormalMode operations settings
  else startSetupMode operations settings
  stage operations.setIndicatorReady

/-- `adapter_wifi_start`: what it returns and, when a station is configured, how
joining it went, which is only logged. -/
def adapterWifiStart (driver : WifiDriver) (configuration : WifiConfiguration) : AppError × Option AppError :=
  let started := (WifiApEngine.stopped.start driver configuration.apSsid configuration.apPassphrase).1
  if started ≠ .none then (started, none)
  else if ¬ configuration.stationConfigured then (.none, none)
  else (.none, some (wifiApConnectStation driver configuration.stationSsid configuration.stationPassphrase))

end MacroKeyboard.Device
