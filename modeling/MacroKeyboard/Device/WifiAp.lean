import MacroKeyboard.Settings.DeviceSettings
import MacroKeyboard.Records.PaddedText

namespace MacroKeyboard.Device

open Settings Records.PaddedText

def wifiApSsidMaxBytes : Nat := 32
def wifiApPassphraseMinBytes : Nat := 12
def wifiApPassphraseMaxBytes : Nat := 63
def wifiApMaxClients : UInt8 := 4
def wifiApDefaultChannel : UInt8 := 1
def wifiStationMaxAttempts : Nat := 3

inductive WifiApState
  | stopped | starting | ready | error
deriving DecidableEq, Repr

structure WifiApRuntimeConfig where
  ssid : List UInt8
  ssidLength : Nat
  passphrase : List UInt8
  channel : UInt8
  maximumClients : UInt8
  wpa2Wpa3Psk : Bool
  pmfRequired : Bool
deriving DecidableEq, Repr

inductive WifiApEventLoopResult
  | created | alreadyExists | failed
deriving DecidableEq, Repr

/-- The Wi-Fi driver: the lengths of the arrays of its station configuration and
what its calls return. -/
structure WifiDriver where
  stationSsidBytes : Nat
  stationPasswordBytes : Nat
  netifInit : AppError
  eventLoopCreate : WifiApEventLoopResult
  netifCreate : AppError
  wifiInit : AppError
  handlerRegister : AppError
  setModeAp : AppError
  setConfig : WifiApRuntimeConfig → AppError
  wifiStart : AppError
  wifiStop : AppError
  handlerUnregister : AppError
  wifiDeinit : AppError
  netifDestroy : AppError
  stationNetif : AppError
  stationSemaphore : Bool
  connectAttempt : Nat → AppError

structure WifiApEngine where
  state : WifiApState
  lastError : AppError
  cleanupError : AppError
  netifCreated : Bool
  wifiInitialized : Bool
  handlerRegistered : Bool
  wifiStarted : Bool
deriving DecidableEq, Repr

/-- The engine after `wifi_ap_engine_init`. -/
def WifiApEngine.stopped : WifiApEngine := ⟨.stopped, .none, .none, false, false, false, false⟩

/-- `make_configuration`; a length is looked for up to the maximum and one byte
further. -/
def makeConfiguration (ssid passphrase : List UInt8) : Except AppError WifiApRuntimeConfig :=
  match boundedLength ssid (wifiApSsidMaxBytes + 1), boundedLength passphrase (wifiApPassphraseMaxBytes + 1) with
  | some ssidLength, some passphraseLength =>
    if ssidLength = 0 ∨ passphraseLength < wifiApPassphraseMinBytes then .error .invalidArgument
    else
      .ok
        { ssid := ssid.take ssidLength
          ssidLength
          passphrase := passphrase.take passphraseLength
          channel := wifiApDefaultChannel
          maximumClients := wifiApMaxClients
          wpa2Wpa3Psk := true
          pmfRequired := true }
  | _, _ => .error .invalidArgument

/-- One step of `cleanup_resources`: the first error so far and whether the
resource is still held. -/
def releaseResource (firstError : AppError) (owned : Bool) (result : AppError) : AppError × Bool :=
  if owned then (if firstError = .none then result else firstError, result ≠ .none) else (firstError, false)

namespace WifiApEngine

def cleanupResources (driver : WifiDriver) (engine : WifiApEngine) : AppError × WifiApEngine :=
  let (firstError, wifiStarted) := releaseResource .none engine.wifiStarted driver.wifiStop
  let (firstError, handlerRegistered) := releaseResource firstError engine.handlerRegistered driver.handlerUnregister
  let (firstError, wifiInitialized) := releaseResource firstError engine.wifiInitialized driver.wifiDeinit
  let (firstError, netifCreated) := releaseResource firstError engine.netifCreated driver.netifDestroy
  (firstError, { engine with wifiStarted, handlerRegistered, wifiInitialized, netifCreated })

def failStart (driver : WifiDriver) (original : AppError) (engine : WifiApEngine) : AppError × WifiApEngine :=
  let (cleanupError, engine) := engine.cleanupResources driver
  (original, { engine with state := .error, lastError := original, cleanupError })

/-- One call of `wifi_ap_engine_start`, which goes on with the rest or fails. -/
def call (driver : WifiDriver) (result : AppError) (engine : WifiApEngine)
    (rest : WifiApEngine → AppError × WifiApEngine) : AppError × WifiApEngine :=
  if result ≠ .none then engine.failStart driver result else rest engine

def start (driver : WifiDriver) (ssid passphrase : List UInt8) (engine : WifiApEngine) :
    AppError × WifiApEngine :=
  if engine.state ≠ .stopped ∨ engine.netifCreated ∨ engine.wifiInitialized ∨ engine.handlerRegistered ∨
      engine.wifiStarted then (.conflict, engine)
  else
    match makeConfiguration ssid passphrase with
    | .error result => (result, engine)
    | .ok configuration =>
      call driver driver.netifInit { engine with state := .starting, lastError := .none, cleanupError := .none }
        fun engine =>
      call driver (if driver.eventLoopCreate = .failed then .internal else .none) engine fun engine =>
      call driver driver.netifCreate engine fun engine =>
      call driver driver.wifiInit { engine with netifCreated := true } fun engine =>
      call driver driver.handlerRegister { engine with wifiInitialized := true } fun engine =>
      call driver driver.setModeAp { engine with handlerRegistered := true } fun engine =>
      call driver (driver.setConfig configuration) engine fun engine =>
      call driver driver.wifiStart { engine with wifiStarted := true } fun engine => (.none, engine)

end WifiApEngine

/-- The attempts of `wifi_ap_station_connect` from one on. -/
def stationAttempts (driver : WifiDriver) : Nat → Nat → AppError → AppError
  | _, 0, lastError => lastError
  | attempt, remaining + 1, _ =>
    if driver.connectAttempt attempt = .none then .none
    else stationAttempts driver (attempt + 1) remaining (driver.connectAttempt attempt)

/-- The argument check of `wifi_ap_connect_station`. -/
def stationArgumentsValid (driver : WifiDriver) (ssid password : List UInt8) : Bool :=
  (textOf ssid).length ≠ 0 && (textOf ssid).length < driver.stationSsidBytes &&
    (textOf password).length < driver.stationPasswordBytes

def wifiApConnectStation (driver : WifiDriver) (ssid password : List UInt8) : AppError :=
  if ¬ stationArgumentsValid driver ssid password then .invalidArgument
  else if driver.stationNetif ≠ .none then driver.stationNetif
  else if ¬ driver.stationSemaphore then .internal
  else stationAttempts driver 1 wifiStationMaxAttempts .none

end MacroKeyboard.Device
