import MacroKeyboard.Device.Startup
import MacroKeyboard.Settings.RecordText

namespace MacroKeyboard.Device.Credentials

open Settings Records.PaddedText

/-- The lengths of the arrays in the station configuration of the driver. -/
structure Documented (driver : WifiDriver) : Prop where
  ssid : driver.stationSsidBytes = 32
  password : driver.stationPasswordBytes = 64

structure HealthyDriver (driver : WifiDriver) : Prop where
  netifInit : driver.netifInit = .none
  eventLoopCreate : driver.eventLoopCreate ≠ .failed
  netifCreate : driver.netifCreate = .none
  wifiInit : driver.wifiInit = .none
  handlerRegister : driver.handlerRegister = .none
  setModeAp : driver.setModeAp = .none
  setConfig : ∀ configuration, driver.setConfig configuration = .none
  wifiStart : driver.wifiStart = .none

/-- A startup from the settings whose operations all succeed, with Wi-Fi as it is
started over the driver. -/
structure HealthyStartup (driver : WifiDriver) (settings : DeviceSettings) (operations : AppCoreOps) : Prop where
  healthyDriver : HealthyDriver driver
  setIndicatorBooting : operations.setIndicatorBooting = .none
  nvsInit : operations.nvsInit = .ok
  settingsInit : operations.settingsInit = .none
  settingsRead : operations.settingsRead = .ok settings
  storageMount : operations.storageMount = .none
  authInit : operations.authInit = .none
  usbInit : operations.usbInit = .none
  executorInit : operations.executorInit = .none
  controlsInit : operations.controlsInit = .none
  wifiStart : ∀ configuration, operations.wifiStart configuration = (adapterWifiStart driver configuration).1
  httpStart : ∀ configuration, operations.httpStart configuration = .none
  setIndicatorReady : operations.setIndicatorReady = .none

/-- The next startup can use the network credentials in the settings. -/
structure Usable (driver : WifiDriver) (settings : DeviceSettings) : Prop where
  accessPoint : ∃ configuration,
    makeConfiguration settings.apSsid.bytes settings.apPassphrase.bytes = .ok configuration
  station : settings.stationConfigured = true →
    stationArgumentsValid driver settings.stationSsid.bytes settings.stationPassphrase.bytes = true
  startup : ∀ operations, HealthyStartup driver settings operations → sequenceStart operations = .ok ()

theorem makeConfiguration_iff {ssid passphrase : List UInt8} (hssid : ssid.length = wifiApSsidMaxBytes + 1)
    (hpassphrase : passphrase.length = wifiApPassphraseMaxBytes + 1) (hzero : 0 ∈ ssid) (hzero' : 0 ∈ passphrase) :
    (∃ configuration, makeConfiguration ssid passphrase = .ok configuration) ↔
      (textOf ssid).length ≠ 0 ∧ wifiApPassphraseMinBytes ≤ (textOf passphrase).length := by
  rw [makeConfiguration, boundedLength_of_size hssid, boundedLength_of_size hpassphrase, if_pos hzero, if_pos hzero']
  simp only
  by_cases hlengths : (textOf ssid).length = 0 ∨ (textOf passphrase).length < wifiApPassphraseMinBytes
  · rw [if_pos hlengths]
    simp only [reduceCtorEq, exists_false, false_iff, not_and, not_le]
    exact fun hne => hlengths.resolve_left hne
  · rw [if_neg hlengths]
    push Not at hlengths
    simp only [Except.ok.injEq, exists_eq', true_iff]
    exact hlengths

theorem start_of_configuration {driver : WifiDriver} (h : HealthyDriver driver) {ssid passphrase : List UInt8}
    {configuration : WifiApRuntimeConfig} (hconfiguration : makeConfiguration ssid passphrase = .ok configuration) :
    (WifiApEngine.stopped.start driver ssid passphrase).1 = .none := by
  have hloop := h.eventLoopCreate
  simp [WifiApEngine.start, WifiApEngine.stopped, WifiApEngine.call, hconfiguration, h.netifInit, hloop,
    h.netifCreate, h.wifiInit, h.handlerRegister, h.setModeAp, h.setConfig, h.wifiStart]

theorem sequenceStart_of_configuration {driver : WifiDriver} {settings : DeviceSettings} {operations : AppCoreOps}
    (hprovisioned : settings.provisioned = true) (h : HealthyStartup driver settings operations)
    {configuration : WifiApRuntimeConfig}
    (hconfiguration : makeConfiguration settings.apSsid.bytes settings.apPassphrase.bytes = .ok configuration) :
    sequenceStart operations = .ok () := by
  have hwifi : operations.wifiStart (normalNetwork settings) = .none := by
    rw [h.wifiStart, adapterWifiStart]
    simp only [normalNetwork, start_of_configuration h.healthyDriver hconfiguration, ne_eq, not_true_eq_false, if_false]
    by_cases hconfigured : settings.stationConfigured = true <;> simp [hconfigured]
  have hnormal : startNormalMode operations settings = .ok () := by
    simp [startNormalMode, startNetwork, stage, h.authInit, h.usbInit, h.executorInit, h.controlsInit, hwifi,
      h.httpStart, Bind.bind, Except.bind]
  simp [sequenceStart, stage, mapNvsResult, h.setIndicatorBooting, h.nvsInit, h.settingsInit, h.settingsRead,
    h.storageMount, h.setIndicatorReady, hprovisioned, hnormal, Bind.bind, Except.bind]

/-- The station's texts that the validator accepts are joined with unless the
name fills its array. -/
theorem stationArgumentsValid_iff {driver : WifiDriver} (hdriver : Documented driver) {settings : DeviceSettings}
    (hvalid : Valid settings) (hconfigured : settings.stationConfigured = true) :
    stationArgumentsValid driver settings.stationSsid.bytes settings.stationPassphrase.bytes = true ↔
      (textOf settings.stationSsid.bytes).length < 32 := by
  have hstation := hvalid.station
  rw [DeviceSettings.stationFieldsValid, if_pos hconfigured, Bool.and_eq_true] at hstation
  obtain ⟨-, hminimum, -, -⟩ := (validText_iff settings.stationSsid.size).mp hstation.1
  have hpassphrase : (textOf settings.stationPassphrase.bytes).length < 64 := by
    rcases (stationPassphraseValid_iff.mp hstation.2).2 with hnil | ⟨-, hmaximum, -⟩
    · rw [hnil]
      decide
    · exact Nat.lt_succ_of_le hmaximum
  simp only [stationArgumentsValid, hdriver.ssid, hdriver.password, Bool.and_eq_true, decide_eq_true_eq]
  exact ⟨fun h => h.1.2, fun h => ⟨⟨Nat.one_le_iff_ne_zero.mp hminimum, h⟩, hpassphrase⟩⟩

/-- A driver with the documented arrays whose operations all succeed. -/
def healthyDriver : WifiDriver :=
  ⟨32, 64, .none, .created, .none, .none, .none, .none, fun _ => .none, .none, .none, .none, .none, .none, .none, true,
    fun _ => .none⟩

/-- A provisioned device with the given passphrase of its access point. -/
def provisionedSettings (passphrase : List UInt8) : DeviceSettings :=
  { DeviceSettings.initUnprovisioned with
    provisioned := true
    passwordIterations := 1
    passwordSalt := ⟨List.replicate passwordSaltBytes 1, List.length_replicate⟩
    passwordVerifier := ⟨List.replicate passwordVerifierBytes 1, List.length_replicate⟩
    apSsid := .copy _ (MacroKeyboard.bytes "keyboard")
    apPassphrase := .copy _ passphrase }

/-- A provisioned device that joins a network. -/
def joiningSettings (passphrase : List UInt8) : DeviceSettings :=
  { provisionedSettings passphrase with
    stationConfigured := true
    stationSsid := .copy _ (MacroKeyboard.bytes "home network")
    stationPassphrase := .copy _ (MacroKeyboard.bytes "a passphrase") }

/-- Accepted credentials are usable exactly when the passphrase of the access
point has the length that the radio asks for and the station name does not fill
its array. -/
theorem usable_iff {driver : WifiDriver} (hdriver : Documented driver) {settings : DeviceSettings}
    (hvalid : settings.validate = .ok) (hprovisioned : settings.provisioned = true) :
    Usable driver settings ↔
      wifiApPassphraseMinBytes ≤ (textOf settings.apPassphrase.bytes).length ∧
        (settings.stationConfigured = true → (textOf settings.stationSsid.bytes).length < 32) := by
  have hvalid := validate_eq_ok_iff.mp hvalid
  have hssid := hvalid.apSsid
  have hpassphrase := hvalid.apPassphrase
  simp only [hprovisioned, if_true] at hssid hpassphrase
  obtain ⟨hzero, hminimum, -, -⟩ := (validText_iff settings.apSsid.size).mp hssid
  obtain ⟨hzero', -, -, -⟩ := (validText_iff settings.apPassphrase.size).mp hpassphrase
  have haccess := makeConfiguration_iff settings.apSsid.size settings.apPassphrase.size hzero hzero'
  constructor
  · intro h
    exact ⟨(haccess.mp h.accessPoint).2, fun hconfigured =>
      (stationArgumentsValid_iff hdriver hvalid hconfigured).mp (h.station hconfigured)⟩
  · rintro ⟨hlength, hstation⟩
    have hconfiguration := haccess.mpr ⟨Nat.one_le_iff_ne_zero.mp hminimum, hlength⟩
    refine ⟨hconfiguration, fun hconfigured =>
      (stationArgumentsValid_iff hdriver hvalid hconfigured).mpr (hstation hconfigured), fun operations h => ?_⟩
    obtain ⟨configuration, hconfiguration⟩ := hconfiguration
    exact sequenceStart_of_configuration hprovisioned h hconfiguration

theorem usable_twelveBytes : Usable healthyDriver (joiningSettings (MacroKeyboard.bytes "123456789012")) :=
  (usable_iff ⟨rfl, rfl⟩ (by decide) rfl).mpr (by decide)

/-- A passphrase of eight bytes is accepted, and the access point refuses it. -/
theorem eightBytes_refused : ¬ ∀ driver settings, Documented driver → settings.validate = .ok →
    settings.provisioned = true → Usable driver settings := by
  intro h
  have husable := h healthyDriver (provisionedSettings (MacroKeyboard.bytes "12345678")) ⟨rfl, rfl⟩ (by decide) rfl
  obtain ⟨configuration, hconfiguration⟩ := husable.accessPoint
  have hrefused : makeConfiguration (provisionedSettings (MacroKeyboard.bytes "12345678")).apSsid.bytes
      (provisionedSettings (MacroKeyboard.bytes "12345678")).apPassphrase.bytes = .error .invalidArgument := rfl
  rw [hrefused] at hconfiguration
  cases hconfiguration

end MacroKeyboard.Device.Credentials
