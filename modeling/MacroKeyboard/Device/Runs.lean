import MacroKeyboard.Device.Credentials
import MacroKeyboard.Device.Tasks
import MacroKeyboard.Settings.Coherence

namespace MacroKeyboard.Device.Runs

open Settings Settings.Coherence Auth Blobs Threads.Program Threads.Restarts

def runningSettings : DeviceSettings :=
  { Credentials.provisionedSettings (MacroKeyboard.bytes "123456789012") with passwordIterations := pbkdf2Iterations }

def firstByteDerivation : Derivation := fun password _ _ =>
  ⟨List.replicate passwordVerifierBytes (password.headD 0), List.length_replicate⟩

def passwordOfByte (byte : UInt8) : List UInt8 := List.replicate passwordMinBytes byte

def zeroToken : List UInt8 := hexOf (List.replicate sessionTokenBytes 0)

def quietFiles : FileCalls := ⟨none, 0, true, true, fun _ => true, true, fun _ => true, true, true, none, false⟩

/-- Surroundings in which every operation succeeds. -/
def quietSurroundings : Surroundings where
  store := quietCalls
  auth := ⟨true, true, 1000000, fun _ => some (List.replicate sessionTokenBytes 0)⟩
  files := quietFiles
  markerFault := none
  markerPersisted := false
  salt := some ⟨List.replicate passwordSaltBytes 2, List.length_replicate⟩
  derives := true
  controlsRunning := true
  timedOut := false
  result := .none
  request := .logout []
  command := .confirm
  received := []

def serving (request : Request) : Surroundings := { quietSurroundings with request }
def commanding (command : Command) : Surroundings := { quietSurroundings with command }

def loadedOutcome (settings : DeviceSettings) : Outcome :=
  Store.load quietCalls (Store.start (some (encodeSettings settings).2))

/-- A device that has started with what it loaded. -/
def bootedDevice (store : Store) : DeviceState where
  settings := store
  server := configureNormalServer store.core.current
  passwordTransition := none
  auth := .init
  resetSettingsRestartRequired := false
  restartScheduled := false
  restartScheduleInProgress := false
  factoryResetMarker := none
  blobs := ⟨∅, none, .zero⟩
  confirmationSignal := false
  asyncInFlight := false
  asyncItem := none
  generation := 0
  verifying := none
  log := []
  past := []

theorem started_bootedDevice (record : Option (List UInt8)) {store : Store} (calls : StoreCalls)
    (hload : (Store.load calls (Store.start record)).error = .none)
    (hstore : store = (Store.load calls (Store.start record)).store)
    (hprovisioned : store.core.current.provisioned = true) : Started (bootedDevice store) where
  boots := ⟨record,
    { loads := ⟨calls, hload, hstore⟩
      provisioned := hprovisioned
      server := rfl
      passwordTransition := rfl
      auth := rfl
      resetSettingsRestartRequired := rfl
      restartScheduled := rfl
      restartScheduleInProgress := rfl
      factoryResetMarker := rfl
      confirmationSignal := rfl
      asyncInFlight := rfl
      asyncItem := rfl
      verifying := rfl
      log := rfl }⟩
  past := rfl

/-- The run of the three tasks over a schedule. -/
def deviceRun (derive : Derivation) (store : Store) (schedule : List (Nat × Surroundings)) :
    Config DeviceState Surroundings :=
  (⟨bootedDevice store, [serverTask derive, asyncWorker derive, consoleTask derive]⟩ :
    Config DeviceState Surroundings).runSchedule (fun _ => false) schedule

theorem deviceRun_run {derive : Derivation} {store : Store} (h : Started (bootedDevice store))
    (schedule : List (Nat × Surroundings)) : DeviceRun derive (deviceRun derive store schedule) := by
  refine lifetime_runSchedule (S := deviceSystem derive) ?_ schedule
  refine lifetime_start (c := ⟨bootedDevice store, []⟩) (.start h) rfl fun i p hp => ?_
  match i, hp with
  | 0, hp =>
    cases hp
    exact .server
  | 1, hp =>
    cases hp
    exact .async
  | 2, hp =>
    cases hp
    exact .console

def steps (task count : Nat) (calls : Surroundings) : List (Nat × Surroundings) := List.replicate count (task, calls)

def runningStore : Store := (loadedOutcome runningSettings).store

theorem started_running : Started (bootedDevice runningStore) :=
  started_bootedDevice (some (encodeSettings runningSettings).2) quietCalls (by decide +kernel) rfl
    (by decide +kernel)

end MacroKeyboard.Device.Runs
