import MacroKeyboard.Settings.DeviceSettings
import MacroKeyboard.Records.PaddedText

namespace MacroKeyboard.Settings

open Records.PaddedText

/-- What an NVS call can report besides success and an absent key. -/
inductive NvsFault
  | notEnoughSpace | invalidLength | other
deriving DecidableEq, Repr

def mapNvsError : NvsFault → AppError
  | .notEnoughSpace => .storageFull
  | .invalidLength => .storageCorrupt
  | .other => .storageUnavailable

/-- What the NVS calls of one operation report. A record whose commit fails may
have reached the flash all the same, and one that cannot be set has not. -/
structure StoreCalls where
  querySize : Option NvsFault
  getBlob : Option NvsFault
  setBlob : Option NvsFault
  commit : Option NvsFault
  persisted : Bool
  reopen : Option NvsFault
  reconcileSize : Option NvsFault
  reconcileGet : Option NvsFault
  unset : setBlob.isSome = true → persisted = false
deriving DecidableEq, Repr

theorem StoreCalls.not_persisted {calls : StoreCalls} {fault : NvsFault} (h : calls.setBlob = some fault) :
    calls.persisted = false := calls.unset (by rw [h]; rfl)

structure Nvs where
  record : Option (List UInt8)
  handleOpen : Bool
deriving DecidableEq, Repr

namespace Nvs

def readRecord (querySize getBlob : Option NvsFault) (nvs : Nvs) : Except AppError (List UInt8) :=
  if ¬ nvs.handleOpen then .error .invalidArgument
  else
    match querySize, nvs.record with
    | some fault, _ => .error (mapNvsError fault)
    | none, none => .error .notFound
    | none, some record =>
      if record.length ≠ settingsRecordBytes then .error .storageCorrupt
      else
        match getBlob with
        | some fault => .error (mapNvsError fault)
        | none => .ok record

def reopenSettingsHandle (calls : StoreCalls) (nvs : Nvs) : Nvs := { nvs with handleOpen := calls.reopen.isNone }

def reconcileFailedCommit (calls : StoreCalls) (candidate : List UInt8) (commitError : AppError) (nvs : Nvs) :
    AppError × Nvs :=
  let nvs := nvs.reopenSettingsHandle calls
  if calls.reopen.isSome then (.commitUncertain, nvs)
  else
    match nvs.readRecord calls.reconcileSize calls.reconcileGet with
    | .ok persisted => (if persisted = candidate then .none else commitError, nvs)
    | .error .notFound => (commitError, nvs)
    | .error _ => (.commitUncertain, nvs)

def replaceRecordAtomic (calls : StoreCalls) (record : List UInt8) (nvs : Nvs) : AppError × Nvs :=
  if ¬ nvs.handleOpen ∨ record.length ≠ settingsRecordBytes then (.invalidArgument, nvs)
  else
    match calls.setBlob, calls.commit with
    | some fault, _ =>
      (mapNvsError fault,
        { nvs with record := if calls.persisted then some record else nvs.record }.reopenSettingsHandle calls)
    | none, none => (.none, { nvs with record := some record })
    | none, some fault =>
      { nvs with record := if calls.persisted then some record else nvs.record }.reconcileFailedCommit calls record
        (mapNvsError fault)

end Nvs

def mapDecodeResult : SettingsResult → AppError
  | .ok => .none
  | .invalidArgument => .invalidArgument
  | .invalidLength | .corrupt | .unsupportedVersion => .storageCorrupt

def mapCandidateResult : SettingsResult → AppError
  | .ok => .none
  | .invalidArgument | .corrupt => .invalidArgument
  | .invalidLength | .unsupportedVersion => .internal

def DeviceSettings.zero : DeviceSettings where
  provisioned := false
  credentialVersion := 0
  passwordAlgorithmVersion := 0
  passwordIterations := 0
  passwordSalt := .zero _
  passwordVerifier := .zero _
  nextBlobId := 0
  snapshotRetentionTarget := 0
  requireSerialConfirmation := false
  stationConfigured := false
  lastSelectedPackageId := .zero _
  deviceName := .zero _
  apSsid := .zero _
  apPassphrase := .zero _
  stationSsid := .zero _
  stationPassphrase := .zero _

structure DeviceSettingsCore where
  current : DeviceSettings
  loaded : Bool
  recordPresent : Bool
deriving DecidableEq, Repr

structure Store where
  core : DeviceSettingsCore
  nvs : Nvs
deriving DecidableEq, Repr

/-- What an operation returns and writes to its out parameters. -/
structure Outcome where
  error : AppError
  outSettings : Option DeviceSettings
  outChanged : Option Bool
  store : Store
deriving DecidableEq, Repr

def encodeSettings (settings : DeviceSettings) : AppError × List UInt8 :=
  let (result, record) := encode settings (List.replicate settingsRecordBytes 0)
  (mapCandidateResult result, record)

def copyBoundedText (capacity : Nat) (source : List UInt8) : Option (Buffer capacity) :=
  if (textOf source).length ≥ capacity then none else some (.copy capacity (textOf source))

def invalidateLoadedState : DeviceSettingsCore := ⟨.zero, false, false⟩

namespace Store

def load (calls : StoreCalls) (store : Store) : Outcome :=
  if store.core.loaded then ⟨.none, some store.core.current, none, store⟩
  else
    match store.nvs.readRecord calls.querySize calls.getBlob with
    | .error .notFound =>
      ⟨.none, some .initUnprovisioned, none, { store with core := ⟨.initUnprovisioned, true, false⟩ }⟩
    | .error readResult => ⟨readResult, none, none, store⟩
    | .ok record =>
      match decode record .zero with
      | (.ok, decoded) => ⟨.none, some decoded, none, { store with core := ⟨decoded, true, true⟩ }⟩
      | (decodeResult, _) => ⟨mapDecodeResult decodeResult, none, none, store⟩

def replace (calls : StoreCalls) (settings : DeviceSettings) (store : Store) : Outcome :=
  let loaded := store.load calls
  if loaded.error ≠ .none then ⟨loaded.error, none, some false, loaded.store⟩
  else
    let store := loaded.store
    let (currentResult, currentRecord) := encodeSettings store.core.current
    let (candidateResult, candidateRecord) := encodeSettings settings
    if currentResult ≠ .none then ⟨currentResult, none, some false, store⟩
    else if candidateResult ≠ .none then ⟨candidateResult, none, some false, store⟩
    else if currentRecord = candidateRecord then ⟨.none, none, some false, store⟩
    else
      match store.nvs.replaceRecordAtomic calls candidateRecord with
      | (.none, nvs) => ⟨.none, none, some true, ⟨{ store.core with current := settings, recordPresent := true }, nvs⟩⟩
      | (.commitUncertain, nvs) => ⟨.commitUncertain, none, some false, ⟨invalidateLoadedState, nvs⟩⟩
      | (result, nvs) => ⟨result, none, some false, { store with nvs }⟩

def setStation (calls : StoreCalls) (ssid passphrase : List UInt8) (store : Store) : Outcome :=
  let loaded := store.load calls
  if loaded.error ≠ .none then ⟨loaded.error, none, some false, loaded.store⟩
  else
    match copyBoundedText (wifiSsidMaxBytes + 1) ssid, copyBoundedText (wifiPassphraseMaxBytes + 1) passphrase with
    | some stationSsid, some stationPassphrase =>
      loaded.store.replace calls
        { loaded.store.core.current with stationSsid, stationPassphrase, stationConfigured := true }
    | _, _ => ⟨.invalidArgument, none, some false, loaded.store⟩

def setAccessPointPassphrase (calls : StoreCalls) (passphrase : List UInt8) (store : Store) : Outcome :=
  if (textOf passphrase).length < wifiPassphraseMinBytes ∨ (textOf passphrase).length > wifiPassphraseMaxBytes then
    ⟨.invalidArgument, none, some false, store⟩
  else
    let loaded := store.load calls
    if loaded.error ≠ .none then ⟨loaded.error, none, some false, loaded.store⟩
    else
      match copyBoundedText (wifiPassphraseMaxBytes + 1) passphrase with
      | none => ⟨.invalidArgument, none, some false, loaded.store⟩
      | some apPassphrase => loaded.store.replace calls { loaded.store.core.current with apPassphrase }

def resetOutcome (outcome : Outcome) : Outcome :=
  { outcome with
    outSettings := some (if outcome.error = .none then outcome.store.core.current else .zero) }

def resetNoncredential (calls : StoreCalls) (store : Store) : Outcome :=
  let loaded := store.load calls
  if loaded.error ≠ .none then resetOutcome { loaded with outChanged := none }
  else
    let (result, candidate) := Settings.resetNoncredential loaded.store.core.current
    if mapCandidateResult result ≠ .none then resetOutcome ⟨mapCandidateResult result, none, none, loaded.store⟩
    else resetOutcome (loaded.store.replace calls candidate)

def factoryReset (calls : StoreCalls) (store : Store) : Outcome :=
  resetOutcome (store.replace calls .initUnprovisioned)

end Store

inductive Operation
  | load
  | replace (settings : DeviceSettings)
  | setStation (ssid passphrase : List UInt8)
  | setAccessPointPassphrase (passphrase : List UInt8)
  | resetNoncredential
  | factoryReset
deriving DecidableEq, Repr

def perform (calls : StoreCalls) : Operation → Store → Outcome
  | .load => Store.load calls
  | .replace settings => Store.replace calls settings
  | .setStation ssid passphrase => Store.setStation calls ssid passphrase
  | .setAccessPointPassphrase passphrase => Store.setAccessPointPassphrase calls passphrase
  | .resetNoncredential => Store.resetNoncredential calls
  | .factoryReset => Store.factoryReset calls

def Store.start (record : Option (List UInt8)) : Store := ⟨⟨.zero, false, false⟩, ⟨record, true⟩⟩

/-- The states of the runs from a stored record. -/
inductive Store.Reachable (record : Option (List UInt8)) : Store → Prop
  | start : Store.Reachable record (Store.start record)
  | step {store : Store} (operation : Operation) (calls : StoreCalls) (h : Store.Reachable record store) :
    Store.Reachable record (perform calls operation store).store

end MacroKeyboard.Settings
