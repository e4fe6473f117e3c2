import MacroKeyboard.Settings.Effects
import MacroKeyboard.Web.Requests

namespace MacroKeyboard.Web.SetupMode

open Json Auth Settings Settings.Codec Settings.Coherence Settings.Effects

section Settings

/-- The mutex of the settings and the calls of the operation under it. -/
structure LockedCalls where
  take : Bool
  give : Bool
  store : StoreCalls

def finishLocked (give : Bool) (result : AppError) : AppError := if ¬ give ∧ result = .none then .internal else result

def deviceSettingsRead (calls : LockedCalls) (store : Store) : Except AppError DeviceSettings × Store :=
  if ¬ calls.take then (.error .internal, store)
  else
    let outcome := store.load calls.store
    match finishLocked calls.give outcome.error, outcome.outSettings with
    | .none, some settings => (.ok settings, outcome.store)
    | .none, none => (.error .internal, outcome.store)
    | error, _ => (.error error, outcome.store)

def deviceSettingsReplace (calls : LockedCalls) (settings : DeviceSettings) (store : Store) : AppError × Store :=
  if ¬ calls.take then (.internal, store)
  else
    let outcome := store.replace calls.store settings
    (finishLocked calls.give outcome.error, outcome.store)

end Settings

/-- The session of the setup code and the settings. -/
structure SetupState where
  session : SetupSession
  store : Store

/-- A submission: the body, unless it could not be received, and what the operations of
its handling report. -/
structure Submission where
  body : Option (List UInt8)
  read : LockedCalls
  salt : Option (Buffer passwordSaltBytes)
  derives : Bool
  replace : LockedCalls

/-- What a submission answers, the state it leaves and the settings that it handed to the
store. -/
structure Submitted where
  outcome : SetupSubmitOutcome
  state : SetupState
  written : Option DeviceSettings

section Submit

variable (parse : CJsonParse) (derive : Derivation)

/-- `web_setup_submit_handle` once the candidate is made. -/
def commitCandidate (submission : Submission) (candidate : DeviceSettings) (state : SetupState) : Submitted :=
  let (replaced, store) := deviceSettingsReplace submission.replace candidate state.store
  if replaced ≠ .none then ⟨⟨.commitFailed, replaced⟩, { state with store }, some candidate⟩
  else if state.session.consumed then ⟨⟨.internal, .none⟩, { state with store }, some candidate⟩
  else ⟨⟨.ok, .none⟩, ⟨⟨List.replicate setupCodeDigits 0, true⟩, store⟩, some candidate⟩

/-- `web_setup_submit_handle` of a request that was read. -/
def submitRequest (submission : Submission) (request : SetupRequest) (state : SetupState) : Submitted :=
  let (read, store) := deviceSettingsRead submission.read state.store
  let state := { state with store }
  match read with
  | .error error => ⟨⟨.settingsUnavailable, error⟩, state, none⟩
  | .ok current =>
    match passwordCreate derive submission.salt submission.derives request.adminPassword with
    | .error error =>
      ⟨if error = .invalidArgument then ⟨.refused .invalidAdminPassword, .none⟩ else ⟨.passwordDerivationFailed, error⟩,
        state, none⟩
    | .ok material =>
      match setupPrepareCandidate state.session request current material with
      | .error result => ⟨mapPrepareResult result, state, none⟩
      | .ok candidate => commitCandidate submission candidate state

/-- `setup_submit_handler` up to its answer. -/
def submit (submission : Submission) (state : SetupState) : Submitted :=
  match submission.body with
  | none => ⟨⟨.invalidBody, .none⟩, state, none⟩
  | some body =>
    if body.length > jsonBodyMaxBytes then ⟨⟨.invalidBody, .none⟩, state, none⟩
    else
      match setupRequestOfBody parse (jsonBodyMaxBytes + 1) body with
      | none => ⟨⟨.invalidBody, .none⟩, state, none⟩
      | some request => submitRequest derive submission request state

def runSubmissions (submissions : List Submission) (state : SetupState) : SetupState :=
  submissions.foldl (fun state submission => (submit parse derive submission state).state) state

end Submit

section Settings

variable {store : Store}

theorem finishLocked_eq_none {give : Bool} {result : AppError} (h : finishLocked give result = .none) :
    result = .none := by
  unfold finishLocked at h
  split at h
  · cases h
  · exact h

theorem deviceSettingsRead_spec (calls : LockedCalls) (h : Coherent store) :
    Coherent (deviceSettingsRead calls store).2 ∧ (deviceSettingsRead calls store).2.nvs.record = store.nvs.record ∧
    ∀ current, (deviceSettingsRead calls store).1 = .ok current →
      ∃ stored, storedSettings store.nvs.record = some stored ∧ SameSettings current stored := by
  unfold deviceSettingsRead
  by_cases htake : ¬ calls.take = true
  · rw [if_pos htake]
    exact ⟨h, rfl, nofun⟩
  rw [if_neg htake]
  have hcoherent := (truthful_load calls.store h).coherent
  obtain ⟨hrecord, hstored⟩ := load_stored calls.store h
  dsimp only
  split
  next settings herror hsettings =>
    refine ⟨hcoherent, hrecord, ?_⟩
    intro current hcurrent
    cases hcurrent
    have hnone := finishLocked_eq_none herror
    obtain ⟨-, -, stored, hmeans, hsame⟩ := hstored hnone
    rw [outSettings_load calls.store hnone, Option.some.injEq] at hsettings
    exact ⟨stored, hmeans, hsettings ▸ hsame⟩
  · exact ⟨hcoherent, hrecord, nofun⟩
  · exact ⟨hcoherent, hrecord, nofun⟩

theorem coherent_deviceSettingsReplace (calls : LockedCalls) (settings : DeviceSettings) (h : Coherent store) :
    Coherent (deviceSettingsReplace calls settings store).2 := by
  unfold deviceSettingsReplace
  split
  · exact h
  · exact (truthful_replace calls.store settings h).coherent

end Settings

section Step

variable (parse : CJsonParse) (derive : Derivation) (submission : Submission) {state : SetupState}

/-- What is known of a candidate that was handed to the store. -/
structure Handed (parse : CJsonParse) (submission : Submission) (state : SetupState) (request : SetupRequest) : Prop where
  body : ∃ body, submission.body = some body ∧ body.length ≤ jsonBodyMaxBytes ∧
    setupRequestOfBody parse (jsonBodyMaxBytes + 1) body = some request
  unconsumed : state.session.consumed = false
  code : request.setupCode = state.session.code
  values : SetupValuesValid request
  fresh : ∃ stored, storedSettings state.store.nvs.record = some stored ∧ stored.provisioned = false

structure Step (parse : CJsonParse) (submission : Submission) (state : SetupState) (submitted : Submitted) : Prop where
  coherent : Coherent submitted.state.store
  handed : ∀ candidate, submitted.written = some candidate → ∃ request, Handed parse submission state request
  kept : submitted.written = none → submitted.outcome.result ≠ .ok ∧
    submitted.state.store.nvs.record = state.store.nvs.record
  accepted : submitted.outcome.result = .ok → submitted.state.session.consumed = true
  refused : submitted.outcome.result ≠ .ok → submitted.state.session = state.session

theorem mapPrepareResult_ne_ok (result : SetupResult) : (mapPrepareResult result).result ≠ .ok := by
  cases result with
  | malformedCode | codeMismatch | codeConsumed | alreadyProvisioned | invalidDeviceName | invalidApSsid
  | invalidApPassphrase | invalidAdminPassword | invalidPasswordMaterial | invalidArgument
  | invalidCurrentSettings => exact nofun

/-- A submission ends before the store is called, or it hands a candidate to the store
that has the record of before. -/
theorem submit_cases (h : Coherent state.store) :
    (∃ outcome store, submit parse derive submission state = ⟨outcome, ⟨state.session, store⟩, none⟩ ∧
      outcome.result ≠ .ok ∧ Coherent store ∧ store.nvs.record = state.store.nvs.record) ∨
    (∃ candidate store request, submit parse derive submission state =
        commitCandidate submission candidate ⟨state.session, store⟩ ∧
      Coherent store ∧ store.nvs.record = state.store.nvs.record ∧ Handed parse submission state request) := by
  unfold submit
  cases hbody : submission.body with
  | none => exact Or.inl ⟨_, state.store, rfl, nofun, h, rfl⟩
  | some body =>
    dsimp only
    split
    · exact Or.inl ⟨_, state.store, rfl, nofun, h, rfl⟩
    next hlength =>
      cases hrequest : setupRequestOfBody parse (jsonBodyMaxBytes + 1) body with
      | none => exact Or.inl ⟨_, state.store, rfl, nofun, h, rfl⟩
      | some request =>
        obtain ⟨hcoherent, hrecord, hread⟩ := deviceSettingsRead_spec submission.read h
        unfold submitRequest
        generalize deviceSettingsRead submission.read state.store = outcome at hcoherent hrecord hread
        obtain ⟨read, store⟩ := outcome
        dsimp only at hcoherent hrecord hread ⊢
        cases read with
        | error error => exact Or.inl ⟨_, store, rfl, nofun, hcoherent, hrecord⟩
        | ok current =>
          dsimp only
          cases passwordCreate derive submission.salt submission.derives request.adminPassword with
          | error error =>
            left
            refine ⟨_, store, rfl, ?_, hcoherent, hrecord⟩
            split
            · exact nofun
            · exact nofun
          | ok material =>
            dsimp only
            cases hcandidate : setupPrepareCandidate state.session request current material with
            | error result => exact Or.inl ⟨_, store, rfl, mapPrepareResult_ne_ok result, hcoherent, hrecord⟩
            | ok candidate =>
              right
              have haccepted := accepted_of_setupPrepareCandidate hcandidate
              obtain ⟨stored, hstored, hsame⟩ := hread current rfl
              refine ⟨candidate, store, request, rfl, hcoherent, hrecord,
                ⟨body, hbody, Nat.not_lt.mp hlength, hrequest⟩, haccepted.unconsumed, haccepted.same.symm,
                ⟨haccepted.code, haccepted.deviceName, haccepted.apSsid, haccepted.apPassphrase, haccepted.adminPassword⟩,
                stored, hstored, ?_⟩
              rw [← hsame.provisioned]
              exact haccepted.fresh

theorem step_submit (h : Coherent state.store) : Step parse submission state (submit parse derive submission state) := by
  rcases submit_cases parse derive submission h with
    ⟨outcome, store, heq, hresult, hcoherent, hrecord⟩ | ⟨candidate, store, request, heq, hcoherent, -, hhanded⟩
  · rw [heq]
    exact ⟨hcoherent, nofun, fun _ => ⟨hresult, hrecord⟩, fun hok => absurd hok hresult, fun _ => rfl⟩
  · rw [heq]
    have hafter := coherent_deviceSettingsReplace submission.replace candidate hcoherent
    unfold commitCandidate
    dsimp only
    split
    · exact ⟨hafter, fun _ _ => ⟨request, hhanded⟩, nofun, nofun, fun _ => rfl⟩
    · rw [if_neg (by rw [hhanded.unconsumed]; exact Bool.false_ne_true)]
      exact ⟨hafter, fun _ _ => ⟨request, hhanded⟩, nofun, fun _ => rfl, fun hne => absurd rfl hne⟩

end Step

section Document

def setupFieldNames : List (List UInt8) :=
  [setupCodeField, setupDeviceNameField, setupApSsidField, setupApPassphraseField, setupAdminPasswordField,
    setupConfirmationField]

def HasText (members : List (List UInt8 × CJson)) (name text : List UInt8) : Prop :=
  ∃ member ∈ members, cString member.1 = name ∧ ∃ value, member.2 = .string value ∧ cString value = text

/-- The body is one JSON object with exactly the fields of a setup, each once and of its
type, and says what the request does. -/
def IsSetupDocument (parse : CJsonParse) (body : List UInt8) (request : SetupRequest) : Prop :=
  ∃ members, parse body = some (.object members) ∧ (members.map (fun member => cString member.1)).Perm setupFieldNames ∧
    HasText members setupCodeField request.setupCode ∧ HasText members setupDeviceNameField request.deviceName ∧
    HasText members setupApSsidField request.apSsid ∧ HasText members setupApPassphraseField request.apPassphrase ∧
    HasText members setupAdminPasswordField request.adminPassword ∧
    ∃ member ∈ members, cString member.1 = setupConfirmationField ∧ member.2 = .bool request.requireSerialConfirmation

variable {members : List (List UInt8 × CJson)}

theorem perm_of_exactSetupFields (h : exactSetupFields members = true) :
    (members.map (fun member => cString member.1)).Perm setupFieldNames := by
  obtain ⟨hnodup, hall, hlength⟩ := exactFields_iff.mp h
  refine (List.subperm_of_subset hnodup hall).perm_of_length_le ?_
  rw [List.length_map]
  exact Nat.le_of_eq hlength.symm

theorem hasText_of_view {name text : List UInt8} (h : stringViewFromItem (getObjectItem members name) = some text) :
    HasText members name text := by
  unfold getObjectItem at h
  cases hfind : members.find? (fun member => cString member.1 = name) with
  | none =>
    rw [hfind] at h
    cases h
  | some member =>
    rw [hfind] at h
    have hname : cString member.1 = name := by simpa using List.find?_some hfind
    have hmem := List.mem_of_find?_eq_some hfind
    obtain ⟨key, item⟩ := member
    cases item with
    | string value => exact ⟨(key, .string value), hmem, hname, value, rfl, Option.some.inj h⟩
    | null | bool _ | number _ | array _ | object _ => cases h

theorem document_of_populate {request : SetupRequest} (h : populateSetupRequest members = some request) :
    HasText members setupCodeField request.setupCode ∧ HasText members setupDeviceNameField request.deviceName ∧
      HasText members setupApSsidField request.apSsid ∧ HasText members setupApPassphraseField request.apPassphrase ∧
      HasText members setupAdminPasswordField request.adminPassword ∧
      ∃ member ∈ members, cString member.1 = setupConfirmationField ∧
        member.2 = .bool request.requireSerialConfirmation := by
  unfold populateSetupRequest at h
  simp only [Option.bind_eq_bind, Option.bind_eq_some_iff] at h
  obtain ⟨code, hcode, name, hname, ssid, hssid, passphrase, hpassphrase, password, hpassword, hflag⟩ := h
  split at hflag
  next flag hitem =>
    cases hflag
    refine ⟨hasText_of_view hcode, hasText_of_view hname, hasText_of_view hssid, hasText_of_view hpassphrase,
      hasText_of_view hpassword, ?_⟩
    unfold getObjectItem at hitem
    obtain ⟨member, hfind, hbool⟩ := Option.map_eq_some_iff.mp hitem
    exact ⟨member, List.mem_of_find?_eq_some hfind, by simpa using List.find?_some hfind, hbool⟩
  · cases hflag

theorem document_of_body {parse : CJsonParse} {body : List UInt8} {capacity : Nat} {request : SetupRequest}
    (hnul : NulFree body) (h : setupRequestOfBody parse capacity body = some request) :
    IsSetupDocument parse body request := by
  unfold setupRequestOfBody at h
  split at h
  next members hparse =>
    split at h
    next hexact =>
      refine ⟨members, ?_, perm_of_exactSetupFields hexact, document_of_populate h⟩
      unfold parseExactBody boundedBody at hparse
      rw [cString_of_nulFree hnul] at hparse
      split at hparse
      · cases hparse
      next text htext =>
        split at htext
        · cases htext
        · cases htext
          split at hparse
          · cases hparse
          · exact hparse
    · cases h
  · cases h

end Document

section Runs

variable (parse : CJsonParse) (derive : Derivation) {record : Option (List UInt8)} {start state : SetupState}

/-- The session is that of the start or used up. -/
structure Invariant (start state : SetupState) : Prop where
  coherent : Coherent state.store
  session : state.session = start.session ∨ state.session.consumed = true

theorem invariant_run (submissions : List Submission) (h : Invariant start state) :
    Invariant start (runSubmissions parse derive submissions state) := by
  induction submissions generalizing state with
  | nil => exact h
  | cons submission rest ih =>
    apply ih
    have hstep := step_submit parse derive submission h.coherent
    refine ⟨hstep.coherent, ?_⟩
    by_cases hresult : (submit parse derive submission state).outcome.result = .ok
    · exact Or.inr (hstep.accepted hresult)
    · rw [hstep.refused hresult]
      exact h.session

theorem written_of_consumed (submission : Submission) (h : Coherent state.store)
    (hconsumed : state.session.consumed = true) : (submit parse derive submission state).written = none := by
  cases hwritten : (submit parse derive submission state).written with
  | none => rfl
  | some candidate =>
    obtain ⟨request, hhanded⟩ := (step_submit parse derive submission h).handed candidate hwritten
    rw [hhanded.unconsumed] at hconsumed
    cases hconsumed

theorem consumed_run (submissions : List Submission) (h : Coherent state.store)
    (hconsumed : state.session.consumed = true) :
    Coherent (runSubmissions parse derive submissions state).store ∧
      (runSubmissions parse derive submissions state).session.consumed = true := by
  induction submissions generalizing state with
  | nil => exact ⟨h, hconsumed⟩
  | cons submission rest ih =>
    have hstep := step_submit parse derive submission h
    apply ih hstep.coherent
    rw [hstep.refused (hstep.kept (written_of_consumed parse derive submission h hconsumed)).1]
    exact hconsumed

/-- What one submission of a session does, after the earlier ones: it hands settings to
the store only for a setup document with the code of the session and valid values while
the record is unprovisioned; once it is answered with success no later one is, and none
writes; and one that does not reach the store leaves the record and the session alone, as
one whose commit fails leaves the session. -/
structure OneShot (parse : CJsonParse) (derive : Derivation) (start : SetupState) (earlier : List Submission)
    (submission : Submission) : Prop where
  written : ∀ candidate,
    (submit parse derive submission (runSubmissions parse derive earlier start)).written = some candidate →
    ∃ body request, submission.body = some body ∧ IsSetupDocument parse body request ∧
      request.setupCode = start.session.code ∧ SetupValuesValid request ∧
      ∃ stored, storedSettings (runSubmissions parse derive earlier start).store.nvs.record = some stored ∧
        stored.provisioned = false
  once : (submit parse derive submission (runSubmissions parse derive earlier start)).outcome.result = .ok →
    ∀ later last,
      let after := submit parse derive last (runSubmissions parse derive (earlier ++ submission :: later) start)
      after.outcome.result ≠ .ok ∧ after.written = none
  rejected : (submit parse derive submission (runSubmissions parse derive earlier start)).written = none →
    (submit parse derive submission (runSubmissions parse derive earlier start)).outcome.result ≠ .ok ∧
      (submit parse derive submission (runSubmissions parse derive earlier start)).state.store.nvs.record =
        (runSubmissions parse derive earlier start).store.nvs.record
  retry : (submit parse derive submission (runSubmissions parse derive earlier start)).outcome.result ≠ .ok →
    (submit parse derive submission (runSubmissions parse derive earlier start)).state.session =
      (runSubmissions parse derive earlier start).session

/-- Every submission whose body has no zero byte keeps the setup one-shot. -/
theorem setup_one_shot (hstore : Store.Reachable record start.store) (earlier : List Submission)
    (submission : Submission) (hbody : ∀ body, submission.body = some body → NulFree body) :
    OneShot parse derive start earlier submission := by
  have hstart : Invariant start start := ⟨coherent_of_reachable hstore, Or.inl rfl⟩
  have hinv := invariant_run parse derive earlier hstart
  have hstep := step_submit parse derive submission hinv.coherent
  refine ⟨?_, ?_, hstep.kept, hstep.refused⟩
  · intro candidate hwritten
    obtain ⟨request, hhanded⟩ := hstep.handed candidate hwritten
    obtain ⟨body, hsome, -, hrequest⟩ := hhanded.body
    have hsession : (runSubmissions parse derive earlier start).session = start.session := by
      rcases hinv.session with hsame | hconsumed
      · exact hsame
      · rw [hhanded.unconsumed] at hconsumed
        cases hconsumed
    refine ⟨body, request, hsome, document_of_body (hbody body hsome) hrequest, ?_, hhanded.values, hhanded.fresh⟩
    rw [hhanded.code, hsession]
  · intro hresult later last
    have hsplit : runSubmissions parse derive (earlier ++ submission :: later) start =
        runSubmissions parse derive later (submit parse derive submission (runSubmissions parse derive earlier start)).state := by
      rw [runSubmissions, List.foldl_append, List.foldl_cons]
      rfl
    obtain ⟨hcoherent, hconsumed⟩ := consumed_run parse derive later hstep.coherent
      (hstep.accepted hresult)
    have hwritten := written_of_consumed parse derive last hcoherent hconsumed
    dsimp only
    rw [hsplit]
    exact ⟨((step_submit parse derive last hcoherent).kept hwritten).1, hwritten⟩

end Runs

section Desk

def deskBody : List UInt8 :=
  bytes "\x7b\"setupCode\":\"12345678\",\"deviceName\":\"Desk\",\"apSsid\":\"Desk\",\"apPassphrase\":\"passphrase\",\"adminPassword\":\"administrator\",\"requireSerialConfirmation\":true\x7d"

def deskParse : CJsonParse := fun text =>
  if text = deskBody then
    some (.object [(setupCodeField, .string (bytes "12345678")), (setupDeviceNameField, .string (bytes "Desk")),
      (setupApSsidField, .string (bytes "Desk")), (setupApPassphraseField, .string (bytes "passphrase")),
      (setupAdminPasswordField, .string (bytes "administrator")), (setupConfirmationField, .bool true)])
  else none

def deskBuffer (n : Nat) : Buffer n := ⟨List.replicate n 1, List.length_replicate⟩

def deskDerive : Derivation := fun _ _ _ => deskBuffer passwordVerifierBytes

def workingCalls : LockedCalls := ⟨true, true, quietCalls⟩

def deskSubmission (body : List UInt8) : Submission :=
  ⟨some body, workingCalls, some (deskBuffer passwordSaltBytes), true, workingCalls⟩

def deskStart : SetupState := ⟨⟨bytes "12345678", false⟩, .start none⟩

theorem setup_one_shot_desk : OneShot deskParse deskDerive deskStart [deskSubmission [0x7b]] (deskSubmission deskBody) :=
  setup_one_shot deskParse deskDerive .start [deskSubmission [0x7b]] (deskSubmission deskBody) fun body h => by
    have heq : deskBody = body := Option.some.inj h
    rw [← heq]
    decide +kernel

/-- A setup document with a zero byte and something else after it is no document, but it
is stored. -/
theorem zero_byte_stored : deskParse (deskBody ++ [0, 0x78]) = none ∧
    ¬ OneShot deskParse deskDerive deskStart [] (deskSubmission (deskBody ++ [0, 0x78])) := by
  have hparse : deskParse (deskBody ++ [0, 0x78]) = none := by decide +kernel
  refine ⟨hparse, ?_⟩
  intro h
  have hwritten : (submit deskParse deskDerive (deskSubmission (deskBody ++ [0, 0x78])) deskStart).written.isSome = true := by
    decide +kernel
  obtain ⟨candidate, hcandidate⟩ := Option.isSome_iff_exists.mp hwritten
  obtain ⟨body, request, hbody, ⟨members, hmembers, -⟩, -⟩ := h.written candidate hcandidate
  have heq : deskBody ++ [0, 0x78] = body := Option.some.inj hbody
  rw [← heq, hparse] at hmembers
  cases hmembers

end Desk

end MacroKeyboard.Web.SetupMode
