import MacroKeyboard.Device.Startup
import MacroKeyboard.Settings.Store

namespace MacroKeyboard.Device.Unwinding

open Settings

/-- What the startup acquires, a flag of `app_core_owned_t` each. -/
inductive Stage
  | nvs | settings | storage | auth | usb | executor | controls | setupCode | wifi | http
deriving DecidableEq, Repr

inductive Indicator
  | booting | ready | fatal
deriving DecidableEq, Repr

/-- The operations of the startup with those that take it back. `owns` is what
`http_owns_resources`, `wifi_owns_resources` and `storage_owns_mount` report, of a
stage that failed or was not tried as of any other. -/
structure StartupOps extends AppCoreOps where
  owns : Stage → Bool
  teardown : Stage → AppError
  setIndicatorFatal : AppError

inductive LogEvent
  | stage (name : String) (result : AppError)
  | setupCode
  | provisioningRequired
  | cleanupFailed (primaryError cleanupError : AppError)
deriving DecidableEq, Repr

/-- The calls of the startup, with what the tries of a stage returned. -/
inductive Call
  | start (stage : Stage) (result : AppError)
  | settingsRead
  | bootstrapDerive
  | setupCodeGenerate
  | teardown (stage : Stage)
  | setIndicator (indicator : Indicator)
  | secureZero
  | log (event : LogEvent)
deriving DecidableEq, Repr

structure StartupSecrets where
  settings : DeviceSettings
  bootstrap : Option ProvisioningBootstrap
  setupCode : List UInt8
  web : Option WebServerConfig

def StartupSecrets.zero : StartupSecrets := ⟨.zero, none, [], none⟩

structure StartupState where
  owned : Stage → Bool
  secrets : StartupSecrets
  calls : List Call

def StartupState.initial : StartupState := ⟨fun _ => false, .zero, []⟩

def StartupState.note (call : Call) (state : StartupState) : StartupState := { state with calls := state.calls ++ [call] }

structure OperationResult where
  primaryError : AppError
  cleanupError : AppError
  cleanupIncomplete : Bool

namespace OperationResult

def success : OperationResult := ⟨.none, .none, false⟩

def recordPrimary (error : AppError) (result : OperationResult) : OperationResult :=
  if error ≠ .none ∧ result.primaryError = .none then { result with primaryError := error } else result

def recordCleanup (error : AppError) (result : OperationResult) : OperationResult :=
  if error ≠ .none then
    { result with
      cleanupError := if result.cleanupError = .none then error else result.cleanupError
      cleanupIncomplete := true }
  else result

end OperationResult

variable (operations : StartupOps)

section Cleanup

def teardownStage (shouldRun : StartupState → Bool) (stage : Stage) (cleanup : OperationResult × StartupState) :
    OperationResult × StartupState :=
  if ¬ shouldRun cleanup.2 then cleanup
  else
    (cleanup.1.recordCleanup (operations.teardown stage),
      { cleanup.2.note (.teardown stage) with
        owned := if operations.teardown stage = .none then Function.update cleanup.2.owned stage false else cleanup.2.owned })

def teardownOwned (stage : Stage) : OperationResult × StartupState → OperationResult × StartupState :=
  teardownStage operations (fun state => state.owned stage) stage

def teardownReported (stage : Stage) : OperationResult × StartupState → OperationResult × StartupState :=
  teardownStage operations (fun state => state.owned stage || operations.owns stage) stage

def clearSetupCode (state : StartupState) : StartupState :=
  if state.owned .setupCode then
    { state.note (.teardown .setupCode) with owned := Function.update state.owned .setupCode false }
  else state

def cleanupAfterFailure (primaryError : AppError) (state : StartupState) : OperationResult × StartupState :=
  let cleanup := (OperationResult.success.recordPrimary primaryError, clearSetupCode state)
    |> teardownReported operations .http
    |> teardownReported operations .wifi
    |> teardownOwned operations .controls
    |> teardownOwned operations .executor
    |> teardownOwned operations .usb
    |> teardownOwned operations .auth
    |> teardownReported operations .storage
    |> teardownOwned operations .settings
    |> teardownOwned operations .nvs
  (cleanup.1.recordCleanup operations.setIndicatorFatal, cleanup.2.note (.setIndicator .fatal))

def finishFailure (primaryError : AppError) (state : StartupState) : AppError × StartupState :=
  let (result, state) := cleanupAfterFailure operations primaryError state
  (result.primaryError,
    if result.cleanupIncomplete then state.note (.log (.cleanupFailed result.primaryError result.cleanupError)) else state)

def clearStartupSecrets (state : StartupState) : StartupState := { state.note .secureZero with secrets := .zero }

def failWithSecrets (primaryError : AppError) (state : StartupState) : AppError × StartupState :=
  finishFailure operations primaryError (clearStartupSecrets state)

end Cleanup

section Start

abbrev Startup (α : Type) : Type := ExceptT AppError (StateM StartupState) α

/-- An operation that acquires a stage when it succeeds. -/
def acquire (stage : Stage) (name : String) (result : AppError) : Startup Unit := do
  modify (fun state => (state.note (.start stage result)).note (.log (.stage name result)))
  if result ≠ .none then throw result
  modify (fun state => { state with owned := Function.update state.owned stage true })

/-- An operation that leaves its result in the secrets. -/
def obtain {α : Type} (call : Call) (name : String) (result : Except AppError α) (keep : α → StartupSecrets → StartupSecrets) :
    Startup α := do
  modify (fun state => (state.note call).note (.log (.stage name (match result with
    | .ok _ => .none
    | .error error => error))))
  match result with
  | .error error => throw error
  | .ok value =>
    modify (fun state => { state with secrets := keep value state.secrets })
    pure value

def setIndicator (indicator : Indicator) (result : AppError) : Startup Unit := do
  modify (·.note (.setIndicator indicator))
  if result ≠ .none then throw result

def startNetwork (wifi : WifiConfiguration) (web : WebServerConfig) : Startup Unit := do
  acquire .wifi "wifi" (operations.wifiStart wifi)
  acquire .http "http" (operations.httpStart web)

def startNormalMode (settings : DeviceSettings) : Startup Unit := do
  acquire .auth "authentication" operations.authInit
  acquire .usb "usb" operations.usbInit
  acquire .executor "executor" operations.executorInit
  acquire .controls "controls" operations.controlsInit
  modify (fun state => { state with secrets := { state.secrets with web := some (configureNormalServer settings) } })
  startNetwork operations (normalNetwork settings) (configureNormalServer settings)

def startSetupMode (settings : DeviceSettings) : Startup Unit := do
  modify (·.note (.log .provisioningRequired))
  acquire .auth "authentication" operations.authInit
  let bootstrap ← obtain .bootstrapDerive "setup_bootstrap" operations.bootstrapDerive
    (fun bootstrap secrets => { secrets with bootstrap := some bootstrap })
  let setupCode ← obtain .setupCodeGenerate "setup_code" operations.setupCodeGenerate
    (fun setupCode secrets => { secrets with setupCode })
  acquire .setupCode "setup_code_console" operations.setupCodePublish
  modify (·.note (.log .setupCode))
  modify (fun state => { state with secrets := { state.secrets with web := some (configureSetupServer settings setupCode) } })
  startNetwork operations
    { normalNetwork settings with apSsid := bootstrap.apSsid, apPassphrase := bootstrap.apPassphrase }
    (configureSetupServer settings setupCode)

/-- `app_core_sequence_start` up to the point where the secrets are cleared. -/
def startStages : Startup Unit := do
  setIndicator .booting operations.setIndicatorBooting
  acquire .nvs "nvs" (mapNvsResult operations.nvsInit)
  acquire .settings "settings_init" operations.settingsInit
  let settings ← obtain .settingsRead "settings_read" operations.settingsRead
    (fun settings secrets => { secrets with settings })
  acquire .storage "storage_mount" operations.storageMount
  if settings.provisioned then startNormalMode operations settings else startSetupMode operations settings

/-- The end of `app_core_sequence_start`. -/
def finishStart (state : StartupState) : Except AppError Unit × StartupState :=
  match setIndicator .ready operations.setIndicatorReady (clearStartupSecrets state) with
  | (.error error, state) =>
    let (result, state) := finishFailure operations error state
    (.error result, state)
  | (.ok (), state) => (.ok (), state)

def appCoreSequenceStart : Except AppError Unit × StartupState :=
  match startStages operations .initial with
  | (.error error, state) =>
    let (result, state) := failWithSecrets operations error state
    (.error result, state)
  | (.ok (), state) => finishStart operations state

end Start

/-- The place of a stage in the order of acquisition. -/
def Stage.rank : Stage → Nat
  | .nvs => 0
  | .settings => 1
  | .storage => 2
  | .auth => 3
  | .usb => 4
  | .executor => 5
  | .controls => 6
  | .setupCode => 7
  | .wifi => 8
  | .http => 9

def Stage.reports (stage : Stage) : Bool := stage = .http || stage = .wifi || stage = .storage

/-- The stages that were tried, with what that returned. -/
def starts (calls : List Call) : List (Stage × AppError) :=
  calls.filterMap (fun call => match call with
    | .start stage result => some (stage, result)
    | _ => none)

def tornDown (calls : List Call) : List Stage :=
  calls.filterMap (fun call => match call with
    | .teardown stage => some stage
    | _ => none)

def startOrder : List Stage := [.nvs, .settings, .storage, .auth, .usb, .executor, .controls, .setupCode, .wifi, .http]

/-- The stages that were acquired or report that they own resources, in the order of
the startup. -/
def claimed (calls : List Call) : List Stage :=
  startOrder.filter (fun stage => (stage, AppError.none) ∈ starts calls || stage.reports && operations.owns stage)

def Earlier (a b : Stage) : Prop := a.rank < b.rank

/-- The stages are tried in their order, and each claimed stage is torn down once and
in reverse order, but for the setup code, which goes first. -/
structure Unwound (calls : List Call) : Prop where
  ordered : ((starts calls).map Prod.fst).Pairwise Earlier
  once : (tornDown calls).Nodup
  torn : tornDown calls = (claimed operations calls).filter (· = .setupCode) ++
    ((claimed operations calls).filter (· ≠ .setupCode)).reverse

section Acquisition

instance : Std.Irrefl Earlier := ⟨fun a => Nat.lt_irrefl a.rank⟩

instance : Std.Antisymm Earlier := ⟨fun _ _ h h' => absurd h (Nat.lt_asymm h')⟩

/-- The stages were tried in their order, up to the bound, and the flags tell which
of them succeeded. -/
structure Acquired (bound : Nat) (state : StartupState) : Prop where
  ordered : ((starts state.calls).map Prod.fst).Pairwise Earlier
  below : ∀ start ∈ starts state.calls, start.1.rank < bound
  owned : ∀ stage, state.owned stage = true ↔ (stage, AppError.none) ∈ starts state.calls
  untorn : tornDown state.calls = []

/-- The program tries stages from one bound up to another, unless it fails. -/
def Tries {α : Type} (before after : Nat) (p : Startup α) : Prop :=
  ∀ state, Acquired before state →
    match p state with
    | (.ok _, state') => Acquired after state'
    | (.error _, state') => ∃ bound, Acquired bound state'

def Yields {α : Type} (p : Startup α) (result : Except AppError α) : Prop := ∀ state, (p state).1 = result

variable {α β : Type} {a b c : Nat} {state : StartupState}

theorem Acquired.same (h : Acquired a state) {state' : StartupState} (howned : state'.owned = state.owned)
    (hstarts : starts state'.calls = starts state.calls) (htorn : tornDown state'.calls = tornDown state.calls) :
    Acquired a state' := by
  refine ⟨?_, ?_, fun stage => ?_, ?_⟩
  · rw [hstarts]
    exact h.ordered
  · rw [hstarts]
    exact h.below
  · rw [howned, hstarts]
    exact h.owned stage
  · rw [htorn]
    exact h.untorn

theorem starts_note {call : Call} (h : ∀ stage result, call ≠ .start stage result) :
    starts (state.note call).calls = starts state.calls := by
  rw [StartupState.note, starts, List.filterMap_append]
  cases call <;> first | exact absurd rfl (h _ _) | exact List.append_nil _

theorem tornDown_note {call : Call} (h : ∀ stage, call ≠ .teardown stage) :
    tornDown (state.note call).calls = tornDown state.calls := by
  rw [StartupState.note, tornDown, List.filterMap_append]
  cases call <;> first | exact absurd rfl (h _) | exact List.append_nil _

theorem bind_apply (p : Startup α) (f : α → Startup β) (state : StartupState) :
    (p >>= f) state =
      match p state with
      | (.ok value, state') => f value state'
      | (.error error, state') => (.error error, state') := by
  rcases hresult : p state with ⟨result, state'⟩
  cases result <;> simp only [bind, ExceptT.bind, ExceptT.mk, StateT.bind, hresult] <;> rfl

theorem tries_bind {p : Startup α} {f : α → Startup β} (hp : Tries a b p) (hf : ∀ value, Tries b c (f value)) :
    Tries a c (p >>= f) := by
  intro state hstate
  rw [bind_apply]
  have hfirst := hp state hstate
  revert hfirst
  rcases p state with ⟨result | value, state'⟩
  · exact id
  · exact hf value state'

theorem yields_bind {p : Startup α} {f : α → Startup β} {result : Except AppError α} {rest : α → Except AppError β}
    (hp : Yields p result) (hf : ∀ value, Yields (f value) (rest value)) : Yields (p >>= f) (result >>= rest) := by
  intro state
  rw [bind_apply, ← hp state]
  rcases p state with ⟨result | value, state'⟩
  · rfl
  · exact hf value state'

theorem tries_acquire {stage : Stage} (name : String) (result : AppError) (hrank : a ≤ stage.rank) :
    Tries a (stage.rank + 1) (acquire stage name result) := by
  intro state hstate
  have hstarts : starts ((state.note (.start stage result)).note (.log (.stage name result))).calls =
      starts state.calls ++ [(stage, result)] := by
    rw [starts_note (by simp), StartupState.note, starts, List.filterMap_append]
    rfl
  have htorn : tornDown ((state.note (.start stage result)).note (.log (.stage name result))).calls = [] := by
    rw [tornDown_note (by simp), tornDown_note (by simp), hstate.untorn]
  have hordered : ((starts state.calls ++ [(stage, result)]).map Prod.fst).Pairwise Earlier := by
    rw [List.map_append, List.pairwise_append]
    refine ⟨hstate.ordered, List.pairwise_singleton _ _, fun earlier hearlier later hlater => ?_⟩
    obtain ⟨start, hstart, rfl⟩ := List.mem_map.mp hearlier
    rw [List.mem_singleton.mp hlater]
    exact (hstate.below start hstart).trans_le hrank
  have hbelow : ∀ start ∈ starts state.calls ++ [(stage, result)], start.1.rank < stage.rank + 1 := by
    intro start hstart
    rcases List.mem_append.mp hstart with hstart | hstart
    · exact (hstate.below start hstart).trans_le (hrank.trans (Nat.le_succ _))
    · rw [List.mem_singleton.mp hstart]
      exact Nat.lt_succ_self _
  have hnew : (stage, AppError.none) ∉ starts state.calls := fun hmem =>
    absurd (hstate.below _ hmem) (Nat.not_lt.mpr hrank)
  by_cases hnone : result = .none
  · have hrun : acquire stage name result state = (.ok (),
        { (state.note (.start stage result)).note (.log (.stage name result)) with
          owned := Function.update state.owned stage true }) := by
      subst hnone
      rfl
    rw [hrun]
    refine ⟨by rw [hstarts]; exact hordered, by rw [hstarts]; exact hbelow, fun other => ?_, htorn⟩
    rw [hstarts, List.mem_append, List.mem_singleton, hnone]
    by_cases hother : other = stage
    · simp [hother]
    · simp [hother, hstate.owned other]
  · have hrun : acquire stage name result state =
        (.error result, (state.note (.start stage result)).note (.log (.stage name result))) := by
      rw [acquire, bind_apply]
      simp only [ite_not, if_neg hnone]
      rfl
    rw [hrun]
    refine ⟨stage.rank + 1, by rw [hstarts]; exact hordered, by rw [hstarts]; exact hbelow, fun other => ?_, htorn⟩
    rw [hstarts, List.mem_append, List.mem_singleton, Prod.mk.injEq]
    have hsame : other = stage ∧ AppError.none = result ↔ False := by
      simp [Ne.symm hnone]
    rw [hsame, or_false]
    exact hstate.owned other

theorem yields_acquire (stage : Stage) (name : String) (result : AppError) :
    Yields (acquire stage name result) (Device.stage result) := by
  intro state
  rw [acquire, bind_apply, Device.stage]
  by_cases hnone : result = .none
  · simp only [hnone, ne_eq, not_true_eq_false, if_false, if_true]
    rfl
  · simp only [ne_eq, hnone, not_false_eq_true, if_true, if_false]
    rfl

theorem tries_modify {f : StartupState → StartupState} (h : ∀ state, Acquired a state → Acquired a (f state)) :
    Tries a a (modify f) := fun state hstate => h state hstate

theorem Acquired.note (h : Acquired a state) {call : Call} (hstart : ∀ stage result, call ≠ .start stage result)
    (hteardown : ∀ stage, call ≠ .teardown stage) : Acquired a (state.note call) :=
  h.same rfl (starts_note hstart) (tornDown_note hteardown)

theorem tries_obtain {call : Call} (name : String) (result : Except AppError α)
    (keep : α → StartupSecrets → StartupSecrets) (hstart : ∀ stage result, call ≠ .start stage result)
    (hteardown : ∀ stage, call ≠ .teardown stage) : Tries a a (obtain call name result keep) := by
  refine tries_bind (tries_modify fun state hstate => (hstate.note hstart hteardown).note (by simp) (by simp)) fun _ => ?_
  cases result with
  | error error => exact fun state hstate => ⟨a, hstate⟩
  | ok value =>
    refine tries_bind (tries_modify fun state hstate => hstate.same rfl rfl rfl) fun _ state hstate => hstate

theorem yields_obtain (call : Call) (name : String) (result : Except AppError α)
    (keep : α → StartupSecrets → StartupSecrets) : Yields (obtain call name result keep) result := by
  intro state
  cases result <;> rfl

theorem tries_setIndicator (indicator : Indicator) (result : AppError) : Tries a a (setIndicator indicator result) := by
  refine tries_bind (tries_modify fun state hstate => hstate.note (by simp) (by simp)) fun _ state hstate => ?_
  by_cases hnone : result = .none
  · rw [hnone]
    exact hstate
  · simp only [ne_eq, hnone, not_false_eq_true, if_true]
    exact ⟨a, hstate⟩

theorem yields_setIndicator (indicator : Indicator) (result : AppError) :
    Yields (setIndicator indicator result) (stage result) := by
  intro state
  rw [setIndicator, bind_apply, stage]
  by_cases hnone : result = .none
  · simp only [hnone, ne_eq, not_true_eq_false, if_false, if_true]
    rfl
  · simp only [ne_eq, hnone, not_false_eq_true, if_true, if_false]
    rfl

theorem tries_startNetwork (wifi : WifiConfiguration) (web : WebServerConfig) (h : a ≤ 8) :
    Tries a 10 (startNetwork operations wifi web) :=
  tries_bind (tries_acquire _ _ h) fun _ => tries_acquire _ _ le_rfl

theorem tries_startNormalMode (settings : DeviceSettings) : Tries 3 10 (startNormalMode operations settings) := by
  refine tries_bind (tries_acquire _ _ le_rfl) fun _ => ?_
  refine tries_bind (tries_acquire _ _ le_rfl) fun _ => ?_
  refine tries_bind (tries_acquire _ _ le_rfl) fun _ => ?_
  refine tries_bind (tries_acquire _ _ le_rfl) fun _ => ?_
  refine tries_bind (tries_modify fun state hstate => hstate.same rfl rfl rfl) fun _ => ?_
  exact tries_startNetwork operations _ _ (by decide)

theorem tries_startSetupMode (settings : DeviceSettings) : Tries 3 10 (startSetupMode operations settings) := by
  refine tries_bind (tries_modify fun state hstate => hstate.note (by simp) (by simp)) fun _ => ?_
  refine tries_bind (tries_acquire _ _ le_rfl) fun _ => ?_
  refine tries_bind (tries_obtain _ _ _ (by simp) (by simp)) fun bootstrap => ?_
  refine tries_bind (tries_obtain _ _ _ (by simp) (by simp)) fun setupCode => ?_
  refine tries_bind (tries_acquire _ _ (by decide)) fun _ => ?_
  refine tries_bind (tries_modify fun state hstate => hstate.note (by simp) (by simp)) fun _ => ?_
  refine tries_bind (tries_modify fun state hstate => hstate.same rfl rfl rfl) fun _ => ?_
  exact tries_startNetwork operations _ _ (by decide)

theorem tries_startStages : Tries 0 10 (startStages operations) := by
  refine tries_bind (tries_setIndicator _ _) fun _ => ?_
  refine tries_bind (tries_acquire _ _ le_rfl) fun _ => ?_
  refine tries_bind (tries_acquire _ _ le_rfl) fun _ => ?_
  refine tries_bind (tries_obtain _ _ _ (by simp) (by simp)) fun settings => ?_
  refine tries_bind (tries_acquire _ _ le_rfl) fun _ => ?_
  split
  · exact tries_startNormalMode operations settings
  · exact tries_startSetupMode operations settings

theorem yields_startNetwork (wifi : WifiConfiguration) (web : WebServerConfig) :
    Yields (startNetwork operations wifi web) (Device.startNetwork operations.toAppCoreOps wifi web) :=
  yields_bind (yields_acquire _ _ _) fun _ => yields_acquire _ _ _

theorem yields_modify_bind {f : StartupState → StartupState} {p : Startup α} {result : Except AppError α}
    (h : Yields p result) : Yields (modify f >>= fun _ => p) result :=
  fun state => h (f state)

theorem yields_startNormalMode (settings : DeviceSettings) :
    Yields (startNormalMode operations settings) (Device.startNormalMode operations.toAppCoreOps settings) := by
  refine yields_bind (yields_acquire _ _ _) fun _ => ?_
  refine yields_bind (yields_acquire _ _ _) fun _ => ?_
  refine yields_bind (yields_acquire _ _ _) fun _ => ?_
  refine yields_bind (yields_acquire _ _ _) fun _ => ?_
  exact yields_modify_bind (yields_startNetwork operations _ _)

theorem yields_startSetupMode (settings : DeviceSettings) :
    Yields (startSetupMode operations settings) (Device.startSetupMode operations.toAppCoreOps settings) := by
  refine yields_modify_bind (yields_bind (yields_acquire _ _ _) fun _ => ?_)
  refine yields_bind (yields_obtain _ _ _ _) fun bootstrap => ?_
  refine yields_bind (yields_obtain _ _ _ _) fun setupCode => ?_
  refine yields_bind (yields_acquire _ _ _) fun _ => ?_
  exact yields_modify_bind (yields_modify_bind (yields_startNetwork operations _ _))

/-- What the stages of the sequence yield, before it is ready. -/
def stagesOutcome (operations : AppCoreOps) : Except AppError Unit := do
  stage operations.setIndicatorBooting
  stage (mapNvsResult operations.nvsInit)
  stage operations.settingsInit
  let settings ← operations.settingsRead
  stage operations.storageMount
  if settings.provisioned then Device.startNormalMode operations settings
  else Device.startSetupMode operations settings

theorem sequenceStart_eq (operations : AppCoreOps) :
    sequenceStart operations = stagesOutcome operations >>= fun _ => stage operations.setIndicatorReady := by
  unfold sequenceStart stagesOutcome
  simp only [bind_assoc]
  refine bind_congr fun _ => bind_congr fun _ => bind_congr fun _ => bind_congr fun settings => bind_congr fun _ => ?_
  split <;> rfl

theorem yields_startStages : Yields (startStages operations) (stagesOutcome operations.toAppCoreOps) := by
  refine yields_bind (yields_setIndicator _ _) fun _ => ?_
  refine yields_bind (yields_acquire _ _ _) fun _ => ?_
  refine yields_bind (yields_acquire _ _ _) fun _ => ?_
  refine yields_bind (yields_obtain _ _ _ _) fun settings => ?_
  refine yields_bind (yields_acquire _ _ _) fun _ => ?_
  split
  · exact yields_startNormalMode operations settings
  · exact yields_startSetupMode operations settings

end Acquisition

section Cleanup

variable {state : StartupState} {bound : Nat}

def due (state : StartupState) (stage : Stage) : Bool :=
  state.owned stage || stage.reports && operations.owns stage

def cleanupOrder : List Stage := [.http, .wifi, .controls, .executor, .usb, .auth, .storage, .settings, .nvs]

def teardownDue (cleanup : OperationResult × StartupState) (stage : Stage) : OperationResult × StartupState :=
  teardownStage operations (fun state => due operations state stage) stage cleanup

theorem cleanupAfterFailure_eq (primaryError : AppError) (state : StartupState) :
    cleanupAfterFailure operations primaryError state =
      ((cleanupOrder.foldl (teardownDue operations)
          (OperationResult.success.recordPrimary primaryError, clearSetupCode state)).1.recordCleanup
          operations.setIndicatorFatal,
        (cleanupOrder.foldl (teardownDue operations)
          (OperationResult.success.recordPrimary primaryError, clearSetupCode state)).2.note (.setIndicator .fatal)) := by
  have howned (stage : Stage) (h : stage.reports = false) :
      teardownOwned operations stage = fun cleanup => teardownDue operations cleanup stage := by
    funext cleanup
    simp only [teardownOwned, teardownDue, due, h, Bool.false_and, Bool.or_false]
  have hreported (stage : Stage) (h : stage.reports = true) :
      teardownReported operations stage = fun cleanup => teardownDue operations cleanup stage := by
    funext cleanup
    simp only [teardownReported, teardownDue, due, h, Bool.true_and]
  simp only [cleanupAfterFailure, cleanupOrder, List.foldl_cons, List.foldl_nil, hreported .http rfl, hreported .wifi rfl,
    howned .controls rfl, howned .executor rfl, howned .usb rfl, howned .auth rfl, hreported .storage rfl,
    howned .settings rfl, howned .nvs rfl]

theorem starts_teardown (stage : Stage) (state : StartupState) : starts (state.note (.teardown stage)).calls = starts state.calls :=
  starts_note (by simp)

theorem tornDown_teardown (stage : Stage) (state : StartupState) :
    tornDown (state.note (.teardown stage)).calls = tornDown state.calls ++ [stage] := by
  rw [StartupState.note, tornDown, List.filterMap_append]
  rfl

theorem due_of_owned {state' : StartupState} {stage : Stage} (h : state'.owned stage = state.owned stage) :
    due operations state' stage = due operations state stage := by
  rw [due, due, h]

theorem foldl_teardownDue (stages : List Stage) (hnodup : stages.Nodup) (cleanup : OperationResult × StartupState) :
    tornDown (stages.foldl (teardownDue operations) cleanup).2.calls =
      tornDown cleanup.2.calls ++ stages.filter (due operations cleanup.2) ∧
    starts (stages.foldl (teardownDue operations) cleanup).2.calls = starts cleanup.2.calls ∧
    (stages.foldl (teardownDue operations) cleanup).2.secrets = cleanup.2.secrets ∧
    (stages.foldl (teardownDue operations) cleanup).1.primaryError = cleanup.1.primaryError := by
  induction stages generalizing cleanup with
  | nil => simp
  | cons stage rest ih =>
    rw [List.foldl_cons]
    have hne := (List.nodup_cons.mp hnodup).1
    obtain ⟨htorn, hstarts, hsecrets, hprimary⟩ := ih (List.nodup_cons.mp hnodup).2 (teardownDue operations cleanup stage)
    by_cases hdue : due operations cleanup.2 stage = true
    · have hstep : teardownDue operations cleanup stage =
          (cleanup.1.recordCleanup (operations.teardown stage),
            { cleanup.2.note (.teardown stage) with
              owned := if operations.teardown stage = .none then Function.update cleanup.2.owned stage false
                else cleanup.2.owned }) := by
        rw [teardownDue, teardownStage, if_neg (not_not.mpr hdue)]
      have hsame : rest.filter (due operations (teardownDue operations cleanup stage).2) =
          rest.filter (due operations cleanup.2) := by
        refine List.filter_congr fun other hother => due_of_owned operations ?_
        have hother : other ≠ stage := fun heq => hne (heq ▸ hother)
        rw [hstep]
        by_cases hnone : operations.teardown stage = .none
        · simp [hnone, hother]
        · simp [hnone]
      refine ⟨?_, ?_, ?_, ?_⟩
      · rw [htorn, hsame, List.filter_cons_of_pos hdue, hstep]
        change tornDown (cleanup.2.note (.teardown stage)).calls ++ _ = _
        rw [tornDown_teardown, List.append_assoc, List.singleton_append]
      · rw [hstarts, hstep]
        exact starts_teardown stage cleanup.2
      · rw [hsecrets, hstep]
        rfl
      · rw [hprimary, hstep]
        simp only [OperationResult.recordCleanup]
        split <;> rfl
    · have hstep : teardownDue operations cleanup stage = cleanup := by
        rw [teardownDue, teardownStage, if_pos hdue]
      rw [hstep] at htorn hstarts hsecrets hprimary ⊢
      rw [List.filter_cons_of_neg hdue]
      exact ⟨htorn, hstarts, hsecrets, hprimary⟩

/-- What the cleanup leaves. -/
theorem finishFailure_spec (primaryError : AppError) (state : StartupState) :
    (finishFailure operations primaryError state).1 = primaryError ∧
    (finishFailure operations primaryError state).2.secrets = state.secrets ∧
    starts (finishFailure operations primaryError state).2.calls = starts state.calls ∧
    tornDown (finishFailure operations primaryError state).2.calls =
      tornDown state.calls ++ [Stage.setupCode].filter (due operations state) ++
        cleanupOrder.filter (due operations state) := by
  obtain ⟨htorn, hstarts, hsecrets, hprimary⟩ := foldl_teardownDue operations cleanupOrder (by decide)
    (OperationResult.success.recordPrimary primaryError, clearSetupCode state)
  have hclear : (clearSetupCode state).secrets = state.secrets ∧ starts (clearSetupCode state).calls = starts state.calls ∧
      tornDown (clearSetupCode state).calls = tornDown state.calls ++ [Stage.setupCode].filter (due operations state) ∧
      ∀ stage ∈ cleanupOrder, due operations (clearSetupCode state) stage = due operations state stage := by
    have hdue : due operations state .setupCode = state.owned .setupCode := by
      simp [due, Stage.reports]
    unfold clearSetupCode
    split
    next howned =>
      refine ⟨rfl, starts_teardown _ _, ?_, fun stage hstage => due_of_owned operations ?_⟩
      · rw [List.filter_cons_of_pos (by rw [hdue, howned]), List.filter_nil]
        exact tornDown_teardown _ _
      · have hne : stage ≠ .setupCode := by
          rintro rfl
          exact absurd hstage (by decide)
        simp [hne]
    next howned =>
      refine ⟨rfl, rfl, ?_, fun _ _ => rfl⟩
      rw [List.filter_cons_of_neg (by rw [hdue]; exact howned), List.filter_nil, List.append_nil]
  have hresult : (OperationResult.success.recordPrimary primaryError).primaryError = primaryError := by
    by_cases hnone : primaryError = .none <;> simp [OperationResult.recordPrimary, OperationResult.success, hnone]
  have hrecord (result : OperationResult) (error : AppError) : (result.recordCleanup error).primaryError = result.primaryError := by
    unfold OperationResult.recordCleanup
    split <;> rfl
  have hfinal : ∀ final : OperationResult × StartupState,
      (if final.1.cleanupIncomplete then
        final.2.note (.log (.cleanupFailed final.1.primaryError final.1.cleanupError)) else final.2).secrets = final.2.secrets ∧
      starts (if final.1.cleanupIncomplete then
        final.2.note (.log (.cleanupFailed final.1.primaryError final.1.cleanupError)) else final.2).calls = starts final.2.calls ∧
      tornDown (if final.1.cleanupIncomplete then
        final.2.note (.log (.cleanupFailed final.1.primaryError final.1.cleanupError)) else final.2).calls =
          tornDown final.2.calls := by
    intro final
    split
    · exact ⟨rfl, starts_note (by simp), tornDown_note (by simp)⟩
    · exact ⟨rfl, rfl, rfl⟩
  obtain ⟨hfinalSecrets, hfinalStarts, hfinalTorn⟩ := hfinal (cleanupAfterFailure operations primaryError state)
  refine ⟨?_, hfinalSecrets.trans ?_, hfinalStarts.trans ?_, hfinalTorn.trans ?_⟩
  · rw [finishFailure, cleanupAfterFailure_eq]
    simp only [hrecord, hprimary, hresult]
  · rw [cleanupAfterFailure_eq]
    exact hsecrets.trans hclear.1
  · rw [cleanupAfterFailure_eq]
    exact (starts_note (by simp)).trans (hstarts.trans hclear.2.1)
  · rw [cleanupAfterFailure_eq]
    refine (tornDown_note (by simp)).trans (htorn.trans ?_)
    rw [hclear.2.2.1, List.filter_congr hclear.2.2.2]

theorem startOrder_pairwise : startOrder.Pairwise Earlier := by
  unfold Earlier
  decide

theorem mem_startOrder (stage : Stage) : stage ∈ startOrder := by
  cases stage <;> decide

theorem mem_claimed_iff (h : Acquired bound state) (stage : Stage) :
    stage ∈ claimed operations state.calls ↔ due operations state stage = true := by
  rw [claimed, List.mem_filter, and_iff_right (mem_startOrder stage), due, Bool.or_eq_true, Bool.or_eq_true, decide_eq_true_eq,
    h.owned]

theorem claimed_pairwise (calls : List Call) : (claimed operations calls).Pairwise Earlier :=
  startOrder_pairwise.filter _

theorem unwound_of_finishFailure (h : Acquired bound state) (primaryError : AppError) :
    Unwound operations (finishFailure operations primaryError state).2.calls := by
  obtain ⟨-, -, hstarts, htorn⟩ := finishFailure_spec operations primaryError state
  have hclaimed : claimed operations (finishFailure operations primaryError state).2.calls = claimed operations state.calls := by
    rw [claimed, claimed, hstarts]
  have hpairwise := claimed_pairwise operations state.calls
  have hsetup : [Stage.setupCode].filter (due operations state) =
      (claimed operations state.calls).filter (· = .setupCode) := by
    refine List.Pairwise.eq_of_mem_iff (r := Earlier) ((List.pairwise_singleton _ _).filter _) (hpairwise.filter _)
      fun stage => ?_
    rw [List.mem_filter, List.mem_filter, mem_claimed_iff operations h, List.mem_singleton, decide_eq_true_eq, and_comm]
  have hothers : cleanupOrder.reverse.filter (due operations state) =
      (claimed operations state.calls).filter (· ≠ .setupCode) := by
    have horder : cleanupOrder.reverse.Pairwise Earlier := by
      unfold Earlier
      decide
    refine List.Pairwise.eq_of_mem_iff (r := Earlier) (horder.filter _) (hpairwise.filter _) fun stage => ?_
    rw [List.mem_filter, List.mem_filter, mem_claimed_iff operations h, decide_eq_true_eq, and_comm]
    have hall : stage ∈ cleanupOrder.reverse ↔ stage ≠ .setupCode := by
      cases stage <;> decide
    rw [hall]
  have htorn : tornDown (finishFailure operations primaryError state).2.calls =
      (claimed operations state.calls).filter (· = .setupCode) ++
        ((claimed operations state.calls).filter (· ≠ .setupCode)).reverse := by
    rw [htorn, h.untorn, List.nil_append, hsetup, ← hothers, ← List.filter_reverse, List.reverse_reverse]
  refine ⟨by rw [hstarts]; exact h.ordered, ?_, by rw [hclaimed]; exact htorn⟩
  rw [htorn]
  refine List.Nodup.append (hpairwise.nodup.filter _) (List.nodup_reverse.mpr (hpairwise.nodup.filter _)) ?_
  intro stage hfirst hothers
  have hsame := (List.mem_filter.mp hfirst).2
  have hne := (List.mem_filter.mp (List.mem_reverse.mp hothers)).2
  exact of_decide_eq_true hne (of_decide_eq_true hsame)

end Cleanup

theorem acquired_initial : Acquired 0 .initial where
  ordered := List.Pairwise.nil
  below := fun start hstart => by cases hstart
  owned := fun stage => by simp [StartupState.initial, starts]
  untorn := rfl

/-- What the sequence returns for what its stages yield. -/
def SequenceOutcome (outcome : Except AppError Unit × StartupState) : Prop :=
  outcome.2.secrets = .zero ∧
    match outcome.1 with
    | .ok _ => tornDown outcome.2.calls = []
    | .error _ => Unwound operations outcome.2.calls

theorem finishStart_spec {bound : Nat} {state : StartupState} (h : Acquired bound state) :
    (finishStart operations state).1 = stage operations.setIndicatorReady ∧
    SequenceOutcome operations (finishStart operations state) := by
  have hclear : Acquired bound (clearStartupSecrets state) := h.same rfl (starts_note (by simp)) (tornDown_note (by simp))
  have hready := tries_setIndicator .ready operations.setIndicatorReady (clearStartupSecrets state) hclear
  have hsecrets : (setIndicator .ready operations.setIndicatorReady (clearStartupSecrets state)).2.secrets = .zero := by
    rw [setIndicator, bind_apply]
    by_cases hnone : operations.setIndicatorReady = .none <;> simp [hnone] <;> rfl
  rw [← yields_setIndicator .ready operations.setIndicatorReady (clearStartupSecrets state)]
  unfold finishStart
  revert hready hsecrets
  rcases setIndicator .ready operations.setIndicatorReady (clearStartupSecrets state) with ⟨error | value, state'⟩
  · rintro ⟨bound', hacquired⟩ hzero
    obtain ⟨hresult, hsame, -, -⟩ := finishFailure_spec operations error state'
    exact ⟨congrArg Except.error hresult, hsame.trans hzero, unwound_of_finishFailure operations hacquired error⟩
  · intro hacquired hzero
    exact ⟨rfl, hzero, hacquired.untorn⟩

/-- In whatever stage the sequence fails, it returns the error of that stage, its
memory holds no secret, and every stage that was acquired, or reports that it owns
resources, is torn down once and in reverse order, but for the setup code, which
goes first. -/
theorem startup_unwinds : (appCoreSequenceStart operations).1 = sequenceStart operations.toAppCoreOps ∧
    SequenceOutcome operations (appCoreSequenceStart operations) := by
  have htries := tries_startStages operations .initial acquired_initial
  rw [sequenceStart_eq, ← yields_startStages operations .initial]
  unfold appCoreSequenceStart
  revert htries
  rcases startStages operations .initial with ⟨error | value, state⟩
  · rintro ⟨bound, hacquired⟩
    have hclear : Acquired bound (clearStartupSecrets state) := hacquired.same rfl (starts_note (by simp)) (tornDown_note (by simp))
    obtain ⟨hresult, hsecrets, -, -⟩ := finishFailure_spec operations error (clearStartupSecrets state)
    exact ⟨congrArg Except.error hresult, hsecrets, unwound_of_finishFailure operations hclear error⟩
  · intro hacquired
    exact finishStart_spec operations hacquired

/-- A device in setup mode whose web server does not start. -/
def webServerFails : StartupOps where
  setIndicatorBooting := .none
  nvsInit := .ok
  settingsInit := .none
  settingsRead := .ok .zero
  storageMount := .none
  authInit := .none
  usbInit := .none
  executorInit := .none
  controlsInit := .none
  bootstrapDerive := .ok ⟨[], [], []⟩
  setupCodeGenerate := .ok (MacroKeyboard.bytes "12345678")
  setupCodePublish := .none
  wifiStart := fun _ => .none
  httpStart := fun _ => .internal
  setIndicatorReady := .none
  owns := fun _ => false
  teardown := fun _ => .none
  setIndicatorFatal := .none

/-- A device whose settings cannot be initialized and whose storage is mounted. -/
def settingsFail : StartupOps where
  toAppCoreOps := { webServerFails.toAppCoreOps with settingsInit := .storageUnavailable }
  owns := (· = .storage)
  teardown := fun _ => .none
  setIndicatorFatal := .none

def claimedWhenTried (calls : List Call) : List Stage :=
  ((starts calls).filter (fun start => start.2 = .none || start.1.reports && operations.owns start.1)).map Prod.fst

/-- The setup code is published before the access point starts, and forgotten
before it stops; and storage that was not tried is unmounted. -/
theorem setupCode_out_of_order :
    (¬ ∀ operations, (sequenceStart operations.toAppCoreOps).isOk = false →
      (∀ stage, operations.owns stage = false) →
      tornDown (appCoreSequenceStart operations).2.calls =
        (claimedWhenTried operations (appCoreSequenceStart operations).2.calls).reverse) ∧
    ¬ ∀ operations, (sequenceStart operations.toAppCoreOps).isOk = false →
      ∀ stage ∈ tornDown (appCoreSequenceStart operations).2.calls,
        stage ∈ claimedWhenTried operations (appCoreSequenceStart operations).2.calls := by
  constructor
  · intro h
    exact absurd (h webServerFails (by decide +kernel) fun _ => rfl) (by decide +kernel)
  · intro h
    exact absurd (h settingsFail (by decide +kernel) .storage (by decide +kernel)) (by decide +kernel)

end MacroKeyboard.Device.Unwinding
