import MacroKeyboard.AccessPoint.Engine
import MacroKeyboard.Threads.Alone

namespace MacroKeyboard.AccessPoint

open Device Threads.Program Threads.Alone

/-- The engine as the startup has it, without the count of clients. -/
def World.engine (world : World) : WifiApEngine where
  state := world.status.state
  lastError := world.status.lastError
  cleanupError := world.status.cleanupError
  netifCreated := world.caller.flags.netifCreated
  wifiInitialized := world.caller.flags.wifiInitialized
  handlerRegistered := world.caller.flags.handlerRegistered
  wifiStarted := world.caller.flags.wifiStarted

def holding (resource : Resource) (engine : WifiApEngine) : WifiApEngine :=
  match resource with
  | .netif => { engine with netifCreated := true }
  | .wifi => { engine with wifiInitialized := true }
  | .handler => { engine with handlerRegistered := true }
  | .running => { engine with wifiStarted := true }

/-- The program can do to the engine, by itself, what the function does. -/
def Simulates (p : ApProg AppError) (f : WifiApEngine → AppError × WifiApEngine) : Prop :=
  ∀ world, ∃ after, Runs p world (f world.engine).1 after ∧ after.engine = (f world.engine).2

section Cleanup

theorem set_holds (flags : Ownership) (resource : Resource) : flags.set resource (flags.holds resource) = flags := by
  cases resource <;> rfl

theorem runs_releaseHeld (driver : WifiDriver) (resource : Resource) (firstError : AppError) (world : World) :
    ∃ after, Runs (releaseHeld resource firstError) world
        (releaseResource firstError (world.caller.flags.holds resource) (releaseCall driver resource)).1 after ∧
      after.status = world.status ∧ after.caller.flags = world.caller.flags.set resource
        (releaseResource firstError (world.caller.flags.holds resource) (releaseCall driver resource)).2 := by
  have hruns := runs_atomic (fun driver world =>
    if world.caller.flags.holds resource then
      (recordFirstError (releaseCall driver resource) firstError,
        { world with caller := world.caller.released resource (releaseCall driver resource) })
    else (firstError, world)) driver world
  unfold releaseResource
  by_cases hheld : world.caller.flags.holds resource = true
  · rw [if_pos hheld]
    simp only [if_pos hheld] at hruns
    have hfirst : recordFirstError (releaseCall driver resource) firstError =
        if firstError = .none then releaseCall driver resource else firstError := by
      unfold recordFirstError
      by_cases hnone : releaseCall driver resource = .none
      · rw [hnone]
        split_ifs with h₁ h₂ h₂
        · exact absurd rfl h₁.1
        · exact absurd rfl h₁.1
        · exact h₂
        · rfl
      · simp [hnone]
    rw [hfirst] at hruns
    refine ⟨_, hruns, rfl, ?_⟩
    by_cases hnone : releaseCall driver resource = .none
    · simp [CallerState.released, hnone]
    · simp only [CallerState.released, if_neg hnone]
      rw [decide_eq_true hnone, ← hheld, set_holds]
  · rw [if_neg hheld]
    simp only [if_neg hheld] at hruns
    refine ⟨world, hruns, rfl, ?_⟩
    rw [Bool.not_eq_true] at hheld
    exact (hheld ▸ (set_holds world.caller.flags resource)).symm

theorem simulates_cleanupResources (driver : WifiDriver) :
    Simulates cleanupResources (fun engine => engine.cleanupResources driver) := by
  intro world
  obtain ⟨stopped, hstopped, hstatus₁, hflags₁⟩ := runs_releaseHeld driver .running .none world
  have hhandler : stopped.caller.flags.holds .handler = world.caller.flags.handlerRegistered := by rw [hflags₁]; rfl
  obtain ⟨unregistered, hunregistered, hstatus₂, hflags₂⟩ := runs_releaseHeld driver .handler _ stopped
  rw [hhandler] at hunregistered hflags₂
  have hwifi : unregistered.caller.flags.holds .wifi = world.caller.flags.wifiInitialized := by rw [hflags₂, hflags₁]; rfl
  obtain ⟨deinitialized, hdeinitialized, hstatus₃, hflags₃⟩ := runs_releaseHeld driver .wifi _ unregistered
  rw [hwifi] at hdeinitialized hflags₃
  have hnetif : deinitialized.caller.flags.holds .netif = world.caller.flags.netifCreated := by
    rw [hflags₃, hflags₂, hflags₁]
    rfl
  obtain ⟨destroyed, hdestroyed, hstatus₄, hflags₄⟩ := runs_releaseHeld driver .netif _ deinitialized
  rw [hnetif] at hdestroyed hflags₄
  refine ⟨destroyed, hstopped.bind (hunregistered.bind (hdeinitialized.bind (hdestroyed.bind (.ret _ _)))), ?_⟩
  unfold World.engine
  rw [hstatus₄, hstatus₃, hstatus₂, hstatus₁, hflags₄, hflags₃, hflags₂, hflags₁]
  rfl

theorem simulates_failStart (driver : WifiDriver) (original : AppError) :
    Simulates (failStart original) (fun engine => engine.failStart driver original) := by
  intro world
  obtain ⟨cleaned, hcleaned, hengine⟩ := simulates_cleanupResources driver world
  refine ⟨{ cleaned with status := ⟨.error, 0, original, (world.engine.cleanupResources driver).1⟩ }, ?_, ?_⟩
  · exact hcleaned.bind ((runs_atomic _ driver cleaned).bind (.ret _ _))
  · dsimp only [WifiApEngine.failStart] at hengine ⊢
    rw [← hengine]
    rfl

/-- A call that leaves the engine as `mark` says before it is known to have worked, and as
`hold` says once it has. -/
theorem simulates_orFail (driver : WifiDriver) (mark hold : WifiApEngine → WifiApEngine) {p rest : ApProg AppError}
    {f : WifiApEngine → AppError × WifiApEngine} {result : AppError}
    (hp : Simulates p (fun engine => (result, if result = .none then hold (mark engine) else mark engine)))
    (hrest : Simulates rest f) :
    Simulates (orFail p rest) (fun engine =>
      WifiApEngine.call driver result (mark engine) (fun engine => f (hold engine))) := by
  intro world
  obtain ⟨called, hcalled, hengine⟩ := hp world
  dsimp only [WifiApEngine.call] at hengine ⊢
  by_cases hnone : result = .none
  · rw [if_neg (not_not.mpr hnone)]
    rw [if_pos hnone] at hengine
    obtain ⟨after, hafter, hdone⟩ := hrest called
    rw [hengine] at hafter hdone
    refine ⟨after, hcalled.bind ?_, hdone⟩
    rw [if_neg (not_not.mpr hnone)]
    exact hafter
  · rw [if_pos hnone]
    rw [if_neg hnone] at hengine
    obtain ⟨after, hafter, hdone⟩ := simulates_failStart driver result called
    rw [hengine] at hafter hdone
    refine ⟨after, hcalled.bind ?_, hdone⟩
    rw [if_pos hnone]
    exact hafter

end Cleanup

section Start

theorem simulates_ask (driver : WifiDriver) (call : WifiDriver → AppError) :
    Simulates (Prog.ask call) (fun engine => (call driver, if call driver = .none then engine else engine)) := by
  intro world
  exact ⟨world, runs_ask call driver world, (ite_self _).symm⟩

/-- What is acquired is held when its call has worked, but for what runs, which is held
from before its call on. -/
theorem simulates_acquire (driver : WifiDriver) (resource : Resource) (call : WifiDriver → AppError)
    (hresource : resource ≠ .running) :
    Simulates (acquire resource call) (fun engine =>
      (call driver, if call driver = .none then holding resource engine else engine)) := by
  intro world
  refine ⟨_, runs_atomic _ driver world, ?_⟩
  unfold CallerState.acquired heldAfterAcquire World.engine
  by_cases hnone : call driver = .none
  · cases resource <;> simp [hnone, holding, Ownership.set]
  · simp [hnone, hresource]

theorem simulates_acquireRunning (driver : WifiDriver) (call : WifiDriver → AppError) :
    Simulates (acquire .running call) (fun engine =>
      (call driver, if call driver = .none then holding .running engine else holding .running engine)) := by
  intro world
  exact ⟨_, runs_atomic _ driver world, (ite_self _).symm⟩

theorem simulates_bringUp (driver : WifiDriver) (configuration : WifiApRuntimeConfig) :
    Simulates (bringUp configuration) (fun engine =>
    WifiApEngine.call driver driver.netifInit engine fun engine =>
    WifiApEngine.call driver (if driver.eventLoopCreate = .failed then .internal else .none) engine fun engine =>
    WifiApEngine.call driver driver.netifCreate engine fun engine =>
    WifiApEngine.call driver driver.wifiInit (holding .netif engine) fun engine =>
    WifiApEngine.call driver driver.handlerRegister (holding .wifi engine) fun engine =>
    WifiApEngine.call driver driver.setModeAp (holding .handler engine) fun engine =>
    WifiApEngine.call driver (driver.setConfig configuration) engine fun engine =>
    WifiApEngine.call driver driver.wifiStart (holding .running engine) fun engine => (.none, engine)) := by
  have hend : Simulates (pure .none) (fun engine => (.none, engine)) := fun world => ⟨world, .ret _ _, rfl⟩
  have hstart := simulates_orFail driver (holding .running) id (simulates_acquireRunning driver (·.wifiStart)) hend
  have hconfig := simulates_orFail driver id id (simulates_ask driver (·.setConfig configuration)) hstart
  have hmode := simulates_orFail driver id id (simulates_ask driver (·.setModeAp)) hconfig
  have hhandler := simulates_orFail driver id (holding .handler)
    (simulates_acquire driver .handler (·.handlerRegister) (by decide)) hmode
  have hwifi := simulates_orFail driver id (holding .wifi) (simulates_acquire driver .wifi (·.wifiInit) (by decide)) hhandler
  have hnetif := simulates_orFail driver id (holding .netif)
    (simulates_acquire driver .netif (·.netifCreate) (by decide)) hwifi
  have hloop := simulates_orFail driver id id (simulates_ask driver (fun driver =>
    if driver.eventLoopCreate = .failed then .internal else .none)) hnetif
  exact simulates_orFail driver id id (simulates_ask driver (·.netifInit)) hloop

/-- The start of the startup is the start of the engine with nothing beside it. -/
theorem wifiApEngineStart_runs (driver : WifiDriver) (ssid passphrase : List UInt8) :
    Simulates (wifiApEngineStart ssid passphrase) (fun engine => engine.start driver ssid passphrase) := by
  intro world
  have hread := runs_read (fun world : World => world.status) driver world
  have howned := runs_read (fun world : World => world.caller.flags.ownsResources) driver world
  have hconflict : (world.status.state ≠ .stopped ∨ world.caller.flags.ownsResources = true) ↔
      (world.engine.state ≠ .stopped ∨ world.engine.netifCreated = true ∨ world.engine.wifiInitialized = true ∨
        world.engine.handlerRegistered = true ∨ world.engine.wifiStarted = true) := by
    simp only [World.engine, Ownership.ownsResources, Bool.or_eq_true, or_assoc]
  dsimp only [WifiApEngine.start]
  by_cases hbusy : world.status.state ≠ .stopped ∨ world.caller.flags.ownsResources = true
  · rw [if_pos (hconflict.mp hbusy)]
    refine ⟨world, hread.bind (howned.bind ?_), rfl⟩
    rw [if_pos hbusy]
    exact .ret _ _
  · rw [if_neg (fun h => hbusy (hconflict.mpr h))]
    cases hconfiguration : makeConfiguration ssid passphrase with
    | error result =>
      refine ⟨world, hread.bind (howned.bind ?_), rfl⟩
      rw [if_neg hbusy, hconfiguration]
      exact .ret _ _
    | ok configuration =>
      obtain ⟨after, hafter, hengine⟩ := simulates_bringUp driver configuration
        { world with status := ⟨.starting, 0, .none, .none⟩, caller := { world.caller with accepted := true } }
      refine ⟨after, hread.bind (howned.bind ?_), hengine⟩
      rw [if_neg hbusy, hconfiguration]
      exact (runs_atomic _ driver world).bind hafter

end Start

end MacroKeyboard.AccessPoint
