import MacroKeyboard.Device.Effects
import MacroKeyboard.Device.Runs
import MacroKeyboard.Threads.Monitor

namespace MacroKeyboard.Device.LostUpdates

open Settings Settings.Coherence Settings.Frame Auth Codec Records.PaddedText Threads.Program Threads.Monitor Runs

def historyOf (device : DeviceState) : List SettingsWrite := writesOf (device.past ++ device.log)

def Overwrites (write : SettingsWrite) (field : SettingsField) : Prop :=
  write.names field = true ∧ (write.error = .none ∨ write.after ≠ write.before)

/-- What every successful write asked to store is stored, in each field that it
names and no later write overwrites. -/
def UpdatesPresent (writes : List SettingsWrite) (stored : Option DeviceSettings) : Prop :=
  ∀ front write back field, writes = front ++ write :: back → write.error = .none → write.names field = true →
    (∀ later ∈ back, ¬ Overwrites later field) →
    ∃ target current, write.target = some target ∧ stored = some current ∧ SameField field current target

/-- A write of settings that were read before finds them unchanged, in the fields
that it does not name. -/
def Fresh (write : SettingsWrite) : Prop :=
  ∀ current, write.read = some current → ∀ field, write.names field = false →
    ∃ before, write.before = some before ∧ SameField field current before

structure Retained (device : DeviceState) : Prop where
  coherent : Coherent device.settings
  present : (∀ write ∈ historyOf device, Fresh write) →
    UpdatesPresent (historyOf device) device.stored

theorem kept_of_boots {record : Option (List UInt8)} {device : DeviceState} (h : Boots record device)
    (hpresent : (∀ write ∈ writesOf device.past, Fresh write) →
      UpdatesPresent (writesOf device.past) (storedSettings record)) : Retained device := by
  obtain ⟨hcoherent, hrecord, -⟩ := h.coherent
  refine ⟨hcoherent, ?_⟩
  rw [historyOf, h.log, List.append_nil, DeviceState.stored, hrecord]
  exact hpresent

theorem kept_step (before after : DeviceState) (h : Effective Quiet before after) (hbefore : Retained before) : Retained after := by
  have hpast := h.past
  cases h.effect with
  | kept hrecord hcoherent hwrites =>
    refine ⟨hcoherent hbefore.coherent, ?_⟩
    have hsame : historyOf after = historyOf before := by
      rw [historyOf, historyOf, writesOf_append, writesOf_append, hpast, hwrites]
    rw [hsame, DeviceState.stored, hrecord]
    exact hbefore.present
  | @wrote names read operation calls hproper hsettings hlog =>
    have hstored : after.stored = (deviceSettingsWrite names read operation calls before).2.stored := by
      rw [DeviceState.stored, DeviceState.stored, hsettings]
    refine ⟨?_, fun hfresh => ?_⟩
    · rw [hsettings]
      exact (truthful_perform calls.store _ hbefore.coherent).coherent
    have hwrites : historyOf after = historyOf before ++ [settingsWrite names read operation calls before] := by
      rw [historyOf, hpast, hlog]
      simp only [deviceSettingsWrite, DeviceState.note]
      rw [← List.append_assoc, writesOf_append]
      rfl
    rw [hwrites] at hfresh ⊢
    have hearlier := hbefore.present fun write hwrite => hfresh write (List.mem_append_left _ hwrite)
    have hlast := hfresh _ (List.mem_append_right _ (List.mem_singleton.mpr rfl))
    intro front write back field hsplit hnone hnames hlater
    rcases append_singleton_eq.mp hsplit with ⟨rfl, rfl, rfl⟩ | ⟨middle, rfl, hfront⟩
    · obtain ⟨target, current, htarget, hcurrent, hsame⟩ :=
        stored_success calls hproper hbefore.coherent hnone field
      exact ⟨target, current, htarget, by rw [hstored, hcurrent], hsame⟩
    · obtain ⟨target, current, htarget, hcurrent, hsame⟩ := hearlier front write middle field hfront hnone hnames
        fun later hmem => hlater later (List.mem_append_left _ hmem)
      have hnot := hlater _ (List.mem_append_right _ (List.mem_singleton.mpr rfl))
      cases hnamed : names field with
      | true =>
        have hunchanged : after.stored = before.stored := by
          by_contra hchanged
          exact hnot ⟨hnamed, Or.inr (by rw [hstored] at hchanged; exact hchanged)⟩
        exact ⟨target, current, htarget, by rw [hunchanged, hcurrent], hsame⟩
      | false =>
        obtain ⟨stored, hafter, hunnamed⟩ := stored_unnamed calls hproper hbefore.coherent hnamed hcurrent
          fun settings hread => by
            obtain ⟨found, hfound, hfield⟩ := hlast settings hread field hnamed
            have hfound : before.stored = some found := hfound
            rw [hcurrent, Option.some.injEq] at hfound
            rwa [hfound]
        exact ⟨target, stored, htarget, by rw [hstored, hafter], sameField_trans hunnamed hsame⟩

theorem kept_of_run {derive : Derivation} {c : Config DeviceState Surroundings} (h : DeviceRun derive c) :
    Retained c.state := by
  refine invariant_of_effects kept_step (fun device hstarted => ?_) (fun before after hr hbefore => ?_) h
  · obtain ⟨record, hboots⟩ := hstarted.boots
    refine kept_of_boots hboots fun _ front write back field hsplit => ?_
    rw [hstarted.past] at hsplit
    simp [writesOf] at hsplit
  · refine kept_of_boots hr.boots ?_
    rw [hr.past]
    exact hbefore.present

/-- In every run in which each write of settings that were read before finds them
unchanged in the fields that it does not name, every update that reported success
is stored, in each field that it names and no later write overwrites. -/
theorem no_lost_update {derive : Derivation} {c : Config DeviceState Surroundings} (h : DeviceRun derive c)
    (hfresh : ∀ write ∈ historyOf c.state, Fresh write) :
    UpdatesPresent (historyOf c.state) c.state.stored :=
  (kept_of_run h).present hfresh

def deviceNameUpdate : Surroundings :=
  serving (.api zeroToken (.settingsPut ⟨some (MacroKeyboard.bytes "desk"), none, none, none, none, none⟩))

def passphraseCommand : Surroundings := commanding (.setApPassphrase (MacroKeyboard.bytes "a new passphrase"))

/-- A login, and an update with the console's new passphrase before so many of its
steps. -/
def interruptedUpdate (before : Nat) : Config DeviceState Surroundings :=
  deviceRun firstByteDerivation runningStore
    (steps 0 13 (serving (.login 1 (passwordOfByte 1))) ++ steps 0 before deviceNameUpdate ++
      steps 2 3 passphraseCommand ++ steps 0 (12 - before) deviceNameUpdate)

/-- The new passphrase comes before the update reads the settings. -/
theorem no_lost_update_uninterrupted :
    UpdatesPresent (historyOf (interruptedUpdate 8).state) (interruptedUpdate 8).state.stored := by
  refine @no_lost_update firstByteDerivation (interruptedUpdate 8)
    (deviceRun_run started_running _) fun write hwrite current hread field _ => ?_
  have hfound : (historyOf (interruptedUpdate 8).state).all (fun write =>
      write.read = none ∨ write.read.map Codec.canonical = write.before.map Codec.canonical) = true := by
    decide +kernel
  have hwrite := of_decide_eq_true (List.all_eq_true.mp hfound write hwrite)
  rw [hread] at hwrite
  rcases hwrite with hnone | hsame
  · cases hnone
  · obtain ⟨before, hbefore, hcanonical⟩ := Option.map_eq_some_iff.mp hsame.symm
    refine ⟨before, hbefore, sameField_of_same ?_ field⟩
    exact (sameSettings_canonical current).symm.trans (by rw [← hcanonical]; exact sameSettings_canonical before)

def passphraseOf (settings : Option DeviceSettings) : Option (List UInt8) :=
  settings.map (fun settings => textOf settings.apPassphrase.bytes)

/-- The new passphrase comes between the read and the replacement of an update of
the device name, which stores the old one again. -/
theorem stale_update_reverts : ¬ ∀ derive (c : Config DeviceState Surroundings), DeviceRun derive c →
    UpdatesPresent (historyOf c.state) c.state.stored := by
  intro h
  have hpresent := h firstByteDerivation (interruptedUpdate 9) (deviceRun_run started_running _)
  have hwrites : (historyOf (interruptedUpdate 9).state).map
      (fun write => (write.error, write.names .accessPointPassphrase, passphraseOf write.target)) =
      [(.none, true, some (MacroKeyboard.bytes "a new passphrase")),
        (.none, false, some (MacroKeyboard.bytes "123456789012"))] := by decide +kernel
  have hstored : passphraseOf (interruptedUpdate 9).state.stored = some (MacroKeyboard.bytes "123456789012") := by
    decide +kernel
  generalize historyOf (interruptedUpdate 9).state = writes at hpresent hwrites
  obtain ⟨passphrase, rest, rfl, hpassphrase, hrest⟩ := List.map_eq_cons_iff.mp hwrites
  obtain ⟨name, rest, rfl, hname, hrest⟩ := List.map_eq_cons_iff.mp hrest
  rw [List.map_eq_nil_iff.mp hrest] at hpresent
  simp only [Prod.mk.injEq] at hpassphrase hname
  obtain ⟨herror, hnames, htargets⟩ := hpassphrase
  obtain ⟨target, current, htarget, hcurrent, hsame⟩ := hpresent [] passphrase [name] .accessPointPassphrase rfl
    herror hnames fun later hlater hoverwrites => by
      have hnamed := hoverwrites.1
      rw [List.mem_singleton.mp hlater, hname.2.1] at hnamed
      cases hnamed
  rw [htarget] at htargets
  rw [hcurrent] at hstored
  simp only [passphraseOf, Option.map_some, Option.some.injEq] at htargets hstored
  rw [SameField, htargets, hstored] at hsame
  exact absurd hsame (by decide)

end MacroKeyboard.Device.LostUpdates
