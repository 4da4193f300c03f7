import PmuFirmware.Lib.Run
import PmuFirmware.Lib.CString

/-!
# The credentials of the Wi-Fi

The main loop compares the credentials of the configuration with local copies and takes them over where
they differ. The driver is given them once, when the Wi-Fi is initialised; later the station is only
disconnected and connected again. The copy of the network's name has room for 31 bytes, one less than a
name can have.
-/

namespace Pmu

open CLib

structure Credentials where
  ssid : CStr
  password : CStr
  deriving DecidableEq

namespace Credentials

/-- `strncpy` to `wifi_ssid` and `wifi_password`, with a zero in the last byte of each. -/
def copied (c : Credentials) : Credentials := ⟨c.ssid.take 31, c.password.take 63⟩

/-- `strncpy` to the configuration of the station, which needs no zero at the end. -/
def programmed (c : Credentials) : Credentials := ⟨c.ssid.take 32, c.password.take 64⟩

/-- The lengths that a network allows. -/
structure Allowed (c : Credentials) : Prop where
  ssid : 1 ≤ c.ssid.length ∧ c.ssid.length ≤ 32
  password : 1 ≤ c.password.length ∧ c.password.length ≤ 63

/-- `strlen(..) != 0` of both -/
def Given (c : Credentials) : Prop := c.ssid ≠ [] ∧ c.password ≠ []

instance (c : Credentials) : Decidable c.Given := inferInstanceAs (Decidable (_ ∧ _))

theorem Allowed.given {c : Credentials} (h : c.Allowed) : c.Given :=
  ⟨List.ne_nil_of_length_pos h.ssid.1, List.ne_nil_of_length_pos h.password.1⟩

end Credentials

/-- The credentials in `chargerConfigMQTT` with `receivedConfigDataMQTT`, the globals of the main loop,
the station configuration last given to `esp_wifi_set_config`, and the number of calls of
`esp_wifi_disconnect`. -/
structure WifiStation where
  config : Credentials
  receivedConfigDataMQTT : Bool
  wifi : Credentials
  wifiConnected : Bool
  wifiInitialised : Bool
  stationConfig : Option Credentials
  disconnects : Nat

namespace WifiStation

/-- `wifi_init`, which aborts when the event loop exists already. -/
def wifiInit (s : WifiStation) : Option WifiStation :=
  if s.stationConfig = none then some { s with stationConfig := some s.wifi.programmed } else none

/-- The step of the main loop in `app_main`. -/
def wifiStep (s : WifiStation) : Option WifiStation :=
  if s.config.Given ∧ s.wifiConnected = false ∧ s.receivedConfigDataMQTT = true then
    if s.wifi ≠ s.config then
      let s := { s with wifi := s.config.copied }
      if s.wifiInitialised = false then s.wifiInit else some s
    else some s
  else if s.config.Given ∧ s.wifiConnected = true then
    if s.wifi ≠ s.config then
      some { s with disconnects := s.disconnects + 1, wifi := s.config.copied }
    else some s
  else some s

/-- The configuration is copied to `chargerConfigMQTT`, the main loop takes its step, and
`wifi_event_handler` is called. The flag of a complete configuration is never taken back. -/
inductive Event
  | configure (config : Credentials) (complete : Bool)
  | wifiStep
  | staStart
  | staDisconnected
  | staGotIp

/-- The driver reports a start only after it was started. -/
def step : Event → WifiStation → Option WifiStation
  | .configure config complete, s =>
    some { s with
      config := config
      receivedConfigDataMQTT := s.receivedConfigDataMQTT || complete }
  | .wifiStep, s => s.wifiStep
  | .staStart, s => some { s with wifiInitialised := s.wifiInitialised || s.stationConfig.isSome }
  | .staDisconnected, s => some { s with wifiConnected := false }
  | .staGotIp, s => some { s with wifiConnected := true }

def powerOn : WifiStation where
  config := ⟨[], []⟩
  receivedConfigDataMQTT := false
  wifi := ⟨[], []⟩
  wifiConnected := false
  wifiInitialised := false
  stationConfig := none
  disconnects := 0

/-- The step programs the credentials of the configuration, and taken again while connected it does not
disconnect. -/
def Converges (s : WifiStation) : Prop :=
  ∃ s' s'', s.wifiStep = some s' ∧ s'.stationConfig = some s.config
    ∧ ({ s' with wifiConnected := true } : WifiStation).wifiStep = some s''
    ∧ s''.disconnects = s'.disconnects

/-! ### What the driver was given -/

/-- What the driver was given are local copies of a complete configuration, and nothing else starts
it. -/
structure Inv (s : WifiStation) : Prop where
  started : s.wifiInitialised = true → s.stationConfig.isSome = true
  complete : s.stationConfig.isSome = true → s.receivedConfigDataMQTT = true
  copied : ∀ c, s.stationConfig = some c → c.copied = c

theorem powerOn_inv : powerOn.Inv := ⟨fun h => h, fun h => h, fun c hc => by cases hc⟩

theorem copied_copied (c : Credentials) : c.copied.copied = c.copied := by
  simp [Credentials.copied]

theorem programmed_copied (c : Credentials) : c.copied.programmed = c.copied := by
  simp [Credentials.copied, Credentials.programmed]

variable {s s' : WifiStation}

/-- What the step does: it starts the driver, or takes the credentials over, or nothing. -/
theorem wifiStep_cases (h : s.wifiStep = some s') :
    (s' = { s with wifi := s.config.copied, stationConfig := some s.config.copied }
        ∧ s.stationConfig = none ∧ s.receivedConfigDataMQTT = true)
      ∨ (∃ disconnects, s' = { s with wifi := s.config.copied, disconnects := disconnects })
      ∨ s' = s := by
  rw [wifiStep] at h
  dsimp only at h
  split_ifs at h with hoffline hdiffer hinitialised honline hdiffer
  · rw [wifiInit] at h
    split_ifs at h with hnone
    refine .inl ⟨?_, hnone, hoffline.2.2⟩
    rw [← Option.some.inj h, programmed_copied]
  · exact .inr (.inl ⟨s.disconnects, (Option.some.inj h).symm⟩)
  · exact .inr (.inr (Option.some.inj h).symm)
  · exact .inr (.inl ⟨s.disconnects + 1, (Option.some.inj h).symm⟩)
  · exact .inr (.inr (Option.some.inj h).symm)
  · exact .inr (.inr (Option.some.inj h).symm)

theorem Inv.wifiStep (h : s.Inv) (hstep : s.wifiStep = some s') : s'.Inv := by
  obtain ⟨rfl, -, hcomplete⟩ | ⟨disconnects, rfl⟩ | rfl := wifiStep_cases hstep
  · exact ⟨fun _ => rfl, fun _ => hcomplete, fun c hc => Option.some.inj hc ▸ copied_copied s.config⟩
  · exact ⟨h.started, h.complete, h.copied⟩
  · exact h

theorem Inv.step {event : Event} (h : s.Inv) (hstep : WifiStation.step event s = some s') : s'.Inv := by
  cases event with
  | configure config complete =>
      obtain rfl := Option.some.inj hstep
      exact ⟨h.started, fun hsome => by rw [h.complete hsome]; rfl, h.copied⟩
  | wifiStep => exact h.wifiStep hstep
  | staStart =>
      obtain rfl := Option.some.inj hstep
      refine ⟨fun hinitialised => ?_, h.complete, h.copied⟩
      rcases Bool.or_eq_true_iff.mp hinitialised with hbefore | hsome
      · exact h.started hbefore
      · exact hsome
  | staDisconnected =>
      obtain rfl := Option.some.inj hstep
      exact ⟨h.started, h.complete, h.copied⟩
  | staGotIp =>
      obtain rfl := Option.some.inj hstep
      exact ⟨h.started, h.complete, h.copied⟩

theorem Inv.run {events : List Event} (h : s.Inv)
    (hrun : Runs.run WifiStation.step events s = some s') :
    s'.Inv := by
  have hkeep : ∀ event (s s' : WifiStation), s.Inv → True → WifiStation.step event s = some s' →
      s'.Inv := fun _ _ _ hs _ hstep => hs.step hstep
  exact Runs.run_invariant hkeep h (.of_forall fun _ _ _ => trivial) hrun

/-- Once the driver was given credentials it is not given any others. -/
theorem step_stationConfig {event : Event} {c : Credentials} (hc : s.stationConfig = some c)
    (hstep : step event s = some s') : s'.stationConfig = some c := by
  cases event with
  | wifiStep =>
      obtain ⟨-, hnone, -⟩ | ⟨disconnects, rfl⟩ | rfl := wifiStep_cases hstep
      · rw [hc] at hnone
        cases hnone
      · exact hc
      · exact hc
  | configure config complete => exact Option.some.inj hstep ▸ hc
  | staStart => exact Option.some.inj hstep ▸ hc
  | staDisconnected => exact Option.some.inj hstep ▸ hc
  | staGotIp => exact Option.some.inj hstep ▸ hc

theorem step_wifiInitialised {event : Event} (h : s.wifiInitialised = true)
    (hstep : step event s = some s') : s'.wifiInitialised = true := by
  cases event with
  | wifiStep =>
      obtain ⟨rfl, -⟩ | ⟨disconnects, rfl⟩ | rfl := wifiStep_cases hstep <;> exact h
  | staStart =>
      obtain rfl := Option.some.inj hstep
      exact Bool.or_eq_true_iff.mpr (.inl h)
  | configure config complete => exact Option.some.inj hstep ▸ h
  | staDisconnected => exact Option.some.inj hstep ▸ h
  | staGotIp => exact Option.some.inj hstep ▸ h

theorem run_wifiInitialised {events : List Event} (h : s.wifiInitialised = true)
    (hrun : Runs.run step events s = some s') : s'.wifiInitialised = true := by
  have hkeep : ∀ event (s s' : WifiStation), s.wifiInitialised = true → True →
      step event s = some s' → s'.wifiInitialised = true :=
    fun _ _ _ hs _ hstep => step_wifiInitialised hs hstep
  exact Runs.run_invariant hkeep h (.of_forall fun _ _ _ => trivial) hrun

theorem run_stationConfig {events : List Event} {c : Credentials} (hc : s.stationConfig = some c)
    (hrun : Runs.run step events s = some s') : s'.stationConfig = some c := by
  have hkeep : ∀ event (s s' : WifiStation), s.stationConfig = some c → True →
      step event s = some s' → s'.stationConfig = some c :=
    fun _ _ _ hs _ hstep => step_stationConfig hs hstep
  exact Runs.run_invariant hkeep hc (.of_forall fun _ _ _ => trivial) hrun

/-! ### Convergence -/

/-- The step with a complete configuration, once the Wi-Fi is initialised. -/
theorem wifiStep_initialised (hinitialised : s.wifiInitialised = true)
    (hcomplete : s.receivedConfigDataMQTT = true) (hgiven : s.config.Given) :
    s.wifiStep = some (if s.wifi = s.config then s else
      { s with
        wifi := s.config.copied
        disconnects := if s.wifiConnected then s.disconnects + 1 else s.disconnects }) := by
  rw [WifiStation.wifiStep]
  cases hconnected : s.wifiConnected with
  | false =>
      rw [if_pos ⟨hgiven, rfl, hcomplete⟩]
      by_cases hsame : s.wifi = s.config
      · rw [if_neg (not_not.mpr hsame), if_pos hsame]
      · rw [if_pos hsame, if_neg hsame]
        dsimp only
        rw [if_neg (by rw [hinitialised]; decide)]
        rfl
  | true =>
      rw [if_neg (fun h => Bool.noConfusion h.2.1), if_pos ⟨hgiven, rfl⟩]
      by_cases hsame : s.wifi = s.config
      · rw [if_neg (not_not.mpr hsame), if_pos hsame]
      · rw [if_pos hsame, if_neg hsame]
        rfl

/-- Copies that are equal to the configuration leave nothing to do. -/
theorem wifiStep_of_same (hsame : s.wifi = s.config) : s.wifiStep = some s := by
  simp [WifiStation.wifiStep, hsame]

/-- Credentials that are programmed stay, and need no further step. -/
theorem converges_iff (hs : s.Inv) (hinitialised : s.wifiInitialised = true) {c : Credentials}
    (hc : s.stationConfig = some c) (hallowed : s.config.Allowed) :
    s.Converges ↔ s.config = c := by
  have hcomplete := hs.complete (hs.started hinitialised)
  have hstep := wifiStep_initialised hinitialised hcomplete hallowed.given
  constructor
  · rintro ⟨s', -, hs', hprogrammed, -⟩
    have hkept := step_stationConfig hc (show step .wifiStep s = some s' from hs')
    rw [hprogrammed] at hkept
    exact Option.some.inj hkept
  · rintro rfl
    refine ⟨_, _, hstep, ?_, wifiStep_of_same ?_, rfl⟩
    · split <;> exact hc
    · split
      · assumption
      · exact hs.copied s.config hc

/-- After the Wi-Fi was initialised with `c`, the step converges exactly for credentials that are `c`
itself, whatever was received and happened in between. -/
theorem wifiStep_converges_iff {before after : List Event} {start : WifiStation} {c : Credentials}
    (hbefore : Runs.run step before powerOn = some start) (hinitialised : start.wifiInitialised = true)
    (hc : start.stationConfig = some c) (hafter : Runs.run step after start = some s)
    (hallowed : s.config.Allowed) : s.Converges ↔ s.config = c := by
  have hstart : start.Inv := powerOn_inv.run hbefore
  exact converges_iff (hstart.run hafter) (run_wifiInitialised hinitialised hafter)
    (run_stationConfig hc hafter) hallowed

/-! ### A second network -/

/-- The board is configured for a network and joins it. -/
def joined : List Event := [.configure ⟨['n'], ['p']⟩ true, .wifiStep, .staStart, .staGotIp]

def joinedState : WifiStation where
  config := ⟨['n'], ['p']⟩
  receivedConfigDataMQTT := true
  wifi := ⟨['n'], ['p']⟩
  wifiConnected := true
  wifiInitialised := true
  stationConfig := some ⟨['n'], ['p']⟩
  disconnects := 0

theorem run_joined : Runs.run step joined powerOn = some joinedState := rfl

/-- The network is lost, another one is received, and then the first one again. -/
def receivedAgain : List Event :=
  [.staDisconnected, .configure ⟨['m'], ['q']⟩ true, .wifiStep, .configure ⟨['n'], ['p']⟩ true,
    .wifiStep]

def lostState : WifiStation := { joinedState with wifiConnected := false }

theorem wifiStep_converges_iff_joined :
    Runs.run step receivedAgain joinedState = some lostState ∧ lostState.Converges := by
  have hafter : Runs.run step receivedAgain joinedState = some lostState := rfl
  exact ⟨hafter, (wifiStep_converges_iff run_joined rfl rfl hafter
    ⟨⟨by decide, by decide⟩, by decide, by decide⟩).mpr rfl⟩

/-- A network that is received later is not programmed, and one with a name of 32 bytes is left in every
step. -/
theorem second_network_not_programmed :
    (∃ s, Runs.run step (joined ++ [.configure ⟨['m'], ['q']⟩ true]) powerOn = some s
        ∧ s.config.Allowed ∧ ¬ s.Converges)
      ∧ ∃ s, Runs.run step (joined ++ [.configure ⟨List.replicate 32 'm', ['q']⟩ true, .wifiStep,
          .wifiStep]) powerOn = some s ∧ s.disconnects = 2 := by
  constructor
  · refine ⟨{ joinedState with config := ⟨['m'], ['q']⟩ }, rfl,
      ⟨⟨by decide, by decide⟩, by decide, by decide⟩, ?_⟩
    rintro ⟨s', -, hs', hprogrammed, -⟩
    have hkept := step_stationConfig rfl
      (show step .wifiStep { joinedState with config := ⟨['m'], ['q']⟩ } = some s' from hs')
    rw [hkept] at hprogrammed
    exact absurd hprogrammed (by decide)
  · exact ⟨_, rfl, rfl⟩

end WifiStation

end Pmu
