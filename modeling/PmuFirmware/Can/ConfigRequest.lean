import PmuFirmware.Lib.Run
import PmuFirmware.Can.ChargerConfig

/-!
# Asking for the configuration

`can_task` asks the charger for its configuration every 300 iterations until it has been received. It
decides this by a counter of its own: `receive_can_message` counts the frames that come once there is a
number of connectors and a serial number, or the memory of the charger has failed.
-/

namespace Pmu

open CLib

/-- The part of `can_task` that asks. -/
structure ConfigRequest where
  config : ConfigNumbers
  configRequestFlag : UInt8
  configRequestCounter : UInt16

/-- When a frame of the configuration is counted. -/
def ConfigNumbers.counts (c : ConfigNumbers) : Bool :=
  c.numConnectors ≠ 0 && 0 < c.serialNumber.cstr.length
    || c.eepromFaultedFlag && c.eepromCommStatus = 0

namespace ConfigRequest

/-- `receive_can_message`: the frame is counted by what was known before it. -/
def receiveCanMessage (message : CanMessage) (s : ConfigRequest) : ConfigRequest :=
  if message.identifier = CHARGER_CONFIG_ID then
    { s with
      configRequestFlag :=
        if s.config.counts then s.configRequestFlag + 1 else s.configRequestFlag
      config := handleConfigNumbers message.data s.config }
  else s

/-- `configRequestFlag == 0 && configRequestCounter >= 300` -/
def sendsRequest (s : ConfigRequest) : Bool :=
  s.configRequestFlag = 0 && 300 ≤ s.configRequestCounter

/-- The counter is incremented before it is looked at. -/
def countIteration (s : ConfigRequest) : ConfigRequest :=
  { s with configRequestCounter := s.configRequestCounter + 1 }

def request : CanMessage :=
  ⟨PMU_REQUEST, fun k => if k = 0 ∨ k = 1 then 1 else 0xFF⟩

/-- What an iteration sends about the configuration. -/
def sent (s : ConfigRequest) : List CanMessage :=
  if s.countIteration.sendsRequest then [request] else []

/-- An iteration of `can_task`, with the message it receives, if there is one. -/
def iteration (message : Option CanMessage) (s : ConfigRequest) : ConfigRequest :=
  let s := s.countIteration
  let s := if s.sendsRequest then { s with configRequestCounter := 0 } else s
  message.elim s s.receiveCanMessage

def powerOn : ConfigRequest where
  config := .powerOn
  configRequestFlag := 0
  configRequestCounter := 0

/-! ### When it stops asking -/

def StopsWhenComplete (s : ConfigRequest) : Prop :=
  s.configRequestFlag = 0 ↔ s.config.chargerConfigReceived = false

/-- The iteration asks when it is time and the configuration is missing, and leaves a flag that tells
whether it is. -/
def Asks (message : Option CanMessage) (s : ConfigRequest) : Prop :=
  (request ∈ s.sent ↔ 300 ≤ s.configRequestCounter + 1 ∧ s.config.chargerConfigReceived = false)
    ∧ (s.iteration message).StopsWhenComplete

/-- The frames that are counted are those that complete the configuration; later ones do not bring the
counter back to 0. -/
def CountsCompletion (message : Option CanMessage) (s : ConfigRequest) : Prop :=
  ∀ m, message = some m → m.identifier = CHARGER_CONFIG_ID →
    if s.config.chargerConfigReceived then ¬ (s.config.counts ∧ s.configRequestFlag = 255)
    else s.config.counts ↔ ClosesConfig m.data

variable {s : ConfigRequest}

theorem receiveCanMessage_config {m : CanMessage} (hm : m.identifier = CHARGER_CONFIG_ID) :
    (s.receiveCanMessage m).configRequestFlag
        = (if s.config.counts then s.configRequestFlag + 1 else s.configRequestFlag)
      ∧ (s.receiveCanMessage m).config.chargerConfigReceived
        = (s.config.chargerConfigReceived || decide (ClosesConfig m.data)) := by
  rw [receiveCanMessage, if_pos hm]
  exact ⟨rfl, handleConfigNumbers_received m.data s.config⟩

theorem add_one_eq_zero_iff (n : UInt8) : n + 1 = 0 ↔ n = 255 := by
  rw [← UInt8.toNat_inj, ← UInt8.toNat_inj, UInt8.toNat_add]
  have hn := n.toNat_lt
  show (n.toNat + 1) % 256 = 0 ↔ n.toNat = 255
  omega

/-- A frame of the configuration keeps the flag right if and only if it is counted rightly. -/
theorem StopsWhenComplete.receive_iff (h : s.StopsWhenComplete) {m : CanMessage}
    (hm : m.identifier = CHARGER_CONFIG_ID) :
    (s.receiveCanMessage m).StopsWhenComplete
      ↔ if s.config.chargerConfigReceived then ¬ (s.config.counts ∧ s.configRequestFlag = 255)
        else s.config.counts ↔ ClosesConfig m.data := by
  obtain ⟨hflag, hreceived⟩ := receiveCanMessage_config (s := s) hm
  rw [StopsWhenComplete, hflag, hreceived]
  rw [StopsWhenComplete] at h
  cases hcomplete : s.config.chargerConfigReceived with
  | true =>
      have hasked : ¬ s.configRequestFlag = 0 := fun h0 => by
        rw [h.mp h0] at hcomplete
        cases hcomplete
      rw [Bool.true_or, if_pos rfl]
      by_cases hcounts : s.config.counts = true
      · rw [if_pos hcounts, add_one_eq_zero_iff]
        simp [hcounts]
      · rw [if_neg hcounts]
        simp [hcounts, hasked]
  | false =>
      have hzero := h.mpr hcomplete
      rw [Bool.false_or, if_neg Bool.false_ne_true, decide_eq_false_iff_not, hzero]
      by_cases hcounts : s.config.counts = true
      · simp [hcounts]
      · simp [hcounts]

theorem receiveCanMessage_other {m : CanMessage} (hm : m.identifier ≠ CHARGER_CONFIG_ID) :
    s.receiveCanMessage m = s := if_neg hm

/-- What an iteration does before it receives. -/
theorem StopsWhenComplete.ask (h : s.StopsWhenComplete) :
    (request ∈ s.sent ↔ 300 ≤ s.configRequestCounter + 1 ∧ s.config.chargerConfigReceived = false)
      := by
  rw [StopsWhenComplete] at h
  rw [sent, ← h]
  show request ∈ (if (s.configRequestFlag = 0 && 300 ≤ s.configRequestCounter + 1) then _ else _) ↔ _
  simp only [Bool.and_eq_true, decide_eq_true_eq]
  split
  case isTrue hsends => exact ⟨fun _ => hsends.symm, fun _ => List.mem_singleton_self _⟩
  case isFalse hquiet =>
    exact ⟨fun hmem => absurd hmem List.not_mem_nil, fun hsends => absurd hsends.symm hquiet⟩

/-- The counter of iterations has no part in when the asking stops. -/
theorem iteration_eq (message : Option CanMessage) (s : ConfigRequest) :
    ∃ counter, s.iteration message = message.elim { s with configRequestCounter := counter }
      ({ s with configRequestCounter := counter } : ConfigRequest).receiveCanMessage := by
  rw [iteration, countIteration]
  split
  · exact ⟨0, rfl⟩
  · exact ⟨s.configRequestCounter + 1, rfl⟩

theorem StopsWhenComplete.asks_iff (h : s.StopsWhenComplete) (message : Option CanMessage) :
    Asks message s ↔ CountsCompletion message s := by
  rw [Asks, and_iff_right h.ask]
  obtain ⟨counter, hiteration⟩ := iteration_eq message s
  rw [hiteration]
  have hcounted : ({ s with configRequestCounter := counter } : ConfigRequest).StopsWhenComplete := h
  cases message with
  | none => exact ⟨fun _ m hm => absurd hm (Option.some_ne_none m).symm, fun _ => hcounted⟩
  | some m =>
      by_cases hm : m.identifier = CHARGER_CONFIG_ID
      · rw [Option.elim_some, hcounted.receive_iff hm]
        exact ⟨fun hcounts m' hm' _ => Option.some.inj hm' ▸ hcounts,
          fun hcounts => hcounts m rfl hm⟩
      · rw [Option.elim_some, receiveCanMessage_other hm]
        exact ⟨fun _ m' hm' hconfig => absurd (Option.some.inj hm' ▸ hconfig) hm, fun _ => hcounted⟩

/-- `can_task` asks for the configuration exactly until it is complete if and only if it counts the
frames that complete it, and not 256 of them. -/
theorem asks_until_complete_iff (messages : List (Option CanMessage)) :
    Runs.Meets (fun m s => some (iteration m s)) Asks messages powerOn
      ↔ Runs.Meets (fun m s => some (iteration m s)) CountsCompletion messages powerOn :=
  Runs.meets_some_iff (fun m s (h : StopsWhenComplete s) => h.asks_iff m) (fun _ _ _ h => h.2)
    (show (0 : UInt8) = 0 ↔ false = false from ⟨fun _ => rfl, fun _ => rfl⟩)

/-- The first frame of the configuration with one connector and a serial number that starts with A. -/
def firstFrame : CanMessage :=
  ⟨CHARGER_CONFIG_ID, fun k => if k = 0 ∨ k = 1 then 1 else if k = 4 then 65 else 0⟩

/-- Any frame after the first stops the asking. -/
theorem asking_stops_early :
    ¬ Runs.Meets (fun m s => some (iteration m s)) Asks [some firstFrame, some firstFrame]
      powerOn := by
  intro h
  have hstops := (Runs.meets_some_cons.mp (Runs.meets_some_cons.mp h).2).1.2
  have hflag : (iteration (some firstFrame)
      (iteration (some firstFrame) powerOn)).configRequestFlag = 1 := by decide
  have hzero := hstops.mpr rfl
  rw [hflag] at hzero
  exact absurd hzero (by decide)

end ConfigRequest

end Pmu
