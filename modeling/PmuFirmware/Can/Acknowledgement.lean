import PmuFirmware.Lib.Run
import PmuFirmware.Can.ChargerConfig

/-!
# Acknowledgements

Every handler answers a frame with the bytes of the global `AckPmu`. It names the class of the frame,
its number and, for a parameter of the configuration, the parameter and the limit. Some branches set
only a part of it and send what an earlier frame has left in the rest.
-/

namespace Pmu

/-- `CAN_Message` -/
structure AckPmu where
  canMessageAck : UInt8
  sequenceNumber : UInt8
  parameterNumber : UInt8
  limitSettingValue : UInt8
  unused : Fin 4 → UInt8

namespace AckPmu

def message (a : AckPmu) : CanMessage where
  identifier := ACK_PMU_ID
  data := fun k =>
    match k.val with
    | 0 => a.canMessageAck
    | 1 => a.sequenceNumber
    | 2 => a.parameterNumber
    | 3 => a.limitSettingValue
    | k + 4 => a.unused (Fin.ofNat 4 k)

/-- The number of a frame that names neither a parameter nor a limit. -/
def setNumber (number : UInt8) (a : AckPmu) : AckPmu :=
  { a with sequenceNumber := number, parameterNumber := 0xFF, limitSettingValue := 0xFF }

/-! ### The handlers -/

def handleFaultInfo (data : Frame) (a : AckPmu) : AckPmu × List CanMessage :=
  let a := { a with canMessageAck := 1 }.setNumber (data 0 &&& 0x03)
  (a, [a.message])

def handleSessionInfo (data : Frame) (a : AckPmu) : AckPmu × List CanMessage :=
  let a := { a with canMessageAck := 2 }
  let a := a.setNumber
    (if 1 ≤ (data 0).toNat ∧ (data 0).toNat ≤ 9 then data 0 else a.sequenceNumber)
  (a, [a.message])

def handleFaultLog (data : Frame) (a : AckPmu) : AckPmu × List CanMessage :=
  let a := { a with canMessageAck := 4 }
  if 1 ≤ (data 0).toNat ∧ (data 0).toNat ≤ 8 then
    let a := a.setNumber (data 0)
    (a, [a.message])
  else (a, [])

/-- The parameters 0, 1 and 2 leave the limit as it is, a limit that is not known too, and a parameter
that is not known leaves both. -/
def setParameter (data : Frame) (a : AckPmu) : AckPmu :=
  if (data 1).toNat ≤ 2 then { a with parameterNumber := data 1 }
  else if (data 1).toNat = 3 then
    { a with
      parameterNumber := data 1
      limitSettingValue :=
        if 1 ≤ (data 2).toNat ∧ (data 2).toNat ≤ 12 then data 2 else a.limitSettingValue }
  else if (data 1).toNat ≤ 13 then
    { a with parameterNumber := data 1, limitSettingValue := 0xFF }
  else a

/-- A repeated continuation frame is acknowledged in the same way as the first one. -/
def handleChargerConfig (data : Frame) (a : AckPmu) : AckPmu × List CanMessage :=
  let a := { a with canMessageAck := 3 }
  if 5 < (data 0).toNat then
    let a := { a with sequenceNumber := data 0 }
    (a, [a.message])
  else if (data 0).toNat = 5 then
    let a := { a.setParameter data with sequenceNumber := data 0 }
    (a, [a.message])
  else if (data 0).toNat = 0 then (a, [])
  else
    let a := a.setNumber (data 0)
    (a, [a.message])

/-- `receive_can_message`, as far as it acknowledges. -/
def receiveCanMessage (m : CanMessage) (a : AckPmu) : AckPmu × List CanMessage :=
  if m.identifier = FAULT_INFO_ID then a.handleFaultInfo m.data
  else if m.identifier = SESSION_INFO_ID then a.handleSessionInfo m.data
  else if m.identifier = CHARGER_CONFIG_ID then a.handleChargerConfig m.data
  else if m.identifier = FAULT_LOG then a.handleFaultLog m.data
  else (a, [])

def powerOn : AckPmu := ⟨0, 0, 0, 0, fun _ => 0⟩

end AckPmu

section Handlers

variable {m : CanMessage} {a : AckPmu}

theorem receive_faultInfo (hm : m.identifier = FAULT_INFO_ID) :
    a.receiveCanMessage m = a.handleFaultInfo m.data := if_pos hm

theorem receive_sessionInfo (hm : m.identifier = SESSION_INFO_ID) :
    a.receiveCanMessage m = a.handleSessionInfo m.data := by
  rw [AckPmu.receiveCanMessage, hm]
  rfl

theorem receive_chargerConfig (hm : m.identifier = CHARGER_CONFIG_ID) :
    a.receiveCanMessage m = a.handleChargerConfig m.data := by
  rw [AckPmu.receiveCanMessage, hm]
  rfl

theorem receive_faultLog (hm : m.identifier = FAULT_LOG) :
    a.receiveCanMessage m = a.handleFaultLog m.data := by
  rw [AckPmu.receiveCanMessage, hm]
  rfl

end Handlers

/-! ### What a frame says of itself -/

/-- The parameters whose value is a string. -/
def carriesString (parameter : UInt8) : Bool :=
  [4, 5, 6, 7, 8, 10].contains parameter.toNat

namespace CanMessage

/-- The header of a string. -/
def startsString (m : CanMessage) : Bool :=
  m.identifier = CHARGER_CONFIG_ID && (m.data 0).toNat = 5
    && carriesString (m.data 1)

/-- The frames whose acknowledgement names a parameter, or that they have none. -/
def namesParameter (m : CanMessage) : Bool :=
  m.identifier = FAULT_INFO_ID
    || m.identifier = SESSION_INFO_ID
    || m.identifier = FAULT_LOG && 1 ≤ (m.data 0).toNat && (m.data 0).toNat ≤ 8
    || m.identifier = CHARGER_CONFIG_ID && (1 ≤ (m.data 0).toNat && (m.data 0).toNat ≤ 4
      || (m.data 0).toNat = 5 && (m.data 1).toNat ≤ 13)

/-- The first four bytes of the acknowledgement that echoes the message. -/
def echo (header : Option UInt8) (m : CanMessage) : List UInt8 :=
  if m.identifier = FAULT_INFO_ID then [1, m.data 0 &&& 0x03, 0xFF, 0xFF]
  else if m.identifier = SESSION_INFO_ID then [2, m.data 0, 0xFF, 0xFF]
  else if m.identifier = FAULT_LOG then [4, m.data 0, 0xFF, 0xFF]
  else if (m.data 0).toNat < 5 then [3, m.data 0, 0xFF, 0xFF]
  else if (m.data 0).toNat = 5 then
    [3, m.data 0, m.data 1, if (m.data 1).toNat = 3 then m.data 2 else 0xFF]
  else [3, m.data 0, header.getD 0xFF, 0xFF]

end CanMessage

/-! ### What has been heard -/

/-- `AckPmu`, with the parameter of the string header that came last, and whether another parameter,
or none, was named since. -/
structure Listener where
  ackPmu : AckPmu
  header : Option UInt8
  interrupted : Bool

namespace Listener

def step (m : CanMessage) (s : Listener) : Listener where
  ackPmu := (s.ackPmu.receiveCanMessage m).1
  header := if m.startsString then some (m.data 1) else s.header
  interrupted := !m.startsString && (m.namesParameter || s.interrupted)

def powerOn : Listener where
  ackPmu := .powerOn
  header := none
  interrupted := false

/-- The acknowledgement of the message, if one is sent, echoes it. -/
def Echoes (m : CanMessage) (s : Listener) : Prop :=
  ∀ ack ∈ (s.ackPmu.receiveCanMessage m).2,
    [ack.data 0, ack.data 1, ack.data 2, ack.data 3] = m.echo s.header

/-- A parameter that is known, with a limit that is known or a byte 0xFF for none. A byte that is not
set may be right by chance. -/
def ParameterFits (data : Frame) (a : AckPmu) : Prop :=
  if (data 1).toNat < 3 then a.limitSettingValue = 0xFF
  else if (data 1).toNat = 3 then
    (1 ≤ (data 2).toNat ∧ (data 2).toNat ≤ 12) ∨ a.limitSettingValue = data 2
  else 13 < (data 1).toNat → a.parameterNumber = data 1 ∧ a.limitSettingValue = 0xFF

/-- The string goes on, and nothing else has been named since its header. -/
def StringFits (s : Listener) : Prop :=
  match s.header with
  | some _ => s.interrupted = false
  | none => s.ackPmu.parameterNumber = 0xFF ∧ s.ackPmu.limitSettingValue = 0xFF

def Fits (m : CanMessage) (s : Listener) : Prop :=
  (m.identifier = SESSION_INFO_ID →
      (1 ≤ (m.data 0).toNat ∧ (m.data 0).toNat ≤ 9) ∨ s.ackPmu.sequenceNumber = m.data 0)
    ∧ (m.identifier = CHARGER_CONFIG_ID →
      ((m.data 0).toNat = 5 → ParameterFits m.data s.ackPmu)
        ∧ (5 < (m.data 0).toNat → s.StringFits))

/-- The parameter that `AckPmu` holds is the one of the header unless another one was named. -/
def Inv (s : Listener) : Prop :=
  ∀ p, s.header = some p →
    carriesString p
      ∧ if s.interrupted then s.ackPmu.parameterNumber ≠ p
        else s.ackPmu.parameterNumber = p ∧ s.ackPmu.limitSettingValue = 0xFF

/-! ### One message -/

section Naming

variable {m : CanMessage} {a : AckPmu}

theorem startsString_iff : m.startsString = true ↔ m.identifier = CHARGER_CONFIG_ID
    ∧ (m.data 0).toNat = 5 ∧ carriesString (m.data 1) := by
  rw [CanMessage.startsString, Bool.and_eq_true, Bool.and_eq_true, decide_eq_true_eq,
    decide_eq_true_eq, and_assoc]

theorem receive_startsString (h : m.startsString) :
    (a.receiveCanMessage m).1.parameterNumber = m.data 1
      ∧ (a.receiveCanMessage m).1.limitSettingValue = 0xFF := by
  obtain ⟨hm, hfive, hstring⟩ := startsString_iff.mp h
  rw [receive_chargerConfig hm, AckPmu.handleChargerConfig, if_neg (by omega), if_pos hfive]
  have hparameter : 3 < (m.data 1).toNat ∧ (m.data 1).toNat ≤ 13 := by
    simp [carriesString] at hstring
    omega
  rw [AckPmu.setParameter, if_neg (by omega), if_neg (by omega), if_pos hparameter.2]
  exact ⟨rfl, rfl⟩

theorem namesParameter_iff : m.namesParameter = true ↔ m.identifier = FAULT_INFO_ID
    ∨ m.identifier = SESSION_INFO_ID
    ∨ (m.identifier = FAULT_LOG ∧ 1 ≤ (m.data 0).toNat ∧ (m.data 0).toNat ≤ 8)
    ∨ (m.identifier = CHARGER_CONFIG_ID ∧ ((1 ≤ (m.data 0).toNat ∧ (m.data 0).toNat ≤ 4)
      ∨ ((m.data 0).toNat = 5 ∧ (m.data 1).toNat ≤ 13))) := by
  simp only [CanMessage.namesParameter, Bool.or_eq_true, Bool.and_eq_true, decide_eq_true_eq,
    and_assoc, or_assoc]

/-- A message that names a parameter, or none, and starts no string leaves a number that is none of a
string. -/
theorem receive_names (hstart : ¬ m.startsString) (h : m.namesParameter) :
    ¬ carriesString (a.receiveCanMessage m).1.parameterNumber := by
  have hnone : ¬ carriesString 0xFF := by decide
  rcases namesParameter_iff.mp h with hm | hm | ⟨hm, hnumber⟩ | ⟨hm, hnumber⟩
  · rw [receive_faultInfo hm]
    exact hnone
  · rw [receive_sessionInfo hm]
    exact hnone
  · rw [receive_faultLog hm, AckPmu.handleFaultLog, if_pos hnumber]
    exact hnone
  · rw [receive_chargerConfig hm, AckPmu.handleChargerConfig, if_neg (by omega)]
    rcases hnumber with hfirst | ⟨hfive, hknown⟩
    · rw [if_neg (by omega), if_neg (by omega)]
      exact hnone
    · have hother : ¬ carriesString (m.data 1) := fun hstring =>
        hstart (startsString_iff.mpr ⟨hm, hfive, hstring⟩)
      rw [if_pos hfive, AckPmu.setParameter]
      split_ifs
      all_goals exact hother

/-- Any other message leaves the parameter and the limit. -/
theorem receive_unnamed (h : ¬ m.namesParameter) :
    (a.receiveCanMessage m).1.parameterNumber = a.parameterNumber
      ∧ (a.receiveCanMessage m).1.limitSettingValue = a.limitSettingValue := by
  rw [namesParameter_iff, not_or, not_or, not_or] at h
  obtain ⟨hfault, hsession, hlog, hconfig⟩ := h
  rw [AckPmu.receiveCanMessage, if_neg hfault, if_neg hsession]
  by_cases hm : m.identifier = CHARGER_CONFIG_ID
  · have hunnamed := fun h => hconfig ⟨hm, h⟩
    rw [if_pos hm, AckPmu.handleChargerConfig]
    by_cases hstring : 5 < (m.data 0).toNat
    · rw [if_pos hstring]
      exact ⟨rfl, rfl⟩
    · rw [if_neg hstring]
      by_cases hfive : (m.data 0).toNat = 5
      · rw [if_pos hfive, AckPmu.setParameter, if_neg (by omega), if_neg (by omega),
          if_neg (by omega)]
        exact ⟨rfl, rfl⟩
      · rw [if_neg hfive, if_pos (by omega)]
        exact ⟨rfl, rfl⟩
  · rw [if_neg hm]
    by_cases hm' : m.identifier = FAULT_LOG
    · rw [if_pos hm', AckPmu.handleFaultLog, if_neg fun hnumber => hlog ⟨hm', hnumber⟩]
      exact ⟨rfl, rfl⟩
    · rw [if_neg hm']
      exact ⟨rfl, rfl⟩

end Naming

variable {s : Listener}

theorem Inv.step (h : s.Inv) (m : CanMessage) : (s.step m).Inv := by
  intro p hp
  by_cases hstart : m.startsString = true
  · have hheader : m.data 1 = p := by
      rw [Listener.step, hstart, if_pos rfl] at hp
      exact Option.some.inj hp
    obtain ⟨hparameter, hlimit⟩ := receive_startsString (a := s.ackPmu) hstart
    refine ⟨hheader ▸ (startsString_iff.mp hstart).2.2, ?_⟩
    rw [if_neg (by rw [Listener.step, hstart]; exact Bool.false_ne_true)]
    exact ⟨hparameter.trans hheader, hlimit⟩
  · have hheader : s.header = some p := by
      rw [Listener.step, if_neg hstart] at hp
      exact hp
    obtain ⟨hstring, hack⟩ := h p hheader
    refine ⟨hstring, ?_⟩
    by_cases hnames : m.namesParameter = true
    · rw [if_pos (by simp [Listener.step, hstart, hnames])]
      intro hsame
      exact receive_names (a := s.ackPmu) hstart hnames (hsame ▸ hstring)
    · obtain ⟨hparameter, hlimit⟩ := receive_unnamed (a := s.ackPmu) hnames
      have hinterrupted : (s.step m).interrupted = s.interrupted := by
        simp [Listener.step, hstart, hnames]
      have hparameter : (s.step m).ackPmu.parameterNumber = s.ackPmu.parameterNumber := hparameter
      have hlimit : (s.step m).ackPmu.limitSettingValue = s.ackPmu.limitSettingValue := hlimit
      rw [hinterrupted, hparameter, hlimit]
      exact hack

/-! ### Which acknowledgements echo -/

section Echoes

variable {m : CanMessage}

theorem echoes_of_sent {a : AckPmu} {sent : List CanMessage}
    (h : (s.ackPmu.receiveCanMessage m).2 = sent) (hsent : sent = [a.message]) :
    Echoes m s ↔ [a.canMessageAck, a.sequenceNumber, a.parameterNumber, a.limitSettingValue]
      = m.echo s.header := by
  rw [Echoes, h, hsent]
  exact List.forall_mem_singleton

theorem echoes_of_silent (h : (s.ackPmu.receiveCanMessage m).2 = []) : Echoes m s := by
  rw [Echoes, h]
  exact fun _ hack => absurd hack List.not_mem_nil

theorem echoes_faultInfo (hm : m.identifier = FAULT_INFO_ID) : Echoes m s := by
  rw [echoes_of_sent (congrArg Prod.snd (receive_faultInfo hm)) rfl, CanMessage.echo, if_pos hm]
  rfl

theorem echo_sessionInfo (hm : m.identifier = SESSION_INFO_ID) (header : Option UInt8) :
    m.echo header = [2, m.data 0, 0xFF, 0xFF] := by
  rw [CanMessage.echo, hm]
  rfl

theorem echoes_sessionInfo (hm : m.identifier = SESSION_INFO_ID) : Echoes m s ↔
    (1 ≤ (m.data 0).toNat ∧ (m.data 0).toNat ≤ 9) ∨ s.ackPmu.sequenceNumber = m.data 0 := by
  rw [echoes_of_sent (congrArg Prod.snd (receive_sessionInfo hm)) rfl, echo_sessionInfo hm]
  show [2, if 1 ≤ (m.data 0).toNat ∧ (m.data 0).toNat ≤ 9 then m.data 0 else s.ackPmu.sequenceNumber,
    0xFF, 0xFF] = [2, m.data 0, 0xFF, 0xFF] ↔ _
  by_cases hknown : 1 ≤ (m.data 0).toNat ∧ (m.data 0).toNat ≤ 9
  · simp [hknown]
  · simp [hknown]

theorem echo_faultLog (hm : m.identifier = FAULT_LOG) (header : Option UInt8) :
    m.echo header = [4, m.data 0, 0xFF, 0xFF] := by
  rw [CanMessage.echo, hm]
  rfl

theorem echoes_faultLog (hm : m.identifier = FAULT_LOG) : Echoes m s := by
  by_cases hknown : 1 ≤ (m.data 0).toNat ∧ (m.data 0).toNat ≤ 8
  · have hsent := congrArg Prod.snd (receive_faultLog (a := s.ackPmu) hm)
    rw [AckPmu.handleFaultLog, if_pos hknown] at hsent
    rw [echoes_of_sent hsent rfl, echo_faultLog hm]
    rfl
  · refine echoes_of_silent ?_
    rw [receive_faultLog hm, AckPmu.handleFaultLog, if_neg hknown]

theorem echo_chargerConfig (hm : m.identifier = CHARGER_CONFIG_ID) (header : Option UInt8) :
    m.echo header =
      if (m.data 0).toNat < 5 then [3, m.data 0, 0xFF, 0xFF]
      else if (m.data 0).toNat = 5 then
        [3, m.data 0, m.data 1, if (m.data 1).toNat = 3 then m.data 2 else 0xFF]
      else [3, m.data 0, header.getD 0xFF, 0xFF] := by
  rw [CanMessage.echo, hm]
  rfl

theorem echoes_first (hm : m.identifier = CHARGER_CONFIG_ID) (hfirst : (m.data 0).toNat < 5) :
    Echoes m s := by
  by_cases hzero : (m.data 0).toNat = 0
  · refine echoes_of_silent ?_
    rw [receive_chargerConfig hm, AckPmu.handleChargerConfig, if_neg (by omega), if_neg (by omega),
      if_pos hzero]
  · have hsent := congrArg Prod.snd (receive_chargerConfig (a := s.ackPmu) hm)
    rw [AckPmu.handleChargerConfig, if_neg (by omega), if_neg (by omega), if_neg hzero] at hsent
    rw [echoes_of_sent hsent rfl, echo_chargerConfig hm, if_pos hfirst]
    rfl

theorem echoes_parameter (hm : m.identifier = CHARGER_CONFIG_ID) (hfive : (m.data 0).toNat = 5) :
    Echoes m s ↔ ParameterFits m.data s.ackPmu := by
  have hsent := congrArg Prod.snd (receive_chargerConfig (a := s.ackPmu) hm)
  rw [AckPmu.handleChargerConfig, if_neg (by omega), if_pos hfive] at hsent
  rw [echoes_of_sent hsent rfl, echo_chargerConfig hm, if_neg (by omega), if_pos hfive,
    ParameterFits, AckPmu.setParameter]
  by_cases hlow : (m.data 1).toNat ≤ 2
  · have hlimit : ¬ (m.data 1).toNat = 3 := by omega
    simp [hlow, hlimit, Nat.lt_succ_of_le hlow]
  · have hhigh : ¬ (m.data 1).toNat < 3 := by omega
    by_cases hlimit : (m.data 1).toNat = 3
    · by_cases hknown : 1 ≤ (m.data 2).toNat ∧ (m.data 2).toNat ≤ 12
      · simp [hlimit, hknown]
      · simp [hlimit, hknown]
    · by_cases hnamed : (m.data 1).toNat ≤ 13
      · simp [hlow, hhigh, hlimit, hnamed]
      · simp [hlow, hhigh, hlimit, hnamed, Nat.lt_of_not_le hnamed]

/-- A continuation frame. -/
theorem Inv.echoes_string (h : s.Inv) (hm : m.identifier = CHARGER_CONFIG_ID)
    (hstring : 5 < (m.data 0).toNat) : Echoes m s ↔ s.StringFits := by
  have hsent := congrArg Prod.snd (receive_chargerConfig (a := s.ackPmu) hm)
  rw [AckPmu.handleChargerConfig, if_pos hstring] at hsent
  rw [echoes_of_sent hsent rfl, echo_chargerConfig hm, if_neg (by omega), if_neg (by omega),
    StringFits]
  cases hheader : s.header with
  | none => simp
  | some p =>
      have hack := (h p hheader).2
      cases hinterrupted : s.interrupted with
      | true =>
          rw [hinterrupted, if_pos rfl] at hack
          simp [hack]
      | false =>
          rw [hinterrupted, if_neg Bool.false_ne_true] at hack
          simp [hack]

end Echoes

/-- The acknowledgement echoes the message if and only if its branch sets all bytes, or what is left
in the others fits. -/
theorem Inv.echoes_iff (h : s.Inv) (m : CanMessage) : Echoes m s ↔ Fits m s := by
  rw [Fits]
  by_cases hsession : m.identifier = SESSION_INFO_ID
  · have hconfig : ¬ m.identifier = CHARGER_CONFIG_ID := by
      rw [hsession]
      decide
    rw [echoes_sessionInfo hsession]
    exact ⟨fun hknown => ⟨fun _ => hknown, fun hm => absurd hm hconfig⟩, fun hfits => hfits.1 hsession⟩
  by_cases hconfig : m.identifier = CHARGER_CONFIG_ID
  · refine Iff.trans ?_ (and_iff_right fun hm => absurd hm hsession).symm
    rcases Nat.lt_trichotomy (m.data 0).toNat 5 with hfirst | hfive | hstring
    · exact ⟨fun _ _ => ⟨by omega, by omega⟩, fun _ => echoes_first hconfig hfirst⟩
    · rw [echoes_parameter hconfig hfive]
      exact ⟨fun hfits _ => ⟨fun _ => hfits, by omega⟩, fun hfits => (hfits hconfig).1 hfive⟩
    · rw [h.echoes_string hconfig hstring]
      exact ⟨fun hfits _ => ⟨by omega, fun _ => hfits⟩, fun hfits => (hfits hconfig).2 hstring⟩
  · refine iff_of_true ?_ ⟨fun hm => absurd hm hsession, fun hm => absurd hm hconfig⟩
    by_cases hfault : m.identifier = FAULT_INFO_ID
    · exact echoes_faultInfo hfault
    by_cases hlog : m.identifier = FAULT_LOG
    · exact echoes_faultLog hlog
    · refine echoes_of_silent ?_
      rw [AckPmu.receiveCanMessage, if_neg hfault, if_neg hsession, if_neg hconfig, if_neg hlog]

/-- In every run, each acknowledgement echoes its message if and only if each message fits. -/
theorem acknowledgements_echo_iff (messages : List CanMessage) :
    Runs.Meets (fun m s => some (step m s)) Echoes messages powerOn
      ↔ Runs.Meets (fun m s => some (step m s)) Fits messages powerOn :=
  Runs.meets_some_iff (fun m s (h : Inv s) => h.echoes_iff m) (fun m _ h _ => h.step m)
    fun _ hnone => absurd hnone.symm (Option.some_ne_none _)

/-- A message whose first two bytes are given. -/
def shortMessage (identifier : Nat) (first second : UInt8) : CanMessage :=
  ⟨identifier, fun k => if k = 0 then first else if k = 1 then second else 0⟩

/-- A fault between the header of a string and its continuation takes the place of the parameter. -/
theorem interrupted_string_is_not_echoed :
    ¬ Runs.Meets (fun m s => some (step m s)) Echoes
      [shortMessage CHARGER_CONFIG_ID 5 4, shortMessage FAULT_INFO_ID 1 0,
        shortMessage CHARGER_CONFIG_ID 6 0] powerOn := by
  intro h
  have hlater := (Runs.meets_some_cons.mp (Runs.meets_some_cons.mp h).2).2
  have hecho := (Runs.meets_some_cons.mp hlater).1 _ List.mem_cons_self
  exact absurd hecho (by decide)

end Listener

end Pmu
