import PmuFirmware.Lib.Handoff
import PmuFirmware.Lib.Run
import PmuFirmware.Messages.FormMessage
import PmuFirmware.Can.StringReassembly

/-!
# Sessions and faults from the charger

A session arrives in nine frames and a fault in eight, which `can_task` writes into one record of each
kind. A bit of the record is flipped when the record is complete. `can_task` copies both records for
`mqtt_task`, which makes a message when the bit of its own copy has flipped.
-/

namespace Pmu

open CLib Handoff

/-! ### Frames -/

/-- `array[start + k] = data[first + k]` for the `k` below `count` -/
def setBytes (start : Nat) (data : Frame) (first count : Nat) (array : CharArray 25) :
    CharArray 25 := fun j =>
  if start ≤ j.val ∧ j.val < start + count then byteChar (data (Fin.ofNat 8 (first + j.val - start)))
  else array j

/-- `publishMsgFlag.toggleChargingSession`, which other types leave as it is. -/
def toggleOfType (sessionType toggle : Nat) : Nat :=
  if sessionType = initiatedButNotStarted then 1
  else if sessionType = initiatedStartedNormalTermination
      ∨ sessionType = initiatedStartedFaultyTermination then 2
  else if sessionType = initiatedStartedPowerOutage then 4
  else toggle

def SessionInfo.toggleOccured (s : SessionInfo) : SessionInfo :=
  { s with chargingSessionOccured := !s.chargingSessionOccured }

def handleSessionInfo (data : Frame) (toggle : Nat) (s : SessionInfo) : Nat × SessionInfo :=
  match (data 0).toNat with
  | 1 =>
    let sessionType := (data 1).toNat % 16
    let toggle := toggleOfType sessionType toggle
    let s := { s with
      sessionType := sessionType
      connector := (data 1).toNat / 16
      stopReason := (data 2).toNat
      startDateTime :=
        if sessionType = initiatedButNotStarted ∨ sessionType = initiatedStartedPowerOutage then
          fun _ => byteChar 0xFF
        else setBytes 0 data 3 5 s.startDateTime }
    (toggle, if toggle = 1 ∨ toggle = 4 then s.toggleOccured else s)
  | 2 => (toggle, { s with startDateTime := setBytes 5 data 1 7 s.startDateTime })
  | 3 => (toggle, { s with startDateTime := setBytes 12 data 1 7 s.startDateTime })
  | 4 =>
    (toggle, { s with
      startDateTime := setBytes 19 data 1 6 s.startDateTime
      chargePercentage := (data 7).toNat })
  | 5 => (toggle, { s with endDateTime := setBytes 0 data 1 7 s.endDateTime })
  | 6 => (toggle, { s with endDateTime := setBytes 7 data 1 7 s.endDateTime })
  | 7 => (toggle, { s with endDateTime := setBytes 14 data 1 7 s.endDateTime })
  | 8 =>
    (toggle, { s with
      endDateTime := setBytes 21 data 1 4 s.endDateTime
      energyConsumed := (data 5).toNat * 65536 + (data 6).toNat * 256 + (data 7).toNat })
  | 9 =>
    let s := { s with
      estimatedCost :=
        (((data 1).toNat * 65536 + (data 2).toNat * 256 + (data 3).toNat : Nat) : ℚ) / 1000
      chargeDuration := (data 4).toNat * 256 + (data 5).toNat
      startSoC := (data 6).toNat
      endSoC := (data 7).toNat }
    (toggle, if toggle = 2 then s.toggleOccured else s)
  | _ => (toggle, s)

/-- A later frame leaves the fields of the first one. -/
theorem handleSessionInfo_head {data : Frame} (hlater : (data 0).toNat ≠ 1) (toggle : Nat)
    (r : SessionInfo) :
    (handleSessionInfo data toggle r).2.sessionType = r.sessionType
      ∧ (handleSessionInfo data toggle r).2.connector = r.connector
      ∧ (handleSessionInfo data toggle r).2.stopReason = r.stopReason := by
  rw [handleSessionInfo]
  split
  case h_1 hone => exact absurd hone hlater
  case h_9 =>
    show SessionInfo.sessionType (if _ then _ else _) = _
      ∧ SessionInfo.connector (if _ then _ else _) = _
      ∧ SessionInfo.stopReason (if _ then _ else _) = _
    split
    · exact ⟨rfl, rfl, rfl⟩
    · exact ⟨rfl, rfl, rfl⟩
  all_goals exact ⟨rfl, rfl, rfl⟩

/-- The conditions on `data[1]` in the source always hold; a code of 0xFF leaves the last one. -/
def handleFaultLog (data : Frame) (s : FaultLog) : FaultLog :=
  match (data 0).toNat with
  | 1 =>
    { s with
      faultType := (data 1).toNat % 16
      player := (data 1).toNat / 16
      faultCode := if data 2 = 0xFF then s.faultCode else (data 2).toNat
      occuranceDateTime := setBytes 0 data 3 5 s.occuranceDateTime }
  | 2 => { s with occuranceDateTime := setBytes 5 data 1 7 s.occuranceDateTime }
  | 3 => { s with occuranceDateTime := setBytes 12 data 1 7 s.occuranceDateTime }
  | 4 =>
    { s with
      occuranceDateTime := setBytes 19 data 1 6 s.occuranceDateTime
      clearanceDateTime := setBytes 0 data 7 1 s.clearanceDateTime }
  | 5 => { s with clearanceDateTime := setBytes 1 data 1 7 s.clearanceDateTime }
  | 6 => { s with clearanceDateTime := setBytes 8 data 1 7 s.clearanceDateTime }
  | 7 => { s with clearanceDateTime := setBytes 15 data 1 7 s.clearanceDateTime }
  | 8 =>
    { s with
      clearanceDateTime := setBytes 22 data 1 3 s.clearanceDateTime
      faultLogDataExchanged := !s.faultLogDataExchanged }
  | _ => s

/-! ### The tasks -/

/-- What `can_task` and `mqtt_task` share. The links hold the CAN, IPC and MQTT copies, the last bits
that `mqtt_task` has seen (`charging_session` and `toggleFaultLog`) and the records it has made
messages of. -/
structure Exchange where
  chargerConfigReceived : Bool
  pmuEnable : Bool
  receivedConfigDataMQTT : Bool
  toggleChargingSession : Nat
  sessions : Link SessionInfo
  faults : Link FaultLog

namespace Exchange

def handleSession (data : Frame) (s : Exchange) : Exchange :=
  let (toggle, record) := handleSessionInfo data s.toggleChargingSession s.sessions.producer
  { s with toggleChargingSession := toggle, sessions := s.sessions.produce record }

def handleFault (data : Frame) (s : Exchange) : Exchange :=
  { s with faults := s.faults.produce (handleFaultLog data s.faults.producer) }

/-- The end of an iteration of `can_task` that gets the mutex. -/
def copyToIPC (s : Exchange) : Exchange :=
  if s.chargerConfigReceived then
    { s with sessions := s.sessions.copyOut, faults := s.faults.copyOut }
  else s

/-- The copy of `mqtt_task`, when it gets the mutex. -/
def copyToMQTT (s : Exchange) : Exchange :=
  { s with sessions := s.sessions.fetch, faults := s.faults.fetch }

/-- `create_chargingSession_message` and `create_faultLog_message` are called where the bit of the
MQTT copy is not the last one. -/
def publishRecords (s : Exchange) : Exchange :=
  { s with
    sessions :=
      if s.pmuEnable then s.sessions.compare SessionInfo.chargingSessionOccured else s.sessions
    faults :=
      if s.receivedConfigDataMQTT && s.pmuEnable then
        s.faults.compare FaultLog.faultLogDataExchanged
      else s.faults }

/-- An iteration of `mqtt_task`. -/
def mqttIteration (mutexTaken : Bool) (s : Exchange) : Exchange :=
  (if mutexTaken then s.copyToMQTT else s).publishRecords

end Exchange

/-- The bytes of `memset(.., 0xFF, ..)`, which are no number as a `double`; `estimatedCost` stands for
whatever they are read as. -/
def SessionInfo.powerOn (estimatedCost : ℚ) : SessionInfo where
  sessionType := 4294967295
  connector := 15
  stopReason := 4294967295
  startDateTime j := if j.val = 24 then NUL else byteChar 0xFF
  endDateTime j := if j.val = 24 then NUL else byteChar 0xFF
  chargePercentage := 255
  energyConsumed := 4294967295
  estimatedCost := estimatedCost
  chargeDuration := 4294967295
  startSoC := 255
  endSoC := 255
  chargingSessionOccured := true

def FaultLog.powerOn : FaultLog where
  faultType := 15
  player := 15
  faultCode := 255
  occuranceDateTime _ := NUL
  clearanceDateTime _ := NUL
  faultLogDataExchanged := false

/-- The start of the tasks, once the charger is configured and enabled. -/
def Exchange.powerOn (estimatedCost : ℚ) : Exchange where
  chargerConfigReceived := true
  pmuEnable := true
  receivedConfigDataMQTT := true
  toggleChargingSession := 0
  sessions :=
    ⟨.powerOn estimatedCost, .powerOn estimatedCost, .powerOn estimatedCost, true, []⟩
  faults := ⟨.powerOn, .powerOn, .powerOn, false, []⟩

/-! ### What the charger sends -/

/-- A record as it is sent: frame `n` carries the seven bytes from `7 * n` on. -/
structure SentRecord where
  byte : Nat → UInt8

namespace SentRecord

variable (x : SentRecord)

def frame (n : UInt8) : Frame := fun i =>
  if i = 0 then n else x.byte (7 * n.toNat + i.val - 1)

/-- The 25 bytes from `first` on. -/
def date (first : Nat) : CharArray 25 := fun j => byteChar (x.byte (first + j.val))

def sessionType : Nat := (x.byte 7).toNat % 16

/-- The session that the bytes describe. -/
def sessionInfo : SessionInfo where
  sessionType := x.sessionType
  connector := (x.byte 7).toNat / 16
  stopReason := (x.byte 8).toNat
  startDateTime := x.date 9
  endDateTime := x.date 35
  chargePercentage := (x.byte 34).toNat
  energyConsumed := (x.byte 60).toNat * 65536 + (x.byte 61).toNat * 256 + (x.byte 62).toNat
  estimatedCost :=
    (((x.byte 63).toNat * 65536 + (x.byte 64).toNat * 256 + (x.byte 65).toNat : Nat) : ℚ) / 1000
  chargeDuration := (x.byte 66).toNat * 256 + (x.byte 67).toNat
  startSoC := (x.byte 68).toNat
  endSoC := (x.byte 69).toNat
  chargingSessionOccured := false

/-- The fault that the bytes describe. -/
def faultLog : FaultLog where
  faultType := (x.byte 7).toNat % 16
  player := (x.byte 7).toNat / 16
  faultCode := (x.byte 8).toNat
  occuranceDateTime := x.date 9
  clearanceDateTime := x.date 34
  faultLogDataExchanged := false

end SentRecord

/-! ### Runs -/

inductive Exchange.Event
  | sessionFrame (sender : SentRecord) (number : UInt8)
  | faultFrame (sender : SentRecord) (number : UInt8)
  | canCopy
  | mqttIteration (mutexTaken : Bool)

/-- The exchange with its history: for each frame the record whose bytes its fields hold, and the
records that were completed, that is, that flipped the bit. -/
structure ObservedExchange extends Exchange where
  sessionSource : Nat → Option SentRecord
  faultSource : Nat → Option SentRecord
  completedSessions : List SentRecord
  completedFaults : List SentRecord

namespace ObservedExchange

/-- A first frame that wipes the start date leaves nothing of the first four frames. -/
def sourceOfSession (x : SentRecord) (n : UInt8) (source : Nat → Option SentRecord) :
    Nat → Option SentRecord :=
  if n = 1 ∧ (x.sessionType = initiatedButNotStarted
      ∨ x.sessionType = initiatedStartedPowerOutage) then
    fun k => if k ≤ 4 then none else source k
  else Function.update source n.toNat (some x)

def step : Exchange.Event → ObservedExchange → ObservedExchange
  | .sessionFrame x n, s =>
    let next := s.toExchange.handleSession (x.frame n)
    { s with
      toExchange := next
      sessionSource := sourceOfSession x n s.sessionSource
      completedSessions :=
        if next.sessions.producer.chargingSessionOccured
          = s.sessions.producer.chargingSessionOccured then s.completedSessions
        else s.completedSessions ++ [x] }
  | .faultFrame x n, s =>
    let next := s.toExchange.handleFault (x.frame n)
    { s with
      toExchange := next
      faultSource := Function.update s.faultSource n.toNat (some x)
      completedFaults :=
        if next.faults.producer.faultLogDataExchanged = s.faults.producer.faultLogDataExchanged then
          s.completedFaults
        else s.completedFaults ++ [x] }
  | .canCopy, s => { s with toExchange := s.toExchange.copyToIPC }
  | .mqttIteration mutexTaken, s =>
    { s with toExchange := s.toExchange.mqttIteration mutexTaken }

def powerOn (estimatedCost : ℚ) : ObservedExchange where
  toExchange := .powerOn estimatedCost
  sessionSource _ := none
  faultSource _ := none
  completedSessions := []
  completedFaults := []

def run (events : List Exchange.Event) (s : ObservedExchange) : ObservedExchange :=
  events.foldl (fun s event => step event s) s

end ObservedExchange

end Pmu
