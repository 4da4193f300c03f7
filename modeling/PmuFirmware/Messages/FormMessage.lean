import PmuFirmware.Queue.Store
import PmuFirmware.Lib.Json

/-!
# The messages that are queued

A message is the JSON array `[2, uuid, action, payload]`, printed without white space. The payloads
of sessions and faults carry the date and time strings exactly as they arrived over CAN.

Printing is done by a JSON library, which is a parameter; it has no result when memory runs out.
-/

namespace Pmu

open CLib

/-- The globals through which the UUID of the first configuration message is remembered. -/
structure CallState where
  firstTimeBootUpFlag : Nat
  configDataBootUUID : CStr

def configurationData : CStr := "ConfigurationData".toList
def chargingSession : CStr := "ChargingSession".toList
def faultInformation : CStr := "FaultInformation".toList

/-- The array that is printed for a call. -/
def callArray (uuid action : CStr) (payload : Json) : Json :=
  .array [.number 2, .string uuid, .string action, payload]

/-- `create_json_call_string`, with the UUID that `generateUUID` filled in. -/
def createJsonCallString (print : Json → Option CStr) (uuid action : CStr) (payload : Option Json)
    (s : CallState) : Option CStr × CallState :=
  let s :=
    if s.firstTimeBootUpFlag = 3 ∧ action = configurationData then ⟨0, uuid⟩ else s
  match payload with
  | none => (none, s)
  | some payload => (print (callArray uuid action payload), s)

/-- `roundToDecimals`, with `round` rounding halves away from zero. -/
def roundToDecimals (value : ℚ) (decimals : Nat) : ℚ :=
  let scaled := value * 10 ^ decimals
  (if 0 ≤ scaled then (⌊scaled + 1 / 2⌋ : ℚ) else (⌈scaled - 1 / 2⌉ : ℚ)) / 10 ^ decimals

/-! ### Sessions -/

/-- The record of a charging session; `sessionType` has four bits on the bus. -/
structure SessionInfo where
  sessionType : Nat
  connector : Nat
  stopReason : Nat
  startDateTime : CharArray 25
  endDateTime : CharArray 25
  chargePercentage : Nat
  energyConsumed : Nat
  estimatedCost : ℚ
  chargeDuration : Nat
  startSoC : Nat
  endSoC : Nat
  chargingSessionOccured : Bool

abbrev initiatedButNotStarted : Nat := 1
abbrev initiatedStartedNormalTermination : Nat := 2
abbrev initiatedStartedFaultyTermination : Nat := 3
abbrev initiatedStartedPowerOutage : Nat := 4

/-- The payload of `create_chargingSession_message`. -/
def chargingSessionPayload (now : UtcTime) (s : SessionInfo) : Json :=
  .object <|
    [("timestamp".toList, .string (now.iso ++ ['Z'])),
      ("sessionType".toList, .number s.sessionType),
      ("connector".toList, .number s.connector)]
    ++ (if s.sessionType = initiatedButNotStarted
          ∨ s.sessionType = initiatedStartedNormalTermination
          ∨ s.sessionType = initiatedStartedFaultyTermination then
        [("stopReason".toList, .number s.stopReason)]
      else [])
    ++ (if s.sessionType = initiatedStartedNormalTermination
          ∨ s.sessionType = initiatedStartedFaultyTermination then
        [("startDateTime".toList, .string s.startDateTime.cstr),
          ("endDateTime".toList, .string s.endDateTime.cstr),
          ("energyConsumed".toList, .number s.energyConsumed),
          ("estimatedCost".toList, .number (roundToDecimals s.estimatedCost 2)),
          ("chargePercentage".toList, .number s.chargePercentage),
          ("chargeDuration".toList, .number s.chargeDuration),
          ("startSoC".toList, .number s.startSoC),
          ("endSoC".toList, .number s.endSoC)]
      else [])

/-! ### Faults -/

/-- The record of a fault; `faultType` and `player` have four bits. -/
structure FaultLog where
  faultType : Nat
  player : Nat
  faultCode : Nat
  occuranceDateTime : CharArray 25
  clearanceDateTime : CharArray 25
  faultLogDataExchanged : Bool

/-- The payload of `create_faultLog_message`. -/
def faultLogPayload (now : UtcTime) (s : FaultLog) : Json :=
  .object
    [("timestamp".toList, .string (now.iso ++ ['Z'])),
      ("type".toList, .number s.faultType),
      ("connectorId".toList, .number s.player),
      ("occurrenceDateTime".toList, .string s.occuranceDateTime.cstr),
      ("clearanceDateTime".toList, .string s.clearanceDateTime.cstr),
      ("faultCode".toList, .number s.faultCode)]

/-- The file a fault is queued in, if it is queued at all. -/
def faultLogFile (s : FaultLog) : Option QueueFile :=
  if s.faultType = 0 then
    if s.player = 0 then some .offlineCharger
    else if s.player ≤ noOfConnectors then some (.connector (s.player - 1))
    else none
  else some .onlineCharger

end Pmu
