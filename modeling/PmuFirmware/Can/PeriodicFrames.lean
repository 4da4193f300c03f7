import PmuFirmware.Can.ChargerConfig
import PmuFirmware.Messages.ComponentStatus

/-!
# Periodic frames

The charger and its power modules report their readings in numbered frames over and over. Two bytes of
a frame are a number of tenths, and a number with all bits set has not been measured; the charger's
handler then keeps the last one. A quotient stands for the nearest `double` to it, or `float` where the
source divides by one.
-/

namespace Pmu

def PERIODIC_DATA_ID : Nat := 0x33

/-- `chargerPeriodicStatusCAN`: what is reported, and what the frames are accounted for by. -/
structure PeriodicStatus extends ChargerPeriodicStatus where
  canSuccess : Bool
  receivedDataChargerPeriodic : Bool
  trackNoofFrames : UInt16

/-- `powerModulesCAN[k]` -/
structure CanModule extends PowerModuleData where
  canFailureCount : UInt16
  canSuccess : Bool

/-! ### Numbers in a frame -/

section Numbers

variable (data : Frame)

def twoBytes (k : Fin 8) : Nat := (data k).toNat * 256 + (data (k + 1)).toNat

def tenths (k : Fin 8) : ℚ := (twoBytes data k : ℚ) / 10

/-- The byte `k`, unless it is 0xFF. -/
def measuredByte (k : Fin 8) (last : UInt8) : UInt8 := if data k = 0xFF then last else data k

def measuredTenths (k : Fin 8) (last : ℚ) : ℚ :=
  if data k = 0xFF ∧ data (k + 1) = 0xFF then last else tenths data k

/-- Three values, from the bytes 1, 3 and 5 on. -/
def measuredPhases (last : Fin 3 → ℚ) : Fin 3 → ℚ := fun phase =>
  measuredTenths data (Fin.ofNat 8 (2 * phase.val + 1)) (last phase)

/-- Thousandths in three bytes, as the whole number they are stored in. -/
def measuredThousandths (k : Fin 8) (last : UInt32) : UInt32 :=
  if data k = 0xFF ∧ data (k + 1) = 0xFF ∧ data (k + 2) = 0xFF then last
  else UInt32.ofNat (threeBytes data k / 1000)

end Numbers

/-! ### The charger -/

/-- `1 << n`; what it gives where the language says nothing is a parameter. -/
def shiftOne (undefinedShift : Int → UInt32) (n : Int) : UInt32 :=
  if 0 ≤ n ∧ n < 32 then UInt32.ofNat (1 <<< n.toNat) else undefinedShift n

/-- `sequence_number-1` -/
def shiftDistance (data : Frame) : Int := (data 0).toNat - 1

/-- The frame is marked as received before its number is looked at. -/
def trackFrame (undefinedShift : Int → UInt32) (data : Frame) (s : PeriodicStatus) :
    PeriodicStatus :=
  { s with
    trackNoofFrames := s.trackNoofFrames
      ||| (shiftOne undefinedShift (shiftDistance data)).toUInt16 }

/-- What a frame brings for the connector with index `k`: its energy and its meter, in frames 5 and 7. -/
def PeriodicStatus.setEnergy (data : Frame) (k : Fin noOfConnectors) (s : PeriodicStatus) :
    PeriodicStatus :=
  { s with
    dcEnergy := Function.update s.dcEnergy k (measuredThousandths data 1 (s.dcEnergy k))
    dcMeterComm :=
      if data 4 = 0xFF then s.dcMeterComm else Function.update s.dcMeterComm k (data 4).toNat }

/-- The readings of the meter of the connector with index `k`, in frames 6 and 8. -/
def PeriodicStatus.setMeter (data : Frame) (k : Fin noOfConnectors) (s : PeriodicStatus) :
    PeriodicStatus :=
  { s with
    dcVoltage := Function.update s.dcVoltage k (measuredTenths data 1 (s.dcVoltage k))
    dcCurrent := Function.update s.dcCurrent k (measuredTenths data 3 (s.dcCurrent k))
    dcMeterPower := Function.update s.dcMeterPower k (measuredThousandths data 5 (s.dcMeterPower k)) }

/-- The fields that a frame with a number from 1 to 10 sets. -/
def setReadings (data : Frame) (s : PeriodicStatus) : PeriodicStatus :=
  match (data 0).toNat with
  | 1 =>
    { s with
      gridVoltages := measuredPhases data s.gridVoltages
      acMeterComm := (data 7).toNat }
  | 2 => { s with gridCurrents := measuredPhases data s.gridCurrents }
  | 3 => { s with acMeterLineVoltages := measuredPhases data s.acMeterLineVoltages }
  | 4 =>
    { s with
      acEnergy := measuredThousandths data 1 s.acEnergy
      realPowerFactor := if data 4 = 0xFF then 1 / 10 else ((data 4).toNat : ℚ) / 100
      avgPowerFactor := if data 5 = 0xFF then s.avgPowerFactor else ((data 5).toNat : ℚ) / 100 }
  | 5 =>
    { s.setEnergy data 0 with
      chargerStatus := measuredByte data 5 s.chargerStatus
      connectorsStatus := Function.update
        (Function.update s.connectorsStatus 0 (measuredByte data 6 (s.connectorsStatus 0))) 1
        (measuredByte data 7 (s.connectorsStatus 1)) }
  | 6 => s.setMeter data 0
  | 7 => s.setEnergy data 1
  | 8 => s.setMeter data 1
  | 9 =>
    { s with
      lcuCommStatus := (data 1).toNat
      ev_evseCommRecv := Function.update (Function.update s.ev_evseCommRecv 0 (data 2).toNat) 1
        (data 4).toNat
      errorCode0Recv := Function.update (Function.update s.errorCode0Recv 0 (data 3)) 1 (data 5)
      lcuInternetStatus := (data 6).toNat
      websocketConnection := (data 7).toNat }
  | 10 =>
    { s with
      virtualEnergyMeter := UInt32.ofNat (threeBytes data 1)
      chargerFaultCode := data 4
      connectorFaultCode := Function.update (Function.update s.connectorFaultCode 0 (data 5)) 1
        (data 6)
      receivedDataChargerPeriodic := true }
  | _ => s

def handlePeriodicData (undefinedShift : Int → UInt32) (data : Frame) (s : PeriodicStatus) :
    PeriodicStatus :=
  setReadings data (trackFrame undefinedShift data s)

/-! ### The power modules -/

def tenthsPhases (data : Frame) (first : Nat) : Fin 3 → ℚ := fun phase =>
  tenths data (Fin.ofNat 8 (2 * phase.val + first))

/-- The fields of a module that a frame with a number from 1 to 8 sets. -/
def CanModule.setReadings (data : Frame) (m : CanModule) : CanModule :=
  let number := (data 0).toNat
  if number = 1 then
    { m with
      gridAvailability := (data 1).toNat / 128
      fault := (data 1).toNat % 128
      acVoltages := tenthsPhases data 2 }
  else if number = 2 then { m with acCurrents := tenthsPhases data 1 }
  else if number = 3 then
    { m with
      dcVoltages := { m.dcVoltages with
        vdcp := tenths data 1, vdcn := tenths data 3, vdc := tenths data 5 } }
  else if number = 4 then
    { m with
      dcVoltages := { m.dcVoltages with
        vdc2_2 := tenths data 2, vout1 := tenths data 4, vout2 := tenths data 6 } }
  else if number = 5 then
    { m with dcCurrents := ⟨tenths data 1, tenths data 3, tenths data 5⟩ }
  else if number = 6 then
    { m with
      temperatures := { m.temperatures with
        gsc := tenths data 1, hfiInv := tenths data 3, hfRectifier := tenths data 5 } }
  else if number = 7 then
    -- of the two bytes of a version number the upper one is cut off
    { m with
      temperatures := { m.temperatures with buck := tenths data 1 }
      versionMajorNumber := data 4
      versionMinorNumber := data 6 }
  else if number = 8 then
    { m with
      dcVoltages := { m.dcVoltages with
        fanVoltageMaster := tenths data 1, fanVoltageSlave := tenths data 3,
        vdc2_1 := tenths data 5 } }
  else m

/-- `handle_pcm_message`, which is called for the identifiers from 0x21 to 0x30. -/
def handlePcmMessage (identifier : Nat) (data : Frame) (modules : Fin maxPcmModule → CanModule) :
    Fin maxPcmModule → CanModule :=
  if h : identifier - 0x21 < maxPcmModule then
    Function.update modules ⟨identifier - 0x21, h⟩
      ({ modules ⟨identifier - 0x21, h⟩ with canSuccess := true }.setReadings data)
  else modules

end Pmu
