import PmuFirmware.Can.Records

/-!
# The numbers of the configuration

The configuration comes in numbered frames: 1 to 4 hold the serial number with what comes before it,
and 5 holds one parameter. This is what `handle_charger_config` makes of their numbers; the strings are
collected in `Can.StringReassembly`. Values of type `float` and `double` are rational numbers here.
-/

namespace Pmu

open CLib

/-- A message on the bus. -/
structure CanMessage where
  identifier : Nat
  data : Frame

def FAULT_INFO_ID : Nat := 0x31
def SESSION_INFO_ID : Nat := 0x32
def CHARGER_CONFIG_ID : Nat := 0x34
def FAULT_LOG : Nat := 0x36
def ACK_PMU_ID : Nat := 0x41
def PMU_REQUEST : Nat := 0x43

/-- `chargerConfigCAN` without its strings, but for the serial number, and the globals that are set
with it. -/
structure ConfigNumbers where
  numConnectors : Nat
  numPCM : Nat
  powerInputType : Nat
  pmuEnable : Nat
  projectInfo : Nat
  parameterName : Nat
  limitSettingParameterName : Nat
  configKeyValue : Nat
  tarrifAmount : ℚ
  brand : Nat
  autoCharge : Nat
  dynamicPowerSharing : Nat
  energyMeterSetting : Nat
  zeroMeterStartEnable : Nat
  serialNumber : CharArray 25
  limitSetting : LimitSetting
  receivedConfigDataMQTT : Bool
  eepromCommStatus : Nat
  rtcCommStatus : Nat
  eepromFaultedFlag : Bool
  chargerConfigReceived : Bool

/-- The bytes `k`, `k + 1` and `k + 2`, the upper one first. -/
def threeBytes (data : Frame) (k : Fin 8) : Nat :=
  (data k).toNat * 65536 + (data (k + 1)).toNat * 256 + (data (k + 2)).toNat

/-- A limit that is not sent is left as it is. -/
def sentLimit (data : Frame) (unit limit : ℚ) : ℚ :=
  if data 3 = 0xFF ∧ data 4 = 0xFF ∧ data 5 = 0xFF then limit else (threeBytes data 3 : ℚ) / unit

def setLimit (data : Frame) (l : LimitSetting) : LimitSetting :=
  match (data 2).toNat with
  | 1 => { l with chargerPower := sentLimit data 1 l.chargerPower }
  | 2 => { l with gunAVoltage := sentLimit data 10 l.gunAVoltage }
  | 3 => { l with gunACurrent := sentLimit data 100 l.gunACurrent }
  | 4 => { l with gunAPower := sentLimit data 1 l.gunAPower }
  | 5 => { l with gunBVoltage := sentLimit data 10 l.gunBVoltage }
  | 6 => { l with gunBCurrent := sentLimit data 100 l.gunBCurrent }
  | 7 => { l with gunBPower := sentLimit data 1 l.gunBPower }
  -- the limits of the server are taken without a look at the bytes
  | 8 => { l with serverChargerPower := threeBytes data 3 }
  | 9 => { l with serverConnectorAPower := threeBytes data 3 }
  | 10 => { l with serverConnectorACurrent := (threeBytes data 3 : ℚ) / 100 }
  | 11 => { l with serverConnectorBPower := threeBytes data 3 }
  | 12 => { l with serverConnectorBCurrent := (threeBytes data 3 : ℚ) / 100 }
  | _ => l

/-- The parameters that are no strings. -/
def setParameter (data : Frame) (c : ConfigNumbers) : ConfigNumbers :=
  match (data 1).toNat with
  | 1 => { c with autoCharge := (data 2).toNat }
  | 2 => { c with configKeyValue := (data 2).toNat }
  | 3 =>
    { c with
      limitSettingParameterName := (data 2).toNat
      limitSetting := setLimit data c.limitSetting }
  | 9 => { c with tarrifAmount := (threeBytes data 2 : ℚ) / 1000 }
  | 11 => { c with eepromCommStatus := (data 2).toNat % 2, eepromFaultedFlag := true }
  | 12 => { c with rtcCommStatus := (data 2).toNat % 2 }
  | 13 =>
    { c with
      pmuEnable := (data 2).toNat % 2
      chargerConfigReceived := true
      receivedConfigDataMQTT := true }
  | _ => c

/-- The frames of `handle_charger_config` that carry numbers. -/
def handleConfigNumbers (data : Frame) (c : ConfigNumbers) : ConfigNumbers :=
  match (data 0).toNat with
  | 1 =>
    { c with
      numConnectors := (data 1).toNat % 16
      numPCM := (data 1).toNat / 16
      powerInputType := (data 2).toNat % 2
      dynamicPowerSharing := (data 2).toNat / 2 % 2
      energyMeterSetting := (data 2).toNat / 4 % 2
      zeroMeterStartEnable := (data 2).toNat / 8 % 2
      projectInfo := (data 2).toNat / 16
      brand := (data 3).toNat % 128
      serialNumber := setBytes 0 data 4 4 c.serialNumber }
  | 2 => { c with serialNumber := setBytes 4 data 1 7 c.serialNumber }
  | 3 => { c with serialNumber := setBytes 11 data 1 7 c.serialNumber }
  | 4 => { c with serialNumber := setBytes 18 data 1 7 c.serialNumber }
  | 5 => setParameter data { c with parameterName := (data 1).toNat }
  | _ => c

/-- The initialisation in `app_main`. -/
def ConfigNumbers.powerOn : ConfigNumbers where
  numConnectors := 0
  numPCM := 0
  powerInputType := 0
  pmuEnable := 0
  projectInfo := 0
  parameterName := 0
  limitSettingParameterName := 0
  configKeyValue := 0xFF
  tarrifAmount := 0
  brand := 0
  autoCharge := 0
  dynamicPowerSharing := 0
  energyMeterSetting := 0
  zeroMeterStartEnable := 0
  serialNumber _ := NUL
  limitSetting :=
    { chargerPower := fltMax
      gunAVoltage := fltMax
      gunACurrent := fltMax
      gunAPower := fltMax
      gunBVoltage := fltMax
      gunBCurrent := fltMax
      gunBPower := fltMax
      serverChargerPower := 0
      serverConnectorAPower := 0
      serverConnectorACurrent := 0
      serverConnectorBPower := 0
      serverConnectorBCurrent := 0 }
  receivedConfigDataMQTT := false
  eepromCommStatus := 0
  rtcCommStatus := 0
  eepromFaultedFlag := false
  chargerConfigReceived := false

/-! ### What a frame can change -/

/-- The last parameter, which completes the configuration. -/
def ClosesConfig (data : Frame) : Prop := (data 0).toNat = 5 ∧ (data 1).toNat = 13

instance (data : Frame) : Decidable (ClosesConfig data) :=
  inferInstanceAs (Decidable (_ ∧ _))

theorem setParameter_received (data : Frame) (c : ConfigNumbers) :
    (setParameter data c).chargerConfigReceived
      = (c.chargerConfigReceived || decide ((data 1).toNat = 13)) := by
  rw [setParameter]
  split
  case h_7 hclosing =>
    rw [hclosing]
    exact (Bool.or_true _).symm
  case h_8 hother => rw [decide_eq_false hother, Bool.or_false]
  all_goals
    rename_i hparameter
    rw [hparameter]
    exact (Bool.or_false _).symm

theorem handleConfigNumbers_received (data : Frame) (c : ConfigNumbers) :
    (handleConfigNumbers data c).chargerConfigReceived
      = (c.chargerConfigReceived || decide (ClosesConfig data)) := by
  rw [handleConfigNumbers]
  split
  case h_5 hfive =>
    rw [setParameter_received]
    simp only [ClosesConfig, hfive, true_and]
  case h_6 hother =>
    rw [decide_eq_false fun h => hother h.1, Bool.or_false]
  all_goals
    rename_i hnumber
    rw [decide_eq_false fun h => by rw [ClosesConfig, hnumber] at h; omega, Bool.or_false]

end Pmu
