import PmuFirmware.Lib.CString

/-!
# Detecting configuration changes

`check_config_data_changes` compares the configuration that has arrived with the one last copied,
field by field. For each field that differs it sets one to three flags, which say later what to put
into the message. It is a list of such checks, run from top to bottom.
-/

namespace Pmu

open CLib

/-- The largest `float`, which stands for a limit that has not been set. -/
def fltMax : ℚ := (2 ^ 24 - 1) * 2 ^ 104

structure LimitSetting where
  chargerPower : ℚ
  gunAVoltage : ℚ
  gunACurrent : ℚ
  gunAPower : ℚ
  gunBVoltage : ℚ
  gunBCurrent : ℚ
  gunBPower : ℚ
  serverChargerPower : ℚ
  serverConnectorAPower : ℚ
  serverConnectorACurrent : ℚ
  serverConnectorBPower : ℚ
  serverConnectorBCurrent : ℚ

structure VersionInfo where
  hmiVersion : CStr
  lcuVersion : CStr
  mcuVersion : CStr
  evseCommContoller : Fin 2 → CStr
  pmu : CStr

/-- `chargerConfig_t`: the fields that are compared or reported. -/
structure ChargerConfig where
  numPCM : Fin 16
  pmuEnable : Fin 2
  configKeyValue : UInt8
  tarrifAmount : ℚ
  brand : Fin 128
  autoCharge : Nat
  dynamicPowerSharing : Nat
  energyMeterSetting : Nat
  zeroMeterStartEnable : Nat
  serialNumber : CStr
  limitSetting : LimitSetting
  versionInfo : VersionInfo
  ocppURL : CStr
  wifiSsid : CStr
  wifiPassword : CStr
  mqttBroker : CStr
  eepromCommStatus : Fin 2
  rtcCommStatus : Fin 2

/-- The part of `powerModule_t` that tells its version. -/
structure PowerModule where
  versionMajorNumber : UInt8
  versionMinorNumber : UInt8
  canFailure : Bool

/-- `flags_t`: the bits that are set or read. -/
inductive Flag
  | numConnectorsFlag | numConnector1 | numConnector2 | numPCMFlag | pmuEnabled
  | configKeyValueFlag | tarrifAmountFlag | brandFlag | autoChargeFlag | dynamicPowerSharingFlag
  | energyMeterSettingFlag | zeroMeterStartEnableFlag | serialNumberFlag
  | gunAVoltageFlag | gunACurrentFlag | gunAPowerFlag
  | gunBVoltageFlag | gunBCurrentFlag | gunBPowerFlag | chargerPowerFlag
  | versionInfoFlag | commController1 | commController2
  | hmiVersionFlag | lcuVersionFlag | mcuVersionFlag | pmuVersionFlag
  | ocppURLFlag | wifiSsidFlag | wifiPasswordFlag | mqttBrokerFlag
  | serverChargerPowerFlag | serverConnectorAPowerFlag | serverConnectorACurrentFlag
  | serverConnectorBPowerFlag | serverConnectorBCurrentFlag
  | eepromCommStatusFlag | rtcCommStatusFlag
  deriving DecidableEq

abbrev Flags := Flag → Bool

/-- One block of `check_config_data_changes`. -/
structure Check where
  differs : Bool
  parameter : Nat
  flags : List Flag

/-- The globals that the checks set. -/
structure Changes where
  isConfigurationChanged : Bool
  valueofChangedParameter : Nat
  flagConfig : Flags

def Check.run (s : Changes) (c : Check) : Changes :=
  if c.differs then
    ⟨true, c.parameter, fun flag => s.flagConfig flag || decide (flag ∈ c.flags)⟩
  else s

section Checks

variable (old new : ChargerConfig) (oldModules newModules : Nat → PowerModule)

def configChecks : List Check :=
  [⟨new.wifiSsid ≠ old.wifiSsid, 1, [.wifiSsidFlag]⟩,
    ⟨new.wifiPassword ≠ old.wifiPassword, 2, [.wifiPasswordFlag]⟩,
    ⟨new.mqttBroker ≠ old.mqttBroker, 3, [.mqttBrokerFlag]⟩,
    ⟨new.ocppURL ≠ old.ocppURL, 4, [.ocppURLFlag]⟩,
    ⟨new.serialNumber ≠ old.serialNumber, 5, [.serialNumberFlag]⟩,
    ⟨new.autoCharge ≠ old.autoCharge, 6, [.autoChargeFlag]⟩,
    ⟨new.brand ≠ old.brand, 7, [.brandFlag]⟩,
    ⟨new.limitSetting.chargerPower ≠ old.limitSetting.chargerPower, 8, [.chargerPowerFlag]⟩,
    ⟨new.versionInfo.evseCommContoller 0 ≠ old.versionInfo.evseCommContoller 0, 9,
      [.numConnectorsFlag, .numConnector1, .commController1]⟩,
    ⟨new.limitSetting.gunAVoltage ≠ old.limitSetting.gunAVoltage, 10,
      [.numConnectorsFlag, .numConnector1, .gunAVoltageFlag]⟩,
    ⟨new.limitSetting.gunACurrent ≠ old.limitSetting.gunACurrent, 11,
      [.numConnectorsFlag, .numConnector1, .gunACurrentFlag]⟩,
    ⟨new.limitSetting.gunAPower ≠ old.limitSetting.gunAPower, 12,
      [.numConnectorsFlag, .numConnector1, .gunAPowerFlag]⟩,
    ⟨new.versionInfo.evseCommContoller 1 ≠ old.versionInfo.evseCommContoller 1, 13,
      [.numConnectorsFlag, .numConnector2, .commController2]⟩,
    ⟨new.limitSetting.gunBVoltage ≠ old.limitSetting.gunBVoltage, 14,
      [.numConnectorsFlag, .numConnector2, .gunBVoltageFlag]⟩,
    ⟨new.limitSetting.gunBCurrent ≠ old.limitSetting.gunBCurrent, 15,
      [.numConnectorsFlag, .numConnector2, .gunBCurrentFlag]⟩,
    ⟨new.limitSetting.gunBPower ≠ old.limitSetting.gunBPower, 16,
      [.numConnectorsFlag, .numConnector2, .gunBPowerFlag]⟩,
    ⟨new.dynamicPowerSharing ≠ old.dynamicPowerSharing, 17, [.dynamicPowerSharingFlag]⟩,
    ⟨new.energyMeterSetting ≠ old.energyMeterSetting, 18, [.energyMeterSettingFlag]⟩,
    ⟨new.zeroMeterStartEnable ≠ old.zeroMeterStartEnable, 19, [.zeroMeterStartEnableFlag]⟩,
    ⟨new.configKeyValue ≠ old.configKeyValue, 20, [.configKeyValueFlag]⟩,
    ⟨new.tarrifAmount ≠ old.tarrifAmount, 21, [.tarrifAmountFlag]⟩,
    ⟨new.versionInfo.hmiVersion ≠ old.versionInfo.hmiVersion, 22,
      [.versionInfoFlag, .hmiVersionFlag]⟩,
    ⟨new.versionInfo.lcuVersion ≠ old.versionInfo.lcuVersion, 23,
      [.versionInfoFlag, .lcuVersionFlag]⟩,
    ⟨new.versionInfo.mcuVersion ≠ old.versionInfo.mcuVersion, 24,
      [.versionInfoFlag, .mcuVersionFlag]⟩,
    ⟨new.versionInfo.pmu ≠ old.versionInfo.pmu, 25, [.versionInfoFlag, .pmuVersionFlag]⟩]

/-- The check of the power module `i`. -/
def moduleCheck (i : Nat) : Check :=
  ⟨(newModules i).versionMajorNumber ≠ (oldModules i).versionMajorNumber
    ∨ (newModules i).versionMinorNumber ≠ (oldModules i).versionMinorNumber, 25 + (i + 1),
    [.versionInfoFlag, .numPCMFlag]⟩

/-- The limits set by the server; those of connector B set the flag of connector A. -/
def serverChecks : List Check :=
  [⟨new.limitSetting.serverChargerPower ≠ old.limitSetting.serverChargerPower, 36,
      [.serverChargerPowerFlag]⟩,
    ⟨new.limitSetting.serverConnectorAPower ≠ old.limitSetting.serverConnectorAPower, 37,
      [.numConnectorsFlag, .numConnector1, .serverConnectorAPowerFlag]⟩,
    ⟨new.limitSetting.serverConnectorACurrent ≠ old.limitSetting.serverConnectorACurrent, 38,
      [.numConnectorsFlag, .numConnector1, .serverConnectorACurrentFlag]⟩,
    ⟨new.limitSetting.serverConnectorBPower ≠ old.limitSetting.serverConnectorBPower, 37,
      [.numConnectorsFlag, .numConnector1, .serverConnectorBPowerFlag]⟩,
    ⟨new.limitSetting.serverConnectorBCurrent ≠ old.limitSetting.serverConnectorBCurrent, 37,
      [.numConnectorsFlag, .numConnector1, .serverConnectorBCurrentFlag]⟩,
    ⟨new.pmuEnable ≠ old.pmuEnable, 38, [.pmuEnabled]⟩]

def checks : List Check :=
  configChecks old new ++ (List.range old.numPCM).map (moduleCheck oldModules newModules)
    ++ serverChecks old new

/-- `check_config_data_changes` -/
def checkConfigDataChanges (s : Changes) : Changes :=
  (checks old new oldModules newModules).foldl Check.run s

end Checks

/-! ### Which flags are set -/

/-- Some check that sets the flag finds a difference. -/
def raises (rows : List Check) (flag : Flag) : Bool :=
  rows.any fun c => c.differs && decide (flag ∈ c.flags)

theorem raises_append (rows rows' : List Check) (flag : Flag) :
    raises (rows ++ rows') flag = (raises rows flag || raises rows' flag) :=
  List.any_append

theorem flagConfig_foldl (rows : List Check) (s : Changes) (flag : Flag) :
    (rows.foldl Check.run s).flagConfig flag = (s.flagConfig flag || raises rows flag) := by
  induction rows generalizing s with
  | nil => simp [raises]
  | cons c rows ih =>
      rw [List.foldl_cons, ih, Check.run]
      cases hdiffers : c.differs with
      | false => simp [raises, hdiffers]
      | true => simp [raises, hdiffers, Bool.or_assoc]

/-- The versions of some power module differ. -/
def modulesDiffer (numPCM : Nat) (oldModules newModules : Nat → PowerModule) : Bool :=
  (List.range numPCM).any fun i => (moduleCheck oldModules newModules i).differs

theorem raises_moduleChecks (numPCM : Nat) (oldModules newModules : Nat → PowerModule)
    (flag : Flag) :
    raises ((List.range numPCM).map (moduleCheck oldModules newModules)) flag
      = (modulesDiffer numPCM oldModules newModules
          && decide (flag ∈ [Flag.versionInfoFlag, .numPCMFlag])) := by
  rw [raises, List.any_map, modulesDiffer]
  by_cases hflag : flag ∈ [Flag.versionInfoFlag, .numPCMFlag] <;>
    simp [Function.comp_def, moduleCheck, hflag]

end Pmu
