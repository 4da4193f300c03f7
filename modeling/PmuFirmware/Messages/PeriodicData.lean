import PmuFirmware.Messages.ComponentStatus

/-!
# The builders that read the arrays of the charger

Besides the answers to status requests, the periodic messages, the configuration message and the check
for configuration changes read the arrays, with loops up to the numbers that came over CAN. None of
the numbers is compared with the size of an array.
-/

namespace Pmu

open CLib

variable (c : Charger) (now : UtcTime)

/-! ### Periodic data -/

/-- The payload of `create_PCM_Periodic_message`. -/
def pcmPeriodicPayload : Option Json :=
  createPCMAndComponentStatusPayloadJSON c now 0 c.config.numPCM.val none

/-- The uptime as it is stored. -/
def storedUptimeJson (connectionStatus : Nat) (u : Uptime) : Json :=
  uptimeJson connectionStatus (convertToTimeDuration u.totalUpTime)
    (convertToTimeDuration u.totalDownTime) u.totalUpTime u.totalDownTime

/-- The grid voltage of the first phase is left out when it is 0. -/
def gridVoltagesJson (voltages : Fin 3 → ℚ) : Json :=
  .array <|
    (if voltages 0 ≠ 0 then [.number (roundToDecimals (voltages 0) 1)] else [])
    ++ [.number (roundToDecimals (voltages 1) 1), .number (roundToDecimals (voltages 2) 1)]

def acMeterJson (s : ChargerPeriodicStatus) : Json :=
  .object <| numberField "commStatus" s.acMeterComm
    :: if s.acMeterComm = fine then
      [numberField "energy" s.acEnergy.toNat, ("gridVoltage".toList, gridVoltagesJson s.gridVoltages),
        ("gridCurrent".toList, phases s.gridCurrents 2),
        ("lineVoltage".toList, phases s.acMeterLineVoltages 1),
        numberField "realPowerFactor" (roundToDecimals s.realPowerFactor 2),
        numberField "avgPowerFactor" (roundToDecimals s.avgPowerFactor 1)]
    else []

/-- The readings of the meter of the connector with index `k`. -/
def dcMeterJson (s : ChargerPeriodicStatus) (k : Int) : Option Json := do
  let commStatus ← readArray s.dcMeterComm k
  if commStatus = fine then
    let current ← readArray s.dcCurrent k
    let energy ← readArray s.dcEnergy k
    let power ← readArray s.dcMeterPower k
    let voltage ← readArray s.dcVoltage k
    return .object [numberField "commStatus" commStatus,
      numberField "current" (roundToDecimals current 2), numberField "energy" energy.toNat,
      numberField "power" power.toNat, numberField "voltage" (roundToDecimals voltage 2)]
  else return .object [numberField "commStatus" commStatus]

/-- The codes of the controller that are errors. -/
def isErrorCode (code : UInt8) : Bool := 101 ≤ code

/-- An element of `connectorInfo` in the periodic data. -/
def connectorInfoJson (k : Int) : Option Json := do
  let controller ← commController c isErrorCode k
  let connectorStatus ← readArray c.status.connectorsStatus k
  let dcMeter ←
    if c.projectInfo = dcfc ∧ c.config.energyMeterSetting = actual then
      (dcMeterJson c.status k).map fun meter => [("dcMeter".toList, meter)]
    else some []
  let faultStatus ← readArray c.status.connectorFaultCode k
  return .object <|
    [numberField "id" ((k + 1 : Int) : ℚ), ("commController".toList, controller),
      numberField "connectorStatus" connectorStatus.toNat]
    ++ dcMeter ++ [numberField "faultStatus" faultStatus.toNat]

/-- The payload of `create_chargerPeriodicData_message`. -/
def chargerPeriodicDataPayload : Option Json :=
  if c.status.mcuComm = fine then
    (forRange 0 c.numConnectors.val (connectorInfoJson c)).map fun connectorInfo =>
      .object <|
        [timestampField now, numberField "mcuComm" c.status.mcuComm]
        ++ (if c.config.energyMeterSetting = actual then
            [("acMeter".toList, acMeterJson c.status)]
          else [])
        ++ [numberField "chargerStatus" c.status.chargerStatus.toNat,
          numberField "chargerFaultStatus" c.status.chargerFaultCode.toNat,
          ("connectorInfo".toList, .array connectorInfo),
          ("ocppController".toList, ocppController c storedUptimeJson),
          numberField "virtualEnergyMeter" c.status.virtualEnergyMeter.toNat]
  else some (.object [timestampField now, numberField "mcuComm" c.status.mcuComm])

/-! ### The configuration -/

/-- The versions in an array of modules, once the elements before `numPCM` have been read. -/
def readVersions (modules : Fin maxPcmModule → PowerModuleData) (numPCM : Nat) :
    Option (Nat → PowerModule) :=
  (forRange 0 numPCM (readArray modules)).map fun read i =>
    (read[i]?.getD (modules 0)).toPowerModule

/-- `check_config_data_changes`, with its reads of `powerModulesIPC` and `powerModulesMQTT`. -/
def checkedConfigDataChanges (configIPC : ChargerConfig)
    (modulesIPC : Fin maxPcmModule → PowerModuleData) (s : Changes) : Option Changes := do
  let new ← readVersions modulesIPC c.config.numPCM
  let old ← readVersions c.modules c.config.numPCM
  return checkConfigDataChanges c.config configIPC old new s

/-- The versions of the modules are only read when they are put into the message. -/
def reportedModules (flags : Flags) : Option (Nat → PowerModule) :=
  if c.config.pmuEnable = 1 ∧ flags .versionInfoFlag ∧ flags .numPCMFlag then
    readVersions c.modules c.config.numPCM
  else some fun _ => (c.modules 0).toPowerModule

/-- `prepare_mqtt_send_config_data`, with its reads of `powerModulesMQTT`. -/
def checkedSendConfigData (flags : Flags) : Option (Json × Flags) :=
  (reportedModules c flags).map fun modules =>
    prepareMqttSendConfigData flags c.config modules now

end Pmu
