import PmuFirmware.Config.Changes
import PmuFirmware.Messages.FormMessage

/-!
# Reporting configuration changes

`prepare_mqtt_send_config_data` puts an item into the payload when its flag is set and clears the
flag. The items of a connector and the versions lie in objects of their own, which have flags too. An
item is reported exactly when it has changed if the change sets the flags of all objects around it;
this module says for which changes that is so.
-/

namespace Pmu

open CLib

/-! ### The payload -/

/-- One `if (flag) cJSON_Add...ToObject(...)`. -/
structure Field where
  present : Bool
  flag : Option Flag
  name : CStr
  value : Json

def members (fields : List Field) : List (CStr × Json) :=
  (fields.filter Field.present).map fun field => (field.name, field.value)

/-- The flags that are cleared as the fields are added. -/
def cleared (fields : List Field) : List Flag :=
  (fields.filter Field.present).filterMap Field.flag

def flagField (flags : Flags) (flag : Flag) (name : String) (value : Json) : Field :=
  ⟨flags flag, some flag, name.toList, value⟩

/-- A limit, unless it has not been set. -/
def limitField (flags : Flags) (flag : Flag) (name : String) (limit : ℚ) (value : Json) : Field :=
  ⟨flags flag && decide (limit ≠ fltMax), some flag, name.toList, value⟩

def rounded (limit : ℚ) : Json := .number (roundToDecimals limit 2)

/-- What the two connectors differ in. -/
structure ConnectorReport where
  id : Nat
  flag : Flag
  commController : Flag
  voltageFlag : Flag
  currentFlag : Flag
  powerFlag : Flag
  serverPowerFlag : Flag
  serverCurrentFlag : Flag
  version : CStr
  voltage : ℚ
  current : ℚ
  power : ℚ
  serverPower : ℚ
  serverCurrent : ℚ

def connectorFields (flags : Flags) (r : ConnectorReport) : List Field :=
  [⟨true, none, "id".toList, .number r.id⟩,
    flagField flags r.commController "commControllerVersion" (.string r.version),
    limitField flags r.voltageFlag "voltageLimit" r.voltage (rounded r.voltage),
    limitField flags r.currentFlag "currentLimit" r.current (rounded r.current),
    limitField flags r.powerFlag "powerLimit" r.power (rounded r.power),
    flagField flags r.serverPowerFlag "serverPowerLimit" (rounded r.serverPower),
    flagField flags r.serverCurrentFlag "serverCurrentLimit" (rounded r.serverCurrent)]

section Payload

variable (flags : Flags) (c : ChargerConfig) (modules : Nat → PowerModule)

def connector1 : ConnectorReport where
  id := 1
  flag := .numConnector1
  commController := .commController1
  voltageFlag := .gunAVoltageFlag
  currentFlag := .gunACurrentFlag
  powerFlag := .gunAPowerFlag
  serverPowerFlag := .serverConnectorAPowerFlag
  serverCurrentFlag := .serverConnectorACurrentFlag
  version := c.versionInfo.evseCommContoller 0
  voltage := c.limitSetting.gunAVoltage
  current := c.limitSetting.gunACurrent
  power := c.limitSetting.gunAPower
  serverPower := c.limitSetting.serverConnectorAPower
  serverCurrent := c.limitSetting.serverConnectorACurrent

def connector2 : ConnectorReport where
  id := 2
  flag := .numConnector2
  commController := .commController2
  voltageFlag := .gunBVoltageFlag
  currentFlag := .gunBCurrentFlag
  powerFlag := .gunBPowerFlag
  serverPowerFlag := .serverConnectorBPowerFlag
  serverCurrentFlag := .serverConnectorBCurrentFlag
  version := c.versionInfo.evseCommContoller 1
  voltage := c.limitSetting.gunBVoltage
  current := c.limitSetting.gunBCurrent
  power := c.limitSetting.gunBPower
  serverPower := c.limitSetting.serverConnectorBPower
  serverCurrent := c.limitSetting.serverConnectorBCurrent

/-- The connectors that get an object. -/
def reportedConnectors : List ConnectorReport :=
  [connector1 c, connector2 c].filter fun r => flags r.flag

def connectorInfo : Json :=
  .array ((reportedConnectors flags c).map fun r => .object (members (connectorFields flags r)))

/-- `sprintf(versionArr, "%u.%u", ...)`, or the text for a module that cannot be reached. -/
def moduleVersion (m : PowerModule) : CStr :=
  if m.canFailure then "CommunicationFault".toList
  else Nat.toDigits 10 m.versionMajorNumber.toNat ++ '.' :: Nat.toDigits 10 m.versionMinorNumber.toNat

def moduleVersions : Json :=
  .array ((List.range c.numPCM).map fun i => .string (moduleVersion (modules i)))

def versionFields : List Field :=
  [flagField flags .hmiVersionFlag "hmi" (.string c.versionInfo.hmiVersion),
    flagField flags .lcuVersionFlag "lcu" (.string c.versionInfo.lcuVersion),
    flagField flags .mcuVersionFlag "mcu" (.string c.versionInfo.mcuVersion),
    flagField flags .numPCMFlag "pcm" (moduleVersions c modules),
    flagField flags .pmuVersionFlag "pmu" (.string "1.1".toList)]

/-- What is added while the PMU is enabled. -/
def enabledFields : List Field :=
  [flagField flags .autoChargeFlag "autoCharge" (.number c.autoCharge),
    flagField flags .brandFlag "brand" (.number c.brand),
    limitField flags .chargerPowerFlag "chargerPowerLimit" c.limitSetting.chargerPower
      (.number c.limitSetting.chargerPower),
    flagField flags .serverChargerPowerFlag "serverChargerPowerLimit"
      (rounded c.limitSetting.serverChargerPower),
    flagField flags .numConnectorsFlag "connectorInfo" (connectorInfo flags c),
    flagField flags .versionInfoFlag "versionInfo"
      (.object (members (versionFields flags c modules))),
    flagField flags .dynamicPowerSharingFlag "dynamicPowerSharing" (.number c.dynamicPowerSharing),
    flagField flags .energyMeterSettingFlag "energyMeterSetting" (.number c.energyMeterSetting),
    flagField flags .zeroMeterStartEnableFlag "zeroMeterStartEnable"
      (.number c.zeroMeterStartEnable),
    flagField flags .ocppURLFlag "ocppConnectionUrl" (.string c.ocppURL),
    flagField flags .configKeyValueFlag "chargerMode" (.number c.configKeyValue.toNat),
    flagField flags .tarrifAmountFlag "tariff" (rounded c.tarrifAmount),
    flagField flags .eepromCommStatusFlag "eepromCommStatus" (.number c.eepromCommStatus),
    flagField flags .rtcCommStatusFlag "rtcCommStatus" (.number c.rtcCommStatus)]

def rootFields (now : UtcTime) : List Field :=
  ⟨true, none, "timestamp".toList, .string (now.iso ++ ['Z'])⟩
    :: flagField flags .pmuEnabled "pmuStatus" (.number c.pmuEnable)
    :: if c.pmuEnable = 1 then enabledFields flags c modules else []

def clearedFlags (now : UtcTime) : List Flag :=
  cleared (rootFields flags c modules now)
    ++ if c.pmuEnable = 1 then
        (if flags .numConnectorsFlag then
          (reportedConnectors flags c).flatMap fun r => r.flag :: cleared (connectorFields flags r)
        else [])
        ++ (if flags .versionInfoFlag then cleared (versionFields flags c modules) else [])
      else []

/-- `prepare_mqtt_send_config_data`: the payload, and the flags that stay set. -/
def prepareMqttSendConfigData (now : UtcTime) : Json × Flags :=
  (.object (members (rootFields flags c modules now)),
    fun flag => flags flag && decide (flag ∉ clearedFlags flags c modules now))

end Payload

/-! ### What should be reported -/

structure Configuration where
  config : ChargerConfig
  modules : Nat → PowerModule

inductive Reading
  | nat (n : Nat)
  | limit (value : ℚ)
  | text (s : CStr)
  | versions (v : List (UInt8 × UInt8))
  deriving DecidableEq

inductive ConnectorItem
  | commControllerVersion | voltageLimit | currentLimit | powerLimit | serverPowerLimit
  | serverCurrentLimit

/-- The reportable items; connectors are numbered from 0 here. -/
inductive Item
  | autoCharge | brand | chargerPowerLimit | serverChargerPowerLimit
  | connector (k : Fin 2) (item : ConnectorItem)
  | hmi | lcu | mcu | pcm
  | dynamicPowerSharing | energyMeterSetting | zeroMeterStartEnable | ocppConnectionUrl
  | chargerMode | tariff | eepromCommStatus | rtcCommStatus | pmuStatus

def ConnectorItem.reading (r : ConnectorReport) : ConnectorItem → Reading
  | .commControllerVersion => .text r.version
  | .voltageLimit => .limit r.voltage
  | .currentLimit => .limit r.current
  | .powerLimit => .limit r.power
  | .serverPowerLimit => .limit r.serverPower
  | .serverCurrentLimit => .limit r.serverCurrent

def ConnectorItem.value (r : ConnectorReport) : ConnectorItem → Json
  | .commControllerVersion => .string r.version
  | .voltageLimit => rounded r.voltage
  | .currentLimit => rounded r.current
  | .powerLimit => rounded r.power
  | .serverPowerLimit => rounded r.serverPower
  | .serverCurrentLimit => rounded r.serverCurrent

def ConnectorItem.name : ConnectorItem → CStr
  | .commControllerVersion => "commControllerVersion".toList
  | .voltageLimit => "voltageLimit".toList
  | .currentLimit => "currentLimit".toList
  | .powerLimit => "powerLimit".toList
  | .serverPowerLimit => "serverPowerLimit".toList
  | .serverCurrentLimit => "serverCurrentLimit".toList

def connectorReport (c : ChargerConfig) : Fin 2 → ConnectorReport
  | 0 => connector1 c
  | 1 => connector2 c

namespace Item

/-- What is compared. -/
def reading (s : Configuration) : Item → Reading
  | autoCharge => .nat s.config.autoCharge
  | brand => .nat s.config.brand
  | chargerPowerLimit => .limit s.config.limitSetting.chargerPower
  | serverChargerPowerLimit => .limit s.config.limitSetting.serverChargerPower
  | connector k item => item.reading (connectorReport s.config k)
  | hmi => .text s.config.versionInfo.hmiVersion
  | lcu => .text s.config.versionInfo.lcuVersion
  | mcu => .text s.config.versionInfo.mcuVersion
  | pcm => .versions ((List.range s.config.numPCM).map fun i =>
      ((s.modules i).versionMajorNumber, (s.modules i).versionMinorNumber))
  | dynamicPowerSharing => .nat s.config.dynamicPowerSharing
  | energyMeterSetting => .nat s.config.energyMeterSetting
  | zeroMeterStartEnable => .nat s.config.zeroMeterStartEnable
  | ocppConnectionUrl => .text s.config.ocppURL
  | chargerMode => .nat s.config.configKeyValue.toNat
  | tariff => .limit s.config.tarrifAmount
  | eepromCommStatus => .nat s.config.eepromCommStatus
  | rtcCommStatus => .nat s.config.rtcCommStatus
  | pmuStatus => .nat s.config.pmuEnable

/-- What is reported. -/
def value (s : Configuration) : Item → Json
  | autoCharge => .number s.config.autoCharge
  | brand => .number s.config.brand
  | chargerPowerLimit => .number s.config.limitSetting.chargerPower
  | serverChargerPowerLimit => rounded s.config.limitSetting.serverChargerPower
  | connector k item => item.value (connectorReport s.config k)
  | hmi => .string s.config.versionInfo.hmiVersion
  | lcu => .string s.config.versionInfo.lcuVersion
  | mcu => .string s.config.versionInfo.mcuVersion
  | pcm => moduleVersions s.config s.modules
  | dynamicPowerSharing => .number s.config.dynamicPowerSharing
  | energyMeterSetting => .number s.config.energyMeterSetting
  | zeroMeterStartEnable => .number s.config.zeroMeterStartEnable
  | ocppConnectionUrl => .string s.config.ocppURL
  | chargerMode => .number s.config.configKeyValue.toNat
  | tariff => rounded s.config.tarrifAmount
  | eepromCommStatus => .number s.config.eepromCommStatus
  | rtcCommStatus => .number s.config.rtcCommStatus
  | pmuStatus => .number s.config.pmuEnable

/-- The object of a connector in the array of connectors. -/
def findConnector (k : Fin 2) (payload : Json) : Option Json :=
  (payload.getObjectItem "connectorInfo".toList).bind fun connectors =>
    connectors.children.find? fun connector =>
      match connector.getObjectItem "id".toList with
      | some (.number id) => id = (k.val + 1 : Nat)
      | _ => false

def findVersion (name : String) (payload : Json) : Option Json :=
  (payload.getObjectItem "versionInfo".toList).bind fun versions =>
    versions.getObjectItem name.toList

/-- Where the payload holds an item. -/
def find (payload : Json) : Item → Option Json
  | autoCharge => payload.getObjectItem "autoCharge".toList
  | brand => payload.getObjectItem "brand".toList
  | chargerPowerLimit => payload.getObjectItem "chargerPowerLimit".toList
  | serverChargerPowerLimit => payload.getObjectItem "serverChargerPowerLimit".toList
  | connector k item => (findConnector k payload).bind fun object => object.getObjectItem item.name
  | hmi => findVersion "hmi" payload
  | lcu => findVersion "lcu" payload
  | mcu => findVersion "mcu" payload
  | pcm => findVersion "pcm" payload
  | dynamicPowerSharing => payload.getObjectItem "dynamicPowerSharing".toList
  | energyMeterSetting => payload.getObjectItem "energyMeterSetting".toList
  | zeroMeterStartEnable => payload.getObjectItem "zeroMeterStartEnable".toList
  | ocppConnectionUrl => payload.getObjectItem "ocppConnectionUrl".toList
  | chargerMode => payload.getObjectItem "chargerMode".toList
  | tariff => payload.getObjectItem "tariff".toList
  | eepromCommStatus => payload.getObjectItem "eepromCommStatus".toList
  | rtcCommStatus => payload.getObjectItem "rtcCommStatus".toList
  | pmuStatus => payload.getObjectItem "pmuStatus".toList

end Item

/-- Every item whose limit is set is in the payload, with its new value, if and only if it differs. -/
def Reports (old new : Configuration) (payload : Json) : Prop :=
  ∀ item : Item, item.reading new ≠ .limit fltMax →
    item.find payload = if item.reading new ≠ item.reading old then some (item.value new) else none

/-- The item differs, and its new value counts. -/
def Changed (old new : Configuration) (item : Item) : Prop :=
  item.reading new ≠ item.reading old ∧ item.reading new ≠ .limit fltMax

instance (old new : Configuration) : DecidablePred (Changed old new) := fun item =>
  inferInstanceAs (Decidable (item.reading new ≠ item.reading old ∧ item.reading new ≠ .limit fltMax))

/-- The flags after the check, when none was set before. -/
def raisedFlags (old new : Configuration) : Flags :=
  (checkConfigDataChanges old.config new.config old.modules new.modules
    ⟨false, 0, fun _ => false⟩).flagConfig

/-- The check, the copy and the message. -/
def configurationPayload (now : UtcTime) (old new : Configuration) : Json :=
  (prepareMqttSendConfigData (raisedFlags old new) new.config new.modules now).1

/-! ### Looking an item up -/

/-- A field is found under its name if it is present, as long as no two names are alike. -/
theorem getObjectItem_members {fields : List Field}
    (hnames : (fields.map Field.name).Pairwise fun a b => Json.sameName a b = false) {field : Field}
    (hfield : field ∈ fields) :
    (Json.object (members fields)).getObjectItem field.name
      = if field.present then some field.value else none := by
  induction fields with
  | nil => cases hfield
  | cons first rest ih =>
      rw [List.map_cons, List.pairwise_cons] at hnames
      rw [Json.getObjectItem, members, List.filter_cons] at *
      rcases List.mem_cons.mp hfield with rfl | hrest
      · have hother : ∀ m ∈ members rest, Json.sameName m.1 field.name = false := by
          intro m hm
          obtain ⟨other, hother, rfl⟩ := List.mem_map.mp hm
          have hname := hnames.1 other.name
            (List.mem_map.mpr ⟨other, List.mem_of_mem_filter hother, rfl⟩)
          rw [Json.sameName, beq_eq_false_iff_ne] at hname ⊢
          exact hname.symm
        by_cases hpresent : field.present = true
        · simp [hpresent, Json.sameName]
        · have hnone : (members rest).find? (fun m => Json.sameName m.1 field.name) = none := by
            rw [List.find?_eq_none]
            intro m hm
            simp [hother m hm]
          rw [if_neg hpresent, if_neg hpresent]
          exact congrArg _ hnone
      · have hname := hnames.1 field.name (List.mem_map.mpr ⟨field, hrest, rfl⟩)
        have htail := ih hnames.2 hrest
        by_cases hpresent : first.present = true
        · rw [if_pos hpresent, List.map_cons, List.find?_cons_of_neg (by simpa using hname)]
          exact htail
        · rw [if_neg hpresent]
          exact htail

section Lookup

variable {flags : Flags} {c : ChargerConfig} {modules : Nat → PowerModule} {now : UtcTime}

theorem rootFields_names (hpmu : c.pmuEnable = 1) :
    ((rootFields flags c modules now).map Field.name).Pairwise
      fun a b => Json.sameName a b = false := by
  rw [rootFields, if_pos hpmu, enabledFields]
  simp only [List.map_cons, List.map_nil, flagField, limitField]
  decide +kernel

theorem connectorFields_names (r : ConnectorReport) :
    ((connectorFields flags r).map Field.name).Pairwise
      fun a b => Json.sameName a b = false := by
  rw [connectorFields]
  simp only [List.map_cons, List.map_nil, flagField, limitField]
  decide +kernel

theorem versionFields_names :
    ((versionFields flags c modules).map Field.name).Pairwise
      fun a b => Json.sameName a b = false := by
  rw [versionFields]
  simp only [List.map_cons, List.map_nil, flagField]
  decide +kernel

/-- A field of the root object, looked up in the payload. -/
theorem find_root (hpmu : c.pmuEnable = 1) {present : Bool} {name : CStr} {value : Json}
    (hfield : ∃ flag, ⟨present, flag, name, value⟩ ∈ enabledFields flags c modules) :
    (prepareMqttSendConfigData flags c modules now).1.getObjectItem name
      = if present then some value else none := by
  obtain ⟨flag, hfield⟩ := hfield
  have hroot : ⟨present, flag, name, value⟩ ∈ rootFields flags c modules now := by
    rw [rootFields, if_pos hpmu]
    exact List.mem_cons_of_mem _ (List.mem_cons_of_mem _ hfield)
  exact getObjectItem_members (rootFields_names hpmu) hroot

theorem find_pmuStatus (hpmu : c.pmuEnable = 1) :
    (prepareMqttSendConfigData flags c modules now).1.getObjectItem "pmuStatus".toList
      = if flags .pmuEnabled then some (.number c.pmuEnable) else none :=
  getObjectItem_members (rootFields_names hpmu)
    (show ⟨flags .pmuEnabled, some .pmuEnabled, "pmuStatus".toList, .number c.pmuEnable⟩
      ∈ rootFields flags c modules now by simp [rootFields, flagField])

theorem findVersion_eq (hpmu : c.pmuEnable = 1) {present : Bool} {name : String} {value : Json}
    (hfield : ∃ flag, ⟨present, flag, name.toList, value⟩ ∈ versionFields flags c modules) :
    Item.findVersion name (prepareMqttSendConfigData flags c modules now).1
      = if flags .versionInfoFlag && present then some value else none := by
  have hobject : (prepareMqttSendConfigData flags c modules now).1.getObjectItem
      "versionInfo".toList = if flags .versionInfoFlag then
        some (.object (members (versionFields flags c modules))) else none :=
    find_root hpmu ⟨_, List.mem_of_getElem? (i := 5) rfl⟩
  obtain ⟨flag, hfield⟩ := hfield
  have hversion : (Json.object (members (versionFields flags c modules))).getObjectItem name.toList
      = if present then some value else none :=
    getObjectItem_members versionFields_names hfield
  rw [Item.findVersion, hobject]
  by_cases hflag : flags .versionInfoFlag = true
  · rw [if_pos hflag, Option.bind_some, hversion, hflag, Bool.true_and]
  · simp [hflag]

theorem find_connectorField {r : ConnectorReport} {present : Bool} {name : CStr} {value : Json}
    (hfield : ∃ flag, ⟨present, flag, name, value⟩ ∈ connectorFields flags r) :
    (Json.object (members (connectorFields flags r))).getObjectItem name
      = if present then some value else none := by
  obtain ⟨flag, hfield⟩ := hfield
  exact getObjectItem_members (connectorFields_names r) hfield

theorem connector_id (r : ConnectorReport) :
    (Json.object (members (connectorFields flags r))).getObjectItem "id".toList
      = if true then some (.number r.id) else none :=
  find_connectorField ⟨_, List.mem_of_getElem? (i := 0) rfl⟩

theorem findConnector_eq (hpmu : c.pmuEnable = 1) (k : Fin 2) :
    Item.findConnector k (prepareMqttSendConfigData flags c modules now).1
      = if flags .numConnectorsFlag && flags (connectorReport c k).flag then
          some (.object (members (connectorFields flags (connectorReport c k))))
        else none := by
  have harray : (prepareMqttSendConfigData flags c modules now).1.getObjectItem
      "connectorInfo".toList = if flags .numConnectorsFlag then some (connectorInfo flags c)
        else none :=
    find_root hpmu ⟨_, List.mem_of_getElem? (i := 4) rfl⟩
  rw [Item.findConnector, harray]
  by_cases hflag : flags .numConnectorsFlag = true
  · rw [if_pos hflag, hflag, Bool.true_and, Option.bind_some, connectorInfo, Json.children,
      List.find?_map]
    simp only [Function.comp_def, connector_id, if_true]
    rw [reportedConnectors, List.find?_filter]
    have hids : (connector1 c).id = 1 ∧ (connector2 c).id = 2 := ⟨rfl, rfl⟩
    match k with
    | 0 =>
        by_cases hown : flags (connector1 c).flag = true <;> simp [connectorReport, hids, hown]
    | 1 =>
        by_cases hown : flags (connector2 c).flag = true <;> simp [connectorReport, hids, hown]
  · simp [hflag]

/-- Whether an item of a connector is put into the object of the connector. -/
def ConnectorItem.present (flags : Flags) (r : ConnectorReport) : ConnectorItem → Bool
  | .commControllerVersion => flags r.commController
  | .voltageLimit => flags r.voltageFlag && decide (r.voltage ≠ fltMax)
  | .currentLimit => flags r.currentFlag && decide (r.current ≠ fltMax)
  | .powerLimit => flags r.powerFlag && decide (r.power ≠ fltMax)
  | .serverPowerLimit => flags r.serverPowerFlag
  | .serverCurrentLimit => flags r.serverCurrentFlag

theorem find_connectorItem (r : ConnectorReport) (item : ConnectorItem) :
    (Json.object (members (connectorFields flags r))).getObjectItem item.name
      = if item.present flags r then some (item.value r) else none := by
  cases item
  case commControllerVersion =>
    exact find_connectorField ⟨_, List.mem_of_getElem? (i := 1) rfl⟩
  case voltageLimit =>
    exact find_connectorField ⟨_, List.mem_of_getElem? (i := 2) rfl⟩
  case currentLimit =>
    exact find_connectorField ⟨_, List.mem_of_getElem? (i := 3) rfl⟩
  case powerLimit =>
    exact find_connectorField ⟨_, List.mem_of_getElem? (i := 4) rfl⟩
  case serverPowerLimit =>
    exact find_connectorField ⟨_, List.mem_of_getElem? (i := 5) rfl⟩
  case serverCurrentLimit =>
    exact find_connectorField ⟨_, List.mem_of_getElem? (i := 6) rfl⟩

/-- Whether an item gets into the payload. -/
def Item.present (flags : Flags) (c : ChargerConfig) : Item → Bool
  | autoCharge => flags .autoChargeFlag
  | brand => flags .brandFlag
  | chargerPowerLimit =>
    flags .chargerPowerFlag && decide (c.limitSetting.chargerPower ≠ fltMax)
  | serverChargerPowerLimit => flags .serverChargerPowerFlag
  | connector k item =>
    flags .numConnectorsFlag && flags (connectorReport c k).flag
      && item.present flags (connectorReport c k)
  | hmi => flags .versionInfoFlag && flags .hmiVersionFlag
  | lcu => flags .versionInfoFlag && flags .lcuVersionFlag
  | mcu => flags .versionInfoFlag && flags .mcuVersionFlag
  | pcm => flags .versionInfoFlag && flags .numPCMFlag
  | dynamicPowerSharing => flags .dynamicPowerSharingFlag
  | energyMeterSetting => flags .energyMeterSettingFlag
  | zeroMeterStartEnable => flags .zeroMeterStartEnableFlag
  | ocppConnectionUrl => flags .ocppURLFlag
  | chargerMode => flags .configKeyValueFlag
  | tariff => flags .tarrifAmountFlag
  | eepromCommStatus => flags .eepromCommStatusFlag
  | rtcCommStatus => flags .rtcCommStatusFlag
  | pmuStatus => flags .pmuEnabled

/-- The payload holds the value of an item exactly when its flags let it through. -/
theorem find_eq (hpmu : c.pmuEnable = 1) (item : Item) :
    item.find (prepareMqttSendConfigData flags c modules now).1
      = if item.present flags c then some (item.value ⟨c, modules⟩) else none := by
  cases item
  case connector k item =>
    rw [Item.find, findConnector_eq hpmu, Item.present, Item.value]
    by_cases hobject : (flags .numConnectorsFlag && flags (connectorReport c k).flag) = true
    · rw [if_pos hobject, hobject, Option.bind_some, find_connectorItem, Bool.true_and]
    · rw [if_neg hobject]
      simp [hobject]
  case hmi =>
    exact findVersion_eq hpmu ⟨_, List.mem_of_getElem? (i := 0) rfl⟩
  case lcu =>
    exact findVersion_eq hpmu ⟨_, List.mem_of_getElem? (i := 1) rfl⟩
  case mcu =>
    exact findVersion_eq hpmu ⟨_, List.mem_of_getElem? (i := 2) rfl⟩
  case pcm =>
    exact findVersion_eq hpmu ⟨_, List.mem_of_getElem? (i := 3) rfl⟩
  case pmuStatus => exact find_pmuStatus hpmu
  case autoCharge => exact find_root hpmu ⟨_, List.mem_of_getElem? (i := 0) rfl⟩
  case brand => exact find_root hpmu ⟨_, List.mem_of_getElem? (i := 1) rfl⟩
  case chargerPowerLimit => exact find_root hpmu ⟨_, List.mem_of_getElem? (i := 2) rfl⟩
  case serverChargerPowerLimit => exact find_root hpmu ⟨_, List.mem_of_getElem? (i := 3) rfl⟩
  case dynamicPowerSharing => exact find_root hpmu ⟨_, List.mem_of_getElem? (i := 6) rfl⟩
  case energyMeterSetting => exact find_root hpmu ⟨_, List.mem_of_getElem? (i := 7) rfl⟩
  case zeroMeterStartEnable => exact find_root hpmu ⟨_, List.mem_of_getElem? (i := 8) rfl⟩
  case ocppConnectionUrl => exact find_root hpmu ⟨_, List.mem_of_getElem? (i := 9) rfl⟩
  case chargerMode => exact find_root hpmu ⟨_, List.mem_of_getElem? (i := 10) rfl⟩
  case tariff => exact find_root hpmu ⟨_, List.mem_of_getElem? (i := 11) rfl⟩
  case eepromCommStatus => exact find_root hpmu ⟨_, List.mem_of_getElem? (i := 12) rfl⟩
  case rtcCommStatus => exact find_root hpmu ⟨_, List.mem_of_getElem? (i := 13) rfl⟩

end Lookup

/-! ### Which changes are reported -/

section Changes

variable {old new : Configuration}

theorem raisedFlags_eq (flag : Flag) :
    raisedFlags old new flag
      = (raises (configChecks old.config new.config) flag
        || (modulesDiffer old.config.numPCM old.modules new.modules
            && decide (flag ∈ [Flag.versionInfoFlag, .numPCMFlag]))
        || raises (serverChecks old.config new.config) flag) := by
  rw [raisedFlags, checkConfigDataChanges, flagConfig_foldl, checks, raises_append, raises_append,
    raises_moduleChecks, Bool.false_or]

theorem modulesDiffer_iff (hnum : new.config.numPCM = old.config.numPCM) :
    modulesDiffer old.config.numPCM old.modules new.modules = true
      ↔ Item.pcm.reading new ≠ Item.pcm.reading old := by
  have hrow : ∀ i, (moduleCheck old.modules new.modules i).differs = true
      ↔ ((new.modules i).versionMajorNumber, (new.modules i).versionMinorNumber)
        ≠ ((old.modules i).versionMajorNumber, (old.modules i).versionMinorNumber) := by
    intro i
    rw [moduleCheck, decide_eq_true_eq, Ne, Ne, Ne, Prod.mk.injEq, not_and_or]
  rw [modulesDiffer, List.any_eq_true, Item.reading, Item.reading, hnum, Ne, Reading.versions.injEq,
    List.map_inj_left]
  simp only [hrow]
  push Not
  rfl

/-- The items whose changes are detected and whose flags are complete. -/
def Item.Covered : Item → Prop
  | eepromCommStatus => False
  | rtcCommStatus => False
  | connector 1 .serverPowerLimit => False
  | connector 1 .serverCurrentLimit => False
  | _ => True

theorem Item.not_covered {item : Item} (h : ¬ item.Covered) :
    item = .eepromCommStatus ∨ item = .rtcCommStatus
      ∨ ∃ server ∈ [ConnectorItem.serverPowerLimit, .serverCurrentLimit],
          item = .connector 1 server := by
  cases item
  case connector k server =>
    match k with
    | 0 => exact (h trivial).elim
    | 1 => cases server <;> first | exact (h trivial).elim | simp
  all_goals first | exact (h trivial).elim | simp

/-- A raised flag of a check, with the flags of the objects around it. -/
theorem present_connector {k : Fin 2} {item : ConnectorItem}
    (hcovered : (Item.connector k item).Covered)
    (hset : (Item.connector k item).reading new ≠ .limit fltMax) :
    (Item.connector k item).present (raisedFlags old new) new.config
      = decide ((Item.connector k item).reading new ≠ (Item.connector k item).reading old) := by
  have hk : k = 0 ∨ k = 1 := by omega
  by_cases hd : (Item.connector k item).reading new = (Item.connector k item).reading old
  all_goals
    rcases hk with rfl | rfl
    · cases item <;>
        simp_all [Item.present, Item.reading, raisedFlags_eq, raises, configChecks, serverChecks,
          connectorReport, ConnectorItem.present, ConnectorItem.reading, connector1]
    · cases item <;>
        simp_all [Item.Covered, Item.present, Item.reading, raisedFlags_eq, raises, configChecks,
          serverChecks, connectorReport, ConnectorItem.present, ConnectorItem.reading, connector2]

theorem present_of_covered (hnum : new.config.numPCM = old.config.numPCM) {item : Item}
    (hcovered : item.Covered) (hset : item.reading new ≠ .limit fltMax) :
    item.present (raisedFlags old new) new.config
      = decide (item.reading new ≠ item.reading old) := by
  cases item
  case connector k item => exact present_connector hcovered hset
  case eepromCommStatus => exact hcovered.elim
  case rtcCommStatus => exact hcovered.elim
  case chargerPowerLimit =>
    have hlimit : new.config.limitSetting.chargerPower ≠ fltMax := by
      intro h
      exact hset (by rw [Item.reading, h])
    simp [Item.present, Item.reading, raisedFlags_eq, raises, configChecks, serverChecks, hlimit]
  case pcm =>
    have hcases : modulesDiffer old.config.numPCM old.modules new.modules = true →
        (raises (configChecks old.config new.config) .versionInfoFlag
          || modulesDiffer old.config.numPCM old.modules new.modules) = true := by
      intro h
      rw [h, Bool.or_true]
    rw [← Bool.coe_iff_coe, decide_eq_true_eq, ← modulesDiffer_iff hnum]
    simpa [Item.present, raisedFlags_eq, raises, configChecks, serverChecks] using hcases
  case hmi | lcu | mcu =>
    simp only [Item.present, Item.reading, raisedFlags_eq, raises, configChecks, serverChecks]
    simp +contextual
  all_goals
    simp [Item.present, Item.reading, raisedFlags_eq, raises, configChecks, serverChecks,
      Fin.ext_iff, UInt8.toNat_inj]

/-- A change that sets the flag of the second connector. -/
def connector2Raised (old new : Configuration) : Prop :=
  ∃ item ∈ [ConnectorItem.commControllerVersion, .voltageLimit, .currentLimit, .powerLimit],
    (Item.connector 1 item).reading new ≠ (Item.connector 1 item).reading old

theorem numConnector2_iff :
    raisedFlags old new .numConnector2 = true ↔ connector2Raised old new := by
  simp [raisedFlags_eq, raises, configChecks, serverChecks, connector2Raised, Item.reading,
    ConnectorItem.reading, connectorReport, connector2]

/-- The limits of the server for the second connector need another change there. -/
theorem present_server {item : ConnectorItem}
    (hitem : item ∈ [ConnectorItem.serverPowerLimit, .serverCurrentLimit]) :
    (Item.connector 1 item).present (raisedFlags old new) new.config = true
      ↔ (Item.connector 1 item).reading new ≠ (Item.connector 1 item).reading old
        ∧ connector2Raised old new := by
  have hflag : (connectorReport new.config 1).flag = .numConnector2 := rfl
  have hconnectors : (Item.connector 1 item).reading new ≠ (Item.connector 1 item).reading old →
      raisedFlags old new .numConnectorsFlag = true := by
    rcases List.mem_pair.mp hitem with rfl | rfl <;>
      simp +contextual [Item.reading, ConnectorItem.reading, connectorReport, connector2,
        raisedFlags_eq, raises, serverChecks]
  have hown : item.present (raisedFlags old new) (connectorReport new.config 1) = true
      ↔ (Item.connector 1 item).reading new ≠ (Item.connector 1 item).reading old := by
    rcases List.mem_pair.mp hitem with rfl | rfl <;>
      simp [Item.reading, ConnectorItem.reading, ConnectorItem.present, connectorReport, connector2,
        raisedFlags_eq, raises, configChecks, serverChecks]
  rw [Item.present, hflag, Bool.and_eq_true, Bool.and_eq_true, numConnector2_iff, hown]
  constructor
  · intro hpresent
    exact ⟨hpresent.2, hpresent.1.2⟩
  · intro hchanged
    exact ⟨⟨hconnectors hchanged.1, hchanged.2⟩, hchanged.1⟩

theorem status_absent {item : Item} (hitem : item = .eepromCommStatus ∨ item = .rtcCommStatus) :
    item.present (raisedFlags old new) new.config = false := by
  rcases hitem with rfl | rfl <;>
    simp [Item.present, raisedFlags_eq, raises, configChecks, serverChecks]

/-- An item is reported if its flags let it through just when it differs. -/
theorem find_payload_iff (hpmu : new.config.pmuEnable = 1) (now : UtcTime) (item : Item) :
    item.find (configurationPayload now old new)
        = (if item.reading new ≠ item.reading old then some (item.value new) else none)
      ↔ (item.present (raisedFlags old new) new.config = true
          ↔ item.reading new ≠ item.reading old) := by
  rw [configurationPayload, find_eq hpmu]
  by_cases hpresent : item.present (raisedFlags old new) new.config = true <;>
    by_cases hdiffers : item.reading new = item.reading old <;> simp [hpresent, hdiffers]

end Changes

def plainConfig : ChargerConfig where
  numPCM := 1
  pmuEnable := 1
  configKeyValue := 0
  tarrifAmount := 0
  brand := 0
  autoCharge := 0
  dynamicPowerSharing := 0
  energyMeterSetting := 0
  zeroMeterStartEnable := 0
  serialNumber := []
  limitSetting := ⟨0, 0, 0, 0, 0, 0, 0, 0, 0, 0, 0, 0⟩
  versionInfo := ⟨[], [], [], fun _ => [], []⟩
  ocppURL := []
  wifiSsid := []
  wifiPassword := []
  mqttBroker := []
  eepromCommStatus := 0
  rtcCommStatus := 0

def plainModules (_ : Nat) : PowerModule := ⟨1, 0, false⟩

def plain : Configuration := ⟨plainConfig, plainModules⟩

/-- The same charger with other limits for the second connector. -/
def limited (gunBPower serverConnectorBPower : ℚ) : Configuration :=
  ⟨{ plainConfig with
    limitSetting := ⟨0, 0, 0, 0, 0, 0, gunBPower, 0, 0, 0, serverConnectorBPower, 0⟩ },
    plainModules⟩

def morning : UtcTime where
  year := 2024
  month := 6
  day := 2
  hour := 3
  minute := 4
  second := 5
  milli := 6
  year_lt := by decide
  month_mem := by decide
  day_mem := by decide
  hour_le := by decide
  minute_le := by decide
  second_le := by decide
  milli_lt := by decide

end Pmu
