import PmuFirmware.Lib.CArray
import PmuFirmware.Config.Report
import PmuFirmware.Inbound.Validate

/-!
# The status of a component

The server asks for one of four components: the power modules, the controllers of the connectors, the
OCPP controller and the grid. The id picks one module or one connector; 0 stands for all of them. The
numbers of modules and connectors come over CAN in four bits each, while the arrays that hold their
data have a fixed size, so a builder that reads past an array has no result.
-/

namespace Pmu

open CLib

abbrev maxPcmModule : Nat := 10
abbrev fine : Nat := 1
abbrev actual : Nat := 1
abbrev online : UInt8 := 0
abbrev dcfc : Nat := 0

/-! ### The data of the charger -/

structure DcVoltages where
  vdcp : ℚ
  vdcn : ℚ
  vdc : ℚ
  vdc2_1 : ℚ
  vdc2_2 : ℚ
  vout1 : ℚ
  vout2 : ℚ
  fanVoltageMaster : ℚ
  fanVoltageSlave : ℚ

structure DcCurrents where
  iTrf : ℚ
  iout1 : ℚ
  iout2 : ℚ

structure Temperatures where
  gsc : ℚ
  hfiInv : ℚ
  hfRectifier : ℚ
  buck : ℚ

/-- `powerModule_t` -/
structure PowerModuleData extends PowerModule where
  acVoltages : Fin 3 → ℚ
  acCurrents : Fin 3 → ℚ
  dcVoltages : DcVoltages
  dcCurrents : DcCurrents
  temperatures : Temperatures
  fault : Nat
  gridAvailability : Nat

/-- `ChargerPeriodicStatus_t`: the fields that are reported. -/
structure ChargerPeriodicStatus where
  mcuComm : Nat
  ev_evseCommRecv : Fin noOfConnectors → Nat
  acMeterComm : Nat
  dcMeterComm : Fin noOfConnectors → Nat
  acEnergy : UInt32
  dcEnergy : Fin noOfConnectors → UInt32
  virtualEnergyMeter : UInt32
  dcMeterPower : Fin noOfConnectors → UInt32
  gridVoltages : Fin 3 → ℚ
  gridCurrents : Fin 3 → ℚ
  dcVoltage : Fin noOfConnectors → ℚ
  dcCurrent : Fin noOfConnectors → ℚ
  acMeterLineVoltages : Fin 3 → ℚ
  realPowerFactor : ℚ
  avgPowerFactor : ℚ
  errorCode0Recv : Fin 2 → UInt8
  lcuCommStatus : Nat
  lcuInternetStatus : Nat
  websocketConnection : Nat
  chargerStatus : UInt8
  connectorsStatus : Fin noOfConnectors → UInt8
  chargerFaultCode : UInt8
  connectorFaultCode : Fin noOfConnectors → UInt8

/-- The totals in flash memory, and the seconds counted since they were stored. -/
structure Uptime where
  totalUpTime : UInt32
  totalDownTime : UInt32
  up : UInt8
  down : UInt8

/-- What the message builders read: `chargerConfigMQTT` with the two numbers the other builders do not
read, `chargerPeriodicStatusMQTT`, `powerModulesMQTT` and the uptimes. -/
structure Charger where
  config : ChargerConfig
  numConnectors : Fin 16
  projectInfo : Nat
  status : ChargerPeriodicStatus
  modules : Fin maxPcmModule → PowerModuleData
  internet : Uptime
  websocket : Uptime

/-! ### Power modules -/

def numberField (name : String) (value : ℚ) : CStr × Json := (name.toList, .number value)

def timestampField (now : UtcTime) : CStr × Json :=
  ("timestamp".toList, .string (now.iso ++ ['Z']))

/-- The three phases, rounded. -/
def phases (values : Fin 3 → ℚ) (decimals : Nat) : Json :=
  .array [.number (roundToDecimals (values 0) decimals),
    .number (roundToDecimals (values 1) decimals), .number (roundToDecimals (values 2) decimals)]

def dcVoltagesJson (v : DcVoltages) : Json :=
  .object <|
    [numberField "vDcp" (roundToDecimals v.vdcp 1), numberField "vDcn" (roundToDecimals v.vdcn 1),
      numberField "vDc" (roundToDecimals v.vdc 1), numberField "vDc2_1" (roundToDecimals v.vdc2_1 1),
      numberField "vDc2_2" (roundToDecimals v.vdc2_2 1),
      numberField "vOut1" (roundToDecimals v.vout1 1),
      numberField "vOut2" (roundToDecimals v.vout2 1)]
    ++ (if v.fanVoltageMaster ≠ 6553.5 then
        [numberField "fanVoltageMaster" (roundToDecimals v.fanVoltageMaster 1)]
      else [])
    ++ [numberField "fanVoltageSlave" (roundToDecimals v.fanVoltageSlave 1)]

def dcCurrentsJson (c : DcCurrents) : Json :=
  .object <|
    (if c.iTrf ≠ 6553.5 then [numberField "iTrf" (roundToDecimals c.iTrf 2)] else [])
    ++ [numberField "iOut1" (roundToDecimals c.iout1 2),
      numberField "iOut2" (roundToDecimals c.iout2 2)]

def temperaturesJson (t : Temperatures) : Json :=
  .object [numberField "gsc" (roundToDecimals t.gsc 1),
    numberField "hfiInv" (roundToDecimals t.hfiInv 1),
    numberField "hfRectifier" (roundToDecimals t.hfRectifier 1),
    numberField "buck" (roundToDecimals t.buck 1)]

/-- What is reported of a module that can be reached; values that were never received are 255. -/
def reachedFields (m : PowerModuleData) : List (CStr × Json) :=
  numberField "commStatus" 1
    :: (if m.acVoltages 0 ≠ 255 ∨ m.acVoltages 1 ≠ 255 ∨ m.acVoltages 2 ≠ 255 then
        [("acVoltages".toList, phases m.acVoltages 1)]
      else [])
    ++ (if m.acCurrents 0 ≠ 255 ∨ m.acCurrents 1 ≠ 255 ∨ m.acCurrents 2 ≠ 255 then
        [("acCurrents".toList, phases m.acCurrents 2)]
      else [])
    ++ (if m.dcVoltages.vdcp ≠ 255 ∨ m.dcVoltages.vdcn ≠ 255 ∨ m.dcVoltages.vdc ≠ 255
          ∨ m.dcVoltages.vdc2_1 ≠ 255 ∨ m.dcVoltages.vdc2_2 ≠ 255 ∨ m.dcVoltages.vout1 ≠ 255
          ∨ m.dcVoltages.fanVoltageMaster ≠ fltMax ∨ m.dcVoltages.fanVoltageSlave ≠ fltMax then
        [("dcVoltages".toList, dcVoltagesJson m.dcVoltages)]
      else [])
    ++ (if m.dcCurrents.iTrf ≠ 6553.5 ∨ m.dcCurrents.iout1 ≠ 255 ∨ m.dcCurrents.iout2 ≠ 255 then
        [("dcCurrents".toList, dcCurrentsJson m.dcCurrents)]
      else [])
    ++ (if m.temperatures.gsc ≠ 255 ∨ m.temperatures.hfiInv ≠ 255
          ∨ m.temperatures.hfRectifier ≠ 255 ∨ m.temperatures.buck ≠ 255 then
        [("temperatures".toList, temperaturesJson m.temperatures)]
      else [])
    ++ (if m.fault ≠ 255 ∨ m.gridAvailability ≠ 255 then
        [numberField "fault" m.fault, numberField "gridAvailable" m.gridAvailability]
      else [])

/-- The object of the module with index `i`. -/
def powerModuleJson (i : Int) (m : PowerModuleData) : Json :=
  .object <| numberField "id" ((i + 1 : Int) : ℚ)
    :: if m.canFailure then [numberField "commStatus" 0] else reachedFields m

variable (c : Charger) (now : UtcTime)

/-- `create_PCM_and_ComponentStatus_payloadJSON`: for a request of `componentStatus` the component and
the id asked for are given. -/
def createPCMAndComponentStatusPayloadJSON (startIndex endIndex : Int)
    (request : Option (Int × Int)) : Option Json := do
  let powerModules ← forRange startIndex endIndex fun i =>
    (readArray c.modules i).map (powerModuleJson i)
  match request with
  | some (component, id) =>
    return .object [timestampField now, numberField "component" component, numberField "id" id,
      ("status".toList, .object [("powerModules".toList, .array powerModules)])]
  | none => return .object [timestampField now, ("powerModules".toList, .array powerModules)]

/-! ### Connectors -/

/-- The `commController` object of the connector with index `k`. The error code is only looked at
while the controller can be reached, and only added where it satisfies the given condition. -/
def commController (reports : UInt8 → Bool) (k : Int) : Option Json := do
  let commStatus ← readArray c.status.ev_evseCommRecv k
  if commStatus = fine then
    let code ← readArray c.status.errorCode0Recv k
    return .object <| numberField "commStatus" commStatus
      :: if code ≠ 0 ∧ code ≠ 0xFF ∧ reports code then [numberField "errorCode" code.toNat] else []
  else return .object [numberField "commStatus" commStatus]

/-- An element of `connectorInfo` in the status of the controllers. -/
def connectorStatusJson (k : Int) : Option Json := do
  let controller ← commController c (fun _ => true) k
  return .object [numberField "id" ((k + 1 : Int) : ℚ), ("commController".toList, controller)]

/-! ### The OCPP controller -/

/-- `timeDuration_t`: the fields that are reported. -/
@[ext] structure TimeDuration where
  days : UInt32
  hours : UInt32
  minutes : UInt32
  seconds : UInt32

/-- `convert_seconds_to_time` -/
def convertSecondsToTime (totalSeconds : UInt32) : TimeDuration :=
  let ofDay := totalSeconds % 86400
  let ofHour := ofDay % 3600
  ⟨totalSeconds / 86400, ofDay / 3600, ofHour / 60, ofHour % 60⟩

/-- `convertToTimeDuration`, which no caller passes `NULL`. -/
def convertToTimeDuration (totalSeconds : UInt32) : TimeDuration :=
  ⟨totalSeconds / 86400, totalSeconds % 86400 / 3600, totalSeconds % 3600 / 60, totalSeconds % 60⟩

/-- What is left of a unit, and the next one with what is carried into it. -/
def carry (limit unit next : UInt32) : UInt32 × UInt32 :=
  if limit ≤ unit then (unit % limit, next + unit / limit) else (unit, next)

/-- `increment_time` -/
def incrementTime (t : TimeDuration) (secondsToAdd : UInt8) : TimeDuration :=
  let seconds := carry 60 (t.seconds + secondsToAdd.toUInt32) t.minutes
  let minutes := carry 60 seconds.2 t.hours
  let hours := carry 24 minutes.2 t.days
  ⟨hours.2, hours.1, minutes.1, seconds.1⟩

def TimeDuration.total (t : TimeDuration) : UInt32 :=
  t.days * 86400 + t.hours * 3600 + t.minutes * 60 + t.seconds

def TimeDuration.json (t : TimeDuration) : Json :=
  .object [numberField "days" t.days.toNat, numberField "hours" t.hours.toNat,
    numberField "minutes" t.minutes.toNat, numberField "seconds" t.seconds.toNat]

/-- The sum of the totals wraps around like the counters do. -/
def upTimePercent (totalUpTime totalDownTime : UInt32) : ℚ :=
  if totalUpTime + totalDownTime > 0 then
    totalUpTime.toNat / (totalUpTime + totalDownTime).toNat * 100
  else 0

def uptimeJson (connectionStatus : Nat) (upTime downTime : TimeDuration)
    (totalUpTime totalDownTime : UInt32) : Json :=
  .object [numberField "connectionStatus" connectionStatus, ("upTime".toList, upTime.json),
    ("downTime".toList, downTime.json),
    numberField "upTimePercent" (roundToDecimals (upTimePercent totalUpTime totalDownTime) 2)]

/-- The uptime with the seconds that are not stored yet. -/
def currentUptimeJson (connectionStatus : Nat) (u : Uptime) : Json :=
  let upTime := incrementTime (convertSecondsToTime u.totalUpTime) u.up
  let downTime := incrementTime (convertSecondsToTime u.totalDownTime) u.down
  uptimeJson connectionStatus upTime downTime upTime.total downTime.total

def ocppController (uptime : Nat → Uptime → Json) : Json :=
  .object <| numberField "commStatus" c.status.lcuCommStatus
    :: if c.status.lcuCommStatus = fine ∧ c.config.configKeyValue = online then
      [("internet".toList, uptime c.status.lcuInternetStatus c.internet),
        ("websocket".toList, uptime c.status.websocketConnection c.websocket)]
    else []

/-! ### The grid -/

/-- The grid is available when all modules that can be reached say so, and there is one. -/
def gridAvailable (modules : List PowerModuleData) : Nat :=
  let healthyPCMs := modules.countP fun m => !m.canFailure
  let gridSum := modules.countP fun m => !m.canFailure && m.gridAvailability == 1
  if gridSum = healthyPCMs ∧ 1 ≤ healthyPCMs then 1 else 0

/-! ### The answer -/

/-- The codes of a call error: those that are returned, and two that are only sent. -/
inductive SentCode
  | returned (code : ErrorCode)
  | componentNotSupported
  | idNotSupported

/-- The payload around the status of one component. -/
def statusPayload (component id : Int) (status : Json) : Json :=
  .object [timestampField now, numberField "component" component, numberField "id" id,
    ("status".toList, status)]

/-- The loop bounds for an id: all `count` elements for 0, else the one before it. -/
def indexRange (id : Int) (count : Nat) : Int × Int := if id = 0 then (0, count) else (id - 1, id)

/-- The payload with which `create_componentStatus_response` answers, or the code it sends instead. -/
def componentStatusAnswer (component id : Int) : Option (Except SentCode Json) :=
  if component = 1 then
    if 0 ≤ id ∧ id ≤ c.config.numPCM.val then
      let r := indexRange id c.config.numPCM
      (createPCMAndComponentStatusPayloadJSON c now r.1 r.2 (some (component, id))).map .ok
    else some (.error .idNotSupported)
  else if component = 2 then
    if id = 0 ∨ id ≤ c.numConnectors.val then
      let r := indexRange id c.numConnectors
      (forRange r.1 r.2 (connectorStatusJson c)).map fun connectorInfo =>
        .ok (statusPayload now component id (.object [("connectorInfo".toList, .array connectorInfo)]))
    else some (.error .idNotSupported)
  else if component = 3 then
    if id = 0 then
      some (.ok (statusPayload now component id
        (.object [("ocppController".toList, ocppController c currentUptimeJson)])))
    else some (.error .idNotSupported)
  else if component = 4 then
    if id = 0 then
      (forRange 0 c.config.numPCM.val (readArray c.modules)).map fun modules =>
        .ok (statusPayload now component id
          (.object [numberField "gridAvailable" (gridAvailable modules)]))
    else some (.error .idNotSupported)
  else some (.error .componentNotSupported)

/-! ### When there is an answer -/

/-- The requests whose component and id pass the checks. -/
def Accepted (component id : Int) : Prop :=
  component = 1 ∧ 0 ≤ id ∧ id ≤ c.config.numPCM.val
    ∨ component = 2 ∧ (id = 0 ∨ id ≤ c.numConnectors.val)
    ∨ component = 3 ∧ id = 0 ∨ component = 4 ∧ id = 0

/-- The indices of connectors that can be read: `ErrorCode0Recv` has only two elements, and is read
where the controller can be reached. -/
def ControllerReadable (k : Int) : Prop :=
  0 ≤ k ∧ (k < 2 ∨ k = 2 ∧ c.status.ev_evseCommRecv 2 ≠ fine)

variable {c} {now}

theorem commController_isSome_iff (reports : UInt8 → Bool) {k : Int} :
    (commController c reports k).isSome = true ↔ ControllerReadable c k := by
  have hreads : (commController c reports k).isSome = true
      ↔ (readArray c.status.ev_evseCommRecv k).isSome = true
        ∧ (readArray c.status.ev_evseCommRecv k = some fine →
          (readArray c.status.errorCode0Recv k).isSome = true) := by
    rw [commController]
    cases readArray c.status.ev_evseCommRecv k with
    | none => simp
    | some commStatus =>
        by_cases hfine : commStatus = fine
        · cases readArray c.status.errorCode0Recv k <;> simp [hfine]
        · simp [hfine]
  rw [hreads, readArray_isSome_iff, readArray_isSome_iff, readArray_eq_some_iff, ControllerReadable]
  constructor
  · rintro ⟨⟨hzero, hthree⟩, hcode⟩
    have hthree : k < 3 := hthree
    refine ⟨hzero, ?_⟩
    by_cases htwo : k < 2
    · exact .inl htwo
    · have hlast : k = 2 := by omega
      refine .inr ⟨hlast, fun hfine => htwo ?_⟩
      exact_mod_cast (hcode ⟨2, hlast, hfine⟩).2
  · rintro ⟨hzero, htwo | ⟨rfl, hlost⟩⟩
    · have hthree : k < 3 := by omega
      exact ⟨⟨hzero, hthree⟩, fun _ => ⟨hzero, htwo⟩⟩
    · refine ⟨⟨hzero, by decide⟩, ?_⟩
      rintro ⟨j, hj, hfine⟩
      have hlast : j = 2 := Fin.ext (by exact_mod_cast hj.symm)
      exact absurd (hlast ▸ hfine) hlost

theorem connectorStatusJson_isSome_iff {k : Int} :
    (connectorStatusJson c k).isSome = true ↔ ControllerReadable c k := by
  rw [← commController_isSome_iff fun _ => true, connectorStatusJson]
  cases commController c (fun _ => true) k <;> rfl

/-- All connectors can be read. -/
def ConnectorsReadable (c : Charger) : Prop :=
  c.numConnectors.val ≤ 2 ∨ c.numConnectors.val = 3 ∧ c.status.ev_evseCommRecv 2 ≠ fine

theorem connectorsReadable_iff :
    (∀ k : Int, 0 ≤ k → k < c.numConnectors.val → ControllerReadable c k)
      ↔ ConnectorsReadable c := by
  rw [ConnectorsReadable]
  constructor
  · intro h
    by_cases htwo : c.numConnectors.val ≤ 2
    · exact .inl htwo
    · obtain ⟨-, hlast⟩ := h (c.numConnectors.val - 1) (by omega) (by omega)
      obtain ⟨-, hthird⟩ := h 2 (by omega) (by omega)
      exact .inr ⟨by omega, (hthird.resolve_left (by omega)).2⟩
  · rintro (htwo | ⟨hthree, hlost⟩) k hzero hk
    · exact ⟨hzero, .inl (by omega)⟩
    · refine ⟨hzero, ?_⟩
      by_cases hlast : k < 2
      · exact .inl hlast
      · exact .inr ⟨by omega, hlost⟩

/-- The builder of module statuses reads within the array. -/
theorem createPCMAndComponentStatusPayloadJSON_isSome_iff {startIndex endIndex : Int}
    {request : Option (Int × Int)} :
    (createPCMAndComponentStatusPayloadJSON c now startIndex endIndex request).isSome = true
      ↔ ∀ i, startIndex ≤ i → i < endIndex → 0 ≤ i ∧ i < (maxPcmModule : Int) := by
  have hreads : (createPCMAndComponentStatusPayloadJSON c now startIndex endIndex request).isSome
      = (forRange startIndex endIndex fun i =>
          (readArray c.modules i).map (powerModuleJson i)).isSome := by
    rw [createPCMAndComponentStatusPayloadJSON]
    cases forRange startIndex endIndex fun i => (readArray c.modules i).map (powerModuleJson i) with
    | none => rfl
    | some powerModules => cases request <;> rfl
  rw [hreads, forRange_isSome_iff]
  simp only [Option.isSome_map, readArray_isSome_iff]

/-- The error for a request that does not pass the checks. -/
def rejection (component : Int) : SentCode :=
  if 1 ≤ component ∧ component ≤ 4 then .idNotSupported else .componentNotSupported

theorem componentStatusAnswer_rejected {component id : Int} (h : ¬ Accepted c component id) :
    componentStatusAnswer c now component id = some (.error (rejection component)) := by
  rw [Accepted, not_or, not_or, not_or] at h
  obtain ⟨hone, htwo, hthree, hfour⟩ := h
  rw [componentStatusAnswer, rejection]
  split
  · rename_i hcomponent
    rw [if_neg fun hid => hone ⟨hcomponent, hid⟩, if_pos (by omega)]
  split
  · rename_i hcomponent
    rw [if_neg fun hid => htwo ⟨hcomponent, hid⟩, if_pos (by omega)]
  split
  · rename_i hcomponent
    rw [if_neg fun hid => hthree ⟨hcomponent, hid⟩, if_pos (by omega)]
  split
  · rename_i hcomponent
    rw [if_neg fun hid => hfour ⟨hcomponent, hid⟩, if_pos (by omega)]
  · rw [if_neg (by omega)]

/-- A request that passes them gets a payload, if anything. -/
theorem componentStatusAnswer_accepted {component id : Int} (h : Accepted c component id)
    {answer : Except SentCode Json} (hanswer : componentStatusAnswer c now component id = some answer) :
    ∃ members, answer = .ok (.object members) := by
  rw [componentStatusAnswer] at hanswer
  rcases h with ⟨rfl, hid⟩ | ⟨rfl, hid⟩ | ⟨rfl, rfl⟩ | ⟨rfl, rfl⟩
  · rw [if_pos rfl, if_pos hid] at hanswer
    obtain ⟨payload, hpayload, rfl⟩ := Option.map_eq_some_iff.mp hanswer
    obtain ⟨powerModules, -, hpayload⟩ := Option.bind_eq_some_iff.mp hpayload
    rw [← Option.some.inj hpayload]
    exact ⟨_, rfl⟩
  · rw [if_neg (by decide), if_pos rfl, if_pos hid] at hanswer
    obtain ⟨connectorInfo, -, rfl⟩ := Option.map_eq_some_iff.mp hanswer
    exact ⟨_, rfl⟩
  · rw [if_neg (by decide), if_neg (by decide), if_pos rfl, if_pos rfl] at hanswer
    rw [← Option.some.inj hanswer]
    exact ⟨_, rfl⟩
  · rw [if_neg (by decide), if_neg (by decide), if_neg (by decide), if_pos rfl, if_pos rfl]
      at hanswer
    obtain ⟨modules, -, rfl⟩ := Option.map_eq_some_iff.mp hanswer
    exact ⟨_, rfl⟩

/-- A property of the indices in the range for an id. -/
theorem forall_indexRange_iff {P : Int → Prop} {id : Int} {count : Nat} :
    (∀ i, (indexRange id count).1 ≤ i → i < (indexRange id count).2 → P i)
      ↔ if id = 0 then ∀ i : Int, 0 ≤ i → i < count → P i else P (id - 1) := by
  rw [indexRange]
  by_cases hid : id = 0
  · rw [if_pos hid, if_pos hid]
  · rw [if_neg hid, if_neg hid]
    constructor
    · intro h
      exact h (id - 1) le_rfl (by show id - 1 < id; omega)
    · intro h i hlow hhigh
      have hi : i = id - 1 := by
        have hlow : id - 1 ≤ i := hlow
        have hhigh : i < id := hhigh
        omega
      rwa [hi]

/-- The modules and connectors that an accepted request asks for lie in the arrays. -/
structure AnswerReadable (c : Charger) (component id : Int) : Prop where
  modules : component = 1 →
    if id = 0 then c.config.numPCM.val ≤ maxPcmModule else id ≤ (maxPcmModule : Int)
  connectors : component = 2 →
    if id = 0 then ConnectorsReadable c else ControllerReadable c (id - 1)
  grid : component = 4 → c.config.numPCM.val ≤ maxPcmModule

theorem componentStatusAnswer_isSome_iff {component id : Int} (h : Accepted c component id) :
    (componentStatusAnswer c now component id).isSome = true ↔ AnswerReadable c component id := by
  rw [componentStatusAnswer]
  rcases h with ⟨rfl, hid⟩ | ⟨rfl, hid⟩ | ⟨rfl, rfl⟩ | ⟨rfl, rfl⟩
  · rw [if_pos rfl, if_pos hid, Option.isSome_map,
      createPCMAndComponentStatusPayloadJSON_isSome_iff, forall_indexRange_iff]
    by_cases hzero : id = 0
    · rw [if_pos hzero, forall_lt_iff]
      exact ⟨fun h => ⟨fun _ => by rwa [if_pos hzero], fun h => absurd h (by decide),
        fun h => absurd h (by decide)⟩, fun h => by simpa [hzero] using h.modules rfl⟩
    · rw [if_neg hzero]
      constructor
      · intro h
        refine ⟨fun _ => ?_, fun h => absurd h (by decide), fun h => absurd h (by decide)⟩
        rw [if_neg hzero]
        omega
      · intro h
        have hmodules := h.modules rfl
        rw [if_neg hzero] at hmodules
        omega
  · rw [if_neg (by decide), if_pos rfl, if_pos hid, Option.isSome_map, forRange_isSome_iff]
    simp only [connectorStatusJson_isSome_iff]
    rw [forall_indexRange_iff, connectorsReadable_iff]
    exact ⟨fun h => ⟨fun h => absurd h (by decide), fun _ => h, fun h => absurd h (by decide)⟩,
      fun h => h.connectors rfl⟩
  · rw [if_neg (by decide), if_neg (by decide), if_pos rfl, if_pos rfl]
    exact iff_of_true rfl
      ⟨fun h => absurd h (by decide), fun h => absurd h (by decide), fun h => absurd h (by decide)⟩
  · rw [if_neg (by decide), if_neg (by decide), if_neg (by decide), if_pos rfl, if_pos rfl,
      Option.isSome_map, forRange_isSome_iff]
    simp only [readArray_isSome_iff]
    rw [forall_lt_iff]
    exact ⟨fun h => ⟨fun h => absurd h (by decide), fun h => absurd h (by decide), fun _ => h⟩,
      fun h => h.grid rfl⟩

/-! ### A charger -/

def reachedModule : PowerModuleData where
  versionMajorNumber := 1
  versionMinorNumber := 0
  canFailure := false
  acVoltages := fun _ => 230
  acCurrents := fun _ => 0
  dcVoltages := ⟨0, 0, 0, 0, 0, 0, 0, 0, 0⟩
  dcCurrents := ⟨0, 0, 0⟩
  temperatures := ⟨25, 25, 25, 25⟩
  fault := 0
  gridAvailability := 1

/-- Everything can be reached, and nothing is charging. -/
def idleStatus : ChargerPeriodicStatus where
  mcuComm := fine
  ev_evseCommRecv := fun _ => fine
  acMeterComm := fine
  dcMeterComm := fun _ => fine
  acEnergy := 0
  dcEnergy := fun _ => 0
  virtualEnergyMeter := 0
  dcMeterPower := fun _ => 0
  gridVoltages := fun _ => 230
  gridCurrents := fun _ => 0
  dcVoltage := fun _ => 0
  dcCurrent := fun _ => 0
  acMeterLineVoltages := fun _ => 400
  realPowerFactor := 1
  avgPowerFactor := 1
  errorCode0Recv := fun _ => 0
  lcuCommStatus := fine
  lcuInternetStatus := fine
  websocketConnection := fine
  chargerStatus := 0
  connectorsStatus := fun _ => 0
  chargerFaultCode := 0
  connectorFaultCode := fun _ => 0

def idleCharger (numConnectors numPCM : Fin 16) : Charger where
  config := { plainConfig with numPCM := numPCM }
  numConnectors := numConnectors
  projectInfo := dcfc
  status := idleStatus
  modules := fun _ => reachedModule
  internet := ⟨60, 0, 0, 0⟩
  websocket := ⟨60, 0, 0, 0⟩

end Pmu
