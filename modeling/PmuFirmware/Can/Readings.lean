import PmuFirmware.Lib.Latest
import PmuFirmware.Lib.Relay
import PmuFirmware.Can.Health
import PmuFirmware.Messages.PeriodicData

/-!
# What is reported of the readings

Each reading has its place in one of the numbered frames of the charger or of a power module. `can_task`
keeps the readings that it has decoded; the main loop copies them, and two tasks build messages from its
copy, which they read without the mutex.

As long as no copy falls into a message, the message is built from the readings of one time: every
reading is as it was last measured by then, and no message is older than one that was built before.
-/

namespace Pmu

open CLib Latest

/-! ### Registers -/

/-- A reading, with the number of the frame that brings it and how it is measured there. -/
structure Register (S : Type) where
  number : Nat
  get : S → ℚ
  measured : Frame → Option ℚ

namespace Register

/-- What a frame brings of the reading. -/
def sample {S : Type} (r : Register S) (data : Frame) : Option ℚ :=
  if (data 0).toNat = r.number then r.measured data else none

section Measured

variable (k : Fin 8) (data : Frame)

def tenthsIn : Option ℚ :=
  if data k = 0xFF ∧ data (k + 1) = 0xFF then none else some (tenths data k)

def byteIn : Option ℚ := if data k = 0xFF then none else some (data k).toNat

/-- Thousandths in three bytes, without the fraction. -/
def thousandthsIn : Option ℚ :=
  if data k = 0xFF ∧ data (k + 1) = 0xFF ∧ data (k + 2) = 0xFF then none
  else some (threeBytes data k / 1000 : Nat)

def hundredthsIn : Option ℚ := if data k = 0xFF then none else some ((data k).toNat / 100)

/-- A byte that always counts. -/
def rawByte : Option ℚ := some (data k).toNat

/-- Tenths that always count. -/
def rawTenths : Option ℚ := some (tenths data k)

end Measured

/-! ### The charger -/

section Charger

def phaseRegisters (number : Nat) (get : ChargerPeriodicStatus → Fin 3 → ℚ) :
    List (Register ChargerPeriodicStatus) :=
  [⟨number, fun s => get s 0, tenthsIn 1⟩, ⟨number, fun s => get s 1, tenthsIn 3⟩,
    ⟨number, fun s => get s 2, tenthsIn 5⟩]

/-- The meter of a connector, in two frames. -/
def meterRegisters (number : Nat) (k : Fin noOfConnectors) : List (Register ChargerPeriodicStatus) :=
  [⟨number, fun s => (s.dcEnergy k).toNat, thousandthsIn 1⟩,
    ⟨number, fun s => s.dcMeterComm k, byteIn 4⟩,
    ⟨number + 1, fun s => s.dcVoltage k, tenthsIn 1⟩,
    ⟨number + 1, fun s => s.dcCurrent k, tenthsIn 3⟩,
    ⟨number + 1, fun s => (s.dcMeterPower k).toNat, thousandthsIn 5⟩]

/-- The readings of the charger. The real power factor is 0.1 if it has not been measured. -/
def charger : List (Register ChargerPeriodicStatus) :=
  phaseRegisters 1 ChargerPeriodicStatus.gridVoltages
  ++ phaseRegisters 2 ChargerPeriodicStatus.gridCurrents
  ++ phaseRegisters 3 ChargerPeriodicStatus.acMeterLineVoltages
  ++ meterRegisters 5 0 ++ meterRegisters 7 1
  ++ [⟨1, fun s => s.acMeterComm, rawByte 7⟩,
    ⟨4, fun s => s.acEnergy.toNat, thousandthsIn 1⟩,
    ⟨4, fun s => s.realPowerFactor, fun data => some ((hundredthsIn 4 data).getD (1 / 10))⟩,
    ⟨4, fun s => s.avgPowerFactor, hundredthsIn 5⟩,
    ⟨5, fun s => s.chargerStatus.toNat, byteIn 5⟩,
    ⟨5, fun s => (s.connectorsStatus 0).toNat, byteIn 6⟩,
    ⟨5, fun s => (s.connectorsStatus 1).toNat, byteIn 7⟩,
    ⟨9, fun s => s.lcuCommStatus, rawByte 1⟩,
    ⟨9, fun s => s.ev_evseCommRecv 0, rawByte 2⟩,
    ⟨9, fun s => (s.errorCode0Recv 0).toNat, rawByte 3⟩,
    ⟨9, fun s => s.ev_evseCommRecv 1, rawByte 4⟩,
    ⟨9, fun s => (s.errorCode0Recv 1).toNat, rawByte 5⟩,
    ⟨9, fun s => s.lcuInternetStatus, rawByte 6⟩,
    ⟨9, fun s => s.websocketConnection, rawByte 7⟩,
    ⟨10, fun s => s.virtualEnergyMeter.toNat, fun data => some (threeBytes data 1)⟩,
    ⟨10, fun s => s.chargerFaultCode.toNat, rawByte 4⟩,
    ⟨10, fun s => (s.connectorFaultCode 0).toNat, rawByte 5⟩,
    ⟨10, fun s => (s.connectorFaultCode 1).toNat, rawByte 6⟩]

end Charger

/-- The readings of a power module. Of a version number only the lower byte is kept. -/
def powerModule : List (Register PowerModuleData) :=
  [⟨1, fun m => m.gridAvailability, fun data => some ((data 1).toNat / 128 : Nat)⟩,
    ⟨1, fun m => m.fault, fun data => some ((data 1).toNat % 128 : Nat)⟩,
    ⟨1, fun m => m.acVoltages 0, rawTenths 2⟩,
    ⟨1, fun m => m.acVoltages 1, rawTenths 4⟩,
    ⟨1, fun m => m.acVoltages 2, rawTenths 6⟩,
    ⟨2, fun m => m.acCurrents 0, rawTenths 1⟩,
    ⟨2, fun m => m.acCurrents 1, rawTenths 3⟩,
    ⟨2, fun m => m.acCurrents 2, rawTenths 5⟩,
    ⟨3, fun m => m.dcVoltages.vdcp, rawTenths 1⟩,
    ⟨3, fun m => m.dcVoltages.vdcn, rawTenths 3⟩,
    ⟨3, fun m => m.dcVoltages.vdc, rawTenths 5⟩,
    ⟨4, fun m => m.dcVoltages.vdc2_2, rawTenths 2⟩,
    ⟨4, fun m => m.dcVoltages.vout1, rawTenths 4⟩,
    ⟨4, fun m => m.dcVoltages.vout2, rawTenths 6⟩,
    ⟨5, fun m => m.dcCurrents.iTrf, rawTenths 1⟩,
    ⟨5, fun m => m.dcCurrents.iout1, rawTenths 3⟩,
    ⟨5, fun m => m.dcCurrents.iout2, rawTenths 5⟩,
    ⟨6, fun m => m.temperatures.gsc, rawTenths 1⟩,
    ⟨6, fun m => m.temperatures.hfiInv, rawTenths 3⟩,
    ⟨6, fun m => m.temperatures.hfRectifier, rawTenths 5⟩,
    ⟨7, fun m => m.temperatures.buck, rawTenths 1⟩,
    ⟨7, fun m => m.versionMajorNumber.toNat, rawByte 4⟩,
    ⟨7, fun m => m.versionMinorNumber.toNat, rawByte 6⟩,
    ⟨8, fun m => m.dcVoltages.fanVoltageMaster, rawTenths 1⟩,
    ⟨8, fun m => m.dcVoltages.fanVoltageSlave, rawTenths 3⟩,
    ⟨8, fun m => m.dcVoltages.vdc2_1, rawTenths 5⟩]

/-! ### What a frame does -/

section Frames

variable {data : Frame}

theorem threeBytes_lt (data : Frame) (k : Fin 8) : threeBytes data k < 2 ^ 24 := by
  have h₀ := (data k).toNat_lt
  have h₁ := (data (k + 1)).toNat_lt
  have h₂ := (data (k + 2)).toNat_lt
  rw [threeBytes]
  omega

theorem measuredTenths_eq (k : Fin 8) (last : ℚ) :
    measuredTenths data k last = (tenthsIn k data).getD last := by
  rw [measuredTenths, tenthsIn]
  split <;> rfl

theorem measuredPhases_eq (last : Fin 3 → ℚ) :
    measuredPhases data last 0 = (tenthsIn 1 data).getD (last 0)
    ∧ measuredPhases data last 1 = (tenthsIn 3 data).getD (last 1)
    ∧ measuredPhases data last 2 = (tenthsIn 5 data).getD (last 2) :=
  ⟨measuredTenths_eq 1 _, measuredTenths_eq 3 _, measuredTenths_eq 5 _⟩

theorem measuredByte_eq (k : Fin 8) (last : UInt8) :
    ((measuredByte data k last).toNat : ℚ) = (byteIn k data).getD last.toNat := by
  rw [measuredByte, byteIn]
  split <;> rfl

theorem toNat_ofNat_of_lt {n : Nat} (h : n < 2 ^ 24) : (UInt32.ofNat n).toNat = n :=
  UInt32.toNat_ofNat_of_lt' (h.trans (by decide))

theorem measuredThousandths_eq (k : Fin 8) (last : UInt32) :
    ((measuredThousandths data k last).toNat : ℚ) = (thousandthsIn k data).getD last.toNat := by
  rw [measuredThousandths, thousandthsIn]
  split
  · rfl
  · rw [toNat_ofNat_of_lt ((Nat.div_le_self _ _).trans_lt (threeBytes_lt data k))]
    rfl

theorem measuredHundredths_eq (k : Fin 8) (last : ℚ) :
    (if data k = 0xFF then last else ((data k).toNat : ℚ) / 100) = (hundredthsIn k data).getD last := by
  rw [hundredthsIn]
  split <;> rfl

/-- The meter of one connector does not tell anything of the other. -/
theorem meterComm_eq (k j : Fin noOfConnectors) (last : Fin noOfConnectors → Nat) :
    (((if data 4 = 0xFF then last else Function.update last k (data 4).toNat) j : Nat) : ℚ)
      = if j = k then (byteIn 4 data).getD (last j) else last j := by
  rw [byteIn]
  by_cases hbyte : data 4 = 0xFF <;> by_cases hj : j = k <;> simp [hbyte, hj]

/-- A frame sets the readings that it brings and leaves the others. -/
theorem get_setReadings (s : PeriodicStatus) : ∀ r ∈ charger,
    r.get (setReadings data s).toChargerPeriodicStatus
      = (r.sample data).getD (r.get s.toChargerPeriodicStatus) := by
  simp only [charger, phaseRegisters, meterRegisters, List.cons_append, List.nil_append,
    List.forall_mem_cons, sample]
  unfold setReadings
  split
  case h_11 => simp_all
  all_goals
    rename_i hnumber
    simp [hnumber, PeriodicStatus.setEnergy, PeriodicStatus.setMeter, measuredPhases_eq,
      measuredTenths_eq, measuredByte_eq, measuredThousandths_eq, measuredHundredths_eq, meterComm_eq,
      rawByte, toNat_ofNat_of_lt (threeBytes_lt data 1)]

theorem tenthsPhases_eq (first : Nat) (phase : Fin 3) :
    tenthsPhases data first phase = tenths data (Fin.ofNat 8 (2 * phase.val + first)) := rfl

/-- So does a frame of a power module. -/
theorem get_setReadings_module (m : CanModule) : ∀ r ∈ powerModule,
    r.get (m.setReadings data).toPowerModuleData
      = (r.sample data).getD (r.get m.toPowerModuleData) := by
  simp only [powerModule, List.forall_mem_cons, sample]
  by_cases hnumber : (data 0).toNat ∈ [1, 2, 3, 4, 5, 6, 7, 8]
  · simp only [List.mem_cons, List.not_mem_nil, or_false] at hnumber
    rcases hnumber with hnumber | hnumber | hnumber | hnumber | hnumber | hnumber | hnumber | hnumber
    all_goals simp [CanModule.setReadings, hnumber, rawByte, rawTenths, tenthsPhases_eq]
    rfl
  · simp only [List.mem_cons, List.not_mem_nil, or_false, not_or] at hnumber
    simp [CanModule.setReadings, hnumber]

end Frames

/-! ### What an iteration does -/

/-- What a message brings of a reading of the charger. -/
def ofCharger (r : Register ChargerPeriodicStatus) (m : CanMessage) : Option ℚ :=
  if m.identifier = PERIODIC_DATA_ID then r.sample m.data else none

/-- What a message brings of a reading of the power module with index `k`. -/
def ofModule (k : Fin maxPcmModule) (r : Register PowerModuleData) (m : CanMessage) : Option ℚ :=
  if CanHealth.FromModule k m then r.sample m.data else none

section Iterations

variable {undefinedShift : Int → UInt32} {s : CanHealth}

/-- The health checks leave the readings. -/
theorem get_checkHealth : ∀ r ∈ charger,
    r.get s.checkHealth.status.toChargerPeriodicStatus = r.get s.status.toChargerPeriodicStatus := by
  simp [charger, phaseRegisters, meterRegisters, CanHealth.checkHealth, CanHealth.checkMcu]

theorem get_checkHealth_module (m : CanModule) : ∀ r ∈ powerModule,
    r.get m.checkHealth.toPowerModuleData = r.get m.toPowerModuleData := by
  simp [powerModule, CanModule.checkHealth]

theorem get_iteration {r : Register ChargerPeriodicStatus} (hr : r ∈ charger)
    (message : Option CanMessage) :
    r.get (s.iteration undefinedShift message).status.toChargerPeriodicStatus
      = (message.bind r.ofCharger).getD (r.get s.status.toChargerPeriodicStatus) := by
  rw [← get_checkHealth (s := s) r hr]
  cases message with
  | none => rfl
  | some m =>
      rw [CanHealth.iteration, Option.elim_some, CanHealth.receiveCanMessage, Option.bind_some,
        ofCharger]
      by_cases hperiodic : m.identifier = PERIODIC_DATA_ID
      · rw [if_pos hperiodic, if_pos hperiodic]
        exact get_setReadings _ r hr
      · rw [if_neg hperiodic, if_neg hperiodic]
        split_ifs <;> rfl

theorem get_iteration_module {k : Fin maxPcmModule} {r : Register PowerModuleData}
    (hr : r ∈ powerModule) (message : Option CanMessage) :
    r.get ((s.iteration undefinedShift message).modules k).toPowerModuleData
      = (message.bind (r.ofModule k)).getD (r.get (s.modules k).toPowerModuleData) := by
  rw [← get_checkHealth_module (s.modules k) r hr]
  cases message with
  | none => rfl
  | some m =>
      rw [CanHealth.iteration, Option.elim_some, CanHealth.receive_modules, Option.bind_some,
        ofModule]
      split_ifs
      · exact get_setReadings_module _ r hr
      · rfl

end Iterations

end Register

/-! ### The messages -/

/-- The readings in the data of the charger. -/
structure Reported where
  status : ChargerPeriodicStatus
  modules : Fin maxPcmModule → PowerModuleData

def CanHealth.reported (s : CanHealth) : Reported where
  status := s.status.toChargerPeriodicStatus
  modules := fun k => (s.modules k).toPowerModuleData

/-- The messages that have readings. -/
inductive ReadingMessage
  | chargerPeriodicData
  | pcmPeriodicData
  | componentStatus (component id : Int)
  | configurationData (flags : Flags)

/-- A message and what it has beside the readings. -/
structure ReadingCall where
  message : ReadingMessage
  rest : Charger
  now : UtcTime

/-- The payload that is built from the readings, if there is one. -/
def ReadingCall.payload (call : ReadingCall) (seen : Reported) : Option Json :=
  let c := { call.rest with status := seen.status, modules := seen.modules }
  match call.message with
  | .chargerPeriodicData => chargerPeriodicDataPayload c call.now
  | .pcmPeriodicData => pcmPeriodicPayload c call.now
  | .componentStatus component id =>
    (componentStatusAnswer c call.now component id).bind Except.toOption
  | .configurationData flags => (checkedSendConfigData c call.now flags).map Prod.fst

/-! ### The copies -/

/-- The tasks that build messages. -/
inductive ReadingTask
  | mqttTask
  | processMqttMsg
  deriving DecidableEq

/-- The readings of `can_task`, their two copies, which tasks are building a message, and what they have
built. -/
structure ReadingCopies where
  can : CanHealth
  ipc : Reported
  mqtt : Reported
  building : ReadingTask → Bool
  messages : List (Option Json)

namespace ReadingCopies

/-- An iteration of `can_task`, which copies the readings if the charger is configured and the mutex is
free, the copy of the main loop, and the beginning and the end of a message. -/
inductive Event
  | canTask (message : Option CanMessage) (copies : Bool)
  | fetch
  | begin (task : ReadingTask)
  | finish (task : ReadingTask) (call : ReadingCall)

section Steps

variable (undefinedShift : Int → UInt32)

/-- The builders read the copy of the main loop without the mutex: a message into which a copy falls
could have readings of two times. A run does not go on there. -/
def step : Event → ReadingCopies → Option ReadingCopies
  | .canTask message copies, s =>
    let can := s.can.iteration undefinedShift message
    some { s with can := can, ipc := if copies then can.reported else s.ipc }
  | .fetch, s =>
    if s.building .mqttTask || s.building .processMqttMsg then none else some { s with mqtt := s.ipc }
  | .begin task, s =>
    if s.building task then none
    else some { s with building := Function.update s.building task true }
  | .finish task call, s =>
    if s.building task then
      some { s with
        building := Function.update s.building task false
        messages := s.messages ++ [call.payload s.mqtt] }
    else none

end Steps

/-- At the start the three copies are alike, and nothing is built. -/
def powerOn (can : CanHealth) : ReadingCopies :=
  ⟨can, can.reported, can.reported, fun _ => false, []⟩

/-- What the iteration receives, if it is one. -/
def Event.received : Event → List (Option CanMessage)
  | .canTask message _ => [message]
  | .fetch => []
  | .begin _ => []
  | .finish _ _ => []

def received (events : List Event) : List (Option CanMessage) := events.flatMap Event.received

def Event.built : Event → List ReadingCall
  | .canTask _ _ => []
  | .fetch => []
  | .begin _ => []
  | .finish _ call => [call]

/-- The messages that are built. -/
def built (events : List Event) : List ReadingCall := events.flatMap Event.built

/-- Every reading is the last one that was measured in these messages, or has been there before. -/
structure LastMeasured (can : CanHealth) (messages : List (Option CanMessage)) (seen : Reported) :
    Prop where
  charger : ∀ r ∈ Register.charger, r.get seen.status
    = (latest (Option.bind · r.ofCharger) messages).getD (r.get can.status.toChargerPeriodicStatus)
  modules : ∀ k, ∀ r ∈ Register.powerModule, r.get (seen.modules k)
    = (latest (Option.bind · (r.ofModule k)) messages).getD (r.get (can.modules k).toPowerModuleData)

section Runs

variable (undefinedShift : Int → UInt32)

/-- The readings of `can_task` after these messages. -/
def readingsAfter (can : CanHealth) (messages : List (Option CanMessage)) : Reported :=
  (messages.foldl (CanHealth.iteration undefinedShift) can).reported

/-- The readings of `can_task` from the start on. -/
def history (can : CanHealth) (messages : List (Option CanMessage)) : List Reported :=
  (List.range (messages.length + 1)).map fun n =>
    readingsAfter undefinedShift can (messages.take n)

variable {undefinedShift} {can : CanHealth} {messages : List (Option CanMessage)}
  {calls : List ReadingCall} {events : List Event} {s s' : ReadingCopies}

theorem history_snoc (message : Option CanMessage) :
    history undefinedShift can (messages ++ [message]) = history undefinedShift can messages
      ++ [readingsAfter undefinedShift can (messages ++ [message])] := by
  rw [history, List.length_append, List.length_singleton, List.range_succ, List.map_append, history,
    List.map_singleton]
  congr 1
  · refine List.map_congr_left fun n hn => ?_
    rw [List.take_append_of_le_length (by simpa [Nat.lt_succ_iff] using hn)]
  · rw [List.take_of_length_le (by simp)]

def places (s : ReadingCopies) (behind : Reported) : Nat → Reported :=
  Relay.row s.can.reported s.ipc s.mqtt behind

/-- The messages are built from readings of the history that are in its order; none comes after the
reading with the index `last`. -/
def BuiltFrom (history : List Reported) (last : Nat) (calls : List ReadingCall)
    (payloads : List (Option Json)) : Prop :=
  ∃ seen, Relay.Readings history last seen ∧ seen.length = calls.length
    ∧ payloads = List.zipWith ReadingCall.payload calls seen

/-- The copies have readings from the history, and the messages are built from them. -/
structure Follows (undefinedShift : Int → UInt32) (can : CanHealth)
    (messages : List (Option CanMessage)) (calls : List ReadingCall) (s : ReadingCopies) : Prop where
  can_eq : s.can = messages.foldl (CanHealth.iteration undefinedShift) can
  copies : ∃ index, Relay.Tracks (history undefinedShift can messages) index (s.places can.reported)
    ∧ BuiltFrom (history undefinedShift can messages) (index 2) calls s.messages

theorem powerOn_follows : (powerOn can).Follows undefinedShift can [] [] where
  can_eq := rfl
  copies := ⟨fun _ => 0, Relay.tracks_row_singleton can.reported, [], Relay.readings_nil, rfl, rfl⟩

theorem BuiltFrom.mono {history later : List Reported} {last last' : Nat}
    {payloads : List (Option Json)} (h : BuiltFrom history last calls payloads)
    (hlast : last ≤ last') : BuiltFrom (history ++ later) last' calls payloads := by
  obtain ⟨seen, hreadings, hlength, hpayloads⟩ := h
  exact ⟨seen, hreadings.append.mono hlast, hlength, hpayloads⟩

/-- Another message is built from the last reading. -/
theorem BuiltFrom.snoc {history : List Reported} {last : Nat} {payloads : List (Option Json)}
    {reading : Reported} (h : BuiltFrom history last calls payloads)
    (hlast : history[last]? = some reading) (call : ReadingCall) :
    BuiltFrom history last (calls ++ [call]) (payloads ++ [call.payload reading]) := by
  obtain ⟨seen, hreadings, hlength, rfl⟩ := h
  refine ⟨seen ++ [reading], hreadings.snoc hlast, by simp [hlength], ?_⟩
  rw [List.zipWith_append hlength.symm]
  rfl

theorem Follows.step (h : s.Follows undefinedShift can messages calls) {e : Event}
    (hstep : step undefinedShift e s = some s') :
    s'.Follows undefinedShift can (messages ++ e.received) (calls ++ e.built) := by
  obtain ⟨index, htracks, hbuilt⟩ := h.copies
  cases e with
  | canTask message copies =>
      obtain rfl := Option.some.inj hstep
      have hcan : s.can.iteration undefinedShift message
          = (messages ++ [message]).foldl (CanHealth.iteration undefinedShift) can := by
        rw [List.foldl_append, ← h.can_eq]
        rfl
      refine ⟨hcan, ?_⟩
      rw [Event.received, Event.built, List.append_nil, history_snoc, readingsAfter, ← hcan]
      obtain ⟨index₁, hforward₁, htracks₁⟩ :=
        htracks.step (.put (s.can.iteration undefinedShift message).reported)
      rw [places, Relay.row_put] at htracks₁
      cases copies with
      | false => exact ⟨index₁, htracks₁, hbuilt.mono (hforward₁ 2)⟩
      | true =>
          obtain ⟨index₂, hforward₂, htracks₂⟩ := htracks₁.step (.copy 0)
          rw [Relay.row_copy_source, Relay.Event.brought, Relay.Event.brought, List.append_nil]
            at htracks₂
          exact ⟨index₂, htracks₂, hbuilt.mono ((hforward₁ 2).trans (hforward₂ 2))⟩
  | fetch =>
      rw [ReadingCopies.step] at hstep
      split at hstep
      · cases hstep
      · obtain rfl := Option.some.inj hstep
        obtain ⟨index', hforward, htracks'⟩ := htracks.step (.copy 1)
        rw [places, Relay.row_copy_between] at htracks'
        have hlater := @BuiltFrom.mono _ _ [] _ _ _ hbuilt (hforward 2)
        rw [Event.received, Event.built, List.append_nil, List.append_nil]
        rw [Relay.Event.brought, List.append_nil] at htracks'
        rw [List.append_nil] at hlater
        exact ⟨h.can_eq, index', htracks', hlater⟩
  | begin task =>
      rw [ReadingCopies.step] at hstep
      split at hstep
      · cases hstep
      · obtain rfl := Option.some.inj hstep
        rw [Event.received, Event.built, List.append_nil, List.append_nil]
        exact ⟨h.can_eq, index, htracks, hbuilt⟩
  | finish task call =>
      rw [ReadingCopies.step] at hstep
      split at hstep
      · obtain rfl := Option.some.inj hstep
        rw [Event.received, Event.built, List.append_nil]
        exact ⟨h.can_eq, index, htracks, hbuilt.snoc (htracks.value 2) call⟩
      · cases hstep

theorem run_follows (hrun : Runs.run (step undefinedShift) events (powerOn can) = some s) :
    s.Follows undefinedShift can (received events) (built events) := by
  refine @Runs.run_history _ _ _ (fun events s =>
    s.Follows undefinedShift can (received events) (built events)) (fun _ => True) _
    powerOn_follows (fun events e s₁ s₂ _ h hstep => ?_) events s (fun _ _ => trivial) hrun
  rw [received, built, List.flatMap_append, List.flatMap_append, List.flatMap_singleton,
    List.flatMap_singleton]
  exact h.step hstep

theorem lastMeasured_readingsAfter (undefinedShift : Int → UInt32) (can : CanHealth)
    (messages : List (Option CanMessage)) :
    LastMeasured can messages (readingsAfter undefinedShift can messages) where
  charger r hr := @foldl_eq_latest CanHealth (Option CanMessage) ℚ (Option.bind · r.ofCharger) _
    (fun s => r.get s.status.toChargerPeriodicStatus)
    (fun _ message => Register.get_iteration hr message) messages can
  modules k r hr := @foldl_eq_latest CanHealth (Option CanMessage) ℚ (Option.bind · (r.ofModule k)) _
    (fun s => r.get (s.modules k).toPowerModuleData)
    (fun _ message => Register.get_iteration_module hr message) messages can

theorem history_getElem? {time : Nat} {seen : Reported}
    (h : (history undefinedShift can messages)[time]? = some seen) :
    time ≤ messages.length ∧ seen = readingsAfter undefinedShift can (messages.take time) := by
  rw [history, List.getElem?_map, Option.map_eq_some_iff] at h
  obtain ⟨n, hn, rfl⟩ := h
  obtain ⟨hlt, rfl⟩ := List.getElem?_eq_some_iff.mp hn
  rw [List.getElem_range]
  rw [List.length_range] at hlt
  exact ⟨Nat.lt_succ_iff.mp hlt, rfl⟩

/-- In every run, whatever the iterations receive and whenever the copies are made, as long as none
falls into a message, each message is built from the readings after one iteration, and these are as they
were last measured by then. The iterations are in the order of the messages. -/
theorem messages_have_latest_readings
    (hrun : Runs.run (step undefinedShift) events (powerOn can) = some s) :
    ∃ times : List Nat, times.Pairwise (· ≤ ·) ∧ times.length = (built events).length
      ∧ s.messages = List.zipWith (fun call time =>
          call.payload (readingsAfter undefinedShift can ((received events).take time)))
          (built events) times
      ∧ ∀ time ∈ times, time ≤ (received events).length
        ∧ LastMeasured can ((received events).take time)
          (readingsAfter undefinedShift can ((received events).take time)) := by
  obtain ⟨index, -, seen, ⟨times, hordered, -, hseen⟩, hlength, hmessages⟩ := (run_follows hrun).copies
  have hread : ∀ time ∈ times, time ≤ (received events).length
      ∧ (history undefinedShift can (received events))[time]?
        = some (readingsAfter undefinedShift can ((received events).take time)) := by
    intro time htime
    have hmem : (history undefinedShift can (received events))[time]? ∈ seen.map some := by
      rw [hseen]
      exact List.mem_map_of_mem htime
    obtain ⟨reading, -, hreading⟩ := List.mem_map.mp hmem
    obtain ⟨hle, rfl⟩ := history_getElem? hreading.symm
    exact ⟨hle, hreading.symm⟩
  have hreadings : seen = times.map fun time =>
      readingsAfter undefinedShift can ((received events).take time) := by
    apply List.map_injective_iff.mpr (Option.some_injective Reported)
    rw [hseen, List.map_map]
    exact List.map_congr_left fun time htime => (hread time htime).2
  refine ⟨times, hordered, ?_, ?_, fun time htime =>
    ⟨(hread time htime).1, lastMeasured_readingsAfter undefinedShift can _⟩⟩
  · rw [← hlength, hreadings, List.length_map]
  · rw [hmessages, hreadings, List.zipWith_map_right]

end Runs

/-! ### A message between two frames -/

/-- Grid voltages, the same for all phases. -/
def voltageFrame (high low : UInt8) : Frame := ![1, high, low, high, low, high, low, 1]

/-- The voltages are measured twice, and the second time while a message is being built. -/
def measuredTwice : List Event :=
  [.canTask (some ⟨PERIODIC_DATA_ID, voltageFrame 8 252⟩) true, .fetch, .begin .mqttTask,
    .canTask (some ⟨PERIODIC_DATA_ID, voltageFrame 9 0⟩) true,
    .finish .mqttTask ⟨.chargerPeriodicData, idleCharger 1 1, newYear⟩]

/-- The message has the voltages of one time. -/
theorem measuredTwice_is_reported :
    ∃ time ≤ 2, (Runs.run (step fun _ => 0) measuredTwice (powerOn CanHealth.unheard)).map messages
      = some [ReadingCall.payload ⟨.chargerPeriodicData, idleCharger 1 1, newYear⟩
        (readingsAfter (fun _ => 0) CanHealth.unheard ((received measuredTwice).take time))] := by
  obtain ⟨s, hrun⟩ : ∃ s,
      Runs.run (step fun _ => 0) measuredTwice (powerOn CanHealth.unheard) = some s := ⟨_, rfl⟩
  obtain ⟨times, -, hlength, hmessages, htimes⟩ := messages_have_latest_readings hrun
  obtain ⟨time, rfl⟩ := List.length_eq_one_iff.mp hlength
  refine ⟨time, (htimes time List.mem_cons_self).1, ?_⟩
  rw [hrun, Option.map_some, hmessages]
  rfl

end ReadingCopies

end Pmu
