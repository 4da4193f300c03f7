import PmuFirmware.Queue.Readers
import PmuFirmware.Messages.FormMessage

/-!
# Messages from the broker

`validate_json_string` takes the text of an MQTT message. A request is answered with the status of a
component, an error is only logged, and a response deletes the queue entry it answers, after its
payload has been checked for the action of that entry.
-/

namespace Pmu

open CLib

/-- `ErrorMessageCodeEnumType`, as far as it is returned. -/
inductive ErrorCode
  | validMsg
  | jsonArrayNotFound
  | invalidJsonFormat
  | jsonArrayElementsOutOfRange
  | invalidMessageTypeId
  | invalidCallErrorFormat
  | invalidMessageId
  | invalidAction
  | invalidPayload
  | componentStatusPayloadError
  | periodicDataPayloadError
  | configurationDataPayloadError
  | chargingSessionPayloadError
  | faultlogPayloadError
  | invalidMsg
  deriving DecidableEq

/-- The globals that an inbound message can change. `componentRequests` lists the calls of
`create_componentStatus_response` with the message id, the component and the id asked for. -/
structure Node where
  queue : Store
  configDataExchanged : Bool
  configDataBootUUID : CStr
  valueofChangedParameter : Nat
  globalComponentValue : Int
  idRequested : Int
  componentRequests : List (CStr × Int × Int)

/-- What `validate_json_string` returns: the code and `error_uuid`. -/
structure Reply where
  code : ErrorCode
  errorUuid : Option CStr

/-! ### Timestamps -/

/-- The regular expression of `is_valid_utc_timestamp`, one test for each character. -/
def utcPattern : List (Char → Bool) :=
  let d : Char → Bool := Char.isDigit
  [d, d, d, d, (· == '-'), d, d, (· == '-'), d, d, (· == 'T'), d, d, (· == ':'), d, d, (· == ':'),
    d, d, (· == 'Z')]

def matchesPattern : List (Char → Bool) → CStr → Bool
  | [], s => s.isEmpty
  | _ :: _, [] => false
  | p :: ps, c :: s => p c && matchesPattern ps s

/-- `is_valid_utc_timestamp` -/
def isValidUtcTimestamp (lib : TimeLibrary) (timestamp : CStr) : Bool :=
  matchesPattern utcPattern timestamp
    && (strptime lib (isoFormat ++ [.lit 'Z']) timestamp Tm.zero).2.isSome

/-- The check of the `timestamp` member that all response payloads share. -/
def hasValidTimestamp (lib : TimeLibrary) (payload : Json) : Bool :=
  match payload.getObjectItem "timestamp".toList with
  | some (.string timestamp) => isValidUtcTimestamp lib timestamp
  | _ => false

/-! ### Payloads of responses -/

variable (parse : CStr → Option Json) (env : Env)

def processTimestampPayload (error : ErrorCode) (payload : Json) : ErrorCode :=
  if hasValidTimestamp env.timeLibrary payload then .validMsg else error

/-- `process_configurationData_payload`: the response to the boot configuration opens the gate for
sessions and faults. -/
def processConfigurationDataPayload (payload : Json) (uuid : CStr) (s : Node) : ErrorCode × Node :=
  if hasValidTimestamp env.timeLibrary payload then
    (.validMsg, { s with
      configDataExchanged := s.configDataExchanged || s.configDataBootUUID == uuid
      valueofChangedParameter := 0 })
  else (.configurationDataPayloadError, s)

def processPeriodicDataPayload : Json → ErrorCode :=
  processTimestampPayload env .periodicDataPayloadError

def processChargingSessionPayload : Json → ErrorCode :=
  processTimestampPayload env .chargingSessionPayloadError

def processFaultLogPayload : Json → ErrorCode :=
  processTimestampPayload env .faultlogPayloadError

def chargerPeriodicData : CStr := "ChargerPeriodicData".toList
def pcmPeriodicData : CStr := "PCMPeriodicData".toList

/-- The payload check for the action of the request; other actions are not checked. -/
def processPayload (action : CStr) (payload : Json) (uuid : CStr) (s : Node) : ErrorCode × Node :=
  if action = configurationData then processConfigurationDataPayload env payload uuid s
  else if action = chargerPeriodicData then (processPeriodicDataPayload env payload, s)
  else if action = pcmPeriodicData then (processPeriodicDataPayload env payload, s)
  else if action = chargingSession then (processChargingSessionPayload env payload, s)
  else if action = faultInformation then (processFaultLogPayload env payload, s)
  else (.invalidMsg, s)

/-- The actions whose entry is kept when the payload of the response is not accepted. -/
def critical (action : CStr) : Prop :=
  action = configurationData ∨ action = chargingSession ∨ action = faultInformation

instance : DecidablePred critical := fun action =>
  inferInstanceAs (Decidable (action = configurationData ∨ action = chargingSession
    ∨ action = faultInformation))

/-! ### The three shapes -/

/-- The checks of the first two elements; the message id is returned. -/
def messageHeader (typeId : Int) (json : Json) : Except ErrorCode CStr :=
  match json.getArrayItem 0 with
  | some (.number value) =>
    if (Json.number value).valueint = typeId then
      match json.getArrayItem 1 with
      | some (.string id) => if id.length ≤ 36 then .ok id else .error .invalidMessageId
      | _ => .error .invalidMessageId
    else .error .invalidMessageTypeId
  | _ => .error .invalidMessageTypeId

/-- `process_ComponentStatus` -/
def processComponentStatus (payload : Json) (messageId : CStr) (s : Node) : ErrorCode × Node :=
  match payload.getObjectItem "component".toList with
  | some (.number component) =>
    let s := { s with globalComponentValue := (Json.number component).valueint }
    match payload.getObjectItem "id".toList with
    | some (.number id) =>
      let s := { s with idRequested := (Json.number id).valueint }
      (.validMsg, { s with componentRequests :=
        s.componentRequests ++ [(messageId, s.globalComponentValue, s.idRequested)] })
    | _ => (.componentStatusPayloadError, s)
  | _ => (.componentStatusPayloadError, s)

/-- The case `CALL_`. -/
def validateCall (json : Json) (s : Node) : Reply × Node :=
  match messageHeader 2 json with
  | .error code => (⟨code, none⟩, s)
  | .ok id =>
    match json.getArrayItem 2 with
    | some (.string action) =>
      if action = [] then (⟨.invalidAction, some id⟩, s)
      else
        match json.getArrayItem 3 with
        | some (.object members) =>
          if action = "ComponentStatus".toList then
            let r := processComponentStatus (.object members) id s
            (⟨r.1, some id⟩, r.2)
          else (⟨.invalidMsg, some id⟩, s)
        | _ => (⟨.invalidPayload, some id⟩, s)
    | _ => (⟨.invalidAction, some id⟩, s)

/-- The deletion of the entry that a response answers. -/
def deleteAnswered (action uuid : CStr) (st : Store) : Option Store :=
  if action ≠ faultInformation then
    (handleResponseMessage parse env uuid st).map fun r =>
      match r.2 with
      | none => r.1
      | some count => r.1.setEntries .request count
  else handleFaultResponseMessage parse env uuid st

/-- The case `CALL_RESULT_`. -/
def validateCallResult (json : Json) (s : Node) : Option (Reply × Node) :=
  match messageHeader 3 json with
  | .error code => some (⟨code, none⟩, s)
  | .ok uuid =>
    match getActionFromUuid parse env uuid s.queue with
    | none => some (⟨.validMsg, some uuid⟩, s)
    | some action =>
      match json.getArrayItem 2 with
      | some (.object members) =>
        let r := processPayload env action (.object members) uuid s
        if critical action ∧ r.1 ≠ .validMsg then some (⟨r.1, some uuid⟩, r.2)
        else (deleteAnswered parse env action uuid r.2.queue).map fun queue =>
          (⟨r.1, some uuid⟩, { r.2 with queue := queue })
      | _ => some (⟨.invalidPayload, some uuid⟩, s)

/-- The case `CALL_ERROR_`. -/
def validateCallError (json : Json) (s : Node) : Reply × Node :=
  match messageHeader 4 json with
  | .error code => (⟨code, none⟩, s)
  | .ok uuid =>
    match json.getArrayItem 2, json.getArrayItem 3 with
    | some (.string _), some (.string _) =>
      match getActionFromUuid parse env uuid s.queue with
      | none => (⟨.validMsg, some uuid⟩, s)
      | some _ => (⟨.invalidMsg, some uuid⟩, s)
    | _, _ => (⟨.invalidCallErrorFormat, some uuid⟩, s)

/-- `validate_json_string`; the number of elements is kept in 8 bits. -/
def validateJsonString (msg : CStr) (s : Node) : Option (Reply × Node) :=
  match parse msg with
  | none => some (⟨.invalidJsonFormat, none⟩, s)
  | some json =>
    if json.isArray then
      let count := json.getArraySize % 256
      if count < 3 ∨ 5 < count then some (⟨.jsonArrayElementsOutOfRange, none⟩, s)
      else if count = 4 then some (validateCall json s)
      else if count = 3 then validateCallResult parse env json s
      else some (validateCallError parse env json s)
    else some (⟨.jsonArrayNotFound, none⟩, s)

/-! ### What a message may change -/

/-- The queue loses the entries that are answered, if anything, and the gate may open. -/
structure Received (s s' : Node) : Prop where
  uuid : s'.configDataBootUUID = s.configDataBootUUID
  gate : s'.configDataExchanged = false → s.configDataExchanged = false
  queue : s'.queue = s.queue
    ∨ ∃ action uuid, deleteAnswered parse env action uuid s.queue = some s'.queue

section Received

variable {parse} {env} {s : Node}

theorem processPayload_queue (env : Env) (action : CStr) (payload : Json) (uuid : CStr) (s : Node) :
    (processPayload env action payload uuid s).2.queue = s.queue := by
  simp only [processPayload, processConfigurationDataPayload]
  split_ifs <;> rfl

theorem Received.refl : Received parse env s s := ⟨rfl, id, .inl rfl⟩

theorem processPayload_received (action : CStr) (payload : Json) (uuid : CStr) :
    Received parse env s (processPayload env action payload uuid s).2 := by
  simp only [processPayload, processConfigurationDataPayload]
  split_ifs
  · refine ⟨rfl, fun hclosed => ?_, .inl rfl⟩
    exact (Bool.or_eq_false_iff.mp hclosed).1
  all_goals exact .refl

theorem validateCall_received (json : Json) :
    Received parse env s (validateCall json s).2 := by
  rw [validateCall]
  repeat' first | exact .refl | split
  simp only [processComponentStatus]
  repeat' first | exact ⟨rfl, id, .inl rfl⟩ | split

theorem validateCallResult_received {json : Json} {r : Reply × Node}
    (hrun : validateCallResult parse env json s = some r) : Received parse env s r.2 := by
  rw [validateCallResult] at hrun
  split at hrun
  · rw [← Option.some.inj hrun]
    exact .refl
  · split at hrun
    · rw [← Option.some.inj hrun]
      exact .refl
    · split at hrun
      · next uuid _ _ action _ _ members _ =>
          have hpayload :
              Received parse env s (processPayload env action (.object members) uuid s).2 :=
            processPayload_received action (.object members) uuid
          dsimp only at hrun
          split at hrun
          · rw [← Option.some.inj hrun]
            exact hpayload
          · obtain ⟨queue, hdelete, rfl⟩ := Option.map_eq_some_iff.mp hrun
            refine ⟨hpayload.uuid, hpayload.gate, .inr ⟨action, uuid, ?_⟩⟩
            rwa [processPayload_queue] at hdelete
      · rw [← Option.some.inj hrun]
        exact .refl

theorem validateJsonString_received {msg : CStr} {r : Reply × Node}
    (hrun : validateJsonString parse env msg s = some r) : Received parse env s r.2 := by
  rw [validateJsonString] at hrun
  split at hrun
  · rw [← Option.some.inj hrun]
    exact .refl
  · dsimp only at hrun
    split_ifs at hrun
    · rw [← Option.some.inj hrun]
      exact .refl
    · rw [← Option.some.inj hrun]
      exact validateCall_received _
    · exact validateCallResult_received hrun
    · rw [← Option.some.inj hrun, validateCallError]
      repeat' first | exact .refl | split
    · rw [← Option.some.inj hrun]
      exact .refl

end Received

end Pmu
