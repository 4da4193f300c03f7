import PmuFirmware.Lib.Run
import PmuFirmware.Messages.Bounds

/-!
# Answering requests

A request is answered in one of two ways. What is wrong with its shape is returned as a code, which
`process_MQTT_msg` sends; a request for the status of a component is answered while it is validated,
with the status or with a code, and success is returned. Both ways use globals that outlive the
message.
-/

namespace Pmu

open CLib

/-- `get_error` -/
def getError : SentCode → CStr
  | .returned .jsonArrayNotFound => "ProtocolError".toList
  | .returned .invalidJsonFormat => "FormationViolation".toList
  | .returned .jsonArrayElementsOutOfRange => "FormationViolation".toList
  | .returned .invalidMessageTypeId => "ProtocolError".toList
  | .returned .invalidMessageId => "ProtocolError".toList
  | .returned .invalidAction => "InvalidAction".toList
  | .returned .invalidPayload => "FormationViolation".toList
  | .returned .componentStatusPayloadError => "FormationViolation".toList
  | .returned .periodicDataPayloadError => "FormationViolation".toList
  | .returned .configurationDataPayloadError => "FormationViolation".toList
  | .returned .chargingSessionPayloadError => "FormationViolation".toList
  | .returned .invalidMsg => "InvalidMsg".toList
  | .returned .validMsg => "GenericError".toList
  | .returned .invalidCallErrorFormat => "GenericError".toList
  | .returned .faultlogPayloadError => "GenericError".toList
  | .componentNotSupported => "ComponentNotSupported".toList
  | .idNotSupported => "IDNotSupported".toList

/-- The array printed by `create_json_call_result_string`. -/
def callResultArray (messageId : CStr) (payload : Json) : Json :=
  .array [.number 3, .string messageId, payload]

/-- The array printed by `send_json_call_error`. -/
def callErrorArray (messageId : CStr) (code : SentCode) : Json :=
  .array [.number 4, .string messageId, .string (getError code), .string [], .object []]

/-- The globals of the answers. A message that has been published is listed as the array whose text
the client has taken; `jsonArrayString` is the array whose text the global points to. -/
structure Answering extends Node where
  error : SentCode
  jsonArrayString : Option Json
  sent : List Json

/-- What a message finds when it is processed: whether the network is online and the client takes what
is published, the data of the charger, and the time. -/
structure Delivery where
  msg : CStr
  env : Env
  isMqttNetworkOnline : Bool
  published : Bool
  charger : Charger
  now : UtcTime

variable (parse : CStr → Option Json) (print : Json → Option CStr) (d : Delivery)

def publish (reply : Json) (s : Answering) : Answering :=
  if d.isMqttNetworkOnline && d.published then { s with sent := s.sent ++ [reply] } else s

def sendJsonCallError (messageId : CStr) (code : SentCode) (s : Answering) : Answering :=
  match print (callErrorArray messageId code) with
  | none => s
  | some _ => publish d (callErrorArray messageId code) s

/-- The end of `create_componentStatus_response`. -/
def publishJsonArrayString (s : Answering) : Answering :=
  match s.jsonArrayString with
  | none => s
  | some reply => { publish d reply s with jsonArrayString := none }

def createComponentStatusResponse (messageId : CStr) (component id : Int) (s : Answering) :
    Option Answering :=
  (componentStatusAnswer d.charger d.now component id).map fun answer =>
    publishJsonArrayString d <|
      match answer with
      | .ok payload =>
        { s with jsonArrayString :=
            (print (callResultArray messageId payload)).map fun _ => callResultArray messageId payload }
      | .error code => sendJsonCallError print d messageId code { s with error := code }

/-- The status requests made while a message was validated, of which there is at most one. It is
answered before anything is returned. -/
def answerRequests (node : Node) (s : Answering) : Option Answering :=
  (node.componentRequests.drop s.componentRequests.length).foldlM
    (fun s r => createComponentStatusResponse print d r.1 r.2.1 r.2.2 s) { s with toNode := node }

/-- What `process_MQTT_msg` does with the returned code. -/
def sendReturned (r : Reply) (s : Answering) : Answering :=
  let s := { s with error := .returned r.code }
  match r.errorUuid with
  | none => s
  | some errorUuid =>
    if r.code ≠ .validMsg then sendJsonCallError print d errorUuid (.returned r.code) s else s

/-- `process_MQTT_msg`, once it is notified. -/
def processMqttMsg (s : Answering) : Option Answering :=
  (validateJsonString parse d.env d.msg s.toNode).bind fun r =>
    (answerRequests print d r.2 s).map (sendReturned print d r.1)

/-- Before the first message. -/
def Answering.start (node : Node) : Answering := ⟨node, .returned .validMsg, none, []⟩

/-! ### What a request asks for -/

/-- The component and the id of a request for a status. -/
def statusRequest (action payload : Json) : Option (Int × Int) :=
  match action, payload with
  | .string action, .object members =>
    if action = "ComponentStatus".toList then
      match (Json.object members).getObjectItem "component".toList,
        (Json.object members).getObjectItem "id".toList with
      | some (.number component), some (.number id) =>
        some ((Json.number component).valueint, (Json.number id).valueint)
      | _, _ => none
    else none
  | _, _ => none

/-- The components and ids there are. -/
def Supported (c : Charger) : Int × Int → Prop
  | (component, id) => component = 1 ∧ 0 ≤ id ∧ id ≤ c.config.numPCM.val
    ∨ component = 2 ∧ 0 ≤ id ∧ id ≤ c.numConnectors.val ∨ component = 3 ∧ id = 0
    ∨ component = 4 ∧ id = 0

def IsCallResult (messageId : CStr) (reply : Json) : Prop :=
  ∃ members, reply = callResultArray messageId (.object members)

def IsCallError (messageId : CStr) (reply : Json) : Prop :=
  ∃ code, reply = callErrorArray messageId code

/-! ### Validating a request -/

section Validation

variable {typeId : ℚ} {messageId : CStr} {action payload : Json}

theorem messageHeader_call (htype : (Json.number typeId).valueint = 2)
    (hid : messageId.length ≤ 36) :
    messageHeader 2 (.array [.number typeId, .string messageId, action, payload])
      = .ok messageId := by
  show (if (Json.number typeId).valueint = 2 then
    if messageId.length ≤ 36 then Except.ok messageId else .error ErrorCode.invalidMessageId
    else .error ErrorCode.invalidMessageTypeId) = _
  rw [if_pos htype, if_pos hid]

theorem processComponentStatus_numbers {payload : Json} {component id : ℚ}
    (hcomponent : payload.getObjectItem "component".toList = some (.number component))
    (hid : payload.getObjectItem "id".toList = some (.number id)) (messageId : CStr) (s : Node) :
    processComponentStatus payload messageId s = (.validMsg, { s with
      globalComponentValue := (Json.number component).valueint
      idRequested := (Json.number id).valueint
      componentRequests := s.componentRequests
        ++ [(messageId, (Json.number component).valueint, (Json.number id).valueint)] }) := by
  rw [processComponentStatus, hcomponent]
  dsimp only
  rw [hid]

/-- A request for a status is recorded, and success is returned. -/
theorem validateCall_status (htype : (Json.number typeId).valueint = 2)
    (hid : messageId.length ≤ 36) {component id : Int}
    (hrequest : statusRequest action payload = some (component, id)) (s : Node) :
    validateCall (.array [.number typeId, .string messageId, action, payload]) s
      = (⟨.validMsg, some messageId⟩, { s with
          globalComponentValue := component
          idRequested := id
          componentRequests := s.componentRequests ++ [(messageId, component, id)] }) := by
  unfold statusRequest at hrequest
  split at hrequest
  · rename_i name members
    split at hrequest
    · rename_i hname
      split at hrequest
      · rename_i componentNumber idNumber hcomponent hnumber
        obtain ⟨rfl, rfl⟩ := Prod.mk.inj (Option.some.inj hrequest)
        have hnonempty : name ≠ [] := by
          rw [hname]
          decide
        rw [validateCall, messageHeader_call htype hid]
        show (if name = [] then _ else if name = "ComponentStatus".toList then _ else _) = _
        rw [if_neg hnonempty, if_pos hname, processComponentStatus_numbers hcomponent hnumber]
      · cases hrequest
    · cases hrequest
  · cases hrequest

/-- Any other request returns an error, and nothing is recorded. -/
theorem validateCall_other (htype : (Json.number typeId).valueint = 2)
    (hid : messageId.length ≤ 36) (hrequest : statusRequest action payload = none) (s : Node) :
    ∃ code, code ≠ ErrorCode.validMsg
      ∧ (validateCall (.array [.number typeId, .string messageId, action, payload]) s).1
        = ⟨code, some messageId⟩
      ∧ (validateCall (.array [.number typeId, .string messageId, action, payload])
          s).2.componentRequests = s.componentRequests := by
  rw [validateCall, messageHeader_call htype hid]
  simp only [Json.getArrayItem, Json.children, List.getElem?_cons_succ, List.getElem?_cons_zero]
  split
  · rename_i name hname
    obtain rfl := Option.some.inj hname
    split
    · exact ⟨_, by decide, rfl, rfl⟩
    split
    · rename_i members hmembers
      obtain rfl := Option.some.inj hmembers
      split
      · rename_i hstatus
        rw [statusRequest, if_pos hstatus] at hrequest
        rw [processComponentStatus]
        split
        · rename_i component hcomponent
          dsimp only
          split
          · rename_i id hnumber
            rw [hcomponent, hnumber] at hrequest
            cases hrequest
          · exact ⟨.componentStatusPayloadError, by decide, rfl, rfl⟩
        · exact ⟨.componentStatusPayloadError, by decide, rfl, rfl⟩
      · exact ⟨_, by decide, rfl, rfl⟩
    · exact ⟨_, by decide, rfl, rfl⟩
  · exact ⟨_, by decide, rfl, rfl⟩

end Validation

/-! ### One reply -/

section Replies

variable {parse} {print} {d}

theorem publishJsonArrayString_idle (s : Answering) :
    (publishJsonArrayString d s).jsonArrayString = none := by
  rw [publishJsonArrayString]
  cases hidle : s.jsonArrayString with
  | none => exact hidle
  | some reply => rfl

theorem sendJsonCallError_idle {s : Answering} (hs : s.jsonArrayString = none) (messageId : CStr)
    (code : SentCode) : (sendJsonCallError print d messageId code s).jsonArrayString = none := by
  rw [sendJsonCallError, publish]
  split
  · exact hs
  · split
    · exact hs
    · exact hs

theorem sendReturned_idle {s : Answering} (hs : s.jsonArrayString = none) (r : Reply) :
    (sendReturned print d r s).jsonArrayString = none := by
  rw [sendReturned]
  cases r.errorUuid with
  | none => exact hs
  | some errorUuid =>
      dsimp only
      split
      · exact sendJsonCallError_idle (s := { s with error := .returned r.code }) hs _ _
      · exact hs

/-- No text is left for the next message. -/
theorem processMqttMsg_idle {s s' : Answering} (hs : s.jsonArrayString = none)
    (hrun : processMqttMsg parse print d s = some s') : s'.jsonArrayString = none := by
  obtain ⟨r, -, hrun⟩ := Option.bind_eq_some_iff.mp hrun
  obtain ⟨t, hanswers, rfl⟩ := Option.map_eq_some_iff.mp hrun
  have hresponse : ∀ (request : CStr × Int × Int) (s s' : Answering), s.jsonArrayString = none →
      True → createComponentStatusResponse print d request.1 request.2.1 request.2.2 s = some s' →
      s'.jsonArrayString = none := by
    intro request s s' _ _ hcreate
    obtain ⟨answer, -, rfl⟩ := Option.map_eq_some_iff.mp hcreate
    exact publishJsonArrayString_idle _
  refine sendReturned_idle ?_ r.1
  exact Runs.run_invariant hresponse (s := { s with toNode := r.2 }) hs
    (.of_forall fun _ _ _ => trivial) hanswers

/-- The network is online, the client takes the message and there is memory. -/
structure Delivery.Works (print : Json → Option CStr) (d : Delivery) : Prop where
  online : d.isMqttNetworkOnline = true
  published : d.published = true
  prints : ∀ json, (print json).isSome = true

theorem publish_sent (hd : d.Works print) (reply : Json) (s : Answering) :
    (publish d reply s).sent = s.sent ++ [reply] := by
  rw [publish, hd.online, hd.published]
  rfl

theorem sendJsonCallError_sent (hd : d.Works print) (messageId : CStr) (code : SentCode)
    (s : Answering) :
    (sendJsonCallError print d messageId code s).sent
      = s.sent ++ [callErrorArray messageId code] := by
  obtain ⟨text, htext⟩ := Option.isSome_iff_exists.mp (hd.prints (callErrorArray messageId code))
  rw [sendJsonCallError, htext]
  exact publish_sent hd _ s

/-- A payload is sent once. -/
theorem createComponentStatusResponse_payload (hd : d.Works print) {messageId : CStr}
    {component id : Int} {payload : Json}
    (hanswer : componentStatusAnswer d.charger d.now component id = some (.ok payload))
    (s : Answering) :
    ∃ s', createComponentStatusResponse print d messageId component id s = some s'
      ∧ s'.sent = s.sent ++ [callResultArray messageId payload] := by
  obtain ⟨text, htext⟩ := Option.isSome_iff_exists.mp (hd.prints (callResultArray messageId payload))
  refine ⟨_, by rw [createComponentStatusResponse, hanswer, Option.map_some], ?_⟩
  dsimp only
  rw [htext]
  exact publish_sent hd (callResultArray messageId payload) _

/-- An error is sent once: there is no text of an earlier answer to be sent with it. -/
theorem createComponentStatusResponse_error (hd : d.Works print) {messageId : CStr}
    {component id : Int} {code : SentCode}
    (hanswer : componentStatusAnswer d.charger d.now component id = some (.error code))
    {s : Answering} (hs : s.jsonArrayString = none) :
    ∃ s', createComponentStatusResponse print d messageId component id s = some s'
      ∧ s'.sent = s.sent ++ [callErrorArray messageId code] := by
  have hidle :
      (sendJsonCallError print d messageId code { s with error := code }).jsonArrayString = none :=
    sendJsonCallError_idle (s := { s with error := code }) hs messageId code
  refine ⟨_, by rw [createComponentStatusResponse, hanswer, Option.map_some], ?_⟩
  dsimp only
  rw [publishJsonArrayString, hidle]
  exact sendJsonCallError_sent hd messageId code { s with error := code }

theorem answerRequests_none {node : Node} {s : Answering}
    (hnode : node.componentRequests = s.componentRequests) :
    answerRequests print d node s = some { s with toNode := node } := by
  rw [answerRequests, hnode, List.drop_length]
  rfl

theorem answerRequests_one {node : Node} {s : Answering} {request : CStr × Int × Int}
    (hnode : node.componentRequests = s.componentRequests ++ [request]) :
    answerRequests print d node s
      = createComponentStatusResponse print d request.1 request.2.1 request.2.2
          { s with toNode := node } := by
  rw [answerRequests, hnode, List.drop_left, List.foldlM_cons]
  simp

theorem supported_iff_accepted {c : Charger} {component id : Int} (hid : 0 ≤ id) :
    Supported c (component, id) ↔ Accepted c component id := by
  rw [Supported, Accepted]
  refine or_congr_right (or_congr_left (and_congr_right fun _ => ?_))
  omega

/-- Two connectors and ten modules fit the arrays. -/
theorem fitsArrays_of_le {c : Charger} (hconnectors : c.numConnectors.val ≤ 2)
    (hmodules : c.config.numPCM.val ≤ maxPcmModule) (component : Int) {id : Int} (hid : 0 ≤ id) :
    FitsArrays c component id := by
  refine ⟨hmodules, fun _ => .inl hconnectors, fun _ _ => .inl hconnectors, fun _ hzero hle => ?_⟩
  exact ⟨by omega, .inl (by omega)⟩

/-- A request for a status is answered once. -/
theorem createComponentStatusResponse_answers (hd : d.Works print)
    (hconnectors : d.charger.numConnectors.val ≤ 2)
    (hmodules : d.charger.config.numPCM.val ≤ maxPcmModule) (messageId : CStr) (component : Int)
    {id : Int} (hid : 0 ≤ id) {s : Answering} (hs : s.jsonArrayString = none) :
    ∃ s' reply, createComponentStatusResponse print d messageId component id s = some s'
      ∧ s'.sent = s.sent ++ [reply]
      ∧ (Supported d.charger (component, id) ∧ IsCallResult messageId reply
        ∨ ¬ Supported d.charger (component, id) ∧ IsCallError messageId reply) := by
  by_cases hsupported : Supported d.charger (component, id)
  · have haccepted := (supported_iff_accepted hid).mp hsupported
    obtain ⟨answer, hanswer⟩ := Option.isSome_iff_exists.mp
      ((componentStatusAnswer_isSome_iff haccepted).mpr
        ((fitsArrays_of_le hconnectors hmodules component hid).answerReadable haccepted))
    obtain ⟨members, rfl⟩ := componentStatusAnswer_accepted haccepted hanswer
    obtain ⟨s', hrun, hreply⟩ := createComponentStatusResponse_payload hd hanswer s
    exact ⟨s', _, hrun, hreply, .inl ⟨hsupported, members, rfl⟩⟩
  · have hrejected := mt (supported_iff_accepted hid).mpr hsupported
    obtain ⟨s', hrun, hreply⟩ :=
      createComponentStatusResponse_error hd (componentStatusAnswer_rejected hrejected) hs
    exact ⟨s', _, hrun, hreply, .inr ⟨hsupported, rejection component, rfl⟩⟩

/-- One step answers a request once, with the status exactly when there is such a component. -/
theorem processMqttMsg_answers (hd : d.Works print) (hconnectors : d.charger.numConnectors.val ≤ 2)
    (hmodules : d.charger.config.numPCM.val ≤ maxPcmModule) {typeId : ℚ} {messageId : CStr}
    {action payload : Json} (hcall : parse d.msg
      = some (.array [.number typeId, .string messageId, action, payload]))
    (htype : (Json.number typeId).valueint = 2) (hid : messageId.length ≤ 36)
    (hnonneg : ∀ request ∈ statusRequest action payload, 0 ≤ request.2) {s : Answering}
    (hs : s.jsonArrayString = none) :
    ∃ s' reply, processMqttMsg parse print d s = some s' ∧ s'.sent = s.sent ++ [reply]
      ∧ ((∃ request ∈ statusRequest action payload, Supported d.charger request)
          ∧ IsCallResult messageId reply
        ∨ (¬ ∃ request ∈ statusRequest action payload, Supported d.charger request)
          ∧ IsCallError messageId reply) := by
  have hvalidate : validateJsonString parse d.env d.msg s.toNode = some (validateCall
      (.array [.number typeId, .string messageId, action, payload]) s.toNode) := by
    rw [validateJsonString, hcall]
    rfl
  rw [processMqttMsg, hvalidate, Option.bind_some]
  cases hrequest : statusRequest action payload with
  | none =>
      obtain ⟨code, hcode, hreturned, hnothing⟩ := validateCall_other htype hid hrequest s.toNode
      rw [answerRequests_none hnothing, hreturned, Option.map_some, sendReturned]
      dsimp only
      rw [if_pos hcode]
      refine ⟨_, callErrorArray messageId (.returned code), rfl, sendJsonCallError_sent hd _ _ _,
        .inr ⟨?_, _, rfl⟩⟩
      rintro ⟨request, hmem, -⟩
      cases hmem
  | some request =>
      obtain ⟨component, id⟩ := request
      have hzero : 0 ≤ id := hnonneg (component, id) hrequest
      obtain ⟨node, hnode, hrecorded⟩ : ∃ node, validateCall
          (.array [.number typeId, .string messageId, action, payload]) s.toNode
            = (⟨.validMsg, some messageId⟩, node)
          ∧ node.componentRequests = s.componentRequests ++ [(messageId, component, id)] :=
        ⟨_, validateCall_status htype hid hrequest s.toNode, rfl⟩
      obtain ⟨s', reply, hrun, hreply, hkind⟩ := createComponentStatusResponse_answers hd
        hconnectors hmodules messageId component hzero
        (s := { s with toNode := node }) hs
      rw [hnode, answerRequests_one hrecorded, hrun, Option.map_some]
      -- success is returned, for which nothing is sent
      refine ⟨sendReturned print d ⟨.validMsg, some messageId⟩ s', reply, rfl, hreply, ?_⟩
      simpa using hkind

/-- However many messages have been processed before, each request from the server is answered exactly
once, under its message id, with the status exactly when it asks for a component that there is. -/
theorem request_is_answered_once {node : Node} {earlier : List Delivery} {s : Answering}
    (hearlier : Runs.run (processMqttMsg parse print) earlier (.start node) = some s)
    (hd : d.Works print) (hconnectors : d.charger.numConnectors.val ≤ 2)
    (hmodules : d.charger.config.numPCM.val ≤ maxPcmModule) {typeId : ℚ} {messageId : CStr}
    {action payload : Json} (hcall : parse d.msg
      = some (.array [.number typeId, .string messageId, action, payload]))
    (htype : (Json.number typeId).valueint = 2) (hid : messageId.length ≤ 36)
    (hnonneg : ∀ request ∈ statusRequest action payload, 0 ≤ request.2) :
    ∃ s' reply, processMqttMsg parse print d s = some s' ∧ s'.sent = s.sent ++ [reply]
      ∧ reply.getArrayItem 1 = some (.string messageId)
      ∧ (IsCallResult messageId reply
        ↔ ∃ request ∈ statusRequest action payload, Supported d.charger request)
      ∧ (IsCallError messageId reply
        ↔ ¬ ∃ request ∈ statusRequest action payload, Supported d.charger request) := by
  have hs : s.jsonArrayString = none :=
    Runs.run_invariant (fun _ _ _ hs (_ : True) hrun => processMqttMsg_idle hs hrun) rfl
      (.of_forall fun _ _ _ => trivial) hearlier
  have hexclusive : ∀ reply, IsCallResult messageId reply → ¬ IsCallError messageId reply := by
    rintro _ ⟨members, rfl⟩ ⟨code, herror⟩
    cases herror
  obtain ⟨s', reply, hrun, hreply, hkind⟩ :=
    processMqttMsg_answers hd hconnectors hmodules hcall htype hid hnonneg hs
  refine ⟨s', reply, hrun, hreply, ?_⟩
  rcases hkind with ⟨hsupported, hresult⟩ | ⟨hunsupported, herror⟩
  · refine ⟨?_, iff_of_true hresult hsupported,
      iff_of_false (hexclusive reply hresult) (not_not.mpr hsupported)⟩
    obtain ⟨members, rfl⟩ := hresult
    rfl
  · refine ⟨?_, iff_of_false (fun hresult => hexclusive reply hresult herror) hunsupported,
      iff_of_true herror hunsupported⟩
    obtain ⟨code, rfl⟩ := herror
    rfl

end Replies

/-! ### A request for the status of the controllers -/

def controllersRequest : CStr :=
  "[2,\"r1\",\"ComponentStatus\",\x7b\"component\":2,\"id\":0\x7d]".toList

def controllersPayload : Json :=
  .object [("component".toList, .number 2), ("id".toList, .number 0)]

/-- What the JSON library makes of the request. -/
def parseControllers (text : CStr) : Option Json :=
  if text = controllersRequest then
    some (.array [.number 2, .string "r1".toList, .string "ComponentStatus".toList,
      controllersPayload])
  else none

/-- Printing with enough memory; numbers without fraction only. -/
def printPlain (json : Json) : Option CStr := some (json.printUnformatted.getD [])

def controllersDelivery : Delivery where
  msg := controllersRequest
  env := healthy
  isMqttNetworkOnline := true
  published := true
  charger := idleCharger 2 1
  now := newYear

def idleNode : Node := ⟨alone .request [], false, [], 0, 0, 0, []⟩

theorem controllers_are_answered : ∃ s' reply,
    processMqttMsg parseControllers printPlain controllersDelivery (.start idleNode) = some s'
      ∧ s'.sent = (Answering.start idleNode).sent ++ [reply]
      ∧ reply.getArrayItem 1 = some (.string "r1".toList)
      ∧ (IsCallResult "r1".toList reply
        ↔ ∃ request ∈ statusRequest (.string "ComponentStatus".toList) controllersPayload,
          Supported (idleCharger 2 1) request)
      ∧ (IsCallError "r1".toList reply
        ↔ ¬ ∃ request ∈ statusRequest (.string "ComponentStatus".toList) controllersPayload,
          Supported (idleCharger 2 1) request) := by
  have htwo : (Json.number 2).valueint = 2 := by decide +kernel
  have hnonneg : ∀ request ∈ statusRequest (.string "ComponentStatus".toList) controllersPayload,
      0 ≤ request.2 := by decide +kernel
  exact request_is_answered_once (d := controllersDelivery) (Runs.run_nil _)
    ⟨rfl, rfl, fun _ => rfl⟩ (by decide) (by decide) (if_pos rfl) htwo (by decide) hnonneg

end Pmu
