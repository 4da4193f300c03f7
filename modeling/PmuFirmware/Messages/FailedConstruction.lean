import PmuFirmware.Messages.ReportSteps
import PmuFirmware.Queue.Enqueueing
import PmuFirmware.Inbound.Validate

/-!
# Messages that cannot be formed

Every call that allocates can fail while a message is formed. The builders check the calls for arrays and
objects, but not what `create_json_call_string` returns, and `create_PCM_Periodic_message` does not check
its payload either: a null pointer goes to `save_payload_to_spiffs` like any other message, and
`create_json_call_string` has taken the boot state on before its last calls. The configuration message
clears flags as it goes, and `mqtt_task` takes the request for it back even if there is no message. What
`fprintf` prints for a null pointer is a parameter.
-/

namespace Pmu

open CLib

/-! ### The call string -/

/-- Which calls fail while a message is formed; printing has no result when it fails. -/
structure CallFailures where
  payload : Json.BuildCall → Bool
  jsonArray : Bool
  typeId : Bool
  messageId : Bool
  action : Bool
  duplicate : Bool

/-- The items that are created. -/
def createdItems (a : CallFailures) (uuid action : CStr) (payload : Json) : List Json :=
  (if a.typeId then [] else [.number 2]) ++ (if a.messageId then [] else [.string uuid])
    ++ (if a.action then [] else [.string action]) ++ if a.duplicate then [] else [payload]

/-- `create_json_call_string` with calls that can fail. -/
def attemptJsonCallString (a : CallFailures) (print : Json → Option CStr) (uuid action : CStr)
    (payload : Option Json) (s : CallState) : Option CStr × CallState :=
  if a.jsonArray then (none, s)
  else
    let s := if s.firstTimeBootUpFlag = 3 ∧ action = configurationData then ⟨0, uuid⟩ else s
    (payload.bind fun payload => print (.array (createdItems a uuid action payload)), s)

/-- Without a failure this is `create_json_call_string` as the other modules have it. -/
theorem attemptJsonCallString_complete (fails : Json.BuildCall → Bool) (print : Json → Option CStr)
    (uuid action : CStr) (payload : Option Json) (s : CallState) :
    attemptJsonCallString ⟨fails, false, false, false, false, false⟩ print uuid action payload s
      = createJsonCallString print uuid action payload s := by
  cases payload <;> rfl

theorem attemptJsonCallString_state (a : CallFailures) (print : Json → Option CStr)
    (uuid : CStr) {action : CStr} (payload : Option Json) {s : CallState}
    (hboot : ¬ (s.firstTimeBootUpFlag = 3 ∧ action = configurationData)) :
    (attemptJsonCallString a print uuid action payload s).2 = s := by
  rw [attemptJsonCallString, if_neg hboot]
  cases a.jsonArray <;> rfl

/-! ### Queueing -/

/-- `save_payload_to_spiffs` gets to the line that appends. -/
def appendsLine (env : Env) (f : QueueFile) (st : Store) : Bool :=
  (makeRoom env f st).join.isSome && env.time.isSome && env.opensForAppending

/-- Nothing is evicted, or the entry is skipped, and nothing is appended. -/
def SavesNothing (env : Env) (f : QueueFile) (st : Store) : Prop :=
  makeRoom env f st = some none
    ∨ makeRoom env f st = some (some st) ∧ (env.time = none ∨ env.opensForAppending = false)

/-- The payload is saved and nothing comes of it. -/
theorem saves_nothing_iff {env : Env} {f : QueueFile} {payload : CStr} {st : Store} :
    savePayloadToSpiffs env f payload st = some st ∧ appendsLine env f st = false
      ↔ SavesNothing env f st := by
  rw [savePayloadToSpiffs, appendsLine, SavesNothing]
  cases hroom : makeRoom env f st with
  | none => simp
  | some room =>
      cases room with
      | none => simp
      | some st' =>
          cases htime : env.time with
          | none => simp
          | some t =>
              cases hopens : env.opensForAppending with
              | false => simp
              | true => simp

/-! ### The builders -/

/-- The globals that a builder and `mqtt_task` change for a message. -/
structure MessageState where
  call : CallState
  flagConfig : Flags
  configData : Bool
  queue : Store

/-- What is left of a message that could be formed or not. -/
structure MessageOutcome extends MessageState where
  appended : Bool

/-- What the builders differ in: `file` is where the message is saved, if anywhere, `checksPayload` tells
whether nothing is done with a payload that could not be built, and `cleared` which flags are gone when
calls fail. -/
structure MessageBuilder where
  action : CStr
  payload : Option Json
  isObject : ∀ j, payload = some j → j.isObject = true
  file : Option QueueFile
  checksPayload : Bool
  cleared : (Json.BuildCall → Bool) → List Flag

namespace MessageBuilder

variable (b : MessageBuilder) (a : CallFailures) (print : Json → Option CStr) (nullText : CStr)
  (env : Env) (uuid : CStr)

/-- The call string is formed and handed to `save_payload_to_spiffs` as it is. -/
def saveCall (payload : Option Json) (s : MessageState) : Option MessageOutcome :=
  let call := attemptJsonCallString a print uuid b.action payload s.call
  let s := { s with call := call.2 }
  b.file.elim (some ⟨s, false⟩) fun f =>
    (savePayloadToSpiffs env f (call.1.getD nullText) s.queue).map fun st =>
      ⟨{ s with queue := st }, appendsLine env f s.queue⟩

/-- A builder; it has no result when it reads outside of an array. -/
def build (s : MessageState) : Option MessageOutcome :=
  b.payload.bind fun j =>
    let payload := (j.build a.payload []).join
    let s := { s with
      flagConfig := fun flag => s.flagConfig flag && decide (flag ∉ b.cleared a.payload) }
    if payload.isNone && b.checksPayload then some ⟨s, false⟩
    else b.saveCall a print nullText env uuid payload s

/-- A builder and what `mqtt_task` does after it: the request for a configuration message is taken
back. -/
def run (s : MessageState) : Option MessageOutcome :=
  (b.build a print nullText env uuid s).map fun o =>
    { o with configData := o.configData && decide (b.action ≠ configurationData) }

/-- Some call fails while the message is formed. -/
def Fails : Prop :=
  ∃ j, b.payload = some j ∧ ((∃ call ∈ j.buildCalls [], a.payload call = true)
    ∨ a.jsonArray = true ∨ a.typeId = true ∨ a.messageId = true ∨ a.action = true
    ∨ a.duplicate = true ∨ print (callArray uuid b.action j) = none)

/-- The message is the first configuration message. -/
def IsBoot (s : MessageState) : Prop :=
  s.call.firstTimeBootUpFlag = 3 ∧ b.action = configurationData

/-- No line is appended or evicted, no counter changes, and the boot state is what it was. The first
configuration message is still asked for, with everything it would have had. -/
def Untouched (s : MessageState) : Prop :=
  ∃ o, b.run a print nullText env uuid s = some o
    ∧ o.queue = s.queue ∧ o.appended = false ∧ o.call = s.call
    ∧ (b.IsBoot s → o.configData = true ∧ o.flagConfig = s.flagConfig)

/-- The builder returns without a message: a call that it checks has failed. -/
def Returns : Prop :=
  b.checksPayload = true ∧ ∃ j, b.payload = some j ∧ Json.EndsBuilding a.payload (j.buildCalls [])

variable {b a print nullText env uuid} {s : MessageState}

theorem join_build_eq_none_iff {j : Json} (hobject : j.isObject = true)
    (fails : Json.BuildCall → Bool) :
    (j.build fails []).join = none ↔ Json.EndsBuilding fails (j.buildCalls []) := by
  rw [← Json.build_eq_none_iff]
  cases j with
  | object members =>
      rw [Json.build]
      cases fails (.createContainer []) with
      | true => simp
      | false => cases Json.buildMembers fails [] 0 members <;> simp
  | null => cases hobject
  | bool b => cases hobject
  | number value => cases hobject
  | string s => cases hobject
  | array items => cases hobject

theorem saveCall_untouched_iff {payload : Option Json} (hboot : ¬ b.IsBoot s) :
    (∃ o, b.saveCall a print nullText env uuid payload s = some o
        ∧ o.queue = s.queue ∧ o.appended = false ∧ o.call = s.call)
      ↔ ∀ f, b.file = some f → SavesNothing env f s.queue := by
  have hcall := attemptJsonCallString_state a print uuid payload hboot
  rw [saveCall, hcall]
  cases hfile : b.file with
  | none => simp
  | some f =>
      simp only [Option.elim_some, Option.some.injEq, forall_eq', Option.map_eq_some_iff]
      rw [← saves_nothing_iff]
      constructor
      · rintro ⟨o, ⟨st, hsave, rfl⟩, hqueue, happended, -⟩
        have hst : st = s.queue := hqueue
        rw [hst] at hsave
        exact ⟨hsave, happended⟩
      · rintro ⟨hsave, happended⟩
        exact ⟨_, ⟨_, hsave, rfl⟩, rfl, happended, rfl⟩

/-- The request for the first configuration message is always taken back. -/
theorem not_untouched_of_isBoot (hboot : b.IsBoot s) :
    ¬ b.Untouched a print nullText env uuid s := by
  rintro ⟨o, hrun, -, -, -, hagain⟩
  obtain ⟨o', -, rfl⟩ := Option.map_eq_some_iff.mp hrun
  have hrequest := (hagain hboot).1
  rw [decide_eq_false (not_not.mpr hboot.2), Bool.and_false] at hrequest
  cases hrequest

/-- When nothing comes of a message, whether its calls fail or not. -/
theorem untouched_iff {j : Json} (hj : b.payload = some j) :
    b.Untouched a print nullText env uuid s
      ↔ ¬ b.IsBoot s ∧ (b.Returns a ∨ ∀ f, b.file = some f → SavesNothing env f s.queue) := by
  by_cases hboot : b.IsBoot s
  · exact iff_of_false (not_untouched_of_isBoot hboot) fun h => h.1 hboot
  · rw [and_iff_right hboot]
    have hreturns : b.Returns a
        ↔ ((j.build a.payload []).join.isNone && b.checksPayload) = true := by
      rw [Returns, hj, Bool.and_eq_true, Option.isNone_iff_eq_none,
        join_build_eq_none_iff (b.isObject j hj)]
      simp only [Option.some.injEq, exists_eq_left', and_comm]
    have hbuild : b.Untouched a print nullText env uuid s
        ↔ ∃ o, b.build a print nullText env uuid s = some o
          ∧ o.queue = s.queue ∧ o.appended = false ∧ o.call = s.call := by
      rw [Untouched, run]
      simp only [Option.map_eq_some_iff, hboot, false_implies, and_true]
      constructor
      · rintro ⟨o, ⟨o', hbuild, rfl⟩, hsame⟩
        exact ⟨o', hbuild, hsame⟩
      · rintro ⟨o, hbuild, hsame⟩
        exact ⟨_, ⟨o, hbuild, rfl⟩, hsame⟩
    rw [hbuild, build, hj, Option.bind_some, hreturns]
    dsimp only
    split
    · next hreturned => exact iff_of_true ⟨_, rfl, rfl, rfl, rfl⟩ (.inl hreturned)
    · next hgoes =>
        rw [or_iff_right hgoes]
        exact saveCall_untouched_iff hboot

/-- Without a failure the whole message is saved, as `create_json_call_string` forms it. -/
theorem run_of_not_fails {j : Json} (hj : b.payload = some j) (hfails : ¬ b.Fails a print uuid) :
    ∃ text, createJsonCallString print uuid b.action (some j) s.call
        = (some text, (createJsonCallString print uuid b.action (some j) s.call).2)
      ∧ (b.run a print nullText env uuid s).map (fun o => (o.call, o.queue))
        = (b.file.elim (some s.queue) fun f => savePayloadToSpiffs env f text s.queue).map fun st =>
          ((createJsonCallString print uuid b.action (some j) s.call).2, st) := by
  simp only [Fails, hj, Option.some.injEq, exists_eq_left', not_or, not_exists, not_and,
    Bool.not_eq_true] at hfails
  obtain ⟨hpayload, harray, htype, hmessage, haction, hduplicate, hprint⟩ := hfails
  obtain ⟨text, htext⟩ := Option.ne_none_iff_exists'.mp hprint
  have ha : a = ⟨a.payload, false, false, false, false, false⟩ :=
    calc a = ⟨a.payload, a.jsonArray, a.typeId, a.messageId, a.action, a.duplicate⟩ := rfl
      _ = ⟨a.payload, false, false, false, false, false⟩ := by
        rw [harray, htype, hmessage, haction, hduplicate]
  have hbuild : (j.build a.payload []).join = some j := by
    rw [Json.build_complete [] j hpayload]
    rfl
  have hcall : attemptJsonCallString a print uuid b.action (some j) s.call
      = createJsonCallString print uuid b.action (some j) s.call := by
    rw [ha]
    exact attemptJsonCallString_complete a.payload print uuid b.action (some j) s.call
  refine ⟨text, ?_, ?_⟩
  · rw [← htext]
    rfl
  · have hfirst : (createJsonCallString print uuid b.action (some j) s.call).1 = some text := htext
    rw [run, build, hj, Option.bind_some, hbuild]
    simp only [Option.isNone_some, Bool.false_and, Bool.false_eq_true, if_false, saveCall, hcall,
      hfirst, Option.getD_some]
    cases b.file with
    | none => rfl
    | some f =>
        simp only [Option.elim_some, Option.map_map]
        rfl

/-- What is left of the flags, whatever becomes of the message. -/
theorem flagConfig_of_run {o : MessageOutcome} (hrun : b.run a print nullText env uuid s = some o)
    (flag : Flag) :
    o.flagConfig flag = (s.flagConfig flag && decide (flag ∉ b.cleared a.payload)) := by
  obtain ⟨o', hbuild, rfl⟩ := Option.map_eq_some_iff.mp hrun
  obtain ⟨j, -, hbuild⟩ := Option.bind_eq_some_iff.mp hbuild
  dsimp only at hbuild
  split at hbuild
  · rw [← Option.some.inj hbuild]
  · rw [saveCall] at hbuild
    cases hfile : b.file with
    | none =>
        rw [hfile] at hbuild
        rw [← Option.some.inj hbuild]
    | some f =>
        rw [hfile] at hbuild
        obtain ⟨st, -, rfl⟩ := Option.map_eq_some_iff.mp hbuild
        rfl

/-- A failure of a call leaves no trace. -/
def FailsSafely (b : MessageBuilder) (a : CallFailures) (print : Json → Option CStr)
    (nullText : CStr) (env : Env) (uuid : CStr) (s : MessageState) : Prop :=
  b.Fails a print uuid → b.Untouched a print nullText env uuid s

end MessageBuilder

/-! ### The messages that are built -/

section Messages

variable (now : UtcTime) (c : Charger)

theorem pcmPeriodicPayload_isObject (j : Json) (hj : pcmPeriodicPayload c now = some j) :
    j.isObject = true := by
  obtain ⟨modules, -, hpayload⟩ := Option.bind_eq_some_iff.mp hj
  exact Option.some.inj hpayload ▸ rfl

theorem chargerPeriodicDataPayload_isObject (j : Json)
    (hj : chargerPeriodicDataPayload c now = some j) : j.isObject = true := by
  rw [chargerPeriodicDataPayload] at hj
  split at hj
  · obtain ⟨connectorInfo, -, rfl⟩ := Option.map_eq_some_iff.mp hj
    rfl
  · exact Option.some.inj hj ▸ rfl

theorem checkedSendConfigData_isObject (flags : Flags) (j : Json)
    (hj : (checkedSendConfigData c now flags).map Prod.fst = some j) : j.isObject = true := by
  obtain ⟨r, hr, rfl⟩ := Option.map_eq_some_iff.mp hj
  obtain ⟨modules, -, rfl⟩ := Option.map_eq_some_iff.mp hr
  rfl

theorem isObject_of_eq_object {members : List (CStr × Json)} (j : Json)
    (hj : some (Json.object members) = some j) : j.isObject = true := Option.some.inj hj ▸ rfl

/-- `create_PCM_Periodic_message`: a payload that could not be built is handed on. -/
def pcmPeriodicMessage : MessageBuilder where
  action := pcmPeriodicData
  payload := pcmPeriodicPayload c now
  isObject := pcmPeriodicPayload_isObject now c
  file := some .request
  checksPayload := false
  cleared := fun _ => []

/-- `create_chargerPeriodicData_message` -/
def chargerPeriodicDataMessage : MessageBuilder where
  action := chargerPeriodicData
  payload := chargerPeriodicDataPayload c now
  isObject := chargerPeriodicDataPayload_isObject now c
  file := some .request
  checksPayload := true
  cleared := fun _ => []

/-- `prepare_mqtt_send_config_data` -/
def configurationDataMessage (flags : Flags) : MessageBuilder where
  action := configurationData
  payload := (checkedSendConfigData c now flags).map Prod.fst
  isObject := checkedSendConfigData_isObject now c flags
  file := some .request
  checksPayload := true
  cleared := fun fails => (reportedModules c flags).elim [] fun modules =>
    clearedBefore fails (reportSteps flags c.config modules now)

/-- When the payload of the configuration message is built without a failure, the flags are left as the
other modules have it. -/
theorem configurationDataMessage_flagConfig {a : CallFailures} {print : Json → Option CStr}
    {nullText : CStr} {env : Env} {uuid : CStr} {s : MessageState} {o : MessageOutcome}
    {r : Json × Flags} (hreport : checkedSendConfigData c now s.flagConfig = some r)
    (hcalls : ∀ call ∈ r.1.buildCalls [], a.payload call = false)
    (hrun : (configurationDataMessage now c s.flagConfig).run a print nullText env uuid s = some o) :
    o.flagConfig = r.2 := by
  obtain ⟨modules, hmodules, rfl⟩ := Option.map_eq_some_iff.mp hreport
  have hcleared : (configurationDataMessage now c s.flagConfig).cleared a.payload
      = clearedBefore a.payload (reportSteps s.flagConfig c.config modules now) := by
    show (reportedModules c s.flagConfig).elim [] _ = _
    rw [hmodules, Option.elim_some]
  rw [← leftFlags_complete s.flagConfig c.config modules now hcalls]
  funext flag
  rw [MessageBuilder.flagConfig_of_run hrun, hcleared, leftFlags]

/-- `create_chargingSession_message` -/
def chargingSessionMessage (r : SessionInfo) : MessageBuilder where
  action := chargingSession
  payload := some (chargingSessionPayload now r)
  isObject := isObject_of_eq_object
  file := some .request
  checksPayload := true
  cleared := fun _ => []

/-- `create_faultLog_message` -/
def faultLogMessage (r : FaultLog) : MessageBuilder where
  action := faultInformation
  payload := some (faultLogPayload now r)
  isObject := isObject_of_eq_object
  file := faultLogFile r
  checksPayload := true
  cleared := fun _ => []

end Messages

/-- The builders with what they read beside `flagConfig`. -/
inductive Builder
  | pcmPeriodic (c : Charger)
  | chargerPeriodicData (c : Charger)
  | configurationData (c : Charger)
  | chargingSession (r : SessionInfo)
  | faultLog (r : FaultLog)

def Builder.message (now : UtcTime) (flags : Flags) : Builder → MessageBuilder
  | pcmPeriodic c => pcmPeriodicMessage now c
  | chargerPeriodicData c => chargerPeriodicDataMessage now c
  | configurationData c => configurationDataMessage now c flags
  | chargingSession r => chargingSessionMessage now r
  | faultLog r => faultLogMessage now r

/-- A call that fails leaves no trace exactly when it is not for the first configuration message and it
ends a builder that checks it, or nothing is saved, by chance. -/
theorem failsSafely_iff (x : Builder) (now : UtcTime) (a : CallFailures) (print : Json → Option CStr)
    (nullText : CStr) (env : Env) (uuid : CStr) (s : MessageState) :
    (x.message now s.flagConfig).FailsSafely a print nullText env uuid s
      ↔ ((x.message now s.flagConfig).Fails a print uuid →
        ¬ (x.message now s.flagConfig).IsBoot s
          ∧ ((x.message now s.flagConfig).Returns a
            ∨ ∀ f, (x.message now s.flagConfig).file = some f → SavesNothing env f s.queue)) :=
  forall_congr' fun h => MessageBuilder.untouched_iff h.choose_spec.1

/-! ### A configuration message that is lost -/

/-- No call fails before the array is printed. -/
def printingFails : CallFailures := ⟨fun _ => false, false, false, false, false, false⟩

/-- The first call fails. -/
def payloadFails : CallFailures := ⟨fun _ => true, false, false, false, false, false⟩

def emptyQueue : Store := ⟨1, fun _ => none, fun _ => 0⟩

theorem not_savesNothing_emptyQueue : ¬ SavesNothing healthy .request emptyQueue := by
  have hroom : makeRoom healthy .request emptyQueue = some (some emptyQueue) := rfl
  rw [SavesNothing, hroom]
  rintro (h | ⟨-, h | h⟩) <;> cases h

/-- Everything is marked, and the first configuration message is asked for. -/
def firstMessageDue : MessageState := ⟨⟨3, []⟩, fun _ => true, true, emptyQueue⟩

/-- When printing the first configuration message fails its UUID is taken all the same, and when its root
cannot be created it is not asked for again; a periodic message without a payload is queued. -/
theorem failures_leave_traces :
    ¬ ((Builder.configurationData (idleCharger 1 1)).message newYear fun _ => true).FailsSafely
        printingFails (fun _ => none) "(null)".toList healthy "2f1b".toList firstMessageDue
      ∧ ¬ ((Builder.configurationData (idleCharger 1 1)).message newYear fun _ => true).FailsSafely
        payloadFails (fun _ => some []) "(null)".toList healthy "2f1b".toList firstMessageDue
      ∧ ¬ ((Builder.pcmPeriodic (idleCharger 1 1)).message newYear fun _ => true).FailsSafely
        payloadFails (fun _ => some []) "(null)".toList healthy "2f1b".toList
        ⟨⟨0, []⟩, fun _ => true, false, emptyQueue⟩ := by
  refine ⟨fun h => ?_, fun h => ?_, fun h => ?_⟩
  · have huntouched := h ⟨_, rfl, .inr (.inr (.inr (.inr (.inr (.inr rfl)))))⟩
    exact ((MessageBuilder.untouched_iff rfl).mp huntouched).1 ⟨rfl, rfl⟩
  · have huntouched := h ⟨_, rfl, .inl ⟨.createContainer [], List.mem_cons_self, rfl⟩⟩
    exact ((MessageBuilder.untouched_iff rfl).mp huntouched).1 ⟨rfl, rfl⟩
  · have huntouched := h ⟨_, rfl, .inl ⟨.createContainer [], List.mem_cons_self, rfl⟩⟩
    rcases (MessageBuilder.untouched_iff rfl).mp huntouched with ⟨-, ⟨hchecks, -⟩ | hsaves⟩
    · cases hchecks
    · exact not_savesNothing_emptyQueue (hsaves .request rfl)

end Pmu
