import PmuFirmware.Lib.Run
import PmuFirmware.Inbound.Validate
import PmuFirmware.Queue.RetryDeletion
import PmuFirmware.Queue.Enqueueing

/-!
# Selecting the message to publish

Every turn of the main loop publishes one queued message. Sessions and faults are held back until the
configuration message of this boot has been acknowledged, and the request log is strictly first in,
first out. A message that has been published before is counted, and the third retry of an unimportant
one deletes it.

The other events between two turns are the calls that are queued, the messages from the broker, the
configuration that arrives and a restart, which keeps only the files.
-/

namespace Pmu

open CLib

abbrev retryInterval : UInt64 := 20000

/-- The globals of the main loop beside those that inbound messages change. -/
structure Publisher extends Node where
  firstTimeBootUpFlag : Nat
  lastSentMessage : Option CStr
  lastCheckTime : UInt64
  retryCount : UInt8
  criticalRetryCount : UInt8

/-- What one turn of the loop reads from the other components: the three parts of
`IS_MQTT_NETWORK_ONLINE`, the clock, whether the network has just been set up, and whether the
client takes the message. -/
structure Board where
  brokerStatus : Bool
  wifiConnected : Bool
  internetStatus : Bool
  isTimeSet : Bool
  currentTime : UInt64
  networkReady : Bool
  published : Bool

def Board.isMqttNetworkOnline (b : Board) : Bool :=
  b.brokerStatus && b.wifiConnected && b.internetStatus

variable (parse : CStr → Option Json) (print : Json → Option CStr) (env : Env)

/-! ### One turn of the loop -/

/-- The message selected and `is_message_important`. -/
def selectMessage (s : Publisher) : Option (CStr × Nat) :=
  match if s.configDataExchanged then getQueuedFaultMessages env s.queue else none with
  | some message => some (message, 3)
  | none =>
    match getQueuedRequestMessages env s.queue with
    | none => none
    | some (message, importance) =>
      if importance = 2 ∧ s.configDataExchanged = false then none else some (message, importance)

/-- What the turn has to publish. -/
def offeredMessage (b : Board) (s : Publisher) : Option (CStr × Nat) :=
  if b.isMqttNetworkOnline && b.isTimeSet then selectMessage env s else none

def deleteEverywhere (message : CStr) (s : Publisher) : Publisher :=
  { s with queue := (searchAndDeleteMessageFromAnyFile env message s.queue).st }

/-- `delete_entry`, once `critical_retry_count` has reached 3: it deletes only what cannot be
parsed. -/
def deleteEntry (message : CStr) (s : Publisher) : Publisher :=
  let s := { s with criticalRetryCount := 0 }
  if parse message = none then deleteEverywhere env message s else s

/-- The count of a message that has been sent again. -/
def countRetry (message : CStr) (importance : Nat) (s : Publisher) : Publisher :=
  let s :=
    if importance = 0 then { s with retryCount := s.retryCount + 1 }
    else
      let s := { s with criticalRetryCount := s.criticalRetryCount + 1 }
      if 3 ≤ s.criticalRetryCount then deleteEntry parse env message s else s
  if 3 ≤ s.retryCount then deleteEverywhere env message { s with retryCount := 0 } else s

/-- What is done with the selected message. -/
def publishMessage (b : Board) (message : CStr) (importance : Nat) (s : Publisher) : Publisher :=
  if s.lastSentMessage = some message ∧ b.currentTime - s.lastCheckTime < retryInterval then s
  else
    let s := { s with lastCheckTime := b.currentTime }
    if b.published then
      let s :=
        match s.lastSentMessage with
        | none => s
        | some last =>
          if last = message then countRetry parse env message importance s
          else { s with retryCount := 0 }
      { s with lastSentMessage := some message }
    else s

/-- One turn of the main loop. -/
def mainLoop (b : Board) (s : Publisher) : Publisher :=
  let s := if s.firstTimeBootUpFlag = 1 ∧ b.networkReady then { s with firstTimeBootUpFlag := 3 }
    else s
  match offeredMessage env b s with
  | none => s
  | some (message, importance) => publishMessage parse env b message importance s

/-! ### The parts of a turn -/

/-- Where the network is ready, the main loop creates `mqtt_task`. -/
def startMqtt (networkReady : Bool) (s : Publisher) : Publisher :=
  if s.firstTimeBootUpFlag = 1 ∧ networkReady then { s with firstTimeBootUpFlag := 2 } else s

/-- The main loop sets the clock, or fails to. -/
def setClock (s : Publisher) : Publisher :=
  if s.firstTimeBootUpFlag = 2 then { s with firstTimeBootUpFlag := 3 } else s

/-- The rest of a turn. -/
def publishTurn (b : Board) (s : Publisher) : Publisher :=
  match offeredMessage env b s with
  | none => s
  | some (message, importance) => publishMessage parse env b message importance s

/-- Between turns the flag is never 2. -/
theorem mainLoop_eq (b : Board) {s : Publisher} (hflag : s.firstTimeBootUpFlag ≠ 2) :
    mainLoop parse env b s = publishTurn parse env b (setClock (startMqtt b.networkReady s)) := by
  have hready : setClock (startMqtt b.networkReady s)
      = if s.firstTimeBootUpFlag = 1 ∧ b.networkReady then { s with firstTimeBootUpFlag := 3 }
        else s := by
    rw [startMqtt]
    split
    · rfl
    · exact if_neg hflag
  rw [hready, mainLoop, publishTurn]

/-! ### The other events -/

/-- A message is formed and queued; the UUID is the one that `generateUUID` makes. It has no result when
the message cannot be printed: the source then saves the text that `fprintf` has for the null pointer. -/
def queueCall (f : QueueFile) (uuid action : CStr) (payload : Json) (s : Publisher) :
    Option Publisher :=
  let r := createJsonCallString print uuid action (some payload)
    ⟨s.firstTimeBootUpFlag, s.configDataBootUUID⟩
  r.1.bind fun text => (savePayloadToSpiffs env f text s.queue).map fun queue =>
    { s with
      queue := queue
      firstTimeBootUpFlag := r.2.firstTimeBootUpFlag
      configDataBootUUID := r.2.configDataBootUUID }

def receiveMessage (msg : CStr) (s : Publisher) : Option Publisher :=
  (validateJsonString parse env msg s.toNode).map fun r => { s with toNode := r.2 }

/-- `initialize_file_names`, after which the entries of the connector files are counted. -/
def nameConnectorFiles (numConnectors : Fin 16) (s : Publisher) : Publisher :=
  { s with queue := { s.queue with
    numConnectors := numConnectors
    entries := fun
      | .connector i => UInt8.ofNat (countFileEntries (s.queue.disk (.queue (.connector i))))
      | f => s.queue.entries f } }

/-- The board after `app_main` has started: the files are kept. `exchanged` is what `fetch_keys` would
take from the flash memory; `app_main` does not call it, so the gate is closed. -/
def powerOn (exchanged : Bool) (disk : Path → Option CStr) : Publisher where
  queue :=
    { numConnectors := 0
      disk := disk
      entries := fun
        | .connector _ => 0
        | f => UInt8.ofNat (countFileEntries (disk (.queue f))) }
  configDataExchanged := exchanged
  configDataBootUUID := []
  valueofChangedParameter := 0
  globalComponentValue := 0
  idRequested := 0
  componentRequests := []
  firstTimeBootUpFlag := 1
  lastSentMessage := none
  lastCheckTime := 0
  retryCount := 0
  criticalRetryCount := 0

inductive Event
  | call (f : QueueFile) (uuid action : CStr) (payload : Json)
  | received (msg : CStr)
  | turn (b : Board)
  | configured (numConnectors : Fin 16)
  | restarted (exchanged : Bool)

def Event.step : Env × Event → Publisher → Option Publisher
  | (env, .call f uuid action payload) => queueCall print env f uuid action payload
  | (env, .received msg) => receiveMessage parse env msg
  | (env, .turn b) => fun s => some (mainLoop parse env b s)
  | (_, .configured numConnectors) => fun s => some (nameConnectorFiles numConnectors s)
  | (_, .restarted exchanged) => fun s => some (powerOn exchanged s.queue.disk)

/-! ### What publishing changes -/

/-- The queue after some messages have been given up. -/
inductive GivenUp (env : Env) (st : Store) : Store → Prop
  | refl : GivenUp env st st
  | delete {st' : Store} (message : CStr) :
      GivenUp env st st' → GivenUp env st (searchAndDeleteMessageFromAnyFile env message st').st

/-- The queue only loses messages, and what belongs to the boot configuration is left alone. -/
structure OnlyGivesUp (env : Env) (s s' : Publisher) : Prop where
  queue : GivenUp env s.queue s'.queue
  exchanged : s'.configDataExchanged = s.configDataExchanged
  uuid : s'.configDataBootUUID = s.configDataBootUUID
  flag : s'.firstTimeBootUpFlag = s.firstTimeBootUpFlag

section Publishing

variable {parse} {env}

theorem GivenUp.trans {st st' st'' : Store} (h : GivenUp env st st') (h' : GivenUp env st' st'') :
    GivenUp env st st'' := by
  induction h' with
  | refl => exact h
  | delete message _ ih => exact .delete message ih

theorem OnlyGivesUp.refl (s : Publisher) : OnlyGivesUp env s s := ⟨.refl, rfl, rfl, rfl⟩

theorem OnlyGivesUp.trans {s s' s'' : Publisher} (h : OnlyGivesUp env s s')
    (h' : OnlyGivesUp env s' s'') : OnlyGivesUp env s s'' :=
  ⟨h.queue.trans h'.queue, h'.exchanged.trans h.exchanged, h'.uuid.trans h.uuid,
    h'.flag.trans h.flag⟩

theorem deleteEverywhere_onlyGivesUp (message : CStr) (s : Publisher) :
    OnlyGivesUp env s (deleteEverywhere env message s) := ⟨.delete message .refl, rfl, rfl, rfl⟩

theorem deleteEntry_onlyGivesUp (message : CStr) (s : Publisher) :
    OnlyGivesUp env s (deleteEntry parse env message s) := by
  have hreset : OnlyGivesUp env s { s with criticalRetryCount := 0 } := ⟨.refl, rfl, rfl, rfl⟩
  rw [deleteEntry]
  split
  · exact hreset.trans (deleteEverywhere_onlyGivesUp message _)
  · exact hreset

theorem countRetry_onlyGivesUp (message : CStr) (importance : Nat) (s : Publisher) :
    OnlyGivesUp env s (countRetry parse env message importance s) := by
  have hcounted : ∀ t, OnlyGivesUp env s t →
      OnlyGivesUp env s (if 3 ≤ t.retryCount then deleteEverywhere env message
        { t with retryCount := 0 } else t) := by
    intro t ht
    split
    · have hreset : OnlyGivesUp env t { t with retryCount := 0 } := ⟨.refl, rfl, rfl, rfl⟩
      exact ht.trans (hreset.trans (deleteEverywhere_onlyGivesUp message _))
    · exact ht
  rw [countRetry]
  refine hcounted _ ?_
  split
  · exact ⟨.refl, rfl, rfl, rfl⟩
  · have hraised : OnlyGivesUp env s { s with criticalRetryCount := s.criticalRetryCount + 1 } :=
      ⟨.refl, rfl, rfl, rfl⟩
    dsimp only
    split
    · exact hraised.trans (deleteEntry_onlyGivesUp message _)
    · exact hraised

theorem publishMessage_onlyGivesUp (b : Board) (message : CStr) (importance : Nat)
    (s : Publisher) : OnlyGivesUp env s (publishMessage parse env b message importance s) := by
  have hsent : ∀ t last, OnlyGivesUp env s t →
      OnlyGivesUp env s { t with lastSentMessage := last } :=
    fun t _ ht => ht.trans ⟨.refl, rfl, rfl, rfl⟩
  have hchecked : OnlyGivesUp env s { s with lastCheckTime := b.currentTime } :=
    ⟨.refl, rfl, rfl, rfl⟩
  rw [publishMessage]
  split
  · exact .refl s
  dsimp only
  split
  · refine hsent _ _ ?_
    split
    · exact hchecked
    · split
      · exact hchecked.trans (countRetry_onlyGivesUp message importance _)
      · exact ⟨.refl, rfl, rfl, rfl⟩
  · exact hchecked

theorem publishTurn_onlyGivesUp (b : Board) (s : Publisher) :
    OnlyGivesUp env s (publishTurn parse env b s) := by
  rw [publishTurn]
  split
  · exact .refl s
  · exact publishMessage_onlyGivesUp b _ _ s

end Publishing

end Pmu
