import PmuFirmware.Lib.Buffer
import PmuFirmware.Inbound.Notification

/-!
# Taking a payload from the broker

`mqtt_event_handler` copies topic and payload to a message of its own, and the payload from there to the
global `msg_string`. Three arrays are filled, each up to a limit of its own: the topic is not compared
with the size of its array at all, a payload of 500 bytes or more loses its end in the second array, and
the task is notified of everything below 512 bytes.
-/

namespace Pmu

open CLib

/-- The size of `message.topic`. -/
def MESSAGE_TOPIC_LEN : Nat := 60

/-- The event of type `MQTT_EVENT_DATA`: the bytes at `topic` and `data`, and their numbers. -/
structure MqttEvent where
  topic : CStr
  data : CStr

/-- `mqtt_message_t` -/
structure MqttMessage where
  topic : CharArray MESSAGE_TOPIC_LEN
  data : CharArray MESSAGE_DATA_LEN

/-- The local of the handler and the global after an event, and whether the task was notified. -/
structure TakenOver where
  message : MqttMessage
  msgString : CharArray MSG_STRING_LEN
  notified : Bool

namespace MqttEvent

variable (event : MqttEvent)

/-- The number of bytes that are copied to `message.data`. -/
def kept : Nat :=
  if event.data.length < MESSAGE_DATA_LEN then event.data.length else MESSAGE_DATA_LEN - 1

/-- The branch of `mqtt_event_handler` for data. The local starts with arbitrary bytes, and the task
can be notified once it has been created. -/
def handle (message : MqttMessage) (taskCreated : Bool) (msgString : CharArray MSG_STRING_LEN) :
    Option TakenOver := do
  let topic ← copyTerminated message.topic event.topic event.topic.length
  let data ← copyTerminated message.data event.data event.kept
  if event.data.length < MSG_STRING_LEN then
    let msgString ← copyTerminated msgString (List.ofFn data) event.data.length
    return ⟨⟨topic, data⟩, msgString, taskCreated⟩
  else
    let msgString ← copyTerminated msgString (List.ofFn data) (MSG_STRING_LEN - 1)
    return ⟨⟨topic, data⟩, msgString, false⟩

/-- All writes are within their arrays, and the task is only notified of the received bytes with a zero
behind them. -/
def WholeOrNothing (message : MqttMessage) (taskCreated : Bool)
    (msgString : CharArray MSG_STRING_LEN) : Prop :=
  ∃ taken, event.handle message taskCreated msgString = some taken
    ∧ (taken.notified = true → ∀ k : Fin MSG_STRING_LEN,
      (k.val < event.data.length → taken.msgString k = event.data.getD k.val NUL)
        ∧ (k.val = event.data.length → taken.msgString k = NUL))

/-! ### What the arrays hold -/

variable {event} {message : MqttMessage} {taskCreated : Bool} {msgString : CharArray MSG_STRING_LEN}

theorem kept_eq : event.kept = min event.data.length (MESSAGE_DATA_LEN - 1) := by
  rw [kept]
  split
  · rw [Nat.min_eq_left (by omega)]
  · rw [Nat.min_eq_right (by omega)]

theorem kept_lt : event.kept < MESSAGE_DATA_LEN := by
  rw [kept_eq]
  exact lt_of_le_of_lt (Nat.min_le_right _ _) (by decide)

/-- `message.data` and the number of its bytes that are copied to `msg_string`. -/
def messageCopy (event : MqttEvent) (message : MqttMessage) : CharArray MESSAGE_DATA_LEN :=
  terminatedCopy message.data event.data event.kept

def handedOn (event : MqttEvent) : Nat :=
  if event.data.length < MSG_STRING_LEN then event.data.length else MSG_STRING_LEN - 1

theorem handedOn_lt : event.handedOn < MSG_STRING_LEN := by
  rw [handedOn]
  split
  · assumption
  · decide

theorem nul_mem_messageCopy : NUL ∈ List.ofFn (event.messageCopy message) := by
  rw [List.mem_ofFn]
  refine ⟨⟨event.kept, kept_lt⟩, ?_⟩
  rw [messageCopy, terminatedCopy, if_neg (lt_irrefl _), if_pos rfl]

/-- A topic that fits is all that the writes depend on. -/
theorem handle_eq (htopic : event.topic.length < MESSAGE_TOPIC_LEN) :
    event.handle message taskCreated msgString
      = some ⟨⟨terminatedCopy message.topic event.topic event.topic.length, event.messageCopy message⟩,
        terminatedCopy msgString (List.ofFn (event.messageCopy message)) event.handedOn,
        decide (event.data.length < MSG_STRING_LEN) && taskCreated⟩ := by
  have hkept : event.kept ≤ event.data.length := kept_eq ▸ Nat.min_le_left _ _
  have hdata : copyTerminated message.data event.data event.kept = some (event.messageCopy message) :=
    copyTerminated_eq kept_lt (.inl hkept)
  have hmsg : copyTerminated msgString (List.ofFn (event.messageCopy message)) event.handedOn
      = some (terminatedCopy msgString (List.ofFn (event.messageCopy message)) event.handedOn) :=
    copyTerminated_eq handedOn_lt (.inr nul_mem_messageCopy)
  rw [handle, copyTerminated_eq htopic (.inl le_rfl), hdata]
  simp only [Option.bind_eq_bind, Option.bind_some]
  by_cases hshort : event.data.length < MSG_STRING_LEN
  · have hcount : event.handedOn = event.data.length := if_pos hshort
    rw [if_pos hshort, ← hcount, hmsg, decide_eq_true (hcount ▸ hshort)]
    rfl
  · have hcount : event.handedOn = MSG_STRING_LEN - 1 := if_neg hshort
    rw [if_neg hshort, ← hcount, hmsg, decide_eq_false hshort]
    rfl

/-- The zero behind a longer topic is written outside its array. -/
theorem handle_eq_none (htopic : MESSAGE_TOPIC_LEN ≤ event.topic.length) :
    event.handle message taskCreated msgString = none := by
  rw [handle, copyTerminated_eq_none htopic]
  rfl

/-- The text in `message.data`. -/
theorem cstr_messageCopy : (event.messageCopy message).cstr
    = (event.data.takeWhile (· != NUL)).take (MESSAGE_DATA_LEN - 1) := by
  rw [messageCopy, cstr_terminatedCopy kept_lt, kept_eq, ← List.take_take]
  apply List.take_of_length_le
  exact (List.length_take_le' _ _).trans (List.takeWhile_prefix _).length_le

/-- A byte of `msg_string`, where it is announced. -/
theorem handedOn_apply (hshort : event.data.length < MSG_STRING_LEN) {k : Fin MSG_STRING_LEN}
    (hk : k.val < event.data.length) :
    terminatedCopy msgString (List.ofFn (event.messageCopy message)) event.handedOn k
      = if MESSAGE_DATA_LEN - 1 ≤ k.val ∨ NUL ∈ event.data.take k.val then NUL
        else event.data.getD k.val NUL := by
  have hcount : k.val < event.handedOn := by
    rwa [handedOn, if_pos hshort]
  have hbyte : padded (List.ofFn (event.messageCopy message)) k.val
      = ((event.data.takeWhile (· != NUL)).take (MESSAGE_DATA_LEN - 1)).getD k.val NUL := by
    have hcstr : (event.messageCopy message).cstr
        = (event.data.takeWhile (· != NUL)).take (MESSAGE_DATA_LEN - 1) := cstr_messageCopy
    rw [← hcstr, padded, CharArray.cstr]
  rw [terminatedCopy, if_pos hcount, hbyte]
  by_cases hlong : MESSAGE_DATA_LEN - 1 ≤ k.val
  · rw [if_pos (.inl hlong)]
    apply List.getD_eq_default
    exact (List.length_take_le _ _).trans hlong
  · have hpadded := padded_eq event.data k.val
    rw [padded] at hpadded
    simp only [hlong, false_or]
    rw [← hpadded, List.getD_eq_getElem?_getD, List.getElem?_take_of_lt (by omega),
      List.getD_eq_getElem?_getD]

/-! ### When the hand-over is whole -/

/-- Behind the first zero byte, and from the byte 499 on, all bytes are zero. -/
def KeepsAll (data : CStr) : Prop :=
  ∀ k < data.length, MESSAGE_DATA_LEN - 1 ≤ k ∨ NUL ∈ data.take k → data.getD k NUL = NUL

/-- Text is kept as a whole if it has at most 499 bytes. -/
theorem keepsAll_iff_of_text {data : CStr} (htext : NUL ∉ data) :
    KeepsAll data ↔ data.length ≤ MESSAGE_DATA_LEN - 1 := by
  constructor
  · intro h
    by_contra hlong
    have hlast := h (MESSAGE_DATA_LEN - 1) (by omega) (.inl le_rfl)
    rw [List.getD_eq_getElem _ _ (by omega)] at hlast
    exact htext (hlast ▸ List.getElem_mem _)
  · intro hshort k hk hzero
    rcases hzero with hlong | hnul
    · omega
    · exact absurd (List.mem_of_mem_take hnul) htext

theorem wholeOrNothing_iff_keepsAll (htopic : event.topic.length < MESSAGE_TOPIC_LEN) :
    event.WholeOrNothing message taskCreated msgString
      ↔ (taskCreated = true → event.data.length < MSG_STRING_LEN → KeepsAll event.data) := by
  rw [WholeOrNothing, handle_eq htopic]
  simp only [Option.some.injEq, exists_eq_left', Bool.and_eq_true, decide_eq_true_eq]
  constructor
  · intro h hcreated hshort k hk hzero
    have hbyte := (h ⟨hshort, hcreated⟩ ⟨k, hk.trans hshort⟩).1 hk
    rw [handedOn_apply hshort hk, if_pos hzero] at hbyte
    exact hbyte.symm
  · rintro h ⟨hshort, hcreated⟩ k
    constructor
    · intro hk
      rw [handedOn_apply hshort hk]
      split
      · next hzero => exact (h hcreated hshort k.val hk hzero).symm
      · rfl
    · intro hk
      have hcount : event.handedOn = event.data.length := if_pos hshort
      rw [terminatedCopy, hcount, if_neg (by omega), if_pos hk]

theorem not_wholeOrNothing_of_topic (htopic : MESSAGE_TOPIC_LEN ≤ event.topic.length) :
    ¬ event.WholeOrNothing message taskCreated msgString := by
  rintro ⟨taken, htaken, -⟩
  rw [handle_eq_none htopic] at htaken
  cases htaken

/-- A data event is taken over safely and faithfully exactly when its topic has at most 59 bytes and, if
the task is notified, its payload loses no byte on the way. -/
theorem wholeOrNothing_iff (event : MqttEvent) (message : MqttMessage) (taskCreated : Bool)
    (msgString : CharArray MSG_STRING_LEN) :
    event.WholeOrNothing message taskCreated msgString
      ↔ event.topic.length < MESSAGE_TOPIC_LEN
        ∧ (taskCreated = true → event.data.length < MSG_STRING_LEN → KeepsAll event.data) := by
  by_cases htopic : event.topic.length < MESSAGE_TOPIC_LEN
  · rw [wholeOrNothing_iff_keepsAll htopic, and_iff_right htopic]
  · exact iff_of_false (not_wholeOrNothing_of_topic (Nat.not_lt.mp htopic)) fun h => htopic h.1

/-- A topic of 60 bytes is longer than its array, and of 500 bytes of payload the task is given 499. -/
theorem not_wholeOrNothing :
    ¬ WholeOrNothing ⟨List.replicate 60 't', []⟩ ⟨fun _ => NUL, fun _ => NUL⟩ true (fun _ => NUL)
      ∧ ¬ WholeOrNothing ⟨['t'], List.replicate 500 'a'⟩ ⟨fun _ => NUL, fun _ => NUL⟩ true
        (fun _ => NUL) := by
  constructor
  · exact not_wholeOrNothing_of_topic (Nat.le_of_eq List.length_replicate.symm)
  · rw [wholeOrNothing_iff_keepsAll (by decide)]
    intro h
    have htext : NUL ∉ List.replicate 500 'a' := fun hmem =>
      absurd (List.eq_of_mem_replicate hmem) (by decide)
    have hkeeps := h rfl (lt_of_eq_of_lt List.length_replicate (by decide))
    rw [keepsAll_iff_of_text htext, List.length_replicate] at hkeeps
    exact absurd hkeeps (by decide)

end MqttEvent

end Pmu
