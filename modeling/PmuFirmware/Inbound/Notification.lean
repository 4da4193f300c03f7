import PmuFirmware.Lib.CString
import PmuFirmware.Lib.Mailbox

/-!
# From the broker to the task

`mqtt_event_handler` copies what the broker sends to the global `msg_string` and notifies
`process_MQTT_msg`, which takes the notification and hands `msg_string` to `validate_json_string`. The
global is the slot of a mailbox. A message that finds another one on its way takes its place.
-/

namespace Pmu

open CLib Mailbox

def MSG_STRING_LEN : Nat := 512

/-- The size of `message.data`, a local of the handler. -/
def MESSAGE_DATA_LEN : Nat := 500

/-- The C string that the handler has in `message.data` and then in `msg_string`. -/
def messageData (payload : CStr) : CStr :=
  List.takeWhile (· != NUL)
    (if payload.length < MESSAGE_DATA_LEN then payload else payload.take (MESSAGE_DATA_LEN - 1))

/-- What is announced: the payload, or what the handler keeps of a longer one. -/
def announced (payload : CStr) : CStr :=
  if payload.length < MESSAGE_DATA_LEN then payload else messageData payload

/-- The steps of the event handler and of the task, which runs once it has been created. -/
inductive InboundEvent
  /-- The handler fills `msg_string`. A call of `validate_json_string` that is going on sees `seen`
  from then on. -/
  | eventData (payload seen : CStr)
  | notifyGive
  | notifyTake
  | validateStart
  | validateEnd

/-- A payload that is too long is written but not announced. -/
def InboundEvent.toMailbox : InboundEvent → Mailbox.Event CStr
  | eventData payload seen =>
    .put (announced payload) (messageData payload) (payload.length < MSG_STRING_LEN) seen
  | notifyGive => .give
  | notifyTake => .take
  | validateStart => .start
  | validateEnd => .finish

namespace Inbound

def step (event : InboundEvent) (b : Box CStr) : Option (Box CStr) := Box.step event.toMailbox b

/-- When the handler has notified and the task waits again, each payload that arrived has been passed
to `validate_json_string` once, unmodified and in order. -/
def PassesAll (event : InboundEvent) (b : Box CStr) : Prop :=
  ∀ b', step event b = some b' → b'.CatchesUp

/-- A payload arrives when none is on its way, and it has no NUL. A text may also be written over
itself. -/
def Undisturbed (event : InboundEvent) (b : Box CStr) : Prop :=
  match event with
  | .eventData payload seen =>
    b.owed = false → b.Unread (messageData payload) seen ∧
      if payload.length < MSG_STRING_LEN then
        (payload.length < MESSAGE_DATA_LEN → NUL ∉ payload) ∧ b.count = 0
      else b.count ≠ 0 → messageData payload = b.slot
  | _ => True

theorem messageData_eq_announced_iff (payload : CStr) :
    messageData payload = announced payload
      ↔ (payload.length < MESSAGE_DATA_LEN → NUL ∉ payload) := by
  rw [announced]
  by_cases hshort : payload.length < MESSAGE_DATA_LEN
  · rw [if_pos hshort, messageData, if_pos hshort, forall_prop_of_true hshort,
      List.takeWhile_eq_self_iff]
    simp only [bne_iff_ne, ne_eq]
    exact ⟨fun h hnul => h NUL hnul rfl, fun h c hc hnul => h (hnul ▸ hc)⟩
  · rw [if_neg hshort]
    exact iff_of_true rfl fun h => absurd h hshort

theorem undisturbed_iff (event : InboundEvent) (b : Box CStr) :
    Box.Undisturbed event.toMailbox b ↔ Undisturbed event b := by
  cases event with
  | eventData payload seen =>
      refine imp_congr_right fun _ => and_congr_right fun _ => ?_
      simp only [decide_eq_true_eq, messageData_eq_announced_iff]
  | notifyGive => exact Iff.rfl
  | notifyTake => exact Iff.rfl
  | validateStart => exact Iff.rfl
  | validateEnd => exact Iff.rfl

/-- In every interleaving no payload is lost, repeated or modified if and only if each one arrives
undisturbed. -/
theorem passesAll_iff (events : List InboundEvent) :
    Runs.Meets step PassesAll events (Box.empty [])
      ↔ Runs.Meets step Undisturbed events (Box.empty []) :=
  Runs.meets_iff
    (fun event b (h : Box.Inv b) => (h.lossless_iff event.toMailbox).trans (undisturbed_iff event b))
    (fun _ _ _ h hpasses hstep => h.step_inv hpasses hstep) (Box.empty_inv [])

/-- Of two payloads that arrive before the task runs only the second is passed on. -/
theorem first_of_two_is_lost :
    ¬ Runs.Meets step PassesAll [.eventData ['a'] [], .notifyGive, .eventData ['b'] []]
      (Box.empty []) := by
  intro h
  have hsecond := ((h.2 _ rfl).2 _ rfl).1
  have haccounted := Box.catchesUp_iff.mp (hsecond _ rfl)
  rw [Box.Accounted] at haccounted
  exact absurd haccounted (by decide)

end Inbound

end Pmu
