import PmuFirmware.Lib.Run

/-!
# A slot with a counting notification

A sender puts messages into one slot and gives a notification for each. The receiver takes all
notifications at once and then reads the slot. A message is received exactly once as long as nothing
is put while another message is on its way.
-/

namespace Mailbox

variable {α : Type}

inductive Receiver (α : Type)
  | waiting
  | taken
  | reading (seen : α)

/-- The mailbox with the messages that were sent and those that were read. `owed` says that the slot
has been filled and the notification is still to be given. -/
structure Box (α : Type) where
  slot : α
  owed : Bool
  count : Nat
  receiver : Receiver α
  sent : List α
  received : List α

/-- Each action with its data. A slot that is filled while it is read makes the reader see anything,
which is part of the event. -/
inductive Event (α : Type)
  | put (message stored : α) (notifies : Bool) (seen : α)
  | give
  | take
  | start
  | finish

def Event.puts : Event α → Bool
  | .put .. => true
  | _ => false

def Receiver.disturb (seen : α) : Receiver α → Receiver α
  | reading _ => reading seen
  | r => r

namespace Box

/-- An action has no result where it cannot happen. -/
def step : Event α → Box α → Option (Box α)
  | .put message stored notifies seen, b =>
    if b.owed then none
    else
      some { b with
        slot := stored
        owed := notifies
        receiver := b.receiver.disturb seen
        sent := if notifies then b.sent ++ [message] else b.sent }
  | .give, b => if b.owed then some { b with owed := false, count := b.count + 1 } else none
  | .take, b =>
    match b.receiver with
    | .waiting => if b.count = 0 then none else some { b with count := 0, receiver := .taken }
    | _ => none
  | .start, b =>
    match b.receiver with
    | .taken => some { b with receiver := .reading b.slot }
    | _ => none
  | .finish, b =>
    match b.receiver with
    | .reading seen => some { b with receiver := .waiting, received := b.received ++ [seen] }
    | _ => none

def empty (slot : α) : Box α := ⟨slot, false, 0, .waiting, [], []⟩

/-! ### What is on its way -/

/-- What the receiver is about to read. -/
def current (b : Box α) : List α :=
  match b.receiver with
  | .waiting => []
  | .taken => [b.slot]
  | .reading seen => [seen]

def Notified (b : Box α) : Prop := b.owed = true ∨ b.count ≠ 0

instance (b : Box α) : Decidable b.Notified := inferInstanceAs (Decidable (_ ∨ _))

/-- What will be read next. -/
def inFlight (b : Box α) : List α := b.current ++ if b.Notified then [b.slot] else []

/-- Everything that was sent has been read or is on its way. -/
def Accounted (b : Box α) : Prop := b.received ++ b.inFlight = b.sent

/-- The receiver's part of reading one message. -/
def finishing (b : Box α) : List (Event α) :=
  match b.receiver with
  | .waiting => []
  | .taken => [.start, .finish]
  | .reading _ => [.finish]

/-- The actions that are left when nothing more is put. -/
def remaining (b : Box α) : List (Event α) :=
  b.finishing ++ (if b.owed then [.give] else [])
    ++ if b.Notified then [.take, .start, .finish] else []

/-- When the receiver has caught up it has read what was sent. -/
def CatchesUp (b : Box α) : Prop :=
  ∃ b', Runs.run step b.remaining b = some b' ∧ b'.received = b.sent

/-! ### Catching up -/

variable {b : Box α}

theorem run_finishing (b : Box α) : Runs.run step b.finishing b
    = some { b with receiver := .waiting, received := b.received ++ b.current } := by
  obtain ⟨slot, owed, count, receiver, sent, received⟩ := b
  cases receiver with
  | waiting =>
      show some _ = some _
      rw [current, List.append_nil]
  | taken => rfl
  | reading seen => rfl

/-- The rest, once the receiver waits. -/
theorem run_notified (hwaiting : b.receiver = .waiting) :
    ∃ b', Runs.run step ((if b.owed then [.give] else [])
        ++ if b.Notified then [.take, .start, .finish] else []) b = some b'
      ∧ b'.received = b.received ++ if b.Notified then [b.slot] else [] := by
  obtain ⟨slot, owed, count, receiver, sent, received⟩ := b
  obtain rfl : receiver = .waiting := hwaiting
  cases owed with
  | true => exact ⟨_, rfl, rfl⟩
  | false =>
      cases count with
      | zero => exact ⟨_, rfl, (List.append_nil _).symm⟩
      | succ count => exact ⟨_, rfl, rfl⟩

theorem run_remaining (b : Box α) : ∃ b', Runs.run step b.remaining b = some b'
    ∧ b'.received = b.received ++ b.inFlight := by
  obtain ⟨b', hrun, hreceived⟩ := run_notified
    (b := { b with receiver := .waiting, received := b.received ++ b.current }) rfl
  refine ⟨b', ?_, hreceived.trans (List.append_assoc ..)⟩
  rw [remaining, List.append_assoc, Runs.run_append, run_finishing]
  exact hrun

theorem catchesUp_iff : b.CatchesUp ↔ b.Accounted := by
  obtain ⟨b', hrun, hreceived⟩ := run_remaining b
  constructor
  · intro ⟨b'', hrun', hsent⟩
    rw [hrun, Option.some.injEq] at hrun'
    rw [Accounted, ← hreceived, hrun', hsent]
  · intro h
    exact ⟨b', hrun, hreceived.trans h⟩

/-! ### When nothing is lost -/

/-- The reader is not disturbed. -/
def Unread (stored seen : α) (b : Box α) : Prop :=
  match b.receiver with
  | .waiting => True
  | .taken => stored = b.slot
  | .reading value => seen = value

/-- What is put is the message, and finds the mailbox empty or repeats what is in it. -/
def Undisturbed : Event α → Box α → Prop
  | .put message stored notifies seen, b =>
    b.owed = false → b.Unread stored seen ∧
      if notifies then stored = message ∧ b.count = 0 else b.count ≠ 0 → stored = b.slot
  | _, _ => True

/-- After the action the receiver will catch up. -/
def Lossless (event : Event α) (b : Box α) : Prop :=
  ∀ b', step event b = some b' → b'.CatchesUp

/-- Nothing is put before the notification of the last message has been taken. -/
structure Inv (b : Box α) : Prop where
  accounted : b.Accounted
  single : b.owed = true → b.count = 0

theorem lossless_iff_of_step {event : Event α} {b' : Box α} (hstep : step event b = some b') :
    Lossless event b ↔ b'.Accounted := by
  rw [Lossless, ← catchesUp_iff, hstep]
  exact ⟨fun h => h b' rfl, fun h b'' hsome => Option.some.inj hsome ▸ h⟩

theorem lossless_of_none {event : Event α} (hstep : step event b = none) : Lossless event b :=
  fun b' hsome => absurd (hstep.symm.trans hsome) (Option.some_ne_none b').symm

theorem current_put_iff {stored seen : α} {owed : Bool} {sent : List α} :
    current { b with
        slot := stored, owed := owed, receiver := b.receiver.disturb seen, sent := sent } = b.current
      ↔ Unread stored seen b := by
  obtain ⟨slot, owed, count, receiver, sent, received⟩ := b
  cases receiver with
  | waiting => exact iff_of_true rfl trivial
  | taken => exact List.singleton_inj
  | reading value => exact List.singleton_inj

theorem length_current_put {stored seen : α} {owed : Bool} {sent : List α} :
    (current { b with
        slot := stored, owed := owed, receiver := b.receiver.disturb seen, sent := sent }).length
      = b.current.length := by
  obtain ⟨slot, owed, count, receiver, sent, received⟩ := b
  cases receiver <;> rfl

theorem append_inj_iff {received c c' x y : List α} (hlength : c'.length = c.length) :
    received ++ (c' ++ x) = received ++ (c ++ y) ↔ c' = c ∧ x = y := by
  rw [List.append_cancel_left_eq]
  exact ⟨fun h => List.append_inj h hlength, fun ⟨hc, hx⟩ => by rw [hc, hx]⟩

/-- What is on its way keeps its place when something is put behind it. -/
theorem Inv.put_iff (h : b.Inv) (howed : b.owed = false) (message stored : α) (notifies : Bool)
    (seen : α) : Lossless (.put message stored notifies seen) b
      ↔ Undisturbed (.put message stored notifies seen) b := by
  have hstep : step (.put message stored notifies seen) b = some { b with
      slot := stored
      owed := notifies
      receiver := b.receiver.disturb seen
      sent := if notifies then b.sent ++ [message] else b.sent } := by
    rw [step, howed]
    rfl
  have hnotified : b.Notified ↔ b.count ≠ 0 := by
    rw [Notified, howed]
    simp
  rw [lossless_iff_of_step hstep, Undisturbed, forall_prop_of_true howed, Accounted, inFlight,
    ← h.accounted, inFlight]
  cases notifies with
  | true =>
      rw [if_pos (show Notified { b with
        slot := stored, owed := true, receiver := b.receiver.disturb seen, sent := _ } from
          .inl rfl), if_pos rfl, if_pos rfl, List.append_assoc, List.append_assoc,
        append_inj_iff length_current_put, current_put_iff]
      refine and_congr_right fun _ => ?_
      by_cases hcount : b.count = 0
      · simp [hnotified, hcount]
      · simp [hnotified, hcount]
  | false =>
      rw [if_neg Bool.false_ne_true, if_neg Bool.false_ne_true, append_inj_iff length_current_put,
        current_put_iff]
      refine and_congr_right fun _ => ?_
      by_cases hcount : b.count = 0
      · simp [Notified, howed, hcount]
      · simp [Notified, howed, hcount]

/-- The other actions pass on what is on its way. -/
theorem Inv.pass (h : b.Inv) {event : Event α} {b' : Box α} (hstep : step event b = some b')
    (hother : event.puts = false) : b'.Inv := by
  have haccounted := h.accounted
  have hsingle := h.single
  obtain ⟨slot, owed, count, receiver, sent, received⟩ := b
  cases event with
  | put message stored notifies seen => cases hother
  | give =>
      cases owed with
      | false => cases hstep
      | true =>
          cases hstep
          exact ⟨haccounted, fun hnot => absurd hnot Bool.false_ne_true⟩
  | take =>
      cases receiver with
      | waiting =>
          cases count with
          | zero => cases hstep
          | succ count =>
              cases owed with
              | true => exact absurd (hsingle rfl) (Nat.succ_ne_zero count)
              | false =>
                  cases hstep
                  exact ⟨haccounted, fun _ => rfl⟩
      | taken => cases hstep
      | reading seen => cases hstep
  | start =>
      cases receiver with
      | waiting => cases hstep
      | taken =>
          cases hstep
          exact ⟨haccounted, hsingle⟩
      | reading seen => cases hstep
  | finish =>
      cases receiver with
      | waiting => cases hstep
      | taken => cases hstep
      | reading seen =>
          cases hstep
          refine ⟨?_, hsingle⟩
          rw [← haccounted]
          exact List.append_assoc ..

theorem Inv.lossless_iff (h : b.Inv) (event : Event α) :
    Lossless event b ↔ Undisturbed event b := by
  have hpass : event.puts = false → Lossless event b := fun hother b' hstep =>
    catchesUp_iff.mpr (h.pass hstep hother).accounted
  cases event with
  | put message stored notifies seen =>
      cases howed : b.owed with
      | false => exact h.put_iff howed message stored notifies seen
      | true =>
          refine iff_of_true (lossless_of_none (if_pos howed)) fun hnot => ?_
          rw [howed] at hnot
          cases hnot
  | give => exact iff_of_true (hpass rfl) trivial
  | take => exact iff_of_true (hpass rfl) trivial
  | start => exact iff_of_true (hpass rfl) trivial
  | finish => exact iff_of_true (hpass rfl) trivial

theorem Inv.step_inv (h : b.Inv) {event : Event α} (hlossless : Lossless event b) {b' : Box α}
    (hstep : step event b = some b') : b'.Inv := by
  cases event with
  | put message stored notifies seen =>
      refine ⟨catchesUp_iff.mp (hlossless b' hstep), ?_⟩
      cases howed : b.owed with
      | true => simp [step, howed] at hstep
      | false =>
          have hundisturbed := (h.lossless_iff _).mp hlossless howed
          rw [step, howed, if_neg Bool.false_ne_true, Option.some.injEq] at hstep
          rw [← hstep]
          intro hnotifies
          have hnotifies : notifies = true := hnotifies
          rw [hnotifies, if_pos rfl] at hundisturbed
          exact hundisturbed.2.2
  | give => exact h.pass hstep rfl
  | take => exact h.pass hstep rfl
  | start => exact h.pass hstep rfl
  | finish => exact h.pass hstep rfl

theorem empty_inv (slot : α) : (empty slot).Inv := ⟨rfl, fun _ => rfl⟩

end Box

end Mailbox
