import PmuFirmware.Lib.Run
import PmuFirmware.Can.RecordLayout

/-!
# Copies of the serial number

The serial number is written in place, a part with each of four frames, while `can_task` shares the whole
configuration after every iteration and the main loop takes over what is shared. A number that the main
loop sees is one that was transmitted if and only if its four parts agree with one transmission, whatever
the order of the frames and of the copies.
-/

namespace Pmu

open CLib

/-- A message with a part of the serial number. -/
def CanMessage.BringsSerial (m : CanMessage) : Prop :=
  m.identifier = CHARGER_CONFIG_ID ∧ (serialSlice (m.data 0).toNat).isSome = true

/-- `chargerConfigCAN`, `chargerConfigIPC` and `chargerConfigMQTT`. -/
structure SerialCopies where
  can : ConfigNumbers
  ipc : ConfigNumbers
  mqtt : ConfigNumbers

namespace SerialCopies

/-- `receive_can_message` -/
def receiveCanMessage (m : CanMessage) (s : SerialCopies) : SerialCopies :=
  if m.identifier = CHARGER_CONFIG_ID then { s with can := handleConfigNumbers m.data s.can } else s

/-- `can_task` does not wait for the mutex. -/
def copyToIPC (mutexFree : Bool) (s : SerialCopies) : SerialCopies :=
  if s.can.chargerConfigReceived && mutexFree then { s with ipc := s.can } else s

/-- An iteration of `can_task`. -/
def canTask (m : Option CanMessage) (mutexFree : Bool) (s : SerialCopies) : SerialCopies :=
  (m.elim s s.receiveCanMessage).copyToIPC mutexFree

/-- The main loop with the mutex. -/
def copyToMQTT (s : SerialCopies) : SerialCopies := { s with mqtt := s.ipc }

def powerOn : SerialCopies where
  can := .powerOn
  ipc := .powerOn
  mqtt := .powerOn

end SerialCopies

/-- The frame with the byte `j` of the serial number. -/
def serialFrameOf (j : Fin 25) : Nat := (10 + j.val) / 7

/-- The copies, and for each frame the transmission that brought it last, as far as the number in
`chargerConfigCAN` and the one in `chargerConfigIPC` are concerned. -/
structure ObservedSerial extends SerialCopies where
  canSource : Nat → Option Nat
  ipcSource : Nat → Option Nat
  received : List (Nat × Fin 4)

namespace ObservedSerial

/-- The iterations of `can_task`, with a frame of a transmission or without one, and the copies of the main
loop. -/
inductive Event where
  | serialFrame (t : Nat) (n : Fin 4) (mutexFree : Bool)
  | otherMessage (m : { m : Option CanMessage // ∀ x, m = some x → ¬ x.BringsSerial })
      (mutexFree : Bool)
  | mainLoop

def powerOn : ObservedSerial where
  toSerialCopies := .powerOn
  canSource _ := none
  ipcSource _ := none
  received := []

/-- All frames of the transmission have been received. -/
def SentInFull (s : ObservedSerial) (t : Nat) : Prop := ∀ n : Fin 4, (t, n) ∈ s.received

section Transmissions

variable (transmissions : Nat → SerialRecord)

/-- Before the first frame the array is zero. -/
def recordOf (source : Option Nat) : SerialRecord :=
  source.elim ⟨fun _ => 0, fun _ => 0⟩ transmissions

def serialMessage (t : Nat) (n : Fin 4) : CanMessage :=
  ⟨CHARGER_CONFIG_ID, (laidOut (transmissions t).bytes).frame (UInt8.ofNat (n.val + 1))⟩

/-- An iteration of `can_task` after which the number in `chargerConfigCAN` comes from `source`. -/
def canTask (m : Option CanMessage) (mutexFree : Bool) (source : Nat → Option Nat)
    (received : List (Nat × Fin 4)) (s : ObservedSerial) : ObservedSerial :=
  let next := s.toSerialCopies.canTask m mutexFree
  { toSerialCopies := next
    canSource := source
    ipcSource := if next.can.chargerConfigReceived && mutexFree then source else s.ipcSource
    received := received }

def step : Event → ObservedSerial → ObservedSerial
  | .serialFrame t n mutexFree, s =>
    s.canTask (some (serialMessage transmissions t n)) mutexFree
      (Function.update s.canSource (n.val + 1) (some t)) ((t, n) :: s.received)
  | .otherMessage m mutexFree, s => s.canTask m.val mutexFree s.canSource s.received
  | .mainLoop, s => { s with toSerialCopies := s.toSerialCopies.copyToMQTT }

def run (events : List Event) : ObservedSerial :=
  events.foldl (fun s event => step transmissions event s) powerOn

/-- Once it has a configuration, the main loop has a serial number that was transmitted in full. -/
def Whole (s : ObservedSerial) : Prop :=
  s.mqtt.receivedConfigDataMQTT = true → ∃ t, s.SentInFull t
    ∧ s.mqtt.serialNumber = fun j => byteChar ((transmissions t).serialNumber j)

/-- Every part is the one of transmission `t`. -/
def AgreesWith (source : Nat → Option Nat) (t : Nat) : Prop :=
  ∀ j, (recordOf transmissions (source (serialFrameOf j))).serialNumber j
    = (transmissions t).serialNumber j

/-- What the main loop copies was not shared between the first and the last frame of a transmission, unless
the parts agree nevertheless. -/
def CopiesWhole : Event → ObservedSerial → Prop
  | .mainLoop, s => s.ipc.receivedConfigDataMQTT = true →
      ∃ t, s.SentInFull t ∧ AgreesWith transmissions s.ipcSource t
  | .serialFrame .., _ => True
  | .otherMessage .., _ => True

/-- The array holds the bytes of its sources. -/
def Holds (source : Nat → Option Nat) (a : CharArray 25) : Prop :=
  ∀ j, a j = byteChar ((recordOf transmissions (source (serialFrameOf j))).serialNumber j)

end Transmissions

/-! ### Where the bytes come from -/

variable {transmissions : Nat → SerialRecord} {s : ObservedSerial}

theorem holds_iff_sourced {source : Nat → Option Nat} {a : CharArray 25} :
    Holds transmissions source a
      ↔ DateSourced (fun k => some (laidOut (recordOf transmissions (source k)).bytes)) 10 a := by
  refine forall_congr' fun j => ?_
  rw [FieldSourced]
  simp only [Option.some.injEq, forall_eq', SerialRecord.date_bytes]
  rfl

/-- A frame of a transmission brings its part. -/
theorem Holds.serialFrame {source : Nat → Option Nat} {c : ConfigNumbers} (t : Nat) (n : Fin 4)
    (h : Holds transmissions source c.serialNumber) :
    Holds transmissions (Function.update source (n.val + 1) (some t))
      (handleConfigNumbers (serialMessage transmissions t n).data c).serialNumber := by
  have hnumber : (UInt8.ofNat (n.val + 1)).toNat = n.val + 1 := by
    rw [UInt8.toNat_ofNat', Nat.mod_eq_of_lt (by omega)]
  have hframe := serialNumber_sourced (x := laidOut (transmissions t).bytes) (holds_iff_sourced.mp h)
    (UInt8.ofNat (n.val + 1))
  rw [hnumber] at hframe
  refine holds_iff_sourced.mpr ?_
  have hsource : (fun k => some (laidOut (recordOf transmissions
        (Function.update source (n.val + 1) (some t) k)).bytes))
      = Function.update (fun k => some (laidOut (recordOf transmissions (source k)).bytes)) (n.val + 1)
          (some (laidOut (transmissions t).bytes)) := by
    funext k
    by_cases hk : k = n.val + 1
    · rw [hk, Function.update_self, Function.update_self]
      rfl
    · rw [Function.update_of_ne hk, Function.update_of_ne hk]
  rw [hsource]
  exact hframe

/-- The number is the one of a transmission exactly when its parts agree with it. -/
theorem Holds.eq_iff_agreesWith {source : Nat → Option Nat} {a : CharArray 25}
    (h : Holds transmissions source a) (t : Nat) :
    (a = fun j => byteChar ((transmissions t).serialNumber j)) ↔ AgreesWith transmissions source t := by
  rw [funext_iff]
  refine forall_congr' fun j => ?_
  rw [h j]
  exact byteChar_injective.eq_iff

theorem receiveCanMessage_serialNumber {m : CanMessage} (hm : ¬ m.BringsSerial) (c : SerialCopies) :
    (c.receiveCanMessage m).can.serialNumber = c.can.serialNumber := by
  rw [SerialCopies.receiveCanMessage]
  split
  · next hconfig =>
      show (handleConfigNumbers m.data c.can).serialNumber = _
      rw [serialNumber_eq]
      cases hslice : serialSlice (m.data 0).toNat with
      | none => rfl
      | some slice => exact absurd ⟨hconfig, by rw [hslice]; rfl⟩ hm
  · rfl

/-! ### One step -/

/-- Both arrays hold the bytes of their sources, and the main loop has no torn number. -/
structure Inv (transmissions : Nat → SerialRecord) (s : ObservedSerial) : Prop where
  can : Holds transmissions s.canSource s.can.serialNumber
  ipc : Holds transmissions s.ipcSource s.ipc.serialNumber
  whole : s.Whole transmissions

theorem powerOn_inv : Inv transmissions powerOn where
  can _ := rfl
  ipc _ := rfl
  whole h := by cases h

theorem SentInFull.mono {t : Nat} {s' : ObservedSerial} (h : s.SentInFull t)
    (hmore : s.received ⊆ s'.received) : s'.SentInFull t := fun n => hmore (h n)

/-- Receiving a message leaves the other copies alone. -/
theorem receiveCanMessage_others (m : Option CanMessage) (c : SerialCopies) :
    (m.elim c c.receiveCanMessage).ipc = c.ipc ∧ (m.elim c c.receiveCanMessage).mqtt = c.mqtt := by
  cases m with
  | none => exact ⟨rfl, rfl⟩
  | some x =>
      rw [Option.elim_some, SerialCopies.receiveCanMessage]
      split <;> exact ⟨rfl, rfl⟩

theorem canTask_mqtt (m : Option CanMessage) (mutexFree : Bool) (c : SerialCopies) :
    (c.canTask m mutexFree).mqtt = c.mqtt := by
  rw [SerialCopies.canTask, SerialCopies.copyToIPC]
  split <;> exact (receiveCanMessage_others m c).2

/-- An iteration of `can_task` after which the number comes from `source`. -/
theorem Inv.canTask (h : s.Inv transmissions) {m : Option CanMessage} (mutexFree : Bool)
    {source : Nat → Option Nat} {received : List (Nat × Fin 4)}
    (hholds : Holds transmissions source
      (m.elim s.toSerialCopies s.toSerialCopies.receiveCanMessage).can.serialNumber)
    (hmore : s.received ⊆ received) :
    (s.canTask m mutexFree source received).Inv transmissions := by
  have hmqtt := canTask_mqtt m mutexFree s.toSerialCopies
  refine ⟨?_, ?_, fun hreceived => ?_⟩
  · rw [ObservedSerial.canTask, SerialCopies.canTask, SerialCopies.copyToIPC]
    split <;> exact hholds
  · show Holds transmissions (if (s.toSerialCopies.canTask m mutexFree).can.chargerConfigReceived
      && mutexFree then source else s.ipcSource) (s.toSerialCopies.canTask m mutexFree).ipc.serialNumber
    rw [SerialCopies.canTask, SerialCopies.copyToIPC]
    split
    · exact hholds
    · rw [(receiveCanMessage_others m s.toSerialCopies).1]
      exact h.ipc
  · rw [show (s.canTask m mutexFree source received).mqtt = s.mqtt from hmqtt] at hreceived ⊢
    obtain ⟨t, hsent, hnumber⟩ := h.whole hreceived
    exact ⟨t, hsent.mono hmore, hnumber⟩

/-- The copy of the main loop keeps the number whole exactly when its parts agree with a transmission. -/
theorem Inv.mainLoop_iff (h : s.Inv transmissions) :
    (step transmissions .mainLoop s).Whole transmissions ↔ CopiesWhole transmissions .mainLoop s := by
  refine imp_congr_right fun _ => exists_congr fun t => and_congr_right fun _ => ?_
  exact h.ipc.eq_iff_agreesWith t

theorem Inv.mainLoop (h : s.Inv transmissions)
    (hwhole : (step transmissions .mainLoop s).Whole transmissions) :
    (step transmissions .mainLoop s).Inv transmissions :=
  ⟨h.can, h.ipc, hwhole⟩

/-- `can_task` does not tear what the main loop has. -/
theorem Inv.step (h : s.Inv transmissions) (event : Event)
    (hcond : CopiesWhole transmissions event s) :
    (step transmissions event s).Inv transmissions := by
  cases event with
  | serialFrame t n mutexFree =>
      refine h.canTask mutexFree ?_ (List.subset_cons_self _ _)
      have hconfig : (serialMessage transmissions t n).identifier = CHARGER_CONFIG_ID := rfl
      rw [Option.elim_some, SerialCopies.receiveCanMessage, if_pos hconfig]
      exact h.can.serialFrame t n
  | otherMessage m mutexFree =>
      refine h.canTask mutexFree ?_ (List.Subset.refl _)
      cases hm : m.val with
      | none => exact h.can
      | some x =>
          rw [Option.elim_some, receiveCanMessage_serialNumber (m.property x hm)]
          exact h.can
  | mainLoop => exact h.mainLoop (h.mainLoop_iff.mpr hcond)

/-! ### Runs -/

/-- The main loop never has a serial number that is torn if and only if it never copies one whose parts
come from different transmissions that do not agree. -/
theorem serialNumber_whole_iff (transmissions : Nat → SerialRecord) (events : List Event) :
    (∀ done, done <+: events → (run transmissions done).Whole transmissions)
      ↔ Runs.Meets (fun event s => some (step transmissions event s)) (CopiesWhole transmissions)
          events powerOn := by
  have hiff : ∀ event (_ : Unit) s, s.Inv transmissions → (CopiesWhole transmissions event s
      ↔ ∃ s', some (step transmissions event s) = some s' ∧ s'.Whole transmissions) := by
    intro event _ s hs
    simp only [Option.some.injEq, exists_eq_left']
    cases event with
    | serialFrame t n mutexFree =>
        exact iff_of_true trivial (hs.step (.serialFrame t n mutexFree) trivial).whole
    | otherMessage m mutexFree =>
        exact iff_of_true trivial (hs.step (.otherMessage m mutexFree) trivial).whole
    | mainLoop => exact hs.mainLoop_iff.symm
  have hkeep : ∀ event (_ : Unit) s s', s.Inv transmissions →
      some (step transmissions event s) = some s' → s'.Whole transmissions →
      s'.Inv transmissions := by
    intro event _ s s' hs hstep hwhole
    obtain rfl := Option.some.inj hstep
    refine hs.step event ((hiff event () s hs).mpr ⟨_, rfl, hwhole⟩)
  rw [Runs.meets_iff_throughout (fun _ _ => ()) (g := ()) (fun _ _ hs => Inv.whole hs) hiff hkeep
    powerOn_inv]
  simp only [Runs.run_some, Option.some.injEq, exists_eq_left']
  rfl

/-! ### A torn serial number -/

/-- AAA... and BBB... -/
def twoNumbers (t : Nat) : SerialRecord := ⟨fun _ => 0, fun _ => if t = 0 then 65 else 66⟩

def closingMessage : CanMessage :=
  ⟨CHARGER_CONFIG_ID, fun k => if k = 0 then 5 else if k = 1 then 13 else 0⟩

theorem closingMessage_brings_none : ∀ x, some closingMessage = some x → ¬ x.BringsSerial := by
  rintro x hx ⟨-, hslice⟩
  obtain rfl := Option.some.inj hx
  exact absurd hslice (by decide)

/-- The four frames of a transmission, each shared as it arrives. -/
def transmitting (t : Nat) : List Event := (List.finRange 4).map fun n => .serialFrame t n true

/-- A complete configuration, then the first frame of another serial number. -/
def tearing : List Event :=
  transmitting 0 ++ [.otherMessage ⟨some closingMessage, closingMessage_brings_none⟩ true, .mainLoop]
    ++ (transmitting 1).take 1 ++ [.mainLoop]

/-- The main loop has the start of the new number and the end of the old one. -/
theorem serialNumber_torn : ¬ (run twoNumbers tearing).Whole twoNumbers := by
  intro h
  obtain ⟨t, -, hnumber⟩ := h rfl
  have hstart := congrFun hnumber 0
  have hend := congrFun hnumber 24
  by_cases ht : t = 0
  · rw [ht] at hstart
    exact absurd hstart (by decide)
  · simp only [twoNumbers, if_neg ht] at hend
    exact absurd hend (by decide)

end ObservedSerial

end Pmu
