import PmuFirmware.Can.Health
import PmuFirmware.Publisher.Uptime

/-!
# The first periodic report

Before the periodic data of the charger is reported, frames 1, 5, 9 and 10 must have been received, or
the charger must have failed to answer. The frames are accounted for by a bit each, which is set before
the handler looks whether there is a frame of that number. The bits reach the task that reports through
the two copies of the whole status.
-/

namespace Pmu

/-- What `mqtt_task` reads of its copy of the status. -/
def PeriodicStatus.link (s : PeriodicStatus) (configKeyValue : UInt8) : LinkStatus where
  mcuComm := s.mcuComm
  trackNoofFrames := s.trackNoofFrames
  receivedDataChargerPeriodic := s.receivedDataChargerPeriodic
  lcuCommStatus := s.lcuCommStatus
  lcuInternetStatus := s.lcuInternetStatus
  websocketConnection := s.websocketConnection
  configKeyValue := configKeyValue

/-- The status as `can_task`, the shared memory and `mqtt_task` have it. -/
structure PeriodicCopies where
  can : CanHealth
  ipc : PeriodicStatus
  mqtt : PeriodicStatus

namespace PeriodicCopies

/-- An iteration of `can_task`, which copies the status if the charger is configured and the mutex is
free, and the copy of the main loop. -/
inductive Event
  | canTask (message : Option CanMessage) (copies : Bool)
  | fetch

variable (undefinedShift : Int → UInt32)

def step (s : PeriodicCopies) : Event → PeriodicCopies
  | .canTask message copies =>
    let can := s.can.iteration undefinedShift message
    { s with can := can, ipc := if copies then can.status else s.ipc }
  | .fetch => { s with mqtt := s.ipc }

def run (events : List Event) (s : PeriodicCopies) : PeriodicCopies :=
  events.foldl (step undefinedShift) s

/-- The data of a periodic frame. -/
def Event.periodicFrame : Event → Option Frame
  | .canTask (some m) _ => if m.identifier = PERIODIC_DATA_ID then some m.data else none
  | _ => none

/-- A periodic frame with this number has been received. -/
def Received (number : Nat) (events : List Event) : Prop :=
  ∃ data ∈ events.filterMap Event.periodicFrame, (data 0).toNat = number

/-- No frame is marked as received when the tasks start. -/
structure Initial (s : PeriodicCopies) : Prop where
  can : s.can.status.trackNoofFrames = 0
  ipc : s.ipc.trackNoofFrames = 0
  mqtt : s.mqtt.trackNoofFrames = 0

/-! ### What a frame marks -/

theorem setReadings_trackNoofFrames (data : Frame) (s : PeriodicStatus) :
    (setReadings data s).trackNoofFrames = s.trackNoofFrames := by
  unfold setReadings
  split <;> rfl

variable {undefinedShift} {data : Frame} {s : PeriodicStatus}

/-- The shift is by one of the distances that an `int` has. -/
def ShiftDefined (data : Frame) : Prop := 0 ≤ shiftDistance data ∧ shiftDistance data ≤ 31

theorem shiftDefined_iff : ShiftDefined data ↔ 1 ≤ (data 0).toNat ∧ (data 0).toNat ≤ 32 := by
  simp only [ShiftDefined, shiftDistance]
  omega

theorem testBit_shiftOne (hdefined : ShiftDefined data) {k : Nat} (hk : k < 16) :
    (shiftOne undefinedShift (shiftDistance data)).toUInt16.toNat.testBit k
      = decide ((data 0).toNat = k + 1) := by
  obtain ⟨hpos, hle⟩ := shiftDefined_iff.mp hdefined
  obtain ⟨n, hn⟩ : ∃ n, (data 0).toNat = n + 1 := ⟨(data 0).toNat - 1, by omega⟩
  have hdistance : shiftDistance data = n := by
    simp only [shiftDistance]
    omega
  have hlt : n < 32 := by omega
  have hpow : 2 ^ n < 2 ^ 32 := Nat.pow_lt_pow_right (by decide) hlt
  rw [shiftOne, hdistance, if_pos ⟨by omega, by omega⟩, Int.toNat_natCast, Nat.one_shiftLeft,
    UInt32.toNat_toUInt16, UInt32.toNat_ofNat_of_lt' hpow, Nat.testBit_mod_two_pow,
    Nat.testBit_two_pow, hn]
  simp [hk]

/-- The bits after a frame whose shift is defined. -/
theorem handlePeriodicData_testBit (hdefined : ShiftDefined data) {k : Nat} (hk : k < 16) :
    (handlePeriodicData undefinedShift data s).trackNoofFrames.toNat.testBit k = true
      ↔ s.trackNoofFrames.toNat.testBit k = true ∨ (data 0).toNat = k + 1 := by
  rw [handlePeriodicData, setReadings_trackNoofFrames, trackFrame, UInt16.toNat_or, Nat.testBit_or,
    testBit_shiftOne hdefined hk, Bool.or_eq_true, decide_eq_true_iff]

/-! ### One step -/

variable {c : PeriodicCopies} {event : Event} {events done : List Event}

/-- A step that receives no periodic frame leaves the marks of `can_task` alone. -/
theorem step_of_no_frame (hframe : event.periodicFrame = none) :
    (c.step undefinedShift event).can.status.trackNoofFrames
      = c.can.status.trackNoofFrames := by
  cases event with
  | fetch => rfl
  | canTask message copies =>
      cases message with
      | none => rfl
      | some m =>
          have hother : m.identifier ≠ PERIODIC_DATA_ID := fun h => by
            rw [Event.periodicFrame, if_pos h] at hframe
            cases hframe
          show (c.can.checkHealth.receiveCanMessage undefinedShift m).status.trackNoofFrames = _
          rw [CanHealth.receiveCanMessage, if_neg hother]
          split_ifs <;> rfl

variable (undefinedShift c) in
/-- A step that receives one handles it. -/
theorem step_of_frame (hframe : event.periodicFrame = some data) :
    ∃ s : PeriodicStatus, s.trackNoofFrames = c.can.status.trackNoofFrames
      ∧ (c.step undefinedShift event).can.status = handlePeriodicData undefinedShift data s := by
  cases event with
  | fetch => cases hframe
  | canTask message copies =>
      cases message with
      | none => cases hframe
      | some m =>
          rw [Event.periodicFrame, Option.ite_none_right_eq_some, Option.some.injEq] at hframe
          obtain ⟨hperiodic, rfl⟩ := hframe
          refine ⟨c.can.checkHealth.hearMcu.status, rfl, ?_⟩
          show (c.can.checkHealth.receiveCanMessage undefinedShift m).status = _
          rw [CanHealth.receiveCanMessage, if_pos hperiodic]

variable (undefinedShift c event)

theorem step_ipc : (c.step undefinedShift event).ipc = c.ipc
    ∨ (c.step undefinedShift event).ipc = (c.step undefinedShift event).can.status := by
  cases event with
  | fetch => exact .inl rfl
  | canTask message copies => cases copies <;> simp [step]

theorem step_mqtt : (c.step undefinedShift event).mqtt = c.mqtt
    ∨ (c.step undefinedShift event).mqtt = c.ipc := by
  cases event with
  | fetch => exact .inr rfl
  | canTask message copies => exact .inl rfl

variable {undefinedShift c event}

theorem run_append_singleton :
    run undefinedShift (done ++ [event]) c = (run undefinedShift done c).step undefinedShift event := by
  rw [run, List.foldl_append]
  rfl

theorem received_append_of_no_frame (hframe : event.periodicFrame = none) (number : Nat) :
    Received number (done ++ [event]) ↔ Received number done := by
  rw [Received, List.filterMap_append, List.filterMap_cons_none hframe, List.filterMap_nil,
    List.append_nil, Received]

theorem received_append_of_frame (hframe : event.periodicFrame = some data) (number : Nat) :
    Received number (done ++ [event]) ↔ Received number done ∨ (data 0).toNat = number := by
  rw [Received, List.filterMap_append, List.filterMap_cons_some hframe, List.filterMap_nil, Received]
  simp only [List.mem_append, List.mem_singleton, or_and_right, exists_or, exists_eq_left]

theorem Received.append {number : Nat} (h : Received number done) :
    Received number (done ++ [event]) := by
  obtain ⟨data, hdata, hnumber⟩ := h
  refine ⟨data, ?_, hnumber⟩
  rw [List.filterMap_append]
  exact List.mem_append_left _ hdata

/-! ### Runs -/

/-- The number of a frame that the handler knows, or one whose mark is cut off. -/
def Harmless (data : Frame) : Prop :=
  1 ≤ (data 0).toNat ∧ (data 0).toNat ≤ 10 ∨ 17 ≤ (data 0).toNat ∧ (data 0).toNat ≤ 32

theorem Harmless.shiftDefined (h : Harmless data) : ShiftDefined data := by
  rw [shiftDefined_iff]
  rcases h with h | h <;> omega

/-- The marks of `can_task` are those of the frames 1 to 10 that were received, and the copies have no
others. -/
structure Marked (done : List Event) (c : PeriodicCopies) : Prop where
  can : ∀ k < 16, c.can.status.trackNoofFrames.toNat.testBit k = true
    ↔ k < 10 ∧ Received (k + 1) done
  ipc : ∀ k < 16, c.ipc.trackNoofFrames.toNat.testBit k = true → Received (k + 1) done
  mqtt : ∀ k < 16, c.mqtt.trackNoofFrames.toNat.testBit k = true → Received (k + 1) done

theorem Initial.marked (h : c.Initial) : Marked [] c := by
  have hnone : ∀ number, ¬ Received number [] := fun _ ⟨_, hdata, _⟩ => by simp at hdata
  constructor
  · intro k _
    simp [h.can, hnone]
  · intro k _ hbit
    simp [h.ipc] at hbit
  · intro k _ hbit
    simp [h.mqtt] at hbit

theorem Marked.step_can (h : Marked done c)
    (hharmless : ∀ data, event.periodicFrame = some data → Harmless data) {k : Nat} (hk : k < 16) :
    (c.step undefinedShift event).can.status.trackNoofFrames.toNat.testBit k = true
      ↔ k < 10 ∧ Received (k + 1) (done ++ [event]) := by
  cases hframe : event.periodicFrame with
  | none => rw [step_of_no_frame hframe, h.can k hk, received_append_of_no_frame hframe]
  | some data =>
      obtain ⟨s, htrack, hstatus⟩ := step_of_frame undefinedShift c hframe
      have hknown := hharmless data hframe
      rw [hstatus, handlePeriodicData_testBit hknown.shiftDefined hk, htrack, h.can k hk,
        received_append_of_frame hframe]
      have hnumber : (data 0).toNat = k + 1 → k < 10 := by
        intro heq
        rcases hknown with hknown | hknown <;> omega
      tauto

theorem Marked.step (h : Marked done c)
    (hharmless : ∀ data, event.periodicFrame = some data → Harmless data) :
    Marked (done ++ [event]) (c.step undefinedShift event) := by
  refine ⟨fun k hk => h.step_can hharmless hk, ?_, ?_⟩
  · intro k hk hbit
    rcases step_ipc undefinedShift c event with hipc | hipc
    · rw [hipc] at hbit
      exact (h.ipc k hk hbit).append
    · rw [hipc] at hbit
      exact ((h.step_can hharmless hk).mp hbit).2
  · intro k hk hbit
    rcases step_mqtt undefinedShift c event with hmqtt | hmqtt
    · rw [hmqtt] at hbit
      exact (h.mqtt k hk hbit).append
    · rw [hmqtt] at hbit
      exact (h.ipc k hk hbit).append

theorem Marked.run (hc : c.Initial)
    (hharmless : ∀ data ∈ events.filterMap Event.periodicFrame, Harmless data) :
    Marked events (run undefinedShift events c) := by
  induction events using List.reverseRecOn with
  | nil => exact hc.marked
  | append_singleton events event ih =>
      rw [List.filterMap_append] at hharmless
      rw [run_append_singleton]
      apply (ih fun data hdata => hharmless data (List.mem_append_left _ hdata)).step
      intro data hframe
      refine hharmless data (List.mem_append_right _ ?_)
      rw [List.filterMap_cons_some hframe]
      exact List.mem_cons_self

/-! ### The first report -/

/-- The iteration of `mqtt_task` raises the flag by what its copy says. -/
def Raises (configKeyValue : UInt8) (i : Iteration) (t : UptimeTask) (c : PeriodicCopies) : Prop :=
  i.atStoring = c.mqtt.link configKeyValue ∧ t.chargerPeriodicData = false
    ∧ (storePeriodically i t).chargerPeriodicData = true

theorem Raises.reportable {configKeyValue : UInt8} {i : Iteration} {t : UptimeTask}
    (h : Raises configKeyValue i t c) : (c.mqtt.link configKeyValue).Reportable := by
  obtain ⟨hlink, hlow, hraised⟩ := h
  rw [← hlink]
  rw [storePeriodically] at hraised
  split at hraised
  · simp only at hraised
    split at hraised
    · next hconditions => exact hconditions.2.2.2.2
    · rw [storeTotals, hlow] at hraised
      cases hraised
  · rw [hlow] at hraised
    cases hraised

/-- In every state of the run the marks are those of the frames received, by shifts that are defined, and
the periodic data of a charger that answers is reported only after frames 1, 5, 9 and 10. -/
structure WaitsForData (undefinedShift : Int → UInt32) (events : List Event) (c : PeriodicCopies) :
    Prop where
  shifts : ∀ data ∈ events.filterMap Event.periodicFrame, ShiftDefined data
  marks : ∀ done, done <+: events → ∀ k < 16,
    (run undefinedShift done c).can.status.trackNoofFrames.toNat.testBit k = true
      ↔ k < 10 ∧ Received (k + 1) done
  waits : ∀ done, done <+: events → ∀ configKeyValue i t,
    Raises configKeyValue i t (run undefinedShift done c) →
      (run undefinedShift done c).mqtt.mcuComm = fine → ∀ number ∈ [1, 5, 9, 10], Received number done

theorem harmless_of_done {events done : List Event} (hdone : done <+: events)
    (h : ∀ data ∈ events.filterMap Event.periodicFrame, Harmless data) :
    ∀ data ∈ done.filterMap Event.periodicFrame, Harmless data := by
  obtain ⟨later, rfl⟩ := hdone
  intro data hdata
  rw [List.filterMap_append] at h
  exact h data (List.mem_append_left _ hdata)

theorem waitsForData_of_harmless (hc : c.Initial)
    (hharmless : ∀ data ∈ events.filterMap Event.periodicFrame, Harmless data) :
    WaitsForData undefinedShift events c := by
  refine ⟨fun data hdata => (hharmless data hdata).shiftDefined, ?_, ?_⟩
  · intro done hdone
    exact (Marked.run hc (harmless_of_done hdone hharmless)).can
  · intro done hdone configKeyValue i t hraises hfine number hnumber
    have hmarked : Marked done (run undefinedShift done c) :=
      Marked.run hc (harmless_of_done hdone hharmless)
    have hbits : ∀ bit ∈ [0, 4, 8, 9],
        (run undefinedShift done c).mqtt.trackNoofFrames.toNat.testBit bit = true := by
      rcases hraises.reportable with hbits | hfailed
      · exact hbits
      · exact absurd (hfine.symm.trans hfailed) (by decide)
    simp only [List.mem_cons, List.not_mem_nil, or_false] at hnumber
    rcases hnumber with rfl | rfl | rfl | rfl
    · exact hmarked.mqtt 0 (by decide) (hbits 0 (by decide))
    · exact hmarked.mqtt 4 (by decide) (hbits 4 (by decide))
    · exact hmarked.mqtt 8 (by decide) (hbits 8 (by decide))
    · exact hmarked.mqtt 9 (by decide) (hbits 9 (by decide))

/-- A frame with a number from 11 to 16 is marked as received although there is no such frame. -/
theorem harmless_of_waitsForData (h : WaitsForData undefinedShift events c) :
    ∀ data ∈ events.filterMap Event.periodicFrame, Harmless data := by
  intro data hdata
  have hdefined := h.shifts data hdata
  have hrange := shiftDefined_iff.mp hdefined
  by_contra hnot
  have hnumber : 11 ≤ (data 0).toNat ∧ (data 0).toNat ≤ 16 := by
    simp only [Harmless] at hnot
    omega
  obtain ⟨event, hevent, hframe⟩ := List.mem_filterMap.mp hdata
  obtain ⟨before, after, rfl⟩ := List.append_of_mem hevent
  obtain ⟨s, -, hstatus⟩ := step_of_frame undefinedShift (run undefinedShift before c) hframe
  obtain ⟨k, hk⟩ : ∃ k, (data 0).toNat = k + 1 := ⟨(data 0).toNat - 1, by omega⟩
  have hmarked : (run undefinedShift (before ++ [event]) c).can.status.trackNoofFrames.toNat.testBit k
      = true := by
    rw [run_append_singleton, hstatus, handlePeriodicData_testBit hdefined (by omega)]
    exact .inr hk
  have hlt := ((h.marks (before ++ [event]) ⟨after, by simp⟩ k (by omega)).mp hmarked).1
  omega

/-- The first report waits for real data exactly when each periodic frame has a number from 1 to 10 or
from 17 to 32. -/
theorem waitsForData_iff (hc : c.Initial) (events : List Event) :
    WaitsForData undefinedShift events c
      ↔ ∀ data ∈ events.filterMap Event.periodicFrame, Harmless data :=
  ⟨harmless_of_waitsForData, waitsForData_of_harmless hc⟩

/-! ### A frame with an unknown number -/

def unheardCopies : PeriodicCopies := ⟨CanHealth.unheard, CanHealth.unheard.status, CanHealth.unheard.status⟩

theorem unheardCopies_initial : unheardCopies.Initial := ⟨rfl, rfl, rfl⟩

def periodicFrame (number : UInt8) : Event :=
  .canTask (some ⟨PERIODIC_DATA_ID, fun _ => number⟩) true

theorem waitsForData_iff_tenth : WaitsForData (fun _ => 0) [periodicFrame 10] unheardCopies :=
  (waitsForData_iff unheardCopies_initial _).mpr fun data hdata => by
    obtain rfl := List.mem_singleton.mp hdata
    exact .inl ⟨by decide, by decide⟩

/-- The number 0 is a shift by -1, and the number 11 a mark of its own. -/
theorem unknown_numbers_tracked :
    ¬ WaitsForData (fun _ => 0) [periodicFrame 0] unheardCopies
      ∧ ¬ WaitsForData (fun _ => 0) [periodicFrame 11] unheardCopies := by
  constructor <;> intro h
  · exact absurd (h.shifts (fun _ => 0) List.mem_cons_self).1 (by decide)
  · exact absurd ((h.marks _ List.prefix_rfl 10 (by decide)).mp (by decide)).1 (by decide)

end PeriodicCopies

end Pmu
