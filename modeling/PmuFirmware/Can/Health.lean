import PmuFirmware.Lib.Watchdog
import PmuFirmware.Can.PeriodicFrames

/-!
# Who can be reached over CAN

In each of its iterations `can_task` first looks at what the last one received from the charger and from
each power module, and then receives one message if there is one. Whoever has been silent for more than
3000 iterations counts as failed. The messages set a latch of the one who sends them, all but the fault
log of the charger.
-/

namespace Pmu

open Watchdog

/-! ### The task -/

/-- The limit of both counters. -/
abbrev silenceLimit : Nat := 3000

/-- The part of `can_task` that watches the others. -/
structure CanHealth where
  status : PeriodicStatus
  mcuCANFailureCount : UInt16
  modules : Fin maxPcmModule → CanModule

/-- What the health check makes of a latch and a counter: the new counter, and whether the other side
has failed where that is decided anew. -/
def judgeSilence (success : Bool) (failureCount : UInt16) : UInt16 × Option Bool :=
  if success = false then
    if (failureCount + 1).toNat > silenceLimit then (0, some true) else (failureCount + 1, none)
  else (0, some false)

/-- The health check of one power module. -/
def CanModule.checkHealth (m : CanModule) : CanModule :=
  let judged := judgeSilence m.canSuccess m.canFailureCount
  { m with
    canFailureCount := judged.1
    canFailure := judged.2.getD m.canFailure
    canSuccess := false }

/-- `MCUComm` after the health check. -/
def commAfter (failed : Option Bool) (mcuComm : Nat) : Nat :=
  failed.elim mcuComm fun failed => if failed then 0 else fine

namespace CanHealth

/-- The health check of the charger. -/
def checkMcu (s : CanHealth) : CanHealth :=
  let judged := judgeSilence s.status.canSuccess s.mcuCANFailureCount
  { s with
    mcuCANFailureCount := judged.1
    status := { s.status with
      mcuComm := commAfter judged.2 s.status.mcuComm
      canSuccess := false } }

def checkHealth (s : CanHealth) : CanHealth :=
  { s.checkMcu with modules := fun k => (s.modules k).checkHealth }

def hearMcu (s : CanHealth) : CanHealth := { s with status := { s.status with canSuccess := true } }

variable (undefinedShift : Int → UInt32)

/-- `receive_can_message`, as far as it is about the readings and the latches. -/
def receiveCanMessage (m : CanMessage) (s : CanHealth) : CanHealth :=
  if m.identifier = PERIODIC_DATA_ID then
    { s.hearMcu with status := handlePeriodicData undefinedShift m.data s.hearMcu.status }
  else if m.identifier = FAULT_INFO_ID then s.hearMcu
  else if m.identifier = SESSION_INFO_ID then s.hearMcu
  else if m.identifier = CHARGER_CONFIG_ID then s.hearMcu
  else if m.identifier = FAULT_LOG then s
  else if 0x21 ≤ m.identifier ∧ m.identifier ≤ 0x30 then
    { s with modules := handlePcmMessage m.identifier m.data s.modules }
  else s

/-- An iteration of `can_task`, with the message it receives, if there is one. -/
def iteration (s : CanHealth) (message : Option CanMessage) : CanHealth :=
  message.elim s.checkHealth fun m => s.checkHealth.receiveCanMessage undefinedShift m

/-- The state in which `can_task` looks at what it received. -/
def checkedAfter (received : List (Option CanMessage)) (s : CanHealth) : CanHealth :=
  (received.foldl (iteration undefinedShift) s).checkHealth

/-- What `app_main` leaves: nobody has been heard. The readings are taken as they are. -/
structure Initial (s : CanHealth) : Prop where
  mcuComm : s.status.mcuComm = 0
  mcuSuccess : s.status.canSuccess = false
  mcuCount : s.mcuCANFailureCount = 0
  failure : ∀ k, (s.modules k).canFailure = true
  success : ∀ k, (s.modules k).canSuccess = false
  count : ∀ k, (s.modules k).canFailureCount = 0

end CanHealth

/-! ### The watchdogs -/

theorem judgeSilence_check {w : Watch} {failureCount : UInt16} (hcount : failureCount.toNat = w.count)
    (hle : w.count ≤ silenceLimit) :
    w.check silenceLimit = ⟨false, (judgeSilence w.heard failureCount).1.toNat,
      (judgeSilence w.heard failureCount).2.getD w.failed⟩ := by
  have hadd : (failureCount + 1).toNat = w.count + 1 := by
    rw [UInt16.toNat_add, hcount]
    exact Nat.mod_eq_of_lt (lt_of_le_of_lt (Nat.succ_le_succ hle) (by decide))
  rw [Watch.check, judgeSilence]
  cases w.heard with
  | true => rfl
  | false =>
      rw [if_neg Bool.false_ne_true, if_pos rfl, hadd]
      by_cases hlimit : w.count + 1 > silenceLimit
      · rw [if_pos hlimit, if_pos hlimit]
        rfl
      · rw [if_neg hlimit, if_neg hlimit]
        simp only [hadd, Option.getD_none]

/-- The watchdog of a module. -/
def CanModule.watch (m : CanModule) : Watch := ⟨m.canSuccess, m.canFailureCount.toNat, m.canFailure⟩

theorem CanModule.checkHealth_watch {m : CanModule} (hle : m.watch.count ≤ silenceLimit) :
    m.checkHealth.watch = m.watch.check silenceLimit := by
  rw [judgeSilence_check (w := m.watch) rfl hle]
  rfl

@[simp] theorem CanModule.setReadings_watch (m : CanModule) (data : Frame) :
    (m.setReadings data).watch = m.watch := by
  unfold setReadings
  simp only
  split_ifs <;> rfl

theorem commAfter_ne_fine (failed : Option Bool) (mcuComm : Nat) :
    decide (commAfter failed mcuComm ≠ fine) = failed.getD (decide (mcuComm ≠ fine)) := by
  cases failed with
  | none => rfl
  | some failed => cases failed <;> rfl

namespace CanHealth

/-- The watchdog of the charger. -/
def mcuWatch (s : CanHealth) : Watch :=
  ⟨s.status.canSuccess, s.mcuCANFailureCount.toNat, decide (s.status.mcuComm ≠ fine)⟩

variable {s : CanHealth} {undefinedShift : Int → UInt32} {k : Fin maxPcmModule}

theorem checkHealth_mcuWatch (hle : s.mcuWatch.count ≤ silenceLimit) :
    s.checkHealth.mcuWatch = s.mcuWatch.check silenceLimit := by
  rw [judgeSilence_check (w := s.mcuWatch) rfl hle]
  exact congrArg (Watch.mk false _) (commAfter_ne_fine _ _)

/-! ### What a message does -/

/-- The message comes from the power module with index `k`. -/
def FromModule (k : Fin maxPcmModule) (m : CanMessage) : Prop := m.identifier = 0x21 + k.val

/-- The messages of the charger that set its latch. -/
def SetsMcuLatch (m : CanMessage) : Prop :=
  m.identifier = PERIODIC_DATA_ID ∨ m.identifier = FAULT_INFO_ID
    ∨ m.identifier = SESSION_INFO_ID ∨ m.identifier = CHARGER_CONFIG_ID

def FromMcu (m : CanMessage) : Prop := SetsMcuLatch m ∨ m.identifier = FAULT_LOG

instance : DecidablePred (FromModule k) := fun _ => instDecidableEqNat _ _

instance : DecidablePred SetsMcuLatch := fun _ => inferInstanceAs (Decidable (_ ∨ _))

theorem setReadings_mcuWatch (data : Frame) (status : PeriodicStatus) :
    (setReadings data status).canSuccess = status.canSuccess
      ∧ (setReadings data status).mcuComm = status.mcuComm := by
  unfold setReadings
  split <;> exact ⟨rfl, rfl⟩

theorem receive_mcuWatch (m : CanMessage) :
    (s.receiveCanMessage undefinedShift m).mcuWatch = s.mcuWatch.hear (SetsMcuLatch m) := by
  unfold receiveCanMessage
  by_cases hperiodic : m.identifier = PERIODIC_DATA_ID
  · obtain ⟨hsuccess, hcomm⟩ := setReadings_mcuWatch m.data
      (trackFrame undefinedShift m.data s.hearMcu.status)
    have hsets : SetsMcuLatch m := .inl hperiodic
    rw [if_pos hperiodic, mcuWatch, decide_eq_true hsets]
    simp only [handlePeriodicData, hsuccess, hcomm]
    rfl
  · rw [if_neg hperiodic]
    by_cases hsets : SetsMcuLatch m
    · have hheard : s.hearMcu.mcuWatch = s.mcuWatch.hear true := rfl
      rw [decide_eq_true hsets, ← hheard]
      rcases hsets with h | h | h | h
      · exact absurd h hperiodic
      · rw [if_pos h]
      · rw [if_neg (by rw [h]; decide), if_pos h]
      · rw [if_neg (by rw [h]; decide), if_neg (by rw [h]; decide), if_pos h]
    · rw [decide_eq_false hsets, if_neg fun h => hsets (.inr (.inl h)),
        if_neg fun h => hsets (.inr (.inr (.inl h))), if_neg fun h => hsets (.inr (.inr (.inr h)))]
      split_ifs <;> rfl

theorem handlePcmMessage_apply (identifier : Nat) (data : Frame) (modules : Fin maxPcmModule → CanModule) :
    handlePcmMessage identifier data modules k
      = if identifier - 0x21 = k.val then { modules k with canSuccess := true }.setReadings data
        else modules k := by
  rw [handlePcmMessage]
  split
  · next hindex =>
      by_cases hk : identifier - 0x21 = k.val
      · obtain rfl : k = ⟨identifier - 0x21, hindex⟩ := Fin.ext hk.symm
        rw [if_pos rfl, Function.update_self]
      · rw [if_neg hk, Function.update_of_ne]
        exact fun h => hk (congrArg Fin.val h).symm
  · next hindex =>
      rw [if_neg]
      intro hk
      exact hindex (hk ▸ k.isLt)

theorem receive_pcm {m : CanMessage} (hm : 0x21 ≤ m.identifier ∧ m.identifier ≤ 0x30) :
    s.receiveCanMessage undefinedShift m
      = { s with modules := handlePcmMessage m.identifier m.data s.modules } := by
  have hne : ∀ n, 0x31 ≤ n → m.identifier ≠ n := fun n hn => by omega
  rw [receiveCanMessage, if_neg (hne _ (by decide)), if_neg (hne _ (by decide)),
    if_neg (hne _ (by decide)), if_neg (hne _ (by decide)), if_neg (hne _ (by decide)), if_pos hm]

theorem receive_other {m : CanMessage} (hm : ¬ (0x21 ≤ m.identifier ∧ m.identifier ≤ 0x30)) :
    (s.receiveCanMessage undefinedShift m).modules = s.modules := by
  unfold receiveCanMessage
  split_ifs <;> rfl

/-- A message changes what is known of the module it comes from, and of no other. -/
theorem receive_modules (m : CanMessage) :
    (s.receiveCanMessage undefinedShift m).modules k
      = if FromModule k m then { s.modules k with canSuccess := true }.setReadings m.data
        else s.modules k := by
  have hk : k.val < 10 := k.isLt
  by_cases hm : 0x21 ≤ m.identifier ∧ m.identifier ≤ 0x30
  · rw [receive_pcm hm]
    have hfrom : FromModule k m ↔ m.identifier - 0x21 = k.val := by
      simp only [FromModule]
      omega
    simp only [handlePcmMessage_apply, hfrom]
  · have hfrom : ¬ FromModule k m := by
      simp only [FromModule]
      omega
    rw [receive_other hm, if_neg hfrom]

theorem receive_moduleWatch (m : CanMessage) :
    ((s.receiveCanMessage undefinedShift m).modules k).watch
      = (s.modules k).watch.hear (FromModule k m) := by
  rw [receive_modules]
  by_cases hfrom : FromModule k m
  · rw [if_pos hfrom, CanModule.setReadings_watch, decide_eq_true hfrom]
    rfl
  · rw [if_neg hfrom, decide_eq_false hfrom]
    rfl

/-! ### Runs -/

section Runs

variable {sets : CanMessage → Prop} [DecidablePred sets] {view : CanHealth → Watch}

/-- One of the last `n` iterations received such a message. -/
def HeardWithin (n : Nat) (sets : CanMessage → Prop) (received : List (Option CanMessage)) : Prop :=
  ∃ (i : Nat) (m : CanMessage), received[i]? = some (some m) ∧ sets m ∧ received.length ≤ i + n

/-- A part of the state that is a watchdog for the messages of a kind. -/
structure Watches (undefinedShift : Int → UInt32) (view : CanHealth → Watch)
    (sets : CanMessage → Prop) [DecidablePred sets] : Prop where
  check : ∀ s, (view s).count ≤ silenceLimit → view s.checkHealth = (view s).check silenceLimit
  receive : ∀ m s, view (s.receiveCanMessage undefinedShift m) = (view s).hear (sets m)

theorem mcu_watches : Watches undefinedShift mcuWatch SetsMcuLatch where
  check _ hle := checkHealth_mcuWatch hle
  receive m _ := receive_mcuWatch m

theorem module_watches (k : Fin maxPcmModule) :
    Watches undefinedShift (fun s => (s.modules k).watch) (FromModule k) where
  check _ hle := CanModule.checkHealth_watch hle
  receive m _ := receive_moduleWatch m

theorem Watches.iteration (h : Watches undefinedShift view sets) (message : Option CanMessage)
    (hle : (view s).count ≤ silenceLimit) :
    view (s.iteration undefinedShift message) = (view s).round silenceLimit (message.any (sets ·)) := by
  cases message with
  | none => exact h.check s hle
  | some m =>
      rw [Watch.round, ← h.check s hle]
      exact h.receive m s.checkHealth

theorem Watches.run (h : Watches undefinedShift view sets) (received : List (Option CanMessage))
    (hle : (view s).count ≤ silenceLimit) :
    view (received.foldl (CanHealth.iteration undefinedShift) s)
        = (received.map fun message => message.any (sets ·)).foldl (Watch.round silenceLimit) (view s)
      ∧ (view (received.foldl (CanHealth.iteration undefinedShift) s)).count ≤ silenceLimit := by
  induction received generalizing s with
  | nil => exact ⟨rfl, hle⟩
  | cons message received ih =>
      have hnext := h.iteration message hle
      have hcount : (view (s.iteration undefinedShift message)).count ≤ silenceLimit :=
        hnext ▸ Watch.check_count_le
      obtain ⟨hrun, hlast⟩ := ih hcount
      rw [hnext] at hrun
      exact ⟨hrun, hlast⟩

/-- A watchdog that starts without having heard anything is exact. -/
theorem Watches.exact (h : Watches undefinedShift view sets) (hstart : view s = .start)
    (received : List (Option CanMessage)) :
    (view (s.checkedAfter undefinedShift received)).failed = false
      ↔ HeardWithin (silenceLimit + 1) sets received := by
  obtain ⟨hrun, hcount⟩ := h.run received (s := s) (by rw [hstart]; exact Nat.zero_le _)
  rw [checkedAfter, h.check _ hcount, hrun, hstart, Watch.check_rounds, List.length_map]
  constructor
  · rintro ⟨i, hi, hlast⟩
    rw [List.getElem?_map, Option.map_eq_some_iff] at hi
    obtain ⟨message, hmessage, hsets⟩ := hi
    obtain ⟨m, rfl, hm⟩ := (Option.any_eq_true _ _).mp hsets
    exact ⟨i, m, hmessage, of_decide_eq_true hm, hlast⟩
  · rintro ⟨i, m, hi, hm, hlast⟩
    refine ⟨i, ?_, hlast⟩
    rw [List.getElem?_map, hi, Option.map_some, Option.any_some, decide_eq_true hm]

end Runs

theorem Initial.mcuWatch_eq (hs : s.Initial) : s.mcuWatch = .start := by
  rw [mcuWatch, hs.mcuSuccess, hs.mcuCount, hs.mcuComm]
  rfl

theorem Initial.moduleWatch_eq (hs : s.Initial) (k : Fin maxPcmModule) :
    (s.modules k).watch = .start := by
  rw [CanModule.watch, hs.success, hs.count, hs.failure]
  rfl

/-- The health check says that a power module can be reached exactly when one of the last 3001
iterations received a message from it, and only its own messages change anything of it. -/
theorem powerModule_health (hs : s.Initial) (received : List (Option CanMessage))
    (k : Fin maxPcmModule) :
    (((s.checkedAfter undefinedShift received).modules k).canFailure = false
        ↔ HeardWithin 3001 (FromModule k) received)
      ∧ ∀ (m : CanMessage) (t : CanHealth), ¬ FromModule k m →
        (t.receiveCanMessage undefinedShift m).modules k = t.modules k := by
  constructor
  · exact (module_watches k).exact (hs.moduleWatch_eq k) received
  · intro m t hfrom
    rw [receive_modules, if_neg hfrom]

/-! ### The messages of the charger -/

theorem HeardWithin.mono {n : Nat} {P Q : CanMessage → Prop} {received : List (Option CanMessage)}
    (h : HeardWithin n P received) (himp : ∀ m, P m → Q m) : HeardWithin n Q received := by
  obtain ⟨i, m, hi, hm, hlast⟩ := h
  exact ⟨i, m, hi, himp m hm, hlast⟩

/-- What the health check says of the charger. -/
theorem mcuComm_checkedAfter (hs : s.Initial) (received : List (Option CanMessage)) :
    (s.checkedAfter undefinedShift received).status.mcuComm = fine
      ↔ HeardWithin 3001 SetsMcuLatch received := by
  have hexact : (s.checkedAfter undefinedShift received).mcuWatch.failed = false
      ↔ HeardWithin (silenceLimit + 1) SetsMcuLatch received :=
    mcu_watches.exact hs.mcuWatch_eq received
  rw [← hexact, mcuWatch, decide_eq_false_iff_not, not_not]

/-- The health check says that the charger can be reached exactly when one of the last 3001 iterations
received a message from it, but where all of these messages are about the fault log. -/
theorem mcuComm_counts_iff (hs : s.Initial) (received : List (Option CanMessage)) :
    ((s.checkedAfter undefinedShift received).status.mcuComm = fine
        ↔ HeardWithin 3001 FromMcu received)
      ↔ (HeardWithin 3001 (fun m => m.identifier = FAULT_LOG) received →
          HeardWithin 3001 SetsMcuLatch received) := by
  rw [mcuComm_checkedAfter hs]
  constructor
  · intro hexact hlog
    exact hexact.mpr (hlog.mono fun m hm => .inr hm)
  · intro hcovered
    refine ⟨fun hsets => hsets.mono fun m hm => .inl hm, ?_⟩
    rintro ⟨i, m, hi, hsets | hlog, hlast⟩
    · exact ⟨i, m, hi, hsets, hlast⟩
    · exact hcovered ⟨i, m, hi, hlog, hlast⟩

/-! ### A charger that only reports faults -/

/-- Nobody has been heard. -/
def unheard : CanHealth where
  status := { idleStatus with
    mcuComm := 0, canSuccess := false, receivedDataChargerPeriodic := false, trackNoofFrames := 0 }
  mcuCANFailureCount := 0
  modules _ := { reachedModule with canFailure := true, canFailureCount := 0, canSuccess := false }

theorem unheard_initial : unheard.Initial :=
  ⟨rfl, rfl, rfl, fun _ => rfl, fun _ => rfl, fun _ => rfl⟩

def messageFrom (identifier : Nat) : CanMessage := ⟨identifier, fun _ => 0⟩

theorem powerModule_health_heard :
    ((unheard.checkedAfter (fun _ => 0) [some (messageFrom 0x21), none]).modules 0).canFailure = false :=
  (powerModule_health unheard_initial [some (messageFrom 0x21), none] 0).1.mpr
    ⟨0, messageFrom 0x21, rfl, rfl, by decide⟩

theorem mcuComm_counts_iff_session :
    (unheard.checkedAfter (fun _ => 0) [some (messageFrom SESSION_INFO_ID)]).status.mcuComm = fine :=
  ((mcuComm_counts_iff unheard_initial [some (messageFrom SESSION_INFO_ID)]).mpr fun _ =>
      ⟨0, _, rfl, .inr (.inr (.inl rfl)), by decide⟩).mpr
    ⟨0, _, rfl, .inl (.inr (.inr (.inl rfl))), by decide⟩

/-- A frame of the fault log in every iteration does not keep the charger from counting as failed. -/
theorem faultLog_not_counted :
    ¬ ∀ received : List (Option CanMessage),
      ((unheard.checkedAfter (fun _ => 0) received).status.mcuComm = fine
        ↔ HeardWithin 3001 FromMcu received) := by
  intro hall
  have hfine := (hall [some (messageFrom FAULT_LOG)]).mpr
    ⟨0, messageFrom FAULT_LOG, rfl, .inr rfl, by decide⟩
  revert hfine
  decide

end CanHealth

end Pmu
