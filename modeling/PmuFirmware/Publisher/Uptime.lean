import PmuFirmware.Lib.Run
import PmuFirmware.Messages.ComponentStatus

/-!
# Uptime

`mqtt_task` counts the seconds in which the internet and the websocket of the charger are up or down.
The seconds go into counters of eight bits; every 601 iterations these are added to the totals in RAM,
which are then stored in flash memory, and the periodic message reads them back from there. Twenty
iterations in which the charger reports count as a second.

No second gets lost or is counted twice as long as every access to the flash memory succeeds. A read
that fails gives 0, as if nothing had been stored, and the next totals start from there.
-/

namespace Pmu

abbrev failed : Nat := 0

/-! ### Flash memory -/

/-- `iUT`, `iDT`, `wUT` and `wDT` -/
inductive UptimeKey
  | internetUp
  | internetDown
  | websocketUp
  | websocketDown
  deriving DecidableEq

abbrev Nvs := UptimeKey → Option UInt32

/-- The total under a key; what has never been stored counts as 0. -/
def Nvs.stored (nvs : Nvs) (key : UptimeKey) : UInt32 := (nvs key).getD 0

/-- Whether `nvs_open` succeeds, and whether `nvs_get_u32` or `nvs_set_u32` does. -/
structure NvsAccess where
  opened : Bool
  done : Bool

def NvsAccess.Succeeds (access : NvsAccess) : Prop := access.opened = true ∧ access.done = true

instance (access : NvsAccess) : Decidable access.Succeeds := inferInstanceAs (Decidable (_ ∧ _))

def writeNvsValue (access : NvsAccess) (key : UptimeKey) (newValue : UInt32) (nvs : Nvs) : Nvs :=
  if access.Succeeds then Function.update nvs key (some newValue) else nvs

def readNvsValue (access : NvsAccess) (key : UptimeKey) (nvs : Nvs) : UInt32 :=
  if access.Succeeds then nvs.stored key else 0

/-! ### The task -/

/-- What the other tasks have received from the charger when it is looked at. -/
structure LinkStatus where
  mcuComm : Nat
  trackNoofFrames : UInt16
  receivedDataChargerPeriodic : Bool
  lcuCommStatus : Nat
  lcuInternetStatus : Nat
  websocketConnection : Nat
  configKeyValue : UInt8

/-- What an iteration of `mqtt_task` reads from the other tasks, and the results of its calls. The
status is read in three places, and may change in between. -/
structure Iteration where
  isMqttNetworkOnline : Bool
  valueofChangedParameter : UInt8
  configDataExchanged : Bool
  pmuEnable : Bool
  atStoring : LinkStatus
  atReporting : LinkStatus
  atCounting : LinkStatus
  internetAllocated : Bool
  websocketAllocated : Bool
  write : UptimeKey → NvsAccess
  read : UptimeKey → NvsAccess

/-- The totals in RAM and in flash memory, `LCUInternetUp` and the other counters of seconds, the two
counters of iterations, and `publishMsgFlag.charger_periodic_data`. -/
structure UptimeTask where
  nvs : Nvs
  total : UptimeKey → UInt32
  seconds : UptimeKey → UInt8
  counterPeriodic : UInt32
  counterUptime : UInt32
  chargerPeriodicData : Bool

/-- `fetch_uptime_keys`, which leaves a total at 0 that it cannot read, and the globals as they start. -/
def fetchUptimeKeys (opened : Bool) (gets : UptimeKey → Bool) (nvs : Nvs) : UptimeTask where
  nvs := nvs
  total key := if opened = true ∧ gets key = true then nvs.stored key else 0
  seconds _ := 0
  counterPeriodic := 0
  counterUptime := 0
  chargerPeriodicData := false

/-- The counters are added to the totals, and these are stored. -/
def storeTotals (i : Iteration) (s : UptimeTask) : UptimeTask :=
  let total := fun key => s.total key + (s.seconds key).toUInt32
  { s with
    total := total
    nvs := [.internetDown, .internetUp, .websocketUp, .websocketDown].foldl
      (fun nvs key => writeNvsValue (i.write key) key (total key) nvs) s.nvs
    seconds := fun _ => 0 }

/-- All frames have been received, or the charger does not answer. -/
def LinkStatus.Reportable (l : LinkStatus) : Prop :=
  (∀ bit ∈ [0, 4, 8, 9], l.trackNoofFrames.toNat.testBit bit = true) ∨ l.mcuComm = failed

instance (l : LinkStatus) : Decidable l.Reportable := inferInstanceAs (Decidable (_ ∨ _))

/-- The first part of an iteration. -/
def storePeriodically (i : Iteration) (s : UptimeTask) : UptimeTask :=
  if 600 ≤ s.counterPeriodic then
    let s := storeTotals i { s with counterPeriodic := 0 }
    if i.isMqttNetworkOnline = true ∧ i.valueofChangedParameter = 0 ∧ i.configDataExchanged = true
        ∧ i.pmuEnable = true ∧ i.atStoring.Reportable then
      { s with chargerPeriodicData := true }
    else s
  else { s with counterPeriodic := s.counterPeriodic + 1 }

/-- The totals that `create_chargerPeriodicData_message` reads back: none where it gives up before. -/
def readBack (i : Iteration) : List UptimeKey :=
  if i.atReporting.mcuComm = fine ∧ i.atReporting.lcuCommStatus = fine
      ∧ i.atReporting.configKeyValue = online ∧ i.internetAllocated = true then
    [.internetUp, .internetDown]
      ++ if i.websocketAllocated = true then [.websocketUp, .websocketDown] else []
  else []

/-- `create_chargerPeriodicData_message`: what it does to the totals. -/
def createChargerPeriodicDataMessage (i : Iteration) (s : UptimeTask) : UptimeTask :=
  (readBack i).foldl (fun s key =>
    { s with total := Function.update s.total key (readNvsValue (i.read key) key s.nvs) }) s

def reportPeriodically (i : Iteration) (s : UptimeTask) : UptimeTask :=
  if s.chargerPeriodicData = true then
    createChargerPeriodicDataMessage i { s with chargerPeriodicData := false }
  else s

/-- The charger answers and reports its periodic data. -/
def LinkStatus.Qualifies (l : LinkStatus) : Prop :=
  l.mcuComm = fine ∧ l.configKeyValue = online ∧ l.receivedDataChargerPeriodic = true

instance (l : LinkStatus) : Decidable l.Qualifies := inferInstanceAs (Decidable (_ ∧ _))

def UptimeTask.countSecond (key : UptimeKey) (s : UptimeTask) : UptimeTask :=
  { s with seconds := Function.update s.seconds key (s.seconds key + 1) }

/-- The last part of an iteration. -/
def countUptime (l : LinkStatus) (s : UptimeTask) : UptimeTask :=
  if l.Qualifies then
    let s := { s with counterUptime := s.counterUptime + 1 }
    if 20 ≤ s.counterUptime then
      let s := { s with counterUptime := 0 }
      if l.lcuInternetStatus = failed then s.countSecond .internetDown
      else
        let s := s.countSecond .internetUp
        if l.websocketConnection = fine then s.countSecond .websocketUp
        else s.countSecond .websocketDown
    else s
  else s

/-- An iteration of `mqtt_task`, as far as the uptimes are concerned. -/
def mqttIteration (i : Iteration) (s : UptimeTask) : UptimeTask :=
  countUptime i.atCounting (reportPeriodically i (storePeriodically i s))

def mqttTask (iterations : List Iteration) (s : UptimeTask) : UptimeTask :=
  iterations.foldl (fun s i => mqttIteration i s) s

/-! ### What the parts of an iteration do -/

section Parts

variable {i : Iteration} {s : UptimeTask}

theorem toNat_succ {counter : UInt32} (h : counter.toNat < 2 ^ 32 - 1) :
    (counter + 1).toNat = counter.toNat + 1 := by
  rw [UInt32.toNat_add]
  exact Nat.mod_eq_of_lt (by simp; omega)

theorem stored_writeNvsValue (access : NvsAccess) (key : UptimeKey) (newValue : UInt32) (nvs : Nvs)
    (key' : UptimeKey) :
    (writeNvsValue access key newValue nvs).stored key'
      = if access.Succeeds ∧ key' = key then newValue else nvs.stored key' := by
  rw [writeNvsValue]
  by_cases haccess : access.Succeeds
  · by_cases hkey : key' = key <;> simp [haccess, hkey, Nvs.stored]
  · simp [haccess]

theorem stored_storeTotals (key : UptimeKey) :
    (storeTotals i s).nvs.stored key
      = if (i.write key).Succeeds then s.total key + (s.seconds key).toUInt32
        else s.nvs.stored key := by
  cases key <;> simp [storeTotals, stored_writeNvsValue]

theorem storePeriodically_cases :
    s.counterPeriodic.toNat < 600
        ∧ storePeriodically i s = { s with counterPeriodic := s.counterPeriodic + 1 }
      ∨ 600 ≤ s.counterPeriodic.toNat
        ∧ ∃ flag, storePeriodically i s
          = { storeTotals i { s with counterPeriodic := 0 } with chargerPeriodicData := flag } := by
  rw [storePeriodically]
  have hle : 600 ≤ s.counterPeriodic ↔ 600 ≤ s.counterPeriodic.toNat := UInt32.le_iff_toNat_le
  by_cases hfull : 600 ≤ s.counterPeriodic
  · rw [if_pos hfull]
    refine .inr ⟨hle.mp hfull, ?_⟩
    dsimp only
    split
    · exact ⟨true, rfl⟩
    · exact ⟨_, rfl⟩
  · rw [if_neg hfull]
    exact .inl ⟨not_le.mp fun h => hfull (hle.mpr h), rfl⟩

/-- Each total that is read is what the flash memory holds, or 0. -/
theorem createChargerPeriodicDataMessage_eq :
    createChargerPeriodicDataMessage i s = { s with
      total := fun key =>
        if key ∈ readBack i then readNvsValue (i.read key) key s.nvs else s.total key } := by
  have hkeys : ∀ (keys : List UptimeKey) (s : UptimeTask),
      keys.foldl (fun s key =>
        { s with total := Function.update s.total key (readNvsValue (i.read key) key s.nvs) }) s
        = { s with
          total := fun key =>
            if key ∈ keys then readNvsValue (i.read key) key s.nvs else s.total key } := by
    intro keys
    induction keys with
    | nil => exact fun s => by simp
    | cons key keys ih =>
        intro s
        rw [List.foldl_cons, ih]
        congr 1
        funext key'
        by_cases hkey : key' = key
        · simp [hkey]
        · simp [hkey]
  exact hkeys (readBack i) s

theorem countUptime_cases (l : LinkStatus) :
    ¬l.Qualifies ∧ countUptime l s = s
      ∨ l.Qualifies ∧ s.counterUptime + 1 < 20
        ∧ countUptime l s = { s with counterUptime := s.counterUptime + 1 }
      ∨ l.Qualifies ∧ 20 ≤ s.counterUptime + 1
        ∧ (countUptime l s = { s with counterUptime := 0 }.countSecond .internetDown
          ∨ countUptime l s
              = ({ s with counterUptime := 0 }.countSecond .internetUp).countSecond .websocketUp
          ∨ countUptime l s
              = ({ s with counterUptime := 0 }.countSecond .internetUp).countSecond .websocketDown) := by
  rw [countUptime]
  by_cases hqualifies : l.Qualifies
  · rw [if_pos hqualifies]
    dsimp only
    by_cases hfull : 20 ≤ s.counterUptime + 1
    · refine .inr (.inr ⟨hqualifies, hfull, ?_⟩)
      rw [if_pos hfull]
      split_ifs
      · exact .inl rfl
      · exact .inr (.inl rfl)
      · exact .inr (.inr rfl)
    · exact .inr (.inl ⟨hqualifies, UInt32.not_le.mp hfull, if_neg hfull⟩)
  · exact .inl ⟨hqualifies, if_neg hqualifies⟩

end Parts

/-! ### No second is lost -/

/-- The stored total and the seconds that are not stored yet. -/
def UptimeTask.current (s : UptimeTask) (key : UptimeKey) : Nat :=
  (s.nvs.stored key).toNat + (s.seconds key).toNat

def Iteration.AccessesSucceed (i : Iteration) : Prop :=
  ∀ key, (i.write key).Succeeds ∧ (i.read key).Succeeds

/-- What holds after `qualified` iterations in which the charger reported. The seconds between two
stores are bounded by the iterations since the last one, of which one has not been counted yet where
the slack is 19. -/
structure Accounted (slack start qualified : Nat) (s : UptimeTask) : Prop where
  loaded : ∀ key, s.total key = s.nvs.stored key
  ticks : 20 * (s.current .internetUp + s.current .internetDown) + s.counterUptime.toNat
    = 20 * start + qualified
  partialSecond : s.counterUptime.toNat < 20
  paired : (s.seconds .websocketUp).toNat + (s.seconds .websocketDown).toNat
    = (s.seconds .internetUp).toNat
  storedPaired : (s.nvs.stored .websocketUp).toNat + (s.nvs.stored .websocketDown).toNat
    = (s.nvs.stored .internetUp).toNat
  slow : 20 * ((s.seconds .internetUp).toNat + (s.seconds .internetDown).toNat)
    + s.counterUptime.toNat ≤ s.counterPeriodic.toNat + slack
  periodic : s.counterPeriodic.toNat ≤ 600

section Accounting

variable {i : Iteration} {start qualified : Nat} {s : UptimeTask}

/-- Storing moves the seconds into the totals. -/
theorem Accounted.storePeriodically (h : Accounted 20 start qualified s)
    (hwrites : ∀ key, (i.write key).Succeeds) (hbelow : ∀ key, s.current key < 2 ^ 32) :
    Accounted 19 start qualified (storePeriodically i s) := by
  rcases storePeriodically_cases (i := i) (s := s) with ⟨hearly, heq⟩ | ⟨-, flag, heq⟩
  · rw [heq]
    have hcounter : (s.counterPeriodic + 1).toNat = s.counterPeriodic.toNat + 1 :=
      toNat_succ (by omega)
    refine ⟨h.loaded, h.ticks, h.partialSecond, h.paired, h.storedPaired, ?_, ?_⟩
    · have hslow := h.slow
      dsimp only
      omega
    · dsimp only
      omega
  · have htotal : ∀ key, s.total key + (s.seconds key).toUInt32
        = (storeTotals i { s with counterPeriodic := 0 }).nvs.stored key := by
      intro key
      rw [stored_storeTotals, if_pos (hwrites key)]
    have hstored : ∀ key, ((storeTotals i { s with counterPeriodic := 0 }).nvs.stored key).toNat
        = s.current key := by
      intro key
      rw [← htotal, UInt32.toNat_add, UInt8.toNat_toUInt32, h.loaded key]
      exact Nat.mod_eq_of_lt (hbelow key)
    have hcurrent : ∀ key, UptimeTask.current
        { storeTotals i { s with counterPeriodic := 0 } with chargerPeriodicData := flag } key
        = s.current key := fun key => hstored key
    rw [heq]
    refine ⟨htotal, ?_, h.partialSecond, rfl, ?_, ?_, Nat.zero_le _⟩
    · rw [hcurrent, hcurrent]
      exact h.ticks
    · dsimp only
      rw [hstored, hstored, hstored]
      have hpaired := h.paired
      have hbefore := h.storedPaired
      simp only [UptimeTask.current]
      omega
    · have hpartial := h.partialSecond
      exact Nat.le_of_lt_succ (by simpa [storeTotals] using hpartial)

/-- Reading back what has been stored changes nothing. -/
theorem createChargerPeriodicDataMessage_of_loaded (hloaded : ∀ key, s.total key = s.nvs.stored key)
    (hreads : ∀ key, (i.read key).Succeeds) : createChargerPeriodicDataMessage i s = s := by
  rw [createChargerPeriodicDataMessage_eq]
  have htotal : (fun key => if key ∈ readBack i then readNvsValue (i.read key) key s.nvs
      else s.total key) = s.total := by
    funext key
    rw [readNvsValue, if_pos (hreads key), hloaded, ite_self]
  rw [htotal]

theorem Accounted.reportPeriodically {slack : Nat} (h : Accounted slack start qualified s)
    (hreads : ∀ key, (i.read key).Succeeds) :
    Accounted slack start qualified (reportPeriodically i s) := by
  rw [Pmu.reportPeriodically]
  split
  · rw [createChargerPeriodicDataMessage_of_loaded (s := { s with chargerPeriodicData := false })
      h.loaded hreads]
    exact ⟨h.loaded, h.ticks, h.partialSecond, h.paired, h.storedPaired, h.slow, h.periodic⟩
  · exact h

theorem toNat_seconds_countSecond {key : UptimeKey} (hroom : (s.seconds key).toNat < 255)
    (key' : UptimeKey) :
    ((s.countSecond key).seconds key').toNat
      = (s.seconds key').toNat + if key' = key then 1 else 0 := by
  rw [UptimeTask.countSecond]
  dsimp only
  by_cases hkey : key' = key
  · rw [hkey, Function.update_self, UInt8.toNat_add, if_pos rfl]
    exact Nat.mod_eq_of_lt (by simp; omega)
  · rw [Function.update_of_ne hkey, if_neg hkey, Nat.add_zero]

/-- A second more of the internet and, while that is up, of the websocket. -/
theorem Accounted.second (h : Accounted 19 start qualified s) (hlast : s.counterUptime.toNat = 19)
    {seconds : UptimeKey → UInt8} {more : UptimeKey → Nat}
    (hmore : ∀ key, (seconds key).toNat = (s.seconds key).toNat + more key)
    (hinternet : more .internetUp + more .internetDown = 1)
    (hwebsocket : more .websocketUp + more .websocketDown = more .internetUp) :
    Accounted 20 start (qualified + 1) { s with counterUptime := 0, seconds := seconds } := by
  have hcurrent : ∀ key, UptimeTask.current { s with counterUptime := 0, seconds := seconds } key
      = s.current key + more key := by
    intro key
    rw [UptimeTask.current, UptimeTask.current, hmore, Nat.add_assoc]
  refine ⟨h.loaded, ?_, Nat.zero_lt_succ 19, ?_, h.storedPaired, ?_, h.periodic⟩
  · have hticks := h.ticks
    rw [hcurrent, hcurrent]
    simp only [UInt32.toNat_zero]
    omega
  · have hpaired := h.paired
    simp only [hmore]
    omega
  · have hslow := h.slow
    simp only [hmore, UInt32.toNat_zero]
    omega

theorem Accounted.seconds_lt (h : Accounted 19 start qualified s) (key : UptimeKey) :
    (s.seconds key).toNat < 255 := by
  obtain ⟨-, -, -, hpaired, -, hslow, hperiodic⟩ := h
  cases key <;> omega

/-- Twenty iterations in which the charger reports make a second. -/
theorem Accounted.countUptime (h : Accounted 19 start qualified s) (l : LinkStatus) :
    Accounted 20 start (if l.Qualifies then qualified + 1 else qualified) (countUptime l s) := by
  have hcounter : (s.counterUptime + 1).toNat = s.counterUptime.toNat + 1 :=
    toNat_succ (h.partialSecond.trans (by decide))
  rcases countUptime_cases (s := s) l with
    ⟨hnot, heq⟩ | ⟨hqualifies, hearly, heq⟩ | ⟨hqualifies, hfull, heq⟩
  · rw [heq, if_neg hnot]
    exact ⟨h.loaded, h.ticks, h.partialSecond, h.paired, h.storedPaired, h.slow.trans (by omega),
      h.periodic⟩
  · rw [UInt32.lt_iff_toNat_lt, hcounter] at hearly
    have hticks := h.ticks
    have hslow := h.slow
    rw [heq, if_pos hqualifies]
    refine ⟨h.loaded, ?_, hcounter ▸ hearly, h.paired, h.storedPaired, ?_, h.periodic⟩
    · simp only [UptimeTask.current] at hticks ⊢
      omega
    · dsimp only
      omega
  · rw [UInt32.le_iff_toNat_le, hcounter] at hfull
    have hlast : s.counterUptime.toNat = 19 :=
      le_antisymm (Nat.lt_succ_iff.mp h.partialSecond) (Nat.le_of_succ_le_succ hfull)
    have hfirst := fun key => toNat_seconds_countSecond (s := { s with counterUptime := 0 })
      (h.seconds_lt key)
    have hboth : ∀ key, key ≠ .internetUp → ∀ key',
        ((({ s with counterUptime := 0 }.countSecond .internetUp).countSecond key).seconds key').toNat
          = (s.seconds key').toNat
            + ((if key' = .internetUp then 1 else 0) + if key' = key then 1 else 0) := by
      intro key hkey key'
      have hroom : (({ s with counterUptime := 0 }.countSecond .internetUp).seconds key).toNat
          < 255 := by
        rw [hfirst .internetUp key, if_neg hkey]
        exact h.seconds_lt key
      rw [toNat_seconds_countSecond hroom, hfirst, Nat.add_assoc]
    rw [if_pos hqualifies]
    rcases heq with heq | heq | heq <;> rw [heq]
    · exact h.second hlast (hfirst .internetDown) rfl rfl
    · exact h.second hlast (hboth .websocketUp (by decide)) rfl rfl
    · exact h.second hlast (hboth .websocketDown (by decide)) rfl rfl

theorem Accounted.mqttIteration (h : Accounted 20 start qualified s) (haccesses : i.AccessesSucceed)
    (hbelow : ∀ key, s.current key < 2 ^ 32) :
    Accounted 20 start (if i.atCounting.Qualifies then qualified + 1 else qualified)
      (mqttIteration i s) :=
  have hstored := h.storePeriodically (fun key => (haccesses key).1) hbelow
  (hstored.reportPeriodically fun key => (haccesses key).2).countUptime i.atCounting

theorem accounted_fetchUptimeKeys {nvs : Nvs}
    (hpaired : (nvs.stored .websocketUp).toNat + (nvs.stored .websocketDown).toNat
      = (nvs.stored .internetUp).toNat) :
    Accounted 20 ((nvs.stored .internetUp).toNat + (nvs.stored .internetDown).toNat) 0
      (fetchUptimeKeys true (fun _ => true) nvs) :=
  ⟨fun _ => rfl, rfl, Nat.zero_lt_succ 19, rfl, hpaired, Nat.zero_le _, Nat.zero_le _⟩

/-- While every access to the flash memory succeeds, every second is counted once: in the stored
totals or in the counters, which stay small, and the message that reads the totals changes nothing. -/
theorem uptime_is_conserved {nvs : Nvs}
    (hpaired : (nvs.stored .websocketUp).toNat + (nvs.stored .websocketDown).toNat
      = (nvs.stored .internetUp).toNat)
    {iterations : List Iteration} (haccesses : ∀ i ∈ iterations, i.AccessesSucceed)
    (hbelow : Runs.Meets (fun i s => some (mqttIteration i s))
      (fun _ s => ∀ key, s.current key < 2 ^ 32) iterations
      (fetchUptimeKeys true (fun _ => true) nvs)) :
    let s := mqttTask iterations (fetchUptimeKeys true (fun _ => true) nvs)
    s.current .internetUp + s.current .internetDown
        = (nvs.stored .internetUp).toNat + (nvs.stored .internetDown).toNat
          + iterations.countP (fun i => i.atCounting.Qualifies) / 20
      ∧ s.current .websocketUp + s.current .websocketDown = s.current .internetUp
      ∧ (∀ key, (s.seconds key).toNat ≤ 31)
      ∧ ∀ i : Iteration, i.AccessesSucceed → createChargerPeriodicDataMessage i s = s := by
  intro s
  have hsucceed : Runs.Meets (fun i s => some (mqttIteration i s)) (fun i _ => i.AccessesSucceed)
      iterations (fetchUptimeKeys true (fun _ => true) nvs) :=
    .of_forall fun i hi _ => haccesses i hi
  have hs : Accounted 20 ((nvs.stored .internetUp).toNat + (nvs.stored .internetDown).toNat)
      (iterations.countP fun i => i.atCounting.Qualifies) s := by
    refine Runs.foldl_history (P := fun inputs s => Accounted 20
      ((nvs.stored .internetUp).toNat + (nvs.stored .internetDown).toNat)
      (inputs.countP fun i => i.atCounting.Qualifies) s) (accounted_fetchUptimeKeys hpaired)
      (fun inputs i s₁ hcond hbefore => ?_) (hsucceed.and hbelow)
    have hafter := hbefore.mqttIteration hcond.1 hcond.2
    rw [List.countP_append, List.countP_singleton]
    by_cases hqualifies : i.atCounting.Qualifies
    · simpa [hqualifies] using hafter
    · simpa [hqualifies] using hafter
  obtain ⟨hloaded, hticks, hpartial, hseconds, hstored, hslow, hperiodic⟩ := hs
  refine ⟨by omega, ?_, fun key => ?_, fun i haccesses =>
    createChargerPeriodicDataMessage_of_loaded hloaded fun key => (haccesses key).2⟩
  · simp only [UptimeTask.current]
    omega
  · cases key <;> omega

/-- No total has more than all that has been counted. -/
theorem Accounted.current_le (h : Accounted 20 start qualified s) (key : UptimeKey) :
    s.current key ≤ start + qualified := by
  have hticks := h.ticks
  have hpaired := h.paired
  have hstored := h.storedPaired
  simp only [UptimeTask.current] at hticks ⊢
  cases key <;> omega

/-- A run that is short enough for what is stored at its start does not exceed the totals. -/
theorem meets_below_of_short (h : Accounted 20 start qualified s) {iterations : List Iteration}
    (haccesses : ∀ i ∈ iterations, i.AccessesSucceed)
    (hshort : start + qualified + iterations.length < 2 ^ 32) :
    Runs.Meets (fun i s => some (mqttIteration i s)) (fun _ s => ∀ key, s.current key < 2 ^ 32)
      iterations s := by
  induction iterations generalizing s qualified with
  | nil => trivial
  | cons i iterations ih =>
      have hbelow : ∀ key, s.current key < 2 ^ 32 := fun key =>
        (h.current_le key).trans_lt (by omega)
      refine ⟨hbelow, fun s' hstep => ?_⟩
      obtain rfl := Option.some.inj hstep
      refine ih (h.mqttIteration (haccesses i List.mem_cons_self) hbelow)
        (fun i hi => haccesses i (List.mem_cons_of_mem _ hi)) ?_
      rw [List.length_cons] at hshort
      split <;> omega

end Accounting

/-- A charger that reports, with everything up. -/
def reportingLink : LinkStatus where
  mcuComm := fine
  trackNoofFrames := 0x311
  receivedDataChargerPeriodic := true
  lcuCommStatus := fine
  lcuInternetStatus := fine
  websocketConnection := fine
  configKeyValue := online

/-- An iteration with nothing else in its way; `counts` says whether the charger reports when the
seconds are counted, and `reads` whether the flash memory can be read. -/
def sampleIteration (counts reads : Bool) : Iteration where
  isMqttNetworkOnline := true
  valueofChangedParameter := 0
  configDataExchanged := true
  pmuEnable := true
  atStoring := reportingLink
  atReporting := reportingLink
  atCounting := { reportingLink with receivedDataChargerPeriodic := counts }
  internetAllocated := true
  websocketAllocated := true
  write _ := ⟨true, true⟩
  read _ := ⟨reads, reads⟩

def storedTotals : Nvs
  | .internetUp => some 100
  | .internetDown => some 50
  | .websocketUp => some 70
  | .websocketDown => some 30

theorem sampleIteration_succeeds (counts : Bool) : (sampleIteration counts true).AccessesSucceed :=
  fun _ => ⟨⟨rfl, rfl⟩, rfl, rfl⟩

/-- In 620 iterations 31 seconds are counted; 30 of them have been stored. -/
theorem storedTotals_are_conserved :
    let s := mqttTask (List.replicate 620 (sampleIteration true true))
      (fetchUptimeKeys true (fun _ => true) storedTotals)
    s.current .internetUp + s.current .internetDown = 181 := by
  have haccesses : ∀ i ∈ List.replicate 620 (sampleIteration true true), i.AccessesSucceed :=
    fun i hi => List.eq_of_mem_replicate hi ▸ sampleIteration_succeeds true
  have hpaired : (storedTotals.stored .websocketUp).toNat + (storedTotals.stored .websocketDown).toNat
      = (storedTotals.stored .internetUp).toNat := by decide
  have hbelow := meets_below_of_short (accounted_fetchUptimeKeys hpaired) haccesses
    (by rw [List.length_replicate]; decide)
  intro s
  rw [(uptime_is_conserved hpaired haccesses hbelow).1, List.countP_replicate]
  decide

/-! ### When the stored totals can decrease -/

/-- The totals in RAM are not below the stored ones. -/
def UptimeTask.Covers (s : UptimeTask) : Prop := ∀ key, (s.nvs.stored key).toNat ≤ (s.total key).toNat

/-- Every total that is read back, and is not 0, can be read. -/
def ReadsStored (i : Iteration) (s : UptimeTask) : Prop :=
  s.chargerPeriodicData = true →
    ∀ key ∈ readBack i, s.nvs.stored key ≠ 0 → (i.read key).Succeeds

/-- The sums that would be stored next are below 2^32. -/
def UptimeTask.Storable (s : UptimeTask) : Prop :=
  ∀ key, (s.total key).toNat + (s.seconds key).toNat < 2 ^ 32

section Decreasing

variable {i : Iteration} {s : UptimeTask}

/-- Storing does not decrease what has been stored, also where some writes fail. -/
theorem covers_storePeriodically (hcovers : s.Covers) (hstorable : s.Storable) :
    (storePeriodically i s).Covers
      ∧ ∀ key, (s.nvs.stored key).toNat ≤ ((storePeriodically i s).nvs.stored key).toNat := by
  rcases storePeriodically_cases (i := i) (s := s) with ⟨-, heq⟩ | ⟨-, flag, heq⟩
  · rw [heq]
    exact ⟨hcovers, fun key => le_rfl⟩
  · have htotal : ∀ key, (s.total key + (s.seconds key).toUInt32).toNat
        = (s.total key).toNat + (s.seconds key).toNat := by
      intro key
      rw [UInt32.toNat_add, UInt8.toNat_toUInt32]
      exact Nat.mod_eq_of_lt (hstorable key)
    have hstored : ∀ key,
        (s.nvs.stored key).toNat
            ≤ ((storeTotals i { s with counterPeriodic := 0 }).nvs.stored key).toNat
          ∧ ((storeTotals i { s with counterPeriodic := 0 }).nvs.stored key).toNat
            ≤ (s.total key).toNat + (s.seconds key).toNat := by
      intro key
      have hkey := hcovers key
      rw [stored_storeTotals]
      split
      · rw [htotal]
        omega
      · dsimp only
        omega
    rw [heq]
    exact ⟨fun key => (hstored key).2.trans (htotal key).ge, fun key => (hstored key).1⟩

/-- The totals in RAM stay above the stored ones exactly when no read of a stored total fails. -/
theorem covers_reportPeriodically_iff (hcovers : s.Covers) :
    (reportPeriodically i s).Covers ↔ ReadsStored i s := by
  rw [reportPeriodically, ReadsStored]
  split
  · next hflag =>
      rw [createChargerPeriodicDataMessage_eq]
      constructor
      · intro h _ key hkey hnonzero
        by_contra hfails
        have hread := h key
        simp only [if_pos hkey, readNvsValue, if_neg hfails] at hread
        exact hnonzero (UInt32.toNat_inj.mp (Nat.le_zero.mp hread))
      · intro h key
        dsimp only
        split
        · next hkey =>
            rw [readNvsValue]
            by_cases hnonzero : s.nvs.stored key = 0
            · rw [hnonzero]
              exact Nat.zero_le _
            · rw [if_pos (h hflag key hkey hnonzero)]
        · exact hcovers key
  · next hflag => exact iff_of_true hcovers fun h => absurd h hflag

theorem nvs_reportPeriodically : (reportPeriodically i s).nvs = s.nvs := by
  rw [reportPeriodically]
  split
  · rw [createChargerPeriodicDataMessage_eq]
  · rfl

theorem countUptime_keeps (l : LinkStatus) :
    (countUptime l s).nvs = s.nvs ∧ (countUptime l s).total = s.total := by
  rcases countUptime_cases (s := s) l with ⟨-, heq⟩ | ⟨-, -, heq⟩ | ⟨-, -, heq | heq | heq⟩ <;>
    rw [heq] <;> exact ⟨rfl, rfl⟩

/-- One iteration keeps the totals in RAM above the stored ones, and does not decrease these. -/
theorem covers_mqttIteration (hcovers : s.Covers) (hstorable : s.Storable)
    (hreads : ReadsStored i (storePeriodically i s)) :
    (mqttIteration i s).Covers
      ∧ ∀ key, (s.nvs.stored key).toNat ≤ ((mqttIteration i s).nvs.stored key).toNat := by
  obtain ⟨hstored, hmore⟩ := covers_storePeriodically (i := i) hcovers hstorable
  have hreported := (covers_reportPeriodically_iff hstored).mpr hreads
  obtain ⟨hnvs, htotal⟩ := countUptime_keeps (s := reportPeriodically i (storePeriodically i s))
    i.atCounting
  constructor
  · intro key
    rw [mqttIteration, hnvs, htotal]
    exact hreported key
  · intro key
    rw [mqttIteration, hnvs, nvs_reportPeriodically]
    exact hmore key

/-- What a run needs so that no stored total is taken for 0. -/
def KeepsTotals (iterations : List Iteration) (s : UptimeTask) : Prop :=
  Runs.Meets (fun i s => some (mqttIteration i s))
    (fun i s => ReadsStored i (storePeriodically i s) ∧ s.Storable) iterations s

theorem covers_mqttTask (hcovers : s.Covers) {iterations : List Iteration}
    (hkeeps : KeepsTotals iterations s) :
    (mqttTask iterations s).Covers
      ∧ ∀ key, (s.nvs.stored key).toNat ≤ ((mqttTask iterations s).nvs.stored key).toNat := by
  have hstep : ∀ (i : Iteration) (t : UptimeTask),
      (t.Covers ∧ ∀ key, (s.nvs.stored key).toNat ≤ (t.nvs.stored key).toNat) →
      (ReadsStored i (storePeriodically i t) ∧ t.Storable) →
      (mqttIteration i t).Covers
        ∧ ∀ key, (s.nvs.stored key).toNat ≤ ((mqttIteration i t).nvs.stored key).toNat := by
    intro i t ⟨ht, hmore⟩ ⟨hreads, hstorable⟩
    obtain ⟨hnext, hnextMore⟩ := covers_mqttIteration ht hstorable hreads
    exact ⟨hnext, fun key => (hmore key).trans (hnextMore key)⟩
  exact Runs.foldl_invariant hstep ⟨hcovers, fun key => le_rfl⟩ hkeeps

theorem covers_fetchUptimeKeys {nvs : Nvs} {opened : Bool} {gets : UptimeKey → Bool}
    (hboot : ∀ key, nvs.stored key ≠ 0 → opened = true ∧ gets key = true) :
    (fetchUptimeKeys opened gets nvs).Covers := by
  intro key
  rw [fetchUptimeKeys]
  by_cases hnonzero : nvs.stored key = 0
  · dsimp only
    rw [hnonzero]
    exact Nat.zero_le _
  · dsimp only
    rw [if_pos (hboot key hnonzero)]

/-! ### Iterations in which nothing is counted -/

/-- Neither the totals nor the stored ones exceed the bound, and there are no seconds to be added. -/
structure Quiet (bound : Nat) (s : UptimeTask) : Prop where
  total : ∀ key, (s.total key).toNat ≤ bound
  stored : ∀ key, (s.nvs.stored key).toNat ≤ bound
  seconds : ∀ key, s.seconds key = 0

theorem quiet_storePeriodically {bound : Nat} (h : Quiet bound s) :
    Quiet bound (storePeriodically i s) := by
  rcases storePeriodically_cases (i := i) (s := s) with ⟨-, heq⟩ | ⟨-, flag, heq⟩
  · rw [heq]
    exact ⟨h.total, h.stored, h.seconds⟩
  · have htotal : ∀ key, (s.total key + (s.seconds key).toUInt32).toNat ≤ bound := by
      intro key
      rw [h.seconds key]
      simpa using h.total key
    rw [heq]
    refine ⟨htotal, fun key => ?_, fun _ => rfl⟩
    dsimp only
    rw [stored_storeTotals]
    split
    · exact htotal key
    · exact h.stored key

theorem quiet_reportPeriodically {bound : Nat} (h : Quiet bound s) :
    Quiet bound (reportPeriodically i s) := by
  rw [reportPeriodically]
  split
  · rw [createChargerPeriodicDataMessage_eq]
    refine ⟨fun key => ?_, h.stored, h.seconds⟩
    dsimp only
    split
    · rw [readNvsValue]
      split
      · exact h.stored key
      · exact Nat.zero_le _
    · exact h.total key
  · exact h

theorem quiet_mqttIteration {bound : Nat} (h : Quiet bound s) (hsilent : ¬i.atCounting.Qualifies) :
    Quiet bound (mqttIteration i s) := by
  rw [mqttIteration, countUptime, if_neg hsilent]
  exact quiet_reportPeriodically (quiet_storePeriodically h)

theorem storable_of_quiet {iterations : List Iteration} {bound : Nat} (hbound : bound < 2 ^ 32)
    (h : Quiet bound s) (hsilent : ∀ i ∈ iterations, ¬i.atCounting.Qualifies) :
    Runs.Meets (fun i s => some (mqttIteration i s)) (fun _ s => s.Storable) iterations s := by
  have hstorable : ∀ (i : Iteration) (t : UptimeTask), Quiet bound t → ¬i.atCounting.Qualifies →
      t.Storable := by
    intro i t ht _ key
    rw [ht.seconds key]
    exact lt_of_le_of_lt (ht.total key) hbound
  exact Runs.Meets.imp hstorable
    (fun i t t' ht hi hstep => Option.some.inj hstep ▸ quiet_mqttIteration ht hi) h
    (.of_forall fun i hi _ => hsilent i hi)

/-- Between two stores, iterations in which the charger does not report are only counted. -/
theorem mqttTask_replicate (hsilent : ¬i.atCounting.Qualifies) (hflag : s.chargerPeriodicData = false)
    {n : Nat} (hn : s.counterPeriodic.toNat + n ≤ 600) :
    mqttTask (List.replicate n i) s
      = { s with counterPeriodic := s.counterPeriodic + UInt32.ofNat n } := by
  induction n generalizing s with
  | zero => simp [mqttTask]
  | succ n ih =>
      have hearly : storePeriodically i s = { s with counterPeriodic := s.counterPeriodic + 1 } := by
        rcases storePeriodically_cases (i := i) (s := s) with ⟨-, heq⟩ | ⟨hfull, -⟩
        · exact heq
        · omega
      have hfirst : mqttIteration i s = { s with counterPeriodic := s.counterPeriodic + 1 } := by
        rw [mqttIteration, hearly, reportPeriodically, if_neg (by simp [hflag]), countUptime,
          if_neg hsilent]
      have hcounter : (s.counterPeriodic + 1).toNat = s.counterPeriodic.toNat + 1 :=
        toNat_succ (by omega)
      have hrest : mqttTask (List.replicate n i) (mqttIteration i s)
          = { s with counterPeriodic := s.counterPeriodic + 1 + UInt32.ofNat n } := by
        rw [hfirst]
        exact ih hflag (by rw [hcounter]; omega)
      rw [List.replicate_succ, mqttTask, List.foldl_cons]
      refine hrest.trans ?_
      rw [UInt32.ofNat_add, UInt32.add_assoc, UInt32.add_comm 1]
      rfl

end Decreasing

theorem mqttTask_append (done later : List Iteration) (s : UptimeTask) :
    mqttTask (done ++ later) s = mqttTask later (mqttTask done s) := List.foldl_append

/-- The iterations up to the next one that stores. -/
def untilStored (last : Iteration) : List Iteration :=
  List.replicate 600 (sampleIteration false true) ++ [last]

theorem mqttTask_untilStored {s : UptimeTask} (hflag : s.chargerPeriodicData = false)
    (hstart : s.counterPeriodic = 0) (last : Iteration) :
    mqttTask (untilStored last) s = mqttIteration last { s with counterPeriodic := 600 } := by
  have hsilent : ¬(sampleIteration false true).atCounting.Qualifies := by decide
  rw [untilStored, mqttTask_append, mqttTask_replicate hsilent hflag (by rw [hstart]; decide), hstart]
  rfl

theorem quiet_storedTotals : Quiet 100 (fetchUptimeKeys true (fun _ => true) storedTotals) :=
  ⟨fun key => by cases key <;> decide, fun key => by cases key <;> decide, fun _ => rfl⟩

theorem untilStored_silent {reads : Bool} :
    ∀ i ∈ untilStored (sampleIteration false reads), ¬i.atCounting.Qualifies := by
  have hsample : ∀ reads, ¬(sampleIteration false reads).atCounting.Qualifies := by decide
  intro i hi
  rw [untilStored, List.mem_append, List.mem_replicate, List.mem_singleton] at hi
  rcases hi with ⟨-, rfl⟩ | rfl <;> exact hsample _

/-- As long as every total that is not 0 can be read, after a restart and for the periodic message,
the stored totals never decrease, whatever else fails. -/
theorem stored_totals_never_decrease {nvs : Nvs} {opened : Bool} {gets : UptimeKey → Bool}
    (hboot : ∀ key, nvs.stored key ≠ 0 → opened = true ∧ gets key = true)
    {iterations : List Iteration} (hkeeps : KeepsTotals iterations (fetchUptimeKeys opened gets nvs))
    {done : List Iteration} (hdone : done <+: iterations) (key : UptimeKey) :
    ((mqttTask done (fetchUptimeKeys opened gets nvs)).nvs.stored key).toNat
      ≤ ((mqttTask iterations (fetchUptimeKeys opened gets nvs)).nvs.stored key).toNat := by
  obtain ⟨later, rfl⟩ := hdone
  obtain ⟨hfirst, hlater⟩ := Runs.meets_append.mp hkeeps
  have hcovers := (covers_mqttTask (covers_fetchUptimeKeys hboot) hfirst).1
  rw [mqttTask, mqttTask, List.foldl_append]
  exact (covers_mqttTask hcovers (hlater _ (Runs.run_some _ _ _))).2 key

theorem stored_totals_survive_storing :
    (100 : UInt32).toNat
      ≤ ((mqttTask (untilStored (sampleIteration false true))
          (fetchUptimeKeys true (fun _ => true) storedTotals)).nvs.stored .internetUp).toNat :=
  stored_totals_never_decrease (fun _ _ => ⟨rfl, rfl⟩)
    (Runs.Meets.and
      (.of_forall fun i hi _ _ key _ _ => by
        rw [untilStored, List.mem_append, List.mem_replicate, List.mem_singleton] at hi
        rcases hi with ⟨-, rfl⟩ | rfl <;> exact ⟨rfl, rfl⟩)
      (storable_of_quiet (by decide) quiet_storedTotals untilStored_silent))
    (List.nil_prefix) .internetUp

/-- The totals are stored, one read of them fails, and the next totals are stored over them. -/
theorem failed_read_loses_totals :
    let s := fetchUptimeKeys true (fun _ => true) storedTotals
    let done := untilStored (sampleIteration false false)
    let iterations := done ++ untilStored (sampleIteration false true)
    Runs.Meets (fun i s => some (mqttIteration i s)) (fun _ s => s.Storable) iterations s
      ∧ (mqttTask done s).nvs.stored .internetUp = 100
      ∧ (mqttTask iterations s).nvs.stored .internetUp = 0 := by
  intro s done iterations
  have hsilent : ∀ i ∈ iterations, ¬i.atCounting.Qualifies := by
    intro i hi
    rcases List.mem_append.mp hi with hi | hi
    · exact untilStored_silent i hi
    · exact untilStored_silent i hi
  have hdone : mqttTask done s
      = mqttIteration (sampleIteration false false) { s with counterPeriodic := 600 } :=
    mqttTask_untilStored rfl rfl _
  refine ⟨storable_of_quiet (by decide) quiet_storedTotals hsilent, ?_, ?_⟩
  · rw [hdone]
    decide +kernel
  · rw [mqttTask_append, hdone, mqttTask_untilStored (by decide +kernel) (by decide +kernel)]
    decide +kernel

end Pmu
