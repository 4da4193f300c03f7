import PmuFirmware.Lib.Latest
import PmuFirmware.Config.Report

/-!
# What the server knows of the configuration

The main loop copies the configuration that has come from the charger, marks what has changed, and asks
for a message. `mqtt_task` builds the message from the marked items, and takes the request back after
that. The copies that come before the first message has been acknowledged are not compared.

The server knows of each item what the last message with the item says. That is the item itself whenever
no message is asked for, as long as no change is copied at a bad time: while a message is built, or
between the first message and its acknowledgement.
-/

namespace Pmu

open CLib Latest

/-! ### The steps -/

/-- The configuration as it has come, its copy, and what is marked in it. `building` says that
`mqtt_task` has built a message and has not taken the request back yet. -/
structure ConfigMirror where
  ipc : Configuration
  mqtt : Configuration
  changes : Changes
  configData : Bool
  configDataExchanged : Bool
  building : Bool
  messages : List Json

namespace ConfigMirror

/-- The configuration comes from the charger, the main loop copies it, `mqtt_task` builds a message when
it is asked for and the connectors are known, and takes the request back, and the first message is
acknowledged. -/
inductive Event
  | arrive (c : Configuration)
  | copy
  | build (ready : Bool) (now : UtcTime)
  | finish
  | acknowledged

/-- `check_config_data_changes` on the two copies. -/
def checked (s : ConfigMirror) : Changes :=
  checkConfigDataChanges s.mqtt.config s.ipc.config s.mqtt.modules s.ipc.modules s.changes

/-- The copies are compared once the first message has been acknowledged. -/
def compared (s : ConfigMirror) : Changes := if s.configDataExchanged then s.checked else s.changes

/-- The part of the main loop that holds the mutex. -/
def copy (s : ConfigMirror) : ConfigMirror :=
  let s := { s with mqtt := s.ipc, changes := s.compared }
  if s.changes.isConfigurationChanged then
    { s with changes := { s.changes with isConfigurationChanged := false }, configData := true }
  else s

/-- `prepare_mqtt_send_config_data` -/
def build (now : UtcTime) (s : ConfigMirror) : ConfigMirror :=
  let r := prepareMqttSendConfigData s.changes.flagConfig s.mqtt.config s.mqtt.modules now
  { s with
    changes := { s.changes with flagConfig := r.2 }
    building := true
    messages := s.messages ++ [r.1] }

def step : Event → ConfigMirror → Option ConfigMirror
  | .arrive c, s => some { s with ipc := c }
  | .copy, s => some s.copy
  | .build ready now, s =>
    if s.building then none
    else some (if s.configData && ready then s.build now else s)
  | .finish, s => if s.building then some { s with configData := false, building := false } else none
  | .acknowledged, s => some { s with configDataExchanged := true }

/-- At the start everything is marked, and a message is asked for. -/
def powerOn (ipc mqtt : Configuration) : ConfigMirror where
  ipc := ipc
  mqtt := mqtt
  changes := ⟨false, 0, fun _ => true⟩
  configData := true
  configDataExchanged := false
  building := false
  messages := []

/-- What the server knows of an item. -/
def known (s : ConfigMirror) (item : Item) : Option Json := latest item.find s.messages

/-- No check finds a difference between the two copies. -/
def Same (s : ConfigMirror) : Prop :=
  ∀ c ∈ checks s.mqtt.config s.ipc.config s.mqtt.modules s.ipc.modules, c.differs = false

/-- A copy comes at a good time, or changes nothing. -/
def Calm : Event → ConfigMirror → Prop
  | .copy, s => s.building = false ∧ (s.configDataExchanged = true ∨ s.messages = []) ∨ s.Same
  | _, _ => True

end ConfigMirror

/-- The items whose changes are marked, and which are reported as they are compared: the versions of the
power modules also tell which of them cannot be reached. -/
def Item.Mirrored (item : Item) : Prop := item.Covered ∧ item ≠ .pcm

/-! ### Marks -/

def ConnectorItem.mark : Fin 2 → ConnectorItem → Flag
  | 0, .commControllerVersion => .commController1
  | 0, .voltageLimit => .gunAVoltageFlag
  | 0, .currentLimit => .gunACurrentFlag
  | 0, .powerLimit => .gunAPowerFlag
  | 0, .serverPowerLimit => .serverConnectorAPowerFlag
  | 0, .serverCurrentLimit => .serverConnectorACurrentFlag
  | 1, .commControllerVersion => .commController2
  | 1, .voltageLimit => .gunBVoltageFlag
  | 1, .currentLimit => .gunBCurrentFlag
  | 1, .powerLimit => .gunBPowerFlag
  | 1, .serverPowerLimit => .serverConnectorBPowerFlag
  | 1, .serverCurrentLimit => .serverConnectorBCurrentFlag

namespace Item

/-- The flag of an item and those of the objects around it, the outermost first. -/
def marks : Item → List Flag
  | autoCharge => [.autoChargeFlag]
  | brand => [.brandFlag]
  | chargerPowerLimit => [.chargerPowerFlag]
  | serverChargerPowerLimit => [.serverChargerPowerFlag]
  | connector k item =>
    [.numConnectorsFlag, if k = 0 then .numConnector1 else .numConnector2, item.mark k]
  | hmi => [.versionInfoFlag, .hmiVersionFlag]
  | lcu => [.versionInfoFlag, .lcuVersionFlag]
  | mcu => [.versionInfoFlag, .mcuVersionFlag]
  | pcm => [.versionInfoFlag, .numPCMFlag]
  | dynamicPowerSharing => [.dynamicPowerSharingFlag]
  | energyMeterSetting => [.energyMeterSettingFlag]
  | zeroMeterStartEnable => [.zeroMeterStartEnableFlag]
  | ocppConnectionUrl => [.ocppURLFlag]
  | chargerMode => [.configKeyValueFlag]
  | tariff => [.tarrifAmountFlag]
  | eepromCommStatus => [.eepromCommStatusFlag]
  | rtcCommStatus => [.rtcCommStatusFlag]
  | pmuStatus => [.pmuEnabled]

def Marked (flags : Flags) (item : Item) : Prop := ∀ flag ∈ item.marks, flags flag = true

section Marks

variable {flags flags' : Flags} {old new : Configuration} {item : Item} {now : UtcTime}

theorem Marked.mono (h : item.Marked flags) (hflags : ∀ flag, flags flag = true → flags' flag = true) :
    item.Marked flags' := fun flag hflag => hflags flag (h flag hflag)

theorem marks_ne_nil : item.marks ≠ [] := by
  cases item <;> simp [marks]

/-- A marked item gets into the message unless it is a limit that has not been set. -/
theorem present_iff (hset : item.reading new ≠ .limit fltMax) :
    item.present flags new.config = true ↔ item.Marked flags := by
  cases item
  case connector k item =>
    have hk : k = 0 ∨ k = 1 := by omega
    rcases hk with rfl | rfl <;> cases item <;>
      simp_all [Marked, marks, present, reading, ConnectorItem.mark, ConnectorItem.present,
        ConnectorItem.reading, connectorReport, connector1, connector2, and_assoc]
  all_goals simp_all [Marked, marks, present, reading]

theorem value_congr (hpcm : item ≠ .pcm) (h : item.reading old = item.reading new) :
    item.value old = item.value new := by
  cases item
  case pcm => exact absurd rfl hpcm
  case connector k item =>
    cases item <;> simp_all [value, reading, ConnectorItem.value, ConnectorItem.reading]
  all_goals simp_all [value, reading]

theorem marked_of_differs (hitem : item.Mirrored) (hset : item.reading new ≠ .limit fltMax)
    (hdiffers : item.reading new ≠ item.reading old) : item.Marked (raisedFlags old new) := by
  obtain ⟨hcovered, hpcm⟩ := hitem
  -- The versions of the power modules are the same in this one, and how many there are.
  let before : Configuration := ⟨{ old.config with numPCM := new.config.numPCM }, new.modules⟩
  have hreading : item.reading before = item.reading old := by
    cases item
    case pcm => exact absurd rfl hpcm
    case connector k item =>
      have hk : k = 0 ∨ k = 1 := by omega
      rcases hk with rfl | rfl <;> rfl
    all_goals rfl
  have hmodules : modulesDiffer before.config.numPCM before.modules new.modules = false := by
    simp [modulesDiffer, moduleCheck, before]
  have hnum : new.config.numPCM = before.config.numPCM := rfl
  have hpresent : item.present (raisedFlags before new) new.config = true := by
    rw [present_of_covered hnum hcovered hset, hreading, decide_eq_true hdiffers]
  refine ((present_iff hset).mp hpresent).mono fun flag hflag => ?_
  rw [raisedFlags_eq, hmodules, Bool.false_and, Bool.or_false, Bool.or_eq_true] at hflag
  rw [raisedFlags_eq, Bool.or_eq_true, Bool.or_eq_true]
  exact hflag.imp_left .inl

end Marks

/-! ### Messages -/

section Messages

variable {flags : Flags} {c : ChargerConfig} {modules : Nat → PowerModule} {now : UtcTime}
  {item : Item}

/-- A field that is added clears its flag. -/
theorem remaining_of_field {field : Field} {flag : Flag}
    (hfield : field ∈ rootFields flags c modules now) (hflag : field.flag = some flag)
    (hpresent : flags flag = true → field.present = true) :
    (prepareMqttSendConfigData flags c modules now).2 flag = false := by
  by_cases hset : flags flag = true
  · have hcleared : flag ∈ clearedFlags flags c modules now := by
      refine List.mem_append_left _ (List.mem_filterMap.mpr ⟨field, ?_, hflag⟩)
      exact List.mem_filter.mpr ⟨hfield, hpresent hset⟩
    simp [prepareMqttSendConfigData, hcleared]
  · simp [prepareMqttSendConfigData, hset]

theorem remaining_of_enabled (hpmu : c.pmuEnable = 1) {field : Field} {flag : Flag} (i : Nat)
    (hfield : (enabledFields flags c modules)[i]? = some field) (hflag : field.flag = some flag)
    (hpresent : flags flag = true → field.present = true) :
    (prepareMqttSendConfigData flags c modules now).2 flag = false := by
  have hroot : field ∈ rootFields flags c modules now := by
    rw [rootFields, if_pos hpmu]
    exact List.mem_cons_of_mem _ (List.mem_cons_of_mem _ (List.mem_of_getElem? hfield))
  exact remaining_of_field hroot hflag hpresent

/-- A message of an enabled PMU leaves no mark. -/
theorem not_marked_remaining (hpmu : c.pmuEnable = 1)
    (hset : item.reading ⟨c, modules⟩ ≠ .limit fltMax) :
    ¬ item.Marked (prepareMqttSendConfigData flags c modules now).2 := by
  suffices hcleared : ∃ flag ∈ item.marks,
      (prepareMqttSendConfigData flags c modules now).2 flag = false by
    obtain ⟨flag, hflag, hcleared⟩ := hcleared
    intro hmarked
    rw [hmarked flag hflag] at hcleared
    cases hcleared
  cases item
  case chargerPowerLimit =>
    have hlimit : c.limitSetting.chargerPower ≠ fltMax := by simpa [reading] using hset
    refine ⟨_, List.mem_cons_self, remaining_of_enabled hpmu 2 rfl rfl fun hflag => ?_⟩
    rw [limitField, hflag, decide_eq_true hlimit, Bool.and_true]
  case pmuStatus =>
    have hfield : flagField flags .pmuEnabled "pmuStatus" (.number c.pmuEnable)
        ∈ rootFields flags c modules now := List.mem_cons_of_mem _ List.mem_cons_self
    exact ⟨_, List.mem_cons_self, remaining_of_field hfield rfl id⟩
  case autoCharge => exact ⟨_, List.mem_cons_self, remaining_of_enabled hpmu 0 rfl rfl id⟩
  case brand => exact ⟨_, List.mem_cons_self, remaining_of_enabled hpmu 1 rfl rfl id⟩
  case serverChargerPowerLimit =>
    exact ⟨_, List.mem_cons_self, remaining_of_enabled hpmu 3 rfl rfl id⟩
  case connector => exact ⟨_, List.mem_cons_self, remaining_of_enabled hpmu 4 rfl rfl id⟩
  case hmi | lcu | mcu | pcm =>
    exact ⟨_, List.mem_cons_self, remaining_of_enabled hpmu 5 rfl rfl id⟩
  case dynamicPowerSharing => exact ⟨_, List.mem_cons_self, remaining_of_enabled hpmu 6 rfl rfl id⟩
  case energyMeterSetting => exact ⟨_, List.mem_cons_self, remaining_of_enabled hpmu 7 rfl rfl id⟩
  case zeroMeterStartEnable => exact ⟨_, List.mem_cons_self, remaining_of_enabled hpmu 8 rfl rfl id⟩
  case ocppConnectionUrl => exact ⟨_, List.mem_cons_self, remaining_of_enabled hpmu 9 rfl rfl id⟩
  case chargerMode => exact ⟨_, List.mem_cons_self, remaining_of_enabled hpmu 10 rfl rfl id⟩
  case tariff => exact ⟨_, List.mem_cons_self, remaining_of_enabled hpmu 11 rfl rfl id⟩
  case eepromCommStatus => exact ⟨_, List.mem_cons_self, remaining_of_enabled hpmu 12 rfl rfl id⟩
  case rtcCommStatus => exact ⟨_, List.mem_cons_self, remaining_of_enabled hpmu 13 rfl rfl id⟩

/-- What a PMU that is not enabled puts into a message. -/
theorem rootFields_disabled (hpmu : c.pmuEnable ≠ 1) :
    rootFields flags c modules now = [⟨true, none, "timestamp".toList, .string (now.iso ++ ['Z'])⟩,
      flagField flags .pmuEnabled "pmuStatus" (.number c.pmuEnable)] := by
  rw [rootFields, if_neg hpmu]

theorem remaining_disabled (hpmu : c.pmuEnable ≠ 1) {flag : Flag} (hflag : flag ≠ .pmuEnabled) :
    (prepareMqttSendConfigData flags c modules now).2 flag = flags flag := by
  have hcleared : flag ∉ clearedFlags flags c modules now := by
    rw [clearedFlags, if_neg hpmu, List.append_nil, cleared, rootFields_disabled hpmu]
    by_cases henabled : flags .pmuEnabled = true <;> simp [flagField, henabled, hflag]
  simp [prepareMqttSendConfigData, hcleared]

theorem getObjectItem_disabled (hpmu : c.pmuEnable ≠ 1) {name : CStr}
    (hname : ∀ other ∈ ["timestamp".toList, "pmuStatus".toList], Json.sameName other name = false) :
    (prepareMqttSendConfigData flags c modules now).1.getObjectItem name = none := by
  have hnone : (members (rootFields flags c modules now)).find? (fun m => Json.sameName m.1 name)
      = none := by
    rw [List.find?_eq_none]
    intro m hm
    rw [rootFields_disabled hpmu] at hm
    obtain ⟨field, hfield, rfl⟩ := List.mem_map.mp hm
    rcases List.mem_pair.mp (List.mem_of_mem_filter hfield) with rfl | rfl
    · exact Bool.eq_false_iff.mp (hname _ (List.mem_pair.mpr (.inl rfl)))
    · exact Bool.eq_false_iff.mp (hname _ (List.mem_pair.mpr (.inr rfl)))
  rw [prepareMqttSendConfigData, Json.getObjectItem, hnone]
  rfl

theorem find_disabled (hpmu : c.pmuEnable ≠ 1) (hitem : item ≠ .pmuStatus) :
    item.find (prepareMqttSendConfigData flags c modules now).1 = none := by
  cases item
  case pmuStatus => exact absurd rfl hitem
  case connector k item =>
    rw [find, findConnector, getObjectItem_disabled hpmu (by decide +kernel)]
    rfl
  case hmi | lcu | mcu | pcm =>
    rw [find, findVersion, getObjectItem_disabled hpmu (by decide +kernel)]
    rfl
  all_goals exact getObjectItem_disabled hpmu (by decide +kernel)

theorem find_pmuStatus_disabled (hpmu : c.pmuEnable ≠ 1) :
    pmuStatus.find (prepareMqttSendConfigData flags c modules now).1
      = if flags .pmuEnabled then some (pmuStatus.value ⟨c, modules⟩) else none := by
  have hnames : ((rootFields flags c modules now).map Field.name).Pairwise
      fun a b => Json.sameName a b = false := by
    rw [rootFields_disabled hpmu]
    simp only [List.map_cons, List.map_nil, flagField]
    decide +kernel
  have hfield : flagField flags .pmuEnabled "pmuStatus" (.number c.pmuEnable)
      ∈ rootFields flags c modules now := List.mem_cons_of_mem _ List.mem_cons_self
  exact getObjectItem_members hnames hfield

/-- A marked item is reported, or stays marked. -/
theorem reported_or_kept (hset : item.reading ⟨c, modules⟩ ≠ .limit fltMax) :
    item.find (prepareMqttSendConfigData flags c modules now).1 = some (item.value ⟨c, modules⟩)
      ∨ item.find (prepareMqttSendConfigData flags c modules now).1 = none
        ∧ (item.Marked flags → item.Marked (prepareMqttSendConfigData flags c modules now).2) := by
  have hpresent : item.present flags c = true ↔ item.Marked flags := present_iff hset
  by_cases hpmu : c.pmuEnable = 1
  · rw [find_eq hpmu]
    by_cases hmarked : item.Marked flags
    · exact .inl (if_pos (hpresent.mpr hmarked))
    · exact .inr ⟨if_neg (mt hpresent.mp hmarked), fun h => absurd h hmarked⟩
  · by_cases hitem : item = .pmuStatus
    · subst hitem
      by_cases hflag : flags .pmuEnabled = true
      · exact .inl ((find_pmuStatus_disabled hpmu).trans (if_pos hflag))
      · exact .inr ⟨(find_pmuStatus_disabled hpmu).trans (if_neg hflag),
          fun h => absurd (h _ List.mem_cons_self) hflag⟩
    · refine .inr ⟨find_disabled hpmu hitem, fun hmarked flag hflag => ?_⟩
      have hother : flag ≠ .pmuEnabled := by
        cases item
        case pmuStatus => exact absurd rfl hitem
        case connector k item =>
          have hk : k = 0 ∨ k = 1 := by omega
          rcases hk with rfl | rfl <;> cases item <;>
            (rcases (by simpa [marks, ConnectorItem.mark] using hflag) with rfl | rfl | rfl <;> decide)
        all_goals
          rintro rfl
          simp [marks] at hflag
      rw [remaining_disabled hpmu hother]
      exact hmarked flag hflag

end Messages

end Item

namespace ConfigMirror

/-! ### Runs -/

section Runs

variable {s s' : ConfigMirror} {item : Item}

theorem checked_flagConfig (flag : Flag) : s.checked.flagConfig flag
    = (s.changes.flagConfig flag || raisedFlags s.mqtt s.ipc flag) := by
  rw [checked, raisedFlags, checkConfigDataChanges, checkConfigDataChanges, flagConfig_foldl,
    flagConfig_foldl, Bool.false_or]

theorem isConfigurationChanged_foldl (rows : List Check) (changes : Changes) :
    (rows.foldl Check.run changes).isConfigurationChanged
      = (changes.isConfigurationChanged || rows.any Check.differs) := by
  induction rows generalizing changes with
  | nil => simp
  | cons c rows ih =>
      rw [List.foldl_cons, ih, Check.run, List.any_cons]
      cases hdiffers : c.differs with
      | false => simp
      | true => simp

theorem foldl_same {rows : List Check} (hrows : ∀ c ∈ rows, c.differs = false) (changes : Changes) :
    rows.foldl Check.run changes = changes := by
  induction rows generalizing changes with
  | nil => rfl
  | cons c rows ih =>
      rw [List.foldl_cons, Check.run, hrows c List.mem_cons_self, if_neg Bool.false_ne_true]
      exact ih (fun c hc => hrows c (List.mem_cons_of_mem _ hc)) changes

/-- A check that finds nothing leaves the marks, and the two copies agree on all items. -/
theorem Same.checked (h : s.Same) : s.checked = s.changes := foldl_same h s.changes

theorem Same.reading (h : s.Same) (hitem : item.Mirrored) (hset : item.reading s.ipc ≠ .limit fltMax) :
    item.reading s.ipc = item.reading s.mqtt := by
  by_contra hdiffers
  have hmarked := Item.marked_of_differs hitem hset hdiffers
  obtain ⟨flag, hflag⟩ := List.exists_mem_of_ne_nil item.marks Item.marks_ne_nil
  have hraised := hmarked flag hflag
  rw [raisedFlags, checkConfigDataChanges, foldl_same h] at hraised
  cases hraised

/-- What holds in every calm run. -/
structure Mirrors (s : ConfigMirror) : Prop where
  told : ∀ item : Item, item.Mirrored → item.reading s.mqtt ≠ .limit fltMax →
    ¬ item.Marked s.changes.flagConfig → s.known item = some (item.value s.mqtt)
  asked : s.configData = false ∨ s.building = true → s.mqtt.config.pmuEnable = 1 →
    ∀ item : Item, item.Mirrored → item.reading s.mqtt ≠ .limit fltMax →
      ¬ item.Marked s.changes.flagConfig
  first : s.messages = [] →
    (∀ flag, s.changes.flagConfig flag = true) ∧ s.configData = true ∧ s.building = false
  unchanged : s.changes.isConfigurationChanged = false

@[simp] theorem copy_mqtt : s.copy.mqtt = s.ipc := by
  rw [copy]
  split <;> rfl

@[simp] theorem copy_messages : s.copy.messages = s.messages := by
  rw [copy]
  split <;> rfl

@[simp] theorem copy_building : s.copy.building = s.building := by
  rw [copy]
  split <;> rfl

@[simp] theorem copy_flagConfig : s.copy.changes.flagConfig = s.compared.flagConfig := by
  rw [copy]
  split <;> rfl

theorem copy_configData :
    s.copy.configData = (s.configData || s.compared.isConfigurationChanged) := by
  rw [copy]
  split
  · rename_i hchanged
    rw [show s.compared.isConfigurationChanged = true from hchanged, Bool.or_true]
  · rename_i hchanged
    rw [Bool.eq_false_iff.mpr (show s.compared.isConfigurationChanged ≠ true from hchanged),
      Bool.or_false]

theorem copy_unchanged : s.copy.changes.isConfigurationChanged = false := by
  rw [copy]
  split
  · rfl
  · rename_i hchanged
    exact Bool.eq_false_iff.mpr hchanged

/-- A copy that finds nothing changes nothing of what is known. -/
theorem Mirrors.copy_same (h : s.Mirrors) (hsame : s.Same) : s.copy.Mirrors := by
  have hcompared : s.compared = s.changes := by
    rw [compared, hsame.checked, ite_self]
  have hpmu : s.ipc.config.pmuEnable = s.mqtt.config.pmuEnable := by
    have hreading : Item.pmuStatus.reading s.ipc = Item.pmuStatus.reading s.mqtt :=
      hsame.reading ⟨trivial, by simp⟩ (by simp [Item.reading])
    simpa [Item.reading, Fin.ext_iff] using hreading
  refine ⟨fun item hitem hset hmarked => ?_, fun hasked henabled item hitem hset => ?_, fun hnone => ?_,
    copy_unchanged⟩
  · rw [copy_mqtt] at hset ⊢
    rw [copy_flagConfig, hcompared] at hmarked
    have hreading := hsame.reading hitem hset
    rw [Item.value_congr hitem.2 hreading, known, copy_messages]
    exact h.told item hitem (hreading ▸ hset) hmarked
  · rw [copy_mqtt] at hset henabled
    rw [copy_configData, copy_building, hcompared, h.unchanged, Bool.or_false] at hasked
    rw [copy_flagConfig, hcompared]
    exact h.asked hasked (hpmu ▸ henabled) item hitem (hsame.reading hitem hset ▸ hset)
  · rw [copy_messages] at hnone
    obtain ⟨hflags, hask, hbuilding⟩ := h.first hnone
    rw [copy_flagConfig, hcompared, copy_configData, hask, copy_building]
    exact ⟨hflags, Bool.true_or _, hbuilding⟩

/-- Before the first message everything stays marked. -/
theorem Mirrors.copy_first (h : s.Mirrors) (hexchanged : s.configDataExchanged = false)
    (hnone : s.messages = []) : s.copy.Mirrors := by
  have hcompared : s.compared = s.changes := by
    rw [compared, hexchanged, if_neg Bool.false_ne_true]
  obtain ⟨hflags, hask, hbuilding⟩ := h.first hnone
  have hask' : s.copy.configData = true := by rw [copy_configData, hask, Bool.true_or]
  refine ⟨fun item _ _ hmarked => ?_, fun hasked => ?_, fun _ => ?_, copy_unchanged⟩
  · rw [copy_flagConfig, hcompared] at hmarked
    exact absurd (fun flag _ => hflags flag) hmarked
  · rw [hask', copy_building, hbuilding] at hasked
    simp at hasked
  · rw [copy_flagConfig, hcompared, copy_building]
    exact ⟨hflags, hask', hbuilding⟩

/-- A change that is found is marked, and a message is asked for. -/
theorem Mirrors.copy_exchanged (h : s.Mirrors) (hexchanged : s.configDataExchanged = true)
    (hbuilding : s.building = false) : s.copy.Mirrors := by
  by_cases hsame : s.Same
  · exact h.copy_same hsame
  have hcompared : s.compared = s.checked := by
    rw [compared, hexchanged, if_pos rfl]
  have hraised : ∀ flag, s.compared.flagConfig flag
      = (s.changes.flagConfig flag || raisedFlags s.mqtt s.ipc flag) := by
    rw [hcompared]
    exact checked_flagConfig
  have hask : s.copy.configData = true := by
    have hdiffers : ∃ c ∈ checks s.mqtt.config s.ipc.config s.mqtt.modules s.ipc.modules,
        c.differs = true := by
      simpa [Same] using hsame
    have hchanged : s.compared.isConfigurationChanged = true := by
      rw [hcompared, checked, checkConfigDataChanges, isConfigurationChanged_foldl,
        List.any_eq_true.mpr hdiffers, Bool.or_true]
    rw [copy_configData, hchanged, Bool.or_true]
  refine ⟨fun item hitem hset hmarked => ?_, fun hasked => ?_, fun hnone => ?_, copy_unchanged⟩
  · rw [copy_mqtt] at hset ⊢
    rw [copy_flagConfig] at hmarked
    have hreading : item.reading s.ipc = item.reading s.mqtt := by
      by_contra hdiffers
      refine hmarked ((Item.marked_of_differs hitem hset hdiffers).mono fun flag hflag => ?_)
      rw [hraised, hflag, Bool.or_true]
    rw [Item.value_congr hitem.2 hreading, known, copy_messages]
    refine h.told item hitem (hreading ▸ hset) fun hbefore => ?_
    refine hmarked (hbefore.mono fun flag hflag => ?_)
    rw [hraised, hflag, Bool.true_or]
  · rw [hask, copy_building, hbuilding] at hasked
    simp at hasked
  · rw [copy_messages] at hnone
    refine ⟨fun flag => ?_, hask, ?_⟩
    · rw [copy_flagConfig, hraised, (h.first hnone).1 flag, Bool.true_or]
    · rw [copy_building, hbuilding]

/-- A message tells what is marked, and leaves no mark of an enabled PMU. -/
theorem Mirrors.build (h : s.Mirrors) (now : UtcTime) : (s.build now).Mirrors := by
  refine ⟨fun item hitem hset hmarked => ?_, fun _ hpmu item hitem hset => ?_, fun hnone => ?_,
    h.unchanged⟩
  · rw [known, ConfigMirror.build, latest_snoc]
    rcases @Item.reported_or_kept s.changes.flagConfig _ _ now item hset with
      hreported | ⟨hnone, hkept⟩
    · rw [hreported]
      rfl
    · rw [hnone, Option.none_or]
      exact h.told item hitem hset (mt hkept hmarked)
  · exact Item.not_marked_remaining hpmu hset
  · exact absurd hnone (by simp [ConfigMirror.build])

theorem Mirrors.step (h : s.Mirrors) {e : Event} (hcalm : Calm e s)
    (hstep : ConfigMirror.step e s = some s') : s'.Mirrors := by
  cases e with
  | arrive c => exact Option.some.inj hstep ▸ ⟨h.told, h.asked, h.first, h.unchanged⟩
  | copy =>
      obtain rfl := Option.some.inj hstep
      rcases hcalm with ⟨hbuilding, hexchanged⟩ | hsame
      · cases hacknowledged : s.configDataExchanged with
        | true => exact h.copy_exchanged hacknowledged hbuilding
        | false =>
            exact h.copy_first hacknowledged (hexchanged.resolve_left (by simp [hacknowledged]))
      · exact h.copy_same hsame
  | build ready now =>
      rw [ConfigMirror.step] at hstep
      split at hstep
      · cases hstep
      · split at hstep
        · exact Option.some.inj hstep ▸ h.build now
        · exact Option.some.inj hstep ▸ h
  | finish =>
      rw [ConfigMirror.step] at hstep
      split at hstep
      · rename_i hbuilding
        obtain rfl := Option.some.inj hstep
        refine ⟨h.told, fun _ => h.asked (.inr hbuilding), fun hnone => ?_, h.unchanged⟩
        rw [(h.first hnone).2.2] at hbuilding
        cases hbuilding
      · cases hstep
  | acknowledged => exact Option.some.inj hstep ▸ ⟨h.told, h.asked, h.first, h.unchanged⟩

theorem powerOn_mirrors (ipc mqtt : Configuration) : (powerOn ipc mqtt).Mirrors where
  told := fun _ _ _ hmarked => absurd (fun _ _ => rfl) hmarked
  asked := fun hasked => by simp [powerOn] at hasked
  first := fun _ => ⟨fun _ => rfl, rfl, rfl⟩
  unchanged := rfl

/-- After a calm run, while no message is asked for, the messages of an enabled PMU have told every item
as it is now. -/
theorem messages_mirror_configuration {ipc mqtt : Configuration} {events : List Event}
    (hcalm : Runs.Meets step Calm events (powerOn ipc mqtt))
    (hrun : Runs.run step events (powerOn ipc mqtt) = some s) (hasked : s.configData = false)
    (hpmu : s.mqtt.config.pmuEnable = 1) (item : Item) (hitem : item.Mirrored)
    (hset : item.reading s.mqtt ≠ .limit fltMax) : s.known item = some (item.value s.mqtt) := by
  have hmirrors : s.Mirrors := Runs.run_invariant
    (fun e s₁ s₂ h hcalm hstep => Mirrors.step h hcalm hstep) (powerOn_mirrors ipc mqtt) hcalm hrun
  exact hmirrors.told item hitem hset (hmirrors.asked (.inl hasked) hpmu item hitem hset)

/-- A limit changes after the first message. -/
def renewal : List Event :=
  [.build true morning, .finish, .acknowledged, .arrive (limited 30 20), .copy, .build true morning,
    .finish]

theorem renewal_is_mirrored :
    (Runs.run step renewal (powerOn plain plain)).map (fun s => s.known (.connector 1 .powerLimit))
      = some (some (rounded 30)) := by
  have hrun : ∃ s, Runs.run step renewal (powerOn plain plain) = some s ∧ s.configData = false
      ∧ s.mqtt = limited 30 20 := ⟨_, rfl, rfl, copy_mqtt⟩
  have hcalm : Runs.Meets step Calm renewal (powerOn plain plain) := by
    refine ⟨trivial, fun s₁ h₁ => ⟨trivial, fun s₂ h₂ => ⟨trivial, fun s₃ h₃ =>
      ⟨trivial, fun s₄ h₄ => ?_⟩⟩⟩⟩
    obtain rfl := Option.some.inj h₁
    obtain rfl := Option.some.inj h₂
    obtain rfl := Option.some.inj h₃
    obtain rfl := Option.some.inj h₄
    exact ⟨.inl ⟨rfl, .inl rfl⟩, fun _ _ => ⟨trivial, fun _ _ => ⟨trivial, fun _ _ => trivial⟩⟩⟩
  obtain ⟨s, hrun, hasked, hmqtt⟩ := hrun
  have hset : (Item.connector 1 .powerLimit).reading (limited 30 20) ≠ .limit fltMax := by
    decide +kernel
  rw [hrun, Option.map_some]
  refine congrArg some ((messages_mirror_configuration hcalm hrun hasked (hmqtt ▸ rfl)
    (.connector 1 .powerLimit) ⟨trivial, by simp⟩ (hmqtt ▸ hset)).trans ?_)
  rw [hmqtt]
  rfl

end Runs

end ConfigMirror

end Pmu
