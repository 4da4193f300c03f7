import PmuFirmware.Messages.PeriodicData

/-!
# Which indices lie in the arrays

The arrays have ten modules, three connectors and two error codes, while both numbers can be up to 15
and an id can be any integer. The id of a controller is not compared with 0.
-/

namespace Pmu

open CLib

variable {c : Charger} {now : UtcTime}

/-! ### One builder at a time -/

theorem pcmPeriodicPayload_isSome_iff :
    (pcmPeriodicPayload c now).isSome = true ↔ c.config.numPCM.val ≤ maxPcmModule := by
  rw [pcmPeriodicPayload, createPCMAndComponentStatusPayloadJSON_isSome_iff, forall_lt_iff]

theorem readVersions_isSome_iff {modules : Fin maxPcmModule → PowerModuleData} {numPCM : Nat} :
    (readVersions modules numPCM).isSome = true ↔ numPCM ≤ maxPcmModule := by
  rw [readVersions, Option.isSome_map, forRange_isSome_iff]
  simp only [readArray_isSome_iff]
  exact forall_lt_iff

theorem checkedConfigDataChanges_isSome_iff {configIPC : ChargerConfig}
    {modulesIPC : Fin maxPcmModule → PowerModuleData} {s : Changes} :
    (checkedConfigDataChanges c configIPC modulesIPC s).isSome = true
      ↔ c.config.numPCM.val ≤ maxPcmModule := by
  have hreads : (checkedConfigDataChanges c configIPC modulesIPC s).isSome
      = ((readVersions modulesIPC c.config.numPCM).isSome
        && (readVersions c.modules c.config.numPCM).isSome) := by
    rw [checkedConfigDataChanges]
    cases readVersions modulesIPC c.config.numPCM <;>
      cases readVersions c.modules c.config.numPCM <;> rfl
  rw [hreads, Bool.and_eq_true, readVersions_isSome_iff, readVersions_isSome_iff, and_self]

theorem checkedSendConfigData_isSome_iff {flags : Flags} :
    (checkedSendConfigData c now flags).isSome = true
      ↔ (c.config.pmuEnable = 1 ∧ flags .versionInfoFlag ∧ flags .numPCMFlag →
        c.config.numPCM.val ≤ maxPcmModule) := by
  rw [checkedSendConfigData, Option.isSome_map, reportedModules]
  by_cases hversions : c.config.pmuEnable = 1 ∧ flags .versionInfoFlag ∧ flags .numPCMFlag
  · rw [if_pos hversions, forall_prop_of_true hversions, ← readVersions_isSome_iff]
  · rw [if_neg hversions]
    exact iff_of_true rfl fun h => absurd h hversions

/-- The other arrays of the connectors are as long as that of the controllers. -/
theorem connectorInfoJson_isSome_iff {k : Int} :
    (connectorInfoJson c k).isSome = true ↔ ControllerReadable c k := by
  rw [← commController_isSome_iff isErrorCode]
  constructor
  · intro h
    rw [connectorInfoJson] at h
    cases hcontroller : commController c isErrorCode k with
    | none => rw [hcontroller] at h; cases h
    | some controller => rfl
  · intro h
    obtain ⟨hzero, hlast⟩ := (commController_isSome_iff isErrorCode).mp h
    obtain ⟨controller, hcontroller⟩ := Option.isSome_iff_exists.mp h
    obtain ⟨n, rfl⟩ : ∃ n : Fin noOfConnectors, k = (n.val : Int) := by
      have hthree : k.toNat < 3 := by omega
      exact ⟨⟨k.toNat, hthree⟩, by show k = (k.toNat : Int); omega⟩
    have hread : ∀ {α : Type} (a : Fin noOfConnectors → α), readArray a (n.val : Int) = some (a n) :=
      fun a => readArray_eq_some_iff.mpr ⟨n, rfl, rfl⟩
    have hmeter : (dcMeterJson c.status n.val).isSome = true := by
      rw [dcMeterJson, hread, hread, hread, hread, hread, Option.bind_eq_bind, Option.bind_some]
      split <;> rfl
    obtain ⟨meter, hmeter⟩ := Option.isSome_iff_exists.mp hmeter
    rw [connectorInfoJson, hcontroller, hread, hread, hmeter]
    split <;> rfl

theorem chargerPeriodicDataPayload_isSome_iff :
    (chargerPeriodicDataPayload c now).isSome = true
      ↔ (c.status.mcuComm = fine → ConnectorsReadable c) := by
  rw [chargerPeriodicDataPayload]
  by_cases hfine : c.status.mcuComm = fine
  · rw [if_pos hfine, forall_prop_of_true hfine, Option.isSome_map, forRange_isSome_iff,
      ← connectorsReadable_iff]
    simp only [connectorInfoJson_isSome_iff]
  · rw [if_neg hfine]
    exact iff_of_true rfl fun h => absurd h hfine

/-! ### All of them -/

/-- There is something to report for an id: all elements for 0, or the one before it. -/
def HasElement (c : Charger) (component id : Int) : Prop :=
  if component = 1 then 0 ≤ id ∧ id ≤ c.config.numPCM.val ∧ id ≤ (maxPcmModule : Int)
  else if component = 2 then 0 ≤ id ∧ id ≤ c.numConnectors.val ∧ id ≤ (noOfConnectors : Int)
  else id = 0

/-- What the builders see beside the charger: the configuration and modules that have arrived, the
flags, and a request. -/
structure BuilderInput where
  configIPC : ChargerConfig
  modulesIPC : Fin maxPcmModule → PowerModuleData
  changes : Changes
  flags : Flags
  component : Int
  id : Int

/-- Every builder stays within the arrays, and an id without an element is not supported. -/
structure InBounds (c : Charger) (now : UtcTime) (r : BuilderInput) : Prop where
  componentStatus : (componentStatusAnswer c now r.component r.id).isSome = true
  unsupported : 1 ≤ r.component → r.component ≤ 4 → ¬ HasElement c r.component r.id →
    componentStatusAnswer c now r.component r.id = some (.error .idNotSupported)
  pcmPeriodic : (pcmPeriodicPayload c now).isSome = true
  chargerPeriodicData : (chargerPeriodicDataPayload c now).isSome = true
  sendConfigData : (checkedSendConfigData c now r.flags).isSome = true
  configDataChanges :
    (checkedConfigDataChanges c r.configIPC r.modulesIPC r.changes).isSome = true

/-- The numbers and the id fit the arrays that are read for them. -/
structure FitsArrays (c : Charger) (component id : Int) : Prop where
  modules : c.config.numPCM.val ≤ maxPcmModule
  periodic : c.status.mcuComm = fine → ConnectorsReadable c
  controllers : component = 2 → id = 0 → ConnectorsReadable c
  controller : component = 2 → id ≠ 0 → id ≤ c.numConnectors.val → ControllerReadable c (id - 1)

theorem FitsArrays.answerReadable {component id : Int} (h : FitsArrays c component id)
    (haccepted : Accepted c component id) : AnswerReadable c component id := by
  refine ⟨fun hcomponent => ?_, fun hcomponent => ?_, fun _ => h.modules⟩
  · split
    · exact h.modules
    · have hmodules := h.modules
      rcases haccepted with ⟨-, -, hle⟩ | ⟨hother, -⟩ | ⟨hother, -⟩ | ⟨hother, -⟩
      · have hle' : (c.config.numPCM.val : Int) ≤ (maxPcmModule : Int) := by exact_mod_cast hmodules
        exact hle.trans hle'
      all_goals exact absurd (hcomponent.symm.trans hother) (by decide)
  · split
    · rename_i hzero
      exact h.controllers hcomponent hzero
    · rename_i hzero
      rcases haccepted with ⟨hother, -⟩ | ⟨-, hle⟩ | ⟨hother, -⟩ | ⟨hother, -⟩
      · exact absurd (hcomponent.symm.trans hother) (by decide)
      · exact h.controller hcomponent hzero (hle.resolve_left hzero)
      all_goals exact absurd (hcomponent.symm.trans hother) (by decide)

/-- Where the arrays fit, the checks let through only ids with an element. -/
theorem FitsArrays.hasElement {component id : Int} (h : FitsArrays c component id)
    (haccepted : Accepted c component id) : HasElement c component id := by
  rw [HasElement]
  have hmodules : (c.config.numPCM.val : Int) ≤ (maxPcmModule : Int) := by exact_mod_cast h.modules
  rcases haccepted with ⟨rfl, hzero, hle⟩ | ⟨rfl, hid⟩ | ⟨rfl, hid⟩ | ⟨rfl, hid⟩
  · rw [if_pos rfl]
    exact ⟨hzero, hle, hle.trans hmodules⟩
  · rw [if_neg (by decide), if_pos rfl]
    by_cases hzero : id = 0
    · rw [hzero]
      exact ⟨le_rfl, Int.natCast_nonneg _, by decide⟩
    · have hle := hid.resolve_left hzero
      obtain ⟨hlow, hhigh⟩ := h.controller rfl hzero hle
      have hthree : id ≤ 3 := by omega
      exact ⟨by omega, hle, hthree⟩
  · rw [if_neg (by decide), if_neg (by decide)]
    exact hid
  · rw [if_neg (by decide), if_neg (by decide)]
    exact hid

/-- The builders stay within the arrays if and only if the numbers and the id fit them. -/
theorem builders_in_bounds_iff (c : Charger) (now : UtcTime) (r : BuilderInput) :
    InBounds c now r ↔ FitsArrays c r.component r.id := by
  constructor
  · intro h
    have hmodules := pcmPeriodicPayload_isSome_iff.mp h.pcmPeriodic
    have hreadable : Accepted c r.component r.id → AnswerReadable c r.component r.id :=
      fun haccepted => (componentStatusAnswer_isSome_iff haccepted).mp h.componentStatus
    refine ⟨hmodules, chargerPeriodicDataPayload_isSome_iff.mp h.chargerPeriodicData, ?_, ?_⟩
    · intro hcomponent hzero
      have hconnectors := (hreadable (.inr (.inl ⟨hcomponent, .inl hzero⟩))).connectors hcomponent
      rwa [if_pos hzero] at hconnectors
    · intro hcomponent hzero hle
      have hconnectors := (hreadable (.inr (.inl ⟨hcomponent, .inr hle⟩))).connectors hcomponent
      rwa [if_neg hzero] at hconnectors
  · intro h
    have hanswered : (componentStatusAnswer c now r.component r.id).isSome = true := by
      by_cases haccepted : Accepted c r.component r.id
      · exact (componentStatusAnswer_isSome_iff haccepted).mpr (h.answerReadable haccepted)
      · rw [componentStatusAnswer_rejected haccepted]
        rfl
    refine ⟨hanswered, fun hlow hhigh hnone => ?_, pcmPeriodicPayload_isSome_iff.mpr h.modules,
      chargerPeriodicDataPayload_isSome_iff.mpr h.periodic,
      checkedSendConfigData_isSome_iff.mpr fun _ => h.modules,
      checkedConfigDataChanges_isSome_iff.mpr h.modules⟩
    rw [componentStatusAnswer_rejected fun haccepted => hnone (h.hasElement haccepted), rejection,
      if_pos ⟨hlow, hhigh⟩]

/-- Nothing has changed, and the status of a controller is asked for. -/
def controllerInput (id : Int) : BuilderInput where
  configIPC := plainConfig
  modulesIPC := fun _ => reachedModule
  changes := ⟨false, 0, fun _ => false⟩
  flags := fun _ => false
  component := 2
  id := id

/-- A negative id passes the check for controllers. -/
theorem negative_id_is_read : ¬ InBounds (idleCharger 2 1) newYear (controllerInput (-1)) := by
  intro h
  have hread := h.componentStatus
  revert hread
  decide +kernel

end Pmu
