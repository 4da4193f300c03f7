import PmuFirmware.Messages.PeriodicData

/-!
# Flags that are cleared on the way

`prepare_mqtt_send_config_data` clears the flag of an item when it has added the item. When an array or
an object cannot be created it returns without a message, and the flags that it has cleared by then stay
cleared. The other modules have it with no failures: this module says what it does up to a failure, and
that the two agree when there is none.
-/

namespace Pmu

open CLib

/-! ### What the message does to the flags -/

/-- What ends `prepare_mqtt_send_config_data` when it fails, and what is not undone then: the array or
object with a path is created, and a flag is cleared. -/
inductive ReportStep
  | create (path : List Nat)
  | clear (flag : Flag)

/-- Fields are added to the object with this path, and their flags cleared; `create` is what it takes to
create a field. -/
def fieldSteps (create : List Nat → Field → List ReportStep) (path : List Nat) (index : Nat) :
    List Field → List ReportStep
  | [] => []
  | field :: rest =>
    if field.present then
      create (index :: path) field ++ field.flag.toList.map .clear
        ++ fieldSteps create path (index + 1) rest
    else fieldSteps create path index rest

/-- The connectors are added to their array. -/
def connectorSteps (flags : Flags) (path : List Nat) (index : Nat) :
    List ConnectorReport → List ReportStep
  | [] => []
  | r :: rest =>
    .create (index :: path) :: (fieldSteps (fun _ _ => []) (index :: path) 0 (connectorFields flags r)
      ++ .clear r.flag :: connectorSteps flags path (index + 1) rest)

section ReportSteps

variable (flags : Flags) (c : ChargerConfig) (modules : Nat → PowerModule)

/-- The array for the power modules is the only version that is checked. -/
def versionSteps (path : List Nat) (field : Field) : List ReportStep :=
  if field.flag = some .numPCMFlag then [.create path] else []

def rootSteps (path : List Nat) (field : Field) : List ReportStep :=
  if field.flag = some .numConnectorsFlag then
    .create path :: connectorSteps flags path 0 (reportedConnectors flags c)
  else if field.flag = some .versionInfoFlag then
    .create path :: fieldSteps versionSteps path 0 (versionFields flags c modules)
  else []

/-- `prepare_mqtt_send_config_data`, as far as it can be ended. -/
def reportSteps (now : UtcTime) : List ReportStep :=
  .create [] :: fieldSteps (rootSteps flags c modules) [] 0 (rootFields flags c modules now)

/-- The flags that are cleared before a call fails. -/
def clearedBefore (fails : Json.BuildCall → Bool) : List ReportStep → List Flag
  | [] => []
  | .create path :: rest =>
    if fails (.createContainer path) then [] else clearedBefore fails rest
  | .clear flag :: rest => flag :: clearedBefore fails rest

/-- The flags that stay set. -/
def leftFlags (fails : Json.BuildCall → Bool) (now : UtcTime) : Flags := fun flag =>
  flags flag && decide (flag ∉ clearedBefore fails (reportSteps flags c modules now))

end ReportSteps

/-! ### The steps and the message -/

/-- The array or object that a call creates. -/
def createdContainer : Json.BuildCall → Option (List Nat)
  | .createContainer path => some path
  | .createValue _ => none
  | .addMember _ => none

def containers (calls : List Json.BuildCall) : List (List Nat) := calls.filterMap createdContainer

def ReportStep.created : ReportStep → Option (List Nat)
  | .create path => some path
  | .clear _ => none

/-- The arrays and objects that are created on the way. -/
def createdPaths (steps : List ReportStep) : List (List Nat) := steps.filterMap ReportStep.created

theorem mem_containers {path : List Nat} {calls : List Json.BuildCall} :
    path ∈ containers calls ↔ .createContainer path ∈ calls := by
  rw [containers, List.mem_filterMap]
  constructor
  · rintro ⟨call, hcall, hpath⟩
    cases call with
    | createContainer created => exact Option.some.inj hpath ▸ hcall
    | createValue created => cases hpath
    | addMember created => cases hpath
  · intro hcall
    exact ⟨_, hcall, rfl⟩

@[simp] theorem containers_append (calls later : List Json.BuildCall) :
    containers (calls ++ later) = containers calls ++ containers later := List.filterMap_append

@[simp] theorem createdPaths_append (steps later : List ReportStep) :
    createdPaths (steps ++ later) = createdPaths steps ++ createdPaths later :=
  List.filterMap_append

@[simp] theorem containers_createContainer (path : List Nat) (calls : List Json.BuildCall) :
    containers (.createContainer path :: calls) = path :: containers calls := rfl

@[simp] theorem containers_createValue (path : List Nat) :
    containers [.createValue path] = [] := rfl

@[simp] theorem containers_addMember (path : List Nat) (calls : List Json.BuildCall) :
    containers (.addMember path :: calls) = containers calls := rfl

@[simp] theorem createdPaths_create (path : List Nat) (steps : List ReportStep) :
    createdPaths (.create path :: steps) = path :: createdPaths steps := rfl

@[simp] theorem createdPaths_clear (flag : Flag) (steps : List ReportStep) :
    createdPaths (.clear flag :: steps) = createdPaths steps := rfl

@[simp] theorem createdPaths_map_clear (flags : List Flag) :
    createdPaths (flags.map .clear) = [] := by
  induction flags with
  | nil => rfl
  | cons flag rest ih => rw [List.map_cons, createdPaths_clear, ih]

/-- The fields of an object are created as its members are. -/
theorem createdPaths_fieldSteps {create : List Nat → Field → List ReportStep} {path : List Nat}
    {fields : List Field}
    (h : ∀ field ∈ fields, ∀ path,
      createdPaths (create path field) = containers (field.value.buildCalls path)) (index : Nat) :
    createdPaths (fieldSteps create path index fields)
      = containers (Json.memberCalls path index (members fields)) := by
  induction fields generalizing index with
  | nil => rfl
  | cons field rest ih =>
      rw [List.forall_mem_cons] at h
      rw [fieldSteps, members]
      cases hpresent : field.present with
      | false =>
          rw [List.filter_cons_of_neg (by simp [hpresent])]
          exact ih h.2 index
      | true =>
          rw [List.filter_cons_of_pos hpresent, List.map_cons, Json.memberCalls, if_pos rfl]
          simp only [createdPaths_append, createdPaths_map_clear, containers_append,
            containers_addMember, List.append_nil, h.1]
          rw [ih h.2 (index + 1), members]

/-- A field with a number or a text. -/
theorem containers_buildCalls_connectorFields (flags : Flags) (r : ConnectorReport) :
    ∀ field ∈ connectorFields flags r, ∀ path,
      createdPaths [] = containers (field.value.buildCalls path) := by
  simp only [connectorFields, List.forall_mem_cons, List.not_mem_nil, false_implies, implies_true,
    and_true]
  exact ⟨fun _ => rfl, fun _ => rfl, fun _ => rfl, fun _ => rfl, fun _ => rfl, fun _ => rfl,
    fun _ => rfl⟩

theorem createdPaths_connectorSteps (flags : Flags) (path : List Nat) (index : Nat)
    (connectors : List ConnectorReport) :
    createdPaths (connectorSteps flags path index connectors)
      = containers (Json.itemCalls path index (connectors.map fun r =>
          .object (members (connectorFields flags r)))) := by
  induction connectors generalizing index with
  | nil => rfl
  | cons r rest ih =>
      have hfields := @createdPaths_fieldSteps (fun _ _ => []) (index :: path) _
        (containers_buildCalls_connectorFields flags r) 0
      rw [connectorSteps, List.map_cons, Json.itemCalls, Json.buildCalls]
      simp only [createdPaths_create, createdPaths_append, createdPaths_clear, containers_append,
        containers_createContainer, hfields, ih, List.cons_append]

theorem containers_itemCalls_strings (path : List Nat) (index : Nat) (texts : List CStr) :
    containers (Json.itemCalls path index (texts.map .string)) = [] := by
  induction texts generalizing index with
  | nil => rfl
  | cons text rest ih =>
      rw [List.map_cons, Json.itemCalls, containers_append, ih]
      rfl

section Payload

variable (flags : Flags) (c : ChargerConfig) (modules : Nat → PowerModule) (now : UtcTime)

theorem containers_moduleVersions (path : List Nat) :
    containers ((moduleVersions c modules).buildCalls path) = [path] := by
  have hstrings := containers_itemCalls_strings path 0
    ((List.range c.numPCM).map fun i => moduleVersion (modules i))
  rw [List.map_map] at hstrings
  rw [moduleVersions, Json.buildCalls, containers_createContainer]
  exact congrArg (path :: ·) hstrings

theorem containers_buildCalls_versionFields :
    ∀ field ∈ versionFields flags c modules, ∀ path,
      createdPaths (versionSteps path field) = containers (field.value.buildCalls path) := by
  simp only [versionFields, List.forall_mem_cons, List.not_mem_nil, false_implies, implies_true,
    and_true]
  exact ⟨fun _ => rfl, fun _ => rfl, fun _ => rfl,
    fun path => (containers_moduleVersions c modules path).symm, fun _ => rfl⟩

theorem containers_connectorInfo (path : List Nat) :
    containers ((connectorInfo flags c).buildCalls path)
      = createdPaths (.create path :: connectorSteps flags path 0 (reportedConnectors flags c)) := by
  rw [connectorInfo, Json.buildCalls, containers_createContainer, createdPaths_create,
    createdPaths_connectorSteps]

theorem containers_versionInfo (path : List Nat) :
    containers ((Json.object (members (versionFields flags c modules))).buildCalls path)
      = createdPaths (.create path
          :: fieldSteps versionSteps path 0 (versionFields flags c modules)) := by
  rw [Json.buildCalls, containers_createContainer, createdPaths_create,
    createdPaths_fieldSteps (containers_buildCalls_versionFields flags c modules)]

theorem containers_buildCalls_rootFields :
    ∀ field ∈ rootFields flags c modules now, ∀ path,
      createdPaths (rootSteps flags c modules path field)
        = containers (field.value.buildCalls path) := by
  have henabled : ∀ field ∈ enabledFields flags c modules, ∀ path,
      createdPaths (rootSteps flags c modules path field)
        = containers (field.value.buildCalls path) := by
    simp only [enabledFields, List.forall_mem_cons, List.not_mem_nil, false_implies, implies_true,
      and_true]
    exact ⟨fun _ => rfl, fun _ => rfl, fun _ => rfl, fun _ => rfl,
      fun path => (containers_connectorInfo flags c path).symm,
      fun path => (containers_versionInfo flags c modules path).symm,
      fun _ => rfl, fun _ => rfl, fun _ => rfl, fun _ => rfl, fun _ => rfl, fun _ => rfl,
      fun _ => rfl, fun _ => rfl⟩
  simp only [rootFields, List.forall_mem_cons]
  refine ⟨fun _ => rfl, fun _ => rfl, fun field hfield => ?_⟩
  split at hfield
  · exact henabled field hfield
  · cases hfield

/-- The steps create the arrays and objects of the payload, in its order. -/
theorem createdPaths_reportSteps :
    createdPaths (reportSteps flags c modules now)
      = containers ((prepareMqttSendConfigData flags c modules now).1.buildCalls []) := by
  rw [reportSteps, prepareMqttSendConfigData, Json.buildCalls, containers_createContainer,
    createdPaths_create,
    createdPaths_fieldSteps (containers_buildCalls_rootFields flags c modules now)]

def ReportStep.cleared : ReportStep → Option Flag
  | .create _ => none
  | .clear flag => some flag

/-- The flags that are cleared if no call fails. -/
def clearedBy (steps : List ReportStep) : List Flag := steps.filterMap ReportStep.cleared

@[simp] theorem clearedBy_append (steps later : List ReportStep) :
    clearedBy (steps ++ later) = clearedBy steps ++ clearedBy later := List.filterMap_append

@[simp] theorem clearedBy_create (path : List Nat) (steps : List ReportStep) :
    clearedBy (.create path :: steps) = clearedBy steps := rfl

@[simp] theorem clearedBy_clear (flag : Flag) (steps : List ReportStep) :
    clearedBy (.clear flag :: steps) = flag :: clearedBy steps := rfl

@[simp] theorem clearedBy_map_clear (flags : List Flag) :
    clearedBy (flags.map .clear) = flags := by
  induction flags with
  | nil => rfl
  | cons flag rest ih => rw [List.map_cons, clearedBy_clear, ih]

theorem clearedBefore_eq {fails : Json.BuildCall → Bool} {steps : List ReportStep}
    (h : ∀ path ∈ createdPaths steps, fails (.createContainer path) = false) :
    clearedBefore fails steps = clearedBy steps := by
  induction steps with
  | nil => rfl
  | cons step rest ih =>
      cases step with
      | create path =>
          rw [createdPaths_create, List.forall_mem_cons] at h
          rw [clearedBefore, h.1, if_neg Bool.false_ne_true, clearedBy_create, ih h.2]
      | clear flag => rw [clearedBefore, clearedBy_clear, ih h]

theorem clearedBy_fieldSteps {create : List Nat → Field → List ReportStep}
    {inner : Field → List Flag} (h : ∀ path field, clearedBy (create path field) = inner field)
    (path : List Nat) (index : Nat) (fields : List Field) :
    clearedBy (fieldSteps create path index fields)
      = (fields.filter Field.present).flatMap fun field => inner field ++ field.flag.toList := by
  induction fields generalizing index with
  | nil => rfl
  | cons field rest ih =>
      rw [fieldSteps]
      cases hpresent : field.present with
      | false =>
          rw [List.filter_cons_of_neg (by simp [hpresent])]
          exact ih index
      | true =>
          rw [List.filter_cons_of_pos hpresent, List.flatMap_cons, if_pos rfl]
          simp only [clearedBy_append, clearedBy_map_clear, h, ih]

theorem cleared_eq_flatMap (fields : List Field) :
    cleared fields = (fields.filter Field.present).flatMap fun field => field.flag.toList := by
  rw [cleared, List.filterMap_eq_flatMap_toList]

theorem clearedBy_connectorSteps (path : List Nat) (index : Nat)
    (connectors : List ConnectorReport) :
    clearedBy (connectorSteps flags path index connectors)
      = connectors.flatMap fun r => cleared (connectorFields flags r) ++ [r.flag] := by
  induction connectors generalizing index with
  | nil => rfl
  | cons r rest ih =>
      have hfields := @clearedBy_fieldSteps (fun _ _ => []) (fun _ => []) (fun _ _ => rfl)
        (index :: path) 0 (connectorFields flags r)
      simp only [List.nil_append] at hfields
      rw [connectorSteps, clearedBy_create, clearedBy_append, clearedBy_clear, hfields,
        List.flatMap_cons, ih, cleared_eq_flatMap, List.append_assoc, List.singleton_append]

theorem clearedBy_versionFields (path : List Nat) :
    clearedBy (fieldSteps versionSteps path 0 (versionFields flags c modules))
      = cleared (versionFields flags c modules) := by
  have hnone : ∀ path field, clearedBy (versionSteps path field) = [] := by
    intro path field
    rw [versionSteps]
    split <;> rfl
  rw [clearedBy_fieldSteps hnone, cleared_eq_flatMap]
  rfl

/-- The flags inside of a field. -/
def innerFlags (field : Field) : List Flag :=
  if field.flag = some .numConnectorsFlag then
    (reportedConnectors flags c).flatMap fun r => cleared (connectorFields flags r) ++ [r.flag]
  else if field.flag = some .versionInfoFlag then cleared (versionFields flags c modules)
  else []

theorem clearedBy_rootSteps (path : List Nat) (field : Field) :
    clearedBy (rootSteps flags c modules path field) = innerFlags flags c modules field := by
  rw [rootSteps, innerFlags]
  split
  · rw [clearedBy_create, clearedBy_connectorSteps]
  · split
    · rw [clearedBy_create, clearedBy_versionFields]
    · rfl

theorem exists_innerFlags_enabledFields (flag : Flag) :
    (∃ field ∈ enabledFields flags c modules, field.present = true
        ∧ flag ∈ innerFlags flags c modules field)
      ↔ flags .numConnectorsFlag = true
          ∧ (∃ r ∈ reportedConnectors flags c, flag ∈ cleared (connectorFields flags r) ∨ flag = r.flag)
        ∨ flags .versionInfoFlag = true ∧ flag ∈ cleared (versionFields flags c modules) := by
  simp [enabledFields, innerFlags, flagField, limitField]

/-- Without a failure the flags are cleared that the message has. -/
theorem mem_clearedBy_reportSteps (flag : Flag) :
    flag ∈ clearedBy (reportSteps flags c modules now) ↔ flag ∈ clearedFlags flags c modules now := by
  have hroot : (∃ field ∈ rootFields flags c modules now, field.present = true
        ∧ flag ∈ innerFlags flags c modules field)
      ↔ c.pmuEnable = 1 ∧ ∃ field ∈ enabledFields flags c modules, field.present = true
        ∧ flag ∈ innerFlags flags c modules field := by
    simp only [rootFields, List.exists_mem_cons_iff]
    split
    · next hpmu => simp [hpmu, innerFlags, flagField]
    · next hpmu => simp [hpmu, innerFlags, flagField]
  have hsplit : flag ∈ clearedBy (reportSteps flags c modules now)
      ↔ flag ∈ cleared (rootFields flags c modules now)
        ∨ ∃ field ∈ rootFields flags c modules now, field.present = true
          ∧ flag ∈ innerFlags flags c modules field := by
    rw [reportSteps, clearedBy_create, clearedBy_fieldSteps (clearedBy_rootSteps flags c modules),
      cleared_eq_flatMap]
    simp only [List.mem_flatMap, List.mem_append, List.mem_filter, and_or_left, exists_or, and_assoc]
    exact or_comm
  rw [hsplit, hroot, exists_innerFlags_enabledFields, clearedFlags, List.mem_append]
  refine or_congr_right ?_
  split
  · next hpmu =>
      rw [and_iff_right hpmu, List.mem_append]
      refine or_congr ?_ ?_
      · split
        · next hconnectors => simp [hconnectors, or_comm]
        · next hconnectors => simp [hconnectors]
      · split
        · next hversions => simp [hversions]
        · next hversions => simp [hversions]
  · next hpmu => exact iff_of_false (fun h => hpmu h.1) List.not_mem_nil

/-- Without a failure the flags stay set that stay set with the whole message. -/
theorem leftFlags_complete {fails : Json.BuildCall → Bool}
    (h : ∀ call ∈ (prepareMqttSendConfigData flags c modules now).1.buildCalls [],
      fails call = false) :
    leftFlags flags c modules fails now = (prepareMqttSendConfigData flags c modules now).2 := by
  have hcreated : ∀ path ∈ createdPaths (reportSteps flags c modules now),
      fails (.createContainer path) = false := by
    rw [createdPaths_reportSteps]
    intro path hpath
    exact h _ (mem_containers.mp hpath)
  funext flag
  have hcleared := mem_clearedBy_reportSteps flags c modules now flag
  rw [leftFlags, clearedBefore_eq hcreated, prepareMqttSendConfigData]
  exact congrArg (flags flag && ·) (decide_eq_decide.mpr (not_congr hcleared))

end Payload

end Pmu
