import PmuFirmware.Lib.Run
import PmuFirmware.Inbound.Effect
import PmuFirmware.Queue.RetryDeletion
import PmuFirmware.Queue.Enqueueing

/-!
# The table of the connector files

`fileNameConnector` is allocated when the configuration message is prepared, with one element for
each connector known at that time. The functions of the queue index it later with other bounds: the
number of connectors that has been copied since, `NO_OF_CONNECTORS`, and the index of a file in a
list. The other modules of the queue take the table to be as long as the number of connectors; here
both are kept apart, and each call is listed with the elements it uses.
-/

namespace Pmu

open CLib

/-- The queue and the number of elements of `fileNameConnector`, which is `NULL` at first. -/
structure TableNode where
  queue : Store
  fileNameConnector : Option Nat

/-- The number of elements that can be used. -/
def TableNode.size (s : TableNode) : Nat := s.fileNameConnector.getD 0

/-- The pointer is not `NULL` and the index is that of an allocated element. -/
def InTable (table : Option Nat) (k : Nat) : Prop := ∃ n ∈ table, k < n

variable (parse : CStr → Option Json) (env : Env)

/-! ### The elements that the calls use -/

/-- `save_payload_to_spiffs` compares the path with those of all connectors. It returns at the one
that is equal where no room can be made for the entry. -/
def savedElements (f : QueueFile) (st : Store) : List Nat :=
  match f with
  | .connector k =>
    match makeRoom env f st with
    | some none => List.range (k + 1)
    | _ => List.range st.numConnectors
  | _ => []

/-- `create_faultLog_message`, which takes the path from the table. -/
def faultLogElements (record : FaultLog) (st : Store) : List Nat :=
  match faultLogFile record with
  | some (.connector k) => k :: savedElements env (.connector k) st
  | _ => []

/-- What `get_action_from_uuid` finds in one file. -/
def actionIn (uuid : CStr) (st : Store) (f : QueueFile) : Option CStr :=
  if 0 < st.entries f then searchUuidInFile parse env uuid f st else none

/-- The files that have names of their own. -/
def staticFiles : List QueueFile := [.request, .onlineCharger, .offlineCharger]

/-- `get_action_from_uuid` leaves the connector files out where there is no table. -/
def tableAction (uuid : CStr) (s : TableNode) : Option CStr :=
  match s.fileNameConnector with
  | none => staticFiles.findSome? (actionIn parse env uuid s.queue)
  | some _ => getActionFromUuid parse env uuid s.queue

/-- The first connector whose file holds the UUID. -/
def firstHolder (uuid : CStr) (st : Store) : Nat :=
  (List.range st.numConnectors).findIdx fun k => (actionIn parse env uuid st (.connector k)).isSome

/-- `get_action_from_uuid` goes through the connectors up to the first one whose file holds the
UUID. -/
def lookupElements (uuid : CStr) (s : TableNode) : List Nat :=
  match staticFiles.findSome? (actionIn parse env uuid s.queue), s.fileNameConnector with
  | none, some _ => List.range (min s.queue.numConnectors (firstHolder parse env uuid s.queue + 1))
  | _, _ => []

/-- Whether the entry that a response answers is deleted by `handle_fault_response_message`. -/
def DeletesFault (uuid : CStr) (deletes : Bool) (s : TableNode) : Prop :=
  deletes = true ∧ tableAction parse env uuid s = some faultInformation

instance (uuid : CStr) (deletes : Bool) (s : TableNode) :
    Decidable (DeletesFault parse env uuid deletes s) :=
  inferInstanceAs (Decidable (_ ∧ _))

/-- `handle_fault_response_message` reads the counters of all connectors, also after a match. -/
def answeredElements (uuid : CStr) (deletes : Bool) (s : TableNode) : List Nat :=
  lookupElements parse env uuid s
    ++ if DeletesFault parse env uuid deletes s then List.range s.queue.numConnectors else []

/-- `get_queued_fault_messages` and `search_and_delete_message_from_any_file` first collect the
paths. -/
def pathElements (st : Store) : List Nat := List.range (min st.numConnectors noOfConnectors)

/-- The connector whose counter is assigned. -/
def QueueFile.element : QueueFile → Option Nat
  | .connector k => some k
  | _ => none

/-- `search_and_delete_message_from_any_file` also assigns the counters with the indices of the
files it has searched. -/
def retryElements (message : CStr) (st : Store) : List Nat :=
  pathElements st
    ++ (searchAndDeleteMessageFromAnyFile env message st).assigned.filterMap QueueFile.element

/-! ### The calls -/

/-- The main loop copies the received configuration, `mqtt_task` prepares the configuration message
and saves requests and faults, a response is looked up and, where its payload is accepted, its entry
is deleted, and the main loop reads the fault files and gives up a message. -/
inductive TableCall
  | copied (numConnectors : Fin 16)
  | configData (allocated : Bool)
  | saved (payload : CStr)
  | faultLog (record : FaultLog) (payload : CStr)
  | answered (uuid : CStr) (deletes : Bool)
  | faultsRead
  | retried (message : CStr)

/-- The elements that a call uses. The loop in which `mqtt_task` counts the entries right after the
allocation is part of `configData`. -/
def TableCall.elements : TableCall → TableNode → List Nat
  | .copied _, _ => []
  | .configData _, _ => []
  | .saved _, _ => []
  | .faultLog record _, s => faultLogElements env record s.queue
  | .answered uuid deletes, s => answeredElements parse env uuid deletes s
  | .faultsRead, s => pathElements s.queue
  | .retried message, s => retryElements env message s.queue

/-- `initialize_file_names`, and the entries of the connector files counted. -/
def initializeFileNames (s : TableNode) : TableNode where
  fileNameConnector := some s.queue.numConnectors
  queue := { s.queue with
    entries := fun
      | .connector k =>
        if k < s.queue.numConnectors then
          UInt8.ofNat (countFileEntries (s.queue.disk (.queue (.connector k))))
        else s.queue.entries (.connector k)
      | f => s.queue.entries f }

/-- What a call does whose elements are all in the table. `mqtt_task` prepares the configuration
where there are connectors, and uses the table at once. -/
def TableCall.effect : TableCall → TableNode → Option TableNode
  | .copied numConnectors, s =>
    some { s with queue := { s.queue with numConnectors := numConnectors } }
  | .configData allocated, s =>
    if s.queue.numConnectors.val = 0 then some s
    else if allocated then some (initializeFileNames s)
    else none
  | .saved payload, s =>
    (savePayloadToSpiffs env .request payload s.queue).map fun queue => { s with queue := queue }
  | .faultLog record payload, s =>
    match faultLogFile record with
    | none => some s
    | some f =>
      (savePayloadToSpiffs env f payload s.queue).map fun queue => { s with queue := queue }
  | .answered uuid deletes, s =>
    match tableAction parse env uuid s with
    | none => some s
    | some action =>
      if deletes then
        (deleteAnswered parse env action uuid s.queue).map fun queue => { s with queue := queue }
      else some s
  | .faultsRead, s => some s
  | .retried message, s =>
    some { s with queue := (searchAndDeleteMessageFromAnyFile env message s.queue).st }

/-- Every element that the call uses is in the table. -/
def TableSafe (call : Env × TableCall) (s : TableNode) : Prop :=
  ∀ k ∈ call.2.elements parse call.1 s, InTable s.fileNameConnector k

/-- Behaviour is undefined after an access outside the table. -/
def TableCall.step : Env × TableCall → TableNode → Option TableNode
  | (env, call), s =>
    if ∀ k ∈ call.elements parse env s, k < s.size then call.effect parse env s
    else none

/-- The board before any configuration has been received. -/
def TableNode.start (disk : Path → Option CStr) : TableNode where
  queue :=
    { numConnectors := 0
      disk := disk
      entries := fun
        | .connector _ => 0
        | f => UInt8.ofNat (countFileEntries (disk (.queue f))) }
  fileNameConnector := none

/-! ### When the elements are in the table -/

/-- The UUID is in a file that has a name of its own or one in the table. -/
def FoundInTable (uuid : CStr) (s : TableNode) : Prop :=
  ∃ f, (f ∈ staticFiles ∨ ∃ k, k < s.size ∧ f = .connector k)
    ∧ (actionIn parse env uuid s.queue f).isSome = true

/-- The number of connectors must not have grown since the table was allocated, the player of a
fault must be one of its elements, and the files of the first two connectors may only be searched
where the table has elements for the two indices taken for theirs. -/
def TableCall.Fits : TableCall → TableNode → Prop
  | .copied _, _ => True
  | .configData _, _ => True
  | .saved _, _ => True
  | .faultLog record _, s => ∀ k, faultLogFile record = some (.connector k) →
      k < s.size ∧ (s.queue.numConnectors ≤ s.size
        ∨ makeRoom env (.connector k) s.queue = some none)
  | .answered uuid deletes, s =>
      (s.fileNameConnector = none ∨ s.queue.numConnectors ≤ s.size
        ∨ FoundInTable parse env uuid s)
      ∧ (DeletesFault parse env uuid deletes s → s.queue.numConnectors ≤ s.size)
  | .faultsRead, s => min (s.queue.numConnectors : Nat) noOfConnectors ≤ s.size
  | .retried _, s => min (s.queue.numConnectors : Nat) noOfConnectors ≤ s.size
      ∧ ∀ k : Nat, k < 2 → k < s.queue.numConnectors → Searched env s.queue (.connector k) →
        k + 3 < s.size

section Elements

variable {parse} {env} {s : TableNode}

theorem inTable_iff {k : Nat} : InTable s.fileNameConnector k ↔ k < s.size := by
  rw [InTable, TableNode.size]
  cases s.fileNameConnector with
  | none => simp
  | some n => simp

/-- A loop from zero uses only elements of the table when it has no more turns than elements. -/
theorem forall_range_inTable {count : Nat} :
    (∀ k ∈ List.range count, InTable s.fileNameConnector k) ↔ count ≤ s.size := by
  simp only [inTable_iff, List.mem_range]
  constructor
  · intro h
    by_contra hlt
    have hlast := h s.size (by omega)
    omega
  · intro h k hk
    omega

theorem forall_pathElements : (∀ k ∈ pathElements s.queue, InTable s.fileNameConnector k)
    ↔ min (s.queue.numConnectors : Nat) noOfConnectors ≤ s.size := forall_range_inTable

theorem forall_savedElements {k : Nat} (hk : k < s.size) :
    (∀ j ∈ savedElements env (.connector k) s.queue, InTable s.fileNameConnector j)
      ↔ s.queue.numConnectors ≤ s.size ∨ makeRoom env (.connector k) s.queue = some none := by
  rw [savedElements]
  split
  · rename_i hroom
    rw [forall_range_inTable]
    exact ⟨fun _ => .inr hroom, fun _ => hk⟩
  · rename_i hroom
    rw [forall_range_inTable]
    exact (or_iff_left hroom).symm

theorem forall_faultLogElements (record : FaultLog) :
    (∀ j ∈ faultLogElements env record s.queue, InTable s.fileNameConnector j)
      ↔ ∀ k, faultLogFile record = some (.connector k) → k < s.size
        ∧ (s.queue.numConnectors ≤ s.size ∨ makeRoom env (.connector k) s.queue = some none) := by
  rw [faultLogElements]
  split
  · rename_i k hfile
    rw [hfile, List.forall_mem_cons, inTable_iff]
    constructor
    · rintro ⟨hk, hsaved⟩ j hj
      obtain rfl : k = j := by simpa using hj
      exact ⟨hk, (forall_savedElements hk).mp hsaved⟩
    · intro h
      obtain ⟨hk, hsaved⟩ := h k rfl
      exact ⟨hk, (forall_savedElements hk).mpr hsaved⟩
  · rename_i hother
    simp only [List.not_mem_nil, false_implies, implies_true, true_iff]
    intro k hfile
    exact absurd hfile (hother k)

theorem firstHolder_lt_iff {uuid : CStr} {n : Nat} (hn : n < s.queue.numConnectors) :
    firstHolder parse env uuid s.queue < n
      ↔ ∃ k, k < n ∧ (actionIn parse env uuid s.queue (.connector k)).isSome = true := by
  rw [firstHolder]
  constructor
  · intro hlt
    refine ⟨_, hlt, ?_⟩
    have hhit := @List.findIdx_getElem _
      (fun k => (actionIn parse env uuid s.queue (.connector k)).isSome)
      (List.range s.queue.numConnectors) (by rw [List.length_range]; omega)
    rwa [List.getElem_range] at hhit
  · rintro ⟨k, hk, hhit⟩
    by_contra hle
    have hmiss := List.not_of_lt_findIdx (lt_of_lt_of_le hk (not_lt.mp hle))
    rw [List.getElem_range, hhit] at hmiss
    cases hmiss

/-- The UUID is found before the table ends, or all connectors are in the table. -/
theorem forall_lookupElements (uuid : CStr) :
    (∀ j ∈ lookupElements parse env uuid s, InTable s.fileNameConnector j)
      ↔ s.fileNameConnector = none ∨ s.queue.numConnectors ≤ s.size
        ∨ FoundInTable parse env uuid s := by
  rw [lookupElements]
  split
  · rename_i n hstatic htable
    rw [forall_range_inTable]
    have hfound : FoundInTable parse env uuid s
        ↔ ∃ k, k < s.size ∧ (actionIn parse env uuid s.queue (.connector k)).isSome = true := by
      constructor
      · rintro ⟨f, hf | ⟨k, hk, rfl⟩, hhit⟩
        · rw [List.findSome?_eq_none_iff] at hstatic
          rw [hstatic f hf] at hhit
          cases hhit
        · exact ⟨k, hk, hhit⟩
      · rintro ⟨k, hk, hhit⟩
        exact ⟨.connector k, .inr ⟨k, hk, rfl⟩, hhit⟩
    rw [hfound]
    rcases Nat.lt_or_ge s.size s.queue.numConnectors with hlt | hle
    · rw [← firstHolder_lt_iff hlt]
      simp only [htable, reduceCtorEq, false_or]
      omega
    · exact iff_of_true (by omega) (.inr (.inl hle))
  · rename_i hother
    refine iff_of_true (by simp) ?_
    cases htable : s.fileNameConnector with
    | none => exact .inl rfl
    | some n =>
        cases hstatic : staticFiles.findSome? (actionIn parse env uuid s.queue) with
        | none => exact absurd htable (hother n hstatic)
        | some action =>
            obtain ⟨f, hf, hhit⟩ := List.exists_of_findSome?_eq_some hstatic
            exact .inr (.inr ⟨f, .inl hf, by rw [hhit]; rfl⟩)

theorem forall_answeredElements (uuid : CStr) (deletes : Bool) :
    (∀ j ∈ answeredElements parse env uuid deletes s, InTable s.fileNameConnector j)
      ↔ (s.fileNameConnector = none ∨ s.queue.numConnectors ≤ s.size
          ∨ FoundInTable parse env uuid s)
        ∧ (DeletesFault parse env uuid deletes s → s.queue.numConnectors ≤ s.size) := by
  rw [answeredElements, List.forall_mem_append, forall_lookupElements]
  refine and_congr_right fun _ => ?_
  split
  · rename_i hfault
    rw [forall_range_inTable]
    exact ⟨fun h _ => h, fun h => h hfault⟩
  · rename_i hkept
    exact iff_of_true (by simp) fun hfault => absurd hfault hkept

/-- The third index after that of a connector's file stands for the file. -/
theorem mem_assigned_elements {message : CStr} {j : Nat} :
    j ∈ (searchAndDeleteMessageFromAnyFile env message s.queue).assigned.filterMap
        QueueFile.element
      ↔ ∃ k : Nat, k < 2 ∧ k < s.queue.numConnectors ∧ Searched env s.queue (.connector k)
        ∧ k + 3 = j := by
  have helement : ∀ f, QueueFile.element f = some j ↔ f = .connector j := by
    intro f
    cases f <;> simp [QueueFile.element]
  simp only [List.mem_filterMap, helement, exists_eq_right, mem_search_assigned]
  constructor
  · rintro ⟨i, g, hi, hcounter, hsearched⟩
    obtain ⟨k, hk, rfl⟩ : ∃ k, k < 2 ∧ i = k + 3 := by
      rcases i with _ | _ | _ | _ | _ | i
      all_goals simp [retryCounter] at hcounter
      · exact ⟨0, by omega, rfl⟩
      · exact ⟨1, by omega, rfl⟩
    obtain ⟨hlt, rfl⟩ := (retryFiles_connector s.queue).mp hi
    refine ⟨k, hk, lt_of_lt_of_le hlt (min_le_left _ _), hsearched, ?_⟩
    obtain rfl | rfl : k = 0 ∨ k = 1 := by omega
    · simpa [retryCounter] using hcounter
    · simpa [retryCounter] using hcounter
  · rintro ⟨k, hk, hlt, hsearched, rfl⟩
    have hfile := (retryFiles_connector s.queue).mpr ⟨lt_min hlt (show k < 3 by omega), rfl⟩
    refine ⟨k + 3, .connector k, hfile, ?_, hsearched⟩
    obtain rfl | rfl : k = 0 ∨ k = 1 := by omega
    · rfl
    · rfl

theorem forall_retryElements (message : CStr) :
    (∀ j ∈ retryElements env message s.queue, InTable s.fileNameConnector j)
      ↔ min (s.queue.numConnectors : Nat) noOfConnectors ≤ s.size
        ∧ ∀ k : Nat, k < 2 → k < s.queue.numConnectors → Searched env s.queue (.connector k) →
          k + 3 < s.size := by
  rw [retryElements, List.forall_mem_append, forall_pathElements]
  refine and_congr_right fun _ => ?_
  simp only [mem_assigned_elements, inTable_iff]
  constructor
  · intro h k hk hlt hsearched
    exact h (k + 3) ⟨k, hk, hlt, hsearched, rfl⟩
  · rintro h j ⟨k, hk, hlt, hsearched, rfl⟩
    exact h k hk hlt hsearched

/-- A call uses only elements of the table exactly when it fits. -/
theorem tableSafe_iff (call : Env × TableCall) :
    TableSafe parse call s ↔ call.2.Fits parse call.1 s := by
  obtain ⟨env, call⟩ := call
  cases call with
  | copied numConnectors => exact iff_of_true (fun k hk => by cases hk) trivial
  | configData allocated => exact iff_of_true (fun k hk => by cases hk) trivial
  | saved payload => exact iff_of_true (fun k hk => by cases hk) trivial
  | faultLog record payload => exact forall_faultLogElements record
  | answered uuid deletes => exact forall_answeredElements uuid deletes
  | faultsRead => exact forall_pathElements
  | retried message => exact forall_retryElements message

end Elements

/-! ### The counters

The elements listed are all that the model of the queue needs: no other counter changes. -/

section Counters

variable {parse} {env}

theorem makeRoom_entries {f g : QueueFile} {st st' : Store}
    (hroom : makeRoom env f st = some (some st')) (hg : g ≠ f) : st'.entries g = st.entries g := by
  rw [makeRoom] at hroom
  split at hroom
  · obtain ⟨⟨st₁, count⟩, hremove, hcount⟩ := Option.map_eq_some_iff.mp hroom
    obtain ⟨n, -, rfl⟩ := Option.map_eq_some_iff.mp hcount
    have hst₁ : st₁.entries = st.entries := by
      rw [removeOldestMessage] at hremove
      split at hremove
      · rw [← (Prod.mk.inj (Option.some.inj hremove)).1]
      · dsimp only at hremove
        split at hremove
        · obtain ⟨o, -, ho⟩ := Option.map_eq_some_iff.mp hremove
          rw [← (Prod.mk.inj ho).1]
          rfl
        · rw [← (Prod.mk.inj (Option.some.inj hremove)).1]
    simp [Store.setEntries, hg, hst₁]
  · rw [Option.some.inj (Option.some.inj hroom)]

theorem savePayloadToSpiffs_entries {f g : QueueFile} {payload : CStr} {st st' : Store}
    (hsave : savePayloadToSpiffs env f payload st = some st') (hg : g ≠ f) :
    st'.entries g = st.entries g := by
  obtain ⟨room, hroom, rfl⟩ := Option.map_eq_some_iff.mp hsave
  cases room with
  | none => rfl
  | some st₁ =>
      rw [← makeRoom_entries hroom hg]
      dsimp only
      split
      · rfl
      · split_ifs
        · simp [Store.setEntries, hg]
        · rfl
        · rfl

end Counters

/-- From power on, all accesses of a run are in the table exactly as long as every call fits it. -/
theorem connector_accesses_in_table_iff (calls : List (Env × TableCall))
    (disk : Path → Option CStr) :
    Runs.Meets (TableCall.step parse) (TableSafe parse) calls (.start disk)
      ↔ Runs.Meets (TableCall.step parse) (fun call s => call.2.Fits parse call.1 s) calls
        (.start disk) :=
  Runs.meets_iff (fun call _ (_ : True) => tableSafe_iff call) (fun _ _ _ _ _ _ => trivial) trivial

/-- A fault of the charger itself or of one of its players. -/
def playerFault (player : Nat) : FaultLog where
  faultType := 0
  player := player
  faultCode := 1
  occuranceDateTime := fun _ => NUL
  clearanceDateTime := fun _ => NUL
  faultLogDataExchanged := true

/-- A charger with two connectors reports a fault of a third player. -/
theorem third_player_is_outside : ¬ Runs.Meets (TableCall.step fun _ => none)
    (TableSafe fun _ => none)
    [(healthy, .copied 2), (healthy, .configData true),
      (healthy, .faultLog (playerFault 3) faultMessage)] (.start fun _ => none) := by
  intro h
  obtain ⟨n, hn, hlt⟩ := (((h.2 _ rfl).2 _ rfl).1 : TableSafe _ _ _) 2 List.mem_cons_self
  obtain rfl : 2 = n := Option.some.inj hn
  exact absurd hlt (lt_irrefl 2)

end Pmu
