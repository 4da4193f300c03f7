import PmuFirmware.Queue.Dequeueing

/-!
# Reading the queue files

The readers take the first line of a file as the message to send next, and look a UUID up in all
files for the action of the request it belongs to. All of them split a line at its first `|`.
-/

namespace Pmu

open CLib

variable (parse : CStr → Option Json)

/-- `extract_action_from_json_response`: the text of the third element. -/
def extractActionFromJsonResponse (json_response : CStr) : Option CStr :=
  ((parse json_response).bind fun json => json.getArrayItem 2).bind Json.valuestring

/-- The loop of `search_uuid_in_file`: the action of the first line found under the UUID, which may
itself be missing. -/
def searchUuidInLines (uuid : CStr) : List CStr → Option (Option CStr)
  | [] => none
  | buffer :: buffers =>
    match strchr '|' (cutAt (· == newline) buffer) with
    | none => searchUuidInLines uuid buffers
    | some (message, _) =>
      if extractUuidFromJsonResponse parse message = some uuid then
        some (extractActionFromJsonResponse parse message)
      else searchUuidInLines uuid buffers

def searchUuidInFile (env : Env) (uuid : CStr) (f : QueueFile) (st : Store) : Option CStr :=
  (st.openRead env f).bind fun text =>
    (searchUuidInLines parse uuid (readLines totalLine text)).join

/-- All queue files, in the order in which a UUID is looked up. -/
def Store.queueFiles (st : Store) : List QueueFile := .request :: st.faultFiles

theorem mem_queueFiles {st : Store} {g : QueueFile} : g ∈ st.queueFiles ↔ st.HasCounter g := by
  cases g <;> simp [Store.queueFiles, Store.faultFiles, Store.HasCounter]

/-- `get_action_from_uuid`: files without entries are skipped. -/
def getActionFromUuid (env : Env) (uuid : CStr) (st : Store) : Option CStr :=
  st.queueFiles.findSome? fun f =>
    if 0 < st.entries f then searchUuidInFile parse env uuid f st else none

/-- The message in the first line of a file. -/
def firstMessage (text : CStr) : Option CStr :=
  (fgets totalLine text).map fun r =>
    queuedMessage (if r.1.getLast? = some newline then r.1.dropLast else r.1)

/-- What `is_message_important` is set to. -/
def messageImportance (message : CStr) : Nat :=
  if strstr message "\"ConfigurationData\"".toList then 1
  else if strstr message "\"ChargingSession\"".toList then 2
  else 0

/-- `get_queued_request_messages`: the message and its importance. -/
def getQueuedRequestMessages (env : Env) (st : Store) : Option (CStr × Nat) :=
  ((st.openRead env .request).bind firstMessage).map fun m => (m, messageImportance m)

/-- The files that `get_queued_fault_messages` goes through. -/
def Store.faultReadFiles (st : Store) : List QueueFile :=
  .onlineCharger :: .offlineCharger ::
    (List.range (min st.numConnectors noOfConnectors)).map .connector

/-- `get_queued_fault_messages`: the first message of the first file that is not empty. -/
def getQueuedFaultMessages (env : Env) (st : Store) : Option CStr :=
  st.faultReadFiles.findSome? fun f =>
    if env.stats f ∧ st.contents f ≠ [] then (st.openRead env f).bind firstMessage else none

/-! ### Reading entries -/

theorem bar_not_mem_queuedMessage (s : CStr) : '|' ∉ queuedMessage s := by
  intro h
  simpa using List.mem_takeWhile_imp h

theorem queuedMessage_eq_self {s : CStr} (hs : '|' ∉ s) : queuedMessage s = s := by
  rw [queuedMessage, List.takeWhile_eq_self_iff]
  intro c hc
  simpa using fun h : c = '|' => hs (h ▸ hc)

theorem queuedMessage_append_bar {s : CStr} (hs : '|' ∉ s) (rest : CStr) :
    queuedMessage (s ++ '|' :: rest) = s := by
  rw [queuedMessage, List.takeWhile_append_of_pos]
  · simp
  · intro c hc
    simpa using fun h : c = '|' => hs (h ▸ hc)

theorem queuedMessage_entryLine (message : CStr) (t : UtcTime) :
    queuedMessage (entryLine message t) = queuedMessage message := by
  by_cases hbar : '|' ∈ message
  · obtain ⟨p, hp⟩ := Option.ne_none_iff_exists'.mp fun h => strchr_eq_none.mp h hbar
    obtain ⟨hsplit, hnot⟩ := strchr_eq_some (a := p.1) (b := p.2) hp
    rw [entryLine, hsplit, List.append_assoc, List.cons_append, queuedMessage_append_bar hnot,
      queuedMessage_append_bar hnot]
  · rw [entryLine, queuedMessage_append_bar hbar, queuedMessage_eq_self hbar]

/-- The first line of a file of entries gives back its message, cut at the first `|`. -/
theorem firstMessage_entry {f : QueueFile} (e : Entry f) (rest : CStr) :
    firstMessage (e.line ++ newline :: rest) = some (queuedMessage e.message) := by
  rw [firstMessage, fgets_line e.newline_not_mem_line e.line_fits_totalLine.2]
  simp [Entry.line, queuedMessage_entryLine]

/-- The action an entry is found to have. -/
def Entry.action {f : QueueFile} (e : Entry f) : Option CStr :=
  extractActionFromJsonResponse parse (queuedMessage e.message)

theorem searchUuidInLines_entries {f : QueueFile} (uuid : CStr) (es : List (Entry f)) :
    searchUuidInLines parse uuid (es.map fun e => e.line ++ [newline])
      = (es.find? fun e => e.uuid parse = some uuid).map fun e => e.action parse := by
  induction es with
  | nil => rfl
  | cons e es ih =>
      obtain ⟨rest, hrest⟩ := strchr_entryLine e.message e.time
      rw [List.map_cons, searchUuidInLines, e.cutAt_line, Entry.line, hrest]
      by_cases huuid : e.uuid parse = some uuid
      · rw [List.find?_cons_of_pos (by simpa using huuid)]
        exact if_pos huuid
      · rw [List.find?_cons_of_neg (by simpa using huuid), ← ih]
        exact if_neg huuid

/-- Looking a UUID up in a file of entries finds the action of the first entry with that UUID. -/
theorem searchUuidInFile_entries {env : Env} {f : QueueFile} {st : Store} {es : List (Entry f)}
    (hopen : st.openRead env f = some (fileText es)) (uuid : CStr) :
    searchUuidInFile parse env uuid f st
      = (es.find? fun e => e.uuid parse = some uuid).bind fun e => e.action parse := by
  rw [searchUuidInFile, hopen, Option.bind_some, readLines_fileText es f.lineBuffer_le,
    searchUuidInLines_entries]
  cases es.find? fun e => e.uuid parse = some uuid <;> rfl

end Pmu
