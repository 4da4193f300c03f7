import PmuFirmware.Queue.Store
import PmuFirmware.Lib.Json

/-!
# Taking entries out of the queue files

Every function that deletes entries copies a file line by line into the temporary file and leaves
some lines out. They differ in the buffer they read with and in the lines they leave out; all of
them return the number of lines kept. `foldlM_pass` says once what such a copy does.

A `none` outside everything else is a write past the end of a fixed buffer.
-/

namespace Pmu

open CLib

variable (parse : CStr → Option Json)

/-! ### Copying a file -/

/-- The state of a copy: the text written so far, and the numbers of lines kept and left out. -/
structure Pass where
  temp : CStr
  kept : Nat
  deleted : Nat

namespace Pass

def start : Pass := ⟨[], 0, 0⟩

/-- `fputs(line, temp_file); fputs("\n", temp_file)` -/
def keep (p : Pass) (line : CStr) : Pass :=
  { p with temp := p.temp ++ line ++ [newline], kept := p.kept + 1 }

def delete (p : Pass) : Pass := { p with deleted := p.deleted + 1 }

/-- What has been copied once every line satisfying `keep` is kept. -/
def after (p : Pass) (keep : CStr → Bool) (lines : List CStr) : Pass where
  temp := p.temp ++ unlines (lines.filter keep)
  kept := p.kept + lines.countP keep
  deleted := p.deleted + lines.countP fun line => !keep line

theorem after_nil (p : Pass) (keep : CStr → Bool) : p.after keep [] = p := by
  simp [after]

theorem after_cons (p : Pass) (keep : CStr → Bool) (line : CStr) (lines : List CStr) :
    p.after keep (line :: lines)
      = (if keep line then p.keep line else p.delete).after keep lines := by
  by_cases hkeep : keep line = true
  · simp [after, Pass.keep, hkeep, Nat.add_comm, Nat.add_left_comm]
  · simp [after, Pass.delete, hkeep, Nat.add_comm 1, Nat.add_assoc]

end Pass

/-- A loop that treats every line as `keep` says copies exactly the lines that satisfy `keep`. -/
theorem foldlM_pass (step : Pass → CStr → Option Pass) (keep : CStr → Bool) {lines : List CStr}
    (hstep : ∀ line ∈ lines, ∀ p : Pass,
      step p (line ++ [newline]) = some (if keep line then p.keep line else p.delete)) (p : Pass) :
    (lines.map (· ++ [newline])).foldlM step p = some (p.after keep lines) := by
  induction lines generalizing p with
  | nil => simp [Pass.after_nil]
  | cons line lines ih =>
      rw [List.map_cons, List.foldlM_cons, hstep line (by simp)]
      have hrest := ih fun l hl => hstep l (by simp [hl])
      rw [Option.bind_eq_bind, Option.bind_some, hrest, Pass.after_cons]

theorem foldl_pass (step : Pass → CStr → Pass) (keep : CStr → Bool) {lines : List CStr}
    (hstep : ∀ line ∈ lines, ∀ p : Pass,
      step p (line ++ [newline]) = if keep line then p.keep line else p.delete) (p : Pass) :
    (lines.map (· ++ [newline])).foldl step p = p.after keep lines := by
  have hpass := foldlM_pass (fun p buffer => some (step p buffer)) keep
    (fun line hline p => congrArg some (hstep line hline p)) p
  rw [← Option.some_inj, ← hpass]
  exact (List.foldlM_pure (m := Option)).symm

/-! ### Deleting the entries of a request -/

/-- `extract_uuid_from_json_response` while `critical_retry_count` is below 3: the text of the
second element. -/
def extractUuidFromJsonResponse (json_response : CStr) : Option CStr :=
  ((parse json_response).bind fun json => json.getArrayItem 1).bind Json.valuestring

/-- One turn of the loop of `handle_response_message` and of `delete_fault_file_entry_by_uuid`. -/
def uuidLine (responseUuid : CStr) (p : Pass) (buffer : CStr) : Option Pass :=
  let line := cutAt (· == newline) buffer
  match strchr '|' line with
  | none => some (p.keep line)
  | some (message, _) =>
    if message.length < messageBuffer then
      if extractUuidFromJsonResponse parse message = some responseUuid then some p.delete
      else some (p.keep line)
    else none

/-- The body of `handle_response_message` and of `delete_fault_file_entry_by_uuid`, with
`char line[size]`; no pass is returned when a file could not be opened. -/
def deleteEntriesByUuid (env : Env) (size : Nat) (f : QueueFile) (responseUuid : CStr)
    (st : Store) : Option (Store × Option Pass) :=
  match st.openRead env f with
  | none => some (st, none)
  | some text =>
    if env.opensTemp f then
      ((readLines size text).foldlM (uuidLine parse responseUuid) Pass.start).map fun p =>
        (st.replace f p.temp, some p)
    else some (st, none)

/-- What a call that returns has done: nothing, or the file took the copied text. -/
theorem deleteEntriesByUuid_cases {env : Env} {size : Nat} {f : QueueFile} {responseUuid : CStr}
    {st : Store} {r : Store × Option Pass}
    (hrun : deleteEntriesByUuid parse env size f responseUuid st = some r) :
    r = (st, none) ∨ ∃ text p, st.openRead env f = some text
      ∧ (readLines size text).foldlM (uuidLine parse responseUuid) Pass.start = some p
      ∧ r = (st.replace f p.temp, some p) := by
  rw [deleteEntriesByUuid] at hrun
  cases hopen : st.openRead env f with
  | none =>
      rw [hopen] at hrun
      exact .inl (Option.some.inj hrun).symm
  | some text =>
      rw [hopen] at hrun
      dsimp only at hrun
      split at hrun
      · obtain ⟨p, hfold, hr⟩ := Option.map_eq_some_iff.mp hrun
        exact .inr ⟨text, p, rfl, hfold, hr.symm⟩
      · exact .inl (Option.some.inj hrun).symm

/-- `handle_response_message`: the number of entries left, or nothing for `-1`. -/
def handleResponseMessage (env : Env) (responseUuid : CStr) (st : Store) :
    Option (Store × Option Nat) :=
  (deleteEntriesByUuid parse env dequeMsgBuffer .request responseUuid st).map fun r =>
    (r.1, r.2.map Pass.kept)

/-- `delete_fault_file_entry_by_uuid`: the number of entries left and `found_match`. -/
def deleteFaultFileEntryByUuid (env : Env) (f : QueueFile) (responseUuid : CStr) (st : Store) :
    Option (Store × Option (Nat × Bool)) :=
  (deleteEntriesByUuid parse env dequeMsgBufferFault f responseUuid st).map fun r =>
    (r.1, r.2.map fun p => (p.kept, decide (0 < p.deleted)))

/-- The fault files in the order in which they are searched. -/
def Store.faultFiles (st : Store) : List QueueFile :=
  .onlineCharger :: .offlineCharger :: (List.range st.numConnectors).map .connector

theorem faultFiles_nodup (st : Store) : st.faultFiles.Nodup := by
  simp [Store.faultFiles, connectorFiles_nodup]

theorem faultFiles_hasCounter (st : Store) :
    ∀ f ∈ st.faultFiles, st.HasCounter f ∧ f.lineBuffer ≤ dequeMsgBufferFault := by
  intro f hf
  simp only [Store.faultFiles, List.mem_cons, List.mem_map, List.mem_range] at hf
  rcases hf with rfl | rfl | ⟨i, hi, rfl⟩
  · exact ⟨trivial, le_rfl⟩
  · exact ⟨trivial, le_rfl⟩
  · exact ⟨hi, le_rfl⟩

/-- One file of `handle_fault_response_message`, with `found_match` so far. -/
def faultResponseFile (env : Env) (responseUuid : CStr) (s : Store × Bool) (f : QueueFile) :
    Option (Store × Bool) :=
  if s.1.entries f ≠ 0 ∧ s.2 = false then
    (deleteFaultFileEntryByUuid parse env f responseUuid s.1).map fun r =>
      match r.2 with
      | none => (r.1, s.2)
      | some (count, foundMatch) => (r.1.setEntries f count, foundMatch)
  else some s

/-- The file is left alone, or rewritten, and then its counter is assigned. -/
theorem faultResponseFile_cases {env : Env} {responseUuid : CStr} {s s' : Store × Bool}
    {f : QueueFile} (hrun : faultResponseFile parse env responseUuid s f = some s') :
    s'.1 = s.1 ∨ ∃ p, deleteEntriesByUuid parse env dequeMsgBufferFault f responseUuid s.1
        = some (s.1.replace f p.temp, some p) ∧ s'.1 = (s.1.replace f p.temp).setEntries f p.kept := by
  rw [faultResponseFile] at hrun
  split at hrun
  · obtain ⟨r, hdelete, hr⟩ := Option.map_eq_some_iff.mp hrun
    obtain ⟨q, hq, rfl⟩ := Option.map_eq_some_iff.mp hdelete
    rcases deleteEntriesByUuid_cases parse hq with rfl | ⟨text, p, -, -, rfl⟩
    · exact .inl (by rw [← hr]; rfl)
    · exact .inr ⟨p, hq, by rw [← hr]; rfl⟩
  · exact .inl (by rw [← Option.some.inj hrun])

/-- Only the counter of the file at hand can change. -/
theorem faultResponseFile_entries {env : Env} {responseUuid : CStr} {s s' : Store × Bool}
    {f g : QueueFile} (hrun : faultResponseFile parse env responseUuid s f = some s') (hg : g ≠ f) :
    s'.1.entries g = s.1.entries g := by
  rcases faultResponseFile_cases parse hrun with hsame | ⟨p, -, hr⟩
  · rw [hsame]
  · rw [hr]
    exact Function.update_of_ne hg _ _

def handleFaultResponseMessage (env : Env) (responseUuid : CStr) (st : Store) : Option Store :=
  (st.faultFiles.foldlM (faultResponseFile parse env responseUuid) (st, false)).map Prod.fst

/-- What the readers take a stored message to be: its text before the first `|`. -/
def queuedMessage (message : CStr) : CStr := message.takeWhile (· != '|')

/-- The UUID by which a stored line is found. -/
def lineUuid (line : CStr) : Option CStr :=
  (strchr '|' line).bind fun p => extractUuidFromJsonResponse parse p.1

theorem strchr_entryLine (message : CStr) (t : UtcTime) :
    ∃ rest, strchr '|' (entryLine message t) = some (queuedMessage message, rest) := by
  by_cases hbar : '|' ∈ message
  · obtain ⟨p, hp⟩ := Option.ne_none_iff_exists'.mp fun h => strchr_eq_none.mp h hbar
    obtain ⟨hsplit, hnot⟩ := strchr_eq_some (a := p.1) (b := p.2) hp
    refine ⟨p.2 ++ '|' :: timestampText t, ?_⟩
    have hread : queuedMessage message = p.1 := by
      rw [queuedMessage, hsplit, List.takeWhile_append_of_pos]
      · simp
      · intro c hc
        simpa using fun h : c = '|' => hnot (h ▸ hc)
    rw [hread, entryLine, hsplit, List.append_assoc, List.cons_append, strchr_append hnot]
  · refine ⟨timestampText t, ?_⟩
    have hread : queuedMessage message = message := by
      rw [queuedMessage, List.takeWhile_eq_self_iff]
      intro c hc
      simpa using fun h : c = '|' => hbar (h ▸ hc)
    rw [hread, entryLine, strchr_append hbar]

theorem length_queuedMessage_le (message : CStr) :
    (queuedMessage message).length ≤ message.length :=
  (List.takeWhile_prefix _).length_le

theorem lineUuid_entryLine (message : CStr) (t : UtcTime) :
    lineUuid parse (entryLine message t)
      = extractUuidFromJsonResponse parse (queuedMessage message) := by
  obtain ⟨rest, hrest⟩ := strchr_entryLine message t
  rw [lineUuid, hrest]
  rfl

/-- The UUID by which the readers find an entry. -/
def Entry.uuid {f : QueueFile} (e : Entry f) : Option CStr :=
  extractUuidFromJsonResponse parse (queuedMessage e.message)

theorem uuidLine_line {f : QueueFile} (responseUuid : CStr) (e : Entry f) (p : Pass) :
    uuidLine parse responseUuid p (e.line ++ [newline])
      = some (if lineUuid parse e.line ≠ some responseUuid then p.keep e.line else p.delete) := by
  obtain ⟨rest, hrest⟩ := strchr_entryLine e.message e.time
  have hroom := lt_of_le_of_lt (length_queuedMessage_le e.message) e.message_lt
  rw [uuidLine, e.cutAt_line, Entry.line, lineUuid_entryLine, hrest]
  simp only [hroom, if_true]
  split <;> simp_all

/-- A copy of a file of entries, described by the entries kept. -/
theorem after_entries {f : QueueFile} (keep : CStr → Bool) (es : List (Entry f)) :
    Pass.start.after keep (es.map Entry.line)
      = ⟨fileText (es.filter fun e => keep e.line), (es.filter fun e => keep e.line).length,
          es.countP fun e => !keep e.line⟩ := by
  simp [Pass.after, Pass.start, fileText, List.filter_map, List.countP_eq_length_filter,
    Function.comp_def]

/-- `handle_response_message` and its sibling delete exactly the entries found under the UUID. -/
theorem deleteEntriesByUuid_eq {env : Env} {size : Nat} {f : QueueFile} {st : Store}
    {es : List (Entry f)} (hsize : f.lineBuffer ≤ size)
    (hopen : st.openRead env f = some (fileText es)) (htemp : env.opensTemp f = true)
    (responseUuid : CStr) :
    deleteEntriesByUuid parse env size f responseUuid st
      = some (st.replace f (fileText (es.filter fun e => e.uuid parse ≠ some responseUuid)),
          some ⟨fileText (es.filter fun e => e.uuid parse ≠ some responseUuid),
            (es.filter fun e => e.uuid parse ≠ some responseUuid).length,
            es.countP fun e => e.uuid parse = some responseUuid⟩) := by
  have hstep : ∀ line ∈ es.map Entry.line, ∀ p : Pass,
      uuidLine parse responseUuid p (line ++ [newline])
        = some (if decide (lineUuid parse line ≠ some responseUuid) then p.keep line
            else p.delete) := by
    intro line hline p
    obtain ⟨e, _, rfl⟩ := List.mem_map.mp hline
    simpa using uuidLine_line parse responseUuid e p
  have hpass := foldlM_pass (uuidLine parse responseUuid)
    (fun line => decide (lineUuid parse line ≠ some responseUuid)) hstep Pass.start
  rw [after_entries, List.map_map] at hpass
  have huuid : ∀ e : Entry f, lineUuid parse e.line = e.uuid parse := fun e =>
    lineUuid_entryLine parse e.message e.time
  simp only [huuid, ne_eq, decide_not, Bool.not_not] at hpass ⊢
  rw [deleteEntriesByUuid, hopen]
  simp only [htemp, if_true, readLines_fileText es hsize]
  exact congrArg (Option.map _) hpass

/-! ### Deleting the lines that contain a message -/

/-- One turn of the loop of `delete_line_if_found`. -/
def targetLine (target : CStr) (p : Pass) (buffer : CStr) : Pass :=
  let line := cutAt (fun c => c == '\r' || c == newline) buffer
  if strstr line target then p.delete else p.keep line

/-- `delete_line_if_found`: the number of lines kept, or nothing for `-1`. The file is replaced only
when a line was left out. -/
def deleteLineIfFound (env : Env) (f : QueueFile) (target : CStr) (st : Store) :
    Store × Option Nat :=
  match st.openRead env f with
  | none => (st, none)
  | some text =>
    if env.opensTemp f then
      let p := (readLines dequeMsgBuffer text).foldl (targetLine target) Pass.start
      if 0 < p.deleted then (st.replace f p.temp, some p.kept)
      else ((st.put f.temp p.temp).remove f.temp, some p.kept)
    else (st, none)

/-- The lines that `delete_line_if_found` sees in a file. -/
def searchedLines (text : CStr) : List CStr :=
  (readLines dequeMsgBuffer text).map (cutAt fun c => c == '\r' || c == newline)

theorem newline_not_mem_searchedLines {text line : CStr} (hline : line ∈ searchedLines text) :
    newline ∉ line := by
  obtain ⟨buffer, _, rfl⟩ := List.mem_map.mp hline
  intro hmem
  simpa using (List.mem_takeWhile_imp hmem)

theorem foldl_targetLine (target : CStr) (buffers : List CStr) (p : Pass) :
    buffers.foldl (targetLine target) p
      = p.after (fun line => !strstr line target)
          (buffers.map (cutAt fun c => c == '\r' || c == newline)) := by
  induction buffers generalizing p with
  | nil => simp [Pass.after_nil]
  | cons buffer buffers ih =>
      rw [List.foldl_cons, ih, List.map_cons, Pass.after_cons, targetLine]
      by_cases hfound :
        strstr (cutAt (fun c => c == '\r' || c == newline) buffer) target = true <;> simp [hfound]

/-- `delete_line_if_found` keeps the lines that do not contain the target, and leaves the file as it
is when all of them are kept. -/
theorem deleteLineIfFound_eq {env : Env} {f : QueueFile} {st : Store} {text : CStr} (target : CStr)
    (hopen : st.openRead env f = some text) (htemp : env.opensTemp f = true) :
    deleteLineIfFound env f target st
      = (if (searchedLines text).any fun line => strstr line target then
            st.replace f (unlines ((searchedLines text).filter fun line => !strstr line target))
          else (st.put f.temp (unlines (searchedLines text))).remove f.temp,
        some ((searchedLines text).countP fun line => !strstr line target)) := by
  rw [deleteLineIfFound, hopen]
  simp only [htemp, if_true, foldl_targetLine]
  rw [← searchedLines]
  by_cases hany : ((searchedLines text).any fun line => strstr line target) = true
  · have hpos : 0 < (Pass.start.after (fun line => !strstr line target)
        (searchedLines text)).deleted := by
      simpa [Pass.after, Pass.start, List.countP_pos_iff] using hany
    rw [if_pos hpos, if_pos hany]
    simp [Pass.after, Pass.start]
  · have hnone : ∀ line ∈ searchedLines text, strstr line target = false := by simpa using hany
    have hzero : ¬ 0 < (Pass.start.after (fun line => !strstr line target)
        (searchedLines text)).deleted := by
      simpa [Pass.after, Pass.start, List.countP_pos_iff] using hnone
    have hall : (searchedLines text).filter (fun line => !strstr line target)
        = searchedLines text := by
      simpa using hnone
    rw [if_neg hzero, if_neg hany]
    simp [Pass.after, Pass.start, hall]

end Pmu
