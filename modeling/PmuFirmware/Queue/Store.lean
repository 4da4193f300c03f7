import PmuFirmware.Lib.TextFile
import PmuFirmware.Lib.Time

/-!
# The queue files

Outgoing messages wait in text files on the flash partition, one `message|timestamp` line each: the
request log, the two charger fault logs and one fault log for each connector. Beside each file the
firmware keeps an 8-bit count of its lines. A file is rewritten by copying the lines to keep into a
temporary file that then takes its name.
-/

namespace Pmu

open CLib

abbrev totalLine : Nat := 2048
abbrev maxQueueSize : Nat := 100
abbrev maxQueueSizeFault : Nat := 50
abbrev dequeMsgBuffer : Nat := 2048
abbrev dequeMsgBufferFault : Nat := 350
abbrev noOfConnectors : Nat := 3

/-- `connector i` is the file named by `fileNameConnector[i].logFilePath`. -/
inductive QueueFile
  | request
  | onlineCharger
  | offlineCharger
  | connector (i : Nat)
  deriving DecidableEq

inductive Path
  | queue (f : QueueFile)
  | tempRequest
  | tempFault
  deriving DecidableEq

/-- The temporary file in which a queue file is rewritten. -/
def QueueFile.temp : QueueFile → Path
  | .request => .tempRequest
  | _ => .tempFault

@[simp] theorem QueueFile.temp_ne_queue (f g : QueueFile) : f.temp ≠ .queue g := by
  cases f <;> simp [QueueFile.temp]

@[simp] theorem QueueFile.queue_ne_temp (f g : QueueFile) : Path.queue g ≠ f.temp :=
  (f.temp_ne_queue g).symm

/-- The number of lines above which a file is not allowed to grow. -/
def QueueFile.cap : QueueFile → Nat
  | .request => maxQueueSize
  | _ => maxQueueSizeFault

theorem QueueFile.cap_le (f : QueueFile) : f.cap ≤ 100 := by
  cases f <;> simp only [QueueFile.cap] <;> decide

/-- The line buffer of the function that dequeues from a file. -/
def QueueFile.lineBuffer : QueueFile → Nat
  | .request => dequeMsgBuffer
  | _ => dequeMsgBufferFault

theorem QueueFile.lineBuffer_le (f : QueueFile) : f.lineBuffer ≤ totalLine := by
  cases f <;> simp only [QueueFile.lineBuffer] <;> decide

theorem connectorFiles_nodup (n : Nat) : ((List.range n).map QueueFile.connector).Nodup :=
  List.Nodup.map (fun i j h => by simpa using h) List.nodup_range

/-- The files and their counters. `numConnectors` is the 4-bit field of `chargerConfigMQTT`, and
`fileNameConnector` has that many elements. -/
structure Store where
  numConnectors : Fin 16
  disk : Path → Option CStr
  entries : QueueFile → UInt8

/-- What the calls that can fail return during one operation. -/
structure Env where
  opensForReading : QueueFile → Bool
  opensTemp : QueueFile → Bool
  opensForAppending : Bool
  stats : QueueFile → Bool
  time : Option UtcTime
  timeLibrary : TimeLibrary

namespace Store

/-- A queue file with a counter: the connector files are those of the allocated array. -/
def HasCounter (st : Store) : QueueFile → Prop
  | .connector i => i < st.numConnectors
  | _ => True

instance (st : Store) : DecidablePred st.HasCounter := fun f =>
  match f with
  | .connector i => inferInstanceAs (Decidable (i < st.numConnectors))
  | .request | .onlineCharger | .offlineCharger => .isTrue trivial

/-- The text of a queue file; a file that does not exist has none. -/
def contents (st : Store) (f : QueueFile) : CStr := (st.disk (.queue f)).getD []

/-- The assignment to an 8-bit counter. -/
def setEntries (st : Store) (f : QueueFile) (count : Nat) : Store :=
  { st with entries := Function.update st.entries f (UInt8.ofNat count) }

def put (st : Store) (p : Path) (text : CStr) : Store :=
  { st with disk := Function.update st.disk p (some text) }

def remove (st : Store) (p : Path) : Store :=
  { st with disk := Function.update st.disk p none }

def rename (st : Store) (old new : Path) : Store :=
  { st with disk := Function.update (Function.update st.disk new (st.disk old)) old none }

/-- A queue file takes the text written to its temporary file. -/
def replace (st : Store) (f : QueueFile) (text : CStr) : Store :=
  ((st.put f.temp text).remove (.queue f)).rename f.temp (.queue f)

/-- `fopen` for reading: a missing file cannot be opened. -/
def openRead (st : Store) (env : Env) (f : QueueFile) : Option CStr :=
  if env.opensForReading f then st.disk (.queue f) else none

@[simp] theorem contents_setEntries (st : Store) (f g : QueueFile) (count : Nat) :
    (st.setEntries f count).contents g = st.contents g := rfl

theorem entries_setEntries (st : Store) (f g : QueueFile) (count : Nat) :
    ((st.setEntries f count).entries g).toNat
      = if g = f then count % 256 else (st.entries g).toNat := by
  by_cases hg : g = f <;> simp [setEntries, hg]

@[simp] theorem entries_replace (st : Store) (f : QueueFile) (text : CStr) :
    (st.replace f text).entries = st.entries := rfl

theorem disk_replace (st : Store) (f g : QueueFile) (text : CStr) :
    (st.replace f text).disk (.queue g) = if g = f then some text else st.disk (.queue g) := by
  by_cases hg : g = f <;> simp [replace, put, remove, rename, hg]

theorem contents_replace (st : Store) (f g : QueueFile) (text : CStr) :
    (st.replace f text).contents g = if g = f then text else st.contents g := by
  rw [contents, disk_replace]
  split <;> rfl

theorem contents_put (st : Store) (f g : QueueFile) (text : CStr) :
    (st.put (.queue f) text).contents g = if g = f then text else st.contents g := by
  by_cases hg : g = f <;> simp [contents, put, hg]

theorem contents_of_openRead {st : Store} {env : Env} {f : QueueFile} {text : CStr}
    (hopen : st.openRead env f = some text) : st.contents f = text := by
  rw [openRead] at hopen
  split at hopen
  · rw [contents, hopen]
    rfl
  · cases hopen

end Store

/-- `count_file_entries`: a file that cannot be opened counts as empty. -/
def countFileEntries (file : Option CStr) : Nat :=
  match file with
  | none => 0
  | some text => (readLines dequeMsgBuffer text).length % 256

def newYear : UtcTime :=
  ⟨2025, 1, 1, 0, 0, 0, 0, by decide, by decide, by decide, by decide, by decide, by decide,
    by decide⟩

/-- A board on which no call fails. -/
def healthy : Env := ⟨fun _ => true, fun _ => true, true, fun _ => true, some newYear, .posix false⟩

/-- A board on which only `f` holds anything, one line. -/
def alone (f : QueueFile) (text : CStr) : Store where
  numConnectors := 3
  disk p := if p = .queue f then some text else none
  entries g := if g = f then 1 else 0

theorem contents_alone (f g : QueueFile) (text : CStr) :
    (alone f text).contents g = if g = f then text else [] := by
  by_cases hg : g = f <;> simp [Store.contents, alone, hg]

def requestMessage : CStr := "[2,\"a1\",\"ConfigurationData\",\x7b\x7d]".toList

def faultMessage : CStr := "[2,\"b2\",\"FaultInformation\",\x7b\x7d]".toList

/-! ### Entries -/

/-- The text of `read_esp32_time`: the time with its milliseconds and a final `Z`. -/
def timestampText (t : UtcTime) : CStr := t.iso ++ '.' :: (pad 3 t.milli ++ ['Z'])

/-- The line that is appended for a message, without its newline. -/
def entryLine (message : CStr) (t : UtcTime) : CStr := message ++ '|' :: timestampText t

/-- `char message[DEQUE_MSG_BUFFER - 100]` -/
abbrev messageBuffer : Nat := dequeMsgBuffer - 100

/-- A line of a queue file that the functions reading the file have room for. -/
structure Entry (f : QueueFile) where
  message : CStr
  time : UtcTime
  clean : newline ∉ message ∧ NUL ∉ message
  message_lt : message.length < messageBuffer
  fits : (entryLine message time).length + 2 ≤ f.lineBuffer

def Entry.line {f : QueueFile} (e : Entry f) : CStr := entryLine e.message e.time

theorem length_timestampText (t : UtcTime) : (timestampText t).length = 24 := by
  simp [timestampText, length_iso]

theorem mem_timestampText {t : UtcTime} {c : Char} (hc : c ∈ timestampText t) :
    c ≠ '|' ∧ c ≠ newline ∧ c ≠ NUL := by
  have hpad : ∀ {width n : Nat}, c ∈ pad width n → c ≠ '|' ∧ c ≠ newline ∧ c ≠ NUL := by
    intro width n hmem
    obtain ⟨d, hd, rfl⟩ := mem_pad hmem
    exact (digit_spec d hd).2.2
  simp only [timestampText, UtcTime.iso, List.mem_append, List.mem_cons, List.not_mem_nil,
    or_false] at hc
  rcases hc with (h | rfl | h | rfl | h | rfl | h | rfl | h | rfl | h) | rfl | h | rfl
  all_goals first | exact hpad h | decide

theorem bar_not_mem_timestampText (t : UtcTime) : '|' ∉ timestampText t :=
  fun h => (mem_timestampText h).1 rfl

theorem clean_of_mem {s : CStr} (hs : newline ∉ s ∧ NUL ∉ s) {c : Char} (hc : c ∈ s) :
    (c == newline) = false ∧ c ≠ NUL :=
  ⟨beq_eq_false_iff_ne.mpr fun h => hs.1 (h ▸ hc), fun h => hs.2 (h ▸ hc)⟩

theorem entryLine_clean {message : CStr} (hmessage : newline ∉ message ∧ NUL ∉ message)
    (t : UtcTime) {c : Char} (hc : c ∈ entryLine message t) :
    (c == newline) = false ∧ c ≠ NUL := by
  rw [entryLine, List.mem_append, List.mem_cons] at hc
  rcases hc with hc | rfl | hc
  · exact clean_of_mem hmessage hc
  · decide
  · exact ⟨beq_eq_false_iff_ne.mpr (mem_timestampText hc).2.1, (mem_timestampText hc).2.2⟩

namespace Entry

variable {f : QueueFile}

theorem line_clean (e : Entry f) : ∀ c ∈ e.line, (c == newline) = false ∧ c ≠ NUL :=
  fun _ => entryLine_clean e.clean e.time

theorem newline_not_mem_line (e : Entry f) : newline ∉ e.line := by
  intro h
  simpa using (e.line_clean newline h).1

/-- The buffer of `remove_oldest_message` holds every line that the other readers hold. -/
theorem line_fits_totalLine (e : Entry f) : Fits totalLine e.line :=
  ⟨e.newline_not_mem_line, le_trans e.fits f.lineBuffer_le⟩

@[simp] theorem cutAt_line (e : Entry f) : cutAt (· == newline) (e.line ++ [newline]) = e.line :=
  cutAt_append_stop (e.line_clean) (by decide) []

end Entry

/-- The text of a queue file that holds the given entries. -/
def fileText {f : QueueFile} (es : List (Entry f)) : CStr := unlines (es.map Entry.line)

theorem lineCount_fileText {f : QueueFile} (es : List (Entry f)) :
    lineCount (fileText es) = es.length := by
  rw [fileText, lineCount_unlines, List.length_map]
  intro line hline
  obtain ⟨e, _, rfl⟩ := List.mem_map.mp hline
  exact e.newline_not_mem_line

theorem readLines_fileText {f : QueueFile} (es : List (Entry f)) {size : Nat}
    (hsize : f.lineBuffer ≤ size) :
    readLines size (fileText es) = es.map fun e => e.line ++ [newline] := by
  rw [fileText, readLines_unlines, List.map_map]
  · rfl
  · intro line hline
    obtain ⟨e, _, rfl⟩ := List.mem_map.mp hline
    exact ⟨e.newline_not_mem_line, le_trans e.fits hsize⟩

end Pmu
