import PmuFirmware.Lib.FileSystem
import PmuFirmware.Queue.Enqueueing

/-!
# Rewriting a queue file, call by call

Four functions replace a queue file by a copy without some of its lines. They make the same calls in
the same order: open the file, open the temporary file, read and write line by line, close both,
remove the file, rename the temporary file. `Rewriter` holds what they differ in, and `step` makes
the next call, which may fail. A failed write, removal or renaming goes unnoticed.
-/

namespace Pmu

open CLib

/-- What a rewriting function reads with, and which lines it keeps. A missing answer is a write past
the end of a fixed buffer. Only `remove_oldest_message` has a first pass, and only
`delete_line_if_found` leaves the file alone when no line was left out. -/
structure Rewriter where
  file : QueueFile
  size : Nat
  size_ge : 2 ≤ size
  stop : Char → Bool
  stop_newline : stop newline = true
  firstPass : Option (Oldest → CStr → Option Oldest)
  keeps : Oldest → CStr → Option Bool
  always : Bool

inductive FileCall
  | openSrc | openTemp | read | write | closeSrc | closeTemp | remove | rename | dropTemp
  deriving DecidableEq

/-- The next call, with the local variables it needs. -/
inductive Pc
  | openSrc
  | openTemp (src : Handle)
  | scan (src temp : Handle) (o : Oldest)
  | copy (src temp : Handle) (o : Oldest) (p : Pass)
  | write (src temp : Handle) (o : Oldest) (p : Pass) (line : CStr)
  | closeSrc (p : Pass)
  | closeTemp (p : Pass)
  | remove (p : Pass)
  | rename (p : Pass)
  | dropTemp (p : Pass)
  | done (result : Option Pass)
  | overrun

def Pc.call : Pc → Option FileCall
  | .openSrc => some .openSrc
  | .openTemp _ => some .openTemp
  | .scan .. => some .read
  | .copy .. => some .read
  | .write .. => some .write
  | .closeSrc _ => some .closeSrc
  | .closeTemp _ => some .closeTemp
  | .remove _ => some .remove
  | .rename _ => some .rename
  | .dropTemp _ => some .dropTemp
  | .done _ => none
  | .overrun => none

namespace Rewriter

variable (job : Rewriter)

def path : Path := .queue job.file

def temp : Path := job.file.temp

theorem path_ne_temp : job.path ≠ job.temp := by simp [path, temp]

/-- The line in a buffer: `line[strcspn(line, ...)] = 0`. -/
def lineOf (buffer : CStr) : CStr := cutAt job.stop buffer

/-- The lines the function sees in a file. -/
def lines (text : CStr) : List CStr := (readLines job.size text).map job.lineOf

def copyLine (o : Oldest) (p : Pass) (buffer : CStr) : Option Pass :=
  (job.keeps o (job.lineOf buffer)).map fun keep =>
    if keep then p.keep (job.lineOf buffer) else p.delete

/-- One call, which succeeds or fails. `Pass` counts what the function takes to be written. -/
def step (ok : Bool) (fs : FileSystem Path) : Pc → FileSystem Path × Pc
  | .openSrc =>
    match if ok then fs.openRead job.path else none with
    | none => (fs, .done none)
    | some src => (fs, .openTemp src)
  | .openTemp src =>
    if ok then
      let r := fs.openWrite job.temp
      (r.2, if job.firstPass.isSome then .scan src r.1 .start else .copy src r.1 .start .start)
    else (fs, .done none)
  | .scan src temp o =>
    match fs.gets job.size src with
    | none => (fs, .copy { src with pos := 0 } temp o .start)
    | some (buffer, src) =>
      match job.firstPass.bind fun scanLine => scanLine o buffer with
      | none => (fs, .overrun)
      | some o => (fs, .scan src temp o)
  | .copy src temp o p =>
    match fs.gets job.size src with
    | none => (fs, .closeSrc p)
    | some (buffer, src) =>
      match job.keeps o (job.lineOf buffer) with
      | none => (fs, .overrun)
      | some true => (fs, .write src temp o p (job.lineOf buffer))
      | some false => (fs, .copy src temp o p.delete)
  | .write src temp o p line =>
    let r := if ok then fs.puts temp (line ++ [newline]) else (temp, fs)
    (r.2, .copy src r.1 o (p.keep line))
  | .closeSrc p => (fs, .closeTemp p)
  | .closeTemp p => (fs, if job.always ∨ 0 < p.deleted then .remove p else .dropTemp p)
  | .remove p => (if ok then fs.remove job.path else fs, .rename p)
  | .rename p => (if ok then fs.rename job.temp job.path else fs, .done (some p))
  | .dropTemp p => (if ok then fs.remove job.temp else fs, .done (some p))
  | .done result => (fs, .done result)
  | .overrun => (fs, .overrun)

/-- The calls made so far with their outcomes, and the state they lead to. -/
inductive Run (fs₀ : FileSystem Path) : List (FileCall × Bool) → FileSystem Path → Pc → Prop
  | start : Run fs₀ [] fs₀ .openSrc
  | step {calls fs pc call} (ok : Bool) : Run fs₀ calls fs pc → pc.call = some call →
      Run fs₀ (calls ++ [(call, ok)]) (job.step ok fs pc).1 (job.step ok fs pc).2

/-! ### The four functions -/

variable (parse : CStr → Option Json)

/-- The test of the two functions that delete by UUID. -/
def keepsUuid (responseUuid line : CStr) : Option Bool :=
  match strchr '|' line with
  | none => some true
  | some (message, _) =>
    if message.length < messageBuffer then
      some (extractUuidFromJsonResponse parse message ≠ some responseUuid)
    else none

/-- `handle_response_message` -/
def handleResponseMessage (responseUuid : CStr) : Rewriter where
  file := .request
  size := dequeMsgBuffer
  size_ge := by decide
  stop := (· == newline)
  stop_newline := rfl
  firstPass := none
  keeps _ := keepsUuid parse responseUuid
  always := true

/-- `delete_fault_file_entry_by_uuid` -/
def deleteFaultFileEntryByUuid (f : QueueFile) (responseUuid : CStr) : Rewriter where
  file := f
  size := dequeMsgBufferFault
  size_ge := by decide
  stop := (· == newline)
  stop_newline := rfl
  firstPass := none
  keeps _ := keepsUuid parse responseUuid
  always := true

/-- `remove_oldest_message` -/
def removeOldestMessage (lib : TimeLibrary) (f : QueueFile) : Rewriter where
  file := f
  size := totalLine
  size_ge := by decide
  stop := (· == newline)
  stop_newline := rfl
  firstPass := some (oldestLine lib)
  keeps o line := some (line ≠ o.entry)
  always := true

/-- `delete_line_if_found` -/
def deleteLineIfFound (f : QueueFile) (target : CStr) : Rewriter where
  file := f
  size := dequeMsgBuffer
  size_ge := by decide
  stop c := c == '\r' || c == newline
  stop_newline := rfl
  firstPass := none
  keeps _ line := some (!strstr line target)
  always := false

/-! ### What a whole copy comes to -/

/-- The line found by the first pass. -/
def oldest (text : CStr) : Option Oldest :=
  match job.firstPass with
  | none => some .start
  | some scanLine => (readLines job.size text).foldlM scanLine .start

def pass (text : CStr) : Option Pass :=
  (job.oldest text).bind fun o => (readLines job.size text).foldlM (job.copyLine o) .start

/-- The lines of a file that the function means to keep. -/
def keptLines (text : CStr) : List CStr :=
  match job.oldest text with
  | none => job.lines text
  | some o => (job.lines text).filter fun line => job.keeps o line ≠ some false

theorem mem_lines_of_mem_keptLines {text line : CStr} (hline : line ∈ job.keptLines text) :
    line ∈ job.lines text := by
  rw [keptLines] at hline
  split at hline
  · exact hline
  · exact List.mem_of_mem_filter hline

/-- A loop of copied lines that comes to an end keeps what it means to keep. -/
theorem foldlM_copyLine {o : Oldest} {buffers : List CStr} {p p' : Pass}
    (hfold : buffers.foldlM (job.copyLine o) p = some p') :
    p' = p.after (fun line => job.keeps o line ≠ some false) (buffers.map job.lineOf) := by
  induction buffers generalizing p with
  | nil =>
      rw [List.map_nil, Pass.after_nil]
      exact (Option.some.inj hfold).symm
  | cons buffer buffers ih =>
      rw [List.foldlM_cons, Option.bind_eq_bind, Option.bind_eq_some_iff] at hfold
      obtain ⟨p₁, hstep, hrest⟩ := hfold
      obtain ⟨keep, hkeep, rfl⟩ := Option.map_eq_some_iff.mp hstep
      rw [ih hrest, List.map_cons, Pass.after_cons, hkeep]
      cases keep <;> rfl

/-- The copy holds the kept lines and their number is counted. -/
theorem pass_eq {text : CStr} {p : Pass} (hpass : job.pass text = some p) :
    p.temp = unlines (job.keptLines text) ∧ p.kept = (job.keptLines text).length := by
  obtain ⟨o, ho, hfold⟩ := Option.bind_eq_some_iff.mp hpass
  rw [job.foldlM_copyLine hfold, keptLines, ho]
  simp [Pass.after, Pass.start, lines, List.countP_eq_length_filter]

/-! ### Reading lines again -/

theorem length_lineOf_le (buffer : CStr) : (job.lineOf buffer).length ≤ buffer.length :=
  (List.takeWhile_prefix _).length_le

/-- A line that was read is shorter than the buffer and is read as itself again. -/
theorem line_spec {text line : CStr} (hline : line ∈ job.lines text) :
    newline ∉ line ∧ line.length < job.size ∧ job.lineOf line = line
      ∧ job.lineOf (line ++ [newline]) = line := by
  obtain ⟨buffer, hbuffer, rfl⟩ := List.mem_map.mp hline
  have hclean : ∀ c ∈ job.lineOf buffer, job.stop c = false ∧ c ≠ NUL := by
    intro c hc
    simpa using List.mem_takeWhile_imp hc
  have hlength : buffer.length < job.size :=
    length_lt_of_mem_readLines (le_trans (by decide) job.size_ge) hbuffer
  refine ⟨fun h => ?_, lt_of_le_of_lt (job.length_lineOf_le buffer) hlength, ?_, ?_⟩
  · have := (hclean newline h).1
    rw [job.stop_newline] at this
    cases this
  · exact cutAt_eq_self hclean
  · exact cutAt_append_stop hclean job.stop_newline []

/-- Lines that were read once and written one after the other are all read again. -/
theorem sublist_lines_unlines {text : CStr} {ws : List CStr} (hws : ∀ w ∈ ws, w ∈ job.lines text) :
    ws.Sublist (job.lines (unlines ws)) := by
  induction ws with
  | nil => exact List.nil_sublist _
  | cons w ws ih =>
      obtain ⟨hnewline, hlength, hself, hterminated⟩ := job.line_spec (hws w (by simp))
      have hrest := ih fun v hv => hws v (by simp [hv])
      rw [lines, unlines_cons]
      by_cases hfits : w.length + 2 ≤ job.size
      · rw [readLines_cons ⟨hnewline, hfits⟩, List.map_cons, hterminated]
        exact hrest.cons_cons w
      · rw [readLines_full job.size_ge hnewline (by omega), List.map_cons, List.map_cons, hself]
        exact (hrest.cons _).cons_cons w

/-- If they fit the buffer, nothing else is read. -/
theorem lines_unlines {text : CStr} {ws : List CStr} (hws : ∀ w ∈ ws, w ∈ job.lines text)
    (hfits : ∀ w ∈ ws, w.length + 2 ≤ job.size) : job.lines (unlines ws) = ws := by
  rw [lines, readLines_unlines fun w hw => ⟨(job.line_spec (hws w hw)).1, hfits w hw⟩, List.map_map]
  have hself : ∀ w ∈ ws, (job.lineOf ∘ (· ++ [newline])) w = id w := fun w hw =>
    (job.line_spec (hws w hw)).2.2.2
  rw [List.map_congr_left hself, List.map_id]

/-! ### The functional model -/

/-- The whole rewriting at once, with calls that fail only where a file is opened. -/
def apply (env : Env) (st : Store) : Option (Store × Option Pass) :=
  match st.openRead env job.file with
  | none => some (st, none)
  | some text =>
    if env.opensTemp job.file then
      (job.pass text).map fun p =>
        (if job.always ∨ 0 < p.deleted then st.replace job.file p.temp
          else (st.put job.temp p.temp).remove job.temp, some p)
    else some (st, none)

section Functions

variable (env : Env) (st : Store)

theorem copyLine_uuid {job : Rewriter} (responseUuid : CStr) (o : Oldest)
    (hstop : job.stop = (· == newline)) (hkeeps : job.keeps o = keepsUuid parse responseUuid) :
    job.copyLine o = uuidLine parse responseUuid := by
  funext p buffer
  rw [copyLine, uuidLine, lineOf, hstop, hkeeps, keepsUuid]
  cases strchr '|' (cutAt (· == newline) buffer) with
  | none => rfl
  | some r =>
      dsimp only
      split
      · rw [Option.map_some]
        by_cases huuid : extractUuidFromJsonResponse parse r.1 = some responseUuid <;> simp [huuid]
      · rfl

theorem pass_of_single {job : Rewriter} (hsingle : job.firstPass = none) (text : CStr) :
    job.pass text = (readLines job.size text).foldlM (job.copyLine .start) .start := by
  rw [pass, oldest, hsingle, Option.bind_some]

theorem handleResponseMessage_apply (responseUuid : CStr) :
    deleteEntriesByUuid parse env dequeMsgBuffer .request responseUuid st
      = (handleResponseMessage parse responseUuid).apply env st := by
  rw [deleteEntriesByUuid, apply]
  simp only [@pass_of_single (handleResponseMessage parse responseUuid) rfl]
  rw [copyLine_uuid parse responseUuid .start rfl rfl]
  cases hopen : st.openRead env .request with
  | none => simp only [handleResponseMessage, hopen]
  | some text => simp only [handleResponseMessage, hopen, true_or, if_true]

theorem deleteFaultFileEntryByUuid_apply (f : QueueFile) (responseUuid : CStr) :
    deleteEntriesByUuid parse env dequeMsgBufferFault f responseUuid st
      = (deleteFaultFileEntryByUuid parse f responseUuid).apply env st := by
  rw [deleteEntriesByUuid, apply]
  simp only [@pass_of_single (deleteFaultFileEntryByUuid parse f responseUuid) rfl]
  rw [copyLine_uuid parse responseUuid .start rfl rfl]
  cases hopen : st.openRead env f with
  | none => simp only [deleteFaultFileEntryByUuid, hopen]
  | some text => simp only [deleteFaultFileEntryByUuid, hopen, true_or, if_true]

theorem removeOldestMessage_apply (f : QueueFile) :
    Pmu.removeOldestMessage env f st
      = ((removeOldestMessage env.timeLibrary f).apply env st).map fun r =>
          (r.1, r.2.map Pass.kept) := by
  have hcopy : ∀ o : Oldest, (removeOldestMessage env.timeLibrary f).copyLine o
      = fun p buffer => some (notOldestLine o.entry p buffer) := by
    intro o
    funext p buffer
    rw [copyLine, notOldestLine]
    by_cases holdest : cutAt (· == newline) buffer = o.entry <;>
      simp [removeOldestMessage, lineOf, holdest]
  have hpass : ∀ text, (removeOldestMessage env.timeLibrary f).pass text
      = ((readLines totalLine text).foldlM (oldestLine env.timeLibrary) .start).map fun o =>
          (readLines totalLine text).foldl (notOldestLine o.entry) .start := by
    intro text
    rw [pass, oldest, Option.map_eq_bind]
    congr 1
    funext o
    rw [hcopy]
    exact List.foldlM_pure (m := Option)
  rw [Pmu.removeOldestMessage, apply]
  simp only [hpass]
  simp only [removeOldestMessage]
  cases st.openRead env f with
  | none => rfl
  | some text =>
      dsimp only
      split
      · simp [Option.map_map, Function.comp_def]
      · rfl

theorem deleteLineIfFound_apply (f : QueueFile) (target : CStr) :
    some (Pmu.deleteLineIfFound env f target st)
      = ((deleteLineIfFound f target).apply env st).map fun r => (r.1, r.2.map Pass.kept) := by
  have hcopy : (deleteLineIfFound f target).copyLine .start
      = fun p buffer => some (targetLine target p buffer) := by
    funext p buffer
    rw [copyLine, targetLine]
    by_cases hfound : strstr (cutAt (fun c => c == '\r' || c == newline) buffer) target = true <;>
      simp [deleteLineIfFound, lineOf, hfound]
  have hpass : ∀ text, (deleteLineIfFound f target).pass text
      = some ((readLines dequeMsgBuffer text).foldl (targetLine target) .start) := by
    intro text
    rw [pass_of_single rfl, hcopy]
    exact List.foldlM_pure (m := Option)
  have hfile : (deleteLineIfFound f target).file = f := rfl
  have halways : (deleteLineIfFound f target).always = false := rfl
  rw [Pmu.deleteLineIfFound, apply, hfile]
  simp only [hpass]
  cases st.openRead env f with
  | none => rfl
  | some text =>
      by_cases htemp : env.opensTemp f = true
      · simp only [if_pos htemp, Option.map_some, halways, Bool.false_eq_true, false_or]
        split <;> rfl
      · simp only [if_neg htemp, Option.map_some, Option.map_none]

end Functions

/-! ### A run in which no call fails -/

section Alone

variable {job} {fs₀ fs : FileSystem Path} {calls : List (FileCall × Bool)} {text rest : CStr}
  {src temp : Handle}

/-- Reading to the end of the file, one buffer at a time. -/
theorem readLines_cases (rest : CStr) :
    (rest = [] ∧ readLines job.size rest = [])
      ∨ ∃ buffer left, fgets job.size rest = some (buffer, left)
        ∧ readLines job.size rest = buffer :: readLines job.size left := by
  have heq := readLines_eq job.size_ge rest
  cases hget : fgets job.size rest with
  | none =>
      rw [hget] at heq
      exact .inl ⟨fgets_eq_none.mp hget, heq⟩
  | some r =>
      rw [hget] at heq
      exact .inr ⟨r.1, r.2, rfl, heq⟩

theorem Run.scan_end {o o' : Oldest} (hrun : job.Run fs₀ calls fs (.scan src temp o))
    {scanLine : Oldest → CStr → Option Oldest} (hscan : job.firstPass = some scanLine)
    (hread : fs.Reads src job.path text rest)
    (hfold : (readLines job.size rest).foldlM scanLine o = some o') :
    ∃ calls' src', job.Run fs₀ calls' fs (.copy src' temp o' .start)
      ∧ fs.Reads src' job.path text text := by
  generalize hbuffers : readLines job.size rest = buffers at hfold
  induction buffers generalizing calls src rest o with
  | nil =>
      rcases job.readLines_cases rest with ⟨rfl, -⟩ | ⟨buffer, left, -, h⟩
      · obtain rfl : o = o' := Option.some.inj hfold
        have hnext := hrun.step true rfl
        rw [Rewriter.step, hread.gets_eof job.size] at hnext
        exact ⟨_, _, hnext, hread.file, hread.text, rfl⟩
      · rw [h] at hbuffers
        cases hbuffers
  | cons buffer buffers ih =>
      rcases job.readLines_cases rest with ⟨-, h⟩ | ⟨buffer', left, hget, h⟩
      · rw [h] at hbuffers
        cases hbuffers
      · rw [h] at hbuffers
        obtain ⟨rfl, rfl⟩ := List.cons.inj hbuffers
        rw [List.foldlM_cons, Option.bind_eq_bind, Option.bind_eq_some_iff] at hfold
        obtain ⟨o₁, hline, hfold⟩ := hfold
        obtain ⟨src', hgets, hread'⟩ := hread.gets_line hget
        have hnext := hrun.step true rfl
        rw [Rewriter.step, hgets] at hnext
        simp only [hscan, Option.bind_some, hline] at hnext
        exact ih hnext hread' rfl hfold

theorem Run.copy_end {o : Oldest} {p p' : Pass} (hrun : job.Run fs₀ calls fs (.copy src temp o p))
    (hread : fs.Reads src job.path text rest) (hwrite : fs.Writes temp job.temp p.temp)
    (hfold : (readLines job.size rest).foldlM (job.copyLine o) p = some p') :
    ∃ calls' fs', job.Run fs₀ calls' fs' (.closeSrc p')
      ∧ ∀ q, fs'.contents q = if q = job.temp then some p'.temp else fs.contents q := by
  generalize hbuffers : readLines job.size rest = buffers at hfold
  induction buffers generalizing calls fs src temp rest p with
  | nil =>
      rcases job.readLines_cases rest with ⟨rfl, -⟩ | ⟨buffer, left, -, h⟩
      · obtain rfl : p = p' := Option.some.inj hfold
        have hnext := hrun.step true rfl
        rw [Rewriter.step, hread.gets_eof job.size] at hnext
        refine ⟨_, _, hnext, fun q => ?_⟩
        by_cases hq : q = job.temp
        · rw [if_pos hq, hq, hwrite.text]
        · rw [if_neg hq]
      · rw [h] at hbuffers
        cases hbuffers
  | cons buffer buffers ih =>
      rcases job.readLines_cases rest with ⟨-, h⟩ | ⟨buffer', left, hget, h⟩
      · rw [h] at hbuffers
        cases hbuffers
      · rw [h] at hbuffers
        obtain ⟨rfl, rfl⟩ := List.cons.inj hbuffers
        rw [List.foldlM_cons, Option.bind_eq_bind, Option.bind_eq_some_iff] at hfold
        obtain ⟨p₁, hline, hfold⟩ := hfold
        obtain ⟨keep, hkeep, rfl⟩ := Option.map_eq_some_iff.mp hline
        obtain ⟨src', hgets, hread'⟩ := hread.gets_line hget
        have hnext := hrun.step true rfl
        rw [Rewriter.step, hgets] at hnext
        simp only [hkeep] at hnext
        cases keep with
        | false => exact ih hnext hread' hwrite rfl hfold
        | true =>
            have hafter := hnext.step true rfl
            rw [Rewriter.step] at hafter
            simp only [if_true] at hafter hfold
            have hread'' : (fs.puts temp (job.lineOf buffer' ++ [newline])).2.Reads src' job.path
                text left :=
              ⟨by rw [FileSystem.dir_puts, hread'.file],
                by rw [FileSystem.contents_puts hwrite.file job.path_ne_temp, hread'.text], hread'.rest⟩
            have hwrite' := hwrite.puts (job.lineOf buffer' ++ [newline])
            rw [← List.append_assoc] at hwrite'
            obtain ⟨calls', fs', hend, hcontents⟩ := ih hafter hread'' hwrite' rfl hfold
            refine ⟨calls', fs', hend, fun q => ?_⟩
            rw [hcontents]
            by_cases hq : q = job.temp
            · rw [if_pos hq, if_pos hq]
            · rw [if_neg hq, if_neg hq, FileSystem.contents_puts hwrite.file hq]

/-- From the opening of the temporary file to the end of the copy. -/
theorem Run.copied {p : Pass} (hrun : job.Run fs₀ calls fs (.openTemp src))
    (hread : fs.Reads src job.path text text) (hpass : job.pass text = some p) :
    ∃ calls' fs', job.Run fs₀ calls' fs' (.closeSrc p)
      ∧ ∀ q, fs'.contents q = if q = job.temp then some p.temp else fs.contents q := by
  have hread' : (fs.openWrite job.temp).2.Reads src job.path text text :=
    ⟨by rw [FileSystem.dir_openWrite job.path_ne_temp, hread.file],
      by rw [FileSystem.contents_openWrite job.path_ne_temp, hread.text], hread.rest⟩
  have hwrite := fs.openWrite_writes job.temp
  obtain ⟨o, holdest, hfold⟩ := Option.bind_eq_some_iff.mp hpass
  have hnext := hrun.step true rfl
  rw [Rewriter.step, if_pos rfl] at hnext
  have hcopy : ∃ calls' src', job.Run fs₀ calls' (fs.openWrite job.temp).2
      (.copy src' (fs.openWrite job.temp).1 o .start)
        ∧ (fs.openWrite job.temp).2.Reads src' job.path text text := by
    rw [oldest] at holdest
    cases hfirst : job.firstPass with
    | none =>
        rw [hfirst] at holdest hnext
        obtain rfl := Option.some.inj holdest
        exact ⟨_, _, hnext, hread'⟩
    | some scanLine =>
        rw [hfirst] at holdest hnext
        exact Run.scan_end hnext hfirst hread' holdest
  obtain ⟨_, src', hcopying, hread''⟩ := hcopy
  obtain ⟨calls', fs', hend, hcontents⟩ := hcopying.copy_end hread'' hwrite hfold
  refine ⟨calls', fs', hend, fun q => ?_⟩
  rw [hcontents]
  by_cases hq : q = job.temp
  · rw [if_pos hq, if_pos hq]
  · rw [if_neg hq, if_neg hq, FileSystem.contents_openWrite hq]

end Alone

/-- The functional model is a run of calls. -/
theorem exists_run {env : Env} {st : Store} {fs : FileSystem Path} (hdisk : fs.contents = st.disk)
    {r : Store × Option Pass} (happly : job.apply env st = some r) :
    ∃ calls fs', job.Run fs calls fs' (.done r.2) ∧ fs'.contents = r.1.disk := by
  have hstart : job.Run fs [] fs .openSrc := .start
  rw [apply, Store.openRead] at happly
  by_cases hopens : env.opensForReading job.file = true
  · rw [if_pos hopens] at happly
    cases htext : st.disk (.queue job.file) with
    | none =>
        have hnext := hstart.step true rfl
        have hnone : fs.openRead job.path = none := by
          rw [FileSystem.openRead_eq_none, hdisk]
          exact htext
        rw [htext] at happly
        obtain rfl := Option.some.inj happly
        rw [step, if_pos rfl, hnone] at hnext
        exact ⟨_, _, hnext, hdisk⟩
    | some text =>
        rw [htext] at happly
        have hcontents : fs.contents job.path = some text := by
          rw [hdisk]
          exact htext
        obtain ⟨src, hsrc, hread⟩ := FileSystem.openRead_eq hcontents
        have hopened := hstart.step true rfl
        rw [step, if_pos rfl, hsrc] at hopened
        by_cases htemp : env.opensTemp job.file = true
        · simp only [if_pos htemp] at happly
          obtain ⟨p, hpass, rfl⟩ := Option.map_eq_some_iff.mp happly
          obtain ⟨calls, fs', hcopied, hcontents'⟩ := Run.copied hopened hread hpass
          have hclosed := (hcopied.step true rfl).step true rfl
          simp only [step] at hclosed
          by_cases hreplace : job.always = true ∨ 0 < p.deleted
          · rw [if_pos hreplace] at hclosed
            have hdone := (hclosed.step true rfl).step true rfl
            simp only [step, if_true] at hdone
            refine ⟨_, _, hdone, ?_⟩
            funext q
            have hmissing : (fs'.remove job.path).contents job.path = none := by
              rw [FileSystem.contents_remove, if_pos rfl]
            rw [FileSystem.contents_rename hmissing job.path_ne_temp.symm, if_pos hreplace,
              FileSystem.contents_remove, FileSystem.contents_remove, hcontents', hcontents', hdisk]
            by_cases hq : q = job.temp
            · simp [hq, Store.replace, Store.rename, temp]
            · by_cases hqp : q = job.path
              · subst hqp
                simp [Store.replace, Store.rename, Store.remove, Store.put, temp,
                  path]
              · have hq' : q ≠ job.file.temp := hq
                have hqp' : q ≠ .queue job.file := hqp
                simp [hq, hqp, hq', hqp', Store.replace, Store.rename, Store.remove, Store.put]
          · rw [if_neg hreplace] at hclosed
            have hdone := hclosed.step true rfl
            simp only [step, if_true] at hdone
            refine ⟨_, _, hdone, ?_⟩
            funext q
            rw [FileSystem.contents_remove, hcontents', if_neg hreplace, hdisk]
            by_cases hq : q = job.temp <;> simp [Store.remove, Store.put, hq]
        · simp only [if_neg htemp] at happly
          obtain rfl := Option.some.inj happly
          have hnext := hopened.step false rfl
          exact ⟨_, _, hnext, hdisk⟩
  · rw [if_neg hopens] at happly
    obtain rfl := Option.some.inj happly
    have hnext := hstart.step false rfl
    exact ⟨_, _, hnext, hdisk⟩

end Rewriter

end Pmu
