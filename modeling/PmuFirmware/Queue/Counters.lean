import PmuFirmware.Lib.Run
import PmuFirmware.Queue.Enqueueing

/-!
# The counters count the lines

A search or an eviction trusts the counter of a file, so every operation has to leave it equal to
the number of lines and below the file's limit. Each operation changes one file at a time and
assigns that file's counter right after, which is what `Accurate.replace` and `Accurate.append` say;
the operations only combine the two.
-/

namespace Pmu

open CLib

variable (parse : CStr → Option Json)

/-- Entries a file may hold: not too many, and each with a time before the initial
`oldest_timestamp`. -/
def Legal {f : QueueFile} (es : List (Entry f)) : Prop :=
  es.length ≤ f.cap ∧ ∀ e ∈ es, e.time.year < 9998

/-- Every counted file holds legal entries, as many as its counter says. -/
def Store.Accurate (st : Store) : Prop :=
  ∀ f, st.HasCounter f → ∃ es : List (Entry f),
    st.contents f = fileText es ∧ (st.entries f).toNat = es.length ∧ Legal es

theorem Legal.filter {f : QueueFile} {es : List (Entry f)} (hes : Legal es) (p : Entry f → Bool) :
    Legal (es.filter p) :=
  ⟨le_trans (List.length_filter_le _ _) hes.1, fun e he => hes.2 e (List.mem_of_mem_filter he)⟩

namespace Store.Accurate

variable {st : Store}

/-- A rewritten file together with the assignment of its counter. -/
theorem replace {f : QueueFile} (hst : st.Accurate) {es : List (Entry f)} (hes : Legal es) :
    ((st.replace f (fileText es)).setEntries f es.length).Accurate := by
  intro g hg
  by_cases hgf : g = f
  · subst hgf
    refine ⟨es, ?_, ?_, hes⟩
    · rw [contents_setEntries, contents_replace, if_pos rfl]
    · have hle := g.cap_le
      have hcap := hes.1
      rw [entries_setEntries, if_pos rfl, Nat.mod_eq_of_lt (by omega)]
  · obtain ⟨es', htext, hcount, hes'⟩ := hst g hg
    refine ⟨es', ?_, ?_, hes'⟩
    · rw [contents_setEntries, contents_replace, if_neg hgf, htext]
    · rw [entries_setEntries, if_neg hgf, entries_replace, hcount]

theorem append {f : QueueFile} (hst : st.Accurate) (e : Entry f) (hyear : e.time.year < 9998)
    (hroom : st.HasCounter f → (st.entries f).toNat < f.cap) :
    (if (st.append f e.message e.time).HasCounter f
      then (st.append f e.message e.time).setEntries f
        (((st.append f e.message e.time).entries f).toNat + 1)
      else st.append f e.message e.time).Accurate := by
  by_cases hf : st.HasCounter f
  · have hf' : (st.append f e.message e.time).HasCounter f := hf
    rw [if_pos hf']
    intro g hg
    obtain ⟨es, htext, hcount, hes⟩ := hst g hg
    by_cases hgf : g = f
    · subst hgf
      have hlt := hroom hf
      have hle := g.cap_le
      have hcap := hes.1
      refine ⟨es ++ [e], ?_, ?_, ?_⟩
      · rw [contents_setEntries, contents_append, if_pos rfl, htext]
        simp [fileText, Entry.line]
      · rw [entries_setEntries, if_pos rfl, List.length_append, List.length_singleton,
          entries_append, hcount, Nat.mod_eq_of_lt (by omega)]
      · constructor
        · rw [List.length_append, List.length_singleton]
          omega
        · intro e' he'
          rcases List.mem_append.mp he' with hmem | hmem
          · exact hes.2 e' hmem
          · rwa [List.mem_singleton.mp hmem]
    · refine ⟨es, ?_, ?_, hes⟩
      · rw [contents_setEntries, contents_append, if_neg hgf, htext]
      · rw [entries_setEntries, if_neg hgf, entries_append, hcount]
  · have hf' : ¬ (st.append f e.message e.time).HasCounter f := hf
    rw [if_neg hf']
    intro g hg
    have hgf : g ≠ f := fun h => hf (h ▸ hg)
    obtain ⟨es, htext, hcount, hes⟩ := hst g hg
    exact ⟨es, by rw [contents_append, if_neg hgf, htext], hcount, hes⟩

/-- The entries of a file that was opened. -/
theorem entries_of_openRead {env : Env} {f : QueueFile} {text : CStr} (hst : st.Accurate)
    (hf : st.HasCounter f) (hopen : st.openRead env f = some text) :
    ∃ es : List (Entry f), text = fileText es ∧ (st.entries f).toNat = es.length ∧ Legal es := by
  obtain ⟨es, htext, hrest⟩ := hst f hf
  exact ⟨es, by rw [← contents_of_openRead hopen, htext], hrest⟩

end Store.Accurate

/-! ### One operation -/

/-- Deleting by UUID gives back the number of lines left, or changes nothing. -/
theorem deleteEntriesByUuid_accurate (env : Env) (size : Nat) {f : QueueFile} {st : Store}
    (hst : st.Accurate) (hf : st.HasCounter f) (hsize : f.lineBuffer ≤ size) (responseUuid : CStr) :
    deleteEntriesByUuid parse env size f responseUuid st = some (st, none)
      ∨ ∃ st' p, deleteEntriesByUuid parse env size f responseUuid st = some (st', some p)
        ∧ (st'.setEntries f p.kept).Accurate ∧ st'.numConnectors = st.numConnectors := by
  cases hopen : st.openRead env f with
  | none => exact .inl (by rw [deleteEntriesByUuid, hopen])
  | some text =>
      obtain ⟨es, rfl, -, hes⟩ := hst.entries_of_openRead hf hopen
      by_cases htemp : env.opensTemp f = true
      · refine .inr ⟨_, _, deleteEntriesByUuid_eq parse hsize hopen htemp responseUuid, ?_, rfl⟩
        exact hst.replace (hes.filter _)
      · refine .inl ?_
        rw [deleteEntriesByUuid, hopen]
        exact if_neg htemp

theorem faultResponseFile_accurate (env : Env) {f : QueueFile} {s : Store × Bool}
    (hst : s.1.Accurate) (hf : s.1.HasCounter f) (hsize : f.lineBuffer ≤ dequeMsgBufferFault)
    (responseUuid : CStr) :
    ∃ s', faultResponseFile parse env responseUuid s f = some s' ∧ s'.1.Accurate
      ∧ s'.1.numConnectors = s.1.numConnectors := by
  by_cases hguard : s.1.entries f ≠ 0 ∧ s.2 = false
  · rw [faultResponseFile, if_pos hguard, deleteFaultFileEntryByUuid]
    rcases deleteEntriesByUuid_accurate parse env _ hst hf hsize responseUuid with
      heq | ⟨st', p, heq, hacc, hnum⟩
    · exact ⟨s, by rw [heq]; rfl, hst, rfl⟩
    · refine ⟨(st'.setEntries f p.kept, decide (0 < p.deleted)), by rw [heq]; rfl, hacc, hnum⟩
  · exact ⟨s, by rw [faultResponseFile, if_neg hguard], hst, rfl⟩

theorem foldlM_faultResponseFile_accurate (env : Env) (responseUuid : CStr) :
    ∀ (files : List QueueFile) (s : Store × Bool), s.1.Accurate →
      (∀ f ∈ files, s.1.HasCounter f ∧ f.lineBuffer ≤ dequeMsgBufferFault) →
      ∃ s', files.foldlM (faultResponseFile parse env responseUuid) s = some s' ∧ s'.1.Accurate := by
  intro files
  induction files with
  | nil => exact fun s hst _ => ⟨s, rfl, hst⟩
  | cons f files ih =>
      intro s hst hfiles
      obtain ⟨hf, hsize⟩ := hfiles f (by simp)
      obtain ⟨s₁, hstep, hst₁, hnum⟩ :=
        faultResponseFile_accurate parse env hst hf hsize responseUuid
      have hfiles₁ : ∀ g ∈ files, s₁.1.HasCounter g ∧ g.lineBuffer ≤ dequeMsgBufferFault := by
        intro g hg
        obtain ⟨hcounter, hg'⟩ := hfiles g (by simp [hg])
        refine ⟨?_, hg'⟩
        cases g <;> simp_all [Store.HasCounter]
      obtain ⟨s', hrest, hst'⟩ := ih s₁ hst₁ hfiles₁
      exact ⟨s', by rw [List.foldlM_cons, hstep]; exact hrest, hst'⟩

/-- Making room leaves the file below its limit, or skips the new entry. -/
theorem makeRoom_accurate (env : Env) (f : QueueFile) {st : Store} (hst : st.Accurate) :
    makeRoom env f st = some none ∨ ∃ st', makeRoom env f st = some (some st') ∧ st'.Accurate
      ∧ (st'.HasCounter f → (st'.entries f).toNat < f.cap) := by
  by_cases hfull : st.HasCounter f ∧ f.cap ≤ (st.entries f).toNat
  · rw [makeRoom, if_pos hfull]
    cases hopen : st.openRead env f with
    | none => exact .inl (by rw [removeOldestMessage, hopen]; rfl)
    | some text =>
        obtain ⟨es, rfl, hcount, hlegal⟩ := hst.entries_of_openRead hfull.1 hopen
        have hcap := hlegal.1
        by_cases htemp : env.opensTemp f = true
        · have hpos : 0 < f.cap := by cases f <;> simp [QueueFile.cap]
          have hes : es ≠ [] := by
            rintro rfl
            simp only [List.length_nil] at hcount
            omega
          obtain ⟨oldest, hmem, heq⟩ := removeOldestMessage_eq hopen htemp hes hlegal.2
          have hlt : (es.filter fun e => e.line ≠ oldest.line).length < es.length :=
            List.length_filter_lt_length_iff_exists.mpr ⟨oldest, hmem, by simp⟩
          refine .inr ⟨_, by rw [heq]; rfl, hst.replace (hlegal.filter _), fun _ => ?_⟩
          rw [Store.entries_setEntries, if_pos rfl]
          exact lt_of_le_of_lt (Nat.mod_le _ _) (by omega)
        · refine .inl ?_
          rw [removeOldestMessage, hopen]
          simp [htemp]
  · rw [makeRoom, if_neg hfull]
    exact .inr ⟨st, rfl, hst, fun hf => Nat.lt_of_not_le fun hle => hfull ⟨hf, hle⟩⟩

theorem savePayloadToSpiffs_accurate {env : Env} {f : QueueFile} {st : Store} {payload : CStr}
    (hst : st.Accurate)
    (hlegal : ∀ t, env.time = some t → ∃ e : Entry f, e.message = payload ∧ e.time = t ∧ t.year < 9998) :
    ∃ st', savePayloadToSpiffs env f payload st = some st' ∧ st'.Accurate := by
  rw [savePayloadToSpiffs]
  rcases makeRoom_accurate env f hst with hskip | ⟨st₁, hroom, hst₁, hlt⟩
  · exact ⟨st, by rw [hskip]; rfl, hst⟩
  · rw [hroom]
    cases htime : env.time with
    | none => exact ⟨st₁, rfl, hst₁⟩
    | some t =>
        obtain ⟨e, rfl, rfl, hyear⟩ := hlegal t htime
        by_cases happend : env.opensForAppending = true
        · refine ⟨_, ?_, hst₁.append e hyear hlt⟩
          simp only [Option.map_some, happend, if_true]
        · exact ⟨st₁, by simp [happend], hst₁⟩

/-! ### Runs -/

/-- The operations of the tasks on the queue files; the result of `handle_response_message` is
stored when it is not `-1`. -/
inductive QueueOp
  | save (f : QueueFile) (payload : CStr)
  | response (uuid : CStr)
  | faultResponse (uuid : CStr)

def QueueOp.run (env : Env) (op : QueueOp) (st : Store) : Option Store :=
  match op with
  | .save f payload => savePayloadToSpiffs env f payload st
  | .response uuid => (handleResponseMessage parse env uuid st).map fun r =>
      match r.2 with
      | none => r.1
      | some count => r.1.setEntries .request count
  | .faultResponse uuid => handleFaultResponseMessage parse env uuid st

/-- Several operations in a row; one that writes past a buffer has no result. -/
def runQueue (ops : List (Env × QueueOp)) (st : Store) : Option Store :=
  ops.foldlM (fun st op => op.2.run parse op.1 st) st

/-- A saved payload is a line without newline that the functions reading its file have room for. -/
def QueueOp.Legal (env : Env) : QueueOp → Prop
  | .save f payload => newline ∉ payload ∧ NUL ∉ payload ∧ payload.length < messageBuffer
      ∧ payload.length + 1 + 24 + 2 ≤ f.lineBuffer ∧ ∀ t, env.time = some t → t.year < 9998
  | _ => True

theorem run_accurate {env : Env} {op : QueueOp} {st : Store} (hst : st.Accurate)
    (hlegal : op.Legal env) : ∃ st', op.run parse env st = some st' ∧ st'.Accurate := by
  cases op with
  | save f payload =>
      obtain ⟨hnl, hnul, hlen, hfits, hyear⟩ := hlegal
      refine savePayloadToSpiffs_accurate hst fun t ht => ?_
      refine ⟨⟨payload, t, ⟨hnl, hnul⟩, hlen, ?_⟩, rfl, rfl, hyear t ht⟩
      rw [entryLine, List.length_append, List.length_cons, length_timestampText]
      omega
  | response uuid =>
      rw [QueueOp.run, handleResponseMessage]
      rcases deleteEntriesByUuid_accurate parse env dequeMsgBuffer hst
        (f := .request) trivial le_rfl uuid
        with heq | ⟨st', p, heq, hacc, -⟩
      · exact ⟨st, by rw [heq]; rfl, hst⟩
      · exact ⟨st'.setEntries .request p.kept, by rw [heq]; rfl, hacc⟩
  | faultResponse uuid =>
      obtain ⟨s', hfold, hst'⟩ := foldlM_faultResponseFile_accurate parse env uuid
        st.faultFiles (st, false) hst (faultFiles_hasCounter st)
      exact ⟨s'.1, by rw [QueueOp.run, handleFaultResponseMessage, hfold]; rfl, hst'⟩

theorem runQueue_accurate (ops : List (Env × QueueOp)) {st : Store} (hst : st.Accurate)
    (hlegal : ∀ op ∈ ops, op.2.Legal op.1) :
    ∃ st', runQueue parse ops st = some st' ∧ st'.Accurate := by
  have hstep : ∀ (op : Env × QueueOp) (st : Store), st.Accurate → op.2.Legal op.1 →
      ∃ st', op.2.run parse op.1 st = some st' ∧ st'.Accurate :=
    fun op st hst hop => run_accurate parse hst hop
  exact Runs.run_total hstep hst (.of_forall fun op hop _ => hlegal op hop)

/-- Counting a file at boot gives its number of lines. -/
theorem countFileEntries_eq {st : Store} {f : QueueFile} {es : List (Entry f)}
    (htext : st.contents f = fileText es) (hcap : es.length ≤ f.cap) :
    countFileEntries (st.disk (.queue f)) = es.length := by
  have hle := f.cap_le
  cases hdisk : st.disk (.queue f) with
  | none =>
      rw [Store.contents, hdisk, Option.getD_none] at htext
      have hes : es = [] := by
        have hnil := unlines_eq_nil.mp htext.symm
        simpa using hnil
      rw [hes]
      rfl
  | some text =>
      rw [Store.contents, hdisk, Option.getD_some] at htext
      rw [htext, countFileEntries, readLines_fileText es f.lineBuffer_le, List.length_map,
        Nat.mod_eq_of_lt (by omega)]

/-- After every run from a boot on files within their limits, each counter is the number of lines of
its file, and no file has outgrown its limit. -/
theorem counters_count_lines {st : Store} (ops : List (Env × QueueOp))
    (hfiles : ∀ f, st.HasCounter f →
      ∃ es : List (Entry f), st.contents f = fileText es ∧ Legal es)
    (hboot : ∀ f, st.HasCounter f → (st.entries f).toNat = countFileEntries (st.disk (.queue f)))
    (hlegal : ∀ op ∈ ops, op.2.Legal op.1) :
    ∃ st', runQueue parse ops st = some st' ∧ ∀ f, st'.HasCounter f →
      (st'.entries f).toNat = lineCount (st'.contents f) ∧ (st'.entries f).toNat ≤ f.cap := by
  have hst : st.Accurate := by
    intro f hf
    obtain ⟨es, htext, hes⟩ := hfiles f hf
    exact ⟨es, htext, by rw [hboot f hf, countFileEntries_eq htext hes.1], hes⟩
  obtain ⟨st', hrun, hst'⟩ := runQueue_accurate parse ops hst hlegal
  refine ⟨st', hrun, fun f hf => ?_⟩
  obtain ⟨es, htext, hcount, hes⟩ := hst' f hf
  rw [htext, lineCount_fileText, hcount]
  exact ⟨rfl, hes.1⟩

/-! ### A run -/

/-- A partition with one entry in the request log, as an earlier boot left it. -/
def persisted : Store where
  numConnectors := 2
  disk p := if p = .queue .request then
    some (unlines [entryLine requestMessage newYear]) else none
  entries f := if f = .request then 1 else 0

/-- What the JSON library makes of the two messages. -/
def parseSamples (text : CStr) : Option Json :=
  if text = requestMessage then
    some (.array [.number 2, .string "a1".toList, .string "ConfigurationData".toList, .object []])
  else if text = faultMessage then
    some (.array [.number 2, .string "b2".toList, .string "FaultInformation".toList, .object []])
  else none

theorem persisted_counters : ∃ st', runQueue parseSamples
      [(healthy, .save (.connector 1) faultMessage),
        ({ healthy with time := none }, .save .request faultMessage),
        (healthy, .response "a1".toList), (healthy, .faultResponse "b2".toList)] persisted = some st'
    ∧ ∀ f, st'.HasCounter f → (st'.entries f).toNat = lineCount (st'.contents f)
      ∧ (st'.entries f).toNat ≤ f.cap := by
  refine counters_count_lines _ _ ?_ ?_ ?_
  · intro f _
    cases f with
    | request =>
        refine ⟨[⟨_, newYear, by decide, by decide, by decide⟩], rfl, by decide, ?_⟩
        intro e he
        rw [List.mem_singleton.mp he]
        decide
    | _ => exact ⟨[], rfl, Nat.zero_le _, by simp⟩
  · intro f _
    cases f with
    | request => decide
    | onlineCharger => rfl
    | offlineCharger => rfl
    | connector i => rfl
  · intro op hop
    simp only [List.mem_cons, List.not_mem_nil, or_false] at hop
    rcases hop with rfl | rfl | rfl | rfl
    · refine ⟨by decide, by decide, by decide, by decide, ?_⟩
      rintro t ht
      cases ht
      decide
    · exact ⟨by decide, by decide, by decide, by decide, fun t ht => nomatch ht⟩
    · trivial
    · trivial

end Pmu
