import PmuFirmware.Queue.Readers

/-!
# Acknowledging an entry

What the two response handlers do to files of entries when no call fails. The request handler deletes
every entry with the UUID. The fault handler goes through the fault files until one of them held the
UUID; the files before it are copied onto themselves.
-/

namespace Pmu

open CLib

variable (parse : CStr → Option Json)

/-- No call on a file fails. -/
structure Env.Healthy (env : Env) : Prop where
  reads : ∀ f, env.opensForReading f = true
  temps : ∀ f, env.opensTemp f = true
  stats : ∀ f, env.stats f = true

theorem Env.Healthy.openRead {env : Env} (henv : env.Healthy) {st : Store} {f : QueueFile}
    (hne : st.contents f ≠ []) : st.openRead env f = some (st.contents f) := by
  rw [Store.openRead, if_pos (henv.reads f)]
  cases hdisk : st.disk (.queue f) with
  | none => simp [Store.contents, hdisk] at hne
  | some text => simp [Store.contents, hdisk]

/-- The entries of a file that are not found under the UUID. -/
def others {f : QueueFile} (uuid : CStr) (es : List (Entry f)) : List (Entry f) :=
  es.filter fun e => e.uuid parse ≠ some uuid

theorem others_eq_self {f : QueueFile} {uuid : CStr} {es : List (Entry f)}
    (hes : ∀ e ∈ es, e.uuid parse ≠ some uuid) : others parse uuid es = es := by
  rw [others, List.filter_eq_self]
  simpa using hes

section Handlers

variable {parse} {env : Env} {uuid : CStr}

/-- `handle_response_message` on a request file of entries. -/
theorem handleResponseMessage_eq (henv : env.Healthy) {st : Store} {es : List (Entry .request)}
    (htext : st.contents .request = fileText es) (hne : es ≠ []) :
    handleResponseMessage parse env uuid st
      = some (st.replace .request (fileText (others parse uuid es)),
          some (others parse uuid es).length) := by
  have hopen : st.openRead env .request = some (fileText es) := by
    rw [henv.openRead, htext]
    rw [htext, fileText]
    simpa [unlines_eq_nil] using hne
  have hsize : QueueFile.request.lineBuffer ≤ dequeMsgBuffer := le_rfl
  rw [handleResponseMessage, deleteEntriesByUuid_eq parse hsize hopen (henv.temps _)]
  rfl

theorem faultResponseFile_of_found {s : Store × Bool} (hfound : s.2 = true) (f : QueueFile) :
    faultResponseFile parse env uuid s f = some s := by
  rw [faultResponseFile, if_neg]
  simp [hfound]

/-- A file without the UUID is left as it is, and so is its counter if it was right. -/
theorem faultResponseFile_of_absent (henv : env.Healthy) {s : Store × Bool} {f : QueueFile}
    {es : List (Entry f)} (htext : s.1.contents f = fileText es)
    (hes : ∀ e ∈ es, e.uuid parse ≠ some uuid) (hsize : f.lineBuffer ≤ dequeMsgBufferFault) :
    ∃ st', faultResponseFile parse env uuid s f = some (st', s.2)
      ∧ st'.contents = s.1.contents ∧ st'.numConnectors = s.1.numConnectors
      ∧ ∀ g, (g = f → (s.1.entries f).toNat = es.length) → st'.entries g = s.1.entries g := by
  by_cases hguard : s.1.entries f ≠ 0 ∧ s.2 = false
  · rw [faultResponseFile, if_pos hguard, deleteFaultFileEntryByUuid]
    cases hopen : s.1.openRead env f with
    | none => exact ⟨s.1, by rw [deleteEntriesByUuid, hopen]; rfl, rfl, rfl, fun _ _ => rfl⟩
    | some text =>
        obtain rfl : text = fileText es := by rw [← htext, Store.contents_of_openRead hopen]
        have hzero : (es.countP fun e => e.uuid parse = some uuid) = 0 := by
          rw [List.countP_eq_zero]
          simpa using hes
        have hkept : (es.filter fun e => e.uuid parse ≠ some uuid) = es := others_eq_self parse hes
        rw [deleteEntriesByUuid_eq parse hsize hopen (henv.temps f), hzero, hkept]
        refine ⟨(s.1.replace f (fileText es)).setEntries f es.length, ?_, ?_, rfl, ?_⟩
        · simp [hguard.2]
        · funext g
          rw [Store.contents_setEntries, Store.contents_replace]
          split
          · rename_i hg
            rw [hg, htext]
          · rfl
        · intro g hg
          by_cases hgf : g = f
          · subst hgf
            rw [← UInt8.toNat_inj, Store.entries_setEntries, if_pos rfl, ← hg rfl]
            exact Nat.mod_eq_of_lt (UInt8.toNat_lt _)
          · simp [Store.setEntries, hgf]
  · exact ⟨s.1, by rw [faultResponseFile, if_neg hguard], rfl, rfl, fun _ _ => rfl⟩

/-- The first file with the UUID loses its entries with that UUID. -/
theorem faultResponseFile_of_present (henv : env.Healthy) {s : Store × Bool} {f : QueueFile}
    {es : List (Entry f)} (htext : s.1.contents f = fileText es)
    (hes : ∃ e ∈ es, e.uuid parse = some uuid) (hsize : f.lineBuffer ≤ dequeMsgBufferFault)
    (hcount : s.1.entries f ≠ 0) (hfound : s.2 = false) :
    faultResponseFile parse env uuid s f
      = some ((s.1.replace f (fileText (others parse uuid es))).setEntries f
          (others parse uuid es).length, true) := by
  have hne : s.1.contents f ≠ [] := by
    rw [htext, fileText]
    obtain ⟨e, he, -⟩ := hes
    simpa [unlines_eq_nil] using List.ne_nil_of_mem he
  have hpos : 0 < es.countP fun e => e.uuid parse = some uuid := by
    rw [List.countP_pos_iff]
    simpa using hes
  have hopen := henv.openRead hne
  rw [htext] at hopen
  rw [faultResponseFile, if_pos ⟨hcount, hfound⟩, deleteFaultFileEntryByUuid,
    deleteEntriesByUuid_eq parse hsize hopen (henv.temps f)]
  simp only [Option.map_some, hpos, decide_true]
  rfl

/-- Files that do not hold the UUID, one after the other. -/
theorem foldlM_faultResponseFile_of_absent (henv : env.Healthy) (files : List QueueFile)
    (s : Store × Bool)
    (hfiles : ∀ f ∈ files, f.lineBuffer ≤ dequeMsgBufferFault ∧ ∃ es : List (Entry f),
      s.1.contents f = fileText es ∧ ∀ e ∈ es, e.uuid parse ≠ some uuid) :
    ∃ st', files.foldlM (faultResponseFile parse env uuid) s = some (st', s.2)
      ∧ st'.contents = s.1.contents ∧ st'.numConnectors = s.1.numConnectors
      ∧ ∀ g, (g ∈ files → (s.1.entries g).toNat = lineCount (s.1.contents g)) →
          st'.entries g = s.1.entries g := by
  induction files generalizing s with
  | nil => exact ⟨s.1, rfl, rfl, rfl, fun _ _ => rfl⟩
  | cons f files ih =>
      obtain ⟨hsize, es, htext, hes⟩ := hfiles f (by simp)
      obtain ⟨st₁, hstep, hcontents₁, hnum₁, hentries₁⟩ :=
        faultResponseFile_of_absent henv htext hes hsize
      obtain ⟨st', hrest, hcontents, hnum, hentries⟩ := ih (st₁, s.2) (by
        intro g hg
        obtain ⟨hsize', es', htext', hes'⟩ := hfiles g (by simp [hg])
        exact ⟨hsize', es', by rw [hcontents₁, htext'], hes'⟩)
      refine ⟨st', ?_, hcontents.trans hcontents₁, hnum.trans hnum₁, fun g hg => ?_⟩
      · rw [List.foldlM_cons, hstep]
        exact hrest
      · have hsame : st₁.entries g = s.1.entries g := hentries₁ g fun hgf => by
          subst hgf
          rw [hg (by simp), htext, lineCount_fileText]
        rw [hentries g (fun hmem => ?_), hsame]
        rw [hsame, hcontents₁, hg (by simp [hmem])]

theorem foldlM_faultResponseFile_of_found (files : List QueueFile) {s : Store × Bool}
    (hfound : s.2 = true) : files.foldlM (faultResponseFile parse env uuid) s = some s := by
  induction files with
  | nil => rfl
  | cons f files ih =>
      rw [List.foldlM_cons, faultResponseFile_of_found hfound]
      exact ih

/-- `handle_fault_response_message` when `f` is the first fault file with the UUID: only `f` and its
counter change. -/
theorem handleFaultResponseMessage_of_present (henv : env.Healthy) {st : Store}
    {before after : List QueueFile} {f : QueueFile} (hsplit : st.faultFiles = before ++ f :: after)
    (hbefore : ∀ g ∈ before, ∃ es : List (Entry g),
      st.contents g = fileText es ∧ ∀ e ∈ es, e.uuid parse ≠ some uuid)
    {es : List (Entry f)} (htext : st.contents f = fileText es)
    (hes : ∃ e ∈ es, e.uuid parse = some uuid) (hcount : st.entries f ≠ 0) (hf : f ∉ before) :
    ∃ st', handleFaultResponseMessage parse env uuid st = some st'
      ∧ st'.numConnectors = st.numConnectors
      ∧ st'.contents f = fileText (others parse uuid es)
      ∧ (st'.entries f).toNat = (others parse uuid es).length % 256
      ∧ (∀ g, g ≠ f → st'.contents g = st.contents g)
      ∧ ∀ g, g ≠ f → (g ∈ before → (st.entries g).toNat = lineCount (st.contents g)) →
          st'.entries g = st.entries g := by
  have hsize : ∀ g ∈ before ++ f :: after, g.lineBuffer ≤ dequeMsgBufferFault := by
    intro g hg
    rw [← hsplit] at hg
    exact (faultFiles_hasCounter st g hg).2
  obtain ⟨st₁, hfold, hcontents, hnum, hentries⟩ :=
    foldlM_faultResponseFile_of_absent henv before (st, false)
      fun g hg => ⟨hsize g (by simp [hg]), hbefore g hg⟩
  have hf₁ : st₁.entries f = st.entries f := hentries f fun h => absurd h hf
  have hstep := faultResponseFile_of_present (s := (st₁, false)) (f := f) henv
    (by rw [hcontents, htext]) hes (hsize f (by simp)) (by rw [hf₁]; exact hcount) rfl
  refine ⟨(st₁.replace f (fileText (others parse uuid es))).setEntries f
    (others parse uuid es).length, ?_, hnum, ?_, ?_, ?_, ?_⟩
  · rw [handleFaultResponseMessage, hsplit, List.foldlM_append, hfold]
    simp only [Option.bind_eq_bind, Option.bind_some, List.foldlM_cons]
    rw [hstep]
    simp only [Option.bind_some, foldlM_faultResponseFile_of_found, Option.map_some]
  · rw [Store.contents_setEntries, Store.contents_replace, if_pos rfl]
  · rw [Store.entries_setEntries, if_pos rfl]
  · intro g hg
    rw [Store.contents_setEntries, Store.contents_replace, if_neg hg, hcontents]
  · intro g hg hright
    have hsame : ((st₁.replace f (fileText (others parse uuid es))).setEntries f
        (others parse uuid es).length).entries g = st₁.entries g := by
      simp [Store.setEntries, hg]
    rw [hsame, hentries g hright]

end Handlers

end Pmu
