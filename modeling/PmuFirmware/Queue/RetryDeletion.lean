import PmuFirmware.Queue.Dequeueing

/-!
# The counters after a retry deletion

`search_and_delete_message_from_any_file` goes through the files with one index and one running
total. It assigns the running total, not the number of lines of the file at hand, and it takes the
index of a file for the index of a connector. The file contents it leaves are right; this module
says which counters are.
-/

namespace Pmu

open CLib

/-- The state of the loop: the store, `total_remaining`, and the counters assigned so far. -/
structure Retry where
  st : Store
  totalRemaining : Nat
  assigned : List QueueFile

/-- The counter assigned after the file with index `i`. -/
def retryCounter : Nat → Option QueueFile
  | 0 => some .request
  | 1 => some .onlineCharger
  | 2 => some .offlineCharger
  | 3 => some (.connector 3)
  | 4 => some (.connector 4)
  | _ => none

/-- One turn of the loop: `stat` fails on a file that does not exist. -/
def retryFile (env : Env) (target : CStr) (i : Nat) (f : QueueFile) (s : Retry) : Retry :=
  if env.stats f ∧ s.st.contents f ≠ [] then
    match deleteLineIfFound env f target s.st with
    | (st, none) => { s with st := st }
    | (st, some remaining) =>
      let total := s.totalRemaining + remaining
      match retryCounter i with
      | some g => ⟨st.setEntries g total, total, s.assigned ++ [g]⟩
      | none => ⟨st, total, s.assigned⟩
  else s

def retryLoop (env : Env) (target : CStr) : Nat → List QueueFile → Retry → Retry
  | _, [], s => s
  | i, f :: fs, s => retryLoop env target (i + 1) fs (retryFile env target i f s)

/-- `filepaths` -/
def Store.retryFiles (st : Store) : List QueueFile :=
  .request :: .onlineCharger :: .offlineCharger ::
    (List.range (min st.numConnectors noOfConnectors)).map .connector

/-- `search_and_delete_message_from_any_file` -/
def searchAndDeleteMessageFromAnyFile (env : Env) (target : CStr) (st : Store) : Retry :=
  retryLoop env target 0 st.retryFiles ⟨st, 0, []⟩

/-! ### One file -/

/-- A file is searched when it is not empty and none of the calls on it fails. -/
def Searched (env : Env) (st : Store) (f : QueueFile) : Prop :=
  env.stats f = true ∧ env.opensForReading f = true ∧ env.opensTemp f = true ∧ st.contents f ≠ []

instance (env : Env) (st : Store) (f : QueueFile) : Decidable (Searched env st f) :=
  inferInstanceAs (Decidable (_ ∧ _))

/-- The number of lines of a text that do not contain the target. -/
def survivors (target text : CStr) : Nat :=
  (searchedLines text).countP fun line => !strstr line target

/-- The number of lines of a searched file once the lines with the target are gone. -/
def linesAfter (target text : CStr) : Nat :=
  if (searchedLines text).any fun line => strstr line target then survivors target text
  else lineCount text

theorem openRead_of_searched {env : Env} {st : Store} {f : QueueFile} (hf : Searched env st f) :
    st.openRead env f = some (st.contents f) := by
  obtain ⟨-, hopen, -, hne⟩ := hf
  rw [Store.openRead, if_pos hopen]
  cases hdisk : st.disk (.queue f) with
  | none => simp [Store.contents, hdisk] at hne
  | some text => simp [Store.contents, hdisk]

/-- The text of a file once it has been searched. -/
def searchedText (target text : CStr) : CStr :=
  if (searchedLines text).any fun line => strstr line target then
    unlines ((searchedLines text).filter fun line => !strstr line target)
  else text

theorem lineCount_searchedText (target text : CStr) :
    lineCount (searchedText target text) = linesAfter target text := by
  rw [searchedText, linesAfter]
  split
  · rw [lineCount_unlines, survivors, List.countP_eq_length_filter]
    intro line hline
    exact newline_not_mem_searchedLines (List.mem_of_mem_filter hline)
  · rfl

theorem deleteLineIfFound_contents {env : Env} {st : Store} {f : QueueFile}
    (hf : Searched env st f) (target : CStr) :
    (deleteLineIfFound env f target st).1.contents f = searchedText target (st.contents f) := by
  rw [deleteLineIfFound_eq target (openRead_of_searched hf) hf.2.2.1, searchedText]
  dsimp only
  split
  · rw [Store.contents_replace, if_pos rfl]
  · simp [Store.contents, Store.remove, Store.put]

/-- A file that is not searched changes nothing, whether it is skipped or a call on it fails. -/
theorem retryFile_of_not_searched {env : Env} {s : Retry} {f : QueueFile}
    (hf : ¬ Searched env s.st f) (target : CStr) (i : Nat) : retryFile env target i f s = s := by
  rw [retryFile]
  split
  · rename_i hstat
    have hcall : ¬ (env.opensForReading f = true ∧ env.opensTemp f = true) := fun h =>
      hf ⟨hstat.1, h.1, h.2, hstat.2⟩
    have hdelete : deleteLineIfFound env f target s.st = (s.st, none) := by
      rw [deleteLineIfFound]
      cases hopen : s.st.openRead env f with
      | none => rfl
      | some text =>
          rw [Store.openRead] at hopen
          split at hopen
          · rename_i hread
            exact if_neg fun htemp => hcall ⟨hread, htemp⟩
          · cases hopen
    rw [hdelete]
  · rfl

/-- What searching one file does. -/
structure RetryStep (target : CStr) (i : Nat) (f : QueueFile) (s s' : Retry) : Prop where
  lines : lineCount (s'.st.contents f) = linesAfter target (s.st.contents f)
  contents : ∀ g, g ≠ f → s'.st.contents g = s.st.contents g
  total : s'.totalRemaining = s.totalRemaining + survivors target (s.st.contents f)
  assigned : s'.assigned = s.assigned ++ (retryCounter i).toList
  counter : ∀ g, retryCounter i = some g → (s'.st.entries g).toNat = s'.totalRemaining % 256
  entries : ∀ g, retryCounter i ≠ some g → s'.st.entries g = s.st.entries g

theorem retryFile_of_searched {env : Env} {s : Retry} {f : QueueFile}
    (hf : Searched env s.st f) (target : CStr) (i : Nat) :
    RetryStep target i f s (retryFile env target i f s) := by
  have hdelete := deleteLineIfFound_eq target (openRead_of_searched hf) hf.2.2.1
  obtain ⟨st, hst⟩ : ∃ st, st = (deleteLineIfFound env f target s.st).1 := ⟨_, rfl⟩
  have hpair : deleteLineIfFound env f target s.st
      = (st, some (survivors target (s.st.contents f))) := by
    rw [hst, hdelete]
    rfl
  rw [hdelete] at hst
  have hentries : st.entries = s.st.entries := by
    rw [hst]
    dsimp only
    split <;> rfl
  have hother : ∀ g, g ≠ f → st.contents g = s.st.contents g := by
    intro g hg
    rw [hst]
    dsimp only
    split
    · rw [Store.contents_replace, if_neg hg]
    · simp [Store.contents, Store.remove, Store.put]
  have hlines : lineCount (st.contents f) = linesAfter target (s.st.contents f) := by
    rw [← lineCount_searchedText, ← deleteLineIfFound_contents hf, hpair]
  rw [retryFile, if_pos ⟨hf.1, hf.2.2.2⟩, hpair]
  cases hi : retryCounter i with
  | none =>
      exact ⟨hlines, hother, rfl, by simp [hi], fun g hg => by simp [hi] at hg,
        fun g _ => by rw [hentries]⟩
  | some g =>
      refine ⟨?_, fun g' hg' => ?_, rfl, by simp [hi], fun g' hg' => ?_, fun g' hg' => ?_⟩
      · rw [Store.contents_setEntries, hlines]
      · rw [Store.contents_setEntries, hother g' hg']
      · obtain rfl : g = g' := by simpa [hi] using hg'
        simp only [Store.entries_setEntries, if_true]
      · have hne : g' ≠ g := fun h => hg' (by rw [hi, h])
        simp [Store.setEntries, hne, hentries]

theorem retryFile_contents_self {env : Env} {target : CStr} (i : Nat) (f : QueueFile) (s : Retry) :
    (retryFile env target i f s).st.contents f
      = if Searched env s.st f then searchedText target (s.st.contents f) else s.st.contents f := by
  by_cases hf : Searched env s.st f
  · rw [if_pos hf, ← deleteLineIfFound_contents hf, retryFile, if_pos ⟨hf.1, hf.2.2.2⟩]
    generalize deleteLineIfFound env f target s.st = r
    obtain ⟨st, _ | remaining⟩ := r
    · rfl
    · dsimp only
      cases retryCounter i with
      | none => rfl
      | some g => exact Store.contents_setEntries _ _ _ _
  · rw [if_neg hf, retryFile_of_not_searched hf]

/-! ### The loop -/

section Loop

variable {env : Env} {target : CStr}

theorem retryFile_contents {f g : QueueFile} (hg : g ≠ f) (i : Nat) (s : Retry) :
    (retryFile env target i f s).st.contents g = s.st.contents g := by
  by_cases hf : Searched env s.st f
  · exact (retryFile_of_searched hf target i).contents g hg
  · rw [retryFile_of_not_searched hf]

theorem retryFile_entries {g : QueueFile} {i : Nat} (hg : retryCounter i ≠ some g) (f : QueueFile)
    (s : Retry) : (retryFile env target i f s).st.entries g = s.st.entries g := by
  by_cases hf : Searched env s.st f
  · exact (retryFile_of_searched hf target i).entries g hg
  · rw [retryFile_of_not_searched hf]

theorem searched_congr {st st' : Store} {f : QueueFile} (hcontents : st'.contents f = st.contents f) :
    Searched env st' f ↔ Searched env st f := by
  rw [Searched, Searched, hcontents]

theorem retryLoop_contents {g : QueueFile} (fs : List QueueFile) (hg : g ∉ fs) (i : Nat)
    (s : Retry) : (retryLoop env target i fs s).st.contents g = s.st.contents g := by
  induction fs generalizing i s with
  | nil => rfl
  | cons f fs ih =>
      rw [List.mem_cons, not_or] at hg
      rw [retryLoop, ih hg.2, retryFile_contents hg.1]

/-- The counters that the indices of the loop do not reach are not touched. -/
theorem retryLoop_entries {g : QueueFile} (fs : List QueueFile) (i : Nat)
    (hg : ∀ k, i ≤ k → retryCounter k ≠ some g) (s : Retry) :
    (retryLoop env target i fs s).st.entries g = s.st.entries g := by
  induction fs generalizing i s with
  | nil => rfl
  | cons f fs ih =>
      rw [retryLoop, ih (i + 1) (fun k hk => hg k (by omega)), retryFile_entries (hg i le_rfl)]

/-- The number of lines a file is left with. -/
def finalLines (env : Env) (target : CStr) (st : Store) (f : QueueFile) : Nat :=
  if Searched env st f then linesAfter target (st.contents f) else lineCount (st.contents f)

theorem retryLoop_contents_self {fs : List QueueFile} (hnodup : fs.Nodup) {f : QueueFile}
    (hf : f ∈ fs) (i : Nat) (s : Retry) :
    (retryLoop env target i fs s).st.contents f
      = if Searched env s.st f then searchedText target (s.st.contents f) else s.st.contents f := by
  induction fs generalizing i s with
  | nil => cases hf
  | cons g fs ih =>
      obtain ⟨hg, hfs⟩ := List.nodup_cons.mp hnodup
      by_cases hfg : f = g
      · subst hfg
        rw [retryLoop, retryLoop_contents fs hg, retryFile_contents_self]
      · have hmem : f ∈ fs := by simpa [hfg] using hf
        have hsame : (retryFile env target i g s).st.contents f = s.st.contents f :=
          retryFile_contents hfg i s
        rw [retryLoop, ih hfs hmem, hsame]
        simp only [searched_congr hsame]

theorem retryLoop_lines {fs : List QueueFile} (hnodup : fs.Nodup) {g : QueueFile} (hg : g ∈ fs)
    (i : Nat) (s : Retry) :
    lineCount ((retryLoop env target i fs s).st.contents g) = finalLines env target s.st g := by
  rw [retryLoop_contents_self hnodup hg, finalLines]
  split
  · exact lineCount_searchedText target _
  · rfl

/-- The counters assigned are those of the indices at which a file was searched. -/
theorem mem_retryLoop_assigned {fs : List QueueFile} (hnodup : fs.Nodup) (g : QueueFile) (i : Nat)
    (s : Retry) : g ∈ (retryLoop env target i fs s).assigned ↔ g ∈ s.assigned
      ∨ ∃ k f, fs[k]? = some f ∧ retryCounter (i + k) = some g ∧ Searched env s.st f := by
  induction fs generalizing i s with
  | nil => simp [retryLoop]
  | cons f fs ih =>
      obtain ⟨hf, hfs⟩ := List.nodup_cons.mp hnodup
      have hhead : g ∈ (retryFile env target i f s).assigned
          ↔ g ∈ s.assigned ∨ retryCounter i = some g ∧ Searched env s.st f := by
        by_cases hs : Searched env s.st f
        · simp [(retryFile_of_searched hs target i).assigned, hs]
        · simp [retryFile_of_not_searched hs, hs]
      have htail : (∃ k f', fs[k]? = some f' ∧ retryCounter (i + 1 + k) = some g
            ∧ Searched env (retryFile env target i f s).st f')
          ↔ ∃ k f', fs[k]? = some f' ∧ retryCounter (i + 1 + k) = some g
            ∧ Searched env s.st f' := by
        refine exists_congr fun k => exists_congr fun f' => and_congr_right fun hk => ?_
        have hne : f' ≠ f := fun h => hf (h ▸ List.mem_of_getElem? hk)
        exact and_congr_right fun _ => searched_congr (retryFile_contents hne i s)
      rw [retryLoop, ih hfs, hhead, htail, or_assoc]
      refine or_congr_right ⟨?_, ?_⟩
      · rintro (⟨hi, hs⟩ | ⟨k, f', hk, hcounter, hs⟩)
        · exact ⟨0, f, rfl, hi, hs⟩
        · exact ⟨k + 1, f', hk, by rw [← hcounter]; congr 1; omega, hs⟩
      · rintro ⟨k, f', hk, hcounter, hs⟩
        cases k with
        | zero =>
            obtain rfl : f = f' := by simpa using hk
            exact .inl ⟨hcounter, hs⟩
        | succ k =>
            exact .inr ⟨k, f', hk, by rw [← hcounter]; congr 1; omega, hs⟩

/-- What searching a file adds to the running total. -/
def searchedSurvivors (env : Env) (target : CStr) (st : Store) (f : QueueFile) : Nat :=
  if Searched env st f then survivors target (st.contents f) else 0

theorem retryFile_total (i : Nat) (f : QueueFile) (s : Retry) :
    (retryFile env target i f s).totalRemaining
      = s.totalRemaining + searchedSurvivors env target s.st f := by
  rw [searchedSurvivors]
  split
  · rename_i hf
    exact (retryFile_of_searched hf target i).total
  · rename_i hf
    rw [retryFile_of_not_searched hf, Nat.add_zero]

theorem searchedSurvivors_congr {st st' : Store} {f : QueueFile}
    (hcontents : st'.contents f = st.contents f) :
    searchedSurvivors env target st' f = searchedSurvivors env target st f := by
  rw [searchedSurvivors, searchedSurvivors, hcontents]
  simp only [searched_congr hcontents]

theorem retryCounter_injective {i k : Nat} {g : QueueFile} (hi : retryCounter i = some g)
    (hk : retryCounter k = some g) : i = k := by
  rcases i with _ | _ | _ | _ | _ | i <;> rcases k with _ | _ | _ | _ | _ | k <;>
    simp [retryCounter] at hi hk ⊢ <;> simp [← hi] at hk

/-- The counter assigned after a file gets the lines left in this file and all files before it. -/
theorem retryLoop_counter {before after : List QueueFile} {f g : QueueFile}
    (hnodup : (before ++ f :: after).Nodup) {i : Nat}
    (hi : retryCounter (i + before.length) = some g) (s : Retry) :
    ((retryLoop env target i (before ++ f :: after) s).st.entries g).toNat
      = if Searched env s.st f then
          (s.totalRemaining + (before.map (searchedSurvivors env target s.st)).sum
            + survivors target (s.st.contents f)) % 256
        else (s.st.entries g).toNat := by
  induction before generalizing i s with
  | nil =>
      have hlater : ∀ k, i + 1 ≤ k → retryCounter k ≠ some g := by
        intro k hk hg
        have hik := retryCounter_injective hi hg
        simp only [List.length_nil] at hik
        omega
      rw [List.nil_append, retryLoop, retryLoop_entries after (i + 1) hlater]
      split
      · rename_i hf
        have hstep := retryFile_of_searched hf target i
        rw [hstep.counter g hi, hstep.total]
        rfl
      · rename_i hf
        rw [retryFile_of_not_searched hf]
  | cons p before ih =>
      rw [List.cons_append, List.nodup_cons] at hnodup
      obtain ⟨hp, hrest⟩ := hnodup
      have hsame : ∀ q ∈ before ++ f :: after,
          (retryFile env target i p s).st.contents q = s.st.contents q := by
        intro q hq
        refine retryFile_contents ?_ i s
        rintro rfl
        exact hp hq
      have hf := hsame f (by simp)
      have hcounter : retryCounter i ≠ some g := by
        intro hg
        have hik := retryCounter_injective hg hi
        simp only [List.length_cons] at hik
        omega
      have hsum : before.map (searchedSurvivors env target (retryFile env target i p s).st)
          = before.map (searchedSurvivors env target s.st) :=
        List.map_congr_left fun q hq => searchedSurvivors_congr (hsame q (by simp [hq]))
      have hi' : retryCounter (i + 1 + before.length) = some g := by
        rw [← hi, List.length_cons]
        congr 1
        omega
      rw [List.cons_append, retryLoop, ih hrest hi', hsum, hf, retryFile_total,
        retryFile_entries hcounter, List.map_cons, List.sum_cons]
      simp only [searched_congr hf, Nat.add_assoc]

theorem retryLoop_numConnectors (fs : List QueueFile) (i : Nat) (s : Retry) :
    (retryLoop env target i fs s).st.numConnectors = s.st.numConnectors := by
  have hdelete : ∀ f st, (deleteLineIfFound env f target st).1.numConnectors = st.numConnectors := by
    intro f st
    rw [deleteLineIfFound]
    cases st.openRead env f with
    | none => rfl
    | some text => dsimp only; split_ifs <;> rfl
  induction fs generalizing i s with
  | nil => rfl
  | cons f fs ih =>
      rw [retryLoop, ih, retryFile]
      split_ifs
      · have hf := hdelete f s.st
        split <;> rename_i heq <;> rw [heq] at hf
        · exact hf
        · split <;> exact hf
      · rfl

end Loop

/-! ### The whole call -/

section Search

variable (env : Env) (target : CStr) (st : Store)

theorem retryFiles_nodup : st.retryFiles.Nodup := by
  simp [Store.retryFiles, connectorFiles_nodup]

theorem search_contents {f : QueueFile} (hf : f ∈ st.retryFiles) :
    (searchAndDeleteMessageFromAnyFile env target st).st.contents f
      = if Searched env st f then searchedText target (st.contents f) else st.contents f :=
  retryLoop_contents_self (retryFiles_nodup st) hf 0 _

/-- A file is as it was, or it was searched. -/
theorem search_contents_cases (f : QueueFile) :
    (searchAndDeleteMessageFromAnyFile env target st).st.contents f = st.contents f
      ∨ (searchAndDeleteMessageFromAnyFile env target st).st.contents f
        = searchedText target (st.contents f) := by
  by_cases hf : f ∈ st.retryFiles
  · rw [search_contents env target st hf]
    split
    · exact .inr rfl
    · exact .inl rfl
  · exact .inl (retryLoop_contents _ hf 0 _)

theorem search_lines {f : QueueFile} (hf : f ∈ st.retryFiles) :
    lineCount ((searchAndDeleteMessageFromAnyFile env target st).st.contents f)
      = finalLines env target st f :=
  retryLoop_lines (retryFiles_nodup st) hf 0 _

/-- The counter of one of the static files, which come `before` the others in the loop. -/
theorem search_counter (before : List QueueFile) (f : QueueFile) {after : List QueueFile}
    (hfiles : st.retryFiles = before ++ f :: after) (hf : retryCounter before.length = some f) :
    ((searchAndDeleteMessageFromAnyFile env target st).st.entries f).toNat
      = if Searched env st f then
          ((before.map (searchedSurvivors env target st)).sum
            + survivors target (st.contents f)) % 256
        else (st.entries f).toNat := by
  have hnodup := retryFiles_nodup st
  rw [hfiles] at hnodup
  rw [searchAndDeleteMessageFromAnyFile, hfiles,
    retryLoop_counter hnodup (by rwa [Nat.zero_add]), Nat.zero_add]

/-- Only the counters of the connectors 3 and 4 can be assigned. -/
theorem search_connector {j : Nat} (hj : j < 3) :
    (searchAndDeleteMessageFromAnyFile env target st).st.entries (.connector j)
      = st.entries (.connector j) := by
  refine retryLoop_entries _ 0 (fun k _ => ?_) _
  rcases k with _ | _ | _ | _ | _ | k <;> simp [retryCounter] <;> omega

theorem search_numConnectors :
    (searchAndDeleteMessageFromAnyFile env target st).st.numConnectors = st.numConnectors :=
  retryLoop_numConnectors _ _ _

theorem mem_search_assigned (f : QueueFile) :
    f ∈ (searchAndDeleteMessageFromAnyFile env target st).assigned
      ↔ ∃ k g, st.retryFiles[k]? = some g ∧ retryCounter k = some f ∧ Searched env st g := by
  rw [searchAndDeleteMessageFromAnyFile, mem_retryLoop_assigned (retryFiles_nodup st)]
  simp

theorem retryFiles_connector {k : Nat} {g : QueueFile} :
    st.retryFiles[k + 3]? = some g
      ↔ k < min (st.numConnectors : Nat) noOfConnectors ∧ g = .connector k := by
  simp only [Store.retryFiles, List.getElem?_cons_succ, List.getElem?_map,
    Option.map_eq_some_iff]
  constructor
  · rintro ⟨j, hj, rfl⟩
    obtain ⟨hlt, rfl⟩ := List.getElem?_eq_some_iff.mp hj
    simpa using hlt
  · rintro ⟨hk, rfl⟩
    exact ⟨k, by rw [List.getElem?_range hk], rfl⟩

theorem search_hasCounter (f : QueueFile) :
    (searchAndDeleteMessageFromAnyFile env target st).st.HasCounter f ↔ st.HasCounter f := by
  cases f <;> simp only [Store.HasCounter, search_numConnectors]

variable {st}

/-- A counter is right when what it is assigned is the number of lines left. -/
theorem search_matches_iff {f : QueueFile} (hf : f ∈ st.retryFiles)
    (hbefore : (st.entries f).toNat = lineCount (st.contents f)) {value : Nat}
    (hvalue : ((searchAndDeleteMessageFromAnyFile env target st).st.entries f).toNat
      = if Searched env st f then value else (st.entries f).toNat) :
    ((searchAndDeleteMessageFromAnyFile env target st).st.entries f).toNat
        = lineCount ((searchAndDeleteMessageFromAnyFile env target st).st.contents f)
      ↔ (Searched env st f → value = linesAfter target (st.contents f)) := by
  rw [hvalue, search_lines env target st hf, finalLines]
  by_cases hs : Searched env st f
  · simp [hs]
  · simp [hs, hbefore]

/-- The counter of a connector is not assigned, so the file has to keep its lines. -/
theorem search_connector_matches_iff (hnum : (st.numConnectors : Nat) ≤ noOfConnectors) {j : Nat}
    (hj : j < (st.numConnectors : Nat))
    (hbefore : (st.entries (.connector j)).toNat = lineCount (st.contents (.connector j))) :
    ((searchAndDeleteMessageFromAnyFile env target st).st.entries (.connector j)).toNat
        = lineCount ((searchAndDeleteMessageFromAnyFile env target st).st.contents (.connector j))
      ↔ (Searched env st (.connector j) → linesAfter target (st.contents (.connector j))
          = lineCount (st.contents (.connector j))) := by
  have hmem : .connector j ∈ st.retryFiles :=
    List.mem_of_getElem? ((retryFiles_connector st).mpr ⟨lt_min hj (lt_of_lt_of_le hj hnum), rfl⟩)
  have hkept := search_connector env target st (lt_of_lt_of_le hj hnum)
  rw [search_matches_iff env target hmem hbefore (by rw [hkept, hbefore, ite_self])]
  exact imp_congr_right fun _ => eq_comm

/-- The counters of the connectors 3 and 4, which are assigned after a search of one of the first two,
are not there. -/
theorem search_inBounds_iff (hnum : (st.numConnectors : Nat) ≤ noOfConnectors) :
    (∀ f ∈ (searchAndDeleteMessageFromAnyFile env target st).assigned, st.HasCounter f)
      ↔ ∀ i < 2, i < (st.numConnectors : Nat) → ¬ Searched env st (.connector i) := by
  have hle : (st.numConnectors : Nat) ≤ 3 := hnum
  constructor
  · intro hinBounds i hi hlt hs
    have hfile := (retryFiles_connector st).mpr
      ⟨lt_min hlt (lt_of_lt_of_le hlt hnum), Eq.refl (QueueFile.connector i)⟩
    have hcounter : retryCounter (i + 3) = some (.connector (i + 3)) := by
      rcases i with _ | _ | i
      · rfl
      · rfl
      · omega
    have hin : i + 3 < (st.numConnectors : Nat) :=
      hinBounds _ ((mem_search_assigned env target st _).mpr ⟨i + 3, _, hfile, hcounter, hs⟩)
    omega
  · intro hfirst f hf
    obtain ⟨k, g, hk, hcounter, hs⟩ := (mem_search_assigned env target st f).mp hf
    rcases k with _ | _ | _ | k
    · obtain rfl := Option.some.inj hcounter
      trivial
    · obtain rfl := Option.some.inj hcounter
      trivial
    · obtain rfl := Option.some.inj hcounter
      trivial
    · obtain ⟨hlt, rfl⟩ := (retryFiles_connector st).mp hk
      have hlt : k < (st.numConnectors : Nat) := lt_of_lt_of_le hlt (min_le_left _ _)
      rcases k with _ | _ | k
      · exact absurd hs (hfirst 0 (by omega) hlt)
      · exact absurd hs (hfirst 1 (by omega) hlt)
      · simp [retryCounter] at hcounter

end Search

/-- What is required of the counters: each is the number of lines of its own file, and no element
outside the allocated array is assigned. -/
structure CountersMatch (r : Retry) : Prop where
  counts : ∀ f, r.st.HasCounter f → (r.st.entries f).toNat = lineCount (r.st.contents f)
  inBounds : ∀ f ∈ r.assigned, r.st.HasCounter f

/-- When the counters come out right. For the static files, what is left in the searched files
before them must vanish modulo 256; the connector files must not be searched, except for the third,
which must not lose a line. -/
structure RetryKeepsCounts (env : Env) (target : CStr) (st : Store) : Prop where
  request : Searched env st .request →
    survivors target (st.contents .request) % 256 = linesAfter target (st.contents .request)
  onlineCharger : Searched env st .onlineCharger →
    (searchedSurvivors env target st .request
      + survivors target (st.contents .onlineCharger)) % 256
        = linesAfter target (st.contents .onlineCharger)
  offlineCharger : Searched env st .offlineCharger →
    (searchedSurvivors env target st .request + searchedSurvivors env target st .onlineCharger
      + survivors target (st.contents .offlineCharger)) % 256
        = linesAfter target (st.contents .offlineCharger)
  firstConnectors : ∀ i < 2, i < (st.numConnectors : Nat) → ¬ Searched env st (.connector i)
  thirdConnector : 2 < (st.numConnectors : Nat) → Searched env st (.connector 2) →
    linesAfter target (st.contents (.connector 2)) = lineCount (st.contents (.connector 2))

/-- The counters match after the call exactly under `RetryKeepsCounts`. -/
theorem retry_counters_match_iff (env : Env) (target : CStr) {st : Store}
    (hnum : (st.numConnectors : Nat) ≤ noOfConnectors)
    (hbefore : ∀ f, st.HasCounter f → (st.entries f).toNat = lineCount (st.contents f)) :
    CountersMatch (searchAndDeleteMessageFromAnyFile env target st)
      ↔ RetryKeepsCounts env target st := by
  have hrequest := search_counter env target st [] .request rfl rfl
  have honline := search_counter env target st [.request] .onlineCharger rfl rfl
  have hoffline := search_counter env target st [.request, .onlineCharger] .offlineCharger rfl rfl
  simp only [List.map_nil, List.map_cons, List.sum_nil, List.sum_cons, Nat.zero_add, Nat.add_zero]
    at hrequest honline hoffline
  have hrequest' := search_matches_iff env target (by simp [Store.retryFiles])
    (hbefore .request trivial) hrequest
  have honline' := search_matches_iff env target (by simp [Store.retryFiles])
    (hbefore .onlineCharger trivial) honline
  have hoffline' := search_matches_iff env target (by simp [Store.retryFiles])
    (hbefore .offlineCharger trivial) hoffline
  have hconnector := fun j (hj : j < (st.numConnectors : Nat)) =>
    search_connector_matches_iff env target hnum hj (hbefore (.connector j) hj)
  have hassigned : (∀ f ∈ (searchAndDeleteMessageFromAnyFile env target st).assigned,
      (searchAndDeleteMessageFromAnyFile env target st).st.HasCounter f) ↔ _ :=
    (forall₂_congr fun f _ => search_hasCounter env target st f).trans
      (search_inBounds_iff env target hnum)
  constructor
  · intro hmatch
    have hown : ∀ f, st.HasCounter f → _ :=
      fun f hf => hmatch.counts f ((search_hasCounter env target st f).mpr hf)
    exact ⟨hrequest'.mp (hown _ trivial), honline'.mp (hown _ trivial), hoffline'.mp (hown _ trivial),
      hassigned.mp hmatch.inBounds, fun hthird => (hconnector 2 hthird).mp (hown _ hthird)⟩
  · intro hkeeps
    refine ⟨fun f hf => ?_, hassigned.mpr hkeeps.firstConnectors⟩
    cases f with
    | request => exact hrequest'.mpr hkeeps.request
    | onlineCharger => exact honline'.mpr hkeeps.onlineCharger
    | offlineCharger => exact hoffline'.mpr hkeeps.offlineCharger
    | connector j =>
        have hj : j < (st.numConnectors : Nat) := (search_hasCounter env target st _).mp hf
        refine (hconnector j hj).mpr fun hs => ?_
        by_cases hfirst : j < 2
        · exact absurd hs (hkeeps.firstConnectors j hfirst hj)
        · have hle : (st.numConnectors : Nat) ≤ 3 := hnum
          obtain rfl : j = 2 := by omega
          exact hkeeps.thirdConnector hj hs

/-- One request and one fault are queued, and the fault is given up. -/
def requestAndFault : Store where
  numConnectors := 2
  disk
    | .queue .request => some (unlines [entryLine requestMessage newYear])
    | .queue .onlineCharger => some (unlines [entryLine faultMessage newYear])
    | _ => none
  entries
    | .request | .onlineCharger => 1
    | _ => 0

theorem requestAndFault_counts (f : QueueFile) :
    (requestAndFault.entries f).toNat = lineCount (requestAndFault.contents f) := by
  cases f with
  | connector i => rfl
  | _ => decide

/-- The request that is left is counted again as an entry of the fault file. -/
theorem running_total_is_assigned :
    (∀ f, requestAndFault.HasCounter f →
        (requestAndFault.entries f).toNat = lineCount (requestAndFault.contents f))
      ∧ (requestAndFault.numConnectors : Nat) ≤ noOfConnectors
      ∧ ¬ CountersMatch
        (searchAndDeleteMessageFromAnyFile healthy faultMessage requestAndFault) := by
  refine ⟨fun f _ => requestAndFault_counts f, by decide, fun hmatch => ?_⟩
  have hcount := hmatch.counts .onlineCharger trivial
  revert hcount
  decide +kernel

theorem retry_of_request : CountersMatch
    (searchAndDeleteMessageFromAnyFile
      { healthy with opensForReading := fun f => f == .request } requestMessage
      requestAndFault) := by
  refine (retry_counters_match_iff _ _ (by decide) fun f _ => requestAndFault_counts f).mpr ?_
  have hrequest : ∀ f, f ≠ .request → ¬ Searched
      { healthy with opensForReading := fun f => f == .request } requestAndFault f := by
    intro f hf hs
    exact hf (by simpa using hs.2.1)
  exact ⟨fun _ => by decide, fun hs => absurd hs (hrequest _ (by simp)),
    fun hs => absurd hs (hrequest _ (by simp)), fun i _ _ => hrequest _ (by simp),
    fun _ hs => absurd hs (hrequest _ (by simp))⟩

/-! ### Files of lines that fit the buffer -/

/-- A file whose lines fit the line buffer: `fgets` then reads line by line. -/
def FitsBuffer (text : CStr) : Prop :=
  ∃ lines, text = unlines lines ∧ ∀ line ∈ lines, Fits dequeMsgBuffer line

theorem length_searchedLines {text : CStr} (hfits : FitsBuffer text) :
    (searchedLines text).length = lineCount text := by
  obtain ⟨lines, rfl, hlines⟩ := hfits
  rw [searchedLines, readLines_unlines hlines, List.length_map, List.length_map,
    lineCount_unlines fun line hline => (hlines line hline).1]

theorem survivors_of_fits (target : CStr) {text : CStr} (hfits : FitsBuffer text) :
    survivors target text = linesAfter target text := by
  rw [linesAfter]
  split
  · rfl
  · rename_i hnone
    rw [← length_searchedLines hfits, survivors, List.countP_eq_length]
    simpa using hnone

theorem survivors_le (target : CStr) {text : CStr} (hfits : FitsBuffer text) :
    survivors target text ≤ lineCount text := by
  rw [← length_searchedLines hfits]
  exact List.countP_le_length

/-- For such files the condition reads: nothing is left in a searched file before another static
one, no connector file 0 or 1 is searched, and the third connector file does not hold the target. -/
theorem retryKeepsCounts_of_fits (env : Env) (target : CStr) {st : Store}
    (hbefore : ∀ f, st.HasCounter f → (st.entries f).toNat = lineCount (st.contents f))
    (hfits : ∀ f, Searched env st f → FitsBuffer (st.contents f)) :
    RetryKeepsCounts env target st ↔
      (Searched env st .onlineCharger → searchedSurvivors env target st .request = 0)
      ∧ (Searched env st .offlineCharger → 256 ∣ searchedSurvivors env target st .request
          + searchedSurvivors env target st .onlineCharger)
      ∧ (∀ i < 2, i < (st.numConnectors : Nat) → ¬ Searched env st (.connector i))
      ∧ (2 < (st.numConnectors : Nat) → Searched env st (.connector 2) →
          survivors target (st.contents (.connector 2)) = lineCount (st.contents (.connector 2))) := by
  have hlt : ∀ f, st.HasCounter f → Searched env st f →
      survivors target (st.contents f) < 256 := by
    intro f hf hs
    refine lt_of_le_of_lt (survivors_le target (hfits f hs)) ?_
    rw [← hbefore f hf]
    exact UInt8.toNat_lt _
  have hsum : ∀ f, st.HasCounter f → searchedSurvivors env target st f < 256 := by
    intro f hf
    rw [searchedSurvivors]
    split
    · rename_i hs
      exact hlt f hf hs
    · decide
  have hrequest := hsum .request trivial
  constructor
  · intro h
    refine ⟨fun hs => ?_, fun hs => ?_, h.firstConnectors, fun hnum hs => ?_⟩
    · have honline := h.onlineCharger hs
      have hown := hlt .onlineCharger trivial hs
      rw [← survivors_of_fits target (hfits _ hs)] at honline
      omega
    · have hoffline := h.offlineCharger hs
      rw [← survivors_of_fits target (hfits _ hs)] at hoffline
      omega
    · rw [survivors_of_fits target (hfits _ hs)]
      exact h.thirdConnector hnum hs
  · rintro ⟨honline, hoffline, hfirst, hthird⟩
    refine ⟨fun hs => ?_, fun hs => ?_, fun hs => ?_, hfirst, fun hnum hs => ?_⟩
    · rw [← survivors_of_fits target (hfits _ hs), Nat.mod_eq_of_lt (hlt .request trivial hs)]
    · have hown := hlt .onlineCharger trivial hs
      rw [← survivors_of_fits target (hfits _ hs), honline hs, Nat.zero_add, Nat.mod_eq_of_lt hown]
    · have hown := hlt .offlineCharger trivial hs
      have hdvd := hoffline hs
      rw [← survivors_of_fits target (hfits _ hs)]
      omega
    · rw [← survivors_of_fits target (hfits _ hs)]
      exact hthird hnum hs

end Pmu
