import PmuFirmware.Queue.Saving

/-!
# Going through the files

What a call that takes lines out makes of a file and its counter depends on that file, its counter and
what the call remembers of the files before. The files it has been through are therefore as after a single
call, whatever has become meanwhile of a file that it has not come to yet.
-/

namespace Pmu

open CLib

/-- The files and their counters. -/
abbrev Objects : Type := QueueFile → Option CStr × UInt8

def Objects.assign (o : Objects) (counter : Option QueueFile) (count : Nat) : Objects := fun g =>
  ((o g).1, assignCounter (fun h => (o h).2) counter count g)

/-- The file is left as `file`, then the counter is assigned. -/
def Objects.left (o : Objects) (f : QueueFile) (file : Option CStr) (counter : Option QueueFile)
    (count : Nat) : Objects :=
  Objects.assign (Function.update o f (file, (o f).2)) counter count

theorem assignCounter_of_ne {entries : QueueFile → UInt8} {counter : Option QueueFile} {g : QueueFile}
    (hg : counter ≠ some g) (count : Nat) : assignCounter entries counter count g = entries g := by
  cases counter with
  | none => rfl
  | some f => exact Function.update_of_ne (fun h => hg (congrArg some h.symm)) _ _

theorem assignCounter_self (entries : QueueFile → UInt8) (g : QueueFile) (count : Nat) :
    assignCounter entries (some g) count g = UInt8.ofNat count := Function.update_self _ _ _

theorem assignCounter_congr {entries entries' : QueueFile → UInt8} {g : QueueFile}
    (h : entries g = entries' g) (counter : Option QueueFile) (count : Nat) :
    assignCounter entries counter count g = assignCounter entries' counter count g := by
  by_cases hg : counter = some g
  · rw [hg, assignCounter_self, assignCounter_self]
  · rw [assignCounter_of_ne hg, assignCounter_of_ne hg, h]

namespace Objects

variable {o : Objects} {f g : QueueFile} {file : Option CStr} {counter : Option QueueFile} {count : Nat}

theorem left_self (hfile : file = (o f).1) : o.left f file none count = o := by
  have hsame : Function.update o f (file, (o f).2) = o := by
    rw [hfile]
    exact Function.update_eq_self f o
  rw [left, hsame]
  rfl

theorem left_of_ne (hg : g ≠ f) (hcounter : counter ≠ some g) :
    o.left f file counter count g = o g := by
  rw [left, assign, assignCounter_of_ne hcounter, Function.update_of_ne hg]

theorem left_at (o : Objects) (f : QueueFile) (file : Option CStr) (counter : Option QueueFile)
    (count : Nat) : o.left f file counter count f
      = (file, assignCounter (fun _ => (o f).2) counter count f) := by
  rw [left, assign, Function.update_self]
  exact Prod.ext rfl (assignCounter_congr (by rw [Function.update_self]) counter count)

/-- What becomes of one file does not depend on another. -/
theorem left_update (hg : g ≠ f) (hcounter : counter ≠ some g) (v : Option CStr × UInt8) :
    left (Function.update o g v) f file counter count
      = Function.update (o.left f file counter count) g v := by
  funext h
  by_cases hh : h = g
  · subst hh
    rw [left_of_ne hg hcounter, Function.update_self, Function.update_self]
  · rw [Function.update_of_ne hh, left, left, assign, assign, Function.update_of_ne hg.symm,
      Function.update_comm hg]
    refine Prod.ext ?_ (assignCounter_congr ?_ counter count)
    · rw [Function.update_of_ne hh]
    · rw [Function.update_of_ne hh]

end Objects

/-- The files of a call have counters. -/
theorem Removal.hasCounter_of_mem {removal : Removal} {f : QueueFile} (st : Store)
    (hf : f ∈ removal.files st.numConnectors) : st.HasCounter f := by
  cases removal with
  | response uuid =>
      obtain rfl := List.mem_singleton.mp hf
      trivial
  | fault uuid => exact (faultFiles_hasCounter st f hf).1
  | retry target =>
      simp only [files, List.mem_cons, List.mem_map, List.mem_range] at hf
      rcases hf with rfl | rfl | rfl | ⟨i, hi, rfl⟩
      · trivial
      · trivial
      · trivial
      · exact hi.trans_le (Nat.min_le_left _ _)

/-- A file that is entered is also entered with more lines. -/
theorem Removal.Enters.mono {removal : Removal} {env : Env} {m : Progress} {f : QueueFile}
    {count count' : UInt8} {file file' : Option CStr} (h : removal.Enters env m f count file)
    (hcount : count ≠ 0 → count' ≠ 0) (hfile : file.getD [] ≠ [] → file'.getD [] ≠ []) :
    removal.Enters env m f count' file' := by
  cases removal with
  | response uuid => trivial
  | fault uuid => exact ⟨hcount h.1, h.2⟩
  | retry target => exact ⟨h.1, hfile h.2⟩

/-- Only a search may leave the file as it is, and it does not enter an empty one. -/
theorem Removal.Enters.ne_nil {parse : CStr → Option Json} {removal : Removal} {env : Env}
    {m : Progress} {f : QueueFile} {count : UInt8} {file : Option CStr}
    (h : removal.Enters env m f count file) (hnot : (removal.job parse f).always ≠ true) :
    file.getD [] ≠ [] := by
  cases removal with
  | response uuid => exact absurd rfl hnot
  | fault uuid => exact absurd rfl hnot
  | retry target => exact h.2

namespace TwoCalls

variable (parse : CStr → Option Json) (c : TwoCalls)

/-- The file is not entered, or it cannot be rewritten. -/
def Kept (m : Progress) (f : QueueFile) (x : Option CStr × UInt8) : Prop :=
  ¬c.removal.Enters c.removerEnv m f x.2 x.1 ∨ x.1 = none
    ∨ ¬(c.removal.job parse f).Opens c.removerEnv

/-- What is left of a file that was `x`, and the assignment that follows. -/
inductive FileVisit (i : Nat) (f : QueueFile) (m : Progress) (x : Option CStr × UInt8) :
    Progress → Option CStr → Option QueueFile → Nat → Prop
  | kept (h : c.Kept parse m f x) : FileVisit i f m x m x.1 none 0
  | pass {text : CStr} {p : Pass} (henters : c.removal.Enters c.removerEnv m f x.2 x.1)
      (hopens : (c.removal.job parse f).Opens c.removerEnv) (htext : x.1 = some text)
      (hpass : (c.removal.job parse f).pass text = some p) :
      FileVisit i f m x (c.removal.remember m p) (some ((c.removal.job parse f).rewritten p text))
        (c.removal.counter i f) (c.removal.count m p)

def Visit (i : Nat) (f : QueueFile) (m : Progress) (o : Objects) (m' : Progress) (o' : Objects) : Prop :=
  ∃ file counter count, c.FileVisit parse i f m (o f) m' file counter count
    ∧ o' = o.left f file counter count

/-- The files that have been gone through. -/
inductive Visited (o₀ : Objects) : List QueueFile → Progress → Objects → Prop
  | start : Visited o₀ [] .start o₀
  | next {before : List QueueFile} {f : QueueFile} {m m' : Progress} {o o' : Objects}
      (hbefore : Visited o₀ before m o) (hvisit : c.Visit parse before.length f m o m' o') :
      Visited o₀ (before ++ [f]) m' o'

variable {parse} {c} {i : Nat} {f g : QueueFile} {m m' : Progress} {o o' o₀ : Objects}
  {before : List QueueFile}

theorem getElem?_of_part {files : List QueueFile} (h : before ++ [f] <+: files) :
    files[before.length]? = some f := by
  obtain ⟨after, rfl⟩ := h
  rw [List.append_assoc, List.getElem?_append_right le_rfl, Nat.sub_self]
  rfl

theorem FileVisit.counter_eq {x : Option CStr × UInt8} {file : Option CStr} {counter : Option QueueFile}
    {count : Nat} (h : c.FileVisit parse i f m x m' file counter count) :
    counter = none ∨ counter = c.removal.counter i f := by
  cases h with
  | kept h => exact .inl rfl
  | pass => exact .inr rfl

/-- A visit has nothing to do with another file whose counter it does not assign. -/
theorem Visit.update (h : c.Visit parse i f m o m' o') (hg : g ≠ f)
    (hcounter : c.removal.counter i f ≠ some g) :
    o' g = o g ∧ ∀ v, c.Visit parse i f m (Function.update o g v) m' (Function.update o' g v) := by
  obtain ⟨file, counter, count, hfile, rfl⟩ := h
  have hother : counter ≠ some g := by
    rcases hfile.counter_eq with rfl | rfl
    · exact (Option.some_ne_none g).symm
    · exact hcounter
  refine ⟨Objects.left_of_ne hg hother, fun v => ⟨file, counter, count, ?_, ?_⟩⟩
  · rwa [Function.update_of_ne hg.symm]
  · rw [Objects.left_update hg hother]

/-- The files before another one do not depend on it. -/
theorem Visited.update (h : c.Visited parse o₀ before m o)
    (hbefore : before <+: c.removal.files c.numConnectors)
    (hg : g ∈ c.removal.files c.numConnectors) (hnot : g ∉ before) :
    o g = o₀ g ∧ ∀ v, c.Visited parse (Function.update o₀ g v) before m (Function.update o g v) := by
  induction h with
  | start => exact ⟨rfl, fun v => .start⟩
  | @next before f m m' o o' _ hvisit ih =>
      have hne : g ≠ f := fun h => hnot (by simp [h])
      have hfile := getElem?_of_part hbefore
      obtain ⟨hkept, hvisit'⟩ := hvisit.update hne (Removal.counter_ne hfile hg hne)
      obtain ⟨hbefore', hvisited⟩ := ih ((List.prefix_append before [f]).trans hbefore)
        fun hmem => hnot (List.mem_append_left _ hmem)
      exact ⟨hkept.trans hbefore', fun v => .next (hvisited v) (hvisit' v)⟩

/-! ### The calls themselves -/

variable {st : Store}

/-- A file, when nobody else is there. -/
theorem Visit.exists_visit (h : c.Visit parse i f m o m' o')
    (hf : f ∈ c.removal.files c.numConnectors) (hst : ∀ g, st.object g = o g) :
    ∃ st', c.removal.visit parse c.removerEnv i f (m, st) = some (m', st')
      ∧ st'.numConnectors = st.numConnectors ∧ ∀ g, st'.object g = o' g := by
  have hfile : (c.removal.job parse f).file = f := Removal.job_file hf
  obtain ⟨file, counter, count, hvisit, rfl⟩ := h
  rw [← hst f] at hvisit
  cases hvisit with
  | kept hkept =>
      refine ⟨st, ?_, rfl, fun g => ?_⟩
      · rcases hkept with hskipped | hfailed
        · exact Removal.visit_of_skipped hskipped
        · exact Removal.visit_of_failed hfile hfailed
      · rw [Objects.left_self (congrArg Prod.fst (hst f))]
        exact hst g
  | pass henters hopens htext hpass =>
      obtain ⟨st', hvisit, hconnectors, hentries, hdisk⟩ :=
        Removal.visit_of_pass (i := i) hfile henters hopens htext hpass
      refine ⟨st', hvisit, hconnectors, fun g => Prod.ext ?_ ?_⟩
      · refine (hdisk g).trans ?_
        by_cases hg : g = f
        · rw [if_pos hg, Objects.left, Objects.assign, hg, Function.update_self]
        · rw [if_neg hg, Objects.left, Objects.assign, Function.update_of_ne hg, ← hst g]
          rfl
      · refine (congrFun hentries g).trans (assignCounter_congr ?_ _ _)
        by_cases hg : g = f
        · rw [hg, Function.update_self, ← hst f]
          rfl
        · rw [Function.update_of_ne hg, ← hst g]
          rfl

theorem Visited.exists_visits (h : c.Visited parse o₀ before m o)
    (hbefore : before <+: c.removal.files c.numConnectors) (hst : ∀ g, st.object g = o₀ g) :
    ∃ st', c.removal.visits parse c.removerEnv 0 before (.start, st) = some (m, st')
      ∧ st'.numConnectors = st.numConnectors ∧ ∀ g, st'.object g = o g := by
  induction h with
  | start => exact ⟨st, rfl, rfl, hst⟩
  | @next before f m m' o o' _ hvisit ih =>
      have hf : f ∈ c.removal.files c.numConnectors :=
        List.mem_of_getElem? (getElem?_of_part hbefore)
      obtain ⟨st₁, hvisits, hconnectors₁, hst₁⟩ := ih ((List.prefix_append before [f]).trans hbefore)
      obtain ⟨st', hlast, hconnectors, hst'⟩ := hvisit.exists_visit hf hst₁
      refine ⟨st', ?_, hconnectors.trans hconnectors₁, hst'⟩
      rw [Removal.visits_append_singleton, hvisits, Option.bind_some, Nat.zero_add]
      exact hlast

/-- The whole call. -/
theorem Visited.exists_run (h : c.Visited parse o₀ (c.removal.files c.numConnectors) m o)
    (hconnectors : st.numConnectors = c.numConnectors) (hst : ∀ g, st.object g = o₀ g) :
    ∃ st', c.removal.run parse c.removerEnv st = some st'
      ∧ st'.numConnectors = st.numConnectors ∧ ∀ g, st'.object g = o g := by
  obtain ⟨st', hvisits, hkept, hst'⟩ := h.exists_visits (List.prefix_refl _) hst
  refine ⟨st', ?_, hkept, hst'⟩
  rw [← Removal.run_eq, hconnectors, hvisits]
  rfl

end TwoCalls

end Pmu
