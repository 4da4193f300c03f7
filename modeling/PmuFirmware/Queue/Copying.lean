import PmuFirmware.Lib.SharedFile
import PmuFirmware.Queue.Rewriter

/-!
# A pass beside others

What a rewriting function knows at each of its calls, when no call but an opening fails and nobody else
rewrites the file or uses the temporary file. Others may append to the file until its end has been
read.
-/

namespace Pmu

open CLib

/-- The outcome of the next call: only an opening can fail. -/
def Env.allows (env : Env) (f : QueueFile) : Pc → Bool
  | .openSrc => env.opensForReading f
  | .openTemp _ => env.opensTemp f
  | _ => true

/-- The temporary file is in use. -/
def Pc.usesTemp : Pc → Bool
  | .openSrc => false
  | .openTemp _ => false
  | .done _ => false
  | .overrun => false
  | _ => true

/-- The next call removes the file or renames the copy. -/
def Pc.stepsPath : Pc → Bool
  | .remove _ => true
  | .rename _ => true
  | _ => false

/-- The end of the file has not been read yet. -/
def Pc.reading : Pc → Bool
  | .openSrc => true
  | .openTemp _ => true
  | .copy .. => true
  | .write .. => true
  | _ => false

namespace Rewriter

variable (job : Rewriter)

/-- Both files can be opened. -/
def Opens (env : Env) : Prop :=
  env.opensForReading job.file = true ∧ env.opensTemp job.file = true

/-- The copy takes the place of the file. -/
def Replaces (p : Pass) : Prop := job.always = true ∨ 0 < p.deleted

instance (p : Pass) : Decidable (job.Replaces p) := inferInstanceAs (Decidable (_ ∨ _))

/-- The text that a pass leaves. -/
def rewritten (p : Pass) (text : CStr) : CStr := if job.Replaces p then p.temp else text

/-- The handle reads the file, the rest of which is still to be read. -/
structure Source (fs : FileSystem Path) (src : Handle) (text rest : CStr) : Prop where
  reads : fs.Reads src job.path text rest
  inside : src.pos ≤ text.length

/-- The copy is complete, and the file is still there. -/
structure Complete (env : Env) (file : Option CStr) (fs : FileSystem Path) (p : Pass) : Prop where
  opens : job.Opens env
  passed : ∃ text, file = some text ∧ job.pass text = some p
  here : fs.contents job.path = file
  copy : fs.contents job.temp = some p.temp

/-- What is known before each call when `file` is what the path leads to. -/
def Doing (env : Env) (file : Option CStr) (fs : FileSystem Path) : Pc → Prop
  | .openSrc => fs.contents job.path = file
  | .openTemp src => env.opensForReading job.file = true
      ∧ ∃ text, file = some text ∧ job.Source fs src text text
  | .scan src temp o => job.Opens env ∧ ∃ text rest scanLine, file = some text
      ∧ job.Source fs src text rest ∧ fs.Writes temp job.temp [] ∧ job.firstPass = some scanLine
      ∧ job.oldest text = (readLines job.size rest).foldlM scanLine o
  | .copy src temp o p => job.Opens env ∧ ∃ text rest, file = some text
      ∧ job.Source fs src text rest ∧ fs.Writes temp job.temp p.temp ∧ job.oldest text = some o
      ∧ job.pass text = (readLines job.size rest).foldlM (job.copyLine o) p
  | .write src temp o p line => job.Opens env ∧ ∃ text rest, file = some text
      ∧ job.Source fs src text rest ∧ fs.Writes temp job.temp p.temp ∧ job.oldest text = some o
      ∧ job.pass text = (readLines job.size rest).foldlM (job.copyLine o) (p.keep line)
  | .closeSrc p => job.Complete env file fs p
  | .closeTemp p => job.Complete env file fs p
  | .remove p => job.Replaces p ∧ job.Complete env file fs p
  | .rename p => job.Replaces p ∧ job.Opens env ∧ (∃ text, file = some text ∧ job.pass text = some p)
      ∧ fs.contents job.path = none ∧ fs.contents job.temp = some p.temp
  | .dropTemp p => ¬job.Replaces p ∧ job.Complete env file fs p
  | .done none => fs.contents job.path = file ∧ (file = none ∨ ¬job.Opens env)
  | .done (some p) => job.Opens env ∧ ∃ text, file = some text ∧ job.pass text = some p
      ∧ fs.contents job.path = some (job.rewritten p text)
  | .overrun => True

section Doing

variable {job} {env : Env} {file : Option CStr} {fs fs' : FileSystem Path} {pc : Pc}

/-! ### What the next call does -/

theorem Source.rewound {src : Handle} {text rest : CStr} (h : job.Source fs src text rest) :
    job.Source fs { src with pos := 0 } text text :=
  ⟨⟨h.reads.file, h.reads.text, rfl⟩, Nat.zero_le _⟩

theorem Source.congr {src : Handle} {text rest : CStr} (h : job.Source fs src text rest)
    (hpath : FileSystem.Same fs fs' job.path) : job.Source fs' src text rest :=
  ⟨hpath.reads h.reads, h.inside⟩

theorem Complete.congr {p : Pass} (h : job.Complete env file fs p)
    (hpath : FileSystem.Same fs fs' job.path) (htemp : FileSystem.Same fs fs' job.temp) :
    job.Complete env file fs' p :=
  ⟨h.opens, h.passed, hpath.contents.trans h.here, htemp.contents.trans h.copy⟩

theorem doing_openSrc (h : job.Doing env file fs .openSrc) :
    job.Doing env file (job.step (env.opensForReading job.file) fs .openSrc).1
      (job.step (env.opensForReading job.file) fs .openSrc).2 := by
  rw [step]
  cases hok : env.opensForReading job.file with
  | false => exact ⟨h, .inr fun hopens => by rw [hopens.1] at hok; cases hok⟩
  | true =>
      cases hsrc : fs.openRead job.path with
      | none =>
          rw [FileSystem.openRead_eq_none] at hsrc
          exact ⟨h, .inl (h.symm.trans hsrc)⟩
      | some src =>
          have hfile : fs.contents job.path ≠ none := by
            rw [Ne, ← FileSystem.openRead_eq_none, hsrc]
            exact Option.some_ne_none src
          obtain ⟨text, htext⟩ := Option.ne_none_iff_exists'.mp hfile
          obtain ⟨src', hsrc', hreads⟩ := FileSystem.openRead_eq htext
          obtain rfl := Option.some.inj (hsrc.symm.trans hsrc')
          have hpos : src.pos = 0 := by
            rw [FileSystem.openRead] at hsrc
            obtain ⟨i, -, rfl⟩ := Option.map_eq_some_iff.mp hsrc
            rfl
          exact ⟨hok, text, h.symm.trans htext, hreads, by omega⟩

theorem doing_openTemp {src : Handle} (h : job.Doing env file fs (.openTemp src)) :
    job.Doing env file (job.step (env.opensTemp job.file) fs (.openTemp src)).1
      (job.step (env.opensTemp job.file) fs (.openTemp src)).2 := by
  obtain ⟨hreading, text, rfl, hsource⟩ := h
  rw [step]
  cases hok : env.opensTemp job.file with
  | false => exact ⟨hsource.reads.text, .inr fun hopens => by rw [hopens.2] at hok; cases hok⟩
  | true =>
      have hopens : job.Opens env := ⟨hreading, hok⟩
      have hsource' := hsource.congr (fs.same_openWrite job.path_ne_temp)
      have hwrites := fs.openWrite_writes job.temp
      rw [if_pos rfl]
      cases hfirst : job.firstPass with
      | none =>
          have holdest : job.oldest text = some .start := by rw [oldest, hfirst]
          refine ⟨hopens, text, text, rfl, hsource', hwrites, holdest, ?_⟩
          rw [pass, holdest, Option.bind_some]
      | some scanLine =>
          refine ⟨hopens, text, text, scanLine, rfl, hsource', hwrites, hfirst, ?_⟩
          rw [oldest, hfirst]

theorem doing_scan {src temp : Handle} {o : Oldest} (ok : Bool)
    (h : job.Doing env file fs (.scan src temp o)) :
    job.Doing env file (job.step ok fs (.scan src temp o)).1 (job.step ok fs (.scan src temp o)).2 := by
  obtain ⟨hopens, text, rest, scanLine, rfl, hsource, hwrites, hfirst, holdest⟩ := h
  rw [step]
  rcases job.readLines_cases rest with ⟨rfl, hlines⟩ | ⟨buffer, left, hget, hlines⟩
  · rw [hsource.reads.gets_eof job.size]
    rw [hlines, List.foldlM_nil] at holdest
    refine ⟨hopens, text, text, rfl, hsource.rewound, hwrites, holdest, ?_⟩
    rw [pass, holdest]
    rfl
  · obtain ⟨src', hgets, hreads'⟩ := hsource.reads.gets_line hget
    rw [hlines, List.foldlM_cons, Option.bind_eq_bind] at holdest
    rw [hgets]
    simp only [hfirst, Option.bind_some]
    cases hline : scanLine o buffer with
    | none => trivial
    | some o' =>
        rw [hline, Option.bind_some] at holdest
        exact ⟨hopens, text, left, scanLine, rfl,
          ⟨hreads', hsource.reads.pos_le_of_gets hsource.inside hgets⟩, hwrites, hfirst, holdest⟩

theorem doing_copy {src temp : Handle} {o : Oldest} {p : Pass} (ok : Bool)
    (h : job.Doing env file fs (.copy src temp o p)) :
    job.Doing env file (job.step ok fs (.copy src temp o p)).1
      (job.step ok fs (.copy src temp o p)).2 := by
  obtain ⟨hopens, text, rest, rfl, hsource, hwrites, holdest, hpass⟩ := h
  rw [step]
  rcases job.readLines_cases rest with ⟨rfl, hlines⟩ | ⟨buffer, left, hget, hlines⟩
  · rw [hsource.reads.gets_eof job.size]
    rw [hlines, List.foldlM_nil] at hpass
    exact ⟨hopens, ⟨text, rfl, hpass⟩, hsource.reads.text, hwrites.text⟩
  · obtain ⟨src', hgets, hreads'⟩ := hsource.reads.gets_line hget
    have hsource' : job.Source fs src' text left :=
      ⟨hreads', hsource.reads.pos_le_of_gets hsource.inside hgets⟩
    rw [hlines, List.foldlM_cons, Option.bind_eq_bind, copyLine] at hpass
    rw [hgets]
    dsimp only
    cases hkeeps : job.keeps o (job.lineOf buffer) with
    | none => trivial
    | some keep =>
        rw [hkeeps, Option.map_some, Option.bind_some] at hpass
        cases keep with
        | true => exact ⟨hopens, text, left, rfl, hsource', hwrites, holdest, hpass⟩
        | false => exact ⟨hopens, text, left, rfl, hsource', hwrites, holdest, hpass⟩

theorem doing_write {src temp : Handle} {o : Oldest} {p : Pass} {line : CStr}
    (h : job.Doing env file fs (.write src temp o p line)) :
    job.Doing env file (job.step true fs (.write src temp o p line)).1
      (job.step true fs (.write src temp o p line)).2 := by
  obtain ⟨hopens, text, rest, rfl, hsource, hwrites, hrest⟩ := h
  have hwrites' := hwrites.puts (line ++ [newline])
  rw [← List.append_assoc] at hwrites'
  exact ⟨hopens, text, rest, rfl,
    hsource.congr (FileSystem.same_puts hwrites.file job.path_ne_temp _), hwrites', hrest⟩

theorem doing_remove {p : Pass} (h : job.Doing env file fs (.remove p)) :
    job.Doing env file (job.step true fs (.remove p)).1 (job.step true fs (.remove p)).2 := by
  obtain ⟨hreplaces, hcomplete⟩ := h
  refine ⟨hreplaces, hcomplete.opens, hcomplete.passed, ?_, ?_⟩
  · rw [step, if_pos rfl, FileSystem.contents_remove, if_pos rfl]
  · rw [step, if_pos rfl, FileSystem.contents_remove, if_neg job.path_ne_temp.symm, hcomplete.copy]

theorem doing_dropTemp {p : Pass} (h : job.Doing env file fs (.dropTemp p)) :
    job.Doing env file (job.step true fs (.dropTemp p)).1 (job.step true fs (.dropTemp p)).2 := by
  obtain ⟨hkeeps, hcomplete⟩ := h
  obtain ⟨text, rfl, hpass⟩ := hcomplete.passed
  refine ⟨hcomplete.opens, text, rfl, hpass, ?_⟩
  rw [step, if_pos rfl, FileSystem.contents_remove, if_neg job.path_ne_temp, hcomplete.here, rewritten,
    if_neg hkeeps]

theorem doing_rename {p : Pass} (h : job.Doing env file fs (.rename p)) :
    job.Doing env file (job.step true fs (.rename p)).1 (job.step true fs (.rename p)).2 := by
  obtain ⟨hreplaces, hopens, ⟨text, rfl, hpass⟩, hmissing, htemp⟩ := h
  refine ⟨hopens, text, rfl, hpass, ?_⟩
  rw [step, if_pos rfl, FileSystem.contents_rename hmissing job.path_ne_temp.symm,
    if_neg job.path_ne_temp, if_pos rfl, htemp, rewritten, if_pos hreplaces]

theorem Doing.step (h : job.Doing env file fs pc) :
    job.Doing env file (job.step (env.allows job.file pc) fs pc).1
      (job.step (env.allows job.file pc) fs pc).2 := by
  cases pc with
  | openSrc => exact doing_openSrc h
  | openTemp src => exact doing_openTemp h
  | scan src temp o => exact doing_scan true h
  | copy src temp o p => exact doing_copy true h
  | write src temp o p line => exact doing_write h
  | closeSrc p => exact h
  | closeTemp p =>
      have hcomplete : job.Complete env file fs p := h
      rw [Rewriter.step]
      by_cases hreplaces : job.always = true ∨ 0 < p.deleted
      · rw [if_pos hreplaces]
        exact ⟨hreplaces, hcomplete⟩
      · rw [if_neg hreplaces]
        exact ⟨hreplaces, hcomplete⟩
  | remove p => exact doing_remove h
  | rename p => exact doing_rename h
  | dropTemp p => exact doing_dropTemp h
  | done result => exact h
  | overrun => trivial

/-! ### What others do meanwhile -/

/-- Only the file, when it is replaced, and, once it is in use, the temporary file are touched. -/
theorem Doing.same_step (h : job.Doing env file fs pc) {q : Path}
    (hpath : q = job.path → pc.stepsPath = false)
    (htemp : q = job.temp → pc = .openSrc) (ok : Bool) :
    FileSystem.Same fs (job.step ok fs pc).1 q := by
  by_cases hsrc : pc = .openSrc
  · subst hsrc
    rw [Rewriter.step]
    cases (if ok = true then fs.openRead job.path else none) with
    | none => exact .refl fs q
    | some src => exact .refl fs q
  · have hq : q ≠ job.temp := fun h => hsrc (htemp h)
    cases pc with
    | openSrc => exact absurd rfl hsrc
    | openTemp src =>
        rw [Rewriter.step]
        split
        · exact fs.same_openWrite hq
        · exact .refl fs q
    | scan src temp o =>
        rw [Rewriter.step]
        cases fs.gets job.size src with
        | none => exact .refl fs q
        | some r =>
            dsimp only
            split
            · exact .refl fs q
            · exact .refl fs q
    | copy src temp o p =>
        rw [Rewriter.step]
        cases fs.gets job.size src with
        | none => exact .refl fs q
        | some r =>
            dsimp only
            split
            · exact .refl fs q
            · exact .refl fs q
            · exact .refl fs q
    | write src temp o p line =>
        obtain ⟨-, text, rest, -, -, hwrites, -⟩ := h
        rw [Rewriter.step]
        cases ok with
        | true => exact FileSystem.same_puts hwrites.file hq _
        | false => exact .refl fs q
    | closeSrc p => exact .refl fs q
    | closeTemp p =>
        rw [Rewriter.step]
        exact .refl fs q
    | remove p =>
        have hne : q ≠ job.path := fun h => Bool.noConfusion (hpath h)
        rw [Rewriter.step]
        split
        · exact fs.same_remove hne
        · exact .refl fs q
    | rename p =>
        have hne : q ≠ job.path := fun h => Bool.noConfusion (hpath h)
        rw [Rewriter.step]
        split
        · exact FileSystem.same_rename hq hne job.path_ne_temp.symm
        · exact .refl fs q
    | dropTemp p =>
        rw [Rewriter.step]
        split
        · exact fs.same_remove hq
        · exact .refl fs q
    | done result => exact .refl fs q
    | overrun => exact .refl fs q

/-- Nothing changes for the pass when neither of its files does. -/
theorem Doing.congr (h : job.Doing env file fs pc) (hpath : FileSystem.Same fs fs' job.path)
    (htemp : pc.usesTemp = true → FileSystem.Same fs fs' job.temp) : job.Doing env file fs' pc := by
  cases pc with
  | openSrc => exact hpath.contents.trans h
  | openTemp src =>
      obtain ⟨hopens, text, hfile, hsource⟩ := h
      exact ⟨hopens, text, hfile, hsource.congr hpath⟩
  | scan src temp o =>
      obtain ⟨hopens, text, rest, scanLine, hfile, hsource, hwrites, hrest⟩ := h
      exact ⟨hopens, text, rest, scanLine, hfile, hsource.congr hpath, (htemp rfl).writes hwrites, hrest⟩
  | copy src temp o p =>
      obtain ⟨hopens, text, rest, hfile, hsource, hwrites, hrest⟩ := h
      exact ⟨hopens, text, rest, hfile, hsource.congr hpath, (htemp rfl).writes hwrites, hrest⟩
  | write src temp o p line =>
      obtain ⟨hopens, text, rest, hfile, hsource, hwrites, hrest⟩ := h
      exact ⟨hopens, text, rest, hfile, hsource.congr hpath, (htemp rfl).writes hwrites, hrest⟩
  | closeSrc p => exact Complete.congr h hpath (htemp rfl)
  | closeTemp p => exact Complete.congr h hpath (htemp rfl)
  | remove p => exact ⟨h.1, h.2.congr hpath (htemp rfl)⟩
  | rename p =>
      obtain ⟨hreplaces, hopens, hpassed, hmissing, hcopy⟩ := h
      exact ⟨hreplaces, hopens, hpassed, hpath.contents.trans hmissing,
        (htemp rfl).contents.trans hcopy⟩
  | dropTemp p => exact ⟨h.1, h.2.congr hpath (htemp rfl)⟩
  | done result =>
      cases result with
      | none => exact ⟨hpath.contents.trans h.1, h.2⟩
      | some p =>
          obtain ⟨hopens, text, hfile, hpass, hcontents⟩ := h
          exact ⟨hopens, text, hfile, hpass, hpath.contents.trans hcontents⟩
  | overrun => trivial

theorem Source.append {src : Handle} {text rest : CStr} {i : Nat} (h : job.Source fs src text rest)
    (hfile : fs.dir job.path = some i) (chunk : CStr) :
    job.Source (fs.append i chunk) src (text ++ chunk) (rest ++ chunk) :=
  ⟨h.reads.append hfile h.inside chunk, by
    rw [List.length_append]
    exact Nat.le_add_right_of_le h.inside⟩

/-- What is appended to whole lines is read after what is left of them. -/
theorem pass_append (hsingle : job.firstPass = none) {src : Handle} {text rest : CStr} {o : Oldest}
    {p : Pass} (hsource : job.Source fs src text rest) (htext : Terminated text)
    (holdest : job.oldest text = some o)
    (hpass : job.pass text = (readLines job.size rest).foldlM (job.copyLine o) p) (chunk : CStr) :
    job.oldest (text ++ chunk) = some o ∧ job.pass (text ++ chunk)
      = (readLines job.size (rest ++ chunk)).foldlM (job.copyLine o) p := by
  have hrest : Terminated rest := by
    rw [← hsource.reads.rest]
    rw [← List.take_append_drop src.pos text] at htext
    exact htext.right
  rw [oldest, hsingle] at holdest
  refine ⟨by rw [oldest, hsingle]; exact holdest, ?_⟩
  obtain rfl := Option.some.inj holdest
  rw [pass_of_single hsingle] at hpass
  rw [pass_of_single hsingle, readLines_append job.size_ge htext, readLines_append job.size_ge hrest,
    List.foldlM_append, List.foldlM_append, hpass]

theorem Doing.contents_of_reading {text : CStr} (hreading : pc.reading = true)
    (h : job.Doing env (some text) fs pc) : fs.contents job.path = some text := by
  cases pc with
  | openSrc => exact h
  | openTemp src =>
      obtain ⟨-, text', htext, hsource⟩ := h
      exact hsource.reads.text.trans htext.symm
  | copy src temp o p =>
      obtain ⟨-, text', rest, htext, hsource, -⟩ := h
      exact hsource.reads.text.trans htext.symm
  | write src temp o p line =>
      obtain ⟨-, text', rest, htext, hsource, -⟩ := h
      exact hsource.reads.text.trans htext.symm
  | scan => cases hreading
  | closeSrc => cases hreading
  | closeTemp => cases hreading
  | remove => cases hreading
  | rename => cases hreading
  | dropTemp => cases hreading
  | done => cases hreading
  | overrun => cases hreading

/-- A line that is appended while the file is read is seen by the pass. -/
theorem Doing.append (hsingle : job.firstPass = none) {text : CStr} (htext : Terminated text)
    (hreading : pc.reading = true) (h : job.Doing env (some text) fs pc) {i : Nat}
    (hfile : fs.dir job.path = some i) (chunk : CStr) :
    job.Doing env (some (text ++ chunk)) (fs.append i chunk) pc := by
  have htemp := FileSystem.same_append hfile job.path_ne_temp.symm chunk
  cases pc with
  | openSrc =>
      have hcontents : fs.contents job.path = some text := h
      show (fs.append i chunk).contents job.path = some (text ++ chunk)
      rw [FileSystem.contents_append hfile, hcontents]
      rfl
  | openTemp src =>
      obtain ⟨hopens, text', hsame, hsource⟩ := h
      obtain rfl := Option.some.inj hsame
      exact ⟨hopens, _, rfl, hsource.append hfile chunk⟩
  | copy src temp o p =>
      obtain ⟨hopens, text', rest, hsame, hsource, hwrites, holdest, hpass⟩ := h
      obtain rfl := Option.some.inj hsame
      obtain ⟨holdest', hpass'⟩ := pass_append hsingle hsource htext holdest hpass chunk
      exact ⟨hopens, _, _, rfl, hsource.append hfile chunk, htemp.writes hwrites, holdest', hpass'⟩
  | write src temp o p line =>
      obtain ⟨hopens, text', rest, hsame, hsource, hwrites, holdest, hpass⟩ := h
      obtain rfl := Option.some.inj hsame
      obtain ⟨holdest', hpass'⟩ := pass_append hsingle hsource htext holdest hpass chunk
      exact ⟨hopens, _, _, rfl, hsource.append hfile chunk, htemp.writes hwrites, holdest', hpass'⟩
  | scan => cases hreading
  | closeSrc => cases hreading
  | closeTemp => cases hreading
  | remove => cases hreading
  | rename => cases hreading
  | dropTemp => cases hreading
  | done => cases hreading
  | overrun => cases hreading

end Doing

end Rewriter

end Pmu
