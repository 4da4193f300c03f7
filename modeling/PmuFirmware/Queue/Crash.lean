import PmuFirmware.Queue.Rewriter

/-!
# Losing power while a file is rewritten

After any number of calls, each of which may have failed, the power goes and the partition is mounted
again: the files are as the calls left them, and nothing looks at a temporary file. What the function
meant to keep is still in the file at its own path, except after the file has been removed, when the
copy has not taken its place or a line of it was not written.
-/

namespace Pmu

open CLib

namespace Rewriter

variable (job : Rewriter)

/-- The lines found at the path of the file after a restart. -/
def linesAtPath (fs : FileSystem Path) : List CStr := job.lines ((fs.contents job.path).getD [])

/-- Every line that was to be kept is in the file, in order. -/
def Keeps (fs₀ fs : FileSystem Path) : Prop :=
  (job.keptLines ((fs₀.contents job.path).getD [])).Sublist (job.linesAtPath fs)

/-- The file was removed although there were lines to keep, and the copy is not in its place or not
complete. -/
def Lost (fs₀ : FileSystem Path) (calls : List (FileCall × Bool)) : Prop :=
  (.remove, true) ∈ calls ∧ job.keptLines ((fs₀.contents job.path).getD []) ≠ []
    ∧ ((.rename, true) ∉ calls ∨ (.write, false) ∈ calls)

/-! ### What the calls so far have done -/

variable {job} {fs₀ fs : FileSystem Path} {calls : List (FileCall × Bool)}

/-- The file is as it was. -/
structure Untouched (job : Rewriter) (fs₀ : FileSystem Path) (calls : List (FileCall × Bool))
    (fs : FileSystem Path) : Prop where
  here : (.remove, true) ∉ calls
  contents : fs.contents job.path = fs₀.contents job.path

/-- The lines that reached the temporary file. -/
structure Copied (job : Rewriter) (text : CStr) (calls : List (FileCall × Bool)) (p : Pass)
    (written : List CStr) : Prop where
  read : ∀ line ∈ written, line ∈ job.lines text
  complete : (.write, false) ∉ calls → unlines written = p.temp
  atMost : written.length ≤ p.kept
  missing : (.write, false) ∈ calls → written.length < p.kept

/-- The reading end: the file is untouched and its rest is still to be read. -/
structure Reading (job : Rewriter) (fs₀ : FileSystem Path) (calls : List (FileCall × Bool))
    (fs : FileSystem Path) (src : Handle) (text rest : CStr) : Prop where
  untouched : job.Untouched fs₀ calls fs
  start : fs₀.contents job.path = some text
  reads : fs.Reads src job.path text rest

/-- The copy is finished. -/
structure Finished (job : Rewriter) (fs₀ : FileSystem Path) (calls : List (FileCall × Bool))
    (fs : FileSystem Path) (p : Pass) (written : List CStr) : Prop where
  start : ∃ text, fs₀.contents job.path = some text ∧ job.pass text = some p
    ∧ job.Copied text calls p written
  temp : fs.contents job.temp = some (unlines written)

/-- What is known at each point of a run. -/
def At (job : Rewriter) (fs₀ : FileSystem Path) (calls : List (FileCall × Bool))
    (fs : FileSystem Path) : Pc → Prop
  | .openSrc => job.Untouched fs₀ calls fs ∧ (.write, false) ∉ calls
  | .openTemp src => ∃ text, job.Reading fs₀ calls fs src text text ∧ (.write, false) ∉ calls
  | .scan src temp o => ∃ text rest scanLine, job.Reading fs₀ calls fs src text rest
      ∧ fs.Writes temp job.temp [] ∧ (.write, false) ∉ calls ∧ job.firstPass = some scanLine
      ∧ job.oldest text = (readLines job.size rest).foldlM scanLine o
  | .copy src temp o p => ∃ text rest written, job.Reading fs₀ calls fs src text rest
      ∧ fs.Writes temp job.temp (unlines written) ∧ job.Copied text calls p written
      ∧ job.pass text = (readLines job.size rest).foldlM (job.copyLine o) p
      ∧ ∀ line ∈ job.lines rest, line ∈ job.lines text
  | .write src temp o p line => ∃ text rest written, job.Reading fs₀ calls fs src text rest
      ∧ fs.Writes temp job.temp (unlines written) ∧ job.Copied text calls p written
      ∧ job.pass text = (readLines job.size rest).foldlM (job.copyLine o) (p.keep line)
      ∧ line ∈ job.lines text ∧ ∀ line ∈ job.lines rest, line ∈ job.lines text
  | .closeSrc p => job.Untouched fs₀ calls fs ∧ ∃ written, job.Finished fs₀ calls fs p written
  | .closeTemp p => job.Untouched fs₀ calls fs ∧ ∃ written, job.Finished fs₀ calls fs p written
  | .remove p => job.Untouched fs₀ calls fs ∧ ∃ written, job.Finished fs₀ calls fs p written
  | .rename p => (job.Untouched fs₀ calls fs ∧ fs₀.contents job.path ≠ none)
      ∨ (.remove, true) ∈ calls ∧ (.rename, true) ∉ calls ∧ fs.contents job.path = none
        ∧ ∃ written, job.Finished fs₀ calls fs p written
  | .dropTemp _ => job.Untouched fs₀ calls fs
  | .done _ => job.Untouched fs₀ calls fs
      ∨ (.remove, true) ∈ calls ∧ (.rename, true) ∉ calls ∧ fs.contents job.path = none
      ∨ (.remove, true) ∈ calls ∧ (.rename, true) ∈ calls ∧ ∃ text p written,
        fs₀.contents job.path = some text ∧ job.pass text = some p ∧ job.Copied text calls p written
          ∧ fs.contents job.path = some (unlines written)
  | .overrun => job.Untouched fs₀ calls fs

theorem at_start : job.At fs₀ [] fs₀ .openSrc := ⟨⟨by simp, rfl⟩, by simp⟩

/-- A call that is neither a removal nor a write leaves the record of these as it is. -/
theorem Untouched.append (h : job.Untouched fs₀ calls fs) {call : FileCall} (hcall : call ≠ .remove)
    (ok : Bool) {fs' : FileSystem Path} (hcontents : fs'.contents job.path = fs.contents job.path) :
    job.Untouched fs₀ (calls ++ [(call, ok)]) fs' where
  here := by
    have := h.here
    simp [this, hcall.symm]
  contents := by rw [hcontents, h.contents]

/-- A call that is neither a removal nor a write leaves the record of the copy as it is. -/
theorem Copied.append {text : CStr} {p : Pass} {written : List CStr}
    (h : job.Copied text calls p written) {call : FileCall} (hcall : call ≠ .write) (ok : Bool) :
    job.Copied text (calls ++ [(call, ok)]) p written := by
  have hmem : (.write, false) ∈ calls ++ [(call, ok)] ↔ (.write, false) ∈ calls := by
    simp [hcall.symm]
  exact ⟨h.read, by rw [hmem]; exact h.complete, h.atMost, by rw [hmem]; exact h.missing⟩

theorem Finished.append {p : Pass} {written : List CStr}
    (h : job.Finished fs₀ calls fs p written) {call : FileCall} (hcall : call ≠ .write) (ok : Bool)
    {fs' : FileSystem Path} (htemp : fs'.contents job.temp = fs.contents job.temp) :
    job.Finished fs₀ (calls ++ [(call, ok)]) fs' p written := by
  obtain ⟨⟨text, hstart, hpass, hcopied⟩, hcontents⟩ := h
  exact ⟨⟨text, hstart, hpass, hcopied.append hcall ok⟩, by rw [htemp, hcontents]⟩

theorem Reading.append {src src' : Handle} {text rest rest' : CStr}
    (h : job.Reading fs₀ calls fs src text rest) (hreads : fs.Reads src' job.path text rest')
    (ok : Bool) : job.Reading fs₀ (calls ++ [(.read, ok)]) fs src' text rest' :=
  ⟨h.untouched.append (by decide) ok rfl, h.start, hreads⟩

theorem copied_start (text : CStr) (hquiet : (.write, false) ∉ calls) :
    job.Copied text calls .start [] :=
  ⟨by simp, fun _ => rfl, le_rfl, fun h => absurd h hquiet⟩

theorem at_openSrc (ok : Bool) (hat : job.At fs₀ calls fs .openSrc) :
    job.At fs₀ (calls ++ [(.openSrc, ok)]) (job.step ok fs .openSrc).1
      (job.step ok fs .openSrc).2 := by
  obtain ⟨huntouched, hquiet⟩ := hat
  have hafter := huntouched.append (by decide : FileCall.openSrc ≠ .remove) ok rfl
  rw [step]
  cases hopen : if ok = true then fs.openRead job.path else none with
  | none => exact .inl hafter
  | some src =>
      have hopened : fs.openRead job.path = some src := by
        split at hopen
        · exact hopen
        · cases hopen
      cases hcontents : fs.contents job.path with
      | none =>
          rw [FileSystem.openRead_eq_none.mpr hcontents] at hopened
          cases hopened
      | some text =>
          obtain ⟨src', hsrc', hreads⟩ := FileSystem.openRead_eq hcontents
          obtain rfl := Option.some.inj (hsrc'.symm.trans hopened)
          refine ⟨text, ⟨hafter, ?_, hreads⟩, by simp [hquiet]⟩
          rw [← huntouched.contents, hcontents]

theorem at_openTemp {src : Handle} (ok : Bool) (hat : job.At fs₀ calls fs (.openTemp src)) :
    job.At fs₀ (calls ++ [(.openTemp, ok)]) (job.step ok fs (.openTemp src)).1
      (job.step ok fs (.openTemp src)).2 := by
  obtain ⟨text, ⟨huntouched, hstart, hreads⟩, hquiet⟩ := hat
  rw [step]
  by_cases hok : ok = true
  · have hsame : (fs.openWrite job.temp).2.contents job.path = fs.contents job.path :=
      FileSystem.contents_openWrite job.path_ne_temp
    have hafter : job.Reading fs₀ (calls ++ [(.openTemp, ok)]) (fs.openWrite job.temp).2 src text
        text :=
      ⟨huntouched.append (by decide) ok hsame, hstart,
        by rw [FileSystem.dir_openWrite job.path_ne_temp, hreads.file], by rw [hsame, hreads.text],
        hreads.rest⟩
    have hwrites := fs.openWrite_writes job.temp
    have hquiet' : (FileCall.write, false) ∉ calls ++ [(.openTemp, ok)] := by simp [hquiet]
    rw [if_pos hok]
    cases hfirst : job.firstPass with
    | none =>
        refine ⟨text, text, [], hafter, hwrites, copied_start text hquiet', ?_, fun _ h => h⟩
        rw [pass_of_single hfirst]
    | some scanLine =>
        refine ⟨text, text, scanLine, hafter, hwrites, hquiet', hfirst, ?_⟩
        rw [oldest, hfirst]
  · rw [if_neg hok]
    exact .inl (huntouched.append (by decide) ok rfl)

theorem at_scan {src temp : Handle} {o : Oldest} (ok : Bool)
    (hat : job.At fs₀ calls fs (.scan src temp o)) :
    job.At fs₀ (calls ++ [(.read, ok)]) (job.step ok fs (.scan src temp o)).1
      (job.step ok fs (.scan src temp o)).2 := by
  obtain ⟨text, rest, scanLine, hreading, hwrites, hquiet, hfirst, holdest⟩ := hat
  have hquiet' : (FileCall.write, false) ∉ calls ++ [(.read, ok)] := by simp [hquiet]
  rw [step]
  rcases job.readLines_cases rest with ⟨rfl, hlines⟩ | ⟨buffer, left, hget, hlines⟩
  · rw [hreading.reads.gets_eof job.size]
    rw [hlines] at holdest
    have hrewound : fs.Reads { src with pos := 0 } job.path text text :=
      ⟨hreading.reads.file, hreading.reads.text, rfl⟩
    refine ⟨text, text, [], hreading.append hrewound ok, hwrites, copied_start text hquiet', ?_,
      fun _ h => h⟩
    rw [pass, holdest]
    rfl
  · obtain ⟨src', hgets, hreads'⟩ := hreading.reads.gets_line hget
    rw [hlines, List.foldlM_cons, Option.bind_eq_bind] at holdest
    rw [hgets]
    simp only [hfirst, Option.bind_some]
    cases hline : scanLine o buffer with
    | none => exact hreading.untouched.append (by decide) ok rfl
    | some o' =>
        rw [hline, Option.bind_some] at holdest
        exact ⟨text, left, scanLine, hreading.append hreads' ok, hwrites, hquiet', hfirst, holdest⟩

theorem at_copy {src temp : Handle} {o : Oldest} {p : Pass} (ok : Bool)
    (hat : job.At fs₀ calls fs (.copy src temp o p)) :
    job.At fs₀ (calls ++ [(.read, ok)]) (job.step ok fs (.copy src temp o p)).1
      (job.step ok fs (.copy src temp o p)).2 := by
  obtain ⟨text, rest, written, hreading, hwrites, hcopied, hpass, hrest⟩ := hat
  have hcopied' := hcopied.append (by decide : FileCall.read ≠ .write) ok
  rw [step]
  rcases job.readLines_cases rest with ⟨rfl, hlines⟩ | ⟨buffer, left, hget, hlines⟩
  · rw [hreading.reads.gets_eof job.size]
    rw [hlines] at hpass
    exact ⟨hreading.untouched.append (by decide) ok rfl, written,
      ⟨text, hreading.start, hpass, hcopied'⟩, hwrites.text⟩
  · obtain ⟨src', hgets, hreads'⟩ := hreading.reads.gets_line hget
    have hreading' := hreading.append hreads' ok
    rw [hlines, List.foldlM_cons, Option.bind_eq_bind, copyLine] at hpass
    rw [lines, hlines, List.map_cons, List.forall_mem_cons] at hrest
    rw [hgets]
    dsimp only
    cases hkeeps : job.keeps o (job.lineOf buffer) with
    | none => exact hreading.untouched.append (by decide) ok rfl
    | some keep =>
        rw [hkeeps, Option.map_some, Option.bind_some] at hpass
        cases keep with
        | true =>
            exact ⟨text, left, written, hreading', hwrites, hcopied', hpass, hrest.1, hrest.2⟩
        | false =>
            exact ⟨text, left, written, hreading', hwrites,
              ⟨hcopied'.read, hcopied'.complete, hcopied'.atMost, hcopied'.missing⟩, hpass, hrest.2⟩

theorem at_write {src temp : Handle} {o : Oldest} {p : Pass} {line : CStr} (ok : Bool)
    (hat : job.At fs₀ calls fs (.write src temp o p line)) :
    job.At fs₀ (calls ++ [(.write, ok)]) (job.step ok fs (.write src temp o p line)).1
      (job.step ok fs (.write src temp o p line)).2 := by
  obtain ⟨text, rest, written, ⟨huntouched, hstart, hreads⟩, hwrites, hcopied, hpass, hline, hrest⟩ :=
    hat
  rw [step]
  cases ok with
  | true =>
      have hsame := FileSystem.contents_puts hwrites.file job.path_ne_temp (line ++ [newline])
      have hreading : job.Reading fs₀ (calls ++ [(.write, true)])
          (fs.puts temp (line ++ [newline])).2 src text rest :=
        ⟨huntouched.append (by decide) true hsame, hstart,
          by rw [FileSystem.dir_puts, hreads.file], by rw [hsame, hreads.text], hreads.rest⟩
      have hwrites' := hwrites.puts (line ++ [newline])
      have htext : unlines written ++ (line ++ [newline]) = unlines (written ++ [line]) := by simp
      rw [htext] at hwrites'
      refine ⟨text, rest, written ++ [line], hreading, hwrites', ⟨?_, ?_, ?_, ?_⟩, hpass, hrest⟩
      · intro l hl
        rcases List.mem_append.mp hl with hl | hl
        · exact hcopied.read l hl
        · rwa [List.mem_singleton.mp hl]
      · intro hquiet
        rw [unlines_append, hcopied.complete fun h => hquiet (List.mem_append_left _ h)]
        simp [Pass.keep]
      · simpa [Pass.keep] using hcopied.atMost
      · intro hfailed
        have hbefore := hcopied.missing (by simpa using hfailed)
        simpa [Pass.keep] using hbefore
  | false =>
      have hless : written.length < (p.keep line).kept := Nat.lt_succ_of_le hcopied.atMost
      exact ⟨text, rest, written, ⟨huntouched.append (by decide) false rfl, hstart, hreads⟩, hwrites,
        ⟨hcopied.read, fun h => absurd (by simp) h, hless.le, fun _ => hless⟩, hpass, hrest⟩

theorem at_closeTemp {p : Pass} (ok : Bool) (hat : job.At fs₀ calls fs (.closeTemp p)) :
    job.At fs₀ (calls ++ [(.closeTemp, ok)]) (job.step ok fs (.closeTemp p)).1
      (job.step ok fs (.closeTemp p)).2 := by
  obtain ⟨huntouched, written, hfinished⟩ := hat
  have hafter := huntouched.append (by decide : FileCall.closeTemp ≠ .remove) ok rfl
  rw [step]
  by_cases hreplace : job.always = true ∨ 0 < p.deleted
  · rw [if_pos hreplace]
    exact ⟨hafter, written, hfinished.append (by decide) ok rfl⟩
  · rw [if_neg hreplace]
    exact hafter

theorem at_remove {p : Pass} (ok : Bool) (hat : job.At fs₀ calls fs (.remove p))
    (hrename : (FileCall.rename, true) ∉ calls) :
    job.At fs₀ (calls ++ [(.remove, ok)]) (job.step ok fs (.remove p)).1
      (job.step ok fs (.remove p)).2 := by
  obtain ⟨huntouched, written, hfinished⟩ := hat
  rw [step]
  cases ok with
  | true =>
      have htemp : (fs.remove job.path).contents job.temp = fs.contents job.temp := by
        rw [FileSystem.contents_remove, if_neg job.path_ne_temp.symm]
      exact .inr ⟨by simp, by simp [hrename], by simp [FileSystem.contents_remove], written,
        hfinished.append (by decide) true htemp⟩
  | false =>
      obtain ⟨text, hstart, -⟩ := hfinished.start
      have hhere := huntouched.here
      exact .inl ⟨⟨by simp [hhere], huntouched.contents⟩, by simp [hstart]⟩

theorem at_rename {p : Pass} (ok : Bool) (hat : job.At fs₀ calls fs (.rename p)) :
    job.At fs₀ (calls ++ [(.rename, ok)]) (job.step ok fs (.rename p)).1
      (job.step ok fs (.rename p)).2 := by
  rw [step]
  rcases hat with ⟨huntouched, hstart⟩ | ⟨hremoved, hrename, hmissing, written, hfinished⟩
  · have htaken : fs.rename job.temp job.path = fs := by
      apply FileSystem.rename_of_taken
      rwa [huntouched.contents]
    rw [htaken, ite_self]
    exact .inl (huntouched.append (by decide) ok rfl)
  · have hremoved' : (FileCall.remove, true) ∈ calls ++ [(.rename, ok)] :=
      List.mem_append_left _ hremoved
    cases ok with
    | true =>
        obtain ⟨⟨text, hstart, hpass, hcopied⟩, htemp⟩ := hfinished
        refine .inr (.inr ⟨hremoved', by simp, text, p, written, hstart, hpass,
          hcopied.append (by decide) true, ?_⟩)
        rw [if_pos rfl, FileSystem.contents_rename hmissing job.path_ne_temp.symm,
          if_neg job.path_ne_temp, if_pos rfl, htemp]
    | false => exact .inr (.inl ⟨hremoved', by simpa using hrename, hmissing⟩)

/-- The renaming is the last call. -/
theorem Run.rename_not_mem {pc : Pc} (hrun : job.Run fs₀ calls fs pc) (hpc : ∀ r, pc ≠ .done r)
    (ok : Bool) : (FileCall.rename, ok) ∉ calls := by
  induction hrun with
  | start => simp
  | @step calls fs pc call ok' hrun hcall ih =>
      have hbefore : ∀ r, pc ≠ .done r := by
        intro r h
        rw [h] at hcall
        cases hcall
      rw [List.mem_append, not_or]
      refine ⟨ih hbefore, fun hmem => ?_⟩
      obtain rfl : FileCall.rename = call := congrArg Prod.fst (List.mem_singleton.mp hmem)
      cases pc <;> simp [Pc.call] at hcall
      exact hpc _ rfl

theorem at_step {pc : Pc} {call : FileCall} (ok : Bool) (hat : job.At fs₀ calls fs pc)
    (hrename : (FileCall.rename, true) ∉ calls) (hcall : pc.call = some call) :
    job.At fs₀ (calls ++ [(call, ok)]) (job.step ok fs pc).1 (job.step ok fs pc).2 := by
  cases pc
  case done => cases hcall
  case overrun => cases hcall
  all_goals obtain rfl := Option.some.inj hcall
  case openSrc => exact at_openSrc ok hat
  case openTemp => exact at_openTemp ok hat
  case scan => exact at_scan ok hat
  case copy => exact at_copy ok hat
  case write => exact at_write ok hat
  case closeSrc =>
    obtain ⟨huntouched, written, hfinished⟩ := hat
    exact ⟨huntouched.append (by decide) ok rfl, written, hfinished.append (by decide) ok rfl⟩
  case closeTemp => exact at_closeTemp ok hat
  case remove => exact at_remove ok hat hrename
  case rename => exact at_rename ok hat
  case dropTemp =>
    refine .inl (Untouched.append hat (by decide) ok ?_)
    rw [step]
    split
    · rw [FileSystem.contents_remove, if_neg job.path_ne_temp]
    · rfl

/-- What is known holds after every run. -/
theorem at_run {pc : Pc} (hrun : job.Run fs₀ calls fs pc) : job.At fs₀ calls fs pc := by
  induction hrun with
  | start => exact at_start
  | @step calls fs pc call ok hrun hcall ih =>
      refine at_step ok ih (hrun.rename_not_mem (fun r h => ?_) true) hcall
      rw [h] at hcall
      cases hcall

/-! ### What a restart finds -/

/-- Three cases: the file is as it was, or it is missing, or the copy is in its place. -/
theorem run_cases {pc : Pc} (hrun : job.Run fs₀ calls fs pc) :
    job.Untouched fs₀ calls fs
      ∨ ((.remove, true) ∈ calls ∧ (.rename, true) ∉ calls ∧ fs.contents job.path = none)
      ∨ ((.remove, true) ∈ calls ∧ (.rename, true) ∈ calls ∧ ∃ text p written,
        fs₀.contents job.path = some text ∧ job.pass text = some p ∧ job.Copied text calls p written
          ∧ fs.contents job.path = some (unlines written)) := by
  have hat := at_run hrun
  cases pc with
  | openSrc => exact .inl hat.1
  | openTemp src =>
      obtain ⟨text, hreading, -⟩ := hat
      exact .inl hreading.untouched
  | scan src temp o =>
      obtain ⟨text, rest, scanLine, hreading, -⟩ := hat
      exact .inl hreading.untouched
  | copy src temp o p =>
      obtain ⟨text, rest, written, hreading, -⟩ := hat
      exact .inl hreading.untouched
  | write src temp o p line =>
      obtain ⟨text, rest, written, hreading, -⟩ := hat
      exact .inl hreading.untouched
  | closeSrc p => exact .inl hat.1
  | closeTemp p => exact .inl hat.1
  | remove p => exact .inl hat.1
  | rename p =>
      rcases hat with ⟨huntouched, -⟩ | ⟨hremoved, hrename, hmissing, -⟩
      · exact .inl huntouched
      · exact .inr (.inl ⟨hremoved, hrename, hmissing⟩)
  | dropTemp p => exact .inl hat
  | done result => exact hat
  | overrun => exact .inl hat

theorem keeps_of_untouched (h : job.Untouched fs₀ calls fs) : job.Keeps fs₀ fs := by
  rw [Keeps, linesAtPath, h.contents, keptLines]
  split
  · exact List.Sublist.refl _
  · exact List.filter_sublist

theorem keeps_of_not_lost {pc : Pc} (hrun : job.Run fs₀ calls fs pc) (hlost : ¬ job.Lost fs₀ calls) :
    job.Keeps fs₀ fs := by
  rcases run_cases hrun with huntouched | ⟨hremoved, hrename, -⟩ |
    ⟨hremoved, -, text, p, written, hstart, hpass, hcopied, hcontents⟩
  · exact keeps_of_untouched huntouched
  · have hnothing : job.keptLines ((fs₀.contents job.path).getD []) = [] := by
      by_contra hsome
      exact hlost ⟨hremoved, hsome, .inl hrename⟩
    rw [Keeps, hnothing]
    exact List.nil_sublist _
  · rw [Keeps, linesAtPath, hstart, hcontents, Option.getD_some, Option.getD_some]
    by_cases hsome : job.keptLines text = []
    · rw [hsome]
      exact List.nil_sublist _
    · have hwritten : (FileCall.write, false) ∉ calls := by
        intro hfailed
        refine hlost ⟨hremoved, ?_, .inr hfailed⟩
        rwa [hstart, Option.getD_some]
      rw [hcopied.complete hwritten, (job.pass_eq hpass).1]
      exact job.sublist_lines_unlines fun line => job.mem_lines_of_mem_keptLines

theorem not_keeps_of_lost {pc : Pc} (hrun : job.Run fs₀ calls fs pc) (hlost : job.Lost fs₀ calls)
    (hfits : ∀ line ∈ job.lines ((fs₀.contents job.path).getD []), line.length + 2 ≤ job.size) :
    ¬ job.Keeps fs₀ fs := by
  intro hkeeps
  obtain ⟨hremoved, hsome, hbroken⟩ := hlost
  rw [Keeps, linesAtPath] at hkeeps
  rcases run_cases hrun with huntouched | ⟨-, -, hmissing⟩ |
    ⟨-, hrename, text, p, written, hstart, hpass, hcopied, hcontents⟩
  · exact huntouched.here hremoved
  · rw [hmissing] at hkeeps
    exact hsome (List.sublist_nil.mp hkeeps)
  · have hfailed : (FileCall.write, false) ∈ calls := hbroken.resolve_left fun h => h hrename
    rw [hstart, Option.getD_some] at hkeeps hfits
    rw [hcontents, Option.getD_some,
      job.lines_unlines hcopied.read fun w hw => hfits w (hcopied.read w hw)] at hkeeps
    have hfewer := hcopied.missing hfailed
    rw [(job.pass_eq hpass).2] at hfewer
    exact absurd hkeeps.length_le (Nat.not_le.mpr hfewer)

/-! ### Every prefix -/

/-- The calls that are made before the power goes, when their outcomes are as listed. -/
def exec (job : Rewriter) : List Bool → FileSystem Path → Pc → List (FileCall × Bool) × FileSystem Path
  | [], fs, _ => ([], fs)
  | ok :: oks, fs, pc =>
    match pc.call with
    | none => ([], fs)
    | some call =>
      let r := job.exec oks (job.step ok fs pc).1 (job.step ok fs pc).2
      ((call, ok) :: r.1, r.2)

theorem Run.exec {pc : Pc} (hrun : job.Run fs₀ calls fs pc) (oks : List Bool) :
    ∃ pc', job.Run fs₀ (calls ++ (job.exec oks fs pc).1) (job.exec oks fs pc).2 pc' := by
  induction oks generalizing calls fs pc with
  | nil => exact ⟨pc, by simpa [Rewriter.exec] using hrun⟩
  | cons ok oks ih =>
      rw [Rewriter.exec]
      cases hcall : pc.call with
      | none => exact ⟨pc, by simpa using hrun⟩
      | some call =>
          obtain ⟨pc', hrest⟩ := ih (hrun.step ok hcall)
          exact ⟨pc', by simpa using hrest⟩

/-- Whenever the power goes, the lines to keep are still there unless the file was lost. If the lines
of the file fit the buffer of the function, they are there only then. -/
theorem rewrite_keeps_iff (job : Rewriter) (fs₀ : FileSystem Path) (oks : List Bool) :
    (¬ job.Lost fs₀ (job.exec oks fs₀ .openSrc).1 → job.Keeps fs₀ (job.exec oks fs₀ .openSrc).2)
      ∧ ((∀ line ∈ job.lines ((fs₀.contents job.path).getD []), line.length + 2 ≤ job.size) →
        (job.Keeps fs₀ (job.exec oks fs₀ .openSrc).2
          ↔ ¬ job.Lost fs₀ (job.exec oks fs₀ .openSrc).1)) := by
  have hstart : job.Run fs₀ [] fs₀ .openSrc := .start
  obtain ⟨pc, hrun⟩ := hstart.exec oks
  rw [List.nil_append] at hrun
  refine ⟨keeps_of_not_lost hrun, fun hfits => ⟨fun hkeeps hlost => ?_, keeps_of_not_lost hrun⟩⟩
  exact not_keeps_of_lost hrun hlost hfits hkeeps

/-- A request log of one line. -/
def oneRequest : FileSystem Path :=
  (FileSystem.create ⟨fun _ => none, fun _ => none, 0, by simp, by simp, by simp⟩
    (.queue .request)).setText 0 (entryLine requestMessage newYear ++ [newline])

/-- A response that answers none of its entries. -/
def unrelated : Rewriter := handleResponseMessage (fun _ => none) "b2".toList

/-- The power goes after the removal, the eighth call, and the log with its one request is gone. -/
theorem request_log_is_gone :
    ¬ unrelated.Keeps oneRequest
      (unrelated.exec (List.replicate 8 true) oneRequest .openSrc).2 := by
  have hgone : (unrelated.exec (List.replicate 8 true) oneRequest .openSrc).2.contents unrelated.path
      = none := by
    decide +kernel
  have hkept : unrelated.keptLines ((oneRequest.contents unrelated.path).getD []) ≠ [] := by
    decide +kernel
  intro hkeeps
  rw [Keeps, linesAtPath, hgone] at hkeeps
  exact hkept (List.sublist_nil.mp hkeeps)

end Rewriter

end Pmu
