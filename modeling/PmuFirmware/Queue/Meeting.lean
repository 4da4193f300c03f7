import PmuFirmware.Queue.Turns

/-!
# Meeting at the file

The other call has entered the file, and the line has not been written. The file is what a single call
would read until the line is written: to a file that is still being read, so that the line is read too
and this call comes first, or to a file whose end has been read and which stays.
-/

namespace Pmu

open CLib

namespace TwoCalls

variable {parse : CStr → Option Json} {c : TwoCalls} {o₀ o : Objects} {before : List QueueFile}
  {s s' : Watched}

/-! ### At the file -/

theorem Visiting.exists_rest {s : System} (h : c.Visiting parse o₀ before o s) :
    ∃ rest, s.remover.todo = c.file :: rest := by
  cases htodo : s.remover.todo with
  | nil =>
      have hsaved := h.saved
      rw [AtSaved, htodo] at hsaved
      cases hsaved
  | cons g rest =>
      have hsaved := h.saved
      rw [AtSaved, htodo] at hsaved
      exact ⟨rest, by rw [Option.some.inj hsaved]⟩

theorem Visiting.update {s : System} (h : c.Visiting parse o₀ before o s)
    (hsaved : c.file ∈ c.removal.files c.numConnectors) : o c.file = o₀ c.file
      ∧ ∀ x, c.Visited parse (Function.update o₀ c.file x) before s.remover.progress
        (Function.update o c.file x) := by
  obtain ⟨rest, htodo⟩ := h.exists_rest
  exact h.visited.update ⟨_, h.files⟩ hsaved (h.toThrough.not_mem_rest htodo).1

/-- The other call has found the file to be `x`. -/
theorem Visiting.remover_of_here {s t : System} (pc : RemoverPc) (h : c.Visiting parse o₀ before o s)
    (hsaved : c.file ∈ c.removal.files c.numConnectors) {x : Option CStr × UInt8}
    (hremover : t.remover = { s.remover with pc := pc })
    (hothers : ∀ g, g ≠ c.file → t.object g = s.object g)
    (hhere : c.AtFile parse c.file s.remover.progress x (t.fs.contents (.queue c.file))
      (t.entries c.file + lag t.saver) t.fs pc) :
    c.RemoverAt parse (Function.update o₀ c.file x) before (Function.update o c.file x)
      (c.viewed (c.seen t) t) t where
  files := by
    rw [hremover]
    exact h.files
  index := by
    rw [hremover]
    exact h.index
  visited := by
    rw [hremover]
    exact (h.update hsaved).2 x
  others g hg := by
    rw [hremover] at hg
    have hne : g ≠ c.file := by
      rintro rfl
      exact hg h.saved
    rw [viewed_of_ne hne, Function.update_of_ne hne, hothers g hne, h.others g hne]
  here g hg := by
    rw [hremover] at hg ⊢
    obtain rfl := Option.some.inj (h.saved.symm.trans hg)
    rw [viewed_self, Function.update_self]
    exact hhere

/-- The line will not be written. -/
theorem Unwritten.following_of_unsaved (h : c.Unwritten parse o₀ before o s)
    (hsaved : c.file ∈ c.removal.files c.numConnectors) (hroom : ¬c.Full (o c.file).2)
    (hnever : ¬c.Appends) (htext : c.textAt (o c.file).1 s.saver = (o c.file).1) (full late : Bool) :
    c.Phase parse o₀ ⟨{ s.toSystem with saver := .done }, full, late⟩ := by
  obtain ⟨hsame, -⟩ := h.toVisiting.update hsaved
  have hhere := h.here
  rw [htext, ← UInt8.add_zero (s.entries c.file)] at hhere
  refine .following ⟨⟨o c.file, .inl ⟨false, o c.file, ⟨hsame ▸ hroom, hsame⟩, ?_⟩,
    h.toVisiting.remover_of_here _ hsaved rfl (fun _ _ => rfl) hhere⟩, .inl rfl⟩
  rw [objectAt, textAt, countAt, if_neg hnever, if_neg hnever]

theorem Unwritten.step_check (h : c.Unwritten parse o₀ before o s)
    (hsaved : c.file ∈ c.removal.files c.numConnectors) (hinside : c.Inside s.toSystem)
    (hcalm : c.CalmSaver parse s) (hpc : s.saver = .check)
    (hturn : c.turn parse .saver s = some s') : c.Phase parse o₀ s' := by
  rw [turn_saver] at hturn
  obtain ⟨t, hstep, rfl⟩ := Option.map_eq_some_iff.mp hturn
  have hroom : ¬c.Full (s.entries c.file) := fun hfull =>
    (hcalm.check (by rw [hpc]; rfl) hfull).1 hinside
  have hcount : s.entries c.file = (o c.file).2 := h.here.count_eq
  have hhere := h.here
  have hfull : (s.full || c.findsFull s.toSystem) = false := by
    rw [h.full, findsFull, decide_eq_false hroom, Bool.and_false]
    rfl
  have hlate : (s.late || (s.saver.opened && decide (c.PastEnd s.toSystem))) = false := by
    rw [h.late, hpc]
    rfl
  rw [saverStep, hpc] at hstep
  obtain rfl := Option.some.inj hstep
  rw [hpc] at hhere
  simp only [if_neg hroom, afterRoom]
  rw [hcount] at hroom
  by_cases htime : c.saverEnv.time.isSome = true
  · rw [if_pos htime]
    exact .unwritten ⟨⟨⟨h.files, h.index, h.visited⟩, h.others, h.saved⟩, hfull, hlate,
      ⟨hroom, htime⟩, hhere, (fun h => by cases h), (fun h => by cases h)⟩ hinside
  · rw [if_neg htime]
    refine h.following_of_unsaved hsaved hroom (fun happends => htime happends.1) ?_ _ _
    rw [hpc]
    rfl

theorem Unwritten.step_openAppend (h : c.Unwritten parse o₀ before o s)
    (hsaved : c.file ∈ c.removal.files c.numConnectors) (hinside : c.Inside s.toSystem)
    (hcalm : c.CalmSaver parse s) (hpc : s.saver = .openAppend)
    (hturn : c.turn parse .saver s = some s') : c.Phase parse o₀ s' := by
  rw [turn_saver] at hturn
  obtain ⟨t, hstep, rfl⟩ := Option.map_eq_some_iff.mp hturn
  have hwaits := h.waits
  have hhere := h.here
  rw [hpc] at hwaits hhere
  obtain ⟨hroom, htime⟩ := hwaits
  obtain ⟨hnot, hthere⟩ := hcalm.opens (by rw [hpc]; rfl)
  have hfull : (s.full || c.findsFull s.toSystem) = false := by
    rw [h.full, findsFull, hpc]
    rfl
  have hlate : (s.late || (s.saver.opened && decide (c.PastEnd s.toSystem))) = false := by
    rw [h.late, hpc]
    rfl
  rw [saverStep, hpc] at hstep
  dsimp only at hstep
  by_cases hopens : c.saverEnv.opensForAppending = true
  · rw [if_pos hopens] at hstep
    obtain rfl := Option.some.inj hstep
    have hfile := hthere hinside
    have hbefore : (o c.file).1 ≠ none := hhere.there hsaved hfile
    obtain ⟨text, htext⟩ := Option.ne_none_iff_exists'.mp hfile
    obtain ⟨text', htext'⟩ := Option.ne_none_iff_exists'.mp hbefore
    have hsame := FileSystem.same_openAppend_of_some htext
    have hopened : ∀ id, c.textAt (o c.file).1 (.write id) = c.textAt (o c.file).1 .openAppend := by
      intro id
      rw [textAt, textAt, htext']
      · rfl
      all_goals simp
    refine .unwritten ⟨⟨⟨h.files, h.index, h.visited⟩, fun g hg => ?_, h.saved⟩, hfull, hlate,
      ⟨hroom, ⟨htime, hopens⟩, (s.fs.openAppend_spec _).1⟩, ?_, fun _ _ => hbefore,
      fun _ p hp hreplaces => hnot ⟨h.saved, p, hp, hreplaces⟩⟩ hinside
    · rw [← h.others g hg]
      exact Prod.ext (hsame _).contents rfl
    · have hcongr := hhere.congr hsaved (hsame _) fun _ => hsame _
      rw [← (hsame _).contents] at hcongr
      rw [hopened]
      exact hcongr
  · rw [if_neg hopens] at hstep
    obtain rfl := Option.some.inj hstep
    refine h.following_of_unsaved hsaved hroom (fun happends => hopens happends.2) ?_ _ _
    rw [hpc]
    rfl

/-- The counter does not wrap around. -/
theorem add_one_ne_zero {n : UInt8} (hsaved : c.file ∈ c.removal.files c.numConnectors)
    (hroom : ¬c.Full n) : n + 1 ≠ 0 := by
  intro hzero
  have hlt : n.toNat < c.file.cap := Nat.lt_of_not_le fun h => hroom ⟨listed_of_mem hsaved, h⟩
  have hcap := c.file.cap_le
  have hmod := congrArg UInt8.toNat hzero
  simp only [UInt8.toNat_add, UInt8.reduceToNat] at hmod
  omega

theorem ending_of_reading {pc : Pc} (h : pc.reading = true) : pc.ending = none := by
  cases pc with
  | openSrc => rfl
  | openTemp => rfl
  | copy => rfl
  | write => rfl
  | _ => cases h

theorem Closing.pastEnd {p : Pass} {pc : RemoverPc} (h : c.Closing parse p pc) : pc.pastEnd = true := by
  cases h with
  | closeSrc => rfl
  | closeTemp => rfl
  | dropTemp => rfl
  | assign => rfl

/-- The line is written while the file is read. -/
theorem Unwritten.write_of_reading (h : c.Unwritten parse o₀ before o s)
    (hsaved : c.file ∈ c.removal.files c.numConnectors) (hinside : c.Inside s.toSystem)
    (hcalm : c.CalmSaver parse s) {id : Nat} (hpc : s.saver = .write id) {pc : Pc}
    (hremover : s.remover.pc = .rewrite pc) (hreading : pc.reading = true)
    (hturn : c.turn parse .saver s = some s') : c.Phase parse o₀ s' := by
  rw [turn_saver] at hturn
  obtain ⟨t, hstep, rfl⟩ := Option.map_eq_some_iff.mp hturn
  obtain ⟨hsame, -⟩ := h.toVisiting.update hsaved
  have hpath : (c.removal.job parse c.file).path = .queue c.file :=
    congrArg Path.queue (Removal.job_file hsaved)
  have hwaits := h.waits
  have hhere := h.here
  rw [hpc] at hwaits hhere
  rw [hremover] at hhere
  obtain ⟨hroom, happends, hdir⟩ := hwaits
  obtain ⟨hcall, henters, hdoing, hcount⟩ := hhere
  rw [saverStep, hpc] at hstep
  obtain rfl := Option.some.inj hstep
  have hcontents := hdoing.contents_of_reading hreading
  have hwhole : Terminated ((o c.file).1.getD []) :=
    (hcalm.write (by rw [hpc]; rfl)).2 h.saved (by rw [hremover]; exact hreading) _ (hpath ▸ hcontents)
  have happended := hdoing.append (Removal.job_firstPass c.removal c.file) hwhole hreading
    (hpath ▸ hdir) c.line
  have hdone : c.objectAt (o c.file) .done
      = (some ((o c.file).1.getD [] ++ c.line), (o c.file).2 + 1) := by
    rw [objectAt, textAt, countAt, if_pos happends, if_pos happends]
  refine .following ⟨⟨c.objectAt (o c.file) .done, .inl ⟨false, o c.file, ⟨hsame ▸ hroom, hsame⟩, rfl⟩,
    h.toVisiting.remover_of_here (.rewrite pc) hsaved ?_ (fun g hg => ?_) ?_⟩,
    .inr ⟨rfl, ?_, fun _ => hinside⟩⟩
  · rw [← hremover]
  · exact Prod.ext (FileSystem.same_append hdir (fun h => hg (Path.queue.inj h)) c.line).contents rfl
  · rw [hdone]
    refine ⟨hcall, henters.mono (fun _ => add_one_ne_zero hsaved hroom) fun hne => ?_, happended, ?_⟩
    · rw [Option.getD_some]
      exact fun h => hne (List.append_eq_nil_iff.mp h).1
    · show s.entries c.file + 1 = _
      rw [hcount]
  · have hnot : ¬c.PastEnd s.toSystem := by
      intro hpast
      have hend := hpast.2
      rw [hremover, RemoverPc.pastEnd, ending_of_reading hreading] at hend
      cases hend
    show (s.late || _) = false
    rw [h.late, decide_eq_false hnot, Bool.and_false]
    rfl

/-- The line is written after the end of the file has been read. -/
theorem Unwritten.write_of_closing (h : c.Unwritten parse o₀ before o s) {id : Nat}
    (hpc : s.saver = .write id) {text : CStr} {p : Pass} (htext : (o c.file).1 = some text)
    (henters : c.removal.Enters c.removerEnv s.remover.progress c.file (o c.file).2 (o c.file).1)
    (hopens : (c.removal.job parse c.file).Opens c.removerEnv)
    (hpass : (c.removal.job parse c.file).pass text = some p)
    (hcontents : s.fs.contents (.queue c.file)
      = some ((c.removal.job parse c.file).rewritten p text))
    (hclosing : c.Closing parse p s.remover.pc) (hturn : c.turn parse .saver s = some s') :
    c.Phase parse o₀ s' := by
  rw [turn_saver] at hturn
  obtain ⟨t, hstep, rfl⟩ := Option.map_eq_some_iff.mp hturn
  have hwaits := h.waits
  rw [hpc] at hwaits
  obtain ⟨hroom, happends, hdir⟩ := hwaits
  have hpast : c.PastEnd s.toSystem := ⟨h.saved, hclosing.pastEnd⟩
  rw [saverStep, hpc] at hstep
  obtain rfl := Option.some.inj hstep
  refine .late ⟨⟨⟨h.files, h.index, h.visited⟩, fun g hg => ?_, h.saved⟩, ?_, ?_,
    ⟨text, p, htext, henters, hopens, hpass, ?_, hclosing⟩, ⟨happends, hroom⟩, ?_, .inl rfl⟩
  · rw [← h.others g hg]
    exact Prod.ext (FileSystem.same_append hdir (fun h => hg (Path.queue.inj h)) c.line).contents rfl
  · show (s.full || c.findsFull s.toSystem) = false
    rw [h.full, findsFull, hpc]
    rfl
  · show (s.late || (s.saver.opened && decide (c.PastEnd s.toSystem))) = true
    rw [hpc, decide_eq_true hpast]
    exact Bool.or_true _
  · show (s.fs.append id c.line).contents (.queue c.file) = _
    rw [FileSystem.contents_append hdir, hcontents]
    rfl
  · exact h.here.count_eq

/-- Once its end has been read, the file is the one that was there at first. -/
theorem Unwritten.found (h : c.Unwritten parse o₀ before o s) (hpast : s.remover.pc.pastEnd = true) :
    c.textAt (o c.file).1 s.saver = (o c.file).1 := by
  have hwaits := h.waits
  have hthere := h.there
  cases hpc : s.saver with
  | check => rfl
  | openAppend => rfl
  | write id =>
      rw [hpc] at hthere
      obtain ⟨text, htext⟩ := Option.ne_none_iff_exists'.mp (hthere rfl hpast)
      rw [htext]
      rfl
  | _ =>
      rw [hpc] at hwaits
      exact hwaits.elim

theorem Unwritten.step_write (h : c.Unwritten parse o₀ before o s)
    (hsaved : c.file ∈ c.removal.files c.numConnectors) (hinside : c.Inside s.toSystem)
    (hcalm : c.CalmSaver parse s) {id : Nat} (hpc : s.saver = .write id)
    (hturn : c.turn parse .saver s = some s') : c.Phase parse o₀ s' := by
  have hpath : (c.removal.job parse c.file).path = .queue c.file :=
    congrArg Path.queue (Removal.job_file hsaved)
  have hhere := h.here
  have hopened : s.saver.opened = true := by rw [hpc]; rfl
  have hclosing : ∀ p, s.remover.pc.ending = some p → s.remover.pc.pastEnd = true →
      c.Closing parse p s.remover.pc →
      (c.removal.job parse c.file).Complete c.removerEnv (c.textAt (o c.file).1 s.saver) s.fs p →
      c.removal.Enters c.removerEnv s.remover.progress c.file (o c.file).2
        (c.textAt (o c.file).1 s.saver) → c.Phase parse o₀ s' := by
    intro p hend hpast hclosing hcomplete henters
    rw [h.found hpast] at hcomplete henters
    obtain ⟨text, htext, hpass⟩ := hcomplete.passed
    have hrewritten : (c.removal.job parse c.file).rewritten p text = text :=
      if_neg (h.stays hopened p hend)
    refine h.write_of_closing hpc htext henters hcomplete.opens hpass ?_ hclosing hturn
    rw [hrewritten, ← htext, ← hpath]
    exact hcomplete.here
  cases hremover : s.remover.pc with
  | enter =>
      have houtside := hinside.2
      rw [hremover] at houtside
      cases houtside
  | assign p =>
      rw [h.found (by rw [hremover]; rfl), hremover] at hhere
      obtain ⟨henters, hopens, text, htext, hpass, hcontents, -⟩ := hhere
      exact h.write_of_closing hpc htext henters hopens hpass hcontents
        (by rw [hremover]; exact .assign) hturn
  | rewrite pc =>
      rw [hremover] at hhere hclosing
      obtain ⟨hcall, henters, hdoing, -⟩ := hhere
      have hstays : ∀ p, pc.ending = some p → ¬(c.removal.job parse c.file).Replaces p := by
        intro p hp
        exact h.stays hopened p (by rw [hremover]; exact hp)
      cases pc with
      | openSrc => exact h.write_of_reading hsaved hinside hcalm hpc hremover rfl hturn
      | openTemp => exact h.write_of_reading hsaved hinside hcalm hpc hremover rfl hturn
      | copy => exact h.write_of_reading hsaved hinside hcalm hpc hremover rfl hturn
      | write => exact h.write_of_reading hsaved hinside hcalm hpc hremover rfl hturn
      | scan src temp o =>
          obtain ⟨-, text, rest, scanLine, -, -, -, hfirst, -⟩ := hdoing
          rw [Removal.job_firstPass] at hfirst
          cases hfirst
      | closeSrc p => exact hclosing p rfl rfl (.closeSrc (hstays p rfl)) hdoing henters
      | closeTemp p => exact hclosing p rfl rfl (.closeTemp (hstays p rfl)) hdoing henters
      | remove p => exact absurd hdoing.1 (hstays p rfl)
      | rename p => exact absurd hdoing.1 (hstays p rfl)
      | dropTemp p => exact hclosing p rfl rfl (.dropTemp (hstays p rfl)) hdoing.2 henters
      | done result => cases hcall
      | overrun => cases hcall

theorem Unwritten.step_saver (h : c.Unwritten parse o₀ before o s)
    (hsaved : c.file ∈ c.removal.files c.numConnectors) (hinside : c.Inside s.toSystem)
    (hcalm : c.CalmSaver parse s) (hturn : c.turn parse .saver s = some s') : c.Phase parse o₀ s' := by
  have hwaits := h.waits
  cases hpc : s.saver with
  | check => exact h.step_check hsaved hinside hcalm hpc hturn
  | openAppend => exact h.step_openAppend hsaved hinside hcalm hpc hturn
  | write id => exact h.step_write hsaved hinside hcalm hpc hturn
  | _ =>
      rw [hpc] at hwaits
      exact hwaits.elim

/-! ### The other call at the file -/

theorem Waits.congr {x : Option CStr × UInt8} {fs fs' : FileSystem Path} {pc : SaverPc}
    (h : c.Waits x fs pc)
    (hdir : pc.opened = true → fs'.dir (.queue c.file) = fs.dir (.queue c.file)) :
    c.Waits x fs' pc := by
  cases pc with
  | write id => exact ⟨h.1, h.2.1, (hdir rfl).trans h.2.2⟩
  | _ => exact h

theorem Waits.room {x : Option CStr × UInt8} {fs : FileSystem Path} {pc : SaverPc}
    (h : c.Waits x fs pc) : pc.idle = true ∨ pc.ended = false ∧ ¬c.Full x.2 := by
  cases pc with
  | check => exact .inl rfl
  | openAppend => exact .inr ⟨rfl, h.1⟩
  | write id => exact .inr ⟨rfl, h.1⟩
  | _ => exact h.elim

/-- The check would still have found room. -/
theorem Waits.counted {x y : Option CStr × UInt8} {fs : FileSystem Path} {pc : SaverPc}
    (h : c.Waits x fs pc) (hroom : pc.idle = true ∨ ¬c.Full y.2) : c.Waits y fs pc := by
  cases pc with
  | check => trivial
  | openAppend => exact ⟨hroom.resolve_left (by decide), h.2⟩
  | write id => exact ⟨hroom.resolve_left Bool.noConfusion, h.2⟩
  | _ => exact h

theorem Waits.textAt_some {x : Option CStr × UInt8} {fs : FileSystem Path} {pc : SaverPc}
    (h : c.Waits x fs pc) (text : CStr) : c.textAt (some text) pc = some text := by
  cases pc with
  | check => rfl
  | openAppend => rfl
  | write id => rfl
  | _ => exact h.elim

/-- The other call has taken effect before this one. -/
theorem saverAt_of_waits {t : System} {y : Option CStr × UInt8} (hwaits : c.Waits y t.fs t.saver)
    (hobject : t.object c.file = (c.textAt y.1 t.saver, y.2)) : c.SaverAt y false t := by
  rw [SaverAt]
  cases hpc : t.saver with
  | check =>
      rw [hpc] at hobject
      exact ⟨rfl, hobject⟩
  | openAppend =>
      rw [hpc] at hwaits hobject
      exact ⟨y, ⟨hwaits.1, rfl⟩, hobject, hwaits.2⟩
  | write id =>
      rw [hpc] at hwaits hobject
      exact ⟨y, ⟨hwaits.1, rfl⟩, hobject, hwaits.2⟩
  | _ =>
      rw [hpc] at hwaits
      exact hwaits.elim

theorem Visiting.apart {s t : System} (h : c.Visiting parse o₀ before o s) {m' : Progress}
    {file : Option CStr} {counter : Option QueueFile} {n : Nat}
    (hvisit : c.FileVisit parse s.remover.index c.file s.remover.progress (o c.file) m' file counter n)
    (hremover : t.remover = s.remover.next m') (hentries : t.entries = assignCounter s.entries counter n)
    (hothers : ∀ g, g ≠ c.file → t.fs.contents (.queue g) = s.fs.contents (.queue g))
    {full : Bool} (hsaver : c.SaverAt (o.left c.file file counter n c.file) full t)
    (hevicting : t.saver.evicting = false) (late : Bool) : c.Phase parse o₀ ⟨t, full, late⟩ := by
  obtain ⟨rest, htodo⟩ := h.exists_rest
  refine .apart ⟨h.next htodo hvisit hremover fun g => ?_, hsaver, fun hinside => ?_,
    fun hevicts => ?_, fun hfile => ?_⟩
  · by_cases hg : g = c.file
    · rw [hg, viewed_self]
    · have hobject := h.others g hg
      rw [viewed_of_ne hg, Objects.left, Objects.assign, Function.update_of_ne hg]
      refine Prod.ext ((hothers g hg).trans (congrArg Prod.fst hobject)) ?_
      show t.entries g = _
      rw [hentries]
      refine assignCounter_congr ?_ _ _
      rw [Function.update_of_ne hg]
      exact congrArg Prod.snd hobject
  · have hpc := hinside.2
    rw [show t.remover = _ from hremover] at hpc
    cases hpc
  · rw [show t.saver.evicting = false from hevicting] at hevicts
    cases hevicts
  · rw [show t.remover = _ from hremover, Remover.next, htodo] at hfile
    exact absurd hfile (h.toThrough.not_mem_rest htodo).2

/-- Before the line is written, a file is kept if it would have been kept at first. -/
theorem Unwritten.kept (h : c.Unwritten parse o₀ before o s)
    (hkept : c.Kept parse s.remover.progress c.file
      (c.textAt (o c.file).1 s.saver, (o c.file).2)) :
    c.Kept parse s.remover.progress c.file (o c.file) := by
  have hwaits := h.waits
  cases hpc : s.saver with
  | check =>
      rw [hpc] at hkept
      exact hkept
  | openAppend =>
      rw [hpc] at hkept
      exact hkept
  | write id =>
      rw [hpc] at hkept
      rcases hkept with hskipped | hmissing | hfailed
      · exact .inl fun henters => hskipped (henters.mono (fun hne => hne) fun hne => hne)
      · cases hmissing
      · exact .inr (.inr hfailed)
  | _ =>
      rw [hpc] at hwaits
      exact hwaits.elim

/-- A file that is open is not replaced. -/
theorem Unwritten.dir_eq (h : c.Unwritten parse o₀ before o s)
    (hsaved : c.file ∈ c.removal.files c.numConnectors) {t : System}
    (hstep : c.removerStep parse s.toSystem = some t) (hopened : s.saver.opened = true) :
    t.fs.dir (.queue c.file) = s.fs.dir (.queue c.file) := by
  obtain ⟨rest, htodo⟩ := h.toVisiting.exists_rest
  refine (h.here.same_step hsaved htodo hstep (fun _ => ?_)
    fun h => absurd h (QueueFile.queue_ne_temp _ _)).dir
  have hhere := h.here
  have hstays := h.stays hopened
  cases hremover : s.remover.pc with
  | enter => rfl
  | assign p => rfl
  | rewrite pc =>
      rw [hremover] at hhere hstays
      obtain ⟨-, -, hdoing, -⟩ := hhere
      cases pc with
      | remove p => exact absurd hdoing.1 (hstays p rfl)
      | rename p => exact absurd hdoing.1 (hstays p rfl)
      | _ => rfl

theorem Unwritten.step_remover (h : c.Unwritten parse o₀ before o s)
    (hsaved : c.file ∈ c.removal.files c.numConnectors) (hcalm : c.CalmRemover parse s)
    (hturn : c.turn parse .remover s = some s') : c.Phase parse o₀ s' := by
  rw [turn_remover] at hturn
  obtain ⟨t, hstep, rfl⟩ := Option.map_eq_some_iff.mp hturn
  obtain ⟨rest, htodo⟩ := h.toVisiting.exists_rest
  have hsaver : t.saver = s.saver := removerStep_saver hstep
  have hothers : ∀ g, g ≠ c.file → t.fs.contents (.queue g) = s.fs.contents (.queue g) := fun g hg =>
    (h.here.same_step hsaved htodo hstep (fun h => absurd (Path.queue.inj h) hg)
      fun h => absurd h (QueueFile.queue_ne_temp _ _)).contents
  have hwaits : c.Waits (o c.file) t.fs t.saver := by
    rw [hsaver]
    exact h.waits.congr (h.dir_eq hsaved hstep)
  have hevicting : t.saver.evicting = false := by
    cases hpc : t.saver <;> rw [hpc] at hwaits <;> first | rfl | exact hwaits.elim
  have hhere := h.here
  rw [← UInt8.add_zero (s.entries c.file)] at hhere
  rcases hhere.step hsaved htodo (fun _ => rfl) hstep with
    ⟨pc, hwithin, hremover, hentries, hnext⟩ | ⟨hkeeps, hremover, hentries, hobject⟩ | ⟨p, hp, rfl⟩
  · rw [UInt8.add_zero] at hnext
    have hpc : t.remover.pc = pc := by rw [hremover]
    have hpast := removerStep_pastEnd htodo (fun pc' hpc' => by
      have hcall := h.here
      rw [hpc'] at hcall
      exact hcall.1) hstep
    -- the end of the file is not read while it is open, unless the file stays
    have hend : ∀ {src temp o' p}, s.saver.opened = true →
        s.remover.pc = .rewrite (.copy src temp o' p) →
        s.fs.gets (c.removal.job parse c.file).size src = none →
        ¬(c.removal.job parse c.file).Replaces p :=
      fun hopened hcopy heof => hcalm.endOfFile hopened h.saved (_, _) (by rw [hcopy]; rfl) heof
    suffices hunwritten : c.Unwritten parse o₀ before o ⟨t, s.full, s.late⟩ from
      .unwritten hunwritten ⟨hunwritten.saved, by rw [hpc]; exact hwithin⟩
    refine ⟨⟨⟨?_, ?_, ?_⟩, fun g hg => ?_, ?_⟩, h.full, h.late, hwaits, ?_, fun hopened hpast' => ?_,
      fun hopened p hp => ?_⟩
    · rw [hremover]
      exact h.files
    · rw [hremover]
      exact h.index
    · rw [hremover]
      exact h.visited
    · rw [← h.others g hg]
      exact Prod.ext (hothers g hg) (congrFun hentries g)
    · rw [AtSaved, hremover]
      exact h.saved
    · rw [hsaver, hremover]
      exact hnext
    · rw [hsaver] at hopened
      rcases hpast hpast' with ⟨hbefore, -⟩ | ⟨src, temp, o', p, hcopy, heof, -⟩
      · exact h.there hopened hbefore
      · intro hmissing
        have hhere' := h.here
        have hwrites := h.waits
        rw [hcopy, hmissing] at hhere'
        cases hopen : s.saver with
        | write id =>
            rw [hopen] at hhere'
            have hnot := hend hopened hcopy heof
            exact hhere'.2.1.ne_nil (fun halways => hnot (.inl halways)) rfl
        | _ =>
            rw [hopen] at hopened
            cases hopened
    · rw [hsaver] at hopened
      have hpast' : t.remover.pc.pastEnd = true := by
        cases hpc' : t.remover.pc with
        | rewrite pc' =>
            rw [hpc'] at hp
            exact Option.isSome_iff_exists.mpr ⟨p, hp⟩
        | _ =>
            rw [hpc'] at hp
            cases hp
      rcases hpast hpast' with ⟨-, hsame⟩ | ⟨src, temp, o', p', hcopy, heof, hnext'⟩
      · exact h.stays hopened p (hsame p hp)
      · rw [hnext'] at hp
        obtain rfl := Option.some.inj hp
        exact hend hopened hcopy heof
  · have hvisit : c.FileVisit parse s.remover.index c.file s.remover.progress (o c.file)
        s.remover.progress (o c.file).1 none 0 := .kept (h.kept hkeeps)
    refine h.toVisiting.apart hvisit hremover hentries hothers ?_ hevicting _
    rw [h.full, Objects.left_self rfl]
    refine saverAt_of_waits hwaits ?_
    rw [UInt8.add_zero] at hobject
    rw [hsaver]
    exact hobject
  · have hpast : s.remover.pc.pastEnd = true := by rw [hp]; rfl
    rw [UInt8.add_zero, h.found hpast, hp] at hhere
    obtain ⟨henters, hopens, text, htext, hpass, hcontents, hcount⟩ := hhere
    refine h.toVisiting.apart (.pass henters hopens htext hpass) rfl rfl hothers ?_ hevicting _
    rw [h.full, Objects.left_at]
    have hcounted : assignCounter s.entries (c.removal.counter s.remover.index c.file)
          (c.removal.count s.remover.progress p) c.file
        = assignCounter (fun _ => (o c.file).2) (c.removal.counter s.remover.index c.file)
          (c.removal.count s.remover.progress p) c.file := assignCounter_congr hcount _ _
    refine saverAt_of_waits (hwaits.counted ?_) (Prod.ext ?_ hcounted)
    · by_cases hcounter : c.removal.counter s.remover.index c.file = some c.file
      · rw [hcounter, assignCounter_self]
        rcases hcalm.count ⟨h.saved, hcounter⟩ p (by rw [hp]; rfl) with hidle | hended | ⟨hroom, -⟩
        · exact .inl hidle
        · rcases hwaits.room with hidle | ⟨hnot, -⟩
          · exact .inl hidle
          · rw [show s.saver.ended = false from hnot] at hended
            cases hended
        · exact .inr hroom
      · rw [assignCounter_of_ne hcounter]
        exact hwaits.room.imp_right And.right
    · rw [hwaits.textAt_some]
      exact hcontents

end TwoCalls

end Pmu
