import PmuFirmware.Queue.Meeting
import PmuFirmware.Queue.Counters
import PmuFirmware.Queue.Crash

/-!
# One call after the other

When all steps of a run are calm, its outcome is that of the two calls in the order in which the line
was written and the end of the file was read.
-/

namespace Pmu

open CLib

namespace TwoCalls

variable {parse : CStr → Option Json} {c : TwoCalls} {o₀ o : Objects} {before : List QueueFile}
  {s s' : Watched}

/-! ### The line came too late -/

theorem Late.step_saver (h : c.Late parse o₀ before o s)
    (hsaved : c.file ∈ c.removal.files c.numConnectors) (hcalm : c.CalmSaver parse s)
    (hturn : c.turn parse .saver s = some s') : c.Late parse o₀ before o s' := by
  rw [turn_saver] at hturn
  obtain ⟨t, hstep, rfl⟩ := Option.map_eq_some_iff.mp hturn
  have hcount := h.count
  have hfull : s.saver.idle = false → (s.full || c.findsFull s.toSystem) = false := fun hidle => by
    rw [h.full, findsFull, hidle, Bool.false_and]
    rfl
  have hlate : ∀ b, (s.late || b) = true := fun b => by rw [h.late, Bool.true_or]
  rw [saverStep] at hstep
  cases hpc : s.saver with
  | close =>
      rw [hpc] at hstep hcount
      obtain rfl := Option.some.inj hstep
      exact ⟨⟨⟨h.files, h.index, h.visited⟩, h.others, h.saved⟩, hfull (by rw [hpc]; rfl), hlate _,
        h.closing, h.appends, hcount, .inl rfl⟩
  | increment =>
      rw [hpc] at hstep hcount
      obtain rfl := Option.some.inj hstep
      have hpast : c.PastEnd s.toSystem := by
        obtain ⟨text, p, -, -, -, -, -, hclosing⟩ := h.closing
        exact ⟨h.saved, hclosing.pastEnd⟩
      have hnot := hcalm.increment (by rw [hpc]; rfl) h.late hpast
      simp only [if_pos (listed_of_mem hsaved)]
      refine ⟨⟨⟨h.files, h.index, h.visited⟩, fun g hg => ?_, h.saved⟩, hfull (by rw [hpc]; rfl),
        hlate _, h.closing, h.appends, ?_, .inr ⟨rfl, hnot⟩⟩
      · rw [← h.others g hg]
        exact Prod.ext rfl (Function.update_of_ne hg _ _)
      · show Function.update s.entries c.file (s.entries c.file + 1) c.file = _
        rw [Function.update_self, hcount, countAt, countAt, if_pos h.appends.1]
        simp
  | done =>
      rw [hpc] at hstep
      cases hstep
  | _ =>
      rcases h.saver with hwritten | ⟨hended, -⟩
      · rw [hpc] at hwritten
        cases hwritten
      · rw [hpc] at hended
        cases hended

/-- The line has been appended to what the other call left. -/
theorem saverAt_of_appended {t : System} {y : Option CStr × UInt8} (happends : c.Appends)
    (hroom : ¬c.Full y.2) (hsaver : t.saver.written = true ∨ t.saver.ended = true)
    (hobject : t.object c.file = (some (y.1.getD [] ++ c.line), c.countAt y.2 t.saver)) :
    c.SaverAt y false t := by
  rw [SaverAt]
  cases hpc : t.saver with
  | close =>
      rw [hpc] at hobject
      exact ⟨y, ⟨hroom, rfl⟩, hobject, happends⟩
  | increment =>
      rw [hpc] at hobject
      exact ⟨y, ⟨hroom, rfl⟩, hobject, happends⟩
  | done =>
      rw [hpc] at hobject
      refine .inl ⟨false, y, ⟨hroom, rfl⟩, ?_⟩
      rw [objectAt, textAt, if_pos happends]
      exact hobject
  | _ =>
      rw [hpc] at hsaver
      rcases hsaver with hwritten | hended
      · cases hwritten
      · cases hended

theorem not_evicting_of_written {pc : SaverPc} (h : pc.written = true ∨ pc.ended = true) :
    pc.evicting = false := by
  cases pc with
  | evict pc =>
      rcases h with hwritten | hended
      · cases hwritten
      · cases hended
  | _ => rfl

theorem countAt_of_written {pc : SaverPc} (h : pc.written = true) (n : UInt8) : c.countAt n pc = n := by
  cases pc with
  | close => rfl
  | increment => rfl
  | _ => cases h

/-- The lines have been counted without the new one. -/
theorem Late.step_assign (h : c.Late parse o₀ before o s) (hcalm : c.CalmRemover parse s) {p : Pass}
    (hp : s.remover.pc = .assign p) (hturn : c.turn parse .remover s = some s') :
    c.Phase parse o₀ s' := by
  rw [turn_remover] at hturn
  obtain ⟨t, hstep, rfl⟩ := Option.map_eq_some_iff.mp hturn
  obtain ⟨rest, htodo⟩ := h.toVisiting.exists_rest
  obtain ⟨text, p', htext, henters, hopens, hpass, hcontents, hclosing⟩ := h.closing
  obtain rfl : p' = p := by
    rw [hp] at hclosing
    cases hclosing
    rfl
  rw [removerStep, htodo] at hstep
  dsimp only at hstep
  rw [hp] at hstep
  have ht := (Option.some.inj hstep).symm
  have hsaver : t.saver = s.saver := by rw [ht]
  have hentries : t.entries = assignCounter s.entries (c.removal.counter s.remover.index c.file)
      (c.removal.count s.remover.progress p') := by rw [ht]
  have hfs : t.fs = s.fs := by rw [ht]
  have hfile : t.fs.contents (.queue c.file)
      = some ((c.removal.job parse c.file).rewritten p' text ++ c.line) := by rw [hfs, hcontents]
  have hwritten := h.saver.imp_right And.left
  rw [← hsaver] at hwritten
  refine h.toVisiting.apart (.pass henters hopens htext hpass) (by rw [ht]) hentries
    (fun g _ => by rw [hfs]) ?_ (not_evicting_of_written hwritten) _
  rw [h.full, Objects.left_at]
  have hcount := congrFun hentries c.file
  by_cases hcounter : c.removal.counter s.remover.index c.file = some c.file
  · have hcounts : c.Counts s.toSystem := ⟨h.saved, hcounter⟩
    have hunfinished : s.saver.written = true := h.saver.resolve_right fun hended => hended.2 hcounts
    obtain ⟨hidle, hended⟩ := not_idle_of_written hunfinished
    have hroom := hcalm.count hcounts p' (by rw [hp]; rfl)
    rw [hidle, hended] at hroom
    rw [hcounter, assignCounter_self] at hcount ⊢
    refine saverAt_of_appended h.appends.1
      ((hroom.resolve_left Bool.false_ne_true).resolve_left Bool.false_ne_true).1 hwritten
      (Prod.ext hfile ?_)
    rw [countAt_of_written (by rw [hsaver]; exact hunfinished)]
    exact hcount
  · rw [assignCounter_of_ne hcounter] at hcount ⊢
    refine saverAt_of_appended h.appends.1 h.appends.2 hwritten (Prod.ext hfile ?_)
    rw [hsaver, ← h.count]
    exact hcount

/-- The file is closed. -/
theorem Late.of_closing (pc : RemoverPc) (h : c.Late parse o₀ before o s) {t : System}
    (hremover : t.remover = { s.remover with pc := pc }) (hentries : t.entries = s.entries)
    (hsaver : t.saver = s.saver)
    (hcontents : ∀ g, t.fs.contents (.queue g) = s.fs.contents (.queue g))
    (hclosing : ∀ p, c.Closing parse p s.remover.pc → c.Closing parse p pc) :
    c.Late parse o₀ before o ⟨t, s.full, s.late⟩ := by
  refine ⟨⟨⟨?_, ?_, ?_⟩, fun g hg => ?_, ?_⟩, h.full, h.late, ?_, h.appends, ?_, ?_⟩
  · rw [hremover]
    exact h.files
  · rw [hremover]
    exact h.index
  · rw [hremover]
    exact h.visited
  · rw [← h.others g hg]
    exact Prod.ext (hcontents g) (congrFun hentries g)
  · rw [AtSaved, hremover]
    exact h.saved
  · obtain ⟨text, p, htext, henters, hopens, hpass, hfile, hclosed⟩ := h.closing
    refine ⟨text, p, htext, ?_, hopens, hpass, (hcontents _).trans hfile, ?_⟩
    · rw [hremover]
      exact henters
    · rw [hremover]
      exact hclosing p hclosed
  · rw [hentries, hsaver]
    exact h.count
  · rw [hsaver, Counts, AtSaved, hremover]
    exact h.saver

theorem Late.step_remover (h : c.Late parse o₀ before o s) (hcalm : c.CalmRemover parse s)
    (hturn : c.turn parse .remover s = some s') : c.Phase parse o₀ s' := by
  obtain ⟨rest, htodo⟩ := h.toVisiting.exists_rest
  obtain ⟨-, p, -, -, -, -, -, hclosing⟩ := h.closing
  have hmapped := hturn
  rw [turn_remover] at hmapped
  obtain ⟨t, hstep, rfl⟩ := Option.map_eq_some_iff.mp hmapped
  rw [removerStep, htodo] at hstep
  dsimp only at hstep
  generalize hpc : s.remover.pc = pc at hclosing
  rw [hpc] at hstep
  cases hclosing with
  | closeSrc hstays =>
      have ht : t = { s.toSystem with remover := { s.remover with pc := .rewrite (.closeTemp p) } } :=
        (Option.some.inj hstep).symm
      refine .late (h.of_closing (.rewrite (.closeTemp p)) (by rw [ht])
        (by rw [ht]) (by rw [ht])
        (fun g => by rw [ht]) fun p' hp' => ?_)
      rw [hpc] at hp'
      cases hp'
      exact .closeTemp hstays
  | closeTemp hstays =>
      have hkeeps : ¬((c.removal.job parse c.file).always = true ∨ 0 < p.deleted) := hstays
      dsimp only at hstep
      rw [Rewriter.step, if_neg hkeeps] at hstep
      have ht : t = { s.toSystem with remover := { s.remover with pc := .rewrite (.dropTemp p) } } :=
        (Option.some.inj hstep).symm
      refine .late (h.of_closing (.rewrite (.dropTemp p)) (by rw [ht])
        (by rw [ht]) (by rw [ht])
        (fun g => by rw [ht]) fun p' hp' => ?_)
      rw [hpc] at hp'
      cases hp'
      exact .dropTemp hstays
  | dropTemp hstays =>
      have ht : t = { s.toSystem with
          fs := s.fs.remove (c.removal.job parse c.file).temp
          remover := { s.remover with pc := .assign p } } := (Option.some.inj hstep).symm
      refine .late (h.of_closing (.assign p) (by rw [ht])
        (by rw [ht]) (by rw [ht])
        (fun g => ?_) fun p' hp' => ?_)
      · rw [ht]
        exact (s.fs.contents_remove _ _).trans (if_neg (QueueFile.queue_ne_temp _ _))
      · rw [hpc] at hp'
        cases hp'
        exact .assign
  | assign => exact h.step_assign hcalm hpc hturn

/-! ### Coming to the file -/

theorem not_usesTemp_of_outside {pc : RemoverPc} (h : pc.outside = true) : pc.usesTemp = false := by
  cases pc with
  | enter => rfl
  | _ => cases h

/-- The other call goes through a file that is not saved to. -/
theorem Apart.step_elsewhere (h : c.Apart parse o₀ before o s)
    (hsaved : c.file ∈ c.removal.files c.numConnectors) (hcalm : c.CalmRemover parse s)
    {g : QueueFile} {rest : List QueueFile} (htodo : s.remover.todo = g :: rest) (hg : g ≠ c.file)
    (hturn : c.turn parse .remover s = some s') :
    ∃ before' o', c.Apart parse o₀ before' o' s' := by
  rw [turn_remover] at hturn
  obtain ⟨t, hstep, rfl⟩ := Option.map_eq_some_iff.mp hturn
  have hsaver : t.saver = s.saver := removerStep_saver hstep
  have hhere := h.remover.here g (by rw [htodo]; rfl)
  obtain ⟨hpath, hobject⟩ := hhere.untouched h.remover.toThrough htodo hsaved hg.symm hstep
  obtain ⟨before', o', hnext, hkept⟩ := h.remover.step (c.viewed (o c.file) t) 0 hsaved
    htodo (.inl rfl) hstep ((viewed_of_ne hg _ _).trans (object_eq _ _))
    ((viewed_of_ne hg _ _).trans (object_eq _ _))
    (fun f _ hf => ⟨viewed_of_ne hf _ _, viewed_of_ne hf _ _⟩) fun _ => by
      rw [viewed_self, viewed_self]
  have hsame : o' c.file = o c.file := hkept hg.symm
  have htemp : s.saver.evicting = true → g.temp = c.file.temp → s.remover.pc.stepsTemp = false :=
    fun hevicting hshared => hcalm.temp hevicting ⟨g, by rw [htodo]; rfl, hshared⟩
  refine ⟨before', o', ⟨hsame ▸ hnext, ?_, fun hinside => ?_, fun hevicting hshares => ?_, fun hfile =>
    h.late (mem_todo_of_step hstep hfile)⟩⟩
  · rw [hsame]
    refine h.saver.congr hsaver hpath (fun hevicting => ?_) (congrArg Prod.snd hobject)
    exact hhere.same_step (h.remover.toThrough.mem htodo) htodo hstep
      (fun h => absurd h (QueueFile.temp_ne_queue _ _)) fun h => htemp hevicting h.symm
  · rcases removerStep_todo hstep with ⟨htodo', -⟩ | ⟨-, hout⟩
    · have hat : t.remover.todo.head? = some c.file := hinside.1
      rw [htodo', htodo] at hat
      exact hg (Option.some.inj hat)
    · have hwithin : t.remover.pc.outside = false := hinside.2
      rw [hout] at hwithin
      cases hwithin
  · have hevicting : s.saver.evicting = true := hsaver ▸ hevicting
    rcases removerStep_todo hstep with ⟨htodo', -⟩ | ⟨-, hout⟩
    · obtain ⟨g', hg', hshared⟩ := hshares
      rw [show t.remover.todo = _ from htodo', htodo] at hg'
      obtain rfl := Option.some.inj hg'
      exact removerStep_usesTemp (htemp hevicting hshared) hstep
    · exact not_usesTemp_of_outside hout

theorem Apart.visiting (h : c.Apart parse o₀ before o s) (hat : c.AtSaved s.toSystem) :
    c.Visiting parse o₀ before o s.toSystem := by
  refine ⟨h.remover.toThrough, fun g hg => ?_, hat⟩
  rw [← h.remover.others g (by rw [hat]; exact fun h => hg (Option.some.inj h).symm), viewed_of_ne hg]

/-- The other call comes to the file after the line has been saved. -/
theorem Apart.following (h : c.Apart parse o₀ before o s)
    (hsaved : c.file ∈ c.removal.files c.numConnectors) (hat : c.AtSaved s.toSystem)
    (hpc : s.remover.pc = .enter) (hended : s.saver.ended = true) :
    c.Following parse o₀ before (Function.update o c.file (s.object c.file)) s := by
  have hvisiting := h.visiting hat
  have hsaver := h.saver
  have hdone : s.saver = .done := by
    cases hpc : s.saver with
    | done => rfl
    | _ =>
        rw [hpc] at hended
        cases hended
  rw [SaverAt, hdone, (hvisiting.update hsaved).1] at hsaver
  refine ⟨⟨s.object c.file, hsaver, hvisiting.remover_of_here .enter hsaved ?_ (fun _ _ => rfl) ?_⟩,
    .inl hended⟩
  · rw [← hpc]
  · rw [hdone]
    exact (object_eq _ _).symm

/-- The other call comes to the file before the line has been counted. -/
theorem Apart.step_written (h : c.Apart parse o₀ before o s)
    (hsaved : c.file ∈ c.removal.files c.numConnectors) (hat : c.AtSaved s.toSystem)
    (hpc : s.remover.pc = .enter) (hwritten : s.saver.written = true)
    (hroom : ¬c.Full (o c.file).2) (happends : c.Appends)
    (hobject : s.object c.file = (some ((o c.file).1.getD [] ++ c.line), (o c.file).2))
    (hturn : c.turn parse .remover s = some s') : c.Phase parse o₀ s' := by
  rw [turn_remover] at hturn
  obtain ⟨t, hstep, rfl⟩ := Option.map_eq_some_iff.mp hturn
  have hvisiting := h.visiting hat
  obtain ⟨rest, htodo⟩ := hvisiting.exists_rest
  have hsame := (hvisiting.update hsaved).1
  have hfile : s.fs.contents (.queue c.file) = some ((o c.file).1.getD [] ++ c.line) :=
    congrArg Prod.fst hobject
  have hcount : s.entries c.file = (o c.file).2 := congrArg Prod.snd hobject
  have hnonempty : (o c.file).1.getD [] ≠ [] →
      (s.fs.contents (.queue c.file)).getD [] ≠ [] := fun hne => by
    rw [hfile, Option.getD_some]
    exact fun h => hne (List.append_eq_nil_iff.mp h).1
  rw [removerStep, htodo] at hstep
  dsimp only at hstep
  rw [hpc] at hstep
  by_cases henters : c.removal.Enters c.removerEnv s.remover.progress c.file (s.entries c.file)
      (s.fs.contents (.queue c.file))
  · have ht : t = { s.toSystem with remover := { s.remover with pc := .rewrite .openSrc } } := by
      dsimp only at hstep
      rw [if_pos henters] at hstep
      exact (Option.some.inj hstep).symm
    have hdone : c.objectAt (o c.file) .done
        = (some ((o c.file).1.getD [] ++ c.line), (o c.file).2 + 1) := by
      rw [objectAt, textAt, countAt, if_pos happends, if_pos happends]
    refine .following ⟨⟨c.objectAt (o c.file) .done, .inl ⟨false, o c.file, ⟨hsame ▸ hroom, hsame⟩, rfl⟩,
      hvisiting.remover_of_here (.rewrite .openSrc) hsaved (by rw [ht])
        (fun g _ => by rw [ht]; rfl) ?_⟩, .inr ⟨by rw [ht]; exact hwritten, ?_, fun _ => ?_⟩⟩
    · rw [hdone, ht]
      refine ⟨rfl, henters.mono (fun _ => add_one_ne_zero hsaved hroom) fun hne => ?_, ?_, ?_⟩
      · rw [Option.getD_some, ← Option.getD_some (a := (o c.file).1.getD [] ++ c.line), ← hfile]
        exact hne
      · show s.fs.contents (.queue (c.removal.job parse c.file).file) = _
        rw [Removal.job_file hsaved, hfile]
      · show s.entries c.file + lag s.saver = _
        rw [lag_of_written hwritten, hcount]
    · exact h.late (by rw [htodo]; exact List.mem_cons_self)
    · rw [ht]
      exact ⟨hat, rfl⟩
  · have ht : t = { s.toSystem with remover := s.remover.next s.remover.progress } := by
      dsimp only at hstep
      rw [if_neg henters] at hstep
      exact (Option.some.inj hstep).symm
    have hskips : ¬c.removal.Enters c.removerEnv s.remover.progress c.file (o c.file).2
        (o c.file).1 := fun h => henters (h.mono (fun hne => by rw [hcount]; exact hne) hnonempty)
    refine hvisiting.apart (.kept (.inl hskips)) (by rw [ht]) (by rw [ht]; rfl) (fun g _ => by rw [ht])
      ?_ (by rw [ht]; exact not_evicting_of_written (.inl hwritten)) _
    rw [Objects.left_self rfl]
    exact h.saver.congr (by rw [ht]) (by rw [ht]; exact .refl _ _) (fun _ => by rw [ht]; exact .refl _ _)
      (by rw [ht])

theorem Apart.step_at (h : c.Apart parse o₀ before o s)
    (hsaved : c.file ∈ c.removal.files c.numConnectors) (hcalm : c.CalmRemover parse s)
    (hat : c.AtSaved s.toSystem) (hturn : c.turn parse .remover s = some s') : c.Phase parse o₀ s' := by
  have hvisiting := h.visiting hat
  obtain ⟨rest, htodo⟩ := hvisiting.exists_rest
  have hpc : s.remover.pc = .enter := by
    cases hremover : s.remover.pc with
    | enter => rfl
    | _ => exact absurd ⟨hat, by rw [hremover]; rfl⟩ h.outside
  by_cases hended : s.saver.ended = true
  · obtain ⟨before', o', hnext⟩ :=
      (h.following hsaved hat hpc hended).step_remover hsaved hcalm hturn
    exact .following hnext
  · have hfull : s.full = false := by
      refine Bool.eq_false_iff.mpr fun hfull => ?_
      exact hcalm.full hfull (Bool.eq_false_iff.mpr hended) hat
    have hlate : s.late = false := h.late (by rw [htodo]; exact List.mem_cons_self)
    have hsaver := h.saver
    have hunwritten : c.Waits (o c.file) s.fs s.saver →
        s.object c.file = (c.textAt (o c.file).1 s.saver, (o c.file).2) → c.Phase parse o₀ s' := by
      intro hwaits hobject
      have hunwritten : c.Unwritten parse o₀ before o s := by
        refine ⟨hvisiting, hfull, hlate, hwaits, ?_, fun _ hpast => ?_, fun _ p hend => ?_⟩
        · rw [hpc]
          exact hobject
        · rw [hpc] at hpast
          cases hpast
        · rw [hpc] at hend
          cases hend
      exact hunwritten.step_remover hsaved hcalm hturn
    rw [SaverAt, hfull] at hsaver
    cases hstate : s.saver with
    | check =>
        rw [hstate] at hsaver hunwritten
        exact hunwritten trivial hsaver.2
    | evict pc =>
        rw [hstate] at hsaver
        cases hsaver.1
    | assign p =>
        rw [hstate] at hsaver
        cases hsaver.1
    | openAppend =>
        rw [hstate] at hsaver hunwritten
        obtain ⟨o₁, ⟨hroom, rfl⟩, hobject, htime⟩ := hsaver
        exact hunwritten ⟨hroom, htime⟩ hobject
    | write id =>
        rw [hstate] at hsaver hunwritten
        obtain ⟨o₁, ⟨hroom, rfl⟩, hobject, happends, hdir⟩ := hsaver
        exact hunwritten ⟨hroom, happends, hdir⟩ hobject
    | close =>
        rw [hstate] at hsaver
        obtain ⟨o₁, ⟨hroom, rfl⟩, hobject, happends⟩ := hsaver
        exact h.step_written hsaved hat hpc (by rw [hstate]; rfl) hroom happends hobject hturn
    | increment =>
        rw [hstate] at hsaver
        obtain ⟨o₁, ⟨hroom, rfl⟩, hobject, happends⟩ := hsaver
        exact h.step_written hsaved hat hpc (by rw [hstate]; rfl) hroom happends hobject hturn
    | done => exact absurd (by rw [hstate]; rfl) hended

/-! ### Runs -/

/-- Every calm step leads to where the next one is expected. -/
theorem Phase.step (h : c.Phase parse o₀ s) (hsaved : c.file ∈ c.removal.files c.numConnectors)
    {caller : Caller} (hcalm : c.Calm parse caller s) (hturn : c.turn parse caller s = some s') :
    c.Phase parse o₀ s' := by
  cases caller with
  | remover =>
      have hcalm := hcalm.1 rfl
      cases h with
      | apart h =>
          by_cases hat : c.AtSaved s.toSystem
          · exact h.step_at hsaved hcalm hat hturn
          · obtain ⟨t, hstep, -⟩ := Option.map_eq_some_iff.mp hturn
            obtain ⟨g, rest, htodo⟩ := exists_todo hstep
            have hg : g ≠ c.file := fun hg => hat (by rw [AtSaved, htodo, hg]; rfl)
            obtain ⟨before', o', hnext⟩ := h.step_elsewhere hsaved hcalm htodo hg hturn
            exact .apart hnext
      | unwritten h hinside => exact h.step_remover hsaved hcalm hturn
      | late h => exact h.step_remover hcalm hturn
      | following h =>
          obtain ⟨before', o', hnext⟩ := h.step_remover hsaved hcalm hturn
          exact .following hnext
  | saver =>
      have hcalm := hcalm.2 rfl
      cases h with
      | apart h => exact .apart (h.step_saver hsaved hcalm hturn)
      | unwritten h hinside => exact h.step_saver hsaved hinside hcalm hturn
      | late h => exact .late (h.step_saver hsaved hcalm hturn)
      | following h => exact .following (h.step_saver hsaved hturn)

variable (parse) (c)

/-- The one call after the other. -/
def removeThenSave (st : Store) : Option Store :=
  (c.removal.run parse c.removerEnv st).bind (savePayloadToSpiffs c.saverEnv c.file c.payload)

def saveThenRemove (st : Store) : Option Store :=
  (savePayloadToSpiffs c.saverEnv c.file c.payload st).bind fun st =>
    c.removal.run parse c.removerEnv st

/-- The files and the counters are as after the two calls in some order. -/
def Serial (st : Store) (s : System) : Prop :=
  ∃ st', (c.removeThenSave parse st = some st' ∨ c.saveThenRemove parse st = some st')
    ∧ ∀ g, s.object g = st'.object g

def watched (fs : FileSystem Path) (entries : QueueFile → UInt8) : Watched :=
  ⟨c.start fs entries, false, false⟩

variable {parse} {c} {fs : FileSystem Path} {entries : QueueFile → UInt8}

theorem phase_start : c.Phase parse (c.store fs entries).object (c.watched fs entries) := by
  suffices hstart : c.Apart parse (c.store fs entries).object [] (c.store fs entries).object
      (c.watched fs entries) from .apart hstart
  refine ⟨⟨⟨rfl, rfl, .start⟩, fun g _ => ?_, fun g _ => ?_⟩, ⟨rfl, rfl⟩, fun hinside => ?_,
    (fun h => by cases h), fun _ => rfl⟩
  · exact congrFun (Function.update_eq_self c.file (c.store fs entries).object) g
  · exact congrFun (Function.update_eq_self c.file (c.store fs entries).object) g
  · cases hinside.2

theorem Phase.serial {st : Store} (h : c.Phase parse st.object s)
    (hsaved : c.file ∈ c.removal.files c.numConnectors)
    (hconnectors : st.numConnectors = c.numConnectors) (hended : s.Ended) :
    c.Serial parse st s.toSystem := by
  obtain ⟨htodo, hdone⟩ := hended
  have hnot : ¬c.AtSaved s.toSystem := by
    rw [AtSaved, htodo]
    exact (Option.some_ne_none _).symm
  have hlisted := listed_of_mem hsaved
  cases h with
  | unwritten h hinside => exact absurd h.saved hnot
  | late h => exact absurd h.saved hnot
  | @apart before o h =>
      have hfiles := h.remover.files
      rw [htodo, List.append_nil] at hfiles
      subst hfiles
      obtain ⟨st₁, hrun, hconnectors₁, hst₁⟩ :=
        h.remover.visited.exists_run hconnectors fun _ => rfl
      have hsaver := h.saver
      rw [SaverAt, hdone, ← hst₁ c.file] at hsaver
      obtain ⟨st₂, hsave, hobject, -, hothers⟩ :=
        savePayload_of_saved hlisted (hconnectors₁.trans hconnectors) hsaver
      refine ⟨st₂, .inl ?_, fun g => ?_⟩
      · rw [removeThenSave, hrun, Option.bind_some, hsave]
      · by_cases hg : g = c.file
        · rw [hg, hobject]
        · rw [hothers g hg, hst₁ g, ← h.remover.others g (by rw [htodo]; exact (Option.some_ne_none _).symm),
            viewed_of_ne hg]
  | @following before o h =>
      obtain ⟨x, hx, hremover⟩ := h.saved
      have hfiles := hremover.files
      rw [htodo, List.append_nil] at hfiles
      subst hfiles
      obtain ⟨st₁, hsave, hobject, hconnectors₁, hothers⟩ := savePayload_of_saved hlisted hconnectors hx
      have hst₁ : ∀ g, st₁.object g = Function.update st.object c.file x g := by
        intro g
        by_cases hg : g = c.file
        · rw [hg, hobject, Function.update_self]
        · rw [hothers g hg, Function.update_of_ne hg]
      obtain ⟨st₂, hrun, -, hst₂⟩ :=
        hremover.visited.exists_run (hconnectors₁.trans hconnectors) hst₁
      refine ⟨st₂, .inr ?_, fun g => ?_⟩
      · rw [saveThenRemove, hsave, Option.bind_some, hrun]
      · have hall := hremover.others g (by rw [htodo]; exact (Option.some_ne_none _).symm)
        rw [hst₂ g, ← hall]
        by_cases hg : g = c.file
        · rw [hg, viewed_self, seen, hdone]
          exact object_eq _ _
        · rw [viewed_of_ne hg]

theorem done_of_ended {pc : SaverPc} (h : pc.ended = true) : pc = .done := by
  cases pc with
  | done => rfl
  | _ => cases h

theorem check_of_idle {pc : SaverPc} (h : pc.idle = true) : pc = .check := by
  cases pc with
  | check => rfl
  | _ => cases h

theorem not_replacing_of_ending (h : s.remover.pc.ending = none) : ¬c.Replacing parse s.toSystem := by
  rintro ⟨-, p, hp, -⟩
  rw [h] at hp
  cases hp

/-- The call that takes lines out may take any step while the other one has not begun or has ended. -/
theorem calmRemover_of_alone (h : s.saver = .done ∨ s.saver = .check ∧ s.full = false) :
    c.CalmRemover parse s := by
  rcases h with hdone | ⟨hcheck, hfull⟩
  · refine ⟨fun h => ?_, fun _ h => ?_, fun h => ?_, fun _ _ _ => .inr (.inl ?_)⟩
    · rw [hdone] at h
      cases h
    · rw [hdone] at h
      cases h
    · rw [hdone] at h
      cases h
    · rw [hdone]
      rfl
  · refine ⟨fun h => ?_, fun h => ?_, fun h => ?_, fun _ _ _ => .inl ?_⟩
    · rw [hcheck] at h
      cases h
    · rw [hfull] at h
      cases h
    · rw [hcheck] at h
      cases h
    · rw [hcheck]
      rfl

theorem meets_remover {n : Nat} (h : s.saver = .done ∨ s.saver = .check ∧ s.full = false) :
    Runs.Meets (c.turn parse) (c.Calm parse) (List.replicate n .remover) s := by
  refine .of_invariant (fun s => s.saver = .done ∨ s.saver = .check ∧ s.full = false)
    (fun i => i = .remover) ?_ ?_ (fun i hi => List.eq_of_mem_replicate hi) h
  · rintro _ s rfl h
    exact ⟨fun _ => calmRemover_of_alone h, Caller.noConfusion⟩
  · rintro _ s s' rfl h hturn
    rw [turn_remover] at hturn
    obtain ⟨t, hstep, rfl⟩ := Option.map_eq_some_iff.mp hturn
    have hsaver : t.saver = s.saver := removerStep_saver hstep
    rw [← hsaver] at h
    exact h

/-- What is known while a line is saved to a file of whole lines that is being read. -/
structure Reads (c : TwoCalls) (x : Option CStr × UInt8) (s : Watched) : Prop where
  reading : s.remover.pc.reading = true
  late : s.late = false
  saver : s.saver.written = true ∨ s.saver.ended = true ∨ c.Waits x s.fs s.saver ∧ s.object c.file = x

theorem ending_eq_none_of_reading {pc : RemoverPc} (h : pc.reading = true) : pc.ending = none := by
  cases pc with
  | rewrite pc => exact ending_of_reading h
  | _ => rfl

theorem Reads.calm {x : Option CStr × UInt8} {text : CStr} (h : c.Reads x s) (hroom : ¬c.Full x.2)
    (htext : x.1 = some text) (hwhole : Terminated text) : c.CalmSaver parse s := by
  have hnot : ¬c.Replacing parse s.toSystem :=
    not_replacing_of_ending (ending_eq_none_of_reading h.reading)
  have hbefore : s.saver.written = false → s.saver.ended = false → s.object c.file = x :=
    fun hwritten hended => by
      rcases h.saver with hyes | hyes | hwaits
      · rw [hyes] at hwritten
        cases hwritten
      · rw [hyes] at hended
        cases hended
      · exact hwaits.2
  refine ⟨fun hidle hfull => ?_, fun hopening => ⟨hnot, fun _ => ?_⟩, fun hopened => ⟨hnot, fun _ _ => ?_⟩,
    fun _ hlate => ?_⟩
  · rw [check_of_idle hidle] at hbefore
    exact absurd (congrArg Prod.snd (hbefore rfl rfl) ▸ hfull) hroom
  · cases hpc : s.saver <;> rw [hpc] at hopening hbefore <;> cases hopening
    rw [show s.fs.contents (.queue c.file) = x.1 from congrArg Prod.fst (hbefore rfl rfl), htext]
    exact Option.some_ne_none text
  · cases hpc : s.saver <;> rw [hpc] at hopened hbefore <;> cases hopened
    rw [show s.fs.contents (.queue c.file) = x.1 from congrArg Prod.fst (hbefore rfl rfl), htext]
    intro text' htext'
    exact Option.some.inj htext' ▸ hwhole
  · rw [h.late] at hlate
    cases hlate

theorem Reads.step {x : Option CStr × UInt8} {text : CStr} (h : c.Reads x s) (hroom : ¬c.Full x.2)
    (htext : x.1 = some text) (hturn : c.turn parse .saver s = some s') : c.Reads x s' := by
  rw [turn_saver] at hturn
  obtain ⟨t, hstep, rfl⟩ := Option.map_eq_some_iff.mp hturn
  have hlate : (s.late || (s.saver.opened && decide (c.PastEnd s.toSystem))) = false := by
    have hnot : ¬c.PastEnd s.toSystem := fun hpast => by
      have hend := hpast.2
      have hreading := h.reading
      cases hpc : s.remover.pc <;> rw [hpc] at hend hreading
      · cases hreading
      · rw [RemoverPc.pastEnd, ending_of_reading hreading] at hend
        cases hend
      · cases hreading
    rw [h.late, decide_eq_false hnot, Bool.and_false]
    rfl
  have hsaver := h.saver
  rw [saverStep] at hstep
  cases hpc : s.saver with
  | check =>
      rw [hpc] at hstep hsaver hlate
      obtain ⟨-, hobject⟩ := (hsaver.resolve_left Bool.false_ne_true).resolve_left Bool.false_ne_true
      have hcount : s.entries c.file = x.2 := congrArg Prod.snd hobject
      rw [hcount] at hstep
      dsimp only at hstep
      rw [if_neg hroom, afterRoom] at hstep
      obtain rfl := Option.some.inj hstep
      refine ⟨h.reading, hlate, ?_⟩
      by_cases htime : c.saverEnv.time.isSome = true
      · exact .inr (.inr ⟨by simpa only [if_pos htime] using ⟨hroom, htime⟩, hobject⟩)
      · exact .inr (.inl (by simp only [if_neg htime]; rfl))
  | openAppend =>
      rw [hpc] at hstep hsaver hlate
      obtain ⟨⟨-, htime⟩, hobject⟩ :=
        (hsaver.resolve_left Bool.false_ne_true).resolve_left Bool.false_ne_true
      have hfile : s.fs.contents (.queue c.file) = some text :=
        (congrArg Prod.fst hobject).trans htext
      dsimp only at hstep
      by_cases hopens : c.saverEnv.opensForAppending = true
      · rw [if_pos hopens] at hstep
        obtain rfl := Option.some.inj hstep
        refine ⟨h.reading, hlate, .inr (.inr ⟨⟨hroom, ⟨htime, hopens⟩, (s.fs.openAppend_spec _).1⟩, ?_⟩)⟩
        rw [← hobject]
        exact Prod.ext (FileSystem.same_openAppend_of_some hfile _).contents rfl
      · rw [if_neg hopens] at hstep
        obtain rfl := Option.some.inj hstep
        exact ⟨h.reading, hlate, .inr (.inl rfl)⟩
  | write id =>
      rw [hpc] at hstep hlate
      obtain rfl := Option.some.inj hstep
      exact ⟨h.reading, hlate, .inl rfl⟩
  | close =>
      rw [hpc] at hstep hlate
      obtain rfl := Option.some.inj hstep
      exact ⟨h.reading, hlate, .inl rfl⟩
  | increment =>
      rw [hpc] at hstep hlate
      obtain rfl := Option.some.inj hstep
      exact ⟨h.reading, hlate, .inr (.inl rfl)⟩
  | done =>
      rw [hpc] at hstep
      cases hstep
  | _ =>
      rw [hpc] at hsaver
      exact ((hsaver.resolve_left Bool.false_ne_true).resolve_left Bool.false_ne_true).1.elim

/-- A line may be saved at once to a file of whole lines that is still being read. -/
theorem meets_saver {n : Nat} {text : CStr} (hreading : s.remover.pc.reading = true)
    (hlate : s.late = false) (hsaver : s.saver = .check) (hroom : ¬c.Full (s.entries c.file))
    (htext : s.fs.contents (.queue c.file) = some text) (hwhole : Terminated text) :
    Runs.Meets (c.turn parse) (c.Calm parse) (List.replicate n .saver) s := by
  refine .of_invariant (c.Reads (s.object c.file)) (fun i => i = .saver) ?_ ?_
    (fun i hi => List.eq_of_mem_replicate hi) ⟨hreading, hlate, .inr (.inr ⟨?_, rfl⟩)⟩
  · rintro _ s' rfl h
    exact ⟨Caller.noConfusion, fun _ => h.calm hroom htext hwhole⟩
  · rintro _ s₁ s₂ rfl h hturn
    exact h.step hroom htext hturn
  · rw [hsaver]
    trivial

def laterRequest : CStr := "[2,\"c3\",\"ConfigurationData\"]".toList

/-- The answer to the one request arrives while another request is saved. -/
def answered : TwoCalls where
  numConnectors := 2
  removal := .response "a1".toList
  removerEnv := healthy
  file := .request
  payload := laterRequest
  saverEnv := healthy

/-- One entry in the request log. -/
def oneEntry (f : QueueFile) : UInt8 := if f = .request then 1 else 0

/-- The line is written while the log is read, and copied with it. -/
def writtenBetween : List Caller :=
  List.replicate 3 .remover ++ List.replicate 5 .saver ++ List.replicate 9 .remover

/-- The line is written after the end of the log has been read, and before the copy takes its place. -/
def writtenLate : List Caller :=
  List.replicate 5 .remover ++ List.replicate 5 .saver ++ List.replicate 5 .remover

/-- Without the condition a line can be lost. -/
theorem line_is_lost : ∃ s, Runs.run (answered.turn parseSamples) writtenLate
      (answered.watched Rewriter.oneRequest oneEntry) = some s
    ∧ s.Ended ∧ ¬answered.Serial parseSamples (answered.store Rewriter.oneRequest oneEntry) s.toSystem := by
  have hlost : (Runs.run (answered.turn parseSamples) writtenLate
      (answered.watched Rewriter.oneRequest oneEntry)).map
        (fun s => (s.remover.todo, s.saver.ended, s.object .request)) = some ([], true, some [], 0) := by
    decide +kernel
  have hfirst : (answered.removeThenSave parseSamples (answered.store Rewriter.oneRequest oneEntry)).map
      (fun st => st.object .request) = some (some answered.line, 1) := by
    decide +kernel
  have hlast : (answered.saveThenRemove parseSamples (answered.store Rewriter.oneRequest oneEntry)).map
      (fun st => st.object .request) = some (some answered.line, 1) := by
    decide +kernel
  obtain ⟨s, hrun, hend⟩ := Option.map_eq_some_iff.mp hlost
  obtain ⟨htodo, hrest⟩ := Prod.mk.inj hend
  obtain ⟨hdone, hobject⟩ := Prod.mk.inj hrest
  refine ⟨s, hrun, ⟨htodo, done_of_ended hdone⟩, ?_⟩
  rintro ⟨st', hserial, hsame⟩
  have hkept : st'.object .request = (some answered.line, 1) := by
    rcases hserial with hst' | hst'
    · rw [hst'] at hfirst
      exact Option.some.inj hfirst
    · rw [hst'] at hlast
      exact Option.some.inj hlast
  rw [hsame, hkept] at hobject
  exact absurd (congrArg Prod.snd hobject) (by decide)

end TwoCalls

end Pmu
