import PmuFirmware.Lib.Run
import PmuFirmware.Queue.Removing

/-!
# Two calls in turn

The calls do not always come out as one after the other. `Calm` says which steps must not be taken when:
the two must not use one temporary file at once, nothing may be appended to a file between the end of a
rewriting pass and the replacement, and a line must not be counted by both or by neither. In a run of calm
steps the two calls take effect in the order in which the line was written and the end of the file was
read.
-/

namespace Pmu

open CLib

/-- About to open the file. -/
def SaverPc.opening : SaverPc → Bool
  | .openAppend => true
  | _ => false

/-- About to count the line. -/
def SaverPc.counting : SaverPc → Bool
  | .increment => true
  | _ => false

/-- What the next read goes on with. -/
def RemoverPc.copying : RemoverPc → Option (Handle × Pass)
  | .rewrite (.copy src _ _ p) => some (src, p)
  | _ => none

/-- What the counter is about to be assigned from. -/
def RemoverPc.counted : RemoverPc → Option Pass
  | .assign p => some p
  | _ => none

/-- The two calls, whether room had to be made, and whether the line was written to a file whose end had
been read. -/
structure Watched extends System where
  full : Bool
  late : Bool

namespace TwoCalls

variable (parse : CStr → Option Json) (c : TwoCalls)

/-- The other call has come to the file. -/
def AtSaved (s : System) : Prop := s.remover.todo.head? = some c.file

instance (s : System) : Decidable (c.AtSaved s) := inferInstanceAs (Decidable (_ = _))

/-- It has entered the file. -/
def Inside (s : System) : Prop := c.AtSaved s ∧ s.remover.pc.outside = false

instance (s : System) : Decidable (c.Inside s) := inferInstanceAs (Decidable (_ ∧ _))

/-- It has read the end of the file. -/
def PastEnd (s : System) : Prop := c.AtSaved s ∧ s.remover.pc.pastEnd = true

instance (s : System) : Decidable (c.PastEnd s) := inferInstanceAs (Decidable (_ ∧ _))

/-- It is about to replace the file. -/
def Replacing (s : System) : Prop :=
  c.AtSaved s ∧ ∃ p ∈ s.remover.pc.ending, (c.removal.job parse c.file).Replaces p

instance (s : System) : Decidable (c.Replacing parse s) := inferInstanceAs (Decidable (_ ∧ _))

/-- It is about to count the lines of the file. -/
def Counts (s : System) : Prop :=
  c.AtSaved s ∧ c.removal.counter s.remover.index c.file = some c.file

instance (s : System) : Decidable (c.Counts s) := inferInstanceAs (Decidable (_ ∧ _))

/-- Its file is rewritten with the same temporary file. -/
def SharesTemp (s : System) : Prop := ∃ g ∈ s.remover.todo.head?, g.temp = c.file.temp

instance (s : System) : Decidable (c.SharesTemp s) :=
  inferInstanceAs (Decidable (∃ g ∈ _, QueueFile.temp g = _))

/-- A step, watched. -/
def turn (caller : Caller) (s : Watched) : Option Watched :=
  (c.step parse caller s.toSystem).map fun s' =>
    { toSystem := s'
      full := s.full || (decide (caller = .saver) && c.findsFull s.toSystem)
      late := s.late
        || (decide (caller = .saver) && s.saver.opened && decide (c.PastEnd s.toSystem)) }

/-- When the call that takes lines out may take a step: not with the temporary file of the eviction;
not at the file once room is being made, until the line is saved; it may not find the end of a file that
is to be replaced while the other call has it open; and it may count the lines unless the new number
would have stopped the other call or the line has been written but will be counted again. -/
@[mk_iff] structure CalmRemover (s : Watched) : Prop where
  temp : s.saver.evicting = true → c.SharesTemp s.toSystem → s.remover.pc.stepsTemp = false
  full : s.full = true → s.saver.ended = false → ¬c.AtSaved s.toSystem
  endOfFile : s.saver.opened = true → c.AtSaved s.toSystem → ∀ r ∈ s.remover.pc.copying,
    s.fs.gets (c.removal.job parse c.file).size r.1 = none → ¬(c.removal.job parse c.file).Replaces r.2
  count : c.Counts s.toSystem → ∀ p ∈ s.remover.pc.counted, s.saver.idle = true
    ∨ s.saver.ended = true ∨ ¬c.Full (UInt8.ofNat (c.removal.count s.remover.progress p))
      ∧ (s.saver.written = true → s.late = true)

instance (s : Watched) : Decidable (c.CalmRemover parse s) :=
  decidable_of_iff (_ ∧ _ ∧ _ ∧ _) (c.calmRemover_iff parse s).symm

/-- When `save_payload_to_spiffs` may take a step: it may not find the file full while the other call is
within it or uses the temporary file; it may not open the file or write to it when the file is about to
be replaced, nor create it while the other call is within it; what is read on meanwhile has to consist of
whole lines; and it may not count a line that came too late before the lines have been counted. -/
@[mk_iff] structure CalmSaver (s : Watched) : Prop where
  check : s.saver.idle = true → c.Full (s.entries c.file) →
    ¬c.Inside s.toSystem ∧ (c.SharesTemp s.toSystem → s.remover.pc.usesTemp = false)
  opens : s.saver.opening = true → ¬c.Replacing parse s.toSystem
    ∧ (c.Inside s.toSystem → s.fs.contents (.queue c.file) ≠ none)
  write : s.saver.opened = true → ¬c.Replacing parse s.toSystem
    ∧ (c.AtSaved s.toSystem → s.remover.pc.reading = true →
      ∀ text ∈ s.fs.contents (.queue c.file), Terminated text)
  increment : s.saver.counting = true → s.late = true → c.PastEnd s.toSystem → ¬c.Counts s.toSystem

instance (s : Watched) : Decidable (c.CalmSaver parse s) :=
  decidable_of_iff (_ ∧ _ ∧ _ ∧ _) (c.calmSaver_iff parse s).symm

def Calm (caller : Caller) (s : Watched) : Prop :=
  (caller = .remover → c.CalmRemover parse s) ∧ (caller = .saver → c.CalmSaver parse s)

instance (caller : Caller) (s : Watched) : Decidable (c.Calm parse caller s) :=
  inferInstanceAs (Decidable (_ ∧ _))

/-! ### The order -/

/-- The counter is one behind while the line is not counted. -/
def lag (pc : SaverPc) : UInt8 := if pc.written then 1 else 0

/-- The file and its counter as they are once the line is counted. -/
def seen (s : System) : Option CStr × UInt8 :=
  (s.fs.contents (.queue c.file), s.entries c.file + lag s.saver)

/-- The files as they are, but for the one that is saved to. -/
def viewed (x : Option CStr × UInt8) (s : System) : Objects := Function.update s.object c.file x

/-- The other call is not at the file. If it has been there, it has taken effect before this one. -/
structure Apart (o₀ : Objects) (before : List QueueFile) (o : Objects) (s : Watched) : Prop where
  remover : c.RemoverAt parse o₀ before o (c.viewed (o c.file) s.toSystem) s.toSystem
  saver : c.SaverAt (o c.file) s.full s.toSystem
  outside : ¬c.Inside s.toSystem
  temp : s.saver.evicting = true → c.SharesTemp s.toSystem → s.remover.pc.usesTemp = false
  late : c.file ∈ s.remover.todo → s.late = false

/-- The line was written before the other call has read the end of the file. -/
structure Following (o₀ : Objects) (before : List QueueFile) (o : Objects) (s : Watched) : Prop where
  saved : ∃ x, c.Saved (o₀ c.file) x ∧ c.RemoverAt parse (Function.update o₀ c.file x) before o
    (c.viewed (c.seen s.toSystem) s.toSystem) s.toSystem
  saver : s.saver.ended = true ∨ s.saver.written = true ∧ s.late = false
    ∧ (c.file ∈ s.remover.todo → c.Inside s.toSystem)

/-- What is known while the file is gone through and the line has not been counted. -/
structure Visiting (o₀ : Objects) (before : List QueueFile) (o : Objects) (s : System) : Prop
    extends c.Through parse o₀ before o s where
  others : ∀ g, g ≠ c.file → s.object g = o g
  saved : c.AtSaved s

/-- What the call that saves has found out before it writes the line. -/
def Waits (x : Option CStr × UInt8) (fs : FileSystem Path) : SaverPc → Prop
  | .check => True
  | .openAppend => ¬c.Full x.2 ∧ c.saverEnv.time.isSome = true
  | .write id => ¬c.Full x.2 ∧ c.Appends ∧ fs.dir (.queue c.file) = some id
  | _ => False

/-- The line has not been written. -/
structure Unwritten (o₀ : Objects) (before : List QueueFile) (o : Objects) (s : Watched) : Prop
    extends c.Visiting parse o₀ before o s.toSystem where
  full : s.full = false
  late : s.late = false
  waits : c.Waits (o c.file) s.fs s.saver
  here : c.AtFile parse c.file s.remover.progress (c.textAt (o c.file).1 s.saver, (o c.file).2)
    (s.fs.contents (.queue c.file)) (s.entries c.file) s.fs s.remover.pc
  there : s.saver.opened = true → s.remover.pc.pastEnd = true → (o c.file).1 ≠ none
  stays : s.saver.opened = true → ∀ p, s.remover.pc.ending = some p →
    ¬(c.removal.job parse c.file).Replaces p

/-- The file is closed without being replaced, or it has been replaced. -/
inductive Closing (p : Pass) : RemoverPc → Prop
  | closeSrc (h : ¬(c.removal.job parse c.file).Replaces p) : Closing p (.rewrite (.closeSrc p))
  | closeTemp (h : ¬(c.removal.job parse c.file).Replaces p) : Closing p (.rewrite (.closeTemp p))
  | dropTemp (h : ¬(c.removal.job parse c.file).Replaces p) : Closing p (.rewrite (.dropTemp p))
  | assign : Closing p (.assign p)

/-- The line was written after the end of the file had been read. -/
structure Late (o₀ : Objects) (before : List QueueFile) (o : Objects) (s : Watched) : Prop
    extends c.Visiting parse o₀ before o s.toSystem where
  full : s.full = false
  late : s.late = true
  closing : ∃ text p, (o c.file).1 = some text
    ∧ c.removal.Enters c.removerEnv s.remover.progress c.file (o c.file).2 (o c.file).1
    ∧ (c.removal.job parse c.file).Opens c.removerEnv ∧ (c.removal.job parse c.file).pass text = some p
    ∧ s.fs.contents (.queue c.file) = some ((c.removal.job parse c.file).rewritten p text ++ c.line)
    ∧ c.Closing parse p s.remover.pc
  appends : c.Appends ∧ ¬c.Full (o c.file).2
  count : s.entries c.file = c.countAt (o c.file).2 s.saver
  saver : s.saver.written = true ∨ s.saver.ended = true ∧ ¬c.Counts s.toSystem

/-- Where the two calls are. -/
inductive Phase (o₀ : Objects) (s : Watched) : Prop
  | apart {before : List QueueFile} {o : Objects} (h : c.Apart parse o₀ before o s)
  | unwritten {before : List QueueFile} {o : Objects} (h : c.Unwritten parse o₀ before o s)
    (hinside : c.Inside s.toSystem)
  | late {before : List QueueFile} {o : Objects} (h : c.Late parse o₀ before o s)
  | following {before : List QueueFile} {o : Objects} (h : c.Following parse o₀ before o s)

variable {parse} {c} {o₀ o : Objects} {before : List QueueFile} {s s' : Watched}

/-! ### What a step changes -/

theorem turn_remover : c.turn parse .remover s
    = (c.removerStep parse s.toSystem).map fun s' => ⟨s', s.full, s.late⟩ := by
  rw [turn, step]
  simp

theorem turn_saver : c.turn parse .saver s
    = (c.saverStep s.toSystem).map fun s' => ⟨s', s.full || c.findsFull s.toSystem,
      s.late || (s.saver.opened && decide (c.PastEnd s.toSystem))⟩ := by
  rw [turn, step]
  simp

theorem listed_of_mem (hsaved : c.file ∈ c.removal.files c.numConnectors) : c.Listed :=
  Removal.hasCounter_of_mem ⟨c.numConnectors, fun _ => none, fun _ => 0⟩ hsaved

theorem inside_of_pastEnd {s : System} (h : c.PastEnd s) : c.Inside s := by
  refine ⟨h.1, ?_⟩
  have hpast := h.2
  cases hpc : s.remover.pc with
  | enter =>
      rw [hpc] at hpast
      cases hpast
  | rewrite pc => rfl
  | assign p => rfl

/-- Room is made after the file has been found full. -/
theorem saverStep_evicting {s s' : System} (hstep : c.saverStep s = some s')
    (hevicting : s'.saver.evicting = true) :
    s.saver.evicting = true ∨ s.saver.idle = true ∧ c.Full (s.entries c.file) := by
  have hroom : c.afterRoom.evicting = false := by
    rw [afterRoom]
    split <;> rfl
  rw [saverStep] at hstep
  cases hsaver : s.saver with
  | check =>
      rw [hsaver] at hstep
      obtain rfl := Option.some.inj hstep
      by_cases hfull : c.Full (s.entries c.file)
      · exact .inr ⟨rfl, hfull⟩
      · simp only [if_neg hfull, hroom] at hevicting
        cases hevicting
  | evict pc => exact .inl rfl
  | assign p =>
      rw [hsaver] at hstep
      obtain rfl := Option.some.inj hstep
      rw [hroom] at hevicting
      cases hevicting
  | openAppend =>
      rw [hsaver] at hstep
      dsimp only at hstep
      split at hstep <;> obtain rfl := Option.some.inj hstep <;> cases hevicting
  | write id =>
      rw [hsaver] at hstep
      obtain rfl := Option.some.inj hstep
      cases hevicting
  | close =>
      rw [hsaver] at hstep
      obtain rfl := Option.some.inj hstep
      cases hevicting
  | increment =>
      rw [hsaver] at hstep
      obtain rfl := Option.some.inj hstep
      cases hevicting
  | done =>
      rw [hsaver] at hstep
      cases hstep

theorem viewed_self (c : TwoCalls) (x : Option CStr × UInt8) (s : System) :
    c.viewed x s c.file = x := Function.update_self _ _ _

theorem viewed_of_ne {g : QueueFile} (hg : g ≠ c.file) (x : Option CStr × UInt8) (s : System) :
    c.viewed x s g = s.object g := Function.update_of_ne hg _ _

/-! ### Apart from each other -/

theorem Apart.step_saver (hsaved : c.file ∈ c.removal.files c.numConnectors)
    (h : c.Apart parse o₀ before o s) (hcalm : c.CalmSaver parse s)
    (hturn : c.turn parse .saver s = some s') : c.Apart parse o₀ before o s' := by
  rw [turn_saver] at hturn
  obtain ⟨t, hstep, rfl⟩ := Option.map_eq_some_iff.mp hturn
  obtain ⟨hremover, hentries, hsame⟩ := h.saver.same_step hstep
  have hinside : c.Inside t ↔ c.Inside s.toSystem := by rw [Inside, Inside, AtSaved, AtSaved, hremover]
  have hother : ∀ g, g ≠ c.file → FileSystem.Same s.fs t.fs (.queue g) := fun g hg =>
    hsame _ (fun h => hg (Path.queue.inj h)) fun _ => QueueFile.queue_ne_temp _ _
  refine ⟨h.remover.congr hremover (fun g => ?_) fun g hg hwithin => ?_,
    h.saver.step (listed_of_mem hsaved) hstep, fun h' => h.outside (hinside.mp h'),
    fun hevicting hshares => ?_, fun hfile => ?_⟩
  · by_cases hg : g = c.file
    · rw [hg, viewed_self, viewed_self]
    · rw [viewed_of_ne hg, viewed_of_ne hg]
      exact Prod.ext (hother g hg).contents (hentries g hg)
  · have hne : g ≠ c.file := by
      rintro rfl
      exact h.outside ⟨hg, hwithin⟩
    refine ⟨hother g hne, fun huses => hsame _ (QueueFile.temp_ne_queue _ _) fun hevicting hshared => ?_⟩
    rw [h.temp hevicting ⟨g, hg, hshared⟩] at huses
    cases huses
  · have hshares : c.SharesTemp s.toSystem := by
      rw [SharesTemp, ← hremover]
      exact hshares
    show t.remover.pc.usesTemp = false
    rw [hremover]
    rcases saverStep_evicting hstep hevicting with hbefore | ⟨hidle, hfull⟩
    · exact h.temp hbefore hshares
    · exact (hcalm.check hidle hfull).2 hshares
  · have hfile : c.file ∈ s.remover.todo := by
      rw [← hremover]
      exact hfile
    have hnot : ¬c.PastEnd s.toSystem := fun hpast => h.outside (inside_of_pastEnd hpast)
    show (s.late || (s.saver.opened && decide (c.PastEnd s.toSystem))) = false
    rw [h.late hfile, decide_eq_false hnot, Bool.and_false]
    rfl

/-! ### The line was written first -/

theorem lag_of_ended {pc : SaverPc} (h : pc.ended = true) : lag pc = 0 := by
  cases pc with
  | done => rfl
  | _ => cases h

theorem not_idle_of_written {pc : SaverPc} (h : pc.written = true) :
    pc.idle = false ∧ pc.ended = false := by
  cases pc with
  | close => exact ⟨rfl, rfl⟩
  | increment => exact ⟨rfl, rfl⟩
  | _ => cases h

theorem lag_of_written {pc : SaverPc} (h : pc.written = true) : lag pc = 1 := by
  cases pc with
  | close => rfl
  | increment => rfl
  | _ => cases h

theorem object_eq (s : System) (g : QueueFile) :
    s.object g = (s.fs.contents (.queue g), s.entries g + 0) := by
  rw [UInt8.add_zero]
  rfl

theorem Following.step_saver (hsaved : c.file ∈ c.removal.files c.numConnectors)
    (h : c.Following parse o₀ before o s) (hturn : c.turn parse .saver s = some s') :
    c.Following parse o₀ before o s' := by
  rw [turn_saver] at hturn
  obtain ⟨t, hstep, rfl⟩ := Option.map_eq_some_iff.mp hturn
  obtain ⟨x, hx, hremover⟩ := h.saved
  rw [saverStep] at hstep
  cases hpc : s.saver with
  | close =>
      rw [hpc] at hstep
      obtain rfl := Option.some.inj hstep
      refine ⟨⟨x, hx, hremover.congr rfl (fun g => ?_) fun g _ _ => ⟨.refl _ _, fun _ => .refl _ _⟩⟩,
        .inr ?_⟩
      · rw [seen, seen, hpc]
        rfl
      · rcases h.saver with hended | ⟨-, hlate, hinside⟩
        · rw [hpc] at hended
          cases hended
        · refine ⟨rfl, ?_, hinside⟩
          show (s.late || (SaverPc.close.opened && _)) = false
          rw [hlate]
          rfl
  | increment =>
      rw [hpc] at hstep
      obtain rfl := Option.some.inj hstep
      refine ⟨⟨x, hx, hremover.congr rfl (fun g => ?_) fun g _ _ => ⟨.refl _ _, fun _ => .refl _ _⟩⟩,
        .inl rfl⟩
      by_cases hg : g = c.file
      · rw [hg, viewed_self, viewed_self, seen, seen, hpc]
        simp only [if_pos (listed_of_mem hsaved), Function.update_self]
        rw [lag_of_ended rfl, UInt8.add_zero]
        rfl
      · rw [viewed_of_ne hg, viewed_of_ne hg]
        simp only [if_pos (listed_of_mem hsaved)]
        exact Prod.ext rfl (Function.update_of_ne hg _ _)
  | done =>
      rw [hpc] at hstep
      cases hstep
  | _ =>
      rcases h.saver with hended | ⟨hwritten, -⟩
      · rw [hpc] at hended
        cases hended
      · rw [hpc] at hwritten
        cases hwritten

theorem Following.step_remover (hsaved : c.file ∈ c.removal.files c.numConnectors)
    (h : c.Following parse o₀ before o s) (hcalm : c.CalmRemover parse s)
    (hturn : c.turn parse .remover s = some s') :
    ∃ before' o', c.Following parse o₀ before' o' s' := by
  rw [turn_remover] at hturn
  obtain ⟨t, hstep, rfl⟩ := Option.map_eq_some_iff.mp hturn
  obtain ⟨x, hx, hremover⟩ := h.saved
  obtain ⟨g, rest, htodo⟩ := exists_todo hstep
  have hsaver : t.saver = s.saver := removerStep_saver hstep
  have hviewed : ∀ f, f ≠ g → f ≠ c.file →
      c.viewed (c.seen s.toSystem) s.toSystem f = s.object f
        ∧ c.viewed (c.seen t) t f = t.object f :=
    fun f _ hf => ⟨viewed_of_ne hf _ _, viewed_of_ne hf _ _⟩
  by_cases hg : g = c.file
  · have hat : c.AtSaved s.toSystem := by rw [AtSaved, htodo, hg]; rfl
    have hlag : lag s.saver = 0 ∨ s.remover.pc.outside = false
        ∧ ∀ p, s.remover.pc = .assign p → c.removal.counter s.remover.index g ≠ some g := by
      rcases h.saver with hended | ⟨hwritten, hlate, hinside⟩
      · exact .inl (lag_of_ended hended)
      · refine .inr ⟨(hinside (by rw [htodo, hg]; exact List.mem_cons_self)).2, fun p hp hcounter => ?_⟩
        rw [hg] at hcounter
        -- the counter must not be assigned between the line and its count
        rcases hcalm.count ⟨hat, hcounter⟩ p (by rw [hp]; rfl) with hidle | hended | ⟨-, hcount⟩
        · rw [(not_idle_of_written hwritten).1] at hidle
          cases hidle
        · rw [(not_idle_of_written hwritten).2] at hended
          cases hended
        · rw [hlate] at hcount
          cases hcount hwritten
    subst hg
    obtain ⟨before', o', hnext, -⟩ := hremover.step (c.viewed (c.seen t) t) _ hsaved htodo hlag hstep
      (viewed_self c _ _) (by rw [viewed_self, seen, hsaver]) hviewed fun hne => absurd rfl hne
    refine ⟨before', o', ⟨x, hx, hnext⟩, ?_⟩
    rcases h.saver with hended | ⟨hwritten, hlate, hinside⟩
    · exact .inl (by rw [hsaver]; exact hended)
    · refine .inr ⟨by rw [hsaver]; exact hwritten, hlate, fun hmem => ?_⟩
      rcases removerStep_todo hstep with ⟨htodo', hwithin⟩ | ⟨htodo', -⟩
      · exact ⟨by rw [AtSaved, htodo', htodo]; rfl, hwithin⟩
      · rw [htodo', htodo] at hmem
        exact absurd hmem (hremover.toThrough.not_mem_rest htodo).2
  · have hne : c.file ≠ g := Ne.symm hg
    have hhere := hremover.here g (by rw [htodo]; rfl)
    obtain ⟨-, hobject⟩ := hhere.untouched hremover.toThrough htodo hsaved hne hstep
    have hseen : c.seen t = c.seen s.toSystem := by
      have hcontents : t.fs.contents (.queue c.file) = s.fs.contents (.queue c.file) :=
        congrArg Prod.fst hobject
      have hcount : t.entries c.file = s.entries c.file := congrArg Prod.snd hobject
      rw [seen, seen, hsaver, hcontents, hcount]
    obtain ⟨before', o', hnext, -⟩ := hremover.step (c.viewed (c.seen t) t) 0 hsaved htodo
      (.inl rfl) hstep ((viewed_of_ne hg _ _).trans (object_eq _ _))
      ((viewed_of_ne hg _ _).trans (object_eq _ _)) hviewed
      fun _ => by rw [viewed_self, viewed_self, hseen]
    refine ⟨before', o', ⟨x, hx, hnext⟩, ?_⟩
    rcases h.saver with hended | ⟨hwritten, hlate, hinside⟩
    · exact .inl (by rw [hsaver]; exact hended)
    · refine .inr ⟨by rw [hsaver]; exact hwritten, hlate, fun hmem => ?_⟩
      have hat := (hinside (mem_todo_of_step hstep hmem)).1
      rw [AtSaved, htodo] at hat
      exact absurd (Option.some.inj hat) hg

end TwoCalls

end Pmu
