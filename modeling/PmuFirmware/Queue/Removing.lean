import PmuFirmware.Queue.Visits

/-!
# Taking lines out beside other calls

What a call that takes lines out knows before each of its steps, as long as nobody else changes the file
that it is at: how the files and their counters follow from what they were. The file that the other call
saves to is looked at through `v`, which may say more of it than the memory does.
-/

namespace Pmu

open CLib

/-- The temporary file is in use. -/
def RemoverPc.usesTemp : RemoverPc → Bool
  | .rewrite pc => pc.usesTemp
  | _ => false

/-- The next call may open, write, rename or remove the temporary file. -/
def RemoverPc.stepsTemp : RemoverPc → Bool
  | .rewrite .openSrc => false
  | .rewrite _ => true
  | _ => false

/-- The next call removes the file or renames the copy. -/
def RemoverPc.stepsPath : RemoverPc → Bool
  | .rewrite pc => pc.stepsPath
  | _ => false

/-- The file at hand has not been entered yet. -/
def RemoverPc.outside : RemoverPc → Bool
  | .enter => true
  | _ => false

/-- The pass once the end of the file has been read. -/
def Pc.ending : Pc → Option Pass
  | .closeSrc p => some p
  | .closeTemp p => some p
  | .remove p => some p
  | .rename p => some p
  | .dropTemp p => some p
  | _ => none

def RemoverPc.ending : RemoverPc → Option Pass
  | .rewrite pc => pc.ending
  | _ => none

/-- The end of the file has been read, and its counter has not been assigned. -/
def RemoverPc.pastEnd : RemoverPc → Bool
  | .enter => false
  | .rewrite pc => pc.ending.isSome
  | .assign _ => true

def RemoverPc.reading : RemoverPc → Bool
  | .rewrite pc => pc.reading
  | _ => false

namespace TwoCalls

variable (parse : CStr → Option Json) (c : TwoCalls)

/-- What is known at a file that was `o`, with `file` and `count` as they are now. -/
def AtFile (g : QueueFile) (m : Progress) (o : Option CStr × UInt8) (file : Option CStr)
    (count : UInt8) (fs : FileSystem Path) : RemoverPc → Prop
  | .enter => (file, count) = o
  | .rewrite pc => pc.call.isSome = true ∧ c.removal.Enters c.removerEnv m g o.2 o.1
      ∧ (c.removal.job parse g).Doing c.removerEnv o.1 fs pc ∧ count = o.2
  | .assign p => c.removal.Enters c.removerEnv m g o.2 o.1
      ∧ (c.removal.job parse g).Opens c.removerEnv ∧ ∃ text, o.1 = some text
      ∧ (c.removal.job parse g).pass text = some p
      ∧ file = some ((c.removal.job parse g).rewritten p text) ∧ count = o.2

/-- The files `before` have been gone through. -/
structure Through (o₀ : Objects) (before : List QueueFile) (o : Objects) (s : System) : Prop where
  files : before ++ s.remover.todo = c.removal.files c.numConnectors
  index : s.remover.index = before.length
  visited : c.Visited parse o₀ before s.remover.progress o

/-- The other files are as they were, and of the one at hand it is known what is going on. -/
structure RemoverAt (o₀ : Objects) (before : List QueueFile) (o v : Objects) (s : System) : Prop
    extends c.Through parse o₀ before o s where
  others : ∀ g, s.remover.todo.head? ≠ some g → v g = o g
  here : ∀ g, s.remover.todo.head? = some g →
    c.AtFile parse g s.remover.progress (o g) (v g).1 (v g).2 s.fs s.remover.pc

variable {parse} {c} {g : QueueFile} {rest : List QueueFile} {s s' : System}
  {m : Progress} {x : Option CStr × UInt8} {file : Option CStr} {count lag : UInt8}
  {fs fs' : FileSystem Path} {pc : RemoverPc}

theorem afterCall_cases {r r' : Remover} {pc : Pc} (h : r.afterCall pc = some r') :
    pc = .done none ∧ r' = r.next r.progress
      ∨ (∃ p, pc = .done (some p) ∧ r' = { r with pc := .assign p })
      ∨ pc.call.isSome = true ∧ r' = { r with pc := .rewrite pc } := by
  cases pc with
  | done result =>
      cases result with
      | none => exact .inl ⟨rfl, (Option.some.inj h).symm⟩
      | some p => exact .inr (.inl ⟨p, rfl, (Option.some.inj h).symm⟩)
  | overrun => cases h
  | openSrc => exact .inr (.inr ⟨rfl, (Option.some.inj h).symm⟩)
  | openTemp => exact .inr (.inr ⟨rfl, (Option.some.inj h).symm⟩)
  | scan => exact .inr (.inr ⟨rfl, (Option.some.inj h).symm⟩)
  | copy => exact .inr (.inr ⟨rfl, (Option.some.inj h).symm⟩)
  | write => exact .inr (.inr ⟨rfl, (Option.some.inj h).symm⟩)
  | closeSrc => exact .inr (.inr ⟨rfl, (Option.some.inj h).symm⟩)
  | closeTemp => exact .inr (.inr ⟨rfl, (Option.some.inj h).symm⟩)
  | remove => exact .inr (.inr ⟨rfl, (Option.some.inj h).symm⟩)
  | rename => exact .inr (.inr ⟨rfl, (Option.some.inj h).symm⟩)
  | dropTemp => exact .inr (.inr ⟨rfl, (Option.some.inj h).symm⟩)

/-! ### One step -/

/-- The call stays at the file, goes on without it, or counts its lines and goes on. -/
theorem AtFile.step (hg : g ∈ c.removal.files c.numConnectors) (htodo : s.remover.todo = g :: rest)
    (h : c.AtFile parse g s.remover.progress x (s.fs.contents (.queue g)) (s.entries g + lag) s.fs
      s.remover.pc)
    (hlag : s.remover.pc.outside = true → lag = 0) (hstep : c.removerStep parse s = some s') :
    (∃ pc, pc.outside = false ∧ s'.remover = { s.remover with pc := pc } ∧ s'.entries = s.entries
        ∧ c.AtFile parse g s.remover.progress x (s'.fs.contents (.queue g)) (s'.entries g + lag)
          s'.fs pc)
      ∨ (c.Kept parse s.remover.progress g x ∧ s'.remover = s.remover.next s.remover.progress
        ∧ s'.entries = s.entries ∧ (s'.fs.contents (.queue g), s'.entries g + lag) = x)
      ∨ ∃ p, s.remover.pc = .assign p
        ∧ s' = { s with
          entries := assignCounter s.entries (c.removal.counter s.remover.index g)
            (c.removal.count s.remover.progress p)
          remover := s.remover.next (c.removal.remember s.remover.progress p) } := by
  have hfile : (c.removal.job parse g).file = g := Removal.job_file hg
  obtain ⟨fs, entries, ⟨index, todo, pc, m⟩, saver⟩ := s
  obtain rfl : todo = g :: rest := htodo
  cases pc with
  | enter =>
      obtain rfl := hlag rfl
      obtain ⟨hcontents, hcount⟩ := Prod.mk.inj (show (_, _) = (x.1, x.2) from h)
      rw [UInt8.add_zero] at hcount
      rw [removerStep] at hstep
      dsimp only at hstep hcontents hcount
      by_cases henters : c.removal.Enters c.removerEnv m g (entries g) (fs.contents (.queue g))
      · rw [if_pos henters] at hstep
        rw [hcontents, hcount] at henters
        obtain rfl := Option.some.inj hstep
        refine .inl ⟨.rewrite .openSrc, rfl, rfl, rfl, rfl, henters, ?_, ?_⟩
        · show fs.contents (.queue (c.removal.job parse g).file) = x.1
          rw [hfile, hcontents]
        · rw [UInt8.add_zero]
          exact hcount
      · rw [if_neg henters] at hstep
        rw [hcontents, hcount] at henters
        obtain rfl := Option.some.inj hstep
        exact .inr (.inl ⟨.inl henters, rfl, rfl, h⟩)
  | rewrite pc =>
      obtain ⟨-, henters, hdoing, hcount⟩ := h
      rw [removerStep] at hstep
      obtain ⟨r', hafter, rfl⟩ := Option.map_eq_some_iff.mp hstep
      have hnext := hdoing.step
      rw [hfile] at hnext
      dsimp only at hafter hcount ⊢
      generalize (c.removal.job parse g).step (c.removerEnv.allows g pc) fs pc = result
        at hafter hnext
      obtain ⟨fs', pc'⟩ := result
      rcases afterCall_cases hafter with ⟨rfl, rfl⟩ | ⟨p, rfl, rfl⟩ | ⟨hcall, rfl⟩
      · obtain ⟨hcontents, hfailed⟩ := hnext
        rw [Rewriter.path, hfile] at hcontents
        exact .inr (.inl ⟨.inr hfailed, rfl, rfl, Prod.ext hcontents hcount⟩)
      · obtain ⟨hopens, text, htext, hpass, hcontents⟩ := hnext
        rw [Rewriter.path, hfile] at hcontents
        exact .inl ⟨.assign p, rfl, rfl, rfl, henters, hopens, text, htext, hpass, hcontents, hcount⟩
      · exact .inl ⟨.rewrite pc', rfl, rfl, rfl, hcall, henters, hnext, hcount⟩
  | assign p =>
      rw [removerStep] at hstep
      exact .inr (.inr ⟨p, rfl, (Option.some.inj hstep).symm⟩)

/-- A step touches the file at hand, when it is replaced, and, once it is in use, the temporary file. -/
theorem AtFile.same_step (hg : g ∈ c.removal.files c.numConnectors)
    (htodo : s.remover.todo = g :: rest)
    (h : c.AtFile parse g s.remover.progress x file count s.fs s.remover.pc)
    (hstep : c.removerStep parse s = some s') {q : Path}
    (hpath : q = .queue g → s.remover.pc.stepsPath = false)
    (htemp : q = g.temp → s.remover.pc.stepsTemp = false) : FileSystem.Same s.fs s'.fs q := by
  have hfile : (c.removal.job parse g).file = g := Removal.job_file hg
  obtain ⟨fs, entries, ⟨index, todo, pc, m⟩, saver⟩ := s
  obtain rfl : todo = g :: rest := htodo
  cases pc with
  | enter =>
      rw [removerStep] at hstep
      dsimp only at hstep
      split at hstep
      · obtain rfl := Option.some.inj hstep
        exact .refl fs q
      · obtain rfl := Option.some.inj hstep
        exact .refl fs q
  | rewrite pc =>
      obtain ⟨-, -, hdoing, -⟩ := h
      rw [removerStep] at hstep
      obtain ⟨r', -, rfl⟩ := Option.map_eq_some_iff.mp hstep
      refine hdoing.same_step (by rw [Rewriter.path, hfile]; exact hpath) (fun hq => ?_) _
      rw [Rewriter.temp, hfile] at hq
      cases pc with
      | openSrc => rfl
      | _ => cases htemp hq
  | assign p =>
      rw [removerStep] at hstep
      obtain rfl := Option.some.inj hstep
      exact .refl fs q

theorem removerStep_saver (hstep : c.removerStep parse s = some s') : s'.saver = s.saver := by
  obtain ⟨fs, entries, ⟨index, todo, pc, m⟩, saver⟩ := s
  cases todo with
  | nil => cases hstep
  | cons g rest =>
      rw [removerStep] at hstep
      cases pc with
      | enter =>
          dsimp only at hstep
          split at hstep
          · rw [← Option.some.inj hstep]
          · rw [← Option.some.inj hstep]
      | rewrite pc =>
          obtain ⟨r', -, rfl⟩ := Option.map_eq_some_iff.mp hstep
          rfl
      | assign p => rw [← Option.some.inj hstep]

/-- The call enters a file or stays within it, or it goes on to the next one. -/
theorem removerStep_todo (hstep : c.removerStep parse s = some s') :
    s'.remover.todo = s.remover.todo ∧ s'.remover.pc.outside = false
      ∨ s'.remover.todo = s.remover.todo.tail ∧ s'.remover.pc.outside = true := by
  obtain ⟨fs, entries, ⟨index, todo, pc, m⟩, saver⟩ := s
  cases todo with
  | nil => cases hstep
  | cons g rest =>
      rw [removerStep] at hstep
      cases pc with
      | enter =>
          dsimp only at hstep
          split at hstep
          · rw [← Option.some.inj hstep]
            exact .inl ⟨rfl, rfl⟩
          · rw [← Option.some.inj hstep]
            exact .inr ⟨rfl, rfl⟩
      | rewrite pc =>
          obtain ⟨r', hafter, rfl⟩ := Option.map_eq_some_iff.mp hstep
          rcases afterCall_cases hafter with ⟨-, rfl⟩ | ⟨p, -, rfl⟩ | ⟨-, rfl⟩
          · exact .inr ⟨rfl, rfl⟩
          · exact .inl ⟨rfl, rfl⟩
          · exact .inl ⟨rfl, rfl⟩
      | assign p =>
          rw [← Option.some.inj hstep]
          exact .inr ⟨rfl, rfl⟩

theorem mem_todo_of_step (hstep : c.removerStep parse s = some s') {f : QueueFile}
    (hf : f ∈ s'.remover.todo) : f ∈ s.remover.todo := by
  rcases removerStep_todo hstep with ⟨htodo, -⟩ | ⟨htodo, -⟩
  · exact htodo ▸ hf
  · exact List.mem_of_mem_tail (htodo ▸ hf)

theorem exists_todo (hstep : c.removerStep parse s = some s') :
    ∃ g rest, s.remover.todo = g :: rest := by
  cases htodo : s.remover.todo with
  | nil =>
      rw [removerStep, htodo] at hstep
      cases hstep
  | cons g rest => exact ⟨g, rest, rfl⟩

/-- Only the counter of the file at hand can be assigned. -/
theorem removerStep_entries (htodo : s.remover.todo = g :: rest) {f : QueueFile}
    (hcounter : c.removal.counter s.remover.index g ≠ some f)
    (hstep : c.removerStep parse s = some s') : s'.entries f = s.entries f := by
  obtain ⟨fs, entries, ⟨index, todo, pc, m⟩, saver⟩ := s
  obtain rfl : todo = g :: rest := htodo
  rw [removerStep] at hstep
  cases pc with
  | enter =>
      dsimp only at hstep
      split at hstep
      · rw [← Option.some.inj hstep]
      · rw [← Option.some.inj hstep]
  | rewrite pc =>
      obtain ⟨r', -, rfl⟩ := Option.map_eq_some_iff.mp hstep
      rfl
  | assign p =>
      rw [← Option.some.inj hstep]
      exact assignCounter_of_ne hcounter _

/-- The end of the file has been read before the step, or it is read now. -/
theorem removerStep_pastEnd (htodo : s.remover.todo = g :: rest)
    (hcall : ∀ pc, s.remover.pc = .rewrite pc → pc.call.isSome = true)
    (hstep : c.removerStep parse s = some s') (hpast : s'.remover.pc.pastEnd = true) :
    (s.remover.pc.pastEnd = true
        ∧ ∀ p, s'.remover.pc.ending = some p → s.remover.pc.ending = some p)
      ∨ ∃ src temp o p, s.remover.pc = .rewrite (.copy src temp o p)
        ∧ s.fs.gets (c.removal.job parse g).size src = none
        ∧ s'.remover.pc = .rewrite (.closeSrc p) := by
  obtain ⟨fs, entries, ⟨index, todo, pc, m⟩, saver⟩ := s
  obtain rfl : todo = g :: rest := htodo
  rw [removerStep] at hstep
  cases pc with
  | enter =>
      dsimp only at hstep
      split at hstep <;> obtain rfl := Option.some.inj hstep <;> cases hpast
  | assign p =>
      obtain rfl := Option.some.inj hstep
      cases hpast
  | rewrite pc =>
      obtain ⟨r', hafter, rfl⟩ := Option.map_eq_some_iff.mp hstep
      dsimp only at hafter hpast ⊢
      cases pc with
      | openSrc =>
          rw [Rewriter.step] at hafter
          split at hafter <;> obtain rfl := Option.some.inj hafter <;> cases hpast
      | openTemp src =>
          rw [Rewriter.step, Removal.job_firstPass] at hafter
          split at hafter <;> obtain rfl := Option.some.inj hafter <;> cases hpast
      | scan src temp o =>
          rw [Rewriter.step] at hafter
          split at hafter
          · obtain rfl := Option.some.inj hafter
            cases hpast
          · split at hafter
            · cases hafter
            · obtain rfl := Option.some.inj hafter
              cases hpast
      | copy src temp o p =>
          rw [Rewriter.step] at hafter
          split at hafter
          · rename_i hend
            obtain rfl := Option.some.inj hafter
            exact .inr ⟨src, temp, o, p, rfl, hend, rfl⟩
          · split at hafter
            · cases hafter
            · obtain rfl := Option.some.inj hafter
              cases hpast
            · obtain rfl := Option.some.inj hafter
              cases hpast
      | write src temp o p line =>
          obtain rfl := Option.some.inj hafter
          cases hpast
      | closeSrc p =>
          obtain rfl := Option.some.inj hafter
          exact .inl ⟨rfl, fun _ h => h⟩
      | closeTemp p =>
          rw [Rewriter.step] at hafter
          refine .inl ⟨rfl, ?_⟩
          split at hafter <;> obtain rfl := Option.some.inj hafter <;> exact fun _ h => h
      | remove p =>
          obtain rfl := Option.some.inj hafter
          exact .inl ⟨rfl, fun _ h => h⟩
      | rename p =>
          obtain rfl := Option.some.inj hafter
          exact .inl ⟨rfl, fun _ h => by cases h⟩
      | dropTemp p =>
          obtain rfl := Option.some.inj hafter
          exact .inl ⟨rfl, fun _ h => by cases h⟩
      | done result => cases hcall _ rfl
      | overrun => cases hcall _ rfl

/-- A call that does not touch the temporary file does not open it either. -/
theorem removerStep_usesTemp (htemp : s.remover.pc.stepsTemp = false)
    (hstep : c.removerStep parse s = some s') : s'.remover.pc.usesTemp = false := by
  obtain ⟨fs, entries, ⟨index, todo, pc, m⟩, saver⟩ := s
  cases todo with
  | nil => cases hstep
  | cons g rest =>
      rw [removerStep] at hstep
      cases pc with
      | enter =>
          dsimp only at hstep
          split at hstep
          · rw [← Option.some.inj hstep]
            rfl
          · rw [← Option.some.inj hstep]
            rfl
      | rewrite pc =>
          obtain ⟨r', hafter, rfl⟩ := Option.map_eq_some_iff.mp hstep
          cases pc with
          | openSrc =>
              rw [Rewriter.step] at hafter
              split at hafter
              · rw [← Option.some.inj hafter]
                rfl
              · rw [← Option.some.inj hafter]
                rfl
          | _ => cases htemp
      | assign p =>
          rw [← Option.some.inj hstep]
          rfl

theorem AtFile.count_eq (h : c.AtFile parse g m x file count fs pc) : count = x.2 := by
  cases pc with
  | enter => exact congrArg Prod.snd h
  | rewrite pc => exact h.2.2.2
  | assign p =>
      obtain ⟨-, -, text, -, -, -, hcount⟩ := h
      exact hcount

/-- A file that is there has been there. -/
theorem AtFile.there (hg : g ∈ c.removal.files c.numConnectors)
    (h : c.AtFile parse g m x (fs.contents (.queue g)) count fs pc)
    (hfile : fs.contents (.queue g) ≠ none) : x.1 ≠ none := by
  have hpath : (c.removal.job parse g).path = .queue g := congrArg Path.queue (Removal.job_file hg)
  cases pc with
  | enter =>
      have hsame : fs.contents (.queue g) = x.1 := congrArg Prod.fst h
      exact hsame ▸ hfile
  | assign p =>
      obtain ⟨-, -, text, htext, -⟩ := h
      exact htext ▸ Option.some_ne_none text
  | rewrite pc =>
      obtain ⟨hcall, -, hdoing, -⟩ := h
      suffices hsome : (∃ text, x.1 = some text) ∨ fs.contents (.queue g) = x.1 by
        rcases hsome with ⟨text, htext⟩ | hsame
        · exact htext ▸ Option.some_ne_none text
        · exact hsame ▸ hfile
      cases pc with
      | openSrc =>
          rw [← hpath]
          exact .inr hdoing
      | openTemp src =>
          obtain ⟨-, text, htext, -⟩ := hdoing
          exact .inl ⟨text, htext⟩
      | scan src temp o =>
          obtain ⟨-, text, rest, scanLine, htext, -⟩ := hdoing
          exact .inl ⟨text, htext⟩
      | copy src temp o p =>
          obtain ⟨-, text, rest, htext, -⟩ := hdoing
          exact .inl ⟨text, htext⟩
      | write src temp o p line =>
          obtain ⟨-, text, rest, htext, -⟩ := hdoing
          exact .inl ⟨text, htext⟩
      | closeSrc p => exact .inl (hdoing.passed.imp fun _ h => h.1)
      | closeTemp p => exact .inl (hdoing.passed.imp fun _ h => h.1)
      | remove p => exact .inl (hdoing.2.passed.imp fun _ h => h.1)
      | rename p => exact .inl (hdoing.2.2.1.imp fun _ h => h.1)
      | dropTemp p => exact .inl (hdoing.2.passed.imp fun _ h => h.1)
      | done result => cases hcall
      | overrun => cases hcall

/-- Nothing changes at the file when neither it nor the temporary file does. -/
theorem AtFile.congr (hg : g ∈ c.removal.files c.numConnectors)
    (h : c.AtFile parse g m x file count fs pc) (hpath : FileSystem.Same fs fs' (.queue g))
    (htemp : pc.usesTemp = true → FileSystem.Same fs fs' g.temp) :
    c.AtFile parse g m x file count fs' pc := by
  have hfile : (c.removal.job parse g).file = g := Removal.job_file hg
  cases pc with
  | enter => exact h
  | rewrite pc =>
      obtain ⟨hcall, henters, hdoing, hcount⟩ := h
      refine ⟨hcall, henters, hdoing.congr ?_ fun huses => ?_, hcount⟩
      · rw [Rewriter.path, hfile]
        exact hpath
      · rw [Rewriter.temp, hfile]
        exact htemp huses
  | assign p => exact h

/-! ### The files -/

section Files

variable {o₀ o v v' : Objects} {before : List QueueFile}

theorem Through.mem (h : c.Through parse o₀ before o s) (htodo : s.remover.todo = g :: rest) :
    g ∈ c.removal.files c.numConnectors := by
  rw [← h.files, htodo]
  exact List.mem_append_right _ List.mem_cons_self

/-- The files that are still to come. -/
theorem Through.not_mem_rest (h : c.Through parse o₀ before o s) (htodo : s.remover.todo = g :: rest) :
    g ∉ before ∧ g ∉ rest := by
  have hnodup := Removal.files_nodup c.removal c.numConnectors
  rw [← h.files, htodo] at hnodup
  obtain ⟨-, hrest, hapart⟩ := List.nodup_append.mp hnodup
  exact ⟨fun hmem => hapart g hmem g List.mem_cons_self rfl, (List.nodup_cons.mp hrest).1⟩

/-- The counter that is assigned after a file is not the one of another file. -/
theorem Through.counter_ne (h : c.Through parse o₀ before o s) (htodo : s.remover.todo = g :: rest)
    {f : QueueFile} (hf : f ∈ c.removal.files c.numConnectors) (hne : f ≠ g) :
    c.removal.counter s.remover.index g ≠ some f := by
  refine Removal.counter_ne ?_ hf hne
  rw [← h.files, h.index, htodo, List.getElem?_append_right le_rfl, Nat.sub_self]
  rfl

/-- The next file is as it was left. -/
theorem Through.next (h : c.Through parse o₀ before o s) (htodo : s.remover.todo = g :: rest)
    {m' : Progress} {counter : Option QueueFile} {n : Nat}
    (hvisit : c.FileVisit parse s.remover.index g s.remover.progress (o g) m' file counter n)
    (hremover : s'.remover = s.remover.next m') (hall : ∀ f, v' f = o.left g file counter n f) :
    c.RemoverAt parse o₀ (before ++ [g]) (o.left g file counter n) v' s' where
  files := by
    rw [hremover, Remover.next, htodo, List.tail_cons, List.append_assoc, List.singleton_append,
      ← htodo, h.files]
  index := by rw [hremover, Remover.next, h.index, List.length_append, List.length_singleton]
  visited := by
    rw [hremover]
    exact .next h.visited ⟨file, counter, n, h.index ▸ hvisit, rfl⟩
  others f _ := hall f
  here f _ := by
    rw [hremover, hall f]
    rfl

/-- Another file of the call, and its counter. -/
theorem AtFile.untouched (h : c.Through parse o₀ before o s) (htodo : s.remover.todo = g :: rest)
    (hhere : c.AtFile parse g s.remover.progress x file count s.fs s.remover.pc) {f : QueueFile}
    (hf : f ∈ c.removal.files c.numConnectors) (hne : f ≠ g)
    (hstep : c.removerStep parse s = some s') :
    FileSystem.Same s.fs s'.fs (.queue f) ∧ s'.object f = s.object f := by
  have hsame := hhere.same_step (h.mem htodo) htodo hstep
    (fun h => absurd (Path.queue.inj h) hne) fun h => absurd h (QueueFile.queue_ne_temp g f)
  exact ⟨hsame, Prod.ext hsame.contents (removerStep_entries htodo (h.counter_ne htodo hf hne) hstep)⟩

theorem RemoverAt.congr (h : c.RemoverAt parse o₀ before o v s) (hremover : s'.remover = s.remover)
    (hv : ∀ f, v' f = v f) (hfs : ∀ g, s.remover.todo.head? = some g → s.remover.pc.outside = false →
      FileSystem.Same s.fs s'.fs (.queue g)
        ∧ (s.remover.pc.usesTemp = true → FileSystem.Same s.fs s'.fs g.temp)) :
    c.RemoverAt parse o₀ before o v' s' where
  files := by rw [hremover, h.files]
  index := by rw [hremover, h.index]
  visited := by
    rw [hremover]
    exact h.visited
  others f hf := by
    rw [hremover] at hf
    rw [hv, h.others f hf]
  here g hg := by
    rw [hremover] at hg ⊢
    rw [hv]
    have hhere := h.here g hg
    have hmem : g ∈ c.removal.files c.numConnectors := by
      rw [← h.files]
      exact List.mem_append_right _ (List.mem_of_head? hg)
    cases hpc : s.remover.pc with
    | enter =>
        rw [hpc] at hhere
        exact hhere
    | rewrite pc =>
        obtain ⟨hpath, htemp⟩ := hfs g hg (by rw [hpc]; rfl)
        rw [hpc] at hhere htemp
        exact hhere.congr hmem hpath htemp
    | assign p =>
        rw [hpc] at hhere
        exact hhere

/-- The file that the other call saves to may be looked at in another way, as long as the call is not at
it. -/
theorem RemoverAt.step (v' : Objects) (lag : UInt8) (h : c.RemoverAt parse o₀ before o v s)
    (hsaved : c.file ∈ c.removal.files c.numConnectors) (htodo : s.remover.todo = g :: rest)
    (hlag : lag = 0 ∨ s.remover.pc.outside = false
      ∧ ∀ p, s.remover.pc = .assign p → c.removal.counter s.remover.index g ≠ some g)
    (hstep : c.removerStep parse s = some s')
    (hv : v g = (s.fs.contents (.queue g), s.entries g + lag))
    (hv' : v' g = (s'.fs.contents (.queue g), s'.entries g + lag))
    (hothers : ∀ f, f ≠ g → f ≠ c.file → v f = s.object f ∧ v' f = s'.object f)
    (hkept : c.file ≠ g → v' c.file = v c.file) :
    ∃ before' o', c.RemoverAt parse o₀ before' o' v' s' ∧ (c.file ≠ g → o' c.file = o c.file) := by
  have hg := h.mem htodo
  have hhere := h.here g (by rw [htodo]; rfl)
  rw [hv] at hhere
  have hsame : ∀ f, f ≠ g → s'.fs.contents (.queue f) = s.fs.contents (.queue f) := fun f hf =>
    (hhere.same_step hg htodo hstep (fun h => absurd (Path.queue.inj h) hf)
      fun h => absurd h (QueueFile.queue_ne_temp g f)).contents
  have hbefore : ∀ f, f ≠ g → v f = o f := fun f hf =>
    h.others f (by rw [htodo]; exact fun h => hf (Option.some.inj h).symm)
  -- what the other files are afterwards, when some counter is assigned
  have hall : ∀ file counter n, s'.entries = assignCounter s.entries counter n →
      s'.fs.contents (.queue g) = file → (counter ≠ some g → s.entries g + lag = (o g).2) →
      (counter = some g → lag = 0) → (c.file ≠ g → counter ≠ some c.file) →
      ∀ f, v' f = o.left g file counter n f := by
    intro file counter n hentries hcontents hcount hzero hcounter f
    by_cases hfg : f = g
    · subst hfg
      rw [hv', hcontents, hentries, Objects.left_at]
      refine Prod.ext rfl ?_
      by_cases hself : counter = some f
      · rw [hself, assignCounter_self, assignCounter_self, hzero hself, UInt8.add_zero]
      · rw [assignCounter_of_ne hself, assignCounter_of_ne hself, hcount hself]
    · by_cases hfile : f = c.file
      · subst hfile
        rw [hkept hfg, hbefore _ hfg, Objects.left_of_ne hfg (hcounter hfg)]
      · have hobject := hbefore f hfg
        rw [(hothers f hfg hfile).1] at hobject
        rw [(hothers f hfg hfile).2, Objects.left, Objects.assign, Function.update_of_ne hfg]
        refine Prod.ext ((hsame f hfg).trans (congrArg Prod.fst hobject)) ?_
        show s'.entries f = _
        rw [hentries]
        refine assignCounter_congr ?_ _ _
        rw [Function.update_of_ne hfg]
        exact congrArg Prod.snd hobject
  rcases hhere.step hg htodo (fun hout => hlag.resolve_right fun h => by rw [h.1] at hout; cases hout)
    hstep with ⟨pc, -, hremover, hentries, hnext⟩ | ⟨hkeeps, hremover, hentries, hobject⟩ | ⟨p, hp, rfl⟩
  · refine ⟨before, o, ⟨⟨?_, ?_, ?_⟩, fun f hf => ?_, fun f hf => ?_⟩, fun _ => rfl⟩
    · rw [hremover]
      exact h.files
    · rw [hremover]
      exact h.index
    · rw [hremover]
      exact h.visited
    · rw [hremover, htodo] at hf
      have hne : f ≠ g := fun h => hf (congrArg some h.symm)
      by_cases hfile : f = c.file
      · subst hfile
        rw [hkept hne, hbefore _ hne]
      · rw [(hothers f hne hfile).2, ← hbefore f hne, (hothers f hne hfile).1]
        exact Prod.ext (hsame f hne) (congrFun hentries f)
    · rw [hremover, htodo] at hf
      obtain rfl := Option.some.inj hf
      rw [hremover, hv']
      exact hnext
  · obtain ⟨hcontents, hcount⟩ := Prod.mk.inj (show (_, _) = ((o g).1, (o g).2) from hobject)
    refine ⟨_, _, h.next htodo (.kept hkeeps) hremover (hall _ none 0 hentries hcontents (fun _ => ?_)
      (fun h => by cases h) fun _ h => by cases h), fun hne => ?_⟩
    · rw [← hentries]
      exact hcount
    · exact Objects.left_of_ne hne (by simp)
  · rw [hp] at hhere
    obtain ⟨henters, hopens, text, htext, hpass, hcontents, hcount⟩ := hhere
    have hcounter := h.counter_ne htodo hsaved
    refine ⟨_, _, h.next htodo (.pass henters hopens htext hpass) rfl
      (hall _ _ _ rfl hcontents (fun _ => hcount)
        (fun hself => hlag.resolve_right fun h => h.2 p hp hself) hcounter), fun hne => ?_⟩
    exact Objects.left_of_ne hne (hcounter hne)

end Files

end TwoCalls

end Pmu
