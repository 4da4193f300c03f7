import PmuFirmware.Queue.Tasks

/-!
# Saving beside other calls

What `save_payload_to_spiffs` knows before each of its steps about the file it saves to, as long as
nobody else changes that file: how file and counter follow from what they were. At the end they are as
a single call leaves them.
-/

namespace Pmu

open CLib

/-- The oldest entry is being removed. -/
def SaverPc.evicting : SaverPc → Bool
  | .evict _ => true
  | _ => false

/-- The file is open, and the line is not written yet. -/
def SaverPc.opened : SaverPc → Bool
  | .write _ => true
  | _ => false

/-- The line is written, and not counted yet. -/
def SaverPc.written : SaverPc → Bool
  | .close => true
  | .increment => true
  | _ => false

def SaverPc.idle : SaverPc → Bool
  | .check => true
  | _ => false

def SaverPc.ended : SaverPc → Bool
  | .done => true
  | _ => false

namespace TwoCalls

variable (c : TwoCalls)

/-- Neither the clock nor the opening of the file fails. -/
def Appends : Prop := c.saverEnv.time.isSome = true ∧ c.saverEnv.opensForAppending = true

instance : Decidable c.Appends := inferInstanceAs (Decidable (_ ∧ _))

/-- What has become of the file once there is room. -/
def textAt (file : Option CStr) : SaverPc → Option CStr
  | .write _ => some (file.getD [])
  | .close => some (file.getD [] ++ c.line)
  | .increment => some (file.getD [] ++ c.line)
  | .done => if c.Appends then some (file.getD [] ++ c.line) else file
  | _ => file

def countAt (count : UInt8) : SaverPc → UInt8
  | .done => if c.Appends then count + 1 else count
  | _ => count

def objectAt (o : Option CStr × UInt8) (pc : SaverPc) : Option CStr × UInt8 :=
  (c.textAt o.1 pc, c.countAt o.2 pc)

/-- Room is made if there is none: `full` says which. -/
def Roomed (o o₁ : Option CStr × UInt8) : Bool → Prop
  | false => ¬c.Full o.2 ∧ o₁ = o
  | true => c.Full o.2 ∧ c.eviction.Opens c.saverEnv ∧ ∃ text p, o.1 = some text
      ∧ c.eviction.pass text = some p ∧ o₁ = (some p.temp, UInt8.ofNat p.kept)

/-- Room is made and the line appended, unless no room can be made. -/
def Saved (o o' : Option CStr × UInt8) : Prop :=
  (∃ full o₁, c.Roomed o o₁ full ∧ o' = c.objectAt o₁ .done)
    ∨ c.Full o.2 ∧ (o.1 = none ∨ ¬c.eviction.Opens c.saverEnv) ∧ o' = o

/-- What has not failed on the way to a step. -/
def Reached (fs : FileSystem Path) : SaverPc → Prop
  | .openAppend => c.saverEnv.time.isSome = true
  | .write id => c.Appends ∧ fs.dir (.queue c.file) = some id
  | .close => c.Appends
  | .increment => c.Appends
  | _ => True

/-- What is known before each step when the file and its counter have been `o`. -/
def SaverAt (o : Option CStr × UInt8) (full : Bool) (s : System) : Prop :=
  match s.saver with
  | .check => full = false ∧ s.object c.file = o
  | .evict pc => full = true ∧ c.Full o.2 ∧ c.eviction.Doing c.saverEnv o.1 s.fs pc
      ∧ s.entries c.file = o.2
  | .assign p => full = true ∧ c.Full o.2 ∧ c.eviction.Opens c.saverEnv
      ∧ (∃ text, o.1 = some text ∧ c.eviction.pass text = some p)
      ∧ s.object c.file = (some p.temp, o.2)
  | .done => c.Saved o (s.object c.file)
  | pc => ∃ o₁, c.Roomed o o₁ full ∧ s.object c.file = c.objectAt o₁ pc ∧ c.Reached s.fs pc

variable {c} {s s' : System} {o : Option CStr × UInt8} {full : Bool}

/-! ### The steps -/

/-- What the check finds. -/
def findsFull (c : TwoCalls) (s : System) : Bool :=
  s.saver.idle && decide (c.Full (s.entries c.file))

theorem saverAt_afterRoom {o₁ : Option CStr × UInt8} (hroom : c.Roomed o o₁ full)
    (hobject : s.object c.file = o₁) (hsaver : s.saver = c.afterRoom) : c.SaverAt o full s := by
  rw [SaverAt, hsaver, afterRoom]
  by_cases htime : c.saverEnv.time.isSome = true
  · rw [if_pos htime]
    exact ⟨o₁, hroom, hobject, htime⟩
  · rw [if_neg htime]
    refine .inl ⟨full, o₁, hroom, ?_⟩
    have hnever : ¬c.Appends := fun happends => htime happends.1
    rw [hobject, objectAt, textAt, countAt, if_neg hnever, if_neg hnever]

theorem saverAt_check (h : c.SaverAt o full s) (hsaver : s.saver = .check)
    (hstep : c.saverStep s = some s') : c.SaverAt o (full || c.findsFull s) s' := by
  rw [SaverAt, hsaver] at h
  obtain ⟨rfl, hobject⟩ := h
  have hcount : s.entries c.file = o.2 := congrArg Prod.snd hobject
  rw [saverStep, hsaver] at hstep
  obtain rfl := Option.some.inj hstep
  by_cases hfull : c.Full (s.entries c.file)
  · have hfinds : c.findsFull s = true := by rw [findsFull, hsaver, decide_eq_true hfull]; rfl
    simp only [if_pos hfull, hfinds]
    exact ⟨rfl, hcount ▸ hfull, congrArg Prod.fst hobject, hcount⟩
  · have hfinds : c.findsFull s = false := by
      rw [findsFull, hsaver, decide_eq_false hfull]
      rfl
    simp only [if_neg hfull, hfinds]
    exact saverAt_afterRoom ⟨hcount ▸ hfull, rfl⟩ hobject rfl

theorem saverAt_evict {pc : Pc} (h : c.SaverAt o full s) (hsaver : s.saver = .evict pc)
    (hstep : c.saverStep s = some s') : c.SaverAt o full s' := by
  rw [SaverAt, hsaver] at h
  obtain ⟨rfl, hfull, hdoing, hcount⟩ := h
  rw [saverStep, hsaver] at hstep
  obtain ⟨saver, hafter, rfl⟩ := Option.map_eq_some_iff.mp hstep
  have hnext := hdoing.step
  have hfile : c.eviction.file = c.file := rfl
  rw [hfile] at hnext
  generalize c.eviction.step (c.saverEnv.allows c.file pc) s.fs pc = r at hafter hnext
  obtain ⟨fs, pc'⟩ := r
  have hon : ∀ pc, afterEvict pc' = some (.evict pc) → pc = pc' →
      c.SaverAt o true { s with fs := fs, saver := .evict pc } := by
    rintro pc - rfl
    exact ⟨rfl, hfull, hnext, hcount⟩
  cases pc' with
  | done result =>
      cases result with
      | none =>
          obtain rfl := Option.some.inj hafter
          obtain ⟨hcontents, hfailed⟩ := hnext
          exact .inr ⟨hfull, hfailed, Prod.ext hcontents hcount⟩
      | some p =>
          obtain rfl := Option.some.inj hafter
          obtain ⟨hopens, text, htext, hpass, hcontents⟩ := hnext
          refine ⟨rfl, hfull, hopens, ⟨text, htext, hpass⟩, Prod.ext ?_ hcount⟩
          exact hcontents
  | overrun => cases hafter
  | openSrc => obtain rfl := Option.some.inj hafter; exact hon _ rfl rfl
  | openTemp => obtain rfl := Option.some.inj hafter; exact hon _ rfl rfl
  | scan => obtain rfl := Option.some.inj hafter; exact hon _ rfl rfl
  | copy => obtain rfl := Option.some.inj hafter; exact hon _ rfl rfl
  | write => obtain rfl := Option.some.inj hafter; exact hon _ rfl rfl
  | closeSrc => obtain rfl := Option.some.inj hafter; exact hon _ rfl rfl
  | closeTemp => obtain rfl := Option.some.inj hafter; exact hon _ rfl rfl
  | remove => obtain rfl := Option.some.inj hafter; exact hon _ rfl rfl
  | rename => obtain rfl := Option.some.inj hafter; exact hon _ rfl rfl
  | dropTemp => obtain rfl := Option.some.inj hafter; exact hon _ rfl rfl

theorem saverAt_assign {p : Pass} (h : c.SaverAt o full s) (hsaver : s.saver = .assign p)
    (hstep : c.saverStep s = some s') : c.SaverAt o full s' := by
  rw [SaverAt, hsaver] at h
  obtain ⟨rfl, hfull, hopens, ⟨text, htext, hpass⟩, hobject⟩ := h
  rw [saverStep, hsaver] at hstep
  obtain rfl := Option.some.inj hstep
  have hfile : s.fs.contents (.queue c.file) = some p.temp := congrArg Prod.fst hobject
  refine saverAt_afterRoom ⟨hfull, hopens, text, p, htext, hpass, rfl⟩ (Prod.ext hfile ?_) rfl
  exact Function.update_self c.file (UInt8.ofNat p.kept) s.entries

theorem saverAt_openAppend (h : c.SaverAt o full s) (hsaver : s.saver = .openAppend)
    (hstep : c.saverStep s = some s') : c.SaverAt o full s' := by
  rw [SaverAt, hsaver] at h
  obtain ⟨o₁, hroom, hobject, htime⟩ := h
  rw [saverStep, hsaver] at hstep
  dsimp only at hstep
  by_cases hopens : c.saverEnv.opensForAppending = true
  · rw [if_pos hopens] at hstep
    obtain rfl := Option.some.inj hstep
    obtain ⟨hdir, hcontents⟩ := s.fs.openAppend_spec (.queue c.file)
    have hfile : s.fs.contents (.queue c.file) = o₁.1 := congrArg Prod.fst hobject
    have hcount : s.entries c.file = o₁.2 := congrArg Prod.snd hobject
    refine ⟨o₁, hroom, Prod.ext ?_ hcount, ⟨htime, hopens⟩, hdir⟩
    exact hcontents.trans (congrArg (fun file => some (file.getD [])) hfile)
  · rw [if_neg hopens] at hstep
    obtain rfl := Option.some.inj hstep
    refine .inl ⟨full, o₁, hroom, ?_⟩
    have hnever : ¬c.Appends := fun happends => hopens happends.2
    rw [objectAt, textAt, countAt, if_neg hnever, if_neg hnever]
    exact hobject

theorem saverAt_write {id : Nat} (h : c.SaverAt o full s) (hsaver : s.saver = .write id)
    (hstep : c.saverStep s = some s') : c.SaverAt o full s' := by
  rw [SaverAt, hsaver] at h
  obtain ⟨o₁, hroom, hobject, happends, hdir⟩ := h
  rw [saverStep, hsaver] at hstep
  obtain rfl := Option.some.inj hstep
  have hfile : s.fs.contents (.queue c.file) = some (o₁.1.getD []) := congrArg Prod.fst hobject
  have hcount : s.entries c.file = o₁.2 := congrArg Prod.snd hobject
  refine ⟨o₁, hroom, Prod.ext ?_ hcount, happends⟩
  show (s.fs.append id c.line).contents (.queue c.file) = some (o₁.1.getD [] ++ c.line)
  rw [FileSystem.contents_append hdir, hfile]
  rfl

theorem saverAt_increment (hlisted : c.Listed) (h : c.SaverAt o full s)
    (hsaver : s.saver = .increment) (hstep : c.saverStep s = some s') : c.SaverAt o full s' := by
  rw [SaverAt, hsaver] at h
  obtain ⟨o₁, hroom, hobject, happends⟩ := h
  have happends : c.Appends := happends
  have hfile : s.fs.contents (.queue c.file) = some (o₁.1.getD [] ++ c.line) :=
    congrArg Prod.fst hobject
  have hcount : s.entries c.file = o₁.2 := congrArg Prod.snd hobject
  rw [saverStep, hsaver] at hstep
  obtain rfl := Option.some.inj hstep
  refine .inl ⟨full, o₁, hroom, Prod.ext ?_ ?_⟩
  · rw [objectAt, textAt, if_pos happends]
    exact hfile
  · rw [objectAt, countAt, if_pos happends, ← hcount]
    show (if c.Listed then Function.update s.entries c.file (s.entries c.file + 1)
      else s.entries) c.file = s.entries c.file + 1
    rw [if_pos hlisted, Function.update_self]

theorem saverAt_close (h : c.SaverAt o full s) (hsaver : s.saver = .close)
    (hstep : c.saverStep s = some s') : c.SaverAt o full s' := by
  rw [SaverAt, hsaver] at h
  rw [saverStep, hsaver] at hstep
  obtain rfl := Option.some.inj hstep
  exact h

/-- Every step leads to where the next one is expected. -/
theorem SaverAt.step (hlisted : c.Listed) (h : c.SaverAt o full s) (hstep : c.saverStep s = some s') :
    c.SaverAt o (full || c.findsFull s) s' := by
  have hother : s.saver.idle = false → full = (full || c.findsFull s) := fun hidle => by
    rw [findsFull, hidle, Bool.false_and, Bool.or_false]
  cases hsaver : s.saver with
  | check => exact saverAt_check h hsaver hstep
  | evict pc => exact hother (by rw [hsaver]; rfl) ▸ saverAt_evict h hsaver hstep
  | assign p => exact hother (by rw [hsaver]; rfl) ▸ saverAt_assign h hsaver hstep
  | openAppend => exact hother (by rw [hsaver]; rfl) ▸ saverAt_openAppend h hsaver hstep
  | write id => exact hother (by rw [hsaver]; rfl) ▸ saverAt_write h hsaver hstep
  | close => exact hother (by rw [hsaver]; rfl) ▸ saverAt_close h hsaver hstep
  | increment => exact hother (by rw [hsaver]; rfl) ▸ saverAt_increment hlisted h hsaver hstep
  | done =>
      rw [saverStep, hsaver] at hstep
      cases hstep

/-! ### What others see, and what they may do -/

/-- A step changes nothing but the file, its counter and, during an eviction, the temporary file. -/
theorem SaverAt.same_step (h : c.SaverAt o full s) (hstep : c.saverStep s = some s') :
    s'.remover = s.remover ∧ (∀ g, g ≠ c.file → s'.entries g = s.entries g)
      ∧ ∀ q, q ≠ .queue c.file → (s.saver.evicting = true → q ≠ c.file.temp) →
        FileSystem.Same s.fs s'.fs q := by
  rw [saverStep] at hstep
  cases hsaver : s.saver with
  | check =>
      rw [hsaver] at hstep
      obtain rfl := Option.some.inj hstep
      exact ⟨rfl, fun _ _ => rfl, fun q _ _ => .refl s.fs q⟩
  | evict pc =>
      rw [SaverAt, hsaver] at h
      rw [hsaver] at hstep
      obtain ⟨saver, -, rfl⟩ := Option.map_eq_some_iff.mp hstep
      obtain ⟨-, -, hdoing, -⟩ := h
      exact ⟨rfl, fun _ _ => rfl, fun q hq htemp =>
        hdoing.same_step (fun hsame => absurd hsame hq) (fun hsame => absurd hsame (htemp rfl)) _⟩
  | assign p =>
      rw [hsaver] at hstep
      obtain rfl := Option.some.inj hstep
      exact ⟨rfl, fun g hg => Function.update_of_ne hg _ _, fun q _ _ => .refl s.fs q⟩
  | openAppend =>
      rw [hsaver] at hstep
      dsimp only at hstep
      split at hstep
      · obtain rfl := Option.some.inj hstep
        exact ⟨rfl, fun _ _ => rfl, fun q hq _ => s.fs.same_openAppend hq⟩
      · obtain rfl := Option.some.inj hstep
        exact ⟨rfl, fun _ _ => rfl, fun q _ _ => .refl s.fs q⟩
  | write id =>
      rw [SaverAt, hsaver] at h
      rw [hsaver] at hstep
      obtain ⟨o₁, -, -, -, hdir⟩ := h
      obtain rfl := Option.some.inj hstep
      exact ⟨rfl, fun _ _ => rfl, fun q hq _ => FileSystem.same_append hdir hq c.line⟩
  | close =>
      rw [hsaver] at hstep
      obtain rfl := Option.some.inj hstep
      exact ⟨rfl, fun _ _ => rfl, fun q _ _ => .refl s.fs q⟩
  | increment =>
      rw [hsaver] at hstep
      obtain rfl := Option.some.inj hstep
      refine ⟨rfl, fun g hg => ?_, fun q _ _ => .refl s.fs q⟩
      show (if c.Listed then Function.update s.entries c.file (s.entries c.file + 1)
        else s.entries) g = s.entries g
      split
      · exact Function.update_of_ne hg _ _
      · rfl
  | done =>
      rw [hsaver] at hstep
      cases hstep

/-- A step that leaves the file, its counter and an eviction alone. -/
theorem SaverAt.congr (h : c.SaverAt o full s) (hsaver : s'.saver = s.saver)
    (hpath : FileSystem.Same s.fs s'.fs (.queue c.file))
    (htemp : s.saver.evicting = true → FileSystem.Same s.fs s'.fs c.file.temp)
    (hcount : s'.entries c.file = s.entries c.file) : c.SaverAt o full s' := by
  have hobject : s'.object c.file = s.object c.file := Prod.ext hpath.contents hcount
  rw [SaverAt] at h
  rw [SaverAt, hsaver]
  cases hpc : s.saver with
  | check =>
      rw [hpc] at h
      exact ⟨h.1, hobject.trans h.2⟩
  | evict pc =>
      rw [hpc] at h
      obtain ⟨hfull, hlimit, hdoing, hbefore⟩ := h
      exact ⟨hfull, hlimit, hdoing.congr hpath fun _ => htemp (by rw [hpc]; rfl), hcount.trans hbefore⟩
  | assign p =>
      rw [hpc] at h
      obtain ⟨hfull, hlimit, hopens, hpassed, hbefore⟩ := h
      exact ⟨hfull, hlimit, hopens, hpassed, hobject.trans hbefore⟩
  | openAppend =>
      rw [hpc] at h
      obtain ⟨o₁, hroom, hbefore, hreached⟩ := h
      exact ⟨o₁, hroom, hobject.trans hbefore, hreached⟩
  | write id =>
      rw [hpc] at h
      obtain ⟨o₁, hroom, hbefore, happends, hdir⟩ := h
      exact ⟨o₁, hroom, hobject.trans hbefore, happends, hpath.dir.trans hdir⟩
  | close =>
      rw [hpc] at h
      obtain ⟨o₁, hroom, hbefore, happends⟩ := h
      exact ⟨o₁, hroom, hobject.trans hbefore, happends⟩
  | increment =>
      rw [hpc] at h
      obtain ⟨o₁, hroom, hbefore, happends⟩ := h
      exact ⟨o₁, hroom, hobject.trans hbefore, happends⟩
  | done =>
      rw [hpc] at h
      exact hobject.symm ▸ h

/-! ### The whole call -/

section Whole

variable {st : Store} {o₁ o' : Option CStr × UInt8}

theorem full_iff (hst : st.numConnectors = c.numConnectors) :
    st.HasCounter c.file ∧ c.file.cap ≤ (st.entries c.file).toNat ↔ c.Full (st.object c.file).2 := by
  refine and_congr ?_ Iff.rfl
  rw [Listed, ← hst]
  cases c.file with
  | request => exact Iff.rfl
  | onlineCharger => exact Iff.rfl
  | offlineCharger => exact Iff.rfl
  | connector i => exact Iff.rfl

theorem makeRoom_of_roomed (hst : st.numConnectors = c.numConnectors)
    (h : c.Roomed (st.object c.file) o₁ full) :
    ∃ st₁, makeRoom c.saverEnv c.file st = some (some st₁) ∧ st₁.object c.file = o₁
      ∧ st₁.numConnectors = st.numConnectors ∧ ∀ g, g ≠ c.file → st₁.object g = st.object g := by
  cases full with
  | false =>
      obtain ⟨hroom, rfl⟩ := h
      refine ⟨st, ?_, rfl, rfl, fun _ _ => rfl⟩
      rw [makeRoom, if_neg fun hfull => hroom ((full_iff hst).mp hfull)]
  | true =>
      obtain ⟨hfull, hopens, text, p, htext, hpass, rfl⟩ := h
      have htext' : st.disk (.queue c.eviction.file) = some text := htext
      obtain ⟨st', happly, hentries, hconnectors, hdisk⟩ :=
        Rewriter.apply_of_pass htext' hopens hpass
      have hremove : removeOldestMessage c.saverEnv c.file st = some (st', some p.kept) := by
        rw [Rewriter.removeOldestMessage_apply]
        exact congrArg (Option.map _) happly
      have hrewritten : c.eviction.rewritten p text = p.temp := if_pos (.inl rfl)
      have hfile : c.eviction.file = c.file := rfl
      rw [hrewritten, hfile] at hdisk
      refine ⟨st'.setEntries c.file p.kept, ?_, Prod.ext ?_ ?_, hconnectors, fun g hg => ?_⟩
      · rw [makeRoom, if_pos ((full_iff hst).mpr hfull), hremove]
        rfl
      · exact (hdisk c.file).trans (if_pos rfl)
      · exact Function.update_self c.file (UInt8.ofNat p.kept) st'.entries
      · refine Prod.ext ((hdisk g).trans (if_neg hg)) ?_
        show Function.update st'.entries c.file (UInt8.ofNat p.kept) g = st.entries g
        rw [Function.update_of_ne hg, hentries]

theorem makeRoom_of_failed (hst : st.numConnectors = c.numConnectors)
    (hfull : c.Full (st.object c.file).2)
    (hfailed : (st.object c.file).1 = none ∨ ¬c.eviction.Opens c.saverEnv) :
    makeRoom c.saverEnv c.file st = some none := by
  have happly : c.eviction.apply c.saverEnv st = some (st, none) := Rewriter.apply_of_failed hfailed
  have hremove : removeOldestMessage c.saverEnv c.file st = some (st, none) := by
    rw [Rewriter.removeOldestMessage_apply]
    exact congrArg (Option.map _) happly
  rw [makeRoom, if_pos ((full_iff hst).mpr hfull), hremove]
  rfl

theorem hasCounter_iff (hst : st.numConnectors = c.numConnectors) :
    st.HasCounter c.file ↔ c.Listed := by
  rw [Listed, ← hst]
  cases c.file with
  | request => exact Iff.rfl
  | onlineCharger => exact Iff.rfl
  | offlineCharger => exact Iff.rfl
  | connector i => exact Iff.rfl

/-- `save_payload_to_spiffs` saves. -/
theorem savePayload_of_saved (hlisted : c.Listed) (hst : st.numConnectors = c.numConnectors)
    (h : c.Saved (st.object c.file) o') :
    ∃ st', savePayloadToSpiffs c.saverEnv c.file c.payload st = some st' ∧ st'.object c.file = o'
      ∧ st'.numConnectors = st.numConnectors ∧ ∀ g, g ≠ c.file → st'.object g = st.object g := by
  rcases h with ⟨full, o₁, hroom, rfl⟩ | ⟨hfull, hfailed, rfl⟩
  · obtain ⟨st₁, hmake, hobject, hconnectors, hothers⟩ := makeRoom_of_roomed hst hroom
    rw [savePayloadToSpiffs, hmake, Option.map_some]
    dsimp only
    have hnever : ¬c.Appends → c.objectAt o₁ .done = o₁ := fun hnot => by
      rw [objectAt, textAt, countAt, if_neg hnot, if_neg hnot]
    cases htime : c.saverEnv.time with
    | none =>
        have hnot : ¬c.Appends := fun happends => by
          have := happends.1
          rw [htime] at this
          cases this
        exact ⟨st₁, rfl, by rw [hnever hnot, hobject], hconnectors, hothers⟩
    | some t =>
        dsimp only
        by_cases hopens : c.saverEnv.opensForAppending = true
        · have happends : c.Appends := ⟨by rw [htime]; rfl, hopens⟩
          have hline : c.line = entryLine c.payload t ++ [newline] := by rw [line, htime]; rfl
          have hcounter : (st₁.append c.file c.payload t).HasCounter c.file :=
            (hasCounter_iff (hconnectors.trans hst)).mpr hlisted
          rw [if_pos hopens, if_pos hcounter]
          refine ⟨_, rfl, ?_, hconnectors, fun g hg => ?_⟩
          · rw [objectAt, textAt, countAt, if_pos happends, if_pos happends, ← hobject, hline]
            refine Prod.ext ?_ ?_
            · show Function.update st₁.disk (.queue c.file) _ (.queue c.file) = _
              rw [Function.update_self]
              rfl
            · show Function.update st₁.entries c.file _ c.file = _
              rw [Function.update_self]
              exact UInt8.toNat_inj.mp (by simp [Store.object])
          · rw [← hothers g hg]
            refine Prod.ext ?_ (Function.update_of_ne hg _ _)
            exact Function.update_of_ne (fun h => hg (Path.queue.inj h)) _ _
        · have hnot : ¬c.Appends := fun happends => hopens happends.2
          rw [if_neg hopens]
          exact ⟨st₁, rfl, by rw [hnever hnot, hobject], hconnectors, hothers⟩
  · refine ⟨st, ?_, rfl, rfl, fun _ _ => rfl⟩
    rw [savePayloadToSpiffs, makeRoom_of_failed hst hfull hfailed]
    rfl

end Whole

end TwoCalls

end Pmu
