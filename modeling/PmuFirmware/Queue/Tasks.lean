import PmuFirmware.Queue.Copying
import PmuFirmware.Queue.RetryDeletion

/-!
# Two tasks at one queue file

`save_payload_to_spiffs` is called by one task, and the functions that take lines out of the queue
files by two others. A mutex for the files is created and never taken, so a call of the one and a call
of the other take turns at every file operation and every assignment of a counter.
-/

namespace Pmu

open CLib

variable (parse : CStr → Option Json)

/-! ### The calls that take lines out -/

/-- `found_match` and `total_remaining` -/
structure Progress where
  found : Bool
  total : Nat

def Progress.start : Progress := ⟨false, 0⟩

/-- The assignment to a counter, if there is one to assign to. -/
def assignCounter (entries : QueueFile → UInt8) (counter : Option QueueFile) (count : Nat) :
    QueueFile → UInt8 :=
  counter.elim entries fun f => Function.update entries f (UInt8.ofNat count)

def Store.assign (st : Store) (counter : Option QueueFile) (count : Nat) : Store :=
  { st with entries := assignCounter st.entries counter count }

/-- `handle_response_message` together with the assignment of its caller,
`handle_fault_response_message`, and `search_and_delete_message_from_any_file`. -/
inductive Removal
  | response (uuid : CStr)
  | fault (uuid : CStr)
  | retry (target : CStr)

namespace Removal

/-- The files that are gone through, one after the other. -/
def files (numConnectors : Fin 16) : Removal → List QueueFile
  | .response _ => [.request]
  | .fault _ => .onlineCharger :: .offlineCharger :: (List.range numConnectors).map .connector
  | .retry _ => .request :: .onlineCharger :: .offlineCharger ::
      (List.range (min numConnectors noOfConnectors)).map .connector

/-- What is tested before a file is opened. -/
def Enters (env : Env) (m : Progress) (f : QueueFile) (count : UInt8) (file : Option CStr) :
    Removal → Prop
  | .response _ => True
  | .fault _ => count ≠ 0 ∧ m.found = false
  | .retry _ => env.stats f = true ∧ file.getD [] ≠ []

instance (env : Env) (m : Progress) (f : QueueFile) (count : UInt8) (file : Option CStr)
    (removal : Removal) : Decidable (removal.Enters env m f count file) :=
  match removal with
  | .response _ => inferInstanceAs (Decidable True)
  | .fault _ => inferInstanceAs (Decidable (_ ∧ _))
  | .retry _ => inferInstanceAs (Decidable (_ ∧ _))

def job (f : QueueFile) : Removal → Rewriter
  | .response uuid => .handleResponseMessage parse uuid
  | .fault uuid => .deleteFaultFileEntryByUuid parse f uuid
  | .retry target => .deleteLineIfFound f target

/-- The counter that is assigned after the file with index `i`. -/
def counter (i : Nat) (f : QueueFile) : Removal → Option QueueFile
  | .response _ => some .request
  | .fault _ => some f
  | .retry _ => retryCounter i

def count (m : Progress) (p : Pass) : Removal → Nat
  | .response _ => p.kept
  | .fault _ => p.kept
  | .retry _ => m.total + p.kept

def remember (m : Progress) (p : Pass) : Removal → Progress
  | .response _ => m
  | .fault _ => { m with found := decide (0 < p.deleted) }
  | .retry _ => { m with total := m.total + p.kept }

/-- One file, when nobody else is there. -/
def visit (env : Env) (removal : Removal) (i : Nat) (f : QueueFile) (s : Progress × Store) :
    Option (Progress × Store) :=
  if removal.Enters env s.1 f (s.2.entries f) (s.2.disk (.queue f)) then
    ((removal.job parse f).apply env s.2).map fun r =>
      r.2.elim (s.1, r.1) fun p =>
        (removal.remember s.1 p, r.1.assign (removal.counter i f) (removal.count s.1 p))
  else some s

def visits (env : Env) (removal : Removal) : Nat → List QueueFile → Progress × Store →
    Option (Progress × Store)
  | _, [], s => some s
  | i, f :: fs, s => (removal.visit parse env i f s).bind (visits env removal (i + 1) fs)

/-- The whole call. -/
def run (env : Env) (st : Store) : Removal → Option Store
  | .response uuid => (handleResponseMessage parse env uuid st).map fun r =>
      r.2.elim r.1 (r.1.setEntries .request)
  | .fault uuid => handleFaultResponseMessage parse env uuid st
  | .retry target => some (searchAndDeleteMessageFromAnyFile env target st).st

theorem visits_append_singleton (env : Env) (removal : Removal) (i : Nat) (fs : List QueueFile)
    (f : QueueFile) (s : Progress × Store) :
    removal.visits parse env i (fs ++ [f]) s
      = (removal.visits parse env i fs s).bind (removal.visit parse env (i + fs.length) f) := by
  induction fs generalizing i s with
  | nil =>
      rw [List.nil_append, visits, visits, Option.bind_some, List.length_nil, Nat.add_zero]
      exact Option.bind_fun_some (removal.visit parse env i f s)
  | cons g fs ih =>
      have hnext : i + 1 + fs.length = i + (fs.length + 1) := by omega
      rw [List.cons_append, visits, visits, Option.bind_assoc, List.length_cons, ← hnext]
      exact congrArg _ (funext fun s' => ih (i + 1) s')

section Functions

variable (env : Env)

theorem fault_visit (uuid : CStr) (i : Nat) (f : QueueFile) (st : Store) (m : Progress) :
    (Removal.fault uuid).visit parse env i f (m, st)
      = (faultResponseFile parse env uuid (st, m.found) f).map fun r =>
          ({ m with found := r.2 }, r.1) := by
  rw [visit, faultResponseFile]
  by_cases henters : st.entries f ≠ 0 ∧ m.found = false
  · have hin : (Removal.fault uuid).Enters env m f (st.entries f) (st.disk (.queue f)) := henters
    rw [if_pos hin, if_pos henters, Pmu.deleteFaultFileEntryByUuid,
      Rewriter.deleteFaultFileEntryByUuid_apply, Option.map_map, Option.map_map]
    refine Option.map_congr fun r _ => ?_
    obtain ⟨st', _ | p⟩ := r
    · rfl
    · rfl
  · have hout : ¬(Removal.fault uuid).Enters env m f (st.entries f) (st.disk (.queue f)) := henters
    rw [if_neg hout, if_neg henters]
    rfl

theorem fault_visits (uuid : CStr) (i : Nat) (fs : List QueueFile) (st : Store) (m : Progress) :
    (Removal.fault uuid).visits parse env i fs (m, st)
      = (fs.foldlM (faultResponseFile parse env uuid) (st, m.found)).map fun r =>
          ({ m with found := r.2 }, r.1) := by
  induction fs generalizing i st m with
  | nil => rfl
  | cons f fs ih =>
      rw [visits, fault_visit, List.foldlM_cons, Option.bind_eq_bind, Option.bind_map, Option.map_bind]
      exact congrArg _ (funext fun r => ih (i + 1) r.1 _)

theorem retry_visit (target : CStr) (i : Nat) (f : QueueFile) (s : Retry) :
    (Removal.retry target).visit parse env i f (⟨false, s.totalRemaining⟩, s.st)
      = some (⟨false, (retryFile env target i f s).totalRemaining⟩,
          (retryFile env target i f s).st) := by
  rw [visit, retryFile]
  by_cases henters : env.stats f = true ∧ s.st.contents f ≠ []
  · have hin : (Removal.retry target).Enters env ⟨false, s.totalRemaining⟩ f (s.st.entries f)
        (s.st.disk (.queue f)) := henters
    rw [if_pos hin, if_pos henters]
    have happly := Rewriter.deleteLineIfFound_apply env s.st f target
    obtain ⟨r, hr, hdelete⟩ := Option.map_eq_some_iff.mp happly.symm
    rw [← hdelete, job, hr]
    obtain ⟨st', _ | p⟩ := r
    · rfl
    · rw [Option.map_some, Option.elim_some]
      dsimp only [Option.map_some]
      rw [counter]
      cases retryCounter i with
      | none => rfl
      | some g => rfl
  · have hout : ¬(Removal.retry target).Enters env ⟨false, s.totalRemaining⟩ f (s.st.entries f)
        (s.st.disk (.queue f)) := henters
    rw [if_neg hout, if_neg henters]

theorem retry_visits (target : CStr) (i : Nat) (fs : List QueueFile) (s : Retry) :
    (Removal.retry target).visits parse env i fs (⟨false, s.totalRemaining⟩, s.st)
      = some (⟨false, (retryLoop env target i fs s).totalRemaining⟩,
          (retryLoop env target i fs s).st) := by
  induction fs generalizing i s with
  | nil => rfl
  | cons f fs ih =>
      rw [visits, retry_visit, Option.bind_some, retryLoop]
      exact ih (i + 1) (retryFile env target i f s)

/-- The call goes through its files. -/
theorem run_eq (st : Store) (removal : Removal) :
    (removal.visits parse env 0 (removal.files st.numConnectors) (.start, st)).map Prod.snd
      = removal.run parse env st := by
  cases removal with
  | response uuid =>
      have hin : (Removal.response uuid).Enters env .start .request (st.entries .request)
          (st.disk (.queue .request)) := trivial
      rw [files, visits, visit, if_pos hin, run, Pmu.handleResponseMessage,
        Rewriter.handleResponseMessage_apply, Option.map_map, Option.bind_map, Option.map_bind]
      refine Option.map_eq_bind.symm.trans (Option.map_congr fun r _ => ?_)
      obtain ⟨st', _ | p⟩ := r
      · rfl
      · rfl
  | fault uuid =>
      rw [fault_visits, Option.map_map]
      rfl
  | retry target =>
      have hvisits := retry_visits parse env target 0 st.retryFiles ⟨st, 0, []⟩
      rw [files, Progress.start]
      exact congrArg (Option.map Prod.snd) hvisits

end Functions

end Removal

/-! ### Taking turns -/

/-- A call that takes lines out, and a call that saves to `file`. -/
structure TwoCalls where
  numConnectors : Fin 16
  removal : Removal
  removerEnv : Env
  file : QueueFile
  payload : CStr
  saverEnv : Env

/-- Where the first call is: at the test before a file, within the rewriting, or before the assignment
of the counter. -/
inductive RemoverPc
  | enter
  | rewrite (pc : Pc)
  | assign (p : Pass)

structure Remover where
  index : Nat
  todo : List QueueFile
  pc : RemoverPc
  progress : Progress

/-- On to the next file. -/
def Remover.next (r : Remover) (m : Progress) : Remover := ⟨r.index + 1, r.todo.tail, .enter, m⟩

def Remover.afterCall (r : Remover) : Pc → Option Remover
  | .done none => some (r.next r.progress)
  | .done (some p) => some { r with pc := .assign p }
  | .overrun => none
  | pc => some { r with pc := .rewrite pc }

/-- Where `save_payload_to_spiffs` is. -/
inductive SaverPc
  | check
  | evict (pc : Pc)
  | assign (p : Pass)
  | openAppend
  | write (id : Nat)
  | close
  | increment
  | done

structure System where
  fs : FileSystem Path
  entries : QueueFile → UInt8
  remover : Remover
  saver : SaverPc

inductive Caller
  | remover
  | saver
  deriving DecidableEq

namespace TwoCalls

variable (c : TwoCalls)

def start (fs : FileSystem Path) (entries : QueueFile → UInt8) : System :=
  ⟨fs, entries, ⟨0, c.removal.files c.numConnectors, .enter, .start⟩, .check⟩

/-- The files and the counters at the start, as a single call sees them. -/
def store (fs : FileSystem Path) (entries : QueueFile → UInt8) : Store :=
  ⟨c.numConnectors, fs.contents, entries⟩

def removerStep (s : System) : Option System :=
  match s.remover.todo with
  | [] => none
  | f :: _ =>
    match s.remover.pc with
    | .enter =>
      if c.removal.Enters c.removerEnv s.remover.progress f (s.entries f)
          (s.fs.contents (.queue f)) then
        some { s with remover := { s.remover with pc := .rewrite .openSrc } }
      else some { s with remover := s.remover.next s.remover.progress }
    | .rewrite pc =>
      let r := (c.removal.job parse f).step (c.removerEnv.allows f pc) s.fs pc
      (s.remover.afterCall r.2).map fun remover => { s with fs := r.1, remover := remover }
    | .assign p =>
      some { s with
        entries := assignCounter s.entries (c.removal.counter s.remover.index f)
          (c.removal.count s.remover.progress p)
        remover := s.remover.next (c.removal.remember s.remover.progress p) }

/-- The file has a counter. -/
def Listed : Prop := Store.HasCounter ⟨c.numConnectors, fun _ => none, fun _ => 0⟩ c.file

instance : Decidable c.Listed := inferInstanceAs (Decidable (Store.HasCounter _ _))

/-- The counter is at the limit, so that room is made first. -/
def Full (count : UInt8) : Prop := c.Listed ∧ c.file.cap ≤ count.toNat

instance (count : UInt8) : Decidable (c.Full count) := inferInstanceAs (Decidable (_ ∧ _))

def eviction : Rewriter := .removeOldestMessage c.saverEnv.timeLibrary c.file

/-- The timestamp is made between making room and opening the file. -/
def afterRoom : SaverPc := if c.saverEnv.time.isSome then .openAppend else .done

def afterEvict : Pc → Option SaverPc
  | .done none => some .done
  | .done (some p) => some (.assign p)
  | .overrun => none
  | pc => some (.evict pc)

/-- The line that is appended. -/
def line : CStr := c.saverEnv.time.elim [] (entryLine c.payload) ++ [newline]

def saverStep (s : System) : Option System :=
  match s.saver with
  | .check =>
    some { s with saver := if c.Full (s.entries c.file) then .evict .openSrc else c.afterRoom }
  | .evict pc =>
    let r := c.eviction.step (c.saverEnv.allows c.file pc) s.fs pc
    (afterEvict r.2).map fun saver => { s with fs := r.1, saver := saver }
  | .assign p =>
    some { s with entries := assignCounter s.entries (some c.file) p.kept, saver := c.afterRoom }
  | .openAppend =>
    if c.saverEnv.opensForAppending then
      let r := s.fs.openAppend (.queue c.file)
      some { s with fs := r.2, saver := .write r.1 }
    else some { s with saver := .done }
  | .write id => some { s with fs := s.fs.append id c.line, saver := .close }
  | .close => some { s with saver := .increment }
  | .increment =>
    some { s with
      entries := if c.Listed then Function.update s.entries c.file (s.entries c.file + 1)
        else s.entries
      saver := .done }
  | .done => none

/-- One file operation or one assignment of a counter; a call that has ended has no more steps. -/
def step : Caller → System → Option System
  | .remover => c.removerStep parse
  | .saver => c.saverStep

end TwoCalls

/-- Both calls have ended. -/
def System.Ended (s : System) : Prop := s.remover.todo = [] ∧ s.saver = .done

/-- A file and its counter. -/
def System.object (s : System) (f : QueueFile) : Option CStr × UInt8 :=
  (s.fs.contents (.queue f), s.entries f)

def Store.object (st : Store) (f : QueueFile) : Option CStr × UInt8 :=
  (st.disk (.queue f), st.entries f)

/-! ### One call alone -/

section Alone

variable {parse} {env : Env} {st : Store}

/-- A rewriting that is not carried out. -/
theorem Rewriter.apply_of_failed {job : Rewriter}
    (h : st.disk (.queue job.file) = none ∨ ¬job.Opens env) : job.apply env st = some (st, none) := by
  rw [apply, Store.openRead]
  by_cases hreading : env.opensForReading job.file = true
  · rw [if_pos hreading]
    cases hfile : st.disk (.queue job.file) with
    | none => rfl
    | some text =>
        have hopens : ¬job.Opens env := h.resolve_left (by rw [hfile]; exact Option.some_ne_none text)
        dsimp only
        rw [if_neg fun htemp => hopens ⟨hreading, htemp⟩]
  · rw [if_neg hreading]

/-- A rewriting changes its own file only. -/
theorem Rewriter.apply_of_pass {job : Rewriter} {text : CStr} {p : Pass}
    (hfile : st.disk (.queue job.file) = some text) (hopens : job.Opens env)
    (hpass : job.pass text = some p) :
    ∃ st', job.apply env st = some (st', some p) ∧ st'.entries = st.entries
      ∧ st'.numConnectors = st.numConnectors
      ∧ ∀ g, st'.disk (.queue g) = if g = job.file then some (job.rewritten p text)
        else st.disk (.queue g) := by
  rw [apply, Store.openRead, if_pos hopens.1, hfile]
  dsimp only
  rw [if_pos hopens.2, hpass, Option.map_some]
  by_cases hreplaces : job.always = true ∨ 0 < p.deleted
  · rw [if_pos hreplaces]
    refine ⟨_, rfl, rfl, rfl, fun g => ?_⟩
    have hrewritten : job.rewritten p text = p.temp := if_pos hreplaces
    rw [Store.disk_replace, hrewritten]
  · rw [if_neg hreplaces]
    refine ⟨_, rfl, rfl, rfl, fun g => ?_⟩
    have hrewritten : job.rewritten p text = text := if_neg hreplaces
    rw [hrewritten]
    by_cases hg : g = job.file
    · subst hg
      simp [Store.put, Store.remove, temp, hfile]
    · simp [Store.put, Store.remove, temp, hg]

namespace Removal

variable {removal : Removal} {m : Progress} {i : Nat} {f : QueueFile}

theorem job_file {numConnectors : Fin 16} (hf : f ∈ removal.files numConnectors) :
    (removal.job parse f).file = f := by
  cases removal with
  | response uuid => exact (List.mem_singleton.mp hf).symm
  | fault uuid => rfl
  | retry target => rfl

theorem job_firstPass (removal : Removal) (f : QueueFile) :
    (removal.job parse f).firstPass = none := by
  cases removal with
  | response uuid => rfl
  | fault uuid => rfl
  | retry target => rfl

theorem files_nodup (removal : Removal) (numConnectors : Fin 16) :
    (removal.files numConnectors).Nodup := by
  cases removal with
  | response uuid => exact List.nodup_singleton _
  | fault uuid => simp [files, connectorFiles_nodup]
  | retry target => simp [files, connectorFiles_nodup]

/-- The counter of a file that is gone through is assigned at that file only. -/
theorem counter_ne {numConnectors : Fin 16} {g h : QueueFile}
    (hg : (removal.files numConnectors)[i]? = some g) (hh : h ∈ removal.files numConnectors)
    (hne : h ≠ g) : removal.counter i g ≠ some h := by
  intro hcounter
  cases removal with
  | response uuid =>
      obtain rfl := List.mem_singleton.mp hh
      obtain rfl := List.mem_singleton.mp (List.mem_of_getElem? hg)
      exact hne rfl
  | fault uuid => exact hne (Option.some.inj hcounter).symm
  | retry target =>
      have hconnector : ∀ k, 3 ≤ k → h ≠ .connector k := by
        rintro k hk rfl
        simp [files, noOfConnectors] at hh
        omega
      rcases i with _ | _ | _ | _ | _ | i
      · exact hne (by simpa [files, counter, retryCounter] using hcounter.symm.trans hg)
      · exact hne (by simpa [files, counter, retryCounter] using hcounter.symm.trans hg)
      · exact hne (by simpa [files, counter, retryCounter] using hcounter.symm.trans hg)
      · exact hconnector 3 le_rfl (Option.some.inj hcounter).symm
      · exact hconnector 4 (by omega) (Option.some.inj hcounter).symm
      · cases hcounter

theorem visit_of_skipped (h : ¬removal.Enters env m f (st.object f).2 (st.object f).1) :
    removal.visit parse env i f (m, st) = some (m, st) := if_neg h

theorem visit_of_failed (hfile : (removal.job parse f).file = f)
    (h : (st.object f).1 = none ∨ ¬(removal.job parse f).Opens env) :
    removal.visit parse env i f (m, st) = some (m, st) := by
  rw [visit]
  split
  · have hfailed : (removal.job parse f).apply env st = some (st, none) :=
      Rewriter.apply_of_failed (by rw [hfile]; exact h)
    rw [hfailed]
    rfl
  · rfl

/-- A visit changes its own file and a counter. -/
theorem visit_of_pass (hfile : (removal.job parse f).file = f)
    (henters : removal.Enters env m f (st.object f).2 (st.object f).1)
    (hopens : (removal.job parse f).Opens env) {text : CStr} {p : Pass}
    (htext : (st.object f).1 = some text) (hpass : (removal.job parse f).pass text = some p) :
    ∃ st', removal.visit parse env i f (m, st) = some (removal.remember m p, st')
      ∧ st'.numConnectors = st.numConnectors
      ∧ st'.entries = assignCounter st.entries (removal.counter i f) (removal.count m p)
      ∧ ∀ g, st'.disk (.queue g) = if g = f then some ((removal.job parse f).rewritten p text)
        else st.disk (.queue g) := by
  have htext' : st.disk (.queue (removal.job parse f).file) = some text := by rw [hfile]; exact htext
  obtain ⟨st', happly, hentries, hconnectors, hdisk⟩ :=
    Rewriter.apply_of_pass htext' hopens hpass
  have hin : removal.Enters env m f (st.entries f) (st.disk (.queue f)) := henters
  refine ⟨st'.assign (removal.counter i f) (removal.count m p), ?_, hconnectors, ?_, ?_⟩
  · rw [visit, if_pos hin, happly]
    rfl
  · rw [← hentries]
    rfl
  · rw [hfile] at hdisk
    exact hdisk

end Removal

end Alone

end Pmu
