import PmuFirmware.Lib.FileSystem

/-!
# Files that others use too

A call leaves every file alone but its own. A handle goes on reading a file to which others append: as
long as the file consists of whole lines, what has been read is what the longer file begins with.
-/

namespace CLib

/-! ### Whole lines -/

/-- The text does not end within a line. -/
def Terminated (s : CStr) : Prop := ∀ c ∈ s.getLast?, c = newline

instance decidableTerminated (s : CStr) : Decidable (Terminated s) :=
  inferInstanceAs (Decidable (∀ c ∈ s.getLast?, c = newline))

theorem Terminated.newline_mem {s : CStr} (h : Terminated s) (hne : s ≠ []) : newline ∈ s := by
  have hlast := h (s.getLast hne) (List.getLast?_eq_some_getLast hne)
  exact hlast ▸ List.getLast_mem hne

theorem Terminated.right {s t : CStr} (h : Terminated (s ++ t)) : Terminated t := by
  intro c hc
  refine h c ?_
  rw [List.getLast?_append, Option.mem_def.mp hc]
  rfl

theorem terminated_append_newline (s : CStr) : Terminated (s ++ [newline]) := by
  intro c hc
  rw [List.getLast?_append, List.getLast?_singleton] at hc
  exact (Option.some.inj hc).symm

theorem readLine_append_right {room : Nat} {s : CStr} (hs : newline ∈ s) (t : CStr) :
    readLine room (s ++ t) = ((readLine room s).1, (readLine room s).2 ++ t) := by
  induction room generalizing s with
  | zero => rfl
  | succ room ih =>
      cases s with
      | nil => cases hs
      | cons c s =>
          rw [List.cons_append, readLine, readLine]
          by_cases hc : c = newline
          · rw [if_pos hc, if_pos hc]
          · have hrest : newline ∈ s := (List.mem_cons.mp hs).resolve_left (Ne.symm hc)
            rw [if_neg hc, if_neg hc, ih hrest]

theorem fgets_append_right {size : Nat} {s line rest : CStr} (hs : Terminated s)
    (hget : fgets size s = some (line, rest)) (t : CStr) :
    fgets size (s ++ t) = some (line, rest ++ t) := by
  have hne : s ≠ [] := by
    rintro rfl
    cases hget
  rw [fgets, if_neg hne] at hget
  rw [fgets, if_neg (by simp [hne]), readLine_append_right (hs.newline_mem hne), Option.some.inj hget]

/-- What is appended to whole lines is read after them. -/
theorem readLines_append {size : Nat} (hsize : 2 ≤ size) {s : CStr} (hs : Terminated s) (t : CStr) :
    readLines size (s ++ t) = readLines size s ++ readLines size t := by
  induction hlength : s.length using Nat.strong_induction_on generalizing s with
  | _ n ih =>
      cases hget : fgets size s with
      | none =>
          rw [fgets_eq_none] at hget
          subst hget
          rfl
      | some r =>
          obtain ⟨line, rest⟩ := r
          have hsplit := fgets_append hget
          have hshorter : rest.length < n := by
            have hne : s ≠ [] := by
              rintro rfl
              cases hget
            obtain ⟨c, s, rfl⟩ := List.exists_cons_of_ne_nil hne
            obtain ⟨room, hroom⟩ : ∃ k, size - 1 = k + 1 := ⟨size - 2, by omega⟩
            rw [fgets, if_neg hne, hroom, Option.some.injEq] at hget
            have hle := readLine_rest_lt room c s
            rw [hget] at hle
            rw [List.length_cons] at hlength
            exact hlength ▸ Nat.lt_succ_of_le hle
          have hrest : Terminated rest := Terminated.right (hsplit ▸ hs)
          rw [readLines_eq hsize (s ++ t), readLines_eq hsize s, fgets_append_right hs hget, hget]
          exact congrArg (line :: ·) (ih rest.length hshorter hrest rfl)

namespace FileSystem

variable {P : Type} {fs fs' : FileSystem P} {p q : P} {h : Handle} {s rest : CStr}

/-! ### Files that a call does not touch -/

/-- The name leads to the same file with the same text. -/
structure Same (fs fs' : FileSystem P) (q : P) : Prop where
  dir : fs'.dir q = fs.dir q
  contents : fs'.contents q = fs.contents q

theorem Same.refl (fs : FileSystem P) (q : P) : Same fs fs q := ⟨rfl, rfl⟩

theorem Same.reads (hsame : Same fs fs' p) (hread : fs.Reads h p s rest) : fs'.Reads h p s rest :=
  ⟨hsame.dir.trans hread.file, hsame.contents.trans hread.text, hread.rest⟩

theorem Same.writes (hsame : Same fs fs' p) (hwrite : fs.Writes h p s) : fs'.Writes h p s :=
  ⟨hsame.dir.trans hwrite.file, hsame.contents.trans hwrite.text, hwrite.pos⟩

theorem same_puts (hp : fs.dir p = some h.id) (hq : q ≠ p) (chunk : CStr) :
    Same fs (fs.puts h chunk).2 q :=
  ⟨by rw [dir_puts], contents_puts hp hq chunk⟩

theorem dir_append (fs : FileSystem P) (i : Nat) (chunk : CStr) : (fs.append i chunk).dir = fs.dir := by
  rw [append]
  cases fs.text i <;> rfl

theorem contents_append {i : Nat} (hp : fs.dir p = some i) (chunk : CStr) :
    (fs.append i chunk).contents p = some ((fs.contents p).getD [] ++ chunk) := by
  have hlive := fs.live p i hp
  obtain ⟨s, hs⟩ := Option.isSome_iff_exists.mp hlive
  have hcontents : fs.contents p = some s := by rw [contents, hp, Option.bind_some, hs]
  rw [append, hs, hcontents]
  exact (contents_setText fs i _ p).trans (if_pos hp)

theorem same_append {i : Nat} (hp : fs.dir p = some i) (hq : q ≠ p) (chunk : CStr) :
    Same fs (fs.append i chunk) q := by
  refine ⟨by rw [dir_append], ?_⟩
  rw [append]
  cases fs.text i with
  | none => rfl
  | some s =>
      exact (contents_setText fs i _ q).trans (if_neg fun h => hq (fs.dir_inj q p i h hp))

/-- A handle that has read a part of the file reads on in the longer file. -/
theorem Reads.append {i : Nat} (hp : fs.dir p = some i) (hread : fs.Reads h p s rest)
    (hpos : h.pos ≤ s.length) (chunk : CStr) :
    (fs.append i chunk).Reads h p (s ++ chunk) (rest ++ chunk) := by
  refine ⟨by rw [dir_append, hread.file], ?_, ?_⟩
  · rw [contents_append hp, hread.text]
    rfl
  · rw [List.drop_append_of_le_length hpos, hread.rest]

/-- The position stays within the file. -/
theorem Reads.pos_le_of_gets {size : Nat} {line : CStr} {h' : Handle} (hread : fs.Reads h p s rest)
    (hpos : h.pos ≤ s.length) (hget : fs.gets size h = some (line, h')) : h'.pos ≤ s.length := by
  rw [gets, text_of_contents hread.file hread.text, Option.bind_some, hread.rest] at hget
  obtain ⟨r, hline, hr⟩ := Option.map_eq_some_iff.mp hget
  obtain ⟨rfl, rfl⟩ := Prod.mk.inj hr
  have hsplit : r.1 ++ r.2 = rest := fgets_append hline
  have hlength := congrArg List.length hsplit
  rw [List.length_append, ← hread.rest, List.length_drop] at hlength
  show h.pos + r.1.length ≤ s.length
  omega

variable [DecidableEq P]

theorem same_openWrite (fs : FileSystem P) (hq : q ≠ p) : Same fs (fs.openWrite p).2 q :=
  ⟨dir_openWrite hq, contents_openWrite hq⟩

theorem same_remove (fs : FileSystem P) (hq : q ≠ p) : Same fs (fs.remove p) q :=
  ⟨by rw [dir_remove, if_neg hq], by rw [contents_remove, if_neg hq]⟩

theorem same_rename {old new : P} (hold : q ≠ old) (hnew : q ≠ new) (hne : old ≠ new) :
    Same fs (fs.rename old new) q := by
  by_cases htaken : fs.contents new = none
  · refine ⟨?_, by rw [contents_rename htaken hne, if_neg hold, if_neg hnew]⟩
    rw [dir_rename (contents_eq_none.mp htaken), if_neg hold, if_neg hnew]
  · rw [rename_of_taken htaken]
    exact .refl fs q

/-- The file is there once it is opened for appending. -/
theorem openAppend_spec (fs : FileSystem P) (p : P) :
    (fs.openAppend p).2.dir p = some (fs.openAppend p).1
      ∧ (fs.openAppend p).2.contents p = some ((fs.contents p).getD []) := by
  rw [openAppend]
  cases hp : fs.dir p with
  | some i =>
      refine ⟨hp, ?_⟩
      have hsome : fs.contents p ≠ none := by
        rw [Ne, contents_eq_none, hp]
        exact Option.some_ne_none i
      obtain ⟨s, hs⟩ := Option.ne_none_iff_exists'.mp hsome
      rw [hs]
      rfl
  | none =>
      rw [contents_eq_none.mpr hp]
      exact ⟨by rw [dir_create, if_pos rfl], by rw [contents_create, if_pos rfl]; rfl⟩

theorem same_openAppend (fs : FileSystem P) (hq : q ≠ p) : Same fs (fs.openAppend p).2 q := by
  rw [openAppend]
  cases fs.dir p with
  | some i => exact .refl fs q
  | none => exact ⟨by rw [dir_create, if_neg hq], by rw [contents_create, if_neg hq]⟩

/-- Opening a file that is there changes nothing. -/
theorem same_openAppend_of_some (hs : fs.contents p = some s) (q : P) :
    Same fs (fs.openAppend p).2 q := by
  have hsome : fs.dir p ≠ none := by
    rw [Ne, ← contents_eq_none, hs]
    exact Option.some_ne_none s
  obtain ⟨i, hi⟩ := Option.ne_none_iff_exists'.mp hsome
  rw [openAppend, hi]
  exact .refl fs q

end FileSystem

end CLib
