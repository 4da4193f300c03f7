import PmuFirmware.Lib.TextFile

/-!
# Files and handles

A file has a number that it keeps for life; names lead to numbers and handles hold a number and a
position. Removing a name ends its file, and what is done through a handle that is left over has no
effect. No two names lead to one file. A name cannot be renamed to one that is taken.
-/

namespace CLib

structure FileSystem (P : Type) where
  dir : P → Option Nat
  text : Nat → Option CStr
  fresh : Nat
  dir_inj : ∀ p q i, dir p = some i → dir q = some i → p = q
  dir_lt : ∀ p i, dir p = some i → i < fresh
  live : ∀ p i, dir p = some i → (text i).isSome = true

structure Handle where
  id : Nat
  pos : Nat

namespace FileSystem

variable {P : Type}

def contents (fs : FileSystem P) (p : P) : Option CStr := (fs.dir p).bind fs.text

/-- The file with the given number gets a new text. -/
def setText (fs : FileSystem P) (i : Nat) (s : CStr) : FileSystem P where
  dir := fs.dir
  text := Function.update fs.text i (some s)
  fresh := fs.fresh
  dir_inj := fs.dir_inj
  dir_lt := fs.dir_lt
  live p j hj := by
    by_cases hij : j = i
    · simp [hij]
    · simpa [hij] using fs.live p j hj

/-- `fopen(p, "r")` -/
def openRead (fs : FileSystem P) (p : P) : Option Handle := (fs.dir p).map fun i => ⟨i, 0⟩

/-- `fgets` -/
def gets (fs : FileSystem P) (size : Nat) (h : Handle) : Option (CStr × Handle) :=
  (fs.text h.id).bind fun s =>
    (fgets size (s.drop h.pos)).map fun r => (r.1, { h with pos := h.pos + r.1.length })

/-- A write at the position of the handle. -/
def puts (fs : FileSystem P) (h : Handle) (chunk : CStr) : Handle × FileSystem P :=
  match fs.text h.id with
  | some s => ({ h with pos := h.pos + chunk.length },
      fs.setText h.id (s.take h.pos ++ chunk ++ s.drop (h.pos + chunk.length)))
  | none => (h, fs)

/-- A write through a file opened for appending. -/
def append (fs : FileSystem P) (i : Nat) (chunk : CStr) : FileSystem P :=
  match fs.text i with
  | some s => fs.setText i (s ++ chunk)
  | none => fs

/-! ### Calls on handles -/

section Handles

variable {fs : FileSystem P} {p q : P} {i : Nat} {s : CStr}

theorem contents_setText (fs : FileSystem P) (i : Nat) (s : CStr) (q : P) :
    (fs.setText i s).contents q = if fs.dir q = some i then some s else fs.contents q := by
  rw [contents, contents, setText]
  cases hq : fs.dir q with
  | none => simp
  | some j =>
      by_cases hji : j = i
      · simp [hji]
      · simp [hji]

theorem contents_eq_none : fs.contents p = none ↔ fs.dir p = none := by
  rw [contents]
  cases hp : fs.dir p with
  | none => simp
  | some i =>
      have hlive := fs.live p i hp
      cases htext : fs.text i with
      | none => simp [htext] at hlive
      | some s => simp [htext]

theorem text_of_contents (hp : fs.dir p = some i) (hs : fs.contents p = some s) :
    fs.text i = some s := by
  rwa [contents, hp] at hs

/-- The handle reads the file `p` with text `s`, and `rest` is what it has not read. -/
structure Reads (fs : FileSystem P) (h : Handle) (p : P) (s rest : CStr) : Prop where
  file : fs.dir p = some h.id
  text : fs.contents p = some s
  rest : s.drop h.pos = rest

/-- The handle stands at the end of the file `p` with text `s`. -/
structure Writes (fs : FileSystem P) (h : Handle) (p : P) (s : CStr) : Prop where
  file : fs.dir p = some h.id
  text : fs.contents p = some s
  pos : h.pos = s.length

theorem openRead_eq (hs : fs.contents p = some s) :
    ∃ h, fs.openRead p = some h ∧ fs.Reads h p s s := by
  cases hp : fs.dir p with
  | none => simp [contents, hp] at hs
  | some i => exact ⟨⟨i, 0⟩, by rw [openRead, hp]; rfl, hp, hs, rfl⟩

theorem openRead_eq_none : fs.openRead p = none ↔ fs.contents p = none := by
  rw [openRead, Option.map_eq_none_iff, contents_eq_none]

theorem Reads.gets_eof {h : Handle} (hread : fs.Reads h p s []) (size : Nat) :
    fs.gets size h = none := by
  rw [FileSystem.gets, text_of_contents hread.file hread.text, Option.bind_some, hread.rest]
  rfl

theorem Reads.gets_line {h : Handle} {size : Nat} {line rest left : CStr}
    (hread : fs.Reads h p s rest) (hline : fgets size rest = some (line, left)) :
    ∃ h', fs.gets size h = some (line, h') ∧ fs.Reads h' p s left := by
  refine ⟨{ h with pos := h.pos + line.length }, ?_, hread.file, hread.text, ?_⟩
  · rw [FileSystem.gets, text_of_contents hread.file hread.text, Option.bind_some, hread.rest, hline]
    rfl
  · rw [← List.drop_drop, hread.rest, ← fgets_append hline, List.drop_left]

theorem Writes.puts {h : Handle} (hwrite : fs.Writes h p s) (chunk : CStr) :
    (fs.puts h chunk).2.Writes (fs.puts h chunk).1 p (s ++ chunk) := by
  have htext := text_of_contents hwrite.file hwrite.text
  have hsplit : s.take h.pos ++ chunk ++ s.drop (h.pos + chunk.length) = s ++ chunk := by
    rw [hwrite.pos, List.take_length, List.drop_eq_nil_of_le (by omega), List.append_nil]
  rw [FileSystem.puts, htext]
  simp only [hsplit]
  refine ⟨hwrite.file, ?_, ?_⟩
  · rw [contents_setText, if_pos hwrite.file]
  · simp [hwrite.pos]

theorem dir_puts (fs : FileSystem P) (h : Handle) (chunk : CStr) :
    (fs.puts h chunk).2.dir = fs.dir := by
  rw [puts]
  cases fs.text h.id <;> rfl

theorem contents_puts {h : Handle} (hp : fs.dir p = some h.id) (hq : q ≠ p) (chunk : CStr) :
    (fs.puts h chunk).2.contents q = fs.contents q := by
  rw [puts]
  cases fs.text h.id with
  | none => rfl
  | some s =>
      exact (contents_setText fs _ _ q).trans (if_neg fun h => hq (fs.dir_inj q p _ h hp))

end Handles

/-! ### Calls on names -/

variable [DecidableEq P]

/-- A new empty file under the name. -/
def create (fs : FileSystem P) (p : P) : FileSystem P where
  dir := Function.update fs.dir p (some fs.fresh)
  text := Function.update fs.text fs.fresh (some [])
  fresh := fs.fresh + 1
  dir_inj q r i hq hr := by
    have hnew : ∀ q, fs.dir q ≠ some fs.fresh := fun q h => lt_irrefl _ (fs.dir_lt q _ h)
    by_cases hqp : q = p <;> by_cases hrp : r = p
    · rw [hqp, hrp]
    · subst hqp
      simp only [Function.update_self, Option.some.injEq, Function.update_of_ne hrp] at hq hr
      exact absurd (hq ▸ hr) (hnew r)
    · subst hrp
      simp only [Function.update_self, Option.some.injEq, Function.update_of_ne hqp] at hq hr
      exact absurd (hr ▸ hq) (hnew q)
    · rw [Function.update_of_ne hqp] at hq
      rw [Function.update_of_ne hrp] at hr
      exact fs.dir_inj q r i hq hr
  dir_lt q i hq := by
    by_cases hqp : q = p
    · subst hqp
      simp only [Function.update_self, Option.some.injEq] at hq
      omega
    · rw [Function.update_of_ne hqp] at hq
      exact Nat.lt_succ_of_lt (fs.dir_lt q i hq)
  live q i hq := by
    by_cases hi : i = fs.fresh
    · simp [hi]
    · by_cases hqp : q = p
      · subst hqp
        simp only [Function.update_self, Option.some.injEq] at hq
        exact absurd hq.symm hi
      · rw [Function.update_of_ne hqp] at hq
        simpa [hi] using fs.live q i hq

/-- `fopen(p, "w")` -/
def openWrite (fs : FileSystem P) (p : P) : Handle × FileSystem P :=
  match fs.dir p with
  | some i => (⟨i, 0⟩, fs.setText i [])
  | none => (⟨fs.fresh, 0⟩, fs.create p)

/-- `fopen(p, "a")`: the number is enough, every write goes to the end. -/
def openAppend (fs : FileSystem P) (p : P) : Nat × FileSystem P :=
  match fs.dir p with
  | some i => (i, fs)
  | none => (fs.fresh, fs.create p)

def remove (fs : FileSystem P) (p : P) : FileSystem P :=
  match hp : fs.dir p with
  | none => fs
  | some i =>
    { dir := Function.update fs.dir p none
      text := Function.update fs.text i none
      fresh := fs.fresh
      dir_inj := by
        intro q r j hq hr
        by_cases hqp : q = p
        · simp [hqp] at hq
        · by_cases hrp : r = p
          · simp [hrp] at hr
          · rw [Function.update_of_ne hqp] at hq
            rw [Function.update_of_ne hrp] at hr
            exact fs.dir_inj q r j hq hr
      dir_lt := by
        intro q j hq
        by_cases hqp : q = p
        · simp [hqp] at hq
        · rw [Function.update_of_ne hqp] at hq
          exact fs.dir_lt q j hq
      live := by
        intro q j hq
        by_cases hqp : q = p
        · simp [hqp] at hq
        · rw [Function.update_of_ne hqp] at hq
          have hji : j ≠ i := fun h => hqp (fs.dir_inj q p i (h ▸ hq) hp)
          simpa [hji] using fs.live q j hq }

/-- `rename`: nothing happens when the new name is taken. -/
def rename (fs : FileSystem P) (old new : P) : FileSystem P :=
  if hnew : fs.dir new = none then
    { dir := Function.update (Function.update fs.dir new (fs.dir old)) old none
      text := fs.text
      fresh := fs.fresh
      dir_inj := by
        intro q r j hq hr
        by_cases hqo : q = old
        · simp [hqo] at hq
        · by_cases hro : r = old
          · simp [hro] at hr
          · rw [Function.update_of_ne hqo] at hq
            rw [Function.update_of_ne hro] at hr
            by_cases hqn : q = new <;> by_cases hrn : r = new
            · rw [hqn, hrn]
            · subst hqn
              rw [Function.update_self] at hq
              rw [Function.update_of_ne hrn] at hr
              exact absurd (fs.dir_inj r old j hr hq) hro
            · subst hrn
              rw [Function.update_self] at hr
              rw [Function.update_of_ne hqn] at hq
              exact absurd (fs.dir_inj q old j hq hr) hqo
            · rw [Function.update_of_ne hqn] at hq
              rw [Function.update_of_ne hrn] at hr
              exact fs.dir_inj q r j hq hr
      dir_lt := by
        intro q j hq
        by_cases hqo : q = old
        · simp [hqo] at hq
        · rw [Function.update_of_ne hqo] at hq
          by_cases hqn : q = new
          · subst hqn
            rw [Function.update_self] at hq
            exact fs.dir_lt old j hq
          · rw [Function.update_of_ne hqn] at hq
            exact fs.dir_lt q j hq
      live := by
        intro q j hq
        by_cases hqo : q = old
        · simp [hqo] at hq
        · rw [Function.update_of_ne hqo] at hq
          by_cases hqn : q = new
          · subst hqn
            rw [Function.update_self] at hq
            exact fs.live old j hq
          · rw [Function.update_of_ne hqn] at hq
            exact fs.live q j hq }
  else fs

section Names

variable {fs : FileSystem P} {p q : P} {i : Nat} {s : CStr}

theorem dir_create (fs : FileSystem P) (p q : P) :
    (fs.create p).dir q = if q = p then some fs.fresh else fs.dir q :=
  Function.update_apply fs.dir p (some fs.fresh) q

theorem contents_create (fs : FileSystem P) (p q : P) :
    (fs.create p).contents q = if q = p then some [] else fs.contents q := by
  rw [contents, dir_create]
  by_cases hqp : q = p
  · simp [hqp, create]
  · rw [if_neg hqp, if_neg hqp, contents]
    cases hq : fs.dir q with
    | none => rfl
    | some j =>
        have hj : j ≠ fs.fresh := Nat.ne_of_lt (fs.dir_lt q j hq)
        simp [create, hj]

theorem openWrite_writes (fs : FileSystem P) (p : P) :
    (fs.openWrite p).2.Writes (fs.openWrite p).1 p [] := by
  rw [openWrite]
  cases hp : fs.dir p with
  | none => exact ⟨by rw [dir_create, if_pos rfl], by rw [contents_create, if_pos rfl], rfl⟩
  | some i => exact ⟨hp, by rw [contents_setText, if_pos hp], rfl⟩

theorem dir_openWrite (hq : q ≠ p) : (fs.openWrite p).2.dir q = fs.dir q := by
  rw [openWrite]
  cases fs.dir p with
  | none => exact (dir_create fs p q).trans (if_neg hq)
  | some i => rfl

theorem contents_openWrite (hq : q ≠ p) : (fs.openWrite p).2.contents q = fs.contents q := by
  rw [openWrite]
  cases hp : fs.dir p with
  | none => exact (contents_create fs p q).trans (if_neg hq)
  | some i => exact (contents_setText fs i [] q).trans (if_neg fun h => hq (fs.dir_inj q p i h hp))

theorem dir_remove (fs : FileSystem P) (p q : P) :
    (fs.remove p).dir q = if q = p then none else fs.dir q := by
  rw [remove]
  split
  · next hp =>
      by_cases hqp : q = p
      · rw [if_pos hqp, hqp, hp]
      · rw [if_neg hqp]
  · exact Function.update_apply fs.dir p none q

theorem contents_remove (fs : FileSystem P) (p q : P) :
    (fs.remove p).contents q = if q = p then none else fs.contents q := by
  by_cases hqp : q = p
  · rw [if_pos hqp, contents_eq_none, dir_remove, if_pos hqp]
  · rw [if_neg hqp, contents, contents, dir_remove, if_neg hqp, remove]
    split
    · rfl
    · next i hp =>
        cases hq : fs.dir q with
        | none => rfl
        | some j =>
            have hji : j ≠ i := fun h => hqp (fs.dir_inj q p i (h ▸ hq) hp)
            simp [hji]

theorem contents_rename (hnew : fs.contents q = none) (hne : p ≠ q) (r : P) :
    (fs.rename p q).contents r
      = if r = p then none else if r = q then fs.contents p else fs.contents r := by
  rw [contents_eq_none] at hnew
  rw [contents, rename, dif_pos hnew]
  by_cases hrp : r = p
  · simp [hrp]
  · by_cases hrq : r = q
    · simp [hrq, hne.symm, contents]
    · simp [hrp, hrq, contents]

theorem dir_rename (hnew : fs.dir q = none) (r : P) :
    (fs.rename p q).dir r = if r = p then none else if r = q then fs.dir p else fs.dir r := by
  rw [rename, dif_pos hnew]
  by_cases hrp : r = p
  · simp [hrp]
  · by_cases hrq : r = q
    · subst hrq
      simp [hrp]
    · simp [hrp, hrq]

theorem rename_of_taken (hnew : fs.contents q ≠ none) : fs.rename p q = fs := by
  rw [rename, dif_neg]
  rwa [← contents_eq_none]

end Names

end FileSystem

end CLib
