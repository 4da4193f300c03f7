import PmuFirmware.Lib.CString

/-!
# Text files read line by line

`fgets` fills a buffer of fixed size: it stops after a newline or when the buffer is full, so a line
that does not fit is handed out in pieces. `readLines` is the loop `while (fgets(...) != NULL)`.
What a caller needs is `readLines_unlines`: a file of lines that fit is read back line by line.
-/

namespace CLib

/-- At most `room` characters of `s`, up to and including the first newline, and what is left. -/
def readLine : Nat → CStr → CStr × CStr
  | 0, s => ([], s)
  | _ + 1, [] => ([], [])
  | room + 1, c :: s =>
    if c = newline then ([c], s) else (c :: (readLine room s).1, (readLine room s).2)

/-- `fgets` into a buffer of `size` bytes: `none` at the end of the file. -/
def fgets (size : Nat) (s : CStr) : Option (CStr × CStr) :=
  if s = [] then none else some (readLine (size - 1) s)

def readLinesFuel (size : Nat) : Nat → CStr → List CStr
  | 0, _ => []
  | fuel + 1, s =>
    match fgets size s with
    | none => []
    | some (line, rest) => line :: readLinesFuel size fuel rest

/-- The buffers that `while (fgets(line, size, file) != NULL)` sees on a file holding `s`. -/
def readLines (size : Nat) (s : CStr) : List CStr := readLinesFuel size s.length s

/-- The text of a file of newline-terminated lines. -/
def unlines (lines : List CStr) : CStr := lines.flatMap (· ++ [newline])

/-- The number of newline-terminated lines of a file. -/
def lineCount (s : CStr) : Nat := s.count newline

@[simp] theorem unlines_nil : unlines [] = [] := rfl

@[simp] theorem unlines_cons (line : CStr) (lines : List CStr) :
    unlines (line :: lines) = line ++ newline :: unlines lines := by
  simp [unlines]

@[simp] theorem unlines_append (left right : List CStr) :
    unlines (left ++ right) = unlines left ++ unlines right := by
  simp [unlines]

theorem unlines_eq_nil {lines : List CStr} : unlines lines = [] ↔ lines = [] := by
  cases lines <;> simp

theorem unlines_injective {lines others : List CStr} (hlines : ∀ line ∈ lines, newline ∉ line)
    (hothers : ∀ line ∈ others, newline ∉ line) (h : unlines lines = unlines others) :
    lines = others := by
  induction lines generalizing others with
  | nil =>
    rw [unlines_nil, eq_comm, unlines_eq_nil] at h
    exact h.symm
  | cons line lines ih =>
    cases others with
    | nil => simp at h
    | cons other others =>
      rw [unlines_cons, unlines_cons] at h
      have hsame := congrArg (strchr newline) h
      rw [strchr_append (hlines line (by simp)), strchr_append (hothers other (by simp)),
        Option.some.injEq, Prod.mk.injEq] at hsame
      obtain ⟨rfl, hrest⟩ := hsame
      rw [ih (fun l hl => hlines l (by simp [hl])) (fun l hl => hothers l (by simp [hl])) hrest]

theorem lineCount_unlines {lines : List CStr} (hlines : ∀ line ∈ lines, newline ∉ line) :
    lineCount (unlines lines) = lines.length := by
  induction lines with
  | nil => rfl
  | cons line lines ih =>
    have hline := List.count_eq_zero.mpr (hlines line (by simp))
    have htail := ih fun l hl => hlines l (by simp [hl])
    rw [lineCount] at htail ⊢
    rw [unlines_cons, List.count_append, List.count_cons_self, hline, htail]
    simp

/-! ### The read loop -/

theorem readLine_rest_lt (room : Nat) (c : Char) (s : CStr) :
    (readLine (room + 1) (c :: s)).2.length ≤ s.length := by
  induction room generalizing c s with
  | zero =>
    rw [readLine]
    split <;> simp [readLine]
  | succ room ih =>
    rw [readLine]
    split
    · simp
    · cases s with
      | nil => simp [readLine]
      | cons d s => exact Nat.le_succ_of_le (ih d s)

/-- What is read and what is left make up the text. -/
theorem readLine_append (room : Nat) (s : CStr) : (readLine room s).1 ++ (readLine room s).2 = s := by
  induction room generalizing s with
  | zero => rfl
  | succ room ih =>
    cases s with
    | nil => rfl
    | cons c s =>
      rw [readLine]
      split
      · rfl
      · rw [List.cons_append, ih]

theorem readLine_length_le (room : Nat) (s : CStr) : (readLine room s).1.length ≤ room := by
  induction room generalizing s with
  | zero => exact le_rfl
  | succ room ih =>
    cases s with
    | nil => exact Nat.zero_le _
    | cons c s =>
      rw [readLine]
      split
      · simp
      · exact Nat.succ_le_succ (ih s)

theorem fgets_append {size : Nat} {s line rest : CStr} (h : fgets size s = some (line, rest)) :
    line ++ rest = s := by
  rw [fgets] at h
  split at h
  · cases h
  · rw [← readLine_append (size - 1) s, Option.some.inj h]

theorem fgets_eq_none {size : Nat} {s : CStr} : fgets size s = none ↔ s = [] := by
  rw [fgets]
  split <;> simp_all

theorem readLinesFuel_eq_of_le {size : Nat} (hsize : 2 ≤ size) :
    ∀ (fuel : Nat) (s : CStr), s.length ≤ fuel →
      readLinesFuel size fuel s = readLinesFuel size s.length s := by
  intro fuel
  induction fuel using Nat.strong_induction_on with
  | _ fuel ih =>
    intro s hlen
    cases s with
    | nil => cases fuel <;> simp [readLinesFuel, fgets]
    | cons c s =>
      obtain ⟨fuel, rfl⟩ : ∃ k, fuel = k + 1 := ⟨fuel - 1, by simp at hlen; omega⟩
      obtain ⟨room, hroom⟩ : ∃ k, size - 1 = k + 1 := ⟨size - 2, by omega⟩
      have hrest := readLine_rest_lt room c s
      simp only [List.length_cons] at hlen ⊢
      simp only [readLinesFuel, fgets, reduceCtorEq, if_false, hroom]
      rw [ih fuel (by omega) _ (by omega), ← ih s.length (by omega) _ hrest]

/-- The fuel is never what stops the loop: each `fgets` consumes at least one character. -/
theorem readLines_eq {size : Nat} (hsize : 2 ≤ size) (s : CStr) :
    readLines size s =
      match fgets size s with
      | none => []
      | some (line, rest) => line :: readLines size rest := by
  cases s with
  | nil => simp [readLines, readLinesFuel, fgets]
  | cons c s =>
    obtain ⟨room, hroom⟩ : ∃ k, size - 1 = k + 1 := ⟨size - 2, by omega⟩
    have hrest := readLine_rest_lt room c s
    simp only [readLines, List.length_cons, readLinesFuel, fgets, reduceCtorEq, if_false, hroom]
    rw [readLinesFuel_eq_of_le hsize s.length _ hrest]

theorem length_lt_of_mem_readLines {size : Nat} (hsize : 1 ≤ size) {s buffer : CStr}
    (hbuffer : buffer ∈ readLines size s) : buffer.length < size := by
  have hfuel : ∀ (fuel : Nat) (s : CStr), buffer ∈ readLinesFuel size fuel s →
      buffer.length < size := by
    intro fuel
    induction fuel with
    | zero =>
      intro s h
      cases h
    | succ fuel ih =>
      intro s h
      rw [readLinesFuel] at h
      cases hget : fgets size s with
      | none =>
        rw [hget] at h
        cases h
      | some r =>
        rw [hget] at h
        rcases List.mem_cons.mp h with rfl | h
        · rw [fgets] at hget
          split at hget
          · cases hget
          · have hle := readLine_length_le (size - 1) s
            rw [Option.some.inj hget] at hle
            omega
        · exact ih r.2 h
  exact hfuel s.length s hbuffer

theorem readLine_of_fits {room : Nat} {line : CStr} (hline : newline ∉ line)
    (hroom : line.length < room) (rest : CStr) :
    readLine room (line ++ newline :: rest) = (line ++ [newline], rest) := by
  induction line generalizing room with
  | nil =>
    obtain ⟨room, rfl⟩ : ∃ k, room = k + 1 := ⟨room - 1, by simp at hroom; omega⟩
    simp [readLine]
  | cons c line ih =>
    rw [List.mem_cons, not_or] at hline
    simp only [List.length_cons] at hroom
    obtain ⟨room, rfl⟩ : ∃ k, room = k + 1 := ⟨room - 1, by omega⟩
    have hc : c ≠ newline := fun h => hline.1 h.symm
    simp [readLine, hc, ih hline.2 (Nat.lt_of_succ_lt_succ hroom)]

/-- A line without newline that is longer than the room is cut at the room. -/
theorem readLine_of_long {room : Nat} {line : CStr} (hline : newline ∉ line)
    (hroom : room ≤ line.length) (rest : CStr) :
    readLine room (line ++ rest) = (line.take room, line.drop room ++ rest) := by
  induction line generalizing room with
  | nil =>
    obtain rfl : room = 0 := by simpa using hroom
    simp [readLine]
  | cons c line ih =>
    rw [List.mem_cons, not_or] at hline
    have hc : c ≠ newline := fun h => hline.1 h.symm
    cases room with
    | zero => simp [readLine]
    | succ room =>
      simp only [List.length_cons] at hroom
      simp [readLine, hc, ih hline.2 (Nat.le_of_succ_le_succ hroom)]

theorem fgets_line {size : Nat} {line : CStr} (hline : newline ∉ line)
    (hfits : line.length + 2 ≤ size) (rest : CStr) :
    fgets size (line ++ newline :: rest) = some (line ++ [newline], rest) := by
  rw [fgets, if_neg (by simp), readLine_of_fits hline (by omega)]

/-- A line fits a buffer when it fits together with its newline and the terminating NUL. -/
def Fits (size : Nat) (line : CStr) : Prop := newline ∉ line ∧ line.length + 2 ≤ size

theorem readLines_cons {size : Nat} {line : CStr} (hfits : Fits size line) (rest : CStr) :
    readLines size (line ++ newline :: rest) = (line ++ [newline]) :: readLines size rest := by
  have hsize := hfits.2
  rw [readLines_eq (by omega), fgets_line hfits.1 hfits.2]

/-- A file of lines that fit the buffer is read back line by line. -/
theorem readLines_unlines {size : Nat} {lines : List CStr} (hfits : ∀ line ∈ lines, Fits size line) :
    readLines size (unlines lines) = lines.map (· ++ [newline]) := by
  induction lines with
  | nil => rfl
  | cons line lines ih =>
    rw [unlines_cons, readLines_cons (hfits line (by simp)),
      ih fun l hl => hfits l (by simp [hl]), List.map_cons]

/-- The lines of a text, the last of which may lack its newline. -/
def LinesOf (lines : List CStr) (text : CStr) : Prop :=
  text = unlines lines
    ∨ ∃ init last, lines = init ++ [last] ∧ last ≠ [] ∧ text = unlines init ++ last

theorem readLine_of_short {room : Nat} {line : CStr} (hline : newline ∉ line)
    (hroom : line.length ≤ room) : readLine room line = (line, []) := by
  induction line generalizing room with
  | nil => cases room <;> rfl
  | cons c line ih =>
    rw [List.mem_cons, not_or] at hline
    rw [List.length_cons] at hroom
    obtain ⟨room, rfl⟩ : ∃ k, room = k + 1 := ⟨room - 1, by omega⟩
    rw [readLine, if_neg (Ne.symm hline.1), ih hline.2 (Nat.le_of_succ_le_succ hroom)]

/-- With or without the last newline, each line is read into a buffer of its own. -/
theorem readLines_linesOf {size : Nat} {lines : List CStr} {text : CStr} (h : LinesOf lines text)
    (hfits : ∀ line ∈ lines, Fits size line) :
    List.Forall₂ (fun line buffer => buffer = line ++ [newline] ∨ buffer = line) lines
      (readLines size text) := by
  have hlines : ∀ lines : List CStr,
      List.Forall₂ (fun line buffer => buffer = line ++ [newline] ∨ buffer = line) lines
        (lines.map (· ++ [newline])) := by
    intro lines
    rw [List.forall₂_map_right_iff, List.forall₂_same]
    exact fun _ _ => .inl rfl
  rcases h with rfl | ⟨init, last, rfl, hne, rfl⟩
  · rw [readLines_unlines hfits]
    exact hlines lines
  · obtain ⟨hclean, hlength⟩ := hfits last (by simp)
    have hlast : readLines size last = [last] := by
      rw [readLines_eq (by omega), fgets, if_neg hne, readLine_of_short hclean (by omega)]
      rfl
    have hread : readLines size (unlines init ++ last) = init.map (· ++ [newline]) ++ [last] := by
      have hinit : ∀ line ∈ init, Fits size line := fun line hline => hfits line (by simp [hline])
      clear hfits
      induction init with
      | nil => exact hlast
      | cons line init ih =>
        rw [unlines_cons, List.append_assoc, List.cons_append,
          readLines_cons (hinit line (by simp)), ih fun l hl => hinit l (by simp [hl])]
        rfl
    rw [hread]
    exact List.rel_append (hlines init) (.cons (.inr rfl) .nil)

/-- A line that just fills the buffer is read without its newline, which is read next. -/
theorem readLines_full {size : Nat} {line : CStr} (hsize : 2 ≤ size) (hline : newline ∉ line)
    (hlength : line.length + 1 = size) (rest : CStr) :
    readLines size (line ++ newline :: rest) = line :: [newline] :: readLines size rest := by
  have hempty : Fits size [] := ⟨by simp, hsize⟩
  have hread : fgets size (line ++ newline :: rest) = some (line, newline :: rest) := by
    rw [fgets, if_neg (by simp), readLine_of_long hline (by omega)]
    simp [← hlength]
  rw [readLines_eq hsize, hread]
  exact congrArg _ (readLines_cons hempty rest)

/-- A line without newline is read without looking at what is behind it. -/
theorem readLines_append_line {size : Nat} (hsize : 2 ≤ size) {line : CStr} (hline : newline ∉ line)
    (rest : CStr) :
    readLines size (line ++ newline :: rest)
      = readLines size (line ++ [newline]) ++ readLines size rest := by
  induction hlength : line.length using Nat.strong_induction_on generalizing line with
  | _ n ih =>
    have hnil : readLines size [] = [] := rfl
    by_cases hfits : line.length + 2 ≤ size
    · rw [readLines_cons ⟨hline, hfits⟩, readLines_cons ⟨hline, hfits⟩, hnil]
      rfl
    · have hlong : size - 1 ≤ line.length := by omega
      have hread : ∀ rest : CStr, readLines size (line ++ newline :: rest)
          = line.take (size - 1) :: readLines size (line.drop (size - 1) ++ newline :: rest) := by
        intro rest
        rw [readLines_eq hsize, fgets, if_neg (by simp), readLine_of_long hline hlong]
      rw [hread, hread, ih (line.drop (size - 1)).length (by simp; omega)
        (fun h => hline (List.mem_of_mem_drop h)) rfl]
      rfl

/-- Where no part is longer than its counterpart, equal lists have equal parts. -/
theorem flatMap_inj_of_length_le {α β : Type} {f g : α → List β} {l : List α}
    (hle : ∀ a ∈ l, (g a).length ≤ (f a).length) (h : l.flatMap f = l.flatMap g) :
    ∀ a ∈ l, f a = g a := by
  induction l with
  | nil => simp
  | cons a l ih =>
    have htail : ∀ b ∈ l, (g b).length ≤ (f b).length := fun b hb => hle b (by simp [hb])
    have hrest : (l.flatMap g).length ≤ (l.flatMap f).length := by
      rw [List.length_flatMap, List.length_flatMap]
      exact List.sum_le_sum htail
    rw [List.flatMap_cons, List.flatMap_cons] at h
    have hlengths := congrArg List.length h
    rw [List.length_append, List.length_append] at hlengths
    have hfirst := hle a (by simp)
    obtain ⟨hhead, hsame⟩ := List.append_inj h (by omega)
    intro b hb
    rcases List.mem_cons.mp hb with rfl | hb
    · exact hhead
    · exact ih htail hsame b hb

/-! ### Parts of a file -/

theorem infix_of_mem_readLines {size : Nat} {s buffer : CStr} (hbuffer : buffer ∈ readLines size s) :
    buffer <:+: s := by
  have hfuel : ∀ (fuel : Nat) (s : CStr), buffer ∈ readLinesFuel size fuel s → buffer <:+: s := by
    intro fuel
    induction fuel with
    | zero =>
        intro s h
        cases h
    | succ fuel ih =>
        intro s h
        rw [readLinesFuel] at h
        split at h
        · cases h
        · rename_i line rest hget
          rw [← fgets_append hget]
          rcases List.mem_cons.mp h with rfl | hrest
          · exact (List.prefix_append buffer rest).isInfix
          · exact (ih rest hrest).trans (List.suffix_append line rest).isInfix
  exact hfuel s.length s hbuffer

/-- A part without newlines does not reach from one line into the next. -/
theorem infix_append_newline {w a b : CStr} (hw : newline ∉ w) (h : w <:+: a ++ newline :: b) :
    w <:+: a ∨ w <:+: b := by
  obtain ⟨x, y, hxy⟩ := h
  rw [List.append_assoc, List.append_eq_append_iff] at hxy
  rcases hxy with ⟨c, rfl, hc⟩ | ⟨c, rfl, hc⟩
  · rw [List.append_eq_append_iff] at hc
    rcases hc with ⟨d, rfl, -⟩ | ⟨d, rfl, hd⟩
    · exact .inl ⟨x, d, List.append_assoc x w d⟩
    · cases d with
      | nil =>
          rw [List.append_nil]
          exact .inl (List.suffix_append x c).isInfix
      | cons e d =>
          obtain rfl : newline = e := (List.cons.inj hd).1
          simp at hw
  · cases c with
    | nil =>
        cases w with
        | nil => exact .inr (List.nil_infix)
        | cons e w =>
            obtain rfl : newline = e := (List.cons.inj hc).1
            simp at hw
    | cons e c =>
        obtain rfl := (List.cons.inj hc).2
        exact .inr ⟨c, y, List.append_assoc c w y⟩

theorem infix_unlines {w : CStr} (hw : newline ∉ w) {lines : List CStr}
    (h : w <:+: unlines lines) : w = [] ∨ ∃ line ∈ lines, w <:+: line := by
  induction lines with
  | nil => exact .inl (List.infix_nil.mp h)
  | cons line lines ih =>
      rw [unlines_cons] at h
      rcases infix_append_newline hw h with hline | hrest
      · exact .inr ⟨line, List.mem_cons_self, hline⟩
      · refine (ih hrest).imp id fun ⟨other, hother, hpart⟩ => ?_
        exact ⟨other, List.mem_cons_of_mem line hother, hpart⟩

end CLib
