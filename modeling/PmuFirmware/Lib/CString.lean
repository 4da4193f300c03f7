import Mathlib

/-!
# C strings

A C string is the list of its characters before the terminating NUL. The functions of `string.h`
that cut a line at a separator or copy into a fixed array are stated on these lists. Nothing here
depends on the firmware.
-/

namespace CLib

/-! ### Bounds that are not zero

Array sizes and bit fields have numerals for these bounds in all modules. -/

instance neZero_two : NeZero 2 := ⟨by decide⟩

instance neZero_three : NeZero 3 := ⟨by decide⟩

instance neZero_eight : NeZero 8 := ⟨by decide⟩

instance neZero_sixteen : NeZero 16 := ⟨by decide⟩

/-! ### Strings -/

/-- A C string, without its terminating NUL. -/
abbrev CStr := List Char

def NUL : Char := '\x00'

def newline : Char := '\n'

/-! ### Separators -/

/-- `strchr`: the text before the first `c` and the text after it. -/
def strchr (c : Char) : CStr → Option (CStr × CStr)
  | [] => none
  | x :: xs => if x = c then some ([], xs) else (strchr c xs).map fun p => (x :: p.1, p.2)

/-- `strrchr`: the text before the last `c` and the text after it. -/
def strrchr (c : Char) : CStr → Option (CStr × CStr)
  | [] => none
  | x :: xs =>
    match strrchr c xs with
    | some p => some (x :: p.1, p.2)
    | none => if x = c then some ([], xs) else none

theorem strchr_append {c : Char} {a : CStr} (ha : c ∉ a) (b : CStr) :
    strchr c (a ++ c :: b) = some (a, b) := by
  induction a with
  | nil => simp [strchr]
  | cons x a ih =>
    rw [List.mem_cons, not_or] at ha
    have hx : x ≠ c := fun h => ha.1 h.symm
    simp [strchr, hx, ih ha.2]

theorem strchr_eq_none {c : Char} {s : CStr} : strchr c s = none ↔ c ∉ s := by
  induction s with
  | nil => simp [strchr]
  | cons x s ih =>
    by_cases hx : x = c
    · simp [strchr, hx]
    · have hx' : ¬ c = x := fun h => hx h.symm
      simp [strchr, hx, hx', ih]

theorem strchr_eq_some {c : Char} {s a b : CStr} (h : strchr c s = some (a, b)) :
    s = a ++ c :: b ∧ c ∉ a := by
  induction s generalizing a with
  | nil => simp [strchr] at h
  | cons x s ih =>
    by_cases hx : x = c
    · simp only [strchr, hx, if_true, Option.some.injEq, Prod.mk.injEq] at h
      obtain ⟨rfl, rfl⟩ := h
      simp [hx]
    · simp only [strchr, hx, if_false, Option.map_eq_some_iff] at h
      obtain ⟨⟨a', b'⟩, hs, heq⟩ := h
      obtain ⟨rfl, rfl⟩ := Prod.mk.inj heq
      obtain ⟨hsplit, hnot⟩ := ih hs
      refine ⟨by rw [hsplit]; rfl, ?_⟩
      rw [List.mem_cons, not_or]
      exact ⟨fun hc => hx hc.symm, hnot⟩

theorem strrchr_eq_none {c : Char} {s : CStr} : strrchr c s = none ↔ c ∉ s := by
  induction s with
  | nil => simp [strrchr]
  | cons x s ih =>
    rw [strrchr, List.mem_cons, not_or]
    cases hs : strrchr c s with
    | some p =>
      have hmem : c ∈ s := by
        by_contra hnot
        rw [ih.mpr hnot] at hs
        cases hs
      simp [hmem]
    | none =>
      have hnot := ih.mp hs
      by_cases hx : x = c
      · simp [hx]
      · have hx' : ¬ c = x := fun h => hx h.symm
        simp [hx, hx', hnot]

theorem strrchr_append {c : Char} {b : CStr} (hb : c ∉ b) (a : CStr) :
    strrchr c (a ++ c :: b) = some (a, b) := by
  induction a with
  | nil => simp [strrchr, strrchr_eq_none.mpr hb]
  | cons x a ih => simp [strrchr, ih]

theorem strrchr_eq_some {c : Char} {s a b : CStr} (h : strrchr c s = some (a, b)) :
    s = a ++ c :: b ∧ c ∉ b := by
  induction s generalizing a with
  | nil => simp [strrchr] at h
  | cons x s ih =>
    rw [strrchr] at h
    cases hs : strrchr c s with
    | some p =>
      obtain ⟨a', b'⟩ := p
      rw [hs] at h
      obtain ⟨rfl, rfl⟩ := Prod.mk.inj (Option.some.inj h)
      obtain ⟨hsplit, hnot⟩ := ih hs
      exact ⟨by rw [hsplit]; rfl, hnot⟩
    | none =>
      rw [hs] at h
      by_cases hx : x = c
      · simp only [hx, if_true, Option.some.injEq, Prod.mk.injEq] at h
        obtain ⟨rfl, rfl⟩ := h
        exact ⟨by simp [hx], strrchr_eq_none.mp hs⟩
      · simp [hx] at h

/-! ### Searching and cutting -/

/-- `strstr(hay, needle) != NULL`. -/
def strstr (hay needle : CStr) : Bool := decide (needle <:+: hay)

/-- `s[strcspn(s, stops)] = 0`: what the C string `s` holds afterwards. -/
def cutAt (stop : Char → Bool) (s : CStr) : CStr := s.takeWhile fun c => !stop c && c != NUL

theorem cutAt_append_stop {stop : Char → Bool} {line : CStr} {c : Char}
    (hline : ∀ x ∈ line, stop x = false ∧ x ≠ NUL) (hc : stop c = true) (rest : CStr) :
    cutAt stop (line ++ c :: rest) = line := by
  induction line with
  | nil => simp [cutAt, hc]
  | cons x line ih =>
    have hx := hline x (by simp)
    have ih' := ih fun y hy => hline y (by simp [hy])
    rw [cutAt] at ih' ⊢
    rw [List.cons_append, List.takeWhile_cons, ih']
    simp [hx]

theorem cutAt_eq_self {stop : Char → Bool} {line : CStr}
    (hline : ∀ x ∈ line, stop x = false ∧ x ≠ NUL) : cutAt stop line = line := by
  rw [cutAt, List.takeWhile_eq_self_iff]
  intro x hx
  simp [hline x hx]

/-! ### Tokens -/

/-- `strtok` with one separator, called until it returns `NULL`, from inside the token `token`: the
tokens, and what the calls leave in the array. -/
def strtokAll (sep : Char) (token : CStr) : CStr → List CStr × CStr
  | [] => (if token = [] then [] else [token], [])
  | c :: cs =>
    if c = sep then
      let r := strtokAll sep [] cs
      if token = [] then (r.1, c :: r.2) else (token :: r.1, NUL :: r.2)
    else
      let r := strtokAll sep (token ++ [c]) cs
      (r.1, c :: r.2)

/-- The parts between the separators that are not empty. -/
def parts (sep : Char) (s : CStr) : List CStr := (s.splitOn sep).filter (· ≠ [])

theorem strtokAll_eq {sep : Char} (s : CStr) {token : CStr} (htoken : sep ∉ token) :
    (strtokAll sep token s).1 = parts sep (token ++ s) := by
  induction s generalizing token with
  | nil =>
    rw [List.append_nil, strtokAll, parts, List.splitOn_eq_singleton htoken]
    by_cases hempty : token = [] <;> simp [hempty]
  | cons c s ih =>
    by_cases hc : c = sep
    · have hrest : (strtokAll sep [] s).1 = parts sep s := ih List.not_mem_nil
      rw [parts, hc, List.splitOn_append_cons_self_of_not_mem htoken, strtokAll, if_pos rfl]
      by_cases hempty : token = []
      · rw [if_pos hempty, hrest, List.filter_cons_of_neg (by simpa using hempty), ← parts]
      · rw [if_neg hempty, hrest, List.filter_cons_of_pos (by simpa using hempty), ← parts]
    · have htoken' : sep ∉ token ++ [c] := by
        rw [List.mem_append, List.mem_singleton, not_or]
        exact ⟨htoken, fun h => hc h.symm⟩
      rw [strtokAll, if_neg hc]
      dsimp only
      rw [ih htoken', List.append_assoc, List.singleton_append]

/-- A part in front of a separator. -/
theorem parts_append_cons {sep : Char} {a : CStr} (ha : sep ∉ a) (b : CStr) :
    parts sep (a ++ sep :: b) = (if a = [] then [] else [a]) ++ parts sep b := by
  rw [parts, List.splitOn_append_cons_self_of_not_mem ha, parts]
  by_cases hempty : a = [] <;> simp [hempty]

theorem parts_eq_singleton {sep : Char} {s : CStr} (hs : sep ∉ s) (hne : s ≠ []) :
    parts sep s = [s] := by
  rw [parts, List.splitOn_eq_singleton hs]
  simp [hne]

theorem parts_intercalate {sep : Char} {fields : List CStr} (hfields : ∀ x ∈ fields, sep ∉ x)
    (hne : fields ≠ []) : parts sep ([sep].intercalate fields) = fields.filter (· ≠ []) := by
  rw [parts, List.splitOn_intercalate sep hfields hne]

theorem of_mem_strtokAll {sep : Char} {s token : CStr} (htoken : sep ∉ token) :
    ∀ x ∈ (strtokAll sep token s).1, sep ∉ x ∧ x ≠ [] := by
  induction s generalizing token with
  | nil =>
    intro x hx
    rw [strtokAll] at hx
    by_cases hempty : token = []
    · simp [hempty] at hx
    · rw [if_neg hempty, List.mem_singleton] at hx
      exact hx ▸ ⟨htoken, hempty⟩
  | cons c s ih =>
    intro x hx
    rw [strtokAll] at hx
    split_ifs at hx with hc hempty
    · exact ih List.not_mem_nil x hx
    · rcases List.mem_cons.mp hx with rfl | hx
      · exact ⟨htoken, hempty⟩
      · exact ih List.not_mem_nil x hx
    · refine ih ?_ x hx
      rw [List.mem_append, List.mem_singleton, not_or]
      exact ⟨htoken, fun h => hc h.symm⟩

/-- A part has no separator in it and is not empty. -/
theorem of_mem_parts {sep : Char} {s x : CStr} (hx : x ∈ parts sep s) : sep ∉ x ∧ x ≠ [] :=
  of_mem_strtokAll List.not_mem_nil x (strtokAll_eq s List.not_mem_nil ▸ hx)

theorem strtokAll_eq_nil_iff {sep : Char} {s token : CStr} :
    (strtokAll sep token s).1 = [] ↔ token = [] ∧ ∀ c ∈ s, c = sep := by
  induction s generalizing token with
  | nil => by_cases hempty : token = [] <;> simp [strtokAll, hempty]
  | cons c s ih =>
    rw [strtokAll]
    split_ifs with hc hempty
    · simp [ih, hc, hempty]
    · simp [hempty]
    · simp [ih, hc]

/-- Only separators have no parts. -/
theorem parts_eq_nil_iff {sep : Char} {s : CStr} : parts sep s = [] ↔ ∀ c ∈ s, c = sep := by
  have htokens := strtokAll_eq s (List.not_mem_nil (a := sep))
  rw [List.nil_append] at htokens
  rw [← htokens, strtokAll_eq_nil_iff, and_iff_right rfl]

/-- Zeros are only written over separators. -/
theorem length_strtokAll {sep : Char} (s : CStr) {token : CStr} :
    (strtokAll sep token s).2.length = s.length := by
  induction s generalizing token with
  | nil => rfl
  | cons c s ih =>
    rw [strtokAll]
    split_ifs
    · rw [List.length_cons, ih, List.length_cons]
    · rw [List.length_cons, ih, List.length_cons]
    · rw [List.length_cons, ih, List.length_cons]

/-- The tokens have no characters but those of the string. -/
theorem notMem_of_mem_strtokAll {sep x : Char} {s : CStr} (hs : x ∉ s) {token : CStr}
    (htoken : x ∉ token) : ∀ t ∈ (strtokAll sep token s).1, x ∉ t := by
  induction s generalizing token with
  | nil =>
    intro t ht
    rw [strtokAll] at ht
    split at ht
    · cases ht
    · exact List.mem_singleton.mp ht ▸ htoken
  | cons c s ih =>
    rw [List.mem_cons, not_or] at hs
    intro t ht
    rw [strtokAll] at ht
    split_ifs at ht
    · exact ih hs.2 List.not_mem_nil t ht
    · rcases List.mem_cons.mp ht with rfl | ht
      · exact htoken
      · exact ih hs.2 List.not_mem_nil t ht
    · refine ih hs.2 ?_ t ht
      rw [List.mem_append, List.mem_singleton, not_or]
      exact ⟨htoken, hs.1⟩

/-! ### Character arrays -/

/-- A character array of `n` bytes. -/
abbrev CharArray (n : Nat) := Fin n → Char

/-- The C string of an array that has a NUL: its bytes before the first one. Of another array it is all
bytes, where a C program reads on behind them. -/
def CharArray.cstr {n : Nat} (a : CharArray n) : CStr := (List.ofFn a).takeWhile (· != NUL)

/-- `strncpy(dst, src, n - 1); dst[n - 1] = 0` into an array of `n` bytes. -/
def strncpyArray (n : Nat) (src : CStr) : CharArray n :=
  fun k => if k.val + 1 < n then src.getD k.val NUL else NUL

/-- A NUL lies within the array. -/
def CharArray.Terminated {n : Nat} (a : CharArray n) : Prop := ∃ k, a k = NUL

instance CharArray.decidableTerminated {n : Nat} (a : CharArray n) : Decidable a.Terminated :=
  inferInstanceAs (Decidable (∃ k, a k = NUL))

theorem length_cstr_lt {n : Nat} {a : CharArray n} (ha : a.Terminated) : a.cstr.length < n := by
  obtain ⟨k, hk⟩ := ha
  by_contra hlong
  have hall : a.cstr = List.ofFn a := by
    refine (List.takeWhile_prefix _).eq_of_length_le ?_
    rw [List.length_ofFn]
    exact Nat.not_lt.mp hlong
  have hmem : NUL ∈ a.cstr := by
    rw [hall, ← hk]
    exact List.mem_ofFn.mpr ⟨k, rfl⟩
  exact absurd (List.mem_takeWhile_imp hmem) (by simp)

theorem terminated_strncpyArray (n : Nat) (src : CStr) :
    (strncpyArray (n + 1) src).Terminated :=
  ⟨Fin.last n, if_neg (Nat.lt_irrefl (n + 1))⟩

theorem takeWhile_ne_nul_of_padded (src : CStr) (hsrc : NUL ∉ src) :
    ∀ n, ((List.range n).map fun k => src.getD k NUL).takeWhile (· != NUL) = src.take n := by
  induction src with
  | nil =>
    intro n
    cases n with
    | zero => rfl
    | succ n => simp [List.range_succ_eq_map]
  | cons c src ih =>
    intro n
    rw [List.mem_cons, not_or] at hsrc
    cases n with
    | zero => rfl
    | succ n =>
      have hc : (c != NUL) = true := by simpa using fun h : c = NUL => hsrc.1 h.symm
      have htail := ih hsrc.2 n
      rw [List.range_succ_eq_map, List.map_cons, List.getD_cons_zero, List.map_map,
        List.takeWhile_cons_of_pos (p := (· != NUL)) hc, List.take_succ_cons]
      exact congrArg (c :: ·) htail

/-- A terminated copy holds the source cut to the array's size. -/
theorem cstr_strncpyArray {n : Nat} {src : CStr} (hsrc : NUL ∉ src) :
    (strncpyArray (n + 1) src).cstr = src.take n := by
  have hlist : List.ofFn (strncpyArray (n + 1) src)
      = ((List.range n).map fun k => src.getD k NUL) ++ [NUL] := by
    apply List.ext_getElem
    · simp
    · intro k hk _
      simp only [List.length_ofFn] at hk
      rw [List.getElem_ofFn, List.getElem_append]
      by_cases hlt : k < n
      · simp [strncpyArray, hlt]
      · simp [strncpyArray, hlt]
  have hlast : ([NUL] : CStr).takeWhile (· != NUL) = [] := by simp
  rw [CharArray.cstr, hlist]
  by_cases hall : ∀ x ∈ (List.range n).map fun k => src.getD k NUL, (x != NUL) = true
  · rw [List.takeWhile_append_of_pos hall, hlast, List.append_nil,
      ← takeWhile_ne_nul_of_padded src hsrc n, List.takeWhile_eq_self_iff.mpr hall]
  · rw [List.takeWhile_append, if_neg, takeWhile_ne_nul_of_padded src hsrc n]
    intro hlen
    exact hall (List.takeWhile_eq_self_iff.mp
      ((List.takeWhile_prefix _).eq_of_length hlen))

end CLib
