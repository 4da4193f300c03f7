import PmuFirmware.Lib.CString

/-!
# Copying into character arrays

`strncpy` writes as many bytes as it is told to: those of the source up to its first NUL, and zeros
from there on. A write outside the destination has no result, and neither has a read past the bytes of
the source.
-/

namespace CLib

variable {n : Nat}

/-- `a[i] = c` -/
def writeArray (a : CharArray n) (i : Nat) (c : Char) : Option (CharArray n) :=
  if h : i < n then some (Function.update a ⟨i, h⟩ c) else none

def fillNul (dst : CharArray n) (i : Nat) : Nat → Option (CharArray n)
  | 0 => some dst
  | count + 1 => (writeArray dst i NUL).bind fun dst => fillNul dst (i + 1) count

/-- `strncpy(dst + i, src, count)` -/
def strncpyFrom (dst : CharArray n) (i : Nat) : CStr → Nat → Option (CharArray n)
  | _, 0 => some dst
  | [], _ + 1 => none
  | c :: src, count + 1 =>
    (writeArray dst i c).bind fun dst =>
      if c = NUL then fillNul dst (i + 1) count else strncpyFrom dst (i + 1) src count

def strncpy (dst : CharArray n) (src : CStr) (count : Nat) : Option (CharArray n) :=
  strncpyFrom dst 0 src count

/-- The `count` bytes from `i` on are those of `f`. -/
def overlay (dst : CharArray n) (i count : Nat) (f : Nat → Char) : CharArray n := fun k =>
  if i ≤ k.val ∧ k.val < i + count then f (k.val - i) else dst k

/-- The byte `k` of a source that is padded with zeros. -/
def padded (src : CStr) (k : Nat) : Char := (src.takeWhile (· != NUL)).getD k NUL

theorem writeArray_eq {a : CharArray n} {i : Nat} (hi : i < n) (c : Char) :
    writeArray a i c = some (overlay a i 1 fun _ => c) := by
  rw [writeArray, dif_pos hi, Option.some.injEq]
  funext k
  by_cases hk : k = ⟨i, hi⟩
  · rw [hk, Function.update_self, overlay, if_pos ⟨le_rfl, Nat.lt_succ_self i⟩]
  · rw [Function.update_of_ne hk, overlay, if_neg]
    intro h
    exact hk (Fin.ext (by simpa using by omega))

theorem writeArray_eq_none {a : CharArray n} {i : Nat} (hi : n ≤ i) (c : Char) :
    writeArray a i c = none :=
  dif_neg (Nat.not_lt.mpr hi)

@[simp] theorem overlay_zero (dst : CharArray n) (i : Nat) (f : Nat → Char) :
    overlay dst i 0 f = dst := by
  funext k
  exact if_neg (by omega)

/-- A byte and those after it. -/
theorem overlay_overlay (dst : CharArray n) (i count : Nat) (f g : Nat → Char) :
    overlay (overlay dst i 1 f) (i + 1) count g
      = overlay dst i (count + 1) fun k => if k = 0 then f 0 else g (k - 1) := by
  funext k
  simp only [overlay]
  by_cases hafter : i + 1 ≤ k.val ∧ k.val < i + 1 + count
  · rw [if_pos hafter, if_pos (by omega), if_neg (by omega)]
    congr 1
  · rw [if_neg hafter]
    by_cases hfirst : k.val = i
    · rw [if_pos (by omega), if_pos (by omega), if_pos (by omega)]
      congr 1
      omega
    · rw [if_neg (by omega), if_neg (by omega)]

theorem fillNul_eq {dst : CharArray n} {i count : Nat} (hroom : i + count ≤ n) :
    fillNul dst i count = some (overlay dst i count fun _ => NUL) := by
  induction count generalizing dst i with
  | zero => rw [fillNul, overlay_zero]
  | succ count ih =>
      rw [fillNul, writeArray_eq (by omega), Option.bind_some, ih (by omega), overlay_overlay]
      simp

/-- The source has `count` bytes, or ends before. -/
def Readable (src : CStr) (count : Nat) : Prop := count ≤ src.length ∨ NUL ∈ src

theorem strncpyFrom_eq {dst : CharArray n} {src : CStr} {i count : Nat} (hroom : i + count ≤ n)
    (hsrc : Readable src count) :
    strncpyFrom dst i src count = some (overlay dst i count (padded src)) := by
  induction count generalizing dst src i with
  | zero => rw [strncpyFrom, overlay_zero]
  | succ count ih =>
      cases src with
      | nil =>
          rcases hsrc with hlength | hnul
          · exact absurd hlength (by simp)
          · cases hnul
      | cons c src =>
          rw [strncpyFrom, writeArray_eq (by omega), Option.bind_some]
          by_cases hc : c = NUL
          · rw [if_pos hc, fillNul_eq (by omega), overlay_overlay]
            congr 2
            funext k
            simp [padded, hc]
          · have hrest : Readable src count := by
              rcases hsrc with hlength | hnul
              · exact .inl (by simpa using hlength)
              · exact .inr ((List.mem_cons.mp hnul).resolve_left fun h => hc h.symm)
            rw [if_neg hc, ih (by omega) hrest, overlay_overlay]
            congr 2
            funext k
            cases k <;> simp [padded, hc]

/-- A byte of the source is padded over when a NUL is before it. -/
theorem padded_eq (src : CStr) (k : Nat) :
    padded src k = if NUL ∈ src.take k then NUL else src.getD k NUL := by
  induction src generalizing k with
  | nil => simp [padded]
  | cons c src ih =>
      by_cases hc : c = NUL
      · cases k <;> simp [padded, hc]
      · cases k with
        | zero => simp [padded, hc]
        | succ k =>
            have hne : ¬ NUL = c := fun h => hc h.symm
            have hrest := ih k
            simp only [padded, List.getD_eq_getElem?_getD] at hrest
            simp [padded, hc, hne, hrest]

/-- A copy that fits. -/
theorem strncpy_eq {dst : CharArray n} {src : CStr} {count : Nat} (hroom : count ≤ n)
    (hsrc : Readable src count) :
    strncpy dst src count = some (overlay dst 0 count (padded src)) :=
  strncpyFrom_eq (by omega) hsrc

/-- `strncpy(dst, src, count); dst[count] = 0;` -/
def copyTerminated (dst : CharArray n) (src : CStr) (count : Nat) : Option (CharArray n) :=
  (strncpy dst src count).bind fun dst => writeArray dst count NUL

/-- What a terminated copy leaves in the array. -/
def terminatedCopy (dst : CharArray n) (src : CStr) (count : Nat) : CharArray n := fun k =>
  if k.val < count then padded src k.val else if k.val = count then NUL else dst k

theorem copyTerminated_eq {dst : CharArray n} {src : CStr} {count : Nat} (hroom : count < n)
    (hsrc : Readable src count) :
    copyTerminated dst src count = some (terminatedCopy dst src count) := by
  rw [copyTerminated, strncpy_eq hroom.le hsrc, Option.bind_some, writeArray_eq hroom,
    Option.some.injEq]
  funext k
  simp only [overlay, terminatedCopy]
  by_cases hcopied : k.val < count
  · rw [if_neg (by omega), if_pos (by omega), if_pos hcopied, Nat.sub_zero]
  · by_cases hlast : k.val = count
    · rw [if_pos (by omega), if_neg hcopied, if_pos hlast]
    · rw [if_neg (by omega), if_neg (by omega), if_neg hcopied, if_neg hlast]

theorem copyTerminated_eq_none {dst : CharArray n} {src : CStr} {count : Nat} (hroom : n ≤ count) :
    copyTerminated dst src count = none := by
  rw [copyTerminated]
  cases hcopy : strncpy dst src count with
  | none => rfl
  | some dst => exact writeArray_eq_none hroom NUL

theorem notMem_takeWhile_ne_nul (src : CStr) : NUL ∉ src.takeWhile (· != NUL) := fun h => by
  simpa using List.mem_takeWhile_imp h

/-- The string in a terminated copy. -/
theorem cstr_terminatedCopy {dst : CharArray n} {src : CStr} {count : Nat} (hroom : count < n) :
    (terminatedCopy dst src count).cstr = (src.takeWhile (· != NUL)).take count := by
  have hlist : List.ofFn (terminatedCopy dst src count)
      = ((List.range count).map (padded src))
        ++ NUL :: (List.ofFn (terminatedCopy dst src count)).drop (count + 1) := by
    apply List.ext_getElem
    · simp
      omega
    · intro k hk _
      rw [List.getElem_ofFn, List.getElem_append]
      by_cases hlt : k < count
      · simp [terminatedCopy, hlt]
      · by_cases hlast : k = count
        · simp [terminatedCopy, hlast]
        · simp [hlt, List.getElem_cons, show ¬ k - count = 0 by omega,
            show count + 1 + (k - count - 1) = k by omega]
  have hpadded := takeWhile_ne_nul_of_padded _ (notMem_takeWhile_ne_nul src) count
  rw [CharArray.cstr, hlist, ← hpadded]
  by_cases hall : ∀ x ∈ (List.range count).map (padded src), (x != NUL) = true
  · rw [List.takeWhile_append_of_pos hall, List.takeWhile_cons_of_neg (by simp), List.append_nil]
    exact (List.takeWhile_eq_self_iff.mpr hall).symm
  · rw [List.takeWhile_append, if_neg]
    · rfl
    · intro hlength
      exact hall (List.takeWhile_eq_self_iff.mp ((List.takeWhile_prefix _).eq_of_length hlength))

end CLib
