import Mathlib

/-!
# Reading arrays in loops

An array has a fixed number of elements, and a read with any other index has no result. Loops over
an array have one when all their reads do.
-/

namespace CLib

variable {α β : Type} {n : Nat}

/-- `a[i]` -/
def readArray (a : Fin n → α) (i : Int) : Option α :=
  if h : i.toNat < n then if 0 ≤ i then some (a ⟨i.toNat, h⟩) else none else none

theorem readArray_isSome_iff (a : Fin n → α) (i : Int) :
    (readArray a i).isSome = true ↔ 0 ≤ i ∧ i < n := by
  rw [readArray]
  split
  · split
    · simp
      omega
    · simp
      omega
  · simp
    omega

theorem readArray_eq_some_iff {a : Fin n → α} {i : Int} {x : α} :
    readArray a i = some x ↔ ∃ k : Fin n, i = k.val ∧ a k = x := by
  constructor
  · intro h
    rw [readArray] at h
    split at h
    · rename_i hlt
      split at h
      · refine ⟨⟨i.toNat, hlt⟩, ?_, Option.some.inj h⟩
        show i = (i.toNat : Int)
        omega
      · cases h
    · cases h
  · rintro ⟨k, rfl, rfl⟩
    rw [readArray, dif_pos (show (k.val : Int).toNat < n by simp), if_pos (Int.natCast_nonneg _)]
    rfl

/-- `for (int i = start; i < stop; i++)`, with what each turn adds. -/
def forRange (start stop : Int) (body : Int → Option β) : Option (List β) :=
  (List.range (stop - start).toNat).mapM fun k : Nat => body (start + (k : Int))

theorem mapM_isSome_iff {f : α → Option β} {l : List α} :
    (l.mapM f).isSome = true ↔ ∀ a ∈ l, (f a).isSome = true := by
  induction l with
  | nil => simp
  | cons a l ih =>
      rw [List.mapM_cons, List.forall_mem_cons, ← ih]
      cases f a with
      | none => simp
      | some b => cases l.mapM f <;> simp

/-- A loop has a result when every turn has one. -/
theorem forRange_isSome_iff {start stop : Int} {body : Int → Option β} :
    (forRange start stop body).isSome = true
      ↔ ∀ i, start ≤ i → i < stop → (body i).isSome = true := by
  rw [forRange, mapM_isSome_iff]
  constructor
  · intro h i hstart hstop
    have hk := h (i - start).toNat (List.mem_range.mpr (by omega))
    rwa [show start + ((i - start).toNat : Int) = i by omega] at hk
  · intro h k hk
    rw [List.mem_range] at hk
    apply h
    · omega
    · omega

/-- The indices of a loop from zero lie in an array when there are no more of them than elements. -/
theorem forall_lt_iff {count : Nat} :
    (∀ i : Int, 0 ≤ i → i < count → 0 ≤ i ∧ i < (n : Int)) ↔ count ≤ n := by
  constructor
  · intro h
    by_contra hlt
    have hlast := (h n (by omega) (by omega)).2
    omega
  · intro h i hzero hi
    exact ⟨hzero, by omega⟩

end CLib
