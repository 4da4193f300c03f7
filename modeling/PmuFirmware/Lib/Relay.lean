import PmuFirmware.Lib.Run

/-!
# Values that are passed on

A source gets new values. They reach a reader over places that are copied, each to the next one, in any
order and as often as it happens. Values may be skipped or repeated on the way, but none is made up, and
none comes after a later one: a reader at any place sees values of the source in the order in which the
source got them.
-/

namespace Relay

variable {V : Type}

inductive Event (V : Type)
  | put (v : V)
  | copy (i : Nat)

/-- The places are numbered from the source on. -/
def step (p : Nat → V) : Event V → Nat → V
  | .put v => Function.update p 0 v
  | .copy i => Function.update p (i + 1) (p i)

/-- The value that the source gets. -/
def Event.brought : Event V → List V
  | .put v => [v]
  | .copy _ => []

/-- The place `i` has the value `index i` of the history, and no place a later one than the place
before it. -/
structure Tracks (history : List V) (index : Nat → Nat) (p : Nat → V) : Prop where
  value : ∀ i, history[index i]? = some (p i)
  ordered : Antitone index

section Tracks

variable {history later : List V} {index : Nat → Nat} {p : Nat → V} {v : V} {k : Nat}

theorem getElem?_append_of_some (h : history[k]? = some v) :
    (history ++ later)[k]? = some v := by
  rw [List.getElem?_append_left (List.getElem?_eq_some_iff.mp h).1]
  exact h

theorem Tracks.put (h : Tracks history index p) (v : V) :
    Tracks (history ++ [v]) (Function.update index 0 history.length) (Function.update p 0 v) where
  value i := by
    cases i with
    | zero => simp
    | succ i => simpa using getElem?_append_of_some (h.value (i + 1))
  ordered := by
    have hlt : index 0 < history.length := (List.getElem?_eq_some_iff.mp (h.value 0)).1
    apply antitone_nat_of_succ_le
    intro i
    cases i with
    | zero =>
        have hle : index 1 ≤ index 0 := h.ordered (Nat.zero_le 1)
        simpa using hle.trans hlt.le
    | succ i => simpa using h.ordered (Nat.le_succ (i + 1))

theorem Tracks.copy (h : Tracks history index p) (i : Nat) :
    Tracks history (Function.update index (i + 1) (index i)) (Function.update p (i + 1) (p i)) where
  value j := by
    by_cases hj : j = i + 1
    · subst hj
      simpa using h.value i
    · simpa [Function.update_of_ne hj] using h.value j
  ordered := by
    apply antitone_nat_of_succ_le
    intro j
    have hj : index (j + 1) ≤ index j := h.ordered (Nat.le_succ j)
    by_cases htarget : j = i
    · subst htarget
      simp
    · by_cases hsource : j = i + 1
      · subst hsource
        have hfar : index (i + 2) ≤ index i := h.ordered (by omega)
        simpa using hfar
      · rw [Function.update_of_ne (by omega), Function.update_of_ne hsource]
        exact hj

/-- Every event brings the places forward. -/
theorem Tracks.step (h : Tracks history index p) (e : Event V) :
    ∃ index', (∀ i, index i ≤ index' i) ∧ Tracks (history ++ e.brought) index' (step p e) := by
  cases e with
  | put v =>
      refine ⟨_, fun i => ?_, h.put v⟩
      cases i with
      | zero => simpa using (List.getElem?_eq_some_iff.mp (h.value 0)).1.le
      | succ i => simp
  | copy i =>
      refine ⟨_, fun j => ?_, (List.append_nil history).symm ▸ h.copy i⟩
      by_cases hj : j = i + 1
      · subst hj
        simpa using h.ordered (Nat.le_succ i)
      · rw [Function.update_of_ne hj]

end Tracks

/-! ### Three places -/

/-- A source, what lies between, and what a reader sees; the places behind are never written. -/
def row (source between seen behind : V) : Nat → V
  | 0 => source
  | 1 => between
  | 2 => seen
  | _ => behind

section Row

variable (a b c d v : V)

theorem row_put : step (row a b c d) (.put v) = row v b c d := by
  funext i
  rcases i with _ | _ | _ | i <;> rfl

theorem row_copy_source : step (row a b c d) (.copy 0) = row a a c d := by
  funext i
  rcases i with _ | _ | _ | i <;> rfl

theorem row_copy_between : step (row a b c d) (.copy 1) = row a b b d := by
  funext i
  rcases i with _ | _ | _ | i <;> rfl

theorem tracks_row_singleton : Tracks [a] (fun _ => 0) (row a a a a) := by
  refine ⟨fun i => ?_, antitone_const⟩
  rcases i with _ | _ | _ | i <;> rfl

end Row

/-! ### What is read -/

/-- The values are values of the history, in its order, and none comes after the value `last`. -/
def Readings (history : List V) (last : Nat) (seen : List V) : Prop :=
  ∃ ks : List Nat, ks.Pairwise (· ≤ ·) ∧ (∀ k ∈ ks, k ≤ last)
    ∧ seen.map some = ks.map fun k => history[k]?

section Readings

variable {history later : List V} {last last' : Nat} {seen : List V} {v : V}

theorem readings_nil : Readings history last [] := ⟨[], .nil, by simp, rfl⟩

theorem Readings.mono (h : Readings history last seen) (hlast : last ≤ last') :
    Readings history last' seen := by
  obtain ⟨ks, hordered, hle, hseen⟩ := h
  exact ⟨ks, hordered, fun k hk => (hle k hk).trans hlast, hseen⟩

theorem Readings.append (h : Readings history last seen) :
    Readings (history ++ later) last seen := by
  obtain ⟨ks, hordered, hle, hseen⟩ := h
  refine ⟨ks, hordered, hle, hseen.trans (List.map_congr_left fun k hk => ?_)⟩
  have hmem : history[k]? ∈ seen.map some := by
    rw [hseen]
    exact List.mem_map_of_mem hk
  obtain ⟨v, -, hv⟩ := List.mem_map.mp hmem
  rw [← hv, getElem?_append_of_some hv.symm]

/-- Another value is read. -/
theorem Readings.snoc (h : Readings history last seen) (hv : history[last]? = some v) :
    Readings history last (seen ++ [v]) := by
  obtain ⟨ks, hordered, hle, hseen⟩ := h
  refine ⟨ks ++ [last], ?_, ?_, ?_⟩
  · rw [List.pairwise_append]
    exact ⟨hordered, List.pairwise_singleton _ _, by simpa using hle⟩
  · simpa [or_imp, forall_and] using hle
  · rw [List.map_append, List.map_append, hseen, List.map_singleton, List.map_singleton, hv]

end Readings

end Relay
