import Mathlib

/-!
# Handing records over through a shared copy

A producer keeps one record and flips a bit of it when the record is complete. The record is copied
to a shared place and from there to the consumer, who handles it when the bit is not the one it has
seen last. Each completed record is handled exactly once, and as it was completed, as long as no copy
is replaced before it has been passed on.

The records are compared by a view, what handling a record depends on.
-/

namespace Handoff

/-- The copies of the record, the bit the consumer has seen last and the records it has handled. -/
structure Link (V : Type) where
  producer : V
  shared : V
  consumer : V
  seen : Bool
  handled : List V

variable {V W : Type} (bit : V → Bool) (view : V → W)

namespace Link

def produce (v : V) (l : Link V) : Link V := { l with producer := v }

def copyOut (l : Link V) : Link V := { l with shared := l.producer }

def fetch (l : Link V) : Link V := { l with consumer := l.shared }

/-- The consumer handles its copy if the bit has flipped. -/
def compare (l : Link V) : Link V :=
  if bit l.consumer ≠ l.seen then
    { l with seen := bit l.consumer, handled := l.handled ++ [l.consumer] }
  else l

/-- What is on its way: the shared record, then that of the producer. -/
def pending (l : Link V) : List W :=
  (if bit l.shared = l.seen then [] else [view l.shared])
    ++ if bit l.producer = bit l.shared then [] else [view l.producer]

/-- Every completed record is handled or on its way, in order. -/
structure Balanced (l : Link V) (completed : List W) : Prop where
  compared : bit l.consumer = l.seen
  accounted : l.handled.map view ++ l.pending bit view = completed

/-- The producer may write `v`: its last record has been copied, or `v` does not differ from it. -/
def MayProduce (v : V) (l : Link V) : Prop :=
  bit l.producer = bit l.shared ∨ bit v = bit l.producer ∧ view v = view l.producer

/-- The record may be copied: the shared one has been handled, or it does not differ. -/
def MayCopy (l : Link V) : Prop :=
  bit l.shared = l.seen ∨ bit l.producer = bit l.shared ∧ view l.producer = view l.shared

variable {bit view} {l : Link V} {completed : List W}

@[simp] theorem compare_producer : (l.compare bit).producer = l.producer := by
  rw [compare]
  split <;> rfl

@[simp] theorem compare_shared : (l.compare bit).shared = l.shared := by
  rw [compare]
  split <;> rfl

theorem Balanced.produce (h : l.Balanced bit view completed) {v : V}
    (hmay : l.MayProduce bit view v) :
    (l.produce v).Balanced bit view
      (if bit v = bit l.producer then completed else completed ++ [view v]) := by
  refine ⟨h.compared, ?_⟩
  rw [← h.accounted]
  show l.handled.map view ++ ((if bit l.shared = l.seen then [] else [view l.shared])
    ++ if bit v = bit l.shared then [] else [view v]) = _
  rcases hmay with hcopied | ⟨hbit, hview⟩
  · by_cases hflip : bit v = bit l.shared
    · simp [pending, hcopied, hflip]
    · simp [pending, hcopied, hflip]
  · simp [pending, hbit, hview]

theorem Balanced.copyOut (h : l.Balanced bit view completed) (hmay : l.MayCopy bit view) :
    l.copyOut.Balanced bit view completed := by
  refine ⟨h.compared, ?_⟩
  rw [← h.accounted]
  show l.handled.map view ++ ((if bit l.producer = l.seen then [] else [view l.producer])
    ++ if bit l.producer = bit l.producer then [] else [view l.producer]) = _
  rcases hmay with hseen | ⟨hbit, hview⟩
  · simp [pending, hseen]
  · simp [pending, hbit, hview]

theorem Balanced.compare (h : l.Balanced bit view completed) :
    (l.compare bit).Balanced bit view completed := by
  rw [Link.compare, if_neg (not_not.mpr h.compared)]
  exact h

/-- After a fetch the shared record has been handled. -/
theorem Balanced.fetch_compare (h : l.Balanced bit view completed) :
    (l.fetch.compare bit).Balanced bit view completed
      ∧ bit (l.fetch.compare bit).shared = (l.fetch.compare bit).seen := by
  rw [← h.accounted]
  rw [Link.compare]
  split
  · next hnew =>
      have hnew : ¬ bit l.shared = l.seen := hnew
      refine ⟨⟨rfl, ?_⟩, rfl⟩
      show (l.handled ++ [l.shared]).map view
        ++ ((if bit l.shared = bit l.shared then [] else [view l.shared])
          ++ if bit l.producer = bit l.shared then [] else [view l.producer]) = _
      simp [pending, hnew]
  · next hold => exact ⟨⟨not_not.mp hold, rfl⟩, not_not.mp hold⟩

theorem Balanced.handled_prefix (h : l.Balanced bit view completed) :
    l.handled.map view <+: completed :=
  ⟨_, h.accounted⟩

/-- A fetch, a copy and another fetch leave nothing on its way. -/
theorem Balanced.drained (h : l.Balanced bit view completed) :
    (((l.fetch.compare bit).copyOut.fetch.compare bit).handled).map view = completed := by
  obtain ⟨hfirst, hseen⟩ := h.fetch_compare
  have hcopy := hfirst.copyOut (.inl hseen)
  obtain ⟨hlast, hdone⟩ := hcopy.fetch_compare
  have hcopied : bit ((l.fetch.compare bit).copyOut.fetch.compare bit).producer
      = bit ((l.fetch.compare bit).copyOut.fetch.compare bit).shared := by
    rw [compare_producer, compare_shared]
    rfl
  rw [← hlast.accounted, pending, if_pos hdone, if_pos hcopied, List.append_nil, List.append_nil]

end Link

end Handoff
