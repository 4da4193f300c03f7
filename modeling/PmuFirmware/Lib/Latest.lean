import PmuFirmware.Lib.Run

/-!
# The latest value

Some of a sequence of inputs carry a value. What is left of them is the value of the last one that does:
that is what a reader of all inputs knows, and it is what a register holds that every such input sets.
-/

namespace Latest

variable {σ ι V : Type} {sample : ι → Option V} {inputs : List ι} {i : ι}

/-- The value of the last input that has one. -/
def latest (sample : ι → Option V) (inputs : List ι) : Option V := inputs.reverse.findSome? sample

@[simp] theorem latest_snoc :
    latest sample (inputs ++ [i]) = (sample i).or (latest sample inputs) := by
  rw [latest, List.reverse_append, List.reverse_singleton, List.singleton_append,
    List.findSome?_cons, latest]
  cases sample i <;> rfl

/-- A register that every input with a value sets holds the last one, or what it has held before. -/
theorem foldl_eq_latest {step : σ → ι → σ} {get : σ → V}
    (hstep : ∀ s i, get (step s i) = (sample i).getD (get s)) (inputs : List ι) (s : σ) :
    get (inputs.foldl step s) = (latest sample inputs).getD (get s) := by
  induction inputs using List.reverseRecOn with
  | nil => rfl
  | append_singleton inputs i ih =>
      rw [List.foldl_append, List.foldl_cons, List.foldl_nil, hstep, ih, latest_snoc]
      cases sample i <;> rfl

end Latest
