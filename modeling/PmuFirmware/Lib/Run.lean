import Mathlib

/-!
# Runs of a machine

A machine takes one input after the other and stops where a step has no result. What a step
preserves whenever it meets a condition, a run preserves when all its steps meet it.
-/

namespace Runs

variable {σ ι : Type} (step : ι → σ → Option σ)

/-- All inputs in a row. -/
def run (inputs : List ι) (s : σ) : Option σ := inputs.foldlM (fun s i => step i s) s

/-- Every step of the run that is taken meets the condition in the state before it. -/
def Meets (cond : ι → σ → Prop) : List ι → σ → Prop
  | [], _ => True
  | i :: inputs, s => cond i s ∧ ∀ s', step i s = some s' → Meets cond inputs s'

variable {step}

@[simp] theorem run_nil (s : σ) : run step [] s = some s := rfl

@[simp] theorem run_cons (i : ι) (inputs : List ι) (s : σ) :
    run step (i :: inputs) s = (step i s).bind (run step inputs) := rfl

theorem run_append (inputs later : List ι) (s : σ) :
    run step (inputs ++ later) s = (run step inputs s).bind (run step later) := by
  rw [run, List.foldlM_append]
  rfl

theorem Meets.and {cond cond' : ι → σ → Prop} :
    ∀ {inputs : List ι} {s : σ}, Meets step cond inputs s → Meets step cond' inputs s →
      Meets step (fun i s => cond i s ∧ cond' i s) inputs s
  | [], _, _, _ => trivial
  | _ :: _, _, h, h' => ⟨⟨h.1, h'.1⟩, fun s' hs' => (h.2 s' hs').and (h'.2 s' hs')⟩

theorem Meets.of_forall {cond : ι → σ → Prop} :
    ∀ {inputs : List ι} {s : σ}, (∀ i ∈ inputs, ∀ s, cond i s) → Meets step cond inputs s
  | [], _, _ => trivial
  | i :: _, s, h => ⟨h i List.mem_cons_self s,
      fun _ _ => .of_forall fun j hj => h j (List.mem_cons_of_mem _ hj)⟩

/-- The condition holds wherever an invariant does that the inputs preserve. -/
theorem Meets.of_invariant (Inv : σ → Prop) (allowed : ι → Prop) {cond : ι → σ → Prop}
    (hcond : ∀ i s, allowed i → Inv s → cond i s)
    (hstep : ∀ i s s', allowed i → Inv s → step i s = some s' → Inv s') :
    ∀ {inputs : List ι} {s : σ}, (∀ i ∈ inputs, allowed i) → Inv s → Meets step cond inputs s
  | [], _, _, _ => trivial
  | i :: _, s, hall, hs =>
      have hi := hall i List.mem_cons_self
      ⟨hcond i s hi hs, fun s' hs' => .of_invariant Inv allowed hcond hstep
        (fun j hj => hall j (List.mem_cons_of_mem _ hj)) (hstep i s s' hi hs hs')⟩

/-- An invariant that steps meeting the condition preserve holds after a run of such steps. -/
theorem run_invariant {Inv : σ → Prop} {cond : ι → σ → Prop}
    (hstep : ∀ i s s', Inv s → cond i s → step i s = some s' → Inv s') {inputs : List ι} {s s' : σ}
    (hs : Inv s) (hmeets : Meets step cond inputs s) (hrun : run step inputs s = some s') :
    Inv s' := by
  induction inputs generalizing s with
  | nil =>
      rw [run_nil, Option.some.injEq] at hrun
      exact hrun ▸ hs
  | cons i inputs ih =>
      rw [run_cons] at hrun
      obtain ⟨s₁, hfirst, hrest⟩ := Option.bind_eq_some_iff.mp hrun
      exact ih (hstep i s s₁ hs hmeets.1 hfirst) (hmeets.2 s₁ hfirst) hrest

/-- Steps that meet the condition always have a result. -/
theorem run_total {Inv : σ → Prop} {cond : ι → σ → Prop}
    (hstep : ∀ i s, Inv s → cond i s → ∃ s', step i s = some s' ∧ Inv s') {inputs : List ι} {s : σ}
    (hs : Inv s) (hmeets : Meets step cond inputs s) :
    ∃ s', run step inputs s = some s' ∧ Inv s' := by
  induction inputs generalizing s with
  | nil => exact ⟨s, rfl, hs⟩
  | cons i inputs ih =>
      obtain ⟨s₁, hfirst, hs₁⟩ := hstep i s hs hmeets.1
      obtain ⟨s', hrest, hs'⟩ := ih hs₁ (hmeets.2 s₁ hfirst)
      exact ⟨s', by rw [run_cons, hfirst, Option.bind_some, hrest], hs'⟩

/-- A machine whose steps always have a result. -/
theorem run_some (f : ι → σ → σ) (inputs : List ι) (s : σ) :
    run (fun i s => some (f i s)) inputs s = some (inputs.foldl (fun s i => f i s) s) := by
  induction inputs generalizing s with
  | nil => rfl
  | cons i inputs ih => rw [run_cons, Option.bind_some, ih, List.foldl_cons]

theorem meets_some_cons {f : ι → σ → σ} {cond : ι → σ → Prop} {i : ι} {inputs : List ι} {s : σ} :
    Meets (fun i s => some (f i s)) cond (i :: inputs) s
      ↔ cond i s ∧ Meets (fun i s => some (f i s)) cond inputs (f i s) := by
  rw [Meets]
  simp

theorem foldl_invariant {f : ι → σ → σ} {Inv : σ → Prop} {cond : ι → σ → Prop}
    (hstep : ∀ i s, Inv s → cond i s → Inv (f i s)) {inputs : List ι} {s : σ} (hs : Inv s)
    (hmeets : Meets (fun i s => some (f i s)) cond inputs s) :
    Inv (inputs.foldl (fun s i => f i s) s) :=
  run_invariant (fun i s _ hs hcond hstep' => Option.some.inj hstep' ▸ hstep i s hs hcond) hs hmeets
    (run_some f inputs s)

/-- What a condition means where an invariant holds, which the steps that meet it preserve. -/
theorem Meets.imp {Inv : σ → Prop} {cond cond' : ι → σ → Prop}
    (himp : ∀ i s, Inv s → cond i s → cond' i s)
    (hstep : ∀ i s s', Inv s → cond i s → step i s = some s' → Inv s') :
    ∀ {inputs : List ι} {s : σ}, Inv s → Meets step cond inputs s → Meets step cond' inputs s
  | [], _, _, _ => trivial
  | i :: _, s, hs, h => ⟨himp i s hs h.1, fun s' hs' =>
      Meets.imp himp hstep (hstep i s s' hs h.1 hs') (h.2 s' hs')⟩

/-- Two conditions that agree where an invariant holds. -/
theorem meets_iff {Inv : σ → Prop} {cond cond' : ι → σ → Prop}
    (hiff : ∀ i s, Inv s → (cond i s ↔ cond' i s))
    (hstep : ∀ i s s', Inv s → cond i s → step i s = some s' → Inv s') {inputs : List ι} {s : σ}
    (hs : Inv s) : Meets step cond inputs s ↔ Meets step cond' inputs s :=
  ⟨Meets.imp (fun i s hs => (hiff i s hs).mp) hstep hs,
    Meets.imp (fun i s hs => (hiff i s hs).mpr)
      (fun i s s' hs hcond => hstep i s s' hs ((hiff i s hs).mpr hcond)) hs⟩

theorem meets_some_iff {f : ι → σ → σ} {Inv : σ → Prop} {cond cond' : ι → σ → Prop}
    (hiff : ∀ i s, Inv s → (cond i s ↔ cond' i s)) (hstep : ∀ i s, Inv s → cond i s → Inv (f i s))
    {inputs : List ι} {s : σ} (hs : Inv s) :
    Meets (fun i s => some (f i s)) cond inputs s
      ↔ Meets (fun i s => some (f i s)) cond' inputs s :=
  meets_iff hiff (fun i s _ hs hcond hs' => Option.some.inj hs' ▸ hstep i s hs hcond) hs

theorem meets_append {cond : ι → σ → Prop} {inputs later : List ι} {s : σ} :
    Meets step cond (inputs ++ later) s ↔ Meets step cond inputs s
      ∧ ∀ s', run step inputs s = some s' → Meets step cond later s' := by
  induction inputs generalizing s with
  | nil => simp [Meets]
  | cons i inputs ih =>
      rw [List.cons_append, Meets, Meets, run_cons]
      simp only [ih, Option.bind_eq_some_iff]
      constructor
      · intro ⟨hfirst, hrest⟩
        exact ⟨⟨hfirst, fun s' hs' => (hrest s' hs').1⟩,
          fun s' ⟨s₁, hs₁, hrun⟩ => (hrest s₁ hs₁).2 s' hrun⟩
      · intro ⟨⟨hfirst, hrest⟩, hlater⟩
        exact ⟨hfirst, fun s₁ hs₁ => ⟨hrest s₁ hs₁, fun s' hrun => hlater s' ⟨s₁, hs₁, hrun⟩⟩⟩

/-- The condition is exactly what a step needs to keep `P` of what has been recorded of the inputs and
of the state: then a run meets it exactly when `P` holds after every part of the run. -/
theorem meets_iff_throughout {γ : Type} (record : γ → ι → γ) {Inv P : γ → σ → Prop}
    {cond : ι → σ → Prop} (hP : ∀ g s, Inv g s → P g s)
    (hiff : ∀ i g s, Inv g s → (cond i s ↔ ∃ s', step i s = some s' ∧ P (record g i) s'))
    (hkeep : ∀ i g s s', Inv g s → step i s = some s' → P (record g i) s' → Inv (record g i) s')
    {inputs : List ι} {g : γ} {s : σ} (hs : Inv g s) :
    Meets step cond inputs s
      ↔ ∀ done, done <+: inputs → ∃ s', run step done s = some s' ∧ P (done.foldl record g) s' := by
  induction inputs generalizing g s with
  | nil =>
      refine iff_of_true trivial fun done hdone => ?_
      rw [List.prefix_nil.mp hdone]
      exact ⟨s, rfl, hP g s hs⟩
  | cons i inputs ih =>
      rw [Meets, hiff i g s hs]
      constructor
      · intro ⟨⟨s₁, hstep, hP₁⟩, hrest⟩ done hdone
        rcases List.prefix_cons_iff.mp hdone with rfl | ⟨later, rfl, hlater⟩
        · exact ⟨s, rfl, hP g s hs⟩
        · have hs₁ := hkeep i g s s₁ hs hstep hP₁
          obtain ⟨s', hrun, hP'⟩ := (ih hs₁).mp (hrest s₁ hstep) later hlater
          exact ⟨s', by rw [run_cons, hstep, Option.bind_some, hrun], hP'⟩
      · intro hall
        obtain ⟨s₁, hfirst, hP₁⟩ := hall [i] (List.prefix_cons_iff.mpr (.inr ⟨[], rfl, List.nil_prefix⟩))
        rw [run_cons, Option.bind_eq_some_iff] at hfirst
        obtain ⟨s₂, hstep, hs₂⟩ := hfirst
        obtain rfl := Option.some.inj hs₂
        refine ⟨⟨s₂, hstep, hP₁⟩, fun s' hs' => ?_⟩
        obtain rfl := Option.some.inj (hs'.symm.trans hstep)
        refine (ih (hkeep i g s s' hs hstep hP₁)).mpr fun done hdone => ?_
        obtain ⟨s'', hrun, hP''⟩ :=
          hall (i :: done) (List.prefix_cons_iff.mpr (.inr ⟨done, rfl, hdone⟩))
        rw [run_cons, hstep, Option.bind_some] at hrun
        exact ⟨s'', hrun, hP''⟩

/-! ### Repeated inputs -/

/-- Each input as many times in a row as its number says, and once more. -/
def repeated (inputs : List (ι × Nat)) : List ι :=
  inputs.flatMap fun input => List.replicate (input.2 + 1) input.1

/-- A step that changes nothing the second time can be repeated. -/
theorem run_repeated (hstep : ∀ i s s', step i s = some s' → step i s' = some s')
    (inputs : List (ι × Nat)) (s : σ) :
    run step (repeated inputs) s = run step (inputs.map Prod.fst) s := by
  have hagain : ∀ i s s', step i s = some s' → ∀ n, run step (List.replicate n i) s' = some s' := by
    intro i s s' hs n
    induction n with
    | zero => rfl
    | succ n ih => rw [List.replicate_succ, run_cons, hstep i s s' hs, Option.bind_some, ih]
  induction inputs generalizing s with
  | nil => rfl
  | cons input inputs ih =>
      rw [repeated, List.flatMap_cons, run_append, List.replicate_succ, run_cons, List.map_cons,
        run_cons]
      cases hs : step input.1 s with
      | none => rfl
      | some s' =>
          rw [Option.bind_some, Option.bind_some, hagain _ _ _ hs, Option.bind_some]
          exact ih s'

/-! ### Histories -/

theorem run_append_singleton {inputs : List ι} {i : ι} {s s' : σ} :
    run step (inputs ++ [i]) s = some s'
      ↔ ∃ s₁, run step inputs s = some s₁ ∧ step i s₁ = some s' := by
  rw [run_append, Option.bind_eq_some_iff]
  refine exists_congr fun s₁ => and_congr_right fun _ => ?_
  rw [run_cons]
  cases step i s₁ with
  | none => simp
  | some s₂ => simp

/-- What holds of the empty run, and after one step more whenever it holds before. -/
theorem run_history_of_meets {P : List ι → σ → Prop} {cond : ι → σ → Prop} {s : σ} (hnil : P [] s)
    (hstep : ∀ inputs i s₁ s₂, run step inputs s = some s₁ → cond i s₁ → P inputs s₁ →
      step i s₁ = some s₂ → P (inputs ++ [i]) s₂)
    {inputs : List ι} {s' : σ} (hmeets : Meets step cond inputs s)
    (hrun : run step inputs s = some s') : P inputs s' := by
  induction inputs using List.reverseRecOn generalizing s' with
  | nil =>
      rw [run_nil, Option.some.injEq] at hrun
      exact hrun ▸ hnil
  | append_singleton inputs i ih =>
      obtain ⟨s₁, hinputs, hlast⟩ := run_append_singleton.mp hrun
      obtain ⟨hbefore, hafter⟩ := meets_append.mp hmeets
      exact hstep inputs i s₁ s' hinputs (hafter s₁ hinputs).1 (ih hbefore hinputs) hlast

theorem run_history {P : List ι → σ → Prop} {cond : ι → Prop} {s : σ} (hnil : P [] s)
    (hstep : ∀ inputs i s₁ s₂, cond i → P inputs s₁ → step i s₁ = some s₂ → P (inputs ++ [i]) s₂)
    {inputs : List ι} {s' : σ} (hcond : ∀ i ∈ inputs, cond i)
    (hrun : run step inputs s = some s') : P inputs s' :=
  run_history_of_meets hnil (fun inputs i s₁ s₂ _ => hstep inputs i s₁ s₂)
    (.of_forall fun i hi _ => hcond i hi) hrun

theorem foldl_history {f : ι → σ → σ} {P : List ι → σ → Prop} {cond : ι → σ → Prop} {s : σ}
    (hnil : P [] s) (hstep : ∀ inputs i s₁, cond i s₁ → P inputs s₁ → P (inputs ++ [i]) (f i s₁))
    {inputs : List ι} (hmeets : Meets (fun i s => some (f i s)) cond inputs s) :
    P inputs (inputs.foldl (fun s i => f i s) s) :=
  run_history_of_meets hnil (fun inputs i s₁ _ _ hcond hbefore hstep' =>
    Option.some.inj hstep' ▸ hstep inputs i s₁ hcond hbefore) hmeets (run_some f inputs s)

section Observations

variable {τ : Type} (step) (observe : ι → σ → List τ)

/-- What can be observed of the steps of a run, the last first. -/
def observed : List ι → σ → List τ
  | [], _ => []
  | i :: inputs, s => (step i s).elim [] (observed inputs) ++ observe i s

variable {step}

theorem observed_append_singleton {inputs : List ι} {i : ι} {s s₁ s₂ : σ}
    (hrun : run step inputs s = some s₁) (hstep : step i s₁ = some s₂) :
    observed step observe (inputs ++ [i]) s = observe i s₁ ++ observed step observe inputs s := by
  induction inputs generalizing s with
  | nil =>
      obtain rfl := Option.some.inj hrun
      simp [observed, hstep]
  | cons j inputs ih =>
      rw [run_cons] at hrun
      obtain ⟨s₀, hfirst, hrest⟩ := Option.bind_eq_some_iff.mp hrun
      rw [List.cons_append, observed, observed, hfirst, Option.elim_some, Option.elim_some, ih hrest,
        List.append_assoc]

theorem observed_append {inputs later : List ι} {s s₁ : σ} (hrun : run step inputs s = some s₁) :
    observed step observe (inputs ++ later) s
      = observed step observe later s₁ ++ observed step observe inputs s := by
  induction inputs generalizing s with
  | nil =>
      obtain rfl := Option.some.inj hrun
      exact (List.append_nil _).symm
  | cons j inputs ih =>
      rw [run_cons] at hrun
      obtain ⟨s₀, hfirst, hrest⟩ := Option.bind_eq_some_iff.mp hrun
      rw [List.cons_append, observed, observed, hfirst, Option.elim_some, Option.elim_some, ih hrest,
        List.append_assoc]

end Observations

section Values

variable {α : Type} [DecidableEq α] (step) (v : σ → α)

/-- The values that a quantity takes during a run, each change once. -/
def values : List ι → σ → List α
  | [], s => [v s]
  | i :: inputs, s =>
    match step i s with
    | none => [v s]
    | some s' => if v s' = v s then values inputs s' else v s :: values inputs s'

variable {step}

theorem values_append_singleton {inputs : List ι} {i : ι} {s s₁ s₂ : σ}
    (hrun : run step inputs s = some s₁) (hstep : step i s₁ = some s₂) :
    values step v (inputs ++ [i]) s
      = if v s₂ = v s₁ then values step v inputs s else values step v inputs s ++ [v s₂] := by
  induction inputs generalizing s with
  | nil =>
      obtain rfl := Option.some.inj hrun
      simp only [List.nil_append, values, hstep]
      split
      · rename_i hsame
        rw [hsame]
      · rfl
  | cons j inputs ih =>
      rw [run_cons] at hrun
      obtain ⟨s₀, hfirst, hrest⟩ := Option.bind_eq_some_iff.mp hrun
      rw [List.cons_append, values, values, hfirst]
      dsimp only
      rw [ih hrest]
      split_ifs <;> rfl

end Values

end Runs
