import PmuFirmware.Lib.Run

/-!
# Ledgers

A machine keeps items in a list. An input takes some of them out and puts at most one behind the others.
A ledger has a record of every item that was ever in the list, with the input that brought it and the
input that took it, and records are not erased: whatever a run loses can be looked up.
-/

namespace Ledger

open Runs

variable {σ ι α : Type}

/-- An item with the places in the run at which it came and went. What was there before the run never
came. -/
structure Record (α : Type) where
  item : α
  came : Option Nat
  went : Option Nat

/-- The items that are still there. -/
def present (records : List (Record α)) : List α :=
  (records.filter fun r => r.went.isNone).map Record.item

/-- The items that were there before the run. -/
def initial (records : List (Record α)) : List α :=
  (records.filter fun r => r.came.isNone).map Record.item

/-- The items in the order in which they came. -/
def Record.Before (r r' : Record α) : Prop :=
  ∀ m, r.came = some m → ∃ n, r'.came = some n ∧ m < n

/-- The item goes at the place `n`, unless it stays or has gone before. -/
def Record.leave (gone : α → Bool) (n : Nat) (r : Record α) : Record α :=
  if r.went.isNone ∧ gone r.item then { r with went := some n } else r

/-! ### Records -/

section Records

variable {gone : α → Bool} {n : Nat} {r : Record α} {records records' : List (Record α)}

@[simp] theorem item_leave : (r.leave gone n).item = r.item := by
  rw [Record.leave]
  split <;> rfl

@[simp] theorem came_leave : (r.leave gone n).came = r.came := by
  rw [Record.leave]
  split <;> rfl

theorem went_leave {k : Nat} (hwent : (r.leave gone n).went = some k) :
    r.went = some k ∨ r.went = none ∧ gone r.item = true ∧ k = n := by
  rw [Record.leave] at hwent
  split at hwent
  · next h => exact .inr ⟨Option.isNone_iff_eq_none.mp h.1, h.2, (Option.some.inj hwent).symm⟩
  · exact .inl hwent

theorem isNone_went_leave :
    (r.leave gone n).went.isNone = (r.went.isNone && !gone r.item) := by
  rw [Record.leave]
  split
  · next h =>
      rw [h.1, h.2]
      rfl
  · next h =>
      cases hwent : r.went.isNone with
      | false => rfl
      | true =>
          rw [Bool.eq_false_iff.mpr fun hgone => h ⟨hwent, hgone⟩]
          rfl

@[simp] theorem present_append :
    present (records ++ records') = present records ++ present records' := by
  simp [present]

@[simp] theorem initial_append :
    initial (records ++ records') = initial records ++ initial records' := by
  simp [initial]

theorem present_leave :
    present (records.map (Record.leave gone n)) = (present records).filter fun x => !gone x := by
  rw [present, present, List.filter_map, List.map_map, List.filter_map, List.filter_filter]
  refine congrArg₂ _ (funext fun r => item_leave) (List.filter_congr fun r _ => ?_)
  rw [Function.comp_apply, isNone_went_leave, Function.comp_apply, Bool.and_comm]

theorem initial_leave : initial (records.map (Record.leave gone n)) = initial records := by
  rw [initial, initial, List.filter_map, List.map_map]
  refine congrArg₂ _ (funext fun r => item_leave) (List.filter_congr fun r _ => ?_)
  rw [Function.comp_apply, came_leave]

theorem mem_present (hr : r ∈ records) (hwent : r.went = none) : r.item ∈ present records :=
  List.mem_map_of_mem (List.mem_filter.mpr ⟨hr, Option.isNone_iff_eq_none.mpr hwent⟩)

theorem Record.Before.leave {r r' : Record α} (h : r.Before r') :
    (r.leave gone n).Before (r'.leave gone n) := by
  intro m hm
  rw [came_leave] at hm
  rw [came_leave]
  exact h m hm

end Records

/-! ### The account of a run -/

variable (step : ι → σ → Option σ)

/-- The input at a place of the run, with the state before it. -/
def At (inputs : List ι) (s : σ) (n : Nat) (i : ι) (s₁ : σ) : Prop :=
  inputs[n]? = some i ∧ run step (inputs.take n) s = some s₁

section Places

variable {step} {inputs : List ι} {i j : ι} {s s₁ s₂ : σ} {n : Nat}

theorem At.lt (h : At step inputs s n i s₁) : n < inputs.length :=
  (List.getElem?_eq_some_iff.mp h.1).1

theorem at_last (hrun : run step inputs s = some s₁) :
    At step (inputs ++ [i]) s inputs.length i s₁ := by
  refine ⟨by simp, ?_⟩
  rw [List.take_left]
  exact hrun

theorem At.append (h : At step inputs s n j s₁) : At step (inputs ++ [i]) s n j s₁ := by
  refine ⟨?_, ?_⟩
  · rw [List.getElem?_append_left h.lt]
    exact h.1
  · rw [List.take_append_of_le_length h.lt.le]
    exact h.2

/-- A place of a longer run is one of the shorter run, or the last. -/
theorem at_append (hrun : run step inputs s = some s₁) (h : At step (inputs ++ [i]) s n j s₂) :
    At step inputs s n j s₂ ∨ n = inputs.length ∧ j = i ∧ s₂ = s₁ := by
  have hlt := h.lt
  rw [List.length_append, List.length_singleton] at hlt
  rcases Nat.lt_succ_iff_lt_or_eq.mp hlt with hlt | rfl
  · refine .inl ⟨?_, ?_⟩
    · rw [← h.1, List.getElem?_append_left hlt]
    · rw [← h.2, List.take_append_of_le_length hlt.le]
  · obtain ⟨hi, htake⟩ := h
    rw [List.take_left, hrun] at htake
    exact .inr ⟨rfl, by simpa using hi.symm, (Option.some.inj htake).symm⟩

end Places

variable (Holds : σ → List α → Prop) (Brings : ι → σ → α → Prop)
  (Takes : ι → σ → List α → α → Prop)

/-- What an input does to the items: it takes only what it may take, and brings what it has to bring. -/
def Amends (i : ι) (s s' : σ) (xs : List α) : Prop :=
  ∃ (gone : α → Bool) (brought : Option α),
    Holds s' ((xs.filter fun x => !gone x) ++ brought.toList)
      ∧ (∀ x ∈ xs, gone x = true → Takes i s xs x) ∧ ∀ x, brought = some x ↔ Brings i s x

/-- The records tell of every item where it came from and where it went. -/
structure Accounts (inputs : List ι) (s : σ) (xs : List α) (records : List (Record α)) : Prop where
  initial : initial records = xs
  ordered : records.Pairwise Record.Before
  came : ∀ r ∈ records, ∀ n, r.came = some n →
    ∃ i s₁, At step inputs s n i s₁ ∧ Brings i s₁ r.item
  brought : ∀ n i s₁ x, At step inputs s n i s₁ → Brings i s₁ x →
    ∃ r ∈ records, r.came = some n ∧ r.item = x
  went : ∀ r ∈ records, ∀ n, r.went = some n → (∀ m, r.came = some m → m < n)
    ∧ ∃ i s₁ ys, At step inputs s n i s₁ ∧ Holds s₁ ys ∧ r.item ∈ ys ∧ Takes i s₁ ys r.item

section Account

variable {step} {Holds} {Brings} {Takes} {inputs : List ι} {s s₁ s₂ : σ} {xs : List α}
  {records : List (Record α)}

/-- Before the first input every item is there. -/
theorem accounts_nil :
    present (xs.map fun x => (⟨x, none, none⟩ : Record α)) = xs
      ∧ Accounts step Holds Brings Takes [] s xs (xs.map fun x => ⟨x, none, none⟩) := by
  have hmem : ∀ r ∈ xs.map fun x => (⟨x, none, none⟩ : Record α), r.came = none ∧ r.went = none := by
    intro r hr
    obtain ⟨x, -, rfl⟩ := List.mem_map.mp hr
    exact ⟨rfl, rfl⟩
  have hall : ∀ p : Record α → Bool, (∀ x, p ⟨x, none, none⟩ = true) →
      ((xs.map fun x => (⟨x, none, none⟩ : Record α)).filter p).map Record.item = xs := by
    intro p hp
    rw [List.filter_eq_self.mpr, List.map_map]
    · exact List.map_id _
    · intro r hr
      obtain ⟨x, -, rfl⟩ := List.mem_map.mp hr
      exact hp x
  refine ⟨hall _ fun _ => rfl, hall _ fun _ => rfl, ?_, ?_, ?_, ?_⟩
  · refine List.pairwise_of_forall_mem_list fun r hr r' _ m hm => ?_
    rw [(hmem r hr).1] at hm
    cases hm
  · intro r hr n hn
    rw [(hmem r hr).1] at hn
    cases hn
  · intro n i s₁ x hat
    exact absurd hat.lt (Nat.not_lt_zero n)
  · intro r hr n hn
    rw [(hmem r hr).2] at hn
    cases hn

/-- One more input. -/
theorem Accounts.next {i : ι} (h : Accounts step Holds Brings Takes inputs s xs records)
    (hrun : run step inputs s = some s₁) (hholds : Holds s₁ (present records))
    (hamends : Amends Holds Brings Takes i s₁ s₂ (present records)) :
    ∃ records', Holds s₂ (present records')
      ∧ Accounts step Holds Brings Takes (inputs ++ [i]) s xs records' := by
  obtain ⟨gone, brought, hafter, htakes, hbrings⟩ := hamends
  let new : List (Record α) := brought.toList.map fun x => ⟨x, some inputs.length, none⟩
  have hnew : ∀ r ∈ new, r.came = some inputs.length ∧ r.went = none ∧ Brings i s₁ r.item := by
    intro r hr
    obtain ⟨x, hx, rfl⟩ := List.mem_map.mp hr
    exact ⟨rfl, rfl, (hbrings x).mp (Option.mem_toList.mp hx)⟩
  refine ⟨records.map (Record.leave gone inputs.length) ++ new, ?_, ?_, ?_, ?_, ?_, ?_⟩
  · rw [present_append, present_leave]
    cases brought <;> exact hafter
  · rw [initial_append, initial_leave, h.initial]
    cases brought <;> exact List.append_nil xs
  · refine List.pairwise_append.mpr ⟨?_, ?_, ?_⟩
    · exact List.pairwise_map.mpr (h.ordered.imp Record.Before.leave)
    · cases brought
      · exact List.Pairwise.nil
      · exact List.pairwise_singleton ..
    · intro r hr r' hr' m hm
      obtain ⟨r₀, hr₀, rfl⟩ := List.mem_map.mp hr
      rw [came_leave] at hm
      obtain ⟨j, s', hat, -⟩ := h.came r₀ hr₀ m hm
      exact ⟨_, (hnew r' hr').1, hat.lt⟩
  · intro r hr n hn
    rcases List.mem_append.mp hr with hr | hr
    · obtain ⟨r₀, hr₀, rfl⟩ := List.mem_map.mp hr
      rw [came_leave] at hn
      obtain ⟨j, s', hat, hbrought⟩ := h.came r₀ hr₀ n hn
      rw [item_leave]
      exact ⟨j, s', hat.append, hbrought⟩
    · obtain ⟨hcame, -, hbrought⟩ := hnew r hr
      obtain rfl := Option.some.inj (hcame.symm.trans hn)
      exact ⟨i, s₁, at_last hrun, hbrought⟩
  · intro n j s' x hat hx
    rcases at_append hrun hat with hat | ⟨rfl, rfl, rfl⟩
    · obtain ⟨r, hr, hcame, hitem⟩ := h.brought n j s' x hat hx
      refine ⟨r.leave gone inputs.length, ?_, ?_, ?_⟩
      · exact List.mem_append_left _ (List.mem_map_of_mem hr)
      · rwa [came_leave]
      · rwa [item_leave]
    · refine ⟨⟨x, some inputs.length, none⟩, List.mem_append_right _ ?_, rfl, rfl⟩
      exact List.mem_map_of_mem (Option.mem_toList.mpr ((hbrings x).mpr hx))
  · intro r hr n hn
    rcases List.mem_append.mp hr with hr | hr
    · obtain ⟨r₀, hr₀, rfl⟩ := List.mem_map.mp hr
      rw [item_leave, came_leave]
      rcases went_leave hn with hwent | ⟨hwent, hgone, rfl⟩
      · obtain ⟨hlater, j, s', ys, hat, hrest⟩ := h.went r₀ hr₀ n hwent
        exact ⟨hlater, j, s', ys, hat.append, hrest⟩
      · have hmem := mem_present hr₀ hwent
        refine ⟨fun m hm => ?_, i, s₁, _, at_last hrun, hholds, hmem, htakes _ hmem hgone⟩
        obtain ⟨j, s', hat, -⟩ := h.came r₀ hr₀ m hm
        exact hat.lt
    · rw [(hnew r hr).2.1] at hn
      cases hn

/-- A machine whose inputs amend the items has an account of every run. -/
theorem exists_accounts {allowed : ι → Prop}
    (hstep : ∀ i s s' xs, allowed i → Holds s xs → step i s = some s' →
      Amends Holds Brings Takes i s s' xs)
    (hs : Holds s xs) (hallowed : ∀ i ∈ inputs, allowed i) (hrun : run step inputs s = some s₂) :
    ∃ records, Holds s₂ (present records)
      ∧ Accounts step Holds Brings Takes inputs s xs records := by
  have hmeets : Meets step (fun i _ => allowed i) inputs s := .of_forall fun i hi _ => hallowed i hi
  refine run_history_of_meets (P := fun inputs s' => ∃ records, Holds s' (present records)
    ∧ Accounts step Holds Brings Takes inputs s xs records) ?_ ?_ hmeets hrun
  · obtain ⟨hpresent, haccounts⟩ := @accounts_nil σ ι α step Holds Brings Takes s xs
    exact ⟨_, by rwa [hpresent], haccounts⟩
  · intro inputs i s₁ s₂ hrun hi ⟨records, hholds, haccounts⟩ hlast
    exact haccounts.next hrun hholds (hstep i s₁ s₂ _ hi hholds hlast)

end Account

end Ledger
