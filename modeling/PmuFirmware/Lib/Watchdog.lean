import Mathlib

/-!
# Watching for silence

A watchdog is asked once in each round. A latch says whether something was heard since it was asked
last; without it a counter goes up, and when the counter passes a limit the other side counts as failed
and the counter starts anew. What the watchdog says depends on nothing but how long ago something was
heard: it is a failure exactly when that was more than the limit ago.
-/

namespace Watchdog

structure Watch where
  heard : Bool
  count : Nat
  failed : Bool

namespace Watch

/-- The state of a watchdog that has never heard anything. -/
def start : Watch := ⟨false, 0, true⟩

def check (limit : Nat) (w : Watch) : Watch :=
  if w.heard then ⟨false, 0, false⟩
  else if limit < w.count + 1 then { w with count := 0, failed := true }
  else { w with count := w.count + 1 }

def hear (now : Bool) (w : Watch) : Watch := { w with heard := now || w.heard }

/-- One round: the watchdog is asked, then something is heard or not. -/
def round (limit : Nat) (w : Watch) (now : Bool) : Watch := (w.check limit).hear now

/-- How many rounds ago something was heard last. -/
def since : Option Nat → Bool → Option Nat
  | _, true => some 0
  | silent, false => silent.map (· + 1)

/-- What a watchdog remembers of the silence. After the first round of it the counter starts, and what
it counts after a failure does not matter. -/
def Remembers (limit : Nat) (silent : Option Nat) (w : Watch) : Prop :=
  w.count ≤ limit ∧ match silent with
    | none => w.heard = false ∧ w.failed = true
    | some 0 => w.heard = true
    | some (n + 1) => w.heard = false
        ∧ (n ≤ limit → w.count = n ∧ w.failed = false) ∧ (limit < n → w.failed = true)

variable {limit : Nat} {silent : Option Nat} {w : Watch}

theorem start_remembers : start.Remembers limit none := ⟨Nat.zero_le _, rfl, rfl⟩

theorem hear_true_remembers (hcount : w.count ≤ limit) :
    (w.hear true).Remembers limit (some 0) := ⟨hcount, rfl⟩

/-- The silence goes on for another round. -/
theorem check_remembers (h : w.Remembers limit silent) :
    ((w.check limit).hear false).Remembers limit (silent.map (· + 1)) := by
  obtain ⟨hcount, h⟩ := h
  cases silent with
  | none =>
      obtain ⟨hheard, hfailed⟩ := h
      rw [check, if_neg (by rw [hheard]; exact Bool.false_ne_true)]
      split
      · exact ⟨Nat.zero_le _, hheard, rfl⟩
      · next hle => exact ⟨Nat.not_lt.mp hle, hheard, hfailed⟩
  | some n =>
      cases n with
      | zero =>
          rw [check, if_pos h]
          exact ⟨Nat.zero_le _, rfl, fun _ => ⟨rfl, rfl⟩, fun hlt => absurd hlt (Nat.not_lt_zero _)⟩
      | succ n =>
          obtain ⟨hheard, hcounts, hfailed⟩ := h
          rw [check, if_neg (by rw [hheard]; exact Bool.false_ne_true)]
          split
          · next hlt =>
              refine ⟨Nat.zero_le _, hheard, fun hle => ?_, fun _ => rfl⟩
              have := (hcounts (by omega)).1
              omega
          · next hle =>
              refine ⟨Nat.not_lt.mp hle, hheard, fun hn => ?_, fun hlt => ?_⟩
              · obtain ⟨hn', hfine⟩ := hcounts (by omega)
                exact ⟨congrArg (· + 1) hn', hfine⟩
              · by_cases hlast : n ≤ limit
                · have := (hcounts hlast).1
                  omega
                · exact hfailed (by omega)

theorem check_count_le : (w.check limit).count ≤ limit := by
  rw [check]
  split
  · exact Nat.zero_le _
  · split
    · exact Nat.zero_le _
    · next hle => exact Nat.not_lt.mp hle

theorem round_remembers (h : w.Remembers limit silent) (now : Bool) :
    (w.round limit now).Remembers limit (since silent now) := by
  cases now with
  | true => exact hear_true_remembers check_count_le
  | false => exact check_remembers h

theorem rounds_remember (rounds : List Bool) (h : w.Remembers limit silent) :
    (rounds.foldl (round limit) w).Remembers limit (rounds.foldl since silent) := by
  induction rounds generalizing w silent with
  | nil => exact h
  | cons now rounds ih => exact ih (round_remembers h now)

/-- The answer of the watchdog. -/
theorem check_failed_eq_false (h : w.Remembers limit silent) :
    (w.check limit).failed = false ↔ ∃ n, silent = some n ∧ n ≤ limit := by
  obtain ⟨-, hnext⟩ := check_remembers h
  cases silent with
  | none =>
      have hfailed : (w.check limit).failed = true := hnext.2
      simp [hfailed]
  | some n =>
      have hcounts : n ≤ limit → (w.check limit).failed = false := fun hn => (hnext.2.1 hn).2
      have hfailed : limit < n → (w.check limit).failed = true := hnext.2.2
      constructor
      · intro hfine
        refine ⟨n, rfl, Nat.not_lt.mp fun hlt => ?_⟩
        rw [hfailed hlt] at hfine
        cases hfine
      · rintro ⟨m, hm, hle⟩
        exact hcounts (Option.some.inj hm ▸ hle)

/-- Something was heard within the limit exactly when one of the last rounds heard it. -/
theorem since_le_iff (rounds : List Bool) :
    (∃ n, rounds.foldl since none = some n ∧ n ≤ limit)
      ↔ ∃ i : Nat, rounds[i]? = some true ∧ rounds.length ≤ i + (limit + 1) := by
  induction rounds using List.reverseRecOn generalizing limit with
  | nil => simp
  | append_singleton rounds now ih =>
      rw [List.foldl_append, List.foldl_cons, List.foldl_nil, List.length_append,
        List.length_singleton]
      cases now with
      | true =>
          refine iff_of_true ⟨0, rfl, Nat.zero_le _⟩ ⟨rounds.length, ?_, by omega⟩
          rw [List.getElem?_append_right le_rfl, Nat.sub_self]
          rfl
      | false =>
          have hold : ∀ i : Nat, (rounds ++ [false])[i]? = some true ↔ rounds[i]? = some true := by
            intro i
            by_cases hi : i < rounds.length
            · rw [List.getElem?_append_left hi]
            · have hout : rounds[i]? = none := List.getElem?_eq_none (Nat.not_lt.mp hi)
              rw [List.getElem?_append_right (Nat.not_lt.mp hi), hout]
              cases hlast : i - rounds.length <;> simp
          simp only [hold]
          cases limit with
          | zero =>
              refine iff_of_false ?_ ?_
              · rintro ⟨n, hn, hle⟩
                obtain rfl := Nat.le_zero.mp hle
                rw [since] at hn
                simp at hn
              · rintro ⟨i, hi, hle⟩
                obtain ⟨hlt, -⟩ := List.getElem?_eq_some_iff.mp hi
                omega
          | succ limit =>
              have hshorter := @ih limit
              constructor
              · rintro ⟨n, hn, hle⟩
                obtain ⟨m, hm, rfl⟩ := Option.map_eq_some_iff.mp hn
                obtain ⟨i, hi, hlast⟩ := hshorter.mp ⟨m, hm, by omega⟩
                exact ⟨i, hi, by omega⟩
              · rintro ⟨i, hi, hlast⟩
                obtain ⟨m, hm, hle⟩ := hshorter.mpr ⟨i, hi, by omega⟩
                exact ⟨m + 1, by rw [since, hm]; rfl, by omega⟩

/-- The watchdog is exact: when it is asked next, it says that all is well if and only if something was
heard in one of the last `limit + 1` rounds. -/
theorem check_rounds (rounds : List Bool) :
    ((rounds.foldl (round limit) start).check limit).failed = false
      ↔ ∃ i : Nat, rounds[i]? = some true ∧ rounds.length ≤ i + (limit + 1) := by
  rw [check_failed_eq_false (rounds_remember rounds start_remembers), since_le_iff]

/-- A watchdog that is told the answer of each round and judges at once. -/
def judge (limit : Nat) (w : Watch) (now : Bool) : Watch := (w.hear now).check limit

theorem hear_check_hear (rounds : List Bool) :
    rounds.foldl (judge limit) (w.check limit) = (rounds.foldl (round limit) w).check limit := by
  induction rounds generalizing w with
  | nil => rfl
  | cons now rounds ih => exact ih

theorem judge_count_le (rounds : List Bool) : (rounds.foldl (judge limit) start).count ≤ limit := by
  cases rounds with
  | nil => exact Nat.zero_le limit
  | cons now rounds =>
      rw [List.foldl_cons, judge, hear_check_hear]
      exact check_count_le

/-- It says that all is well if and only if one of the last `limit + 1` answers was good. -/
theorem judge_rounds (rounds : List Bool) :
    (rounds.foldl (judge limit) start).failed = false
      ↔ ∃ i : Nat, rounds[i]? = some true ∧ rounds.length ≤ i + (limit + 1) := by
  rw [← since_le_iff]
  cases rounds with
  | nil =>
      refine iff_of_false Bool.true_eq_false_eq_False ?_
      rintro ⟨n, hn, -⟩
      cases hn
  | cons now rounds =>
      have hfirst : (start.hear now).Remembers limit (since none now) := by
        cases now with
        | true => exact hear_true_remembers (Nat.zero_le limit)
        | false => exact start_remembers
      rw [List.foldl_cons, judge, hear_check_hear,
        check_failed_eq_false (rounds_remember rounds hfirst)]
      rfl

end Watch

end Watchdog
