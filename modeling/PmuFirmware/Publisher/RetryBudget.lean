import PmuFirmware.Lib.Run
import PmuFirmware.Publisher.Boot
import PmuFirmware.Publisher.Retry

/-!
# The retry budget

A message that the main loop publishes again is counted: an unimportant one in `retry_count`, an
important one in `critical_retry_count`. Whatever the other components do between two turns, these
counts depend only on what the loop has selected and published.

The ordinary count starts again with every other message, so it comes to three only for a message that
has been published four times in a row. The critical count does not, so repeats of one critical
message count towards the next one.
-/

namespace Pmu

open CLib

variable (parse : CStr → Option Json) (print : Json → Option CStr)

/-! ### Attempts -/

/-- A turn in which a message has been selected. -/
structure Attempt where
  env : Env
  board : Board
  message : CStr
  importance : Nat

structure RetryState where
  lastSentMessage : Option CStr
  lastCheckTime : UInt64
  retryCount : UInt8
  criticalRetryCount : UInt8

def Publisher.retry (s : Publisher) : RetryState :=
  ⟨s.lastSentMessage, s.lastCheckTime, s.retryCount, s.criticalRetryCount⟩

/-- What deletes messages once a count has come to three. -/
inductive RetryCall
  | searchAndDelete (message : CStr)
  | deleteEntry (message : CStr)
  deriving DecidableEq

def RetryCall.perform (env : Env) : RetryCall → Store → Store
  | .searchAndDelete message, st => (searchAndDeleteMessageFromAnyFile env message st).st
  | .deleteEntry message, st =>
    if parse message = none then (searchAndDeleteMessageFromAnyFile env message st).st else st

namespace Attempt

variable (a : Attempt) (r : RetryState)

/-- The message has just been sent. -/
def Delayed : Prop :=
  r.lastSentMessage = some a.message ∧ a.board.currentTime - r.lastCheckTime < retryInterval

instance : Decidable (a.Delayed r) := inferInstanceAs (Decidable (_ ∧ _))

/-- The client takes the message. -/
def Publishes : Prop := ¬a.Delayed r ∧ a.board.published = true

instance : Decidable (a.Publishes r) := inferInstanceAs (Decidable (_ ∧ _))

/-- The client takes the message, which is the one that it took last. -/
def Repeats : Prop := a.Publishes r ∧ r.lastSentMessage = some a.message

instance : Decidable (a.Repeats r) := inferInstanceAs (Decidable (_ ∧ _))

/-- The counts before they are compared to three. -/
def ordinaryCount : UInt8 := if a.importance = 0 then r.retryCount + 1 else r.retryCount

def criticalCount : UInt8 := if a.importance = 0 then r.criticalRetryCount else r.criticalRetryCount + 1

/-- What an attempt does to the counts. -/
def next : RetryState where
  lastSentMessage := if a.Publishes r then some a.message else r.lastSentMessage
  lastCheckTime := if a.Delayed r then r.lastCheckTime else a.board.currentTime
  retryCount :=
    if a.Repeats r then if 3 ≤ a.ordinaryCount r then 0 else a.ordinaryCount r
    else if a.Publishes r ∧ r.lastSentMessage ≠ none then 0
    else r.retryCount
  criticalRetryCount :=
    if a.Repeats r ∧ a.importance ≠ 0 then if 3 ≤ a.criticalCount r then 0 else a.criticalCount r
    else r.criticalRetryCount

/-- The calls for a message that has been sent again. -/
def repeatCalls : List RetryCall :=
  (if a.importance ≠ 0 ∧ 3 ≤ a.criticalCount r then [.deleteEntry a.message] else [])
    ++ if 3 ≤ a.ordinaryCount r then [.searchAndDelete a.message] else []

/-- The calls that an attempt makes. -/
def calls : List RetryCall := if a.Repeats r then a.repeatCalls r else []

end Attempt

/-! ### What a turn does to the counts -/

section Turn

variable {parse} {print} {env : Env}

theorem deleteEntry_eq (message : CStr) (s : Publisher) :
    deleteEntry parse env message s = { s with
      queue := (RetryCall.deleteEntry message).perform parse env s.queue
      criticalRetryCount := 0 } := by
  rw [deleteEntry, RetryCall.perform]
  split
  · rfl
  · rfl

/-- The counts and the queue after a message has been sent again. -/
theorem countRetry_eq (a : Attempt) (s : Publisher) :
    countRetry parse a.env a.message a.importance s = { s with
      queue := (a.repeatCalls s.retry).foldl (fun st call => call.perform parse a.env st) s.queue
      retryCount := if 3 ≤ a.ordinaryCount s.retry then 0 else a.ordinaryCount s.retry
      criticalRetryCount := if a.importance ≠ 0 ∧ 3 ≤ a.criticalCount s.retry then 0
        else a.criticalCount s.retry } := by
  rw [countRetry, Attempt.repeatCalls, Attempt.ordinaryCount, Attempt.criticalCount]
  by_cases himportance : a.importance = 0
  · by_cases hthree : 3 ≤ s.retryCount + 1
    · simp [himportance, hthree, deleteEverywhere, RetryCall.perform, Publisher.retry]
    · simp [himportance, hthree, Publisher.retry]
  · by_cases hcritical : 3 ≤ s.criticalRetryCount + 1
    · by_cases hthree : 3 ≤ s.retryCount
      · simp [himportance, hcritical, hthree, deleteEntry_eq, deleteEverywhere, RetryCall.perform,
          Publisher.retry]
      · simp [himportance, hcritical, hthree, deleteEntry_eq, Publisher.retry]
    · by_cases hthree : 3 ≤ s.retryCount
      · simp [himportance, hcritical, hthree, deleteEverywhere, RetryCall.perform, Publisher.retry]
      · simp [himportance, hcritical, hthree, Publisher.retry]

section Cases

variable {a : Attempt} {r : RetryState}

theorem Attempt.cases (a : Attempt) (r : RetryState) :
    a.Delayed r ∨ ¬a.Delayed r ∧ a.board.published = false ∨ a.Repeats r
      ∨ a.Publishes r ∧ r.lastSentMessage ≠ some a.message := by
  by_cases hdelayed : a.Delayed r
  · exact .inl hdelayed
  · cases hpublished : a.board.published with
    | false => exact .inr (.inl ⟨hdelayed, rfl⟩)
    | true =>
        have hpublishes : a.Publishes r := ⟨hdelayed, hpublished⟩
        by_cases hsame : r.lastSentMessage = some a.message
        · exact .inr (.inr (.inl ⟨hpublishes, hsame⟩))
        · exact .inr (.inr (.inr ⟨hpublishes, hsame⟩))

theorem Attempt.next_of_delayed (h : a.Delayed r) : a.next r = r := by
  have hnot : ¬a.Publishes r := fun hpublishes => hpublishes.1 h
  have hno : ¬a.Repeats r := fun hrepeats => hnot hrepeats.1
  simp [next, hnot, hno, h]

theorem Attempt.next_of_lost (h : ¬a.Delayed r) (hlost : a.board.published = false) :
    a.next r = { r with lastCheckTime := a.board.currentTime } := by
  have hnot : ¬a.Publishes r := fun hpublishes =>
    Bool.false_ne_true (hlost.symm.trans hpublishes.2)
  have hno : ¬a.Repeats r := fun hrepeats => hnot hrepeats.1
  simp [next, hnot, hno, h]

theorem Attempt.next_of_repeats (h : a.Repeats r) :
    a.next r = {
      lastSentMessage := some a.message
      lastCheckTime := a.board.currentTime
      retryCount := if 3 ≤ a.ordinaryCount r then 0 else a.ordinaryCount r
      criticalRetryCount := if a.importance ≠ 0 ∧ 3 ≤ a.criticalCount r then 0
        else a.criticalCount r } := by
  by_cases himportance : a.importance = 0
  · simp [next, h, h.1, h.1.1, himportance, criticalCount]
  · simp [next, h, h.1, h.1.1, himportance]

theorem Attempt.next_of_other (h : a.Publishes r) (hother : r.lastSentMessage ≠ some a.message) :
    a.next r = { r with
      lastSentMessage := some a.message
      lastCheckTime := a.board.currentTime
      retryCount := if r.lastSentMessage = none then r.retryCount else 0 } := by
  have hno : ¬a.Repeats r := fun hrepeats => hother hrepeats.2
  simp [next, h, h.1, hno]

theorem Attempt.searchAndDelete_mem_calls {message : CStr} :
    .searchAndDelete message ∈ a.calls r
      ↔ a.Repeats r ∧ 3 ≤ a.ordinaryCount r ∧ message = a.message := by
  rw [calls, repeatCalls]
  split
  · next hrepeats => split_ifs <;> simp [*]
  · next hno => simp [hno]

theorem Attempt.deleteEntry_mem_calls {message : CStr} :
    .deleteEntry message ∈ a.calls r
      ↔ a.Repeats r ∧ (a.importance ≠ 0 ∧ 3 ≤ a.criticalCount r) ∧ message = a.message := by
  rw [calls, repeatCalls]
  split
  · next hrepeats => split_ifs <;> simp [*]
  · next hno => simp [hno]

theorem Attempt.calls_of_not (h : ¬a.Repeats r) : a.calls r = [] := if_neg h

end Cases

/-- An attempt has the effect on the counts that `next` says, and makes the calls. -/
theorem publishMessage_eq (a : Attempt) (s : Publisher) :
    (publishMessage parse a.env a.board a.message a.importance s).retry = a.next s.retry
      ∧ (publishMessage parse a.env a.board a.message a.importance s).queue
        = (a.calls s.retry).foldl (fun st call => call.perform parse a.env st) s.queue := by
  rcases a.cases s.retry with hdelayed | ⟨hdelayed, hlost⟩ | hrepeats | ⟨hpublishes, hother⟩
  · rw [Attempt.next_of_delayed hdelayed, Attempt.calls_of_not fun h => h.1.1 hdelayed,
      publishMessage, if_pos]
    · exact ⟨rfl, rfl⟩
    · exact hdelayed
  · rw [Attempt.next_of_lost hdelayed hlost,
      Attempt.calls_of_not fun h => Bool.false_ne_true (hlost.symm.trans h.1.2),
      publishMessage, if_neg]
    · simp only [hlost, Bool.false_eq_true, if_false]
      exact ⟨rfl, rfl⟩
    · exact hdelayed
  · have hlast : s.lastSentMessage = some a.message := hrepeats.2
    rw [Attempt.next_of_repeats hrepeats, Attempt.calls, if_pos hrepeats, publishMessage, if_neg]
    · simp only [hrepeats.1.2, if_true, hlast]
      rw [countRetry_eq]
      exact ⟨rfl, rfl⟩
    · exact hrepeats.1.1
  · have hother : s.lastSentMessage ≠ some a.message := hother
    rw [Attempt.next_of_other hpublishes hother, Attempt.calls_of_not fun h => hother h.2,
      publishMessage, if_neg]
    · simp only [hpublishes.2, if_true]
      cases hlast : s.lastSentMessage with
      | none => simp [Publisher.retry, hlast]
      | some last =>
          have hne : last ≠ a.message := fun h => hother (hlast.trans (congrArg some h))
          simp [Publisher.retry, hlast, hne]
    · exact hpublishes.1

end Turn

/-! ### What has been sent -/

/-- The message that the loop has selected in a turn. -/
def Event.attempt : Env × Event → Publisher → Option Attempt
  | (env, .turn b), s => (offeredMessage env b s).map fun r => ⟨env, b, r.1, r.2⟩
  | _, _ => none

/-- What the client takes. -/
def Event.sent (e : Env × Event) (s : Publisher) : List Attempt :=
  (Event.attempt e s).elim [] fun a => if a.Publishes s.retry then [a] else []

/-- The messages that the client has taken, the last first. -/
def sentDuring (events : List (Env × Event)) (s : Publisher) : List Attempt :=
  Runs.observed (Event.step parse print) Event.sent events s

/-- The times that the turns read, in milliseconds. -/
def clock (events : List (Env × Event)) : List Nat :=
  events.filterMap fun
    | (_, .turn b) => some b.currentTime.toNat
    | _ => none

def Attempt.time (a : Attempt) : Nat := a.board.currentTime.toNat

/-- The board is not restarted. -/
def OneBoot (events : List (Env × Event)) : Prop :=
  ∀ e ∈ events, ∀ exchanged, e.2 ≠ .restarted exchanged

section Events

variable {parse} {print}

theorem publishTurn_retry (env : Env) (b : Board) (s : Publisher) :
    (publishTurn parse env b s).retry
      = (Event.attempt (env, .turn b) s).elim s.retry fun a => a.next s.retry := by
  rw [publishTurn, Event.attempt]
  cases offeredMessage env b s with
  | none => rfl
  | some r => exact (publishMessage_eq ⟨env, b, r.1, r.2⟩ s).1

theorem mainLoop_retry (env : Env) (b : Board) (s : Publisher) :
    (mainLoop parse env b s).retry
      = (Event.attempt (env, .turn b) s).elim s.retry fun a => a.next s.retry := by
  have hturn : mainLoop parse env b s = publishTurn parse env b
      (if s.firstTimeBootUpFlag = 1 ∧ b.networkReady then { s with firstTimeBootUpFlag := 3 }
        else s) := rfl
  rw [hturn]
  split
  · exact publishTurn_retry env b { s with firstTimeBootUpFlag := 3 }
  · exact publishTurn_retry env b s

/-- Only the turns of the loop change the counts. -/
theorem retry_step {e : Env × Event} {s s' : Publisher} (hboot : ∀ exchanged, e.2 ≠ .restarted exchanged)
    (hstep : Event.step parse print e s = some s') :
    s'.retry = (Event.attempt e s).elim s.retry fun a => a.next s.retry := by
  obtain ⟨env, event⟩ := e
  cases event with
  | call f uuid action payload =>
      obtain ⟨text, -, hsaved⟩ := Option.bind_eq_some_iff.mp hstep
      obtain ⟨queue, -, rfl⟩ := Option.map_eq_some_iff.mp hsaved
      rfl
  | received msg =>
      obtain ⟨reply, -, rfl⟩ := Option.map_eq_some_iff.mp hstep
      rfl
  | turn b =>
      obtain rfl := Option.some.inj hstep
      exact mainLoop_retry env b s
  | configured numConnectors =>
      obtain rfl := Option.some.inj hstep
      rfl
  | restarted exchanged => exact absurd rfl (hboot exchanged)

end Events

/-! ### Streaks -/

/-- The messages sent, the last first, end with repeats of one message of which `n` count. What had been
sent before them is a start. -/
def Streak (start : List Attempt → Prop) (counts : Attempt → Bool) (n : Nat) (sent : List Attempt) :
    Prop :=
  sent = [] ∧ n = 0 ∨ ∃ repeats first earlier, sent = repeats ++ first :: earlier
    ∧ start (first :: earlier) ∧ (∀ r ∈ repeats, r.message = first.message) ∧ repeats.countP counts = n

/-- A message that is sent again has waited. -/
def Waited (newer older : Attempt) : Prop :=
  newer.message = older.message → older.time + retryInterval.toNat ≤ newer.time

section Streaks

variable {start start' : List Attempt → Prop} {counts : Attempt → Bool} {n : Nat}
  {sent : List Attempt} {a : Attempt}

theorem Streak.fresh (h : start (a :: sent)) : Streak start counts 0 (a :: sent) :=
  .inr ⟨[], a, sent, rfl, h, by simp, rfl⟩

theorem Streak.mono (h : Streak start counts n sent) (hstart : ∀ sent, start sent → start' sent) :
    Streak start' counts n sent := by
  rcases h with hempty | ⟨repeats, first, earlier, hsent, hfirst, hrest⟩
  · exact .inl hempty
  · exact .inr ⟨repeats, first, earlier, hsent, hstart _ hfirst, hrest⟩

theorem Streak.nil (h : Streak start counts n []) : n = 0 := by
  rcases h with ⟨-, rfl⟩ | ⟨repeats, first, earlier, hsent, -⟩
  · rfl
  · simp at hsent

theorem Streak.again (h : Streak start counts n sent)
    (hlast : sent.head?.map Attempt.message = some a.message) :
    Streak start counts (n + if counts a = true then 1 else 0) (a :: sent) := by
  rcases h with ⟨rfl, -⟩ | ⟨repeats, first, earlier, rfl, hstart, hsame, hcount⟩
  · cases hlast
  · refine .inr ⟨a :: repeats, first, earlier, rfl, hstart, fun r hr => ?_, ?_⟩
    · rcases List.mem_cons.mp hr with rfl | hr
      · cases repeats with
        | nil => exact (Option.some.inj hlast).symm
        | cons r repeats => exact (Option.some.inj hlast).symm.trans (hsame r List.mem_cons_self)
      · exact hsame r hr
    · rw [List.countP_cons, hcount]

/-- Where repeats count, the last message sent is one of them. -/
theorem Streak.repeated (h : Streak start counts n (a :: sent)) (hn : 0 < n) :
    ∃ repeats first earlier, a :: sent = repeats ++ first :: earlier ∧ start (first :: earlier)
      ∧ (∀ r ∈ first :: repeats, r.message = a.message) ∧ repeats.countP counts = n := by
  rcases h with ⟨hempty, -⟩ | ⟨repeats, first, earlier, hsent, hstart, hsame, hcount⟩
  · cases hempty
  · refine ⟨repeats, first, earlier, hsent, hstart, ?_, hcount⟩
    cases repeats with
    | nil => exact absurd hcount (by simp; omega)
    | cons r repeats =>
        obtain ⟨rfl, -⟩ := List.cons.inj hsent
        have hfirst := hsame a List.mem_cons_self
        intro other hother
        rcases List.mem_cons.mp hother with rfl | hother
        · exact hfirst.symm
        · exact (hsame other hother).trans hfirst.symm

/-- Where two repeats or more count, the last three messages sent were the same. -/
theorem Streak.three (h : Streak start counts n sent) (hn : 2 ≤ n) :
    ∃ r₁ r₂ r₃ earlier, sent = r₁ :: r₂ :: r₃ :: earlier
      ∧ r₂.message = r₁.message ∧ r₃.message = r₁.message := by
  rcases h with ⟨-, rfl⟩ | ⟨repeats, first, earlier, rfl, -, hsame, rfl⟩
  · omega
  · have hlength : 2 ≤ repeats.length := hn.trans List.countP_le_length
    obtain ⟨r₁, r₂, rest, rfl⟩ : ∃ r₁ r₂ rest, repeats = r₁ :: r₂ :: rest := by
      cases repeats with
      | nil => simp at hlength
      | cons r₁ repeats =>
          cases repeats with
          | nil => simp at hlength
          | cons r₂ rest => exact ⟨r₁, r₂, rest, rfl⟩
    have hfirst := hsame r₁ (by simp)
    have hsecond : r₂.message = r₁.message := (hsame r₂ (by simp)).trans hfirst.symm
    cases rest with
    | nil => exact ⟨r₁, r₂, first, earlier, rfl, hsecond, hfirst.symm⟩
    | cons r₃ rest =>
        exact ⟨r₁, r₂, r₃, rest ++ first :: earlier, rfl, hsecond,
          (hsame r₃ (by simp)).trans hfirst.symm⟩

end Streaks

/-! ### The ordinary count -/

def unimportant (a : Attempt) : Bool := a.importance = 0

/-- What holds after turns at the given times in which the given messages have been sent. -/
structure Sending (start : List Attempt → Prop) (times : List Nat) (sent : List Attempt)
    (r : RetryState) : Prop where
  last : r.lastSentMessage = sent.head?.map Attempt.message
  checked : r.lastCheckTime = 0 ∨ r.lastCheckTime.toNat ∈ times
  sentBefore : ∀ a, sent.head? = some a → a.time ≤ r.lastCheckTime.toNat
  waited : sent.IsChain Waited
  streak : Streak start unimportant r.retryCount.toNat sent
  below : r.retryCount.toNat < 3

section Sending

variable {start start' : List Attempt → Prop} {times : List Nat} {sent : List Attempt} {r : RetryState}
  {a : Attempt}

theorem sending_powerOn : Sending start [] [] ⟨none, 0, 0, 0⟩ :=
  ⟨rfl, .inl rfl, by simp, .nil, .inl ⟨rfl, rfl⟩, by decide⟩

theorem Sending.mono (h : Sending start times sent r) (hstart : ∀ sent, start sent → start' sent) :
    Sending start' times sent r :=
  ⟨h.last, h.checked, h.sentBefore, h.waited, h.streak.mono hstart, h.below⟩

theorem Sending.lastCheckTime_le (h : Sending start times sent r) (htimes : ∀ t ∈ times, t ≤ a.time) :
    r.lastCheckTime.toNat ≤ a.time := by
  rcases h.checked with hzero | hmem
  · rw [hzero]
    exact Nat.zero_le _
  · exact htimes _ hmem

/-- A message that is not delayed has waited. -/
theorem Sending.waited_cons (h : Sending start times sent r) (htimes : ∀ t ∈ times, t ≤ a.time)
    (hpublishes : a.Publishes r) : (a :: sent).IsChain Waited := by
  cases sent with
  | nil => exact .singleton a
  | cons last sent =>
      refine List.isChain_cons_cons.mpr ⟨fun hsame => ?_, h.waited⟩
      have hlast : r.lastSentMessage = some a.message := h.last.trans (congrArg some hsame.symm)
      have hle := h.lastCheckTime_le htimes
      have hbefore := h.sentBefore last rfl
      have hwaits : retryInterval.toNat ≤ a.time - r.lastCheckTime.toNat := by
        have hnot : ¬a.board.currentTime - r.lastCheckTime < retryInterval :=
          fun hless => hpublishes.1 ⟨hlast, hless⟩
        rw [UInt64.not_lt, UInt64.le_iff_toNat_le, UInt64.toNat_sub_of_le] at hnot
        · exact hnot
        · exact UInt64.le_iff_toNat_le.mpr hle
      omega

theorem toNat_succ_of_lt_three {count : UInt8} (h : count.toNat < 3) :
    (count + 1).toNat = count.toNat + 1 := by
  rw [UInt8.toNat_add]
  exact Nat.mod_eq_of_lt (by simp; omega)

theorem toNat_ordinaryCount (h : r.retryCount.toNat < 3) (a : Attempt) :
    (a.ordinaryCount r).toNat = r.retryCount.toNat + if unimportant a = true then 1 else 0 := by
  rw [Attempt.ordinaryCount, unimportant]
  by_cases himportance : a.importance = 0
  · simp [himportance, toNat_succ_of_lt_three h]
  · simp [himportance]

/-- The count of the repeats, with the one that has just been made. -/
theorem Sending.ordinary (h : Sending start times sent r) (hrepeats : a.Repeats r) :
    Streak start unimportant (a.ordinaryCount r).toNat (a :: sent) := by
  rw [toNat_ordinaryCount h.below]
  exact h.streak.again (h.last.symm.trans hrepeats.2)

/-- Before the first message has been sent there is nothing to count. -/
theorem Sending.empty (h : Sending start times sent r) (hnone : r.lastSentMessage = none) :
    sent = [] ∧ r.retryCount.toNat = 0 := by
  have hempty : sent = [] := by
    rw [h.last, Option.map_eq_none_iff, List.head?_eq_none_iff] at hnone
    exact hnone
  subst hempty
  exact ⟨rfl, h.streak.nil⟩

theorem Sending.next (h : Sending start times sent r) (htimes : ∀ t ∈ times, t ≤ a.time)
    (hstart : a.Publishes r → (a.next r).retryCount = 0 → start (a :: sent)) :
    Sending start (times ++ [a.time]) ((if a.Publishes r then [a] else []) ++ sent) (a.next r) := by
  have hmem : a.board.currentTime.toNat ∈ times ++ [a.time] := by simp [Attempt.time]
  rcases a.cases r with hdelayed | ⟨hdelayed, hlost⟩ | hrepeats | ⟨hpublishes, hother⟩
  · rw [Attempt.next_of_delayed hdelayed, if_neg fun hpublishes => hpublishes.1 hdelayed]
    exact ⟨h.last, h.checked.imp id (List.mem_append_left _), h.sentBefore, h.waited, h.streak, h.below⟩
  · rw [Attempt.next_of_lost hdelayed hlost,
      if_neg fun hpublishes => Bool.false_ne_true (hlost.symm.trans hpublishes.2)]
    exact ⟨h.last, .inr hmem,
      fun b hb => (h.sentBefore b hb).trans (h.lastCheckTime_le htimes), h.waited, h.streak, h.below⟩
  · have hordinary := h.ordinary hrepeats
    replace hstart := hstart hrepeats.1
    rw [Attempt.next_of_repeats hrepeats] at hstart
    rw [Attempt.next_of_repeats hrepeats, if_pos hrepeats.1]
    refine ⟨rfl, .inr hmem, fun b hb => (Option.some.inj hb) ▸ le_rfl, h.waited_cons htimes hrepeats.1,
      ?_, ?_⟩
    · dsimp only at hstart ⊢
      split
      · next hthree => exact .fresh (hstart (if_pos hthree))
      · exact hordinary
    · dsimp only
      split
      · decide
      · next hless => exact UInt8.lt_iff_toNat_lt.mp (UInt8.not_le.mp hless)
  · replace hstart := hstart hpublishes
    rw [Attempt.next_of_other hpublishes hother] at hstart
    rw [Attempt.next_of_other hpublishes hother, if_pos hpublishes]
    refine ⟨rfl, .inr hmem, fun b hb => (Option.some.inj hb) ▸ le_rfl, h.waited_cons htimes hpublishes,
      ?_, ?_⟩
    · dsimp only at hstart ⊢
      split
      · next hnone =>
          have hzero := (h.empty hnone).2
          rw [if_pos hnone] at hstart
          exact hzero ▸ .fresh (hstart (UInt8.toNat_inj.mp hzero))
      · next hsome => exact .fresh (hstart (if_neg hsome))
    · dsimp only
      split
      · exact h.below
      · decide

end Sending

section Run

variable {parse} {print} {exchanged : Bool} {disk : Path → Option CStr} {events : List (Env × Event)}
variable {s : Publisher}

theorem clock_of_attempt {e : Env × Event} {a : Attempt} (h : Event.attempt e s = some a) :
    clock [e] = [a.time] := by
  obtain ⟨env, event⟩ := e
  cases event with
  | turn b =>
      obtain ⟨r, -, rfl⟩ := Option.map_eq_some_iff.mp h
      rfl
  | call => cases h
  | received => cases h
  | configured => cases h
  | restarted => cases h

/-- What every turn does to what has been sent and to the counts. -/
theorem sent_step {e : Env × Event} {s₁ s₂ : Publisher} (hboot : ∀ exchanged, e.2 ≠ .restarted exchanged)
    (hrun : Runs.run (Event.step parse print) events s = some s₁)
    (hstep : Event.step parse print e s₁ = some s₂) :
    Event.attempt e s₁ = none ∧ s₂.retry = s₁.retry
        ∧ sentDuring parse print (events ++ [e]) s = sentDuring parse print events s
      ∨ ∃ a, Event.attempt e s₁ = some a ∧ s₂.retry = a.next s₁.retry
        ∧ sentDuring parse print (events ++ [e]) s
          = (if a.Publishes s₁.retry then [a] else []) ++ sentDuring parse print events s := by
  have hretry := retry_step hboot hstep
  have hsent : sentDuring parse print (events ++ [e]) s
      = Event.sent e s₁ ++ sentDuring parse print events s :=
    Runs.observed_append_singleton Event.sent hrun hstep
  rw [Event.sent] at hsent
  cases hattempt : Event.attempt e s₁ with
  | none =>
      rw [hattempt] at hretry hsent
      exact .inl ⟨rfl, hretry, hsent⟩
  | some a =>
      rw [hattempt] at hretry hsent
      exact .inr ⟨a, rfl, hretry, hsent⟩

variable (parse print) in
/-- These messages have been sent at a time of the run at which the count is 0. -/
def SentAtZero (events : List (Env × Event)) (s : Publisher) (sent : List Attempt) : Prop :=
  ∃ before later s₀, before ++ later = events ∧ Runs.run (Event.step parse print) before s = some s₀
    ∧ sentDuring parse print before s = sent ∧ s₀.retryCount = 0

theorem SentAtZero.snoc {sent : List Attempt} (h : SentAtZero parse print events s sent)
    (e : Env × Event) : SentAtZero parse print (events ++ [e]) s sent := by
  obtain ⟨before, later, s₀, rfl, hrun⟩ := h
  exact ⟨before, later ++ [e], s₀, (List.append_assoc _ _ _).symm, hrun⟩

theorem sending_run (hboot : OneBoot events)
    (hrun : Runs.run (Event.step parse print) events (powerOn exchanged disk) = some s)
    (hclock : (clock events).Pairwise (· ≤ ·)) :
    Sending (SentAtZero parse print events (powerOn exchanged disk)) (clock events)
      (sentDuring parse print events (powerOn exchanged disk)) s.retry := by
  refine Runs.run_history_of_meets (s := powerOn exchanged disk)
    (P := fun (events : List (Env × Event)) (s : Publisher) => (clock events).Pairwise (· ≤ ·) →
      Sending (SentAtZero parse print events (powerOn exchanged disk)) (clock events)
        (sentDuring parse print events (powerOn exchanged disk)) s.retry)
    (fun _ => sending_powerOn) (fun events e s₁ s₂ hrun₁ hcond hbefore hstep hclock => ?_)
    (.of_forall fun e he _ => hboot e he) hrun hclock
  have hsplit : clock (events ++ [e]) = clock events ++ clock [e] := List.filterMap_append
  rw [hsplit] at hclock ⊢
  obtain ⟨hclock, -, hlast⟩ := List.pairwise_append.mp hclock
  have h := (hbefore hclock).mono fun sent hsent => hsent.snoc e
  rcases sent_step hcond hrun₁ hstep with ⟨-, hretry, hsent⟩ | ⟨a, hattempt, hretry, hsent⟩
  · rw [hretry, hsent]
    exact ⟨h.last, h.checked.imp id (List.mem_append_left _), h.sentBefore, h.waited, h.streak, h.below⟩
  · rw [hretry, hsent, clock_of_attempt hattempt]
    rw [clock_of_attempt hattempt] at hlast
    refine h.next (fun t ht => hlast t ht a.time List.mem_cons_self) fun hpublishes hzero => ?_
    rw [if_pos hpublishes] at hsent
    exact ⟨events ++ [e], [], s₂, List.append_nil _, Runs.run_append_singleton.mpr ⟨s₁, hrun₁, hstep⟩,
      hsent, (congrArg RetryState.retryCount hretry).trans hzero⟩

end Run

/-- A call to delete an ordinary message is made for its third counted repeat, and is due to the
message that has been sent the last four times, each time after waiting. There is a time at which the
count was 0 such that only this message has been sent since, and exactly three of these repeats were
unimportant, the last one among them. -/
theorem ordinary_budget {parse : CStr → Option Json} {print : Json → Option CStr} {exchanged : Bool}
    {disk : Path → Option CStr} {events : List (Env × Event)} {s : Publisher} (hboot : OneBoot events)
    (hrun : Runs.run (Event.step parse print) events (powerOn exchanged disk) = some s) {env : Env}
    {b : Board} (hclock : (clock (events ++ [(env, .turn b)])).Pairwise (· ≤ ·)) {a : Attempt}
    (hattempt : Event.attempt (env, .turn b) s = some a) {message : CStr}
    (hcall : .searchAndDelete message ∈ a.calls s.retry) :
    a.importance = 0
      ∧ (∃ r₁ r₂ r₃ earlier,
        sentDuring parse print events (powerOn exchanged disk) = r₁ :: r₂ :: r₃ :: earlier
          ∧ (∀ r ∈ [a, r₁, r₂, r₃], r.message = message)
          ∧ r₁.time + retryInterval.toNat ≤ a.time ∧ r₂.time + retryInterval.toNat ≤ r₁.time
          ∧ r₃.time + retryInterval.toNat ≤ r₂.time)
      ∧ ∃ repeats first earlier,
        a :: sentDuring parse print events (powerOn exchanged disk) = repeats ++ first :: earlier
          ∧ SentAtZero parse print events (powerOn exchanged disk) (first :: earlier)
          ∧ (∀ r ∈ first :: repeats, r.message = message)
          ∧ repeats.countP (fun r => r.importance = 0) = 3 := by
  have hsplit : clock (events ++ [(env, .turn b)]) = clock events ++ [a.time] :=
    List.filterMap_append.trans (congrArg _ (clock_of_attempt hattempt))
  rw [hsplit] at hclock
  obtain ⟨hclock, -, hlast⟩ := List.pairwise_append.mp hclock
  have htimes : ∀ t ∈ clock events, t ≤ a.time := fun t ht => hlast t ht a.time List.mem_cons_self
  have h := sending_run hboot hrun hclock
  obtain ⟨hrepeats, hcounted, rfl⟩ := Attempt.searchAndDelete_mem_calls.mp hcall
  have hcounted : 3 ≤ (a.ordinaryCount s.retry).toNat := UInt8.le_iff_toNat_le.mp hcounted
  have hordinary := toNat_ordinaryCount h.below a
  have hbelow := h.below
  have himportance : unimportant a = true := by
    by_contra hnot
    rw [if_neg hnot] at hordinary
    omega
  rw [if_pos himportance] at hordinary
  obtain ⟨r₁, r₂, r₃, earlier, hsent, hsecond, hthird⟩ := h.streak.three (by omega)
  have hthree : (a.ordinaryCount s.retry).toNat = 3 := by omega
  have hstreak := h.ordinary hrepeats
  rw [hthree] at hstreak
  have hwaited := h.waited_cons htimes hrepeats.1
  have hlast := h.last.symm.trans hrepeats.2
  rw [hsent] at hwaited hlast
  have hfirst : r₁.message = a.message := Option.some.inj hlast
  simp only [List.isChain_cons_cons] at hwaited
  obtain ⟨hwaited₁, hwaited₂, hwaited₃, -⟩ := hwaited
  refine ⟨of_decide_eq_true himportance, ⟨r₁, r₂, r₃, earlier, hsent, ?_, hwaited₁ hfirst.symm,
    hwaited₂ hsecond.symm, hwaited₃ (hsecond.trans hthird.symm)⟩, hstreak.repeated (by decide)⟩
  simp [hfirst, hsecond, hthird]

/-! ### A message that is queued twice -/

/-- A fault in the request log, and the same one in a fault log. -/
def queuedTwice : Path → Option CStr := fun p =>
  if p = .queue .request ∨ p = .queue .onlineCharger then
    some (unlines [entryLine faultMessage newYear])
  else none

/-- The fault logs cannot be looked at. -/
def withoutFaults : Env := { healthy with stats := fun _ => false }

def turnAt (env : Env) (currentTime : UInt64) : Env × Event :=
  (env, .turn ⟨true, true, true, true, currentTime, true, true⟩)

/-- The message is sent from the request log until the gate is open, then once from the fault log. -/
def fromBothLogs : List (Env × Event) :=
  [turnAt healthy 0, turnAt healthy 20000,
    (healthy, .call .request bootUuid configurationData (.object [])),
    (healthy, .received bootResponse), turnAt healthy 40000, turnAt withoutFaults 60000]

def afterBothLogs : Publisher :=
  (Runs.run (Event.step parseBoot fun _ => some bootMessage) fromBothLogs
    (powerOn false queuedTwice)).getD (powerOn false queuedTwice)

theorem fromBothLogs_oneBoot : OneBoot fromBothLogs := by
  intro e he exchanged
  simp only [fromBothLogs, List.mem_cons, List.not_mem_nil, or_false] at he
  rcases he with rfl | rfl | rfl | rfl | rfl | rfl <;> exact fun h => by cases h

theorem fromBothLogs_runs :
    Runs.run (Event.step parseBoot fun _ => some bootMessage) fromBothLogs
      (powerOn false queuedTwice) = some afterBothLogs := by
  have hruns : (Runs.run (Event.step parseBoot fun _ => some bootMessage) fromBothLogs
      (powerOn false queuedTwice)).isSome = true := by decide +kernel
  obtain ⟨s, hs⟩ := Option.isSome_iff_exists.mp hruns
  rw [afterBothLogs, hs, Option.getD_some]

/-- The attempt that follows. -/
def lastAttempt : Attempt where
  env := withoutFaults
  board := ⟨true, true, true, true, 80000, true, true⟩
  message := faultMessage
  importance := 0

theorem lastAttempt_selected :
    Event.attempt (turnAt withoutFaults 80000) afterBothLogs = some lastAttempt := by
  have hselected : Event.attempt (turnAt withoutFaults 80000) afterBothLogs
      = (offeredMessage withoutFaults lastAttempt.board afterBothLogs).map fun r =>
        ⟨withoutFaults, lastAttempt.board, r.1, r.2⟩ := rfl
  have hoffered : offeredMessage withoutFaults lastAttempt.board afterBothLogs
      = some (faultMessage, 0) := by decide +kernel
  rw [hselected, hoffered]
  rfl

theorem lastAttempt_calls :
    .searchAndDelete faultMessage ∈ lastAttempt.calls afterBothLogs.retry := by decide +kernel

theorem fromBothLogs_clock :
    (clock (fromBothLogs ++ [turnAt withoutFaults 80000])).Pairwise (· ≤ ·) := by decide

theorem queued_twice_is_given_up :
    ∃ repeats first earlier,
      lastAttempt :: sentDuring parseBoot (fun _ => some bootMessage) fromBothLogs
          (powerOn false queuedTwice) = repeats ++ first :: earlier
        ∧ SentAtZero parseBoot (fun _ => some bootMessage) fromBothLogs (powerOn false queuedTwice)
          (first :: earlier)
        ∧ (∀ r ∈ first :: repeats, r.message = faultMessage)
        ∧ repeats.countP (fun r => r.importance = 0) = 3 :=
  (ordinary_budget fromBothLogs_oneBoot fromBothLogs_runs fromBothLogs_clock lastAttempt_selected
    lastAttempt_calls).2.2

/-- Of its last three repeats one was important. -/
theorem important_repeat_does_not_count :
    OneBoot fromBothLogs
      ∧ Runs.run (Event.step parseBoot fun _ => some bootMessage) fromBothLogs
        (powerOn false queuedTwice) = some afterBothLogs
      ∧ (clock (fromBothLogs ++ [turnAt withoutFaults 80000])).Pairwise (· ≤ ·)
      ∧ Event.attempt (turnAt withoutFaults 80000) afterBothLogs = some lastAttempt
      ∧ .searchAndDelete faultMessage ∈ lastAttempt.calls afterBothLogs.retry
      ∧ (lastAttempt :: sentDuring parseBoot (fun _ => some bootMessage) fromBothLogs
          (powerOn false queuedTwice)).map Attempt.importance = [0, 0, 3, 0, 0] :=
  ⟨fromBothLogs_oneBoot, fromBothLogs_runs, fromBothLogs_clock, lastAttempt_selected,
    lastAttempt_calls, by decide +kernel⟩

/-! ### The critical count -/

/-- No count of another message is left over when a message is sent. -/
def StartsAgain (e : Env × Event) (s : Publisher) : Prop :=
  ∀ a ∈ Event.attempt e s, a.Publishes s.retry → s.lastSentMessage ≠ some a.message →
    s.criticalRetryCount = 0

instance (e : Env × Event) (s : Publisher) : Decidable (StartsAgain e s) :=
  inferInstanceAs (Decidable (∀ a ∈ Event.attempt e s, _))

def important (a : Attempt) : Bool := a.importance ≠ 0

structure CriticalSending (sent : List Attempt) (r : RetryState) : Prop where
  last : r.lastSentMessage = sent.head?.map Attempt.message
  streak : Streak (fun _ => True) important r.criticalRetryCount.toNat sent
  below : r.criticalRetryCount.toNat < 3

section Critical

variable {sent : List Attempt} {r : RetryState} {a : Attempt}

theorem toNat_criticalCount (h : r.criticalRetryCount.toNat < 3) (a : Attempt) :
    (a.criticalCount r).toNat
      = r.criticalRetryCount.toNat + if important a = true then 1 else 0 := by
  rw [Attempt.criticalCount, important]
  by_cases himportance : a.importance = 0
  · simp [himportance]
  · simp [himportance, toNat_succ_of_lt_three h]

theorem CriticalSending.critical (h : CriticalSending sent r) (hrepeats : a.Repeats r) :
    Streak (fun _ => True) important (a.criticalCount r).toNat (a :: sent) := by
  rw [toNat_criticalCount h.below]
  exact h.streak.again (h.last.symm.trans hrepeats.2)

theorem CriticalSending.next (h : CriticalSending sent r)
    (hagain : a.Publishes r → r.lastSentMessage ≠ some a.message → r.criticalRetryCount = 0) :
    CriticalSending ((if a.Publishes r then [a] else []) ++ sent) (a.next r) := by
  rcases a.cases r with hdelayed | ⟨hdelayed, hlost⟩ | hrepeats | ⟨hpublishes, hother⟩
  · rw [Attempt.next_of_delayed hdelayed, if_neg fun hpublishes => hpublishes.1 hdelayed]
    exact h
  · rw [Attempt.next_of_lost hdelayed hlost,
      if_neg fun hpublishes => Bool.false_ne_true (hlost.symm.trans hpublishes.2)]
    exact ⟨h.last, h.streak, h.below⟩
  · have hcritical := h.critical hrepeats
    have hbelow := toNat_criticalCount h.below a
    rw [Attempt.next_of_repeats hrepeats, if_pos hrepeats.1]
    refine ⟨rfl, ?_, ?_⟩
    · dsimp only
      split
      · exact .fresh trivial
      · exact hcritical
    · dsimp only
      split
      · decide
      · next hless =>
          by_cases himportance : a.importance = 0
          · rw [hbelow, if_neg (by simp [important, himportance])]
            exact h.below
          · exact UInt8.lt_iff_toNat_lt.mp (UInt8.not_le.mp fun hthree => hless ⟨himportance, hthree⟩)
  · rw [Attempt.next_of_other hpublishes hother, if_pos hpublishes]
    refine ⟨rfl, ?_, h.below⟩
    dsimp only
    rw [hagain hpublishes hother]
    exact .fresh trivial

end Critical

section Run

variable {parse} {print} {exchanged : Bool} {disk : Path → Option CStr} {events : List (Env × Event)}
variable {s : Publisher}

theorem criticalSending_run (hboot : OneBoot events)
    (hrun : Runs.run (Event.step parse print) events (powerOn exchanged disk) = some s)
    (hmeets : Runs.Meets (Event.step parse print) StartsAgain events (powerOn exchanged disk)) :
    CriticalSending (sentDuring parse print events (powerOn exchanged disk)) s.retry := by
  have hstart : CriticalSending [] (powerOn exchanged disk).retry :=
    ⟨rfl, .inl ⟨rfl, rfl⟩, Nat.succ_pos 2⟩
  have honce : Runs.Meets (Event.step parse print)
      (fun e _ => ∀ exchanged, e.2 ≠ .restarted exchanged) events (powerOn exchanged disk) :=
    .of_forall fun e he _ => hboot e he
  refine Runs.run_history_of_meets (s := powerOn exchanged disk)
    (P := fun (events : List (Env × Event)) (s : Publisher) =>
      CriticalSending (sentDuring parse print events (powerOn exchanged disk)) s.retry)
    hstart (fun events e s₁ s₂ hrun₁ hcond h hstep => ?_) (honce.and hmeets) hrun
  rcases sent_step hcond.1 hrun₁ hstep with ⟨-, hretry, hsent⟩ | ⟨a, hattempt, hretry, hsent⟩
  · rw [hretry, hsent]
    exact h
  · rw [hretry, hsent]
    exact h.next (hcond.2 a hattempt)

end Run

/-- As long as no count is left over when another message is sent, `delete_entry` is called for a
message that has itself been sent again three times in a row, each of which was counted. -/
theorem critical_budget {parse : CStr → Option Json} {print : Json → Option CStr} {exchanged : Bool}
    {disk : Path → Option CStr} {events : List (Env × Event)} {s : Publisher} (hboot : OneBoot events)
    (hrun : Runs.run (Event.step parse print) events (powerOn exchanged disk) = some s)
    (hmeets : Runs.Meets (Event.step parse print) StartsAgain events (powerOn exchanged disk))
    {a : Attempt} {message : CStr} (hcall : .deleteEntry message ∈ a.calls s.retry) :
    (∃ r₁ r₂ r₃ earlier,
      sentDuring parse print events (powerOn exchanged disk) = r₁ :: r₂ :: r₃ :: earlier
        ∧ ∀ r ∈ [a, r₁, r₂, r₃], r.message = message)
      ∧ ∃ repeats first earlier,
        a :: sentDuring parse print events (powerOn exchanged disk) = repeats ++ first :: earlier
          ∧ (∀ r ∈ first :: repeats, r.message = message)
          ∧ repeats.countP (fun r => r.importance ≠ 0) = 3 := by
  obtain ⟨hrepeats, ⟨himportance, hcounted⟩, rfl⟩ := Attempt.deleteEntry_mem_calls.mp hcall
  have hcounted : 3 ≤ (a.criticalCount s.retry).toNat := UInt8.le_iff_toNat_le.mp hcounted
  have h := criticalSending_run hboot hrun hmeets
  have hbelow := h.below
  have hcritical := toNat_criticalCount h.below a
  rw [if_pos (by simpa [important] using himportance)] at hcritical
  obtain ⟨r₁, r₂, r₃, earlier, hsent, hsecond, hthird⟩ := h.streak.three (by omega)
  have hthree : (a.criticalCount s.retry).toNat = 3 := by omega
  have hstreak := h.critical hrepeats
  rw [hthree] at hstreak
  have hlast := h.last.symm.trans hrepeats.2
  rw [hsent] at hlast
  have hfirst : r₁.message = a.message := Option.some.inj hlast
  obtain ⟨repeats, first, before, hsplit, -, hrepeated⟩ := hstreak.repeated (by decide)
  refine ⟨⟨r₁, r₂, r₃, earlier, hsent, ?_⟩, repeats, first, before, hsplit, hrepeated⟩
  simp [hfirst, hsecond, hthird]

/-- A request that is sent three times and never answered. -/
def sentThrice : List (Env × Event) :=
  [turnAt healthy 0, turnAt healthy 20000, turnAt healthy 40000]

def afterThree : Publisher :=
  (Runs.run (Event.step parseSamples printSample) sentThrice (singleLine requestMessage)).getD
    (singleLine requestMessage)

def fourthAttempt (message : CStr) : Attempt where
  env := healthy
  board := ⟨true, true, true, true, 80000, true, true⟩
  message := message
  importance := 1

theorem sentThrice_is_repeated :
    ∃ r₁ r₂ r₃ earlier,
      sentDuring parseSamples printSample sentThrice (singleLine requestMessage)
          = r₁ :: r₂ :: r₃ :: earlier
        ∧ ∀ r ∈ [fourthAttempt requestMessage, r₁, r₂, r₃], r.message = requestMessage := by
  have hboot : OneBoot sentThrice := by
    intro e he exchanged
    simp only [sentThrice, List.mem_cons, List.not_mem_nil, or_false] at he
    rcases he with rfl | rfl | rfl <;> exact fun h => by cases h
  have hrun : Runs.run (Event.step parseSamples printSample) sentThrice (singleLine requestMessage)
      = some afterThree := rfl
  refine (critical_budget hboot hrun ⟨by decide +kernel, fun s hs => ⟨?_, fun s' hs' => ⟨?_,
    fun _ _ => trivial⟩⟩⟩ (a := fourthAttempt requestMessage) (by decide +kernel)).1
  · obtain rfl := Option.some.inj hs
    decide +kernel
  · obtain rfl := Option.some.inj hs
    obtain rfl := Option.some.inj hs'
    decide +kernel

def otherRequest : CStr := "[2,\"c3\",\"ConfigurationData\",\x7b\x7d]".toList

/-- The answer to the first request. -/
def firstAnswer : CStr := "[3,\"a1\",\x7b\"timestamp\":\"2025-01-01T00:00:00Z\"\x7d]".toList

def parseRequests (text : CStr) : Option Json :=
  if text = firstAnswer then some (.array [.number 3, .string "a1".toList, responsePayload])
  else if text = otherRequest then
    some (.array [.number 2, .string "c3".toList, .string "ConfigurationData".toList, .object []])
  else parseSamples text

def twoRequests : Path → Option CStr := fun p =>
  if p = .queue .request then
    some (unlines [entryLine requestMessage newYear, entryLine otherRequest newYear])
  else none

/-- The first request is sent three times and then answered, and the second one is sent. -/
def answeredLate : List (Env × Event) :=
  sentThrice ++ [(healthy, .received firstAnswer), turnAt healthy 60000]

def afterLateAnswer : Publisher :=
  (Runs.run (Event.step parseRequests printSample) answeredLate
    (powerOn false twoRequests)).getD (powerOn false twoRequests)

/-- The second request has been sent once when its first repeat makes `delete_entry` be called. -/
theorem second_request_inherits_count :
    OneBoot answeredLate
      ∧ Runs.run (Event.step parseRequests printSample) answeredLate (powerOn false twoRequests)
        = some afterLateAnswer
      ∧ Event.attempt (turnAt healthy 80000) afterLateAnswer = some (fourthAttempt otherRequest)
      ∧ .deleteEntry otherRequest ∈ (fourthAttempt otherRequest).calls afterLateAnswer.retry
      ∧ (fourthAttempt otherRequest :: sentDuring parseRequests printSample answeredLate
          (powerOn false twoRequests)).map Attempt.message
        = [otherRequest, otherRequest, requestMessage, requestMessage, requestMessage] := by
  refine ⟨?_, ?_, ?_, by decide +kernel, by decide +kernel⟩
  · intro e he exchanged
    simp only [answeredLate, sentThrice, List.mem_append, List.mem_cons, List.not_mem_nil, or_false]
      at he
    rcases he with (rfl | rfl | rfl) | rfl | rfl <;> exact fun h => by cases h
  · have hruns : (Runs.run (Event.step parseRequests printSample) answeredLate
        (powerOn false twoRequests)).isSome = true := by decide +kernel
    obtain ⟨s, hs⟩ := Option.isSome_iff_exists.mp hruns
    rw [afterLateAnswer, hs, Option.getD_some]
  · have hselected : Event.attempt (turnAt healthy 80000) afterLateAnswer
        = (offeredMessage healthy (fourthAttempt otherRequest).board afterLateAnswer).map fun r =>
          ⟨healthy, (fourthAttempt otherRequest).board, r.1, r.2⟩ := rfl
    have hoffered : offeredMessage healthy (fourthAttempt otherRequest).board afterLateAnswer
        = some (otherRequest, 1) := by decide +kernel
    rw [hselected, hoffered]
    rfl

end Pmu
