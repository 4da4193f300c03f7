import PmuFirmware.Queue.Enqueueing

/-!
# Comparing timestamps

`compare_timestamps` returns a number of seconds, a 64-bit difference that passes through a `double`
into an `int`. The language defines no result for a difference that an `int` cannot hold; up to here
it was taken to saturate. The scan for the oldest line compares each line with the oldest so far, and
the first one with a date that is invalid on purpose: of it `strptime` keeps the year only, so it
stands for the last day of 9998. "Before" is not transitive where two times are too far apart: the scan
can reach a time in two steps that it could not compare with the first.
-/

namespace Pmu

open CLib

/-- The conversion of an integral `double` to `int`, where the language defines it. -/
def toIntDefined (x : Int) : Option Int := if -2 ^ 31 ≤ x ∧ x < 2 ^ 31 then some x else none

/-- `compare_timestamps`, with no result where the conversion has none. -/
def compareTimestampsDefined (ts1 ts2 : CStr) : Option Int :=
  toIntDefined (instant (.posix true) ts1 - instant (.posix true) ts2)

theorem toIntDefined_eq_some {x r : Int} :
    toIntDefined x = some r ↔ x = r ∧ -2 ^ 31 ≤ x ∧ x < 2 ^ 31 := by
  rw [toIntDefined, Option.ite_none_right_eq_some, Option.some.injEq, and_comm]

/-- A result that says of two texts which one is before the other, to the second. -/
structure Orders (ts1 ts2 : CStr) (r : Int) : Prop where
  neg : r < 0 ↔ instant (.posix true) ts1 < instant (.posix true) ts2
  zero : r = 0 ↔ instant (.posix true) ts1 = instant (.posix true) ts2
  pos : 0 < r ↔ instant (.posix true) ts2 < instant (.posix true) ts1

theorem orders_of_defined {ts1 ts2 : CStr} {r : Int}
    (hr : compareTimestampsDefined ts1 ts2 = some r) : Orders ts1 ts2 r := by
  obtain ⟨rfl, -⟩ := toIntDefined_eq_some.mp hr
  constructor <;> omega

/-- The comparison has a result that says that `ts1` is before `ts2`. -/
def Before (ts1 ts2 : CStr) : Prop := ∃ r < 0, compareTimestampsDefined ts1 ts2 = some r

theorem before_iff {ts1 ts2 : CStr} :
    Before ts1 ts2 ↔ instant (.posix true) ts1 < instant (.posix true) ts2
      ∧ instant (.posix true) ts2 ≤ instant (.posix true) ts1 + 2 ^ 31 := by
  constructor
  · rintro ⟨r, hneg, hr⟩
    obtain ⟨rfl, hlow, -⟩ := toIntDefined_eq_some.mp hr
    omega
  · rintro ⟨hlt, hle⟩
    exact ⟨_, by omega, toIntDefined_eq_some.mpr ⟨rfl, by omega, by omega⟩⟩

/-! ### The seconds of a scan -/

theorem instant_futureTimestamp : instant (.posix true) futureTimestamp = 253370678400 := by
  decide

theorem mktime_le (t : UtcTime) : mktime t.tm ≤ 253402387200 := by
  have hyear : t.year ≤ 9999 := Nat.le_of_lt_succ t.year_lt
  exact (mktime_tm_le t hyear).trans (by decide)

theorem defined_iff (t t' : UtcTime) :
    (∃ r, compareTimestampsDefined (timestampText t) (timestampText t') = some r)
      ↔ mktime t'.tm ≤ mktime t.tm + 2147483648 ∧ mktime t.tm ≤ mktime t'.tm + 2147483647 := by
  simp only [compareTimestampsDefined, toIntDefined_eq_some, instant_timestampText]
  constructor
  · rintro ⟨r, -, hlow, hhigh⟩
    omega
  · intro h
    exact ⟨_, rfl, by omega, by omega⟩

/-- Only the times from 9930-12-12T20:45:52 on are near the initial timestamp. -/
theorem defined_initial_iff (t : UtcTime) :
    (∃ r, compareTimestampsDefined (timestampText t) futureTimestamp = some r)
      ↔ 251223194752 ≤ mktime t.tm := by
  have hle := mktime_le t
  simp only [compareTimestampsDefined, toIntDefined_eq_some, instant_timestampText,
    instant_futureTimestamp]
  constructor
  · rintro ⟨r, -, hlow, -⟩
    omega
  · intro h
    exact ⟨_, rfl, by omega, by omega⟩

/-! ### The scan -/

section Scan

variable {f : QueueFile}

/-- `oldest_line` and `oldest_timestamp` after the lines `es`. -/
def scan (es : List (Entry f)) : Option Oldest :=
  (es.map fun e => e.line ++ [newline]).foldlM (oldestLine (.posix true)) Oldest.start

/-- The timestamps that the scan of `es` can compare. -/
def scanned (es : List (Entry f)) : List CStr :=
  futureTimestamp :: es.map fun e => timestampText e.time

/-- Each comparison that the scan makes has a result that orders its two timestamps, and over all
timestamps of the scan "before" is transitive. -/
structure SoundScan (es : List (Entry f)) : Prop where
  orders : ∀ done e later, es = done ++ e :: later → ∃ o r, scan done = some o
    ∧ compareTimestampsDefined (timestampText e.time) o.timestamp = some r
    ∧ Orders (timestampText e.time) o.timestamp r
  trans : ∀ a ∈ scanned es, ∀ b ∈ scanned es, ∀ c ∈ scanned es, Before a b → Before b c → Before a c

/-- The scan holds one of the timestamps it has seen, or the initial one. -/
theorem scan_timestamp (es : List (Entry f)) : ∃ o, scan es = some o ∧ o.timestamp ∈ scanned es := by
  obtain ⟨o, hscan, rfl | ⟨e, he, rfl⟩⟩ := foldlM_oldestLine (.posix true) es Oldest.start
  · exact ⟨_, hscan, List.mem_cons_self⟩
  · exact ⟨_, hscan, List.mem_cons_of_mem _ (List.mem_map.mpr ⟨e, he, rfl⟩)⟩

/-- One more line is kept when its time is before the oldest one. -/
theorem scan_append_singleton {es : List (Entry f)} {o : Oldest} (hscan : scan es = some o)
    (e : Entry f) :
    scan (es ++ [e]) = some (if instant (.posix true) (timestampText e.time)
        < instant (.posix true) o.timestamp
      then ⟨e.message, timestampText e.time⟩ else o) := by
  have hline := oldestLine_line (.posix true) o e
  simp only [compareTimestamps_neg] at hline
  rw [scan, List.map_append, List.foldlM_append]
  show (scan es).bind _ = _
  rw [hscan, Option.bind_some, ← hline]
  exact bind_pure _

theorem scanned_append_singleton (es : List (Entry f)) (e : Entry f) :
    scanned (es ++ [e]) = scanned es ++ [timestampText e.time] := by
  rw [scanned, List.map_append]
  rfl

/-! ### The oldest timestamp of a sound scan -/

/-- Of the timestamps seen, each has the time of this one, or this one is before it. -/
def Least (ts : CStr) (seen : List CStr) : Prop :=
  ∀ ts' ∈ seen, instant (.posix true) ts' = instant (.posix true) ts ∨ Before ts ts'

theorem Least.within {ts ts' : CStr} {seen : List CStr} (h : Least ts seen) (hts' : ts' ∈ seen) :
    instant (.posix true) ts ≤ instant (.posix true) ts'
      ∧ instant (.posix true) ts' ≤ instant (.posix true) ts + 2 ^ 31 := by
  rcases h ts' hts' with heq | hbefore
  · omega
  · have hspan := before_iff.mp hbefore
    omega

theorem Least.older {ts ts' : CStr} {seen : List CStr} (h : Least ts seen) (hbefore : Before ts' ts)
    (htrans : ∀ a ∈ seen, Before ts a → Before ts' a) : Least ts' (seen ++ [ts']) := by
  intro a ha
  rcases List.mem_append.mp ha with ha | ha
  · rcases h a ha with heq | hafter
    · rw [before_iff] at hbefore ⊢
      omega
    · exact .inr (htrans a ha hafter)
  · exact .inl (congrArg _ (List.mem_singleton.mp ha))

theorem Least.kept {ts ts' : CStr} {seen : List CStr} {r : Int} (h : Least ts seen)
    (hr : compareTimestampsDefined ts' ts = some r)
    (hle : instant (.posix true) ts ≤ instant (.posix true) ts') : Least ts (seen ++ [ts']) := by
  intro a ha
  rcases List.mem_append.mp ha with ha | ha
  · exact h a ha
  · obtain rfl := List.mem_singleton.mp ha
    obtain ⟨-, -, hhigh⟩ := toIntDefined_eq_some.mp hr
    rw [before_iff]
    omega

theorem mem_scanned_of_split {es done later : List (Entry f)} (hsplit : es = done ++ later)
    {ts : CStr} (hts : ts ∈ scanned done) : ts ∈ scanned es := by
  rw [scanned, hsplit, List.map_append, ← List.cons_append]
  exact List.mem_append_left _ hts

/-- The scan is sound, so what it holds after some of the lines is the least of their timestamps. -/
theorem SoundScan.least {es : List (Entry f)} (h : SoundScan es) (done later : List (Entry f))
    (hsplit : es = done ++ later) :
    ∃ o, scan done = some o ∧ o.timestamp ∈ scanned done ∧ Least o.timestamp (scanned done) := by
  induction done using List.reverseRecOn generalizing later with
  | nil =>
      exact ⟨Oldest.start, rfl, List.mem_cons_self,
        fun ts hts => .inl (congrArg _ (List.mem_singleton.mp hts))⟩
  | append_singleton done e ih =>
      have hnext : es = done ++ e :: later := by
        rw [hsplit, List.append_assoc, List.singleton_append]
      obtain ⟨o, hscan, ho, hleast⟩ := ih (e :: later) hnext
      obtain ⟨o', r, hscan', hr, horders⟩ := h.orders done e later hnext
      obtain rfl := Option.some.inj (hscan.symm.trans hscan')
      have hlast : timestampText e.time ∈ scanned done ++ [timestampText e.time] :=
        List.mem_append_right _ List.mem_cons_self
      rw [scan_append_singleton hscan, scanned_append_singleton]
      by_cases hlt : instant (.posix true) (timestampText e.time)
          < instant (.posix true) o.timestamp
      · rw [if_pos hlt]
        have hbefore : Before (timestampText e.time) o.timestamp :=
          ⟨r, horders.neg.mpr hlt, hr⟩
        have he : timestampText e.time ∈ scanned es :=
          mem_scanned_of_split hsplit (by rw [scanned_append_singleton]; exact hlast)
        refine ⟨_, rfl, hlast, hleast.older hbefore fun a ha hafter => ?_⟩
        exact h.trans _ he _ (mem_scanned_of_split hnext ho) _ (mem_scanned_of_split hnext ha)
          hbefore hafter
      · rw [if_neg hlt]
        exact ⟨o, rfl, List.mem_append_left _ ho, hleast.kept hr (not_lt.mp hlt)⟩

/-! ### When a scan is sound -/

/-- The timestamps are from 9930-12-12T20:45:52 on, and those of two lines within 68 years of each
other; it is one second less where the times are in the order of the lines. -/
structure Close (es : List (Entry f)) : Prop where
  late : ∀ e ∈ es, 251223194752 ≤ mktime e.time.tm
  near : es.Pairwise fun e e' => mktime e'.time.tm ≤ mktime e.time.tm + 2147483647
    ∧ mktime e.time.tm ≤ mktime e'.time.tm + 2147483648

theorem scanned_cases {es : List (Entry f)} {ts : CStr} (hts : ts ∈ scanned es) :
    ts = futureTimestamp ∨ ∃ e ∈ es, ts = timestampText e.time := by
  rcases List.mem_cons.mp hts with rfl | hts
  · exact .inl rfl
  · obtain ⟨e, he, rfl⟩ := List.mem_map.mp hts
    exact .inr ⟨e, he, rfl⟩

/-- The times of a sound scan are at most 2147483648 seconds after its least one, which may be the
initial timestamp. -/
theorem SoundScan.within {es : List (Entry f)} (h : SoundScan es) :
    ∃ m ≤ 253370678400, 253370678400 ≤ m + 2147483648
      ∧ ∀ e ∈ es, m ≤ mktime e.time.tm ∧ mktime e.time.tm ≤ m + 2147483648 := by
  obtain ⟨o, -, -, hleast⟩ := h.least es [] (List.append_nil es).symm
  have hfuture := hleast.within (List.mem_cons_self (a := futureTimestamp))
  rw [instant_futureTimestamp] at hfuture
  refine ⟨instant (.posix true) o.timestamp, hfuture.1, hfuture.2, fun e he => ?_⟩
  rw [← instant_timestampText (.posix true) e.time]
  exact hleast.within (List.mem_cons_of_mem _ (List.mem_map_of_mem he))

/-- A line and one before it: what the scan held in between is no later than that. -/
theorem SoundScan.near {es done later : List (Entry f)} {e e' : Entry f} (h : SoundScan es)
    (hsplit : es = done ++ e' :: later) (he : e ∈ done) :
    mktime e'.time.tm ≤ mktime e.time.tm + 2147483647 := by
  obtain ⟨o, hscan, -, hleast⟩ := h.least done (e' :: later) hsplit
  obtain ⟨o', r, hscan', hr, -⟩ := h.orders done e' later hsplit
  obtain rfl := Option.some.inj (hscan.symm.trans hscan')
  have hlow := (hleast.within (List.mem_cons_of_mem _ (List.mem_map_of_mem he))).1
  obtain ⟨-, -, hhigh⟩ := toIntDefined_eq_some.mp hr
  rw [instant_timestampText] at hlow hhigh
  omega

theorem SoundScan.close {es : List (Entry f)} (h : SoundScan es) : Close es := by
  obtain ⟨m, hm, hfuture, hwithin⟩ := h.within
  refine ⟨fun e he => ?_, List.pairwise_iff_getElem.mpr fun i j hi hj hij => ⟨?_, ?_⟩⟩
  · have hlow := (hwithin e he).1
    omega
  · have hsplit : es = es.take j ++ es[j] :: es.drop (j + 1) := by
      rw [← List.drop_eq_getElem_cons hj, List.take_append_drop]
    exact h.near hsplit (List.mem_take_iff_getElem.mpr ⟨i, by omega, rfl⟩)
  · have hi := hwithin es[i] (List.getElem_mem hi)
    have hj := hwithin es[j] (List.getElem_mem hj)
    omega

/-- No time is more than 2147483648 seconds after another, whichever line comes first. -/
theorem Close.le_add {es : List (Entry f)} (h : Close es) {e e' : Entry f} (he : e ∈ es)
    (he' : e' ∈ es) : mktime e'.time.tm ≤ mktime e.time.tm + 2147483648 :=
  List.Pairwise.forall_of_forall_of_flip (fun _ _ => by omega)
    (h.near.imp fun h => by omega) (h.near.imp fun h => h.2) he he'

/-- So it is with any two timestamps of the scan. -/
theorem Close.instant_le {es : List (Entry f)} (h : Close es) {a c : CStr} (ha : a ∈ scanned es)
    (hc : c ∈ scanned es) : instant (.posix true) c ≤ instant (.posix true) a + 2 ^ 31 := by
  rcases scanned_cases ha with rfl | ⟨e, he, rfl⟩
  · rcases scanned_cases hc with rfl | ⟨e', -, rfl⟩
    · omega
    · have hle := mktime_le e'.time
      rw [instant_timestampText, instant_futureTimestamp]
      omega
  · rcases scanned_cases hc with rfl | ⟨e', he', rfl⟩
    · have hlow := h.late e he
      rw [instant_timestampText, instant_futureTimestamp]
      omega
    · have hapart := h.le_add he he'
      rw [instant_timestampText, instant_timestampText]
      omega

/-- The line behind `done` can be compared with what the scan holds. -/
theorem Close.defined {es done later : List (Entry f)} {e : Entry f} (h : Close es)
    (hsplit : es = done ++ e :: later) {ts : CStr} (hts : ts ∈ scanned done) :
    ∃ r, compareTimestampsDefined (timestampText e.time) ts = some r := by
  rcases scanned_cases hts with rfl | ⟨e', he', rfl⟩
  · exact (defined_initial_iff e.time).mpr (h.late e (by simp [hsplit]))
  · have hpair := (List.pairwise_append.mp (hsplit ▸ h.near)).2.2 e' he' e List.mem_cons_self
    exact (defined_iff e.time e'.time).mpr ⟨hpair.2, hpair.1⟩

theorem Close.soundScan {es : List (Entry f)} (h : Close es) : SoundScan es := by
  constructor
  · intro done e later hsplit
    obtain ⟨o, hscan, ho⟩ := scan_timestamp done
    obtain ⟨r, hr⟩ := h.defined hsplit ho
    exact ⟨o, r, hscan, hr, orders_of_defined hr⟩
  · intro a ha b _ c hc hab hbc
    have hlt := (before_iff.mp hab).1.trans (before_iff.mp hbc).1
    exact before_iff.mpr ⟨hlt, h.instant_le ha hc⟩

/-- A scan compares soundly exactly when the timestamps of its lines are from 9930-12-12T20:45:52 on and
within 68 years of each other. -/
theorem scan_is_sound_iff {f : QueueFile} (es : List (Entry f)) : SoundScan es ↔ Close es :=
  ⟨SoundScan.close, Close.soundScan⟩

theorem empty_oneLine : newline ∉ ([] : CStr) ∧ NUL ∉ ([] : CStr) := by simp

theorem empty_lt : ([] : CStr).length < messageBuffer := by decide

theorem empty_fits (f : QueueFile) (t : UtcTime) : (entryLine [] t).length + 2 ≤ f.lineBuffer := by
  rw [entryLine, List.nil_append, List.length_cons, length_timestampText]
  cases f <;> simp only [QueueFile.lineBuffer] <;> decide

/-- A line with nothing before its timestamp. -/
def emptyEntry (f : QueueFile) (t : UtcTime) : Entry f :=
  ⟨[], t, empty_oneLine, empty_lt, empty_fits f t⟩

/-- The first comparison of a scan has no result: the initial timestamp is 8000 years away. -/
theorem first_comparison_undefined :
    compareTimestampsDefined (timestampText newYear) Oldest.start.timestamp = none
      ∧ ¬ SoundScan [emptyEntry .request newYear] := by
  have hnone : compareTimestampsDefined (timestampText newYear) futureTimestamp = none := by
    decide
  refine ⟨hnone, fun h => ?_⟩
  obtain ⟨o, r, hscan, hr, -⟩ := h.orders [] (emptyEntry .request newYear) [] rfl
  obtain rfl := Option.some.inj hscan
  exact absurd (hnone.symm.trans hr) (by simp)

end Scan

end Pmu
