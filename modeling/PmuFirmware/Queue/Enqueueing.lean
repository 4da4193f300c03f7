import PmuFirmware.Queue.Dequeueing

/-!
# Appending to the queue files

`save_payload_to_spiffs` appends a line and first makes room by `remove_oldest_message`. The oldest
line is found by comparing timestamps with one that lies beyond every real time: it is not a valid
date, so what `strptime` leaves of it depends on the C library, but every real time is before it.
-/

namespace Pmu

open CLib

/-! ### Timestamps -/

/-- The second that `compare_timestamps` makes of a text. -/
def instant (lib : TimeLibrary) (ts : CStr) : Int :=
  lib.mktime (strptime lib isoFormat ts Tm.zero).1

/-- `compare_timestamps`, with the `double` of `difftime` converted to the `int` it returns. -/
def compareTimestamps (lib : TimeLibrary) (ts1 ts2 : CStr) : Int :=
  let tm1 := (strptime lib isoFormat ts1 Tm.zero).1
  let tm2 := (strptime lib isoFormat ts2 Tm.zero).1
  doubleToInt (lib.mktime tm1 - lib.mktime tm2)

theorem compareTimestamps_neg {lib : TimeLibrary} {ts1 ts2 : CStr} :
    compareTimestamps lib ts1 ts2 < 0 ↔ instant lib ts1 < instant lib ts2 := by
  rw [compareTimestamps, doubleToInt_neg, sub_neg, instant, instant]

theorem instant_timestampText (lib : TimeLibrary) (t : UtcTime) :
    instant lib (timestampText t) = mktime t.tm := by
  rw [instant, timestampText, strptime_iso lib t (noDigit_cons rfl),
    lib.mktime_of_small t.small_tm]

/-- The initial `oldest_timestamp`. -/
def futureTimestamp : CStr := "9999-99-99T99:99:99Z".toList

/-- What `strptime` can make of the initial `oldest_timestamp`: it stops at one of the numbers, with or
without its first digit, or gets through. -/
def futureTms : List Tm :=
  [⟨8099, 0, 0, 0, 0, 0⟩, ⟨8099, 8, 0, 0, 0, 0⟩, ⟨8099, 98, 0, 0, 0, 0⟩, ⟨8099, 98, 9, 0, 0, 0⟩,
    ⟨8099, 98, 99, 0, 0, 0⟩, ⟨8099, 98, 99, 9, 0, 0⟩, ⟨8099, 98, 99, 99, 0, 0⟩,
    ⟨8099, 98, 99, 99, 9, 0⟩, ⟨8099, 98, 99, 99, 99, 0⟩, ⟨8099, 98, 99, 99, 99, 9⟩,
    ⟨8099, 98, 99, 99, 99, 99⟩]

theorem strptime_futureTimestamp (lib : TimeLibrary) :
    (strptime lib isoFormat futureTimestamp Tm.zero).1 ∈ futureTms := by
  have hyear : futureTimestamp = pad 4 9999 ++ ['-', '9', '9', '-', '9', '9', 'T', '9', '9', ':',
      '9', '9', ':', '9', '9', 'Z'] := by decide
  rw [hyear, isoFormat, strptime_num (by decide) (by decide) (by decide) (by decide)
    (noDigit_cons rfl), strptime_lit]
  -- the month, the day, the hour and the minute have a separator behind them
  refine strptime_two_digits (by decide) rfl rfl rfl (by decide) (by decide) ?_
  refine strptime_two_digits (by decide) rfl rfl rfl (by decide) (by decide) ?_
  refine strptime_two_digits (by decide) rfl rfl rfl (by decide) (by decide) ?_
  refine strptime_two_digits (by decide) rfl rfl rfl (by decide) (by decide) ?_
  exact strptime_last_digits (by decide) rfl rfl (noDigit_cons rfl) (by decide) (by decide) (by decide)

theorem le_instant_futureTimestamp (lib : TimeLibrary) :
    253370678400 ≤ instant lib futureTimestamp := by
  have hall : ∀ tm ∈ futureTms, tm.Small ∧ 253370678400 ≤ mktime tm := by decide
  obtain ⟨hsmall, hle⟩ := hall _ (strptime_futureTimestamp lib)
  rwa [instant, lib.mktime_of_small hsmall]

/-- Every timestamp the firmware writes is before the initial `oldest_timestamp`. -/
theorem compareTimestamps_future (lib : TimeLibrary) (t : UtcTime) (hyear : t.year < 9998) :
    compareTimestamps lib (timestampText t) futureTimestamp < 0 := by
  rw [compareTimestamps_neg, instant_timestampText]
  have hyear : t.year ≤ 9997 := Nat.le_of_lt_succ hyear
  have hbefore : mktime t.tm < 253370678400 := (mktime_tm_le t hyear).trans_lt (by decide)
  exact hbefore.trans_le (le_instant_futureTimestamp lib)

/-! ### The oldest entry -/

/-- `oldest_line` and `oldest_timestamp`. -/
structure Oldest where
  line : CStr
  timestamp : CStr

def Oldest.start : Oldest := ⟨[], futureTimestamp⟩

/-- `oldest_entry` -/
def Oldest.entry (o : Oldest) : CStr := o.line ++ '|' :: o.timestamp

/-- One turn of the first pass of `remove_oldest_message`; `oldest_timestamp` has 30 bytes. -/
def oldestLine (lib : TimeLibrary) (o : Oldest) (buffer : CStr) : Option Oldest :=
  let line := cutAt (· == newline) buffer
  match strrchr '|' line with
  | none => some o
  | some (message, timestamp) =>
    if compareTimestamps lib timestamp o.timestamp < 0 then
      if timestamp.length < 30 then some ⟨message, timestamp⟩ else none
    else some o

/-- One turn of the second pass of `remove_oldest_message`. -/
def notOldestLine (oldestEntry : CStr) (p : Pass) (buffer : CStr) : Pass :=
  let line := cutAt (· == newline) buffer
  if line ≠ oldestEntry then p.keep line else p.delete

/-- `remove_oldest_message`: the number of entries left, or nothing for `-1`. -/
def removeOldestMessage (env : Env) (f : QueueFile) (st : Store) : Option (Store × Option Nat) :=
  match st.openRead env f with
  | none => some (st, none)
  | some text =>
    if env.opensTemp f then
      ((readLines totalLine text).foldlM (oldestLine env.timeLibrary) Oldest.start).map fun o =>
        let p := (readLines totalLine text).foldl (notOldestLine o.entry) Pass.start
        (st.replace f p.temp, some p.kept)
    else some (st, none)

theorem oldestLine_line {f : QueueFile} (lib : TimeLibrary) (o : Oldest) (e : Entry f) :
    oldestLine lib o (e.line ++ [newline])
      = some (if compareTimestamps lib (timestampText e.time) o.timestamp < 0
          then ⟨e.message, timestampText e.time⟩ else o) := by
  have hroom : (timestampText e.time).length < 30 := by simp [length_timestampText]
  rw [oldestLine, e.cutAt_line, Entry.line, entryLine,
    strrchr_append (bar_not_mem_timestampText e.time)]
  simp only [hroom, if_true]
  split <;> rfl

/-- The first pass keeps one of the entries it has seen, once it has seen one. -/
theorem foldlM_oldestLine {f : QueueFile} (lib : TimeLibrary) (es : List (Entry f)) (o : Oldest) :
    ∃ o', (es.map fun e => e.line ++ [newline]).foldlM (oldestLine lib) o = some o'
      ∧ (o' = o ∨ ∃ e ∈ es, o' = ⟨e.message, timestampText e.time⟩) := by
  induction es generalizing o with
  | nil => exact ⟨o, rfl, .inl rfl⟩
  | cons e es ih =>
      rw [List.map_cons, List.foldlM_cons, oldestLine_line]
      obtain ⟨o', hfold, ho'⟩ := ih (if compareTimestamps lib (timestampText e.time)
        o.timestamp < 0 then ⟨e.message, timestampText e.time⟩ else o)
      refine ⟨o', hfold, ?_⟩
      rcases ho' with rfl | ⟨e', he', rfl⟩
      · by_cases hlt : compareTimestamps lib (timestampText e.time) o.timestamp < 0
        · rw [if_pos hlt]
          exact .inr ⟨e, by simp, rfl⟩
        · exact .inl (if_neg hlt)
      · exact .inr ⟨e', by simp [he'], rfl⟩

theorem exists_oldest {f : QueueFile} (lib : TimeLibrary) {es : List (Entry f)} (hes : es ≠ [])
    (hyear : ∀ e ∈ es, e.time.year < 9998) :
    ∃ o, (es.map fun e => e.line ++ [newline]).foldlM (oldestLine lib) Oldest.start
        = some o ∧ ∃ e ∈ es, o.entry = e.line := by
  cases es with
  | nil => exact absurd rfl hes
  | cons e es =>
      have hfirst : oldestLine lib Oldest.start (e.line ++ [newline])
          = some ⟨e.message, timestampText e.time⟩ := by
        rw [oldestLine_line, Oldest.start,
          if_pos (compareTimestamps_future lib e.time (hyear e (by simp)))]
      obtain ⟨o, hfold, ho⟩ := foldlM_oldestLine lib es ⟨e.message, timestampText e.time⟩
      refine ⟨o, ?_, ?_⟩
      · rw [List.map_cons, List.foldlM_cons, hfirst]
        exact hfold
      · rcases ho with rfl | ⟨e', he', rfl⟩
        · exact ⟨e, by simp, rfl⟩
        · exact ⟨e', by simp [he'], rfl⟩

theorem foldl_notOldestLine {f : QueueFile} (oldestEntry : CStr) (es : List (Entry f)) :
    (es.map fun e => e.line ++ [newline]).foldl (notOldestLine oldestEntry) Pass.start
      = ⟨fileText (es.filter fun e => e.line ≠ oldestEntry),
          (es.filter fun e => e.line ≠ oldestEntry).length,
          es.countP fun e => e.line = oldestEntry⟩ := by
  have hstep : ∀ line ∈ es.map Entry.line, ∀ p : Pass,
      notOldestLine oldestEntry p (line ++ [newline])
        = if decide (line ≠ oldestEntry) then p.keep line else p.delete := by
    intro line hline p
    obtain ⟨e, _, rfl⟩ := List.mem_map.mp hline
    simp [notOldestLine]
  have hpass := foldl_pass (notOldestLine oldestEntry) (fun line => decide (line ≠ oldestEntry))
    hstep Pass.start
  rw [after_entries, List.map_map] at hpass
  simpa [Function.comp_def] using hpass

/-- A file that is not empty loses at least one entry, and entries never change their order. -/
theorem removeOldestMessage_eq {env : Env} {f : QueueFile} {st : Store} {es : List (Entry f)}
    (hopen : st.openRead env f = some (fileText es)) (htemp : env.opensTemp f = true)
    (hes : es ≠ []) (hyear : ∀ e ∈ es, e.time.year < 9998) :
    ∃ oldest ∈ es, removeOldestMessage env f st
      = some (st.replace f (fileText (es.filter fun e => e.line ≠ oldest.line)),
          some (es.filter fun e => e.line ≠ oldest.line).length) := by
  obtain ⟨o, hfold, e, he, heq⟩ := exists_oldest env.timeLibrary hes hyear
  refine ⟨e, he, ?_⟩
  rw [removeOldestMessage, hopen]
  simp only [htemp, if_true, readLines_fileText es f.lineBuffer_le, hfold, Option.map_some,
    foldl_notOldestLine, heq]

/-! ### Appending -/

/-- `fprintf(f, "%s|%s\n", payload, timestamp)` on the file opened for appending. -/
def Store.append (st : Store) (f : QueueFile) (payload : CStr) (t : UtcTime) : Store :=
  st.put (.queue f) (st.contents f ++ (entryLine payload t ++ [newline]))

@[simp] theorem Store.entries_append (st : Store) (f : QueueFile) (payload : CStr) (t : UtcTime) :
    (st.append f payload t).entries = st.entries := rfl

theorem Store.contents_append (st : Store) (f g : QueueFile) (payload : CStr) (t : UtcTime) :
    (st.append f payload t).contents g
      = if g = f then st.contents f ++ (entryLine payload t ++ [newline]) else st.contents g :=
  contents_put st f g _

/-- The part of `save_payload_to_spiffs` before the timestamp: no store is returned when the entry
is skipped. -/
def makeRoom (env : Env) (f : QueueFile) (st : Store) : Option (Option Store) :=
  if st.HasCounter f ∧ f.cap ≤ (st.entries f).toNat then
    (removeOldestMessage env f st).map fun r => r.2.map fun count => r.1.setEntries f count
  else some (some st)

/-- `save_payload_to_spiffs` -/
def savePayloadToSpiffs (env : Env) (f : QueueFile) (payload : CStr) (st : Store) : Option Store :=
  (makeRoom env f st).map fun room =>
    match room with
    | none => st
    | some st =>
      match env.time with
      | none => st
      | some t =>
        if env.opensForAppending then
          let st := st.append f payload t
          if st.HasCounter f then st.setEntries f ((st.entries f).toNat + 1) else st
        else st

end Pmu
