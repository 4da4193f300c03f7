import PmuFirmware.Lib.Time
import Mathlib.Data.Nat.Find

/-!
# Breaking down a time

`gmtime` is the inverse of `mktime`. The year and the month are found as the last mark that is not
after a day: the marks are the first days of the years, and those of the months of one year.
-/

namespace CLib

/-! ### Marks -/

/-- The last of the marks `f 0, …, f bound` that is not after `x`. -/
def lastMark (f : Nat → Int) (bound : Nat) (x : Int) : Nat := Nat.findGreatest (fun n => f n ≤ x) bound

section Marks

variable {f : Nat → Int} {bound n : Nat} {x : Int}

theorem lastMark_le_bound : lastMark f bound x ≤ bound := Nat.findGreatest_le bound

theorem lastMark_le (h : f 0 ≤ x) : f (lastMark f bound x) ≤ x :=
  Nat.findGreatest_spec (P := fun n => f n ≤ x) (Nat.zero_le bound) h

theorem lt_lastMark_succ (h : lastMark f bound x < bound) : x < f (lastMark f bound x + 1) := by
  by_contra hle
  exact Nat.findGreatest_is_greatest (Nat.lt_succ_self (lastMark f bound x)) h (Int.not_lt.mp hle)

theorem lastMark_lt_bound (hzero : f 0 ≤ x) (hbound : x < f bound) : lastMark f bound x < bound := by
  refine lt_of_le_of_ne lastMark_le_bound fun heq => ?_
  have hle : f (lastMark f bound x) ≤ x := lastMark_le hzero
  rw [heq] at hle
  omega

/-- What lies between two successive marks belongs to the first of them. -/
theorem lastMark_eq (hmono : Monotone f) (hn : n ≤ bound) (hle : f n ≤ x)
    (hlt : n < bound → x < f (n + 1)) : lastMark f bound x = n := by
  have hleast : f 0 ≤ x := (hmono (Nat.zero_le n)).trans hle
  refine le_antisymm ?_ (Nat.le_findGreatest hn hle)
  by_contra hgt
  have hafter : f (n + 1) ≤ f (lastMark f bound x) := hmono (Nat.succ_le_of_lt (not_le.mp hgt))
  have hbefore : f (lastMark f bound x) ≤ x := lastMark_le hleast
  have hbound : n < bound := (not_le.mp hgt).trans_le lastMark_le_bound
  have hnext := hlt hbound
  omega

end Marks

/-! ### The days of the years and of the months -/

/-- The days from the epoch to the first day of the `n`-th year after 1970. -/
def daysBeforeYear (n : Nat) : Int := 365 * n + (leapDays (1969 + n) - leapDays 1969)

theorem daysBeforeYear_zero : daysBeforeYear 0 = 0 := by decide

theorem isLeap_toInt (y : Int) : (isLeap y).toInt = leapDays y - leapDays (y - 1) := by
  have hiff : isLeap y = true ↔ (y % 4 = 0 ∧ y % 100 ≠ 0) ∨ y % 400 = 0 := by simp [isLeap]
  cases hleap : isLeap y with
  | false =>
      rw [hleap] at hiff
      simp only [Bool.false_eq_true, false_iff, not_or, not_and_or] at hiff
      simp only [leapDays, Bool.toInt, cond_false]
      omega
  | true =>
      rw [hleap] at hiff
      simp only [true_iff] at hiff
      simp only [leapDays, Bool.toInt, cond_true]
      omega

theorem daysBeforeYear_succ (n : Nat) :
    daysBeforeYear (n + 1) = daysBeforeYear n + 365 + (isLeap (1970 + n)).toInt := by
  have hlast : (1970 + n : Int) - 1 = 1969 + n := by omega
  have hyear : (1969 + (n + 1 : Nat) : Int) = 1970 + n := by omega
  rw [isLeap_toInt, hlast, daysBeforeYear, daysBeforeYear, hyear]
  omega

theorem toInt_nonneg (b : Bool) : 0 ≤ b.toInt ∧ b.toInt ≤ 1 := by cases b <;> decide

theorem daysBeforeYear_mono : Monotone daysBeforeYear := by
  apply monotone_nat_of_le_succ
  intro n
  have hleap := (toInt_nonneg (isLeap (1970 + n))).1
  rw [daysBeforeYear_succ]
  omega

theorem le_daysBeforeYear (n : Nat) : 365 * (n : Int) ≤ daysBeforeYear n := by
  have hleap : leapDays 1969 ≤ leapDays (1969 + n) := leapDays_mono (by omega)
  rw [daysBeforeYear]
  omega

theorem daysBeforeMonth_mono (leap : Bool) : Monotone (daysBeforeMonth leap) := by
  apply monotone_nat_of_le_succ
  intro n
  rcases lt_or_ge n 12 with hlt | hge
  · revert leap n
    decide
  · obtain ⟨k, rfl⟩ := Nat.exists_eq_add_of_le' hge
    exact le_rfl

/-- A month has at most 31 days. -/
theorem daysBeforeMonth_succ_le (leap : Bool) {n : Nat} (hn : n < 11) :
    daysBeforeMonth leap (n + 1) ≤ daysBeforeMonth leap n + 31 := by
  revert leap n
  decide

theorem daysBeforeMonth_eleven (leap : Bool) : daysBeforeMonth leap 11 = 334 + leap.toInt := rfl

/-! ### `gmtime` -/

/-- The year after 1970, for a number of days since the epoch. -/
def gmYear (days : Nat) : Nat := lastMark daysBeforeYear (days / 365 + 1) days

/-- The day of the year, from 0. -/
def gmYday (days : Nat) : Int := days - daysBeforeYear (gmYear days)

def gmLeap (days : Nat) : Bool := isLeap (1970 + gmYear days)

/-- The month, from 0. -/
def gmMon (days : Nat) : Nat := lastMark (daysBeforeMonth (gmLeap days)) 11 (gmYday days)

/-- The day of the month, from 1. -/
def gmMday (days : Nat) : Nat := (gmYday days - daysBeforeMonth (gmLeap days) (gmMon days)).toNat + 1

/-- `gmtime_r`, for a number of seconds since the epoch. -/
def gmtime (t : Nat) : Tm :=
  ⟨1970 + gmYear (t / 86400) - 1900, gmMon (t / 86400), gmMday (t / 86400), (t % 86400 / 3600 : Nat),
    (t % 3600 / 60 : Nat), (t % 60 : Nat)⟩

section Days

variable (days : Nat)

theorem gmYear_spec :
    daysBeforeYear (gmYear days) ≤ days ∧ (days : Int) < daysBeforeYear (gmYear days + 1) := by
  have hzero : daysBeforeYear 0 ≤ days := by rw [daysBeforeYear_zero]; omega
  have hbound : (days : Int) < daysBeforeYear (days / 365 + 1) := by
    have hle := le_daysBeforeYear (days / 365 + 1)
    omega
  exact ⟨lastMark_le hzero, lt_lastMark_succ (lastMark_lt_bound hzero hbound)⟩

theorem gmYday_spec : 0 ≤ gmYday days ∧ gmYday days < 365 + (gmLeap days).toInt := by
  obtain ⟨hle, hlt⟩ := gmYear_spec days
  rw [daysBeforeYear_succ] at hlt
  rw [gmYday, gmLeap]
  omega

theorem gmMon_le : gmMon days ≤ 11 := lastMark_le_bound

theorem gmMonth_mem : 1 ≤ gmMon days + 1 ∧ gmMon days + 1 ≤ 12 :=
  ⟨Nat.le_add_left 1 _, Nat.succ_le_succ (gmMon_le days)⟩

theorem gmMon_spec : daysBeforeMonth (gmLeap days) (gmMon days) ≤ gmYday days
    ∧ gmYday days < daysBeforeMonth (gmLeap days) (gmMon days) + 31 := by
  obtain ⟨hnonneg, hlt⟩ := gmYday_spec days
  refine ⟨lastMark_le hnonneg, ?_⟩
  rcases (gmMon_le days).lt_or_eq with hmon | hmon
  · exact (lt_lastMark_succ hmon).trans_le (daysBeforeMonth_succ_le _ hmon)
  · rw [hmon, daysBeforeMonth_eleven]
    omega

theorem gmMday_spec :
    (gmMday days : Int) = gmYday days - daysBeforeMonth (gmLeap days) (gmMon days) + 1 := by
  have hle := (gmMon_spec days).1
  rw [gmMday]
  omega

theorem gmMday_mem : 1 ≤ gmMday days ∧ gmMday days ≤ 31 := by
  have hspec := gmMday_spec days
  have hmonth := gmMon_spec days
  omega

end Days

theorem hourOf_le (t : Nat) : t % 86400 / 3600 ≤ 23 := by omega

theorem minuteOf_le (t : Nat) : t % 3600 / 60 ≤ 59 := by omega

theorem secondOf_le (t : Nat) : t % 60 ≤ 60 := by omega

/-- Every time is what `mktime` makes of its parts. -/
theorem mktime_gmtime (t : Nat) : mktime (gmtime t) = t := by
  have hmon := gmMon_le (t / 86400)
  have hyear : (1970 + gmYear (t / 86400) - 1900 + 1900 + (gmMon (t / 86400) : Int) / 12 : Int)
      = 1970 + gmYear (t / 86400) := by omega
  have hmonth : ((gmMon (t / 86400) : Int) % 12).toNat = gmMon (t / 86400) := by omega
  have hlast : (1970 + gmYear (t / 86400) - 1 : Int) = 1969 + gmYear (t / 86400) := by omega
  have hday := gmMday_spec (t / 86400)
  simp only [mktime, gmtime, hyear, hmonth, hlast]
  rw [hday, gmYday, gmLeap, daysBeforeYear]
  omega

/-! ### Dates -/

/-- The UTC time at a second since the epoch. -/
def utcTimeAt (t milli : Nat) (hyear : 1970 + gmYear (t / 86400) < 10000) (hmilli : milli < 1000) :
    UtcTime where
  year := 1970 + gmYear (t / 86400)
  month := gmMon (t / 86400) + 1
  day := gmMday (t / 86400)
  hour := t % 86400 / 3600
  minute := t % 3600 / 60
  second := t % 60
  milli := milli
  year_lt := hyear
  month_mem := gmMonth_mem (t / 86400)
  day_mem := gmMday_mem (t / 86400)
  hour_le := hourOf_le t
  minute_le := minuteOf_le t
  second_le := secondOf_le t
  milli_lt := hmilli

/-- `gmtime_r`, for the years that `%Y` prints with four digits. -/
def utcTime (t milli : Nat) : Option UtcTime :=
  if hyear : 1970 + gmYear (t / 86400) < 10000 then
    if hmilli : milli < 1000 then some (utcTimeAt t milli hyear hmilli) else none
  else none

/-- A date of the calendar, not before the epoch, and no leap second. -/
structure UtcTime.IsDate (t : UtcTime) : Prop where
  year_ge : 1970 ≤ t.year
  day_le : t.month < 12 → daysBeforeMonth (isLeap t.year) (t.month - 1) + t.day
    ≤ daysBeforeMonth (isLeap t.year) t.month
  second_lt : t.second < 60

/-- The millisecond that a time stands for, in microseconds. -/
def UtcTime.micros (t : UtcTime) : Int := mktime t.tm * 1000000 + t.milli * 1000

section Dates

variable {t milli : Nat} {u : UtcTime}

theorem utcTime_eq_some (h : utcTime t milli = some u) :
    u.tm = gmtime t ∧ u.milli = milli ∧ u.year = 1970 + gmYear (t / 86400) := by
  rw [utcTime] at h
  split at h
  · split at h
    · obtain rfl := Option.some.inj h
      refine ⟨?_, rfl, rfl⟩
      simp only [UtcTime.tm, utcTimeAt, gmtime]
      rw [Nat.cast_add, Nat.cast_add, Nat.cast_ofNat, Nat.cast_one, add_sub_cancel_right]
    · cases h
  · cases h

theorem utcTime_isSome (hyear : (t : Int) < 86400 * daysBeforeYear 8030) (hmilli : milli < 1000) :
    ∃ u, utcTime t milli = some u := by
  have hlt : 1970 + gmYear (t / 86400) < 10000 := by
    by_contra hge
    have hmono : daysBeforeYear 8030 ≤ daysBeforeYear (gmYear (t / 86400)) :=
      daysBeforeYear_mono (by omega)
    have hle := (gmYear_spec (t / 86400)).1
    omega
  exact ⟨utcTimeAt t milli hlt hmilli, by rw [utcTime, dif_pos hlt, dif_pos hmilli]⟩

end Dates

/-! ### Reading a date back -/

section ReadBack

variable {n m d : Nat}

theorem gmYear_eq {days : Nat} {yday : Int} (hdays : (days : Int) = daysBeforeYear n + yday)
    (hnonneg : 0 ≤ yday) (hlt : yday < 365 + (isLeap (1970 + n)).toInt) : gmYear days = n := by
  have hle := le_daysBeforeYear n
  refine lastMark_eq daysBeforeYear_mono (by omega) (by omega) fun _ => ?_
  rw [daysBeforeYear_succ]
  omega

/-- A day within a month is before the end of the year. -/
theorem yday_lt (leap : Bool) (hm : m ≤ 11) (hd : d < 31)
    (hmonth : m < 11 → daysBeforeMonth leap m + d < daysBeforeMonth leap (m + 1)) :
    daysBeforeMonth leap m + d < 365 + leap.toInt := by
  rcases hm.lt_or_eq with hlt | rfl
  · have hlast : daysBeforeMonth leap (m + 1) ≤ daysBeforeMonth leap 11 :=
      daysBeforeMonth_mono leap hlt
    have hend := hmonth hlt
    rw [daysBeforeMonth_eleven] at hlast
    omega
  · rw [daysBeforeMonth_eleven]
    omega

/-- The parts of a day that is given by its year, its month and its day of the month. -/
theorem gm_of_date {days : Nat} (hm : m ≤ 11) (hd : d < 31)
    (hmonth : m < 11 → daysBeforeMonth (isLeap (1970 + n)) m + d
      < daysBeforeMonth (isLeap (1970 + n)) (m + 1))
    (hdays : (days : Int) = daysBeforeYear n + (daysBeforeMonth (isLeap (1970 + n)) m + d)) :
    gmYear days = n ∧ gmMon days = m ∧ gmMday days = d + 1 := by
  have hbefore := (daysBeforeMonth_le (isLeap (1970 + n)) m).1
  have hyear : gmYear days = n := gmYear_eq hdays (by omega) (yday_lt _ hm hd hmonth)
  have hleap : gmLeap days = isLeap (1970 + n) := by rw [gmLeap, hyear]
  have hyday : gmYday days = daysBeforeMonth (isLeap (1970 + n)) m + d := by
    rw [gmYday, hyear]
    omega
  have hmon : gmMon days = m := by
    rw [gmMon, hleap, hyday]
    exact lastMark_eq (daysBeforeMonth_mono _) hm (by omega) hmonth
  refine ⟨hyear, hmon, ?_⟩
  rw [gmMday, hleap, hyday, hmon]
  omega

/-- A date is what `gmtime` makes of the second that it stands for. -/
theorem gmtime_mktime {u : UtcTime} (hu : u.IsDate) :
    ∃ t : Nat, mktime u.tm = t ∧ gmtime t = u.tm := by
  obtain ⟨n, hn⟩ := Nat.exists_eq_add_of_le hu.year_ge
  obtain ⟨m, hm⟩ := Nat.exists_eq_add_of_le' u.month_mem.1
  obtain ⟨d, hd⟩ := Nat.exists_eq_add_of_le' u.day_mem.1
  have hm_le : m ≤ 11 := by have hle := u.month_mem.2; omega
  have hd_lt : d < 31 := by have hle := u.day_mem.2; omega
  have hhour := u.hour_le
  have hminute := u.minute_le
  have hsecond := hu.second_lt
  have hleap : isLeap u.year = isLeap (1970 + n) := by rw [hn, Nat.cast_add, Nat.cast_ofNat]
  have hmonth : m < 11 → daysBeforeMonth (isLeap (1970 + n)) m + d
      < daysBeforeMonth (isLeap (1970 + n)) (m + 1) := by
    intro hlt
    have hle := hu.day_le (by omega)
    rw [hm, hd, Nat.add_sub_cancel, hleap] at hle
    omega
  have hbefore := (daysBeforeMonth_le (isLeap (1970 + n)) m).1
  have hyears := le_daysBeforeYear n
  obtain ⟨days, hdays⟩ := Int.eq_ofNat_of_zero_le
    (show 0 ≤ daysBeforeYear n + (daysBeforeMonth (isLeap (1970 + n)) m + d) by omega)
  obtain ⟨hyear, hmon, hmday⟩ := gm_of_date hm_le hd_lt hmonth hdays.symm
  refine ⟨days * 86400 + (u.hour * 3600 + u.minute * 60 + u.second), ?_, ?_⟩
  · have hfull : (u.year - 1900 + 1900 + ((u.month : Int) - 1) / 12 : Int) = 1970 + n := by omega
    have hindex : (((u.month : Int) - 1) % 12).toNat = m := by omega
    have hlast : (1970 + n - 1 : Int) = 1969 + n := by omega
    simp only [mktime, UtcTime.tm, hfull, hindex, hlast]
    rw [daysBeforeYear] at hdays
    push_cast
    omega
  · have hday : (days * 86400 + (u.hour * 3600 + u.minute * 60 + u.second)) / 86400 = days := by omega
    simp only [gmtime, hday, hyear, hmon, hmday, UtcTime.tm, Tm.mk.injEq]
    refine ⟨?_, ?_, ?_, ?_, ?_, ?_⟩ <;> omega

end ReadBack

end CLib
