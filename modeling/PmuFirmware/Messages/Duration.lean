import PmuFirmware.Messages.ComponentStatus

/-!
# Durations

A total in seconds is taken apart by two routines, one for the periodic data and one for the answers to
status requests. The answers then add the seconds that are not stored yet, unit by unit, and put the
total together again. A duration stands for a number of seconds, and only one canonical duration stands
for it, so every path can be compared by the number alone.
-/

namespace Pmu

namespace TimeDuration

/-- Each unit but the days is smaller than the next one. -/
structure Canonical (d : TimeDuration) : Prop where
  hours : d.hours.toNat < 24
  minutes : d.minutes.toNat < 60
  seconds : d.seconds.toNat < 60

/-- The seconds of a duration, counted without a bound. -/
def value (d : TimeDuration) : Nat :=
  d.days.toNat * 86400 + d.hours.toNat * 3600 + d.minutes.toNat * 60 + d.seconds.toNat

theorem Canonical.eq_of_value {d e : TimeDuration} (hd : d.Canonical) (he : e.Canonical)
    (hvalue : d.value = e.value) : d = e := by
  obtain ⟨hhours, hminutes, hseconds⟩ := hd
  obtain ⟨ehours, eminutes, eseconds⟩ := he
  simp only [value] at hvalue
  apply TimeDuration.ext <;> apply UInt32.toNat_inj.mp <;> omega

/-- The formula of the answer wraps around only where the duration is longer than 32 bits can say. -/
theorem total_toNat {d : TimeDuration} (hfits : d.value < 2 ^ 32) : d.total.toNat = d.value := by
  simp only [value] at hfits ⊢
  simp only [total, UInt32.toNat_add, UInt32.toNat_mul, UInt32.reduceToNat]
  omega

end TimeDuration

open TimeDuration

variable (t : UInt32)

/-! ### The two conversions -/

theorem convertSecondsToTime_canonical : (convertSecondsToTime t).Canonical := by
  constructor <;> simp only [convertSecondsToTime, UInt32.toNat_div, UInt32.toNat_mod,
    UInt32.reduceToNat] <;> omega

theorem convertSecondsToTime_value : (convertSecondsToTime t).value = t.toNat := by
  simp only [value, convertSecondsToTime, UInt32.toNat_div, UInt32.toNat_mod, UInt32.reduceToNat]
  omega

theorem convertToTimeDuration_canonical : (convertToTimeDuration t).Canonical := by
  constructor <;> simp only [convertToTimeDuration, UInt32.toNat_div, UInt32.toNat_mod,
    UInt32.reduceToNat] <;> omega

theorem convertToTimeDuration_value : (convertToTimeDuration t).value = t.toNat := by
  simp only [value, convertToTimeDuration, UInt32.toNat_div, UInt32.toNat_mod, UInt32.reduceToNat]
  omega

theorem convertToTimeDuration_eq : convertToTimeDuration t = convertSecondsToTime t := by
  apply (convertToTimeDuration_canonical t).eq_of_value (convertSecondsToTime_canonical t)
  rw [convertToTimeDuration_value, convertSecondsToTime_value]

/-! ### Adding seconds -/

section Carry

variable {limit unit next : UInt32}

theorem carry_fst_toNat : (carry limit unit next).1.toNat = unit.toNat % limit.toNat := by
  unfold carry
  split
  · exact UInt32.toNat_mod unit limit
  · next hlt => exact (Nat.mod_eq_of_lt (UInt32.lt_iff_toNat_lt.mp (UInt32.not_le.mp hlt))).symm

theorem carry_snd_toNat (hfits : next.toNat + unit.toNat / limit.toNat < 2 ^ 32) :
    (carry limit unit next).2.toNat = next.toNat + unit.toNat / limit.toNat := by
  unfold carry
  split
  · rw [UInt32.toNat_add, UInt32.toNat_div, Nat.mod_eq_of_lt hfits]
  · next hlt =>
      rw [Nat.div_eq_of_lt (UInt32.lt_iff_toNat_lt.mp (UInt32.not_le.mp hlt)), Nat.add_zero]

end Carry

/-- The units after seconds were added, where the sum fits: no unit wraps around on the way. -/
theorem incrementTime_units {d : TimeDuration} {n : UInt8} (hd : d.Canonical)
    (hfits : d.value + n.toNat < 2 ^ 32) :
    let seconds := d.seconds.toNat + n.toNat
    let minutes := d.minutes.toNat + seconds / 60
    let hours := d.hours.toNat + minutes / 60
    (incrementTime d n).seconds.toNat = seconds % 60
      ∧ (incrementTime d n).minutes.toNat = minutes % 60
      ∧ (incrementTime d n).hours.toNat = hours % 24
      ∧ (incrementTime d n).days.toNat = d.days.toNat + hours / 24 := by
  intro seconds minutes hours
  obtain ⟨hhours, hminutes, hseconds⟩ := hd
  have hn := n.toNat_lt
  simp only [value] at hfits
  have hsum : (d.seconds + n.toUInt32).toNat = seconds := by
    rw [UInt32.toNat_add, UInt8.toNat_toUInt32]
    exact Nat.mod_eq_of_lt (by omega)
  have hminute : (carry 60 (d.seconds + n.toUInt32) d.minutes).2.toNat = minutes := by
    rw [carry_snd_toNat] <;> rw [hsum]
    · rfl
    · change d.minutes.toNat + seconds / 60 < 2 ^ 32
      omega
  have hhour : (carry 60 (carry 60 (d.seconds + n.toUInt32) d.minutes).2 d.hours).2.toNat = hours := by
    rw [carry_snd_toNat] <;> rw [hminute]
    · rfl
    · change d.hours.toNat + minutes / 60 < 2 ^ 32
      omega
  refine ⟨?_, ?_, ?_, ?_⟩ <;> simp only [incrementTime]
  · rw [carry_fst_toNat, hsum]
    rfl
  · rw [carry_fst_toNat, hminute]
    rfl
  · rw [carry_fst_toNat, hhour]
    rfl
  · rw [carry_snd_toNat] <;> rw [hhour]
    · rfl
    · change d.days.toNat + hours / 24 < 2 ^ 32
      omega

theorem incrementTime_canonical {d : TimeDuration} {n : UInt8} (hd : d.Canonical)
    (hfits : d.value + n.toNat < 2 ^ 32) : (incrementTime d n).Canonical := by
  obtain ⟨hseconds, hminutes, hhours, -⟩ := incrementTime_units hd hfits
  constructor <;> omega

theorem incrementTime_value {d : TimeDuration} {n : UInt8} (hd : d.Canonical)
    (hfits : d.value + n.toNat < 2 ^ 32) : (incrementTime d n).value = d.value + n.toNat := by
  obtain ⟨hseconds, hminutes, hhours, hdays⟩ := incrementTime_units hd hfits
  simp only [value] at hfits ⊢
  omega

variable {t} {n : UInt8}

theorem toNat_add_ticks (hfits : t.toNat + n.toNat < 2 ^ 32) :
    (t + n.toUInt32).toNat = t.toNat + n.toNat := by
  rw [UInt32.toNat_add, UInt8.toNat_toUInt32, Nat.mod_eq_of_lt hfits]

/-- Adding to a converted total is converting the sum. -/
theorem incrementTime_convertSecondsToTime (hfits : t.toNat + n.toNat < 2 ^ 32) :
    incrementTime (convertSecondsToTime t) n = convertSecondsToTime (t + n.toUInt32) := by
  have hd := convertSecondsToTime_canonical t
  rw [← convertSecondsToTime_value t] at hfits
  apply (incrementTime_canonical hd hfits).eq_of_value (convertSecondsToTime_canonical _)
  rw [incrementTime_value hd hfits, convertSecondsToTime_value, convertSecondsToTime_value,
    toNat_add_ticks]
  rwa [convertSecondsToTime_value] at hfits

theorem total_convertSecondsToTime : (convertSecondsToTime t).total = t := by
  apply UInt32.toNat_inj.mp
  have hvalue := convertSecondsToTime_value t
  rw [total_toNat (hvalue ▸ t.toNat_lt), hvalue]

/-! ### The answer -/

/-- The seconds that are not stored yet fit into both totals. -/
structure Uptime.Fits (u : Uptime) : Prop where
  up : u.totalUpTime.toNat + u.up.toNat < 2 ^ 32
  down : u.totalDownTime.toNat + u.down.toNat < 2 ^ 32

/-- The answer reports the stored totals with the seconds added. -/
theorem currentUptimeJson_eq (connectionStatus : Nat) {u : Uptime} (hu : u.Fits) :
    currentUptimeJson connectionStatus u
      = uptimeJson connectionStatus (convertSecondsToTime (u.totalUpTime + u.up.toUInt32))
        (convertSecondsToTime (u.totalDownTime + u.down.toUInt32))
        (u.totalUpTime + u.up.toUInt32) (u.totalDownTime + u.down.toUInt32) := by
  simp only [currentUptimeJson]
  rw [incrementTime_convertSecondsToTime hu.up, incrementTime_convertSecondsToTime hu.down,
    total_convertSecondsToTime, total_convertSecondsToTime]

/-- Both routines take a total apart into the canonical duration of that length, adding seconds to it
gives the duration of the sum, and the answer to a status request puts together just that sum. -/
theorem durations_agree (t : UInt32) :
    convertToTimeDuration t = convertSecondsToTime t
      ∧ (convertSecondsToTime t).Canonical ∧ (convertSecondsToTime t).value = t.toNat
      ∧ (∀ n : UInt8, t.toNat + n.toNat < 2 ^ 32 →
        incrementTime (convertSecondsToTime t) n = convertSecondsToTime (t + n.toUInt32)
          ∧ (incrementTime (convertSecondsToTime t) n).value = t.toNat + n.toNat
          ∧ (incrementTime (convertSecondsToTime t) n).total.toNat = t.toNat + n.toNat)
      ∧ ∀ (connectionStatus : Nat) (u : Uptime), u.Fits →
        currentUptimeJson connectionStatus u
          = uptimeJson connectionStatus (convertSecondsToTime (u.totalUpTime + u.up.toUInt32))
            (convertSecondsToTime (u.totalDownTime + u.down.toUInt32))
            (u.totalUpTime + u.up.toUInt32) (u.totalDownTime + u.down.toUInt32) := by
  refine ⟨convertToTimeDuration_eq t, convertSecondsToTime_canonical t,
    convertSecondsToTime_value t, ?_, fun status u hu => currentUptimeJson_eq status hu⟩
  intro n hfits
  have hsum := toNat_add_ticks hfits
  rw [incrementTime_convertSecondsToTime hfits, total_convertSecondsToTime,
    convertSecondsToTime_value]
  exact ⟨rfl, hsum, hsum⟩

/-- A day, but for one second, and 61 seconds more: all three units are carried. -/
theorem durations_agree_carry :
    incrementTime (convertSecondsToTime 86399) 61 = ⟨1, 0, 1, 0⟩
      ∧ (incrementTime (convertSecondsToTime 86399) 61).total.toNat = 86460 := by
  obtain ⟨hsame, -, htotal⟩ := (durations_agree 86399).2.2.2.1 61 (by decide)
  exact ⟨hsame.trans rfl, htotal⟩

end Pmu
