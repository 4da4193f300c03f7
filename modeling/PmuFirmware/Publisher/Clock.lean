import PmuFirmware.Lib.Calendar
import PmuFirmware.Lib.Run
import PmuFirmware.Queue.Enqueueing

/-!
# The clock

The main loop sets the clock once, from the date and time of the charger, before anything is queued or
published, and calls `ntp_init` once, when there is internet. `ntp_init` waits for the SNTP client,
breaks down the time, and sets the clock to the second that `mktime` makes of it. The tasks of the other
core go on meanwhile, so time passes between the two calls.
-/

namespace Pmu

open CLib

/-! ### The steps -/

/-- Where the main loop is: before the body of `ntp_init` with its count of retries, or behind the loop
of `ntp_init` with the time it has broken down. -/
inductive NtpPhase
  | idle
  | waiting (retry : Nat)
  | setting (timeinfo : Tm)
  deriving DecidableEq

/-- The clock counts microseconds since the epoch in 64 bits. -/
structure Clock where
  rtc : Nat
  firstTimeBootUpFlag : Nat
  ntpInitFlag : Bool
  isTimeSet : Bool
  phase : NtpPhase
  deriving DecidableEq

/-- `removeMillisecondsAndZ` -/
def removeMillisecondsAndZ (dateTime : CStr) : CStr :=
  match strchr '.' dateTime with
  | some (before, _) => before
  | none => dateTime

namespace Clock

/-- `settimeofday`, for a number of whole seconds. -/
def settimeofday (sec : Int) (s : Clock) : Clock := { s with rtc := (sec * 1000000 % (2 ^ 64 : Nat)).toNat }

/-- `read_esp32_time`, as the time that it prints: nothing is left of a year with five digits. -/
def readEsp32Time (s : Clock) : Option UtcTime :=
  utcTime (s.rtc / 1000000) (s.rtc % 1000000 / 1000)

variable (checksRange : Bool)

/-- The clock is set unless the text is not a date and a time. -/
def setFromCharger (dateTime : CStr) (s : Clock) : Clock :=
  let r := strptime (.posix checksRange) isoFormat (removeMillisecondsAndZ dateTime) Tm.zero
  if r.2.isSome then s.settimeofday (mktime r.1) else s

/-- The test of the loop of `ntp_init`, and what follows when it fails. -/
def ntpLoop (timeinfo : Tm) (retry : Nat) (s : Clock) : Clock :=
  if timeinfo.year < 70 ∧ retry + 1 < 5 then { s with phase := .waiting (retry + 1) }
  else if timeinfo.year < 70 then { s with phase := .idle, ntpInitFlag := false }
  else { s with phase := .setting timeinfo }

/-- The part of a turn of the main loop that is about the clock. -/
def turn (networkReady online : Bool) (dateTime : CStr) (s : Clock) : Clock :=
  let s := if s.firstTimeBootUpFlag = 1 ∧ networkReady then { s with firstTimeBootUpFlag := 2 } else s
  let s := if s.firstTimeBootUpFlag = 2 then
      { s.setFromCharger checksRange dateTime with firstTimeBootUpFlag := 3, ntpInitFlag := true }
    else s
  if s.ntpInitFlag && online then s.ntpLoop Tm.zero 0 else s

/-- Time passes, the main loop makes a turn, the first configuration message is formed, the main loop
wakes up in `ntp_init` or sets the clock there, and the SNTP client sets the clock. -/
inductive Event
  | elapse (micros : Nat)
  | turn (networkReady online : Bool) (dateTime : CStr)
  | formed
  | wake
  | set
  | sntp (micros : Nat)

def step : Event → Clock → Option Clock
  | .elapse micros, s => some { s with rtc := (s.rtc + micros) % 2 ^ 64 }
  | .turn networkReady online dateTime, s =>
    if s.phase = .idle then some (s.turn checksRange networkReady online dateTime) else none
  | .formed, s => some (if s.firstTimeBootUpFlag = 3 then { s with firstTimeBootUpFlag := 0 } else s)
  | .wake, s =>
    match s.phase with
    | .waiting retry => some (s.ntpLoop (gmtime (s.rtc / 1000000)) retry)
    | _ => none
  | .set, s =>
    match s.phase with
    | .setting timeinfo => some { s.settimeofday (mktime timeinfo) with
        phase := .idle
        ntpInitFlag := false
        isTimeSet := true }
    | _ => none
  | .sntp micros, s => some { s with rtc := micros % 2 ^ 64 }

/-- The start of `app_main`; the clock may have been kept. -/
structure Booted (s : Clock) : Prop where
  flag : s.firstTimeBootUpFlag = 1
  ntpInitFlag : s.ntpInitFlag = false
  isTimeSet : s.isTimeSet = false
  phase : s.phase = .idle

/-! ### The time that passes -/

def Event.micros : Event → Nat
  | .elapse micros => micros
  | _ => 0

def elapsed (events : List Event) : Nat := (events.map Event.micros).sum

/-- The time that passes between breaking down the time and setting the clock. -/
def Event.late (e : Event) (s : Clock) : Nat :=
  match s.phase with
  | .setting _ => e.micros
  | _ => 0

/-- The time of a run by which the clock is set too late. -/
def lateness : List Event → Clock → Nat
  | [], _ => 0
  | e :: events, s => e.late s + ((step checksRange e s).map (lateness events)).getD 0

/-- The SNTP client does not set the clock. -/
def Unsynchronized (events : List Event) : Prop := ∀ micros, .sntp micros ∉ events

/-! ### Reading -/

section Reading

variable {s : Clock}

/-- What is read is the millisecond of the clock. -/
theorem readEsp32Time_micros {t : UtcTime} (ht : s.readEsp32Time = some t) :
    t.micros ≤ s.rtc ∧ (s.rtc : Int) < t.micros + 1000 := by
  obtain ⟨htm, hmilli, -⟩ := utcTime_eq_some ht
  rw [UtcTime.micros, htm, mktime_gmtime, hmilli]
  omega

theorem readEsp32Time_isSome (hyear : (s.rtc : Int) < 86400000000 * daysBeforeYear 8030) :
    ∃ t, s.readEsp32Time = some t := by
  refine utcTime_isSome ?_ ?_ <;> omega

end Reading

/-! ### The date and time of the charger -/

theorem removeMillisecondsAndZ_prefix {text dateTime : CStr} (htext : '.' ∉ text)
    (hbegins : text <+: dateTime) : text <+: removeMillisecondsAndZ dateTime := by
  obtain ⟨rest, rfl⟩ := hbegins
  rw [removeMillisecondsAndZ]
  split
  · next before after hdot =>
      obtain ⟨hsplit, -⟩ := strchr_eq_some hdot
      rcases List.append_eq_append_iff.mp hsplit with ⟨a, rfl, -⟩ | ⟨c, rfl, htail⟩
      · exact List.prefix_append text a
      · cases c with
        | nil => rw [List.append_nil]
        | cons x c =>
            obtain ⟨rfl, -⟩ := List.cons.inj htail
            exact absurd (by simp) htext
  · exact List.prefix_append text rest

theorem digit_ne_dot : ∀ d < 10, digit d ≠ '.' := by decide

theorem dot_not_mem_iso (u : UtcTime) : '.' ∉ u.iso := by
  have hpad : ∀ {width n : Nat}, '.' ∉ pad width n := by
    intro width n hmem
    obtain ⟨d, hd, hdot⟩ := mem_pad hmem
    exact digit_ne_dot d hd hdot.symm
  simp [UtcTime.iso, hpad]

/-- A text that begins with a date and a time is read as that. -/
theorem strptime_dateTime (checksRange : Bool) {u : UtcTime} {dateTime : CStr}
    (hu : u.iso <+: dateTime) : ∃ rest,
      strptime (.posix checksRange) isoFormat (removeMillisecondsAndZ dateTime) Tm.zero = (u.tm, some rest) := by
  obtain ⟨rest, hrest⟩ := removeMillisecondsAndZ_prefix (dot_not_mem_iso u) hu
  refine ⟨rest, ?_⟩
  rw [← hrest]
  exact strptime_posix_iso checksRange u rest Tm.zero

/-! ### From the setting on -/

/-- The clock against the time `now`, where the clock was set too late by `late`. Until `ntp_init` sets
it, it is exact; then it has lost the part of a second, and the time that passed before it was set. -/
inductive Follows (now late : Nat) (s : Clock) : Prop
  | exact : (∀ timeinfo, s.phase ≠ .setting timeinfo) → s.isTimeSet = false → s.rtc = now →
      late = 0 → Follows now late s
  | setting (sample : Nat) : s.phase = .setting (gmtime (sample / 1000000)) →
      s.isTimeSet = false → s.rtc = now → now = sample + late → Follows now late s
  | done : s.phase = .idle → s.ntpInitFlag = false → s.isTimeSet = true → s.rtc ≤ now →
      now < s.rtc + 1000000 + late → Follows now late s

/-- The main loop has set the clock. -/
def Passed (s : Clock) : Prop := s.firstTimeBootUpFlag = 3 ∨ s.firstTimeBootUpFlag = 0

section Following

variable {checksRange : Bool} {s s' : Clock} {now late : Nat}

theorem gmtime_year (t : Nat) : ¬(gmtime t).year < 70 := by
  simp only [gmtime]
  omega

theorem settimeofday_rtc {t : Nat} (ht : t * 1000000 < 2 ^ 64) :
    (s.settimeofday t).rtc = t * 1000000 := by
  have hmod : (t * 1000000 : Int) % (2 ^ 64 : Nat) = t * 1000000 :=
    Int.emod_eq_of_lt (Int.natCast_nonneg (t * 1000000)) (by exact_mod_cast ht)
  simp only [settimeofday, hmod]
  exact Int.toNat_natCast (t * 1000000)

theorem settimeofday_isTimeSet (sec : Int) (s : Clock) :
    (s.settimeofday sec).isTimeSet = s.isTimeSet := rfl

theorem settimeofday_phase (sec : Int) (s : Clock) : (s.settimeofday sec).phase = s.phase := rfl

theorem ntpLoop_zero (s : Clock) : s.ntpLoop Tm.zero 0 = { s with phase := .waiting 1 } := rfl

/-- `ntp_init` never waits twice: any time that can be read is after 1970. -/
theorem ntpLoop_gmtime (t retry : Nat) (s : Clock) :
    s.ntpLoop (gmtime t) retry = { s with phase := .setting (gmtime t) } := by
  rw [ntpLoop, if_neg fun h => gmtime_year t h.1, if_neg (gmtime_year t)]

theorem turn_of_passed (hs : s.Passed) (networkReady online : Bool) (dateTime : CStr) :
    s.turn checksRange networkReady online dateTime
      = if s.ntpInitFlag && online then { s with phase := .waiting 1 } else s := by
  have hone : ¬(s.firstTimeBootUpFlag = 1 ∧ networkReady = true) := by
    rcases hs with h | h <;> simp [h]
  have htwo : s.firstTimeBootUpFlag ≠ 2 := by rcases hs with h | h <;> simp [h]
  simp only [turn, if_neg hone, if_neg htwo, ntpLoop_zero]

theorem step_passed {e : Event} (hs : s.Passed) (hstep : step checksRange e s = some s') :
    s'.Passed := by
  cases e with
  | elapse micros => exact Option.some.inj hstep ▸ hs
  | turn networkReady online dateTime =>
      rw [step] at hstep
      split at hstep
      · rw [turn_of_passed hs] at hstep
        rw [← Option.some.inj hstep]
        split <;> exact hs
      · cases hstep
  | formed =>
      rw [← Option.some.inj hstep]
      split
      · exact .inr rfl
      · exact hs
  | wake =>
      rw [step] at hstep
      split at hstep
      · rw [ntpLoop_gmtime] at hstep
        exact Option.some.inj hstep ▸ hs
      · cases hstep
  | set =>
      rw [step] at hstep
      split at hstep
      · exact Option.some.inj hstep ▸ hs
      · cases hstep
  | sntp micros => exact Option.some.inj hstep ▸ hs

theorem late_of_not_setting {e : Event} (h : ∀ timeinfo, s.phase ≠ .setting timeinfo) :
    e.late s = 0 := by
  rw [Event.late]
  split
  · next timeinfo hphase => exact absurd hphase (h timeinfo)
  · rfl

theorem late_of_setting {e : Event} {timeinfo : Tm} (h : s.phase = .setting timeinfo) :
    e.late s = e.micros := by rw [Event.late, h]

theorem late_of_idle {e : Event} (h : s.phase = .idle) : e.late s = 0 := by rw [Event.late, h]

/-- Time passes. -/
theorem Follows.elapse {micros : Nat} (h : s.Follows now late) (hnow : now + micros < 2 ^ 64) :
    Follows (now + micros) (late + (Event.elapse micros).late s)
      { s with rtc := (s.rtc + micros) % 2 ^ 64 } := by
  cases h with
  | exact hphase hset hrtc hlate =>
      rw [late_of_not_setting hphase]
      refine .exact hphase hset ?_ hlate
      rw [hrtc, Nat.mod_eq_of_lt hnow]
  | setting sample hphase hset hrtc hsample =>
      rw [late_of_setting hphase]
      refine .setting sample hphase hset ?_ ?_
      · rw [hrtc, Nat.mod_eq_of_lt hnow]
      · rw [hsample, Nat.add_assoc]
        rfl
  | done hphase hntp hset hle hlt =>
      rw [late_of_idle hphase]
      have hsame : (s.rtc + micros) % 2 ^ 64 = s.rtc + micros := Nat.mod_eq_of_lt (by omega)
      refine .done hphase hntp hset ?_ ?_ <;> dsimp only <;> omega

/-- The main loop makes a turn, and may enter `ntp_init`. -/
theorem Follows.turn (h : s.Follows now late) (hidle : s.phase = .idle) (online : Bool) :
    Follows now late (if s.ntpInitFlag && online then { s with phase := .waiting 1 } else s) := by
  split
  · next hntp =>
      cases h with
      | exact _ hset hrtc hlate =>
          exact .exact (fun _ hphase => NtpPhase.noConfusion hphase) hset hrtc hlate
      | setting _ hphase => exact NtpPhase.noConfusion (hidle.symm.trans hphase)
      | done _ hdone =>
          rw [hdone] at hntp
          exact absurd hntp Bool.false_ne_true
  · exact h

/-- The main loop wakes up in `ntp_init`. -/
theorem Follows.wake {retry : Nat} (h : s.Follows now late) (hphase : s.phase = .waiting retry) :
    Follows now late { s with phase := .setting (gmtime (s.rtc / 1000000)) } := by
  cases h with
  | exact _ hset hrtc hlate => exact .setting s.rtc rfl hset hrtc (by rw [hrtc, hlate, Nat.add_zero])
  | setting _ hphase' => exact NtpPhase.noConfusion (hphase.symm.trans hphase')
  | done hphase' => exact NtpPhase.noConfusion (hphase.symm.trans hphase')

/-- `ntp_init` sets the clock to the second at which it broke down the time. -/
theorem Follows.set {timeinfo : Tm} (h : s.Follows now late) (hnow : now < 2 ^ 64)
    (hphase : s.phase = .setting timeinfo) :
    Follows now late { s.settimeofday (mktime timeinfo) with
      phase := .idle
      ntpInitFlag := false
      isTimeSet := true } := by
  cases h with
  | exact hphase' => exact absurd hphase (hphase' timeinfo)
  | setting sample hphase' _ _ hsample =>
      obtain rfl := NtpPhase.setting.inj (hphase.symm.trans hphase')
      have hrtc : (s.settimeofday (mktime (gmtime (sample / 1000000)))).rtc
          = sample / 1000000 * 1000000 := by
        rw [mktime_gmtime]
        exact settimeofday_rtc (by omega)
      refine .done rfl rfl rfl ?_ ?_ <;> dsimp only <;> rw [hrtc] <;> omega
  | done hphase' => exact NtpPhase.noConfusion (hphase.symm.trans hphase')

/-- One event keeps the clock at the time, as far as it goes. -/
theorem Follows.step {e : Event} (h : s.Follows now late) (hpassed : s.Passed)
    (hsntp : ∀ micros, e ≠ .sntp micros) (hnow : now + e.micros < 2 ^ 64)
    (hstep : step checksRange e s = some s') : s'.Follows (now + e.micros) (late + e.late s) := by
  have hstill : e.micros = 0 → s'.Follows now late →
      s'.Follows (now + e.micros) (late + e.late s) := by
    intro hzero hsame
    have hlate : e.late s = 0 := by
      rw [Event.late]
      split
      · exact hzero
      · rfl
    rwa [hzero, hlate]
  cases e with
  | elapse micros => exact Option.some.inj hstep ▸ h.elapse hnow
  | turn networkReady online dateTime =>
      refine hstill rfl ?_
      rw [Clock.step] at hstep
      split at hstep
      · next hidle =>
          rw [turn_of_passed hpassed] at hstep
          exact Option.some.inj hstep ▸ h.turn hidle online
      · cases hstep
  | formed =>
      refine hstill rfl ?_
      rw [← Option.some.inj hstep]
      split
      · cases h with
        | exact hphase hset hrtc hlate => exact .exact hphase hset hrtc hlate
        | setting sample hphase hset hrtc hsample => exact .setting sample hphase hset hrtc hsample
        | done hphase hntp hset hle hlt => exact .done hphase hntp hset hle hlt
      · exact h
  | wake =>
      refine hstill rfl ?_
      rw [Clock.step] at hstep
      split at hstep
      · next retry hphase =>
          rw [ntpLoop_gmtime] at hstep
          exact Option.some.inj hstep ▸ h.wake hphase
      · cases hstep
  | set =>
      refine hstill rfl ?_
      rw [Clock.step] at hstep
      split at hstep
      · next timeinfo hphase => exact Option.some.inj hstep ▸ h.set hnow hphase
      · cases hstep
  | sntp micros => exact absurd rfl (hsntp micros)

theorem elapsed_cons (e : Event) (events : List Event) :
    elapsed (e :: events) = e.micros + elapsed events := by
  rw [elapsed, List.map_cons, List.sum_cons]
  rfl

/-- The clock over a run. -/
theorem Follows.run {events : List Event} (h : s.Follows now late) (hpassed : s.Passed)
    (hsntp : Unsynchronized events) (hnow : now + elapsed events < 2 ^ 64)
    (hrun : Runs.run (Clock.step checksRange) events s = some s') :
    s'.Follows (now + elapsed events) (late + lateness checksRange events s) ∧ s'.Passed := by
  induction events generalizing s now late with
  | nil =>
      obtain rfl := Option.some.inj hrun
      exact ⟨h, hpassed⟩
  | cons e events ih =>
      rw [Runs.run_cons] at hrun
      obtain ⟨s₁, hfirst, hrest⟩ := Option.bind_eq_some_iff.mp hrun
      rw [elapsed_cons] at hnow ⊢
      have hafter := h.step hpassed (fun micros he => hsntp micros (by rw [he]; simp)) (by omega) hfirst
      have hlast := ih hafter (step_passed hpassed hfirst)
        (fun micros hmem => hsntp micros (List.mem_cons_of_mem e hmem)) (by omega) hrest
      rw [lateness, hfirst, Option.map_some, Option.getD_some, ← Nat.add_assoc, ← Nat.add_assoc]
      exact hlast

/-! ### From the start on -/

theorem Booted.turn_passed (hs : s.Booted) (online : Bool) (dateTime : CStr) :
    (s.turn checksRange true online dateTime).Passed := by
  simp only [Clock.turn, hs.flag, and_self, if_true]
  split <;> exact .inl rfl

/-- Until the network is ready, nothing but the time changes; then the main loop sets the clock. -/
theorem Booted.step {e : Event} (hs : s.Booted) (hstep : Clock.step checksRange e s = some s') :
    s'.Booted ∨ s'.Passed ∧ ∃ online dateTime, e = .turn true online dateTime := by
  cases e with
  | elapse micros => exact .inl (Option.some.inj hstep ▸ ⟨hs.flag, hs.ntpInitFlag, hs.isTimeSet, hs.phase⟩)
  | turn networkReady online dateTime =>
      rw [Clock.step, if_pos hs.phase] at hstep
      cases networkReady with
      | false =>
          refine .inl ?_
          rw [← Option.some.inj hstep]
          simpa [Clock.turn, hs.flag, hs.ntpInitFlag] using hs
      | true =>
          refine .inr ⟨?_, online, dateTime, rfl⟩
          exact Option.some.inj hstep ▸ hs.turn_passed online dateTime
  | formed =>
      refine .inl ?_
      rw [← Option.some.inj hstep, if_neg (by rw [hs.flag]; decide)]
      exact hs
  | wake =>
      rw [Clock.step, hs.phase] at hstep
      cases hstep
  | set =>
      rw [Clock.step, hs.phase] at hstep
      cases hstep
  | sntp micros => exact .inl (Option.some.inj hstep ▸ ⟨hs.flag, hs.ntpInitFlag, hs.isTimeSet, hs.phase⟩)

/-- The turn that sets the clock. -/
theorem Booted.turn {online : Bool} {dateTime : CStr} {u : UtcTime} {t : Nat} (hs : s.Booted)
    (hdateTime : u.iso <+: dateTime) (ht : mktime u.tm = t) (hlt : t * 1000000 < 2 ^ 64)
    (hstep : Clock.step checksRange (.turn true online dateTime) s = some s') :
    s'.Follows (t * 1000000) 0 := by
  obtain ⟨rest, hparse⟩ := strptime_dateTime checksRange hdateTime
  rw [Clock.step, if_pos hs.phase] at hstep
  rw [← Option.some.inj hstep]
  simp only [Clock.turn, hs.flag, and_self, if_true, setFromCharger, hparse, Option.isSome_some, ht,
    Bool.true_and, ntpLoop_zero]
  have hrtc : ({ s with firstTimeBootUpFlag := 2 }.settimeofday t).rtc = t * 1000000 :=
    settimeofday_rtc hlt
  rw [hrtc, settimeofday_isTimeSet, settimeofday_phase]
  split
  · exact .exact (fun _ hphase => NtpPhase.noConfusion hphase) hs.isTimeSet rfl rfl
  · refine .exact (fun _ hphase => ?_) hs.isTimeSet rfl rfl
    exact NtpPhase.noConfusion (hs.phase.symm.trans hphase)

/-- What is read when `passed` microseconds have passed since `start`: the millisecond, until `ntp_init`
has set the clock; then the clock is up to a second late, and as much as it was set too late. -/
def Tells (s : Clock) (start : UtcTime) (passed late : Nat) : Prop :=
  ∃ t, s.readEsp32Time = some t ∧ t.micros ≤ mktime start.tm * 1000000 + passed
    ∧ mktime start.tm * 1000000 + passed
      < t.micros + 1000 + if s.isTimeSet then 1000000 + late else 0

theorem Follows.tells {u : UtcTime} {t passed : Nat} (h : s.Follows (t * 1000000 + passed) late)
    (ht : mktime u.tm = t)
    (hyear : (t * 1000000 + passed : Int) < 86400000000 * daysBeforeYear 8030) :
    s.Tells u passed late := by
  have hbounds : (s.rtc : Int) ≤ t * 1000000 + passed ∧ (t * 1000000 + passed : Int)
      < s.rtc + 1 + if s.isTimeSet then 1000000 + late else 0 := by
    cases h with
    | exact _ hset hrtc => rw [hset, hrtc]; simp
    | setting _ _ hset hrtc => rw [hset, hrtc]; simp
    | done _ _ hset hle hlt =>
        rw [hset, if_pos rfl]
        omega
  obtain ⟨hle, hlt⟩ := hbounds
  obtain ⟨r, hr⟩ := readEsp32Time_isSome (hle.trans_lt hyear)
  obtain ⟨hbefore, hafter⟩ := readEsp32Time_micros hr
  refine ⟨r, hr, ?_, ?_⟩
  · rw [ht]
    omega
  · rw [ht]
    omega

end Following

section Runs

variable {checksRange : Bool} {s s' : Clock} {before after : List Event}

/-- Before the network is ready the clock is not set and nothing is late. -/
theorem Booted.run (hs : s.Booted) (hfirst : ∀ online dateTime, .turn true online dateTime ∉ before)
    (hrun : Runs.run (Clock.step checksRange) before s = some s') :
    s'.Booted ∧ lateness checksRange (before ++ after) s = lateness checksRange after s' := by
  induction before generalizing s with
  | nil =>
      obtain rfl := Option.some.inj hrun
      exact ⟨hs, rfl⟩
  | cons e before ih =>
      rw [Runs.run_cons] at hrun
      obtain ⟨s₁, hstep, hrest⟩ := Option.bind_eq_some_iff.mp hrun
      rcases hs.step hstep with hbooted | ⟨-, online, dateTime, rfl⟩
      · obtain ⟨hend, hlate⟩ := ih hbooted
          (fun online dateTime hmem => hfirst online dateTime (List.mem_cons_of_mem e hmem)) hrest
        refine ⟨hend, ?_⟩
        rw [List.cons_append, lateness, late_of_idle hs.phase, hstep, Option.map_some,
          Option.getD_some, Nat.zero_add, hlate]
      · exact absurd List.mem_cons_self (hfirst online dateTime)

/-- The first turn with a network reads the date and time of the charger; nothing is published before
that. From then on, as long as the SNTP client leaves the clock alone, every time that is read is the
time of the charger and what has passed since, except that it is late when `ntp_init` has set the clock:
by less than a second and the time that passed while it was set. -/
theorem clock_keeps_charger_time {online : Bool} {dateTime : CStr} {u : UtcTime} (hs : s.Booted)
    (hfirst : ∀ online dateTime, .turn true online dateTime ∉ before)
    (hu : u.IsDate) (hdateTime : u.iso <+: dateTime) (hsntp : Unsynchronized after)
    (hyear : mktime u.tm * 1000000 + elapsed after < 86400000000 * daysBeforeYear 8030)
    (hrun : Runs.run (step checksRange) (before ++ .turn true online dateTime :: after) s = some s') :
    (∀ s₁, Runs.run (step checksRange) before s = some s₁ → s₁.isTimeSet = false)
      ∧ s'.Tells u (elapsed after)
        (lateness checksRange (before ++ .turn true online dateTime :: after) s) := by
  rw [Runs.run_append] at hrun
  obtain ⟨s₁, hbefore, hrest⟩ := Option.bind_eq_some_iff.mp hrun
  obtain ⟨hbooted, hlate⟩ := @Booted.run checksRange s s₁ before (.turn true online dateTime :: after) hs hfirst hbefore
  refine ⟨fun s₂ hs₂ => (@Booted.run checksRange s s₂ before [] hs hfirst hs₂).1.isTimeSet, ?_⟩
  rw [Runs.run_cons] at hrest
  obtain ⟨s₂, hturn, hafter⟩ := Option.bind_eq_some_iff.mp hrest
  obtain ⟨t, ht, -⟩ := gmtime_mktime hu
  have hlimit : 86400000000 * daysBeforeYear 8030 < 18446744073709551616 := by decide
  rw [ht] at hyear
  have hset := hbooted.turn hdateTime ht (by omega) hturn
  have hpassed : s₂.Passed := by
    rw [step, if_pos hbooted.phase] at hturn
    exact Option.some.inj hturn ▸ hbooted.turn_passed online dateTime
  obtain ⟨hfollows, -⟩ := hset.run hpassed hsntp (by omega) hafter
  rw [hlate, lateness, late_of_idle hbooted.phase, hturn, Option.map_some, Option.getD_some]
  exact hfollows.tells ht hyear

end Runs

/-- The charger sends the new year; NTP is started at once and sets the clock 300 µs late. -/
def newYearEvents : List Event :=
  [.elapse 5000000, .formed, .wake, .elapse 300, .set, .elapse 2700000]

def newYearStart : Clock := ⟨7250000, 1, false, false, .idle⟩

def newYearEnd : Clock := ⟨1735689607700000, 0, false, true, .idle⟩

theorem newYear_isDate : newYear.IsDate := ⟨by decide, by decide, by decide⟩

theorem newYearStart_booted : newYearStart.Booted := ⟨rfl, rfl, rfl, rfl⟩

theorem newYear_is_kept : newYearEnd.Tells newYear 7700300 300 := by
  have hrun : Runs.run (step true) ([.elapse 90000000] ++
      .turn true true "2025-01-01T00:00:00.000Z".toList :: newYearEvents) newYearStart
        = some newYearEnd := by decide +kernel
  refine (clock_keeps_charger_time newYearStart_booted ?_ newYear_isDate ?_ ?_ ?_ hrun).2
  · simp
  · decide
  · simp [Unsynchronized, newYearEvents]
  · decide

end Clock

end Pmu
