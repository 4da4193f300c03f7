import PmuFirmware.Lib.CString

/-!
# Broken-down time

`strptime`, `strftime` and `mktime` for numeric ISO 8601 formats. `strptime` stops at the first part
of the text that does not fit its directive and leaves the later fields of the `struct tm` as they
were; a caller that ignores its result sees exactly the fields filled so far. C libraries differ on
the numbers that fit: on blanks and signs before them, on how many digits are read and on those
outside the documented range. What the results below need of a library is a structure of its own.
-/

namespace CLib

/-- The fields of a `struct tm` that the formats below touch; `year` counts from 1900. -/
structure Tm where
  year : Int
  mon : Int
  mday : Int
  hour : Int
  min : Int
  sec : Int
  deriving DecidableEq

def Tm.zero : Tm := ⟨0, 0, 0, 0, 0, 0⟩

/-! ### Decimal fields -/

def digit (d : Nat) : Char := Char.ofNat (48 + d)

/-- The last `width` decimal digits of `n`. -/
def pad : Nat → Nat → CStr
  | 0, _ => []
  | width + 1, n => pad width (n / 10) ++ [digit (n % 10)]

def digitsValue (ds : CStr) : Nat := ds.foldl (fun n c => 10 * n + (c.toNat - 48)) 0

theorem digit_spec : ∀ d < 10, (digit d).isDigit = true ∧ (digit d).toNat - 48 = d
    ∧ digit d ≠ '|' ∧ digit d ≠ newline ∧ digit d ≠ NUL := by decide

@[simp] theorem length_pad (width n : Nat) : (pad width n).length = width := by
  induction width generalizing n with
  | zero => rfl
  | succ width ih => simp [pad, ih]

theorem mem_pad {width n : Nat} {c : Char} (hc : c ∈ pad width n) : ∃ d < 10, c = digit d := by
  induction width generalizing n with
  | zero => simp [pad] at hc
  | succ width ih =>
    rw [pad, List.mem_append, List.mem_singleton] at hc
    rcases hc with hc | rfl
    · exact ih hc
    · exact ⟨n % 10, Nat.mod_lt _ (by decide), rfl⟩

theorem digitsValue_pad (width n : Nat) (hn : n < 10 ^ width) : digitsValue (pad width n) = n := by
  induction width generalizing n with
  | zero =>
    obtain rfl : n = 0 := by simpa using hn
    rfl
  | succ width ih =>
    have hlt : n / 10 < 10 ^ width := Nat.div_lt_of_lt_mul (by rwa [Nat.pow_succ, Nat.mul_comm] at hn)
    have hd := (digit_spec (n % 10) (Nat.mod_lt _ (by decide))).2.1
    have hrec := ih (n / 10) hlt
    rw [digitsValue] at hrec ⊢
    rw [pad, List.foldl_append, hrec]
    simp only [List.foldl_cons, List.foldl_nil, hd]
    exact Nat.div_add_mod n 10

/-- The digits at the front of `ds` have all been read once `rest` is reached. -/
def NoDigit (rest : CStr) : Prop := ∀ c ∈ rest.head?, c.isDigit = false

theorem noDigit_cons {c : Char} {rest : CStr} (hc : c.isDigit = false) : NoDigit (c :: rest) := by
  intro d hd
  rw [← Option.some.inj hd]
  exact hc

theorem isDigit_of_mem_pad {width n : Nat} {c : Char} (hc : c ∈ pad width n) : c.isDigit = true := by
  obtain ⟨d, hd, rfl⟩ := mem_pad hc
  exact (digit_spec d hd).1

theorem pad_ne_nil {width n : Nat} (hwidth : 0 < width) : pad width n ≠ [] :=
  List.ne_nil_of_length_pos (by rwa [length_pad])

/-! ### Seconds since the epoch -/

/-- The leap days in the years up to and including `y`. -/
def leapDays (y : Int) : Int := y / 4 - y / 100 + y / 400

def isLeap (y : Int) : Bool := (y % 4 == 0 && y % 100 != 0) || y % 400 == 0

/-- Days of a year before the first day of the month `mon`, counted from 0. -/
def daysBeforeMonth (leap : Bool) (mon : Nat) : Int :=
  match mon with
  | 0 => 0
  | 1 => 31
  | 2 => 59 + leap.toInt
  | 3 => 90 + leap.toInt
  | 4 => 120 + leap.toInt
  | 5 => 151 + leap.toInt
  | 6 => 181 + leap.toInt
  | 7 => 212 + leap.toInt
  | 8 => 243 + leap.toInt
  | 9 => 273 + leap.toInt
  | 10 => 304 + leap.toInt
  | _ => 334 + leap.toInt

/-- `mktime` in UTC: a field outside its range counts on into the next larger unit. -/
def mktime (tm : Tm) : Int :=
  let y := tm.year + 1900 + tm.mon / 12
  let days := 365 * (y - 1970) + (leapDays (y - 1) - leapDays 1969)
    + daysBeforeMonth (isLeap y) (tm.mon % 12).toNat + (tm.mday - 1)
  ((days * 24 + tm.hour) * 60 + tm.min) * 60 + tm.sec

/-- The fields are numbers that `strptime` makes of at most four and two digits. -/
def Tm.Small (tm : Tm) : Prop :=
  (0 ≤ tm.year + 1900 ∧ tm.year + 1900 ≤ 9999) ∧ (-1 ≤ tm.mon ∧ tm.mon ≤ 98)
    ∧ (0 ≤ tm.mday ∧ tm.mday ≤ 99) ∧ (0 ≤ tm.hour ∧ tm.hour ≤ 99) ∧ (0 ≤ tm.min ∧ tm.min ≤ 99)
    ∧ (0 ≤ tm.sec ∧ tm.sec ≤ 99)

instance (tm : Tm) : Decidable tm.Small :=
  inferInstanceAs (Decidable ((_ ∧ _) ∧ (_ ∧ _) ∧ (_ ∧ _) ∧ (_ ∧ _) ∧ (_ ∧ _) ∧ (_ ∧ _)))

/-! ### Libraries -/

/-- The part of a C library on which `strptime` and `mktime` rest. Libraries agree on a number of its
full width within its range; of other digits a library reads at least one, if it takes the number at
all. They agree on the times of four-digit years. -/
structure TimeLibrary where
  /-- The number that a directive of at most `width` digits and from `lo` to `hi` finds in a text. -/
  readNum : (width lo hi : Nat) → CStr → Option (Int × CStr)
  /-- The times for which `mktime` returns -1. -/
  mktimeFails : Tm → Bool
  readNum_pad : ∀ {width lo hi n : Nat} {rest : CStr}, 0 < width → n < 10 ^ width → lo ≤ n → n ≤ hi →
    NoDigit rest → readNum width lo hi (pad width n ++ rest) = some ((n : Int), rest)
  readNum_digits : ∀ {width lo hi : Nat} {ds rest : CStr} {r : Int × CStr}, 0 < width → ds ≠ [] →
    ds.length ≤ 9 → (∀ c ∈ ds, c.isDigit = true) → NoDigit rest →
    readNum width lo hi (ds ++ rest) = some r →
    ∃ k, 0 < k ∧ k ≤ ds.length ∧ r = ((digitsValue (ds.take k) : Int), ds.drop k ++ rest)
  mktimeFails_small : ∀ {tm : Tm}, tm.Small → mktimeFails tm = false

namespace TimeLibrary

/-- `mktime` with the failure of the library. -/
def mktime (lib : TimeLibrary) (tm : Tm) : Int := if lib.mktimeFails tm then -1 else CLib.mktime tm

theorem mktime_of_small (lib : TimeLibrary) {tm : Tm} (htm : tm.Small) :
    lib.mktime tm = CLib.mktime tm := by
  rw [mktime, lib.mktimeFails_small htm, if_neg Bool.false_ne_true]

/-! ### A library after the letter of the standard -/

/-- `isspace` -/
def isspace (c : Char) : Bool := c == ' ' || (9 ≤ c.toNat && c.toNat ≤ 13)

/-- A number of at most `width` digits at the front of `s`, behind any blanks. A library that checks
ranges takes none but those from `lo` to `hi`. -/
def readDigits (checksRange : Bool) (width lo hi : Nat) (s : CStr) : Option (Int × CStr) :=
  let s := s.dropWhile isspace
  let ds := (s.take width).takeWhile Char.isDigit
  let n := digitsValue ds
  if ds ≠ [] ∧ (checksRange = true → lo ≤ n ∧ n ≤ hi) then some ((n : Int), s.drop ds.length)
  else none

theorem isspace_of_isDigit {c : Char} (hc : c.isDigit = true) : isspace c = false := by
  have hlow : 48 ≤ c.toNat := by
    simp only [Char.isDigit, Bool.and_eq_true, decide_eq_true_eq] at hc
    exact hc.1
  have hblank : c ≠ ' ' := by
    rintro rfl
    simp at hc
  simp only [isspace, Bool.or_eq_false_iff, beq_eq_false_iff_ne, ne_eq, hblank, not_false_eq_true,
    Bool.and_eq_false_iff, decide_eq_false_iff_not, true_and]
  omega

theorem dropWhile_isspace {ds rest : CStr} (hne : ds ≠ []) (hds : ∀ c ∈ ds, c.isDigit = true) :
    (ds ++ rest).dropWhile isspace = ds ++ rest := by
  cases ds with
  | nil => exact absurd rfl hne
  | cons c ds =>
    rw [List.cons_append, List.dropWhile_cons, isspace_of_isDigit (hds c List.mem_cons_self),
      if_neg Bool.false_ne_true]

theorem takeWhile_isDigit {ds rest : CStr} (hds : ∀ c ∈ ds, c.isDigit = true) (hrest : NoDigit rest) :
    (ds ++ rest).takeWhile Char.isDigit = ds := by
  rw [List.takeWhile_append_of_pos hds]
  cases rest with
  | nil => simp
  | cons c rest =>
    rw [List.takeWhile_cons, hrest c rfl, if_neg Bool.false_ne_true, List.append_nil]

/-- Of the digits in front of `rest` at most `width` are read. -/
theorem readDigits_append {checksRange : Bool} {width lo hi : Nat} {ds rest : CStr} (hne : ds ≠ [])
    (hds : ∀ c ∈ ds, c.isDigit = true) (hrest : ds.length < width → NoDigit rest) (hwidth : 0 < width) :
    readDigits checksRange width lo hi (ds ++ rest)
      = if checksRange = true → lo ≤ digitsValue (ds.take width) ∧ digitsValue (ds.take width) ≤ hi then
          some ((digitsValue (ds.take width) : Int), ds.drop width ++ rest)
        else none := by
  have hdigits : ((ds ++ rest).take width).takeWhile Char.isDigit = ds.take width := by
    rw [List.take_append]
    refine takeWhile_isDigit (fun c hc => hds c (List.mem_of_mem_take hc)) ?_
    rcases lt_or_ge ds.length width with hlt | hge
    · intro c hc
      refine hrest hlt c ?_
      cases rest with
      | nil => simp at hc
      | cons d rest =>
        rwa [show width - ds.length = (width - ds.length - 1) + 1 by omega, List.take_succ_cons] at hc
    · rw [Nat.sub_eq_zero_of_le hge, List.take_zero]
      intro c hc
      cases hc
  have hread : ds.take width ≠ [] := by
    rw [ne_eq, List.take_eq_nil_iff]
    rintro (rfl | h)
    · exact absurd hwidth (lt_irrefl 0)
    · exact hne h
  have hdrop : (ds ++ rest).drop (ds.take width).length = ds.drop width ++ rest := by
    rw [List.length_take]
    rcases le_total width ds.length with hle | hle
    · rw [Nat.min_eq_left hle, List.drop_append_of_le_length hle]
    · rw [Nat.min_eq_right hle, List.drop_left' rfl, List.drop_eq_nil_of_le hle, List.nil_append]
  simp only [readDigits, dropWhile_isspace hne hds, hdigits, hdrop, hread, not_false_eq_true,
    true_and, ne_eq]

/-- A number of the full width is read whatever follows it. -/
theorem readDigits_pad {checksRange : Bool} {width lo hi n : Nat} (rest : CStr) (hwidth : 0 < width)
    (hn : n < 10 ^ width) (hlo : lo ≤ n) (hhi : n ≤ hi) :
    readDigits checksRange width lo hi (pad width n ++ rest) = some ((n : Int), rest) := by
  have hfull : ¬ (pad width n).length < width := by simp
  rw [readDigits_append (pad_ne_nil hwidth) (fun c => isDigit_of_mem_pad)
    (fun hlt => absurd hlt hfull) hwidth]
  have hlength := length_pad width n
  rw [List.take_of_length_le hlength.le, List.drop_eq_nil_of_le hlength.le, List.nil_append,
    digitsValue_pad width n hn, if_pos fun _ => ⟨hlo, hhi⟩]

theorem readDigits_digits {checksRange : Bool} {width lo hi : Nat} {ds rest : CStr} {r : Int × CStr}
    (hwidth : 0 < width) (hne : ds ≠ []) (hds : ∀ c ∈ ds, c.isDigit = true) (hrest : NoDigit rest)
    (hr : readDigits checksRange width lo hi (ds ++ rest) = some r) :
    ∃ k, 0 < k ∧ k ≤ ds.length ∧ r = ((digitsValue (ds.take k) : Int), ds.drop k ++ rest) := by
  rw [readDigits_append hne hds (fun _ => hrest) hwidth, Option.ite_none_right_eq_some] at hr
  have hlength : 0 < ds.length := List.length_pos_iff.mpr hne
  have hmin : ds.take (min width ds.length) = ds.take width
      ∧ ds.drop (min width ds.length) = ds.drop width := by
    rcases le_total width ds.length with hle | hle
    · rw [Nat.min_eq_left hle]
      exact ⟨rfl, rfl⟩
    · rw [Nat.min_eq_right hle, List.take_of_length_le hle, List.drop_eq_nil_of_le hle]
      exact ⟨List.take_length, List.drop_length⟩
  refine ⟨min width ds.length, by omega, Nat.min_le_right _ _, ?_⟩
  rw [hmin.1, hmin.2]
  exact (Option.some.inj hr.2).symm

/-- The library that reads numbers as the standard says, with or without a check of their range. -/
def posix (checksRange : Bool) : TimeLibrary where
  readNum := readDigits checksRange
  mktimeFails _ := false
  readNum_pad := fun hwidth hn hlo hhi _ => readDigits_pad _ hwidth hn hlo hhi
  readNum_digits := fun hwidth hne _ hds hrest hr => readDigits_digits hwidth hne hds hrest hr
  mktimeFails_small := fun _ => rfl

end TimeLibrary

/-! ### Formats -/

inductive Directive
  | lit (c : Char)
  | num (width lo hi : Nat) (set : Tm → Int → Tm)

/-- `strptime`: the fields filled, and the rest of the text when every directive matched. -/
def strptime (lib : TimeLibrary) : List Directive → CStr → Tm → Tm × Option CStr
  | [], s, tm => (tm, some s)
  | .lit _ :: _, [], tm => (tm, none)
  | .lit c :: ds, x :: s, tm => if x = c then strptime lib ds s tm else (tm, none)
  | .num width lo hi set :: ds, s, tm =>
    match lib.readNum width lo hi s with
    | none => (tm, none)
    | some (n, rest) => strptime lib ds rest (set tm n)

/-- `%Y-%m-%dT%H:%M:%S` -/
def isoFormat : List Directive :=
  [.num 4 0 9999 fun tm n => { tm with year := n - 1900 }, .lit '-',
    .num 2 1 12 fun tm n => { tm with mon := n - 1 }, .lit '-',
    .num 2 1 31 fun tm n => { tm with mday := n }, .lit 'T',
    .num 2 0 23 fun tm n => { tm with hour := n }, .lit ':',
    .num 2 0 59 fun tm n => { tm with min := n }, .lit ':',
    .num 2 0 60 fun tm n => { tm with sec := n }]

/-- A UTC time of day as `gmtime_r` breaks it down, with the milliseconds of `gettimeofday`. -/
structure UtcTime where
  year : Nat
  month : Nat
  day : Nat
  hour : Nat
  minute : Nat
  second : Nat
  milli : Nat
  year_lt : year < 10000
  month_mem : 1 ≤ month ∧ month ≤ 12
  day_mem : 1 ≤ day ∧ day ≤ 31
  hour_le : hour ≤ 23
  minute_le : minute ≤ 59
  second_le : second ≤ 60
  milli_lt : milli < 1000

/-- `strftime` with `%Y-%m-%dT%H:%M:%S`. -/
def UtcTime.iso (t : UtcTime) : CStr :=
  pad 4 t.year ++ '-' :: (pad 2 t.month ++ '-' :: (pad 2 t.day ++ 'T' :: (pad 2 t.hour ++
    ':' :: (pad 2 t.minute ++ ':' :: pad 2 t.second))))

def UtcTime.tm (t : UtcTime) : Tm :=
  ⟨t.year - 1900, t.month - 1, t.day, t.hour, t.minute, t.second⟩

theorem length_iso (t : UtcTime) : t.iso.length = 19 := by simp [UtcTime.iso]

theorem UtcTime.small_tm (t : UtcTime) : t.tm.Small := by
  obtain ⟨hm₁, hm₂⟩ := t.month_mem
  obtain ⟨hd₁, hd₂⟩ := t.day_mem
  have hyear := t.year_lt
  have hhour := t.hour_le
  have hminute := t.minute_le
  have hsecond := t.second_le
  simp only [Tm.Small, UtcTime.tm]
  omega

section Parsing

variable {lib : TimeLibrary} {width lo hi n : Nat} {set : Tm → Int → Tm} {ds : List Directive}

theorem strptime_lit (c : Char) (rest : CStr) (tm : Tm) :
    strptime lib (.lit c :: ds) (c :: rest) tm = strptime lib ds rest tm := by
  rw [strptime, if_pos rfl]

theorem strptime_num {rest : CStr} (hwidth : 0 < width) (hn : n < 10 ^ width) (hlo : lo ≤ n)
    (hhi : n ≤ hi) (hrest : NoDigit rest) (tm : Tm) :
    strptime lib (.num width lo hi set :: ds) (pad width n ++ rest) tm
      = strptime lib ds rest (set tm n) := by
  rw [strptime, lib.readNum_pad hwidth hn hlo hhi hrest]

/-- A formatted time is parsed back field by field, once the library stops after the seconds. -/
theorem strptime_iso_of_readNum (t : UtcTime) {rest : CStr}
    (hrest : lib.readNum 2 0 60 (pad 2 t.second ++ rest) = some ((t.second : Int), rest)) (tm : Tm) :
    strptime lib isoFormat (t.iso ++ rest) tm = (t.tm, some rest) := by
  obtain ⟨hm₁, hm₂⟩ := t.month_mem
  obtain ⟨hd₁, hd₂⟩ := t.day_mem
  have hyear := t.year_lt
  have hhour := t.hour_le
  have hminute := t.minute_le
  simp only [isoFormat, UtcTime.iso, List.append_assoc, List.cons_append]
  rw [strptime_num (by decide) (by omega) (by omega) (by omega) (noDigit_cons rfl), strptime_lit,
    strptime_num (by decide) (by omega) (by omega) (by omega) (noDigit_cons rfl), strptime_lit,
    strptime_num (by decide) (by omega) (by omega) (by omega) (noDigit_cons rfl), strptime_lit,
    strptime_num (by decide) (by omega) (by omega) (by omega) (noDigit_cons rfl), strptime_lit,
    strptime_num (by decide) (by omega) (by omega) (by omega) (noDigit_cons rfl), strptime_lit,
    strptime, hrest]
  rfl

theorem strptime_iso (lib : TimeLibrary) (t : UtcTime) {rest : CStr} (hrest : NoDigit rest) (tm : Tm) :
    strptime lib isoFormat (t.iso ++ rest) tm = (t.tm, some rest) := by
  have hsecond := t.second_le
  exact strptime_iso_of_readNum t
    (lib.readNum_pad (by decide) (by omega) (Nat.zero_le _) hsecond hrest) tm

/-- A library that counts the digits does so whatever follows. -/
theorem strptime_posix_iso (checksRange : Bool) (t : UtcTime) (rest : CStr) (tm : Tm) :
    strptime (.posix checksRange) isoFormat (t.iso ++ rest) tm = (t.tm, some rest) := by
  have hsecond := t.second_le
  exact strptime_iso_of_readNum t
    (TimeLibrary.readDigits_pad rest (by decide) (by omega) (Nat.zero_le _) hsecond) tm

/-- Of two digits a library reads none, one or both. -/
theorem readNum_two_digits (hwidth : 0 < width) {a b : Char} (ha : a.isDigit = true)
    (hb : b.isDigit = true) {rest : CStr} (hrest : NoDigit rest) :
    lib.readNum width lo hi (a :: b :: rest) = none
      ∨ lib.readNum width lo hi (a :: b :: rest) = some ((digitsValue [a] : Int), b :: rest)
      ∨ lib.readNum width lo hi (a :: b :: rest) = some ((digitsValue [a, b] : Int), rest) := by
  cases hread : lib.readNum width lo hi (a :: b :: rest) with
  | none => exact .inl rfl
  | some r =>
    have hdigits : ∀ c ∈ [a, b], c.isDigit = true := by simp [ha, hb]
    obtain ⟨k, hpos, hle, rfl⟩ := @TimeLibrary.readNum_digits lib width lo hi [a, b] rest r hwidth
      (by simp) (by simp) hdigits hrest hread
    have hk : k = 1 ∨ k = 2 := by
      simp only [List.length_cons, List.length_nil] at hle
      omega
    rcases hk with rfl | rfl
    · exact .inr (.inl rfl)
    · exact .inr (.inr rfl)

/-- A library stops at two digits, after one of them, or reads both: with one read, the second is not
the separator that follows. -/
theorem strptime_two_digits {P : Tm → Prop} {a b c : Char} {rest : CStr} {tm : Tm} (hwidth : 0 < width)
    (ha : a.isDigit = true) (hb : b.isDigit = true) (hc : c.isDigit = false) (hnone : P tm)
    (hone : P (set tm (digitsValue [a])))
    (htwo : P (strptime lib ds rest (set tm (digitsValue [a, b]))).1) :
    P (strptime lib (.num width lo hi set :: .lit c :: ds) (a :: b :: c :: rest) tm).1 := by
  have hbc : b ≠ c := by
    rintro rfl
    rw [hb] at hc
    cases hc
  rcases @readNum_two_digits lib width lo hi hwidth a b ha hb (c :: rest) (noDigit_cons hc)
    with hread | hread | hread
  · rw [strptime, hread]
    exact hnone
  · rw [strptime, hread]
    dsimp only
    rw [strptime, if_neg hbc]
    exact hone
  · rw [strptime, hread]
    dsimp only
    rw [strptime_lit]
    exact htwo

theorem strptime_last_digits {P : Tm → Prop} {a b : Char} {rest : CStr} {tm : Tm} (hwidth : 0 < width)
    (ha : a.isDigit = true) (hb : b.isDigit = true) (hrest : NoDigit rest) (hnone : P tm)
    (hone : P (set tm (digitsValue [a]))) (htwo : P (set tm (digitsValue [a, b]))) :
    P (strptime lib [.num width lo hi set] (a :: b :: rest) tm).1 := by
  rcases @readNum_two_digits lib width lo hi hwidth a b ha hb rest hrest with hread | hread | hread
  · rw [strptime, hread]
    exact hnone
  · rw [strptime, hread]
    exact hone
  · rw [strptime, hread]
    exact htwo

end Parsing

/-- The conversion of an integral `double` to a 32-bit `int`, taken to saturate. -/
def doubleToInt (x : Int) : Int := max (-2 ^ 31) (min (2 ^ 31 - 1) x)

theorem doubleToInt_neg {x : Int} : doubleToInt x < 0 ↔ x < 0 := by
  simp only [doubleToInt]
  omega

theorem daysBeforeMonth_le (leap : Bool) (mon : Nat) :
    0 ≤ daysBeforeMonth leap mon ∧ daysBeforeMonth leap mon ≤ 335 := by
  unfold daysBeforeMonth
  cases leap <;> split <;> simp [Bool.toInt]

theorem leapDays_mono {y z : Int} (h : y ≤ z) : leapDays y ≤ leapDays z := by
  have hcenturies : y / 100 ≤ z / 100 := Int.ediv_le_ediv (by decide) h
  rcases hcenturies.lt_or_eq with hlt | heq
  · simp only [leapDays]
    omega
  · simp only [leapDays, heq]
    omega

/-- A time of a year is at most the end of its 366th day, also for a later year. -/
theorem mktime_tm_le (t : UtcTime) {year : Nat} (hyear : t.year ≤ year) :
    mktime t.tm
      ≤ 86400 * (365 * ((year : Int) - 1970) + (leapDays ((year : Int) - 1) - leapDays 1969) + 366) := by
  obtain ⟨hmon₁, hmon₂⟩ := t.month_mem
  have hmon : ((t.month : Int) - 1) / 12 = 0 := by omega
  have hfull : (t.year : Int) - 1900 + 1900 + 0 = t.year := by omega
  have hdays := (daysBeforeMonth_le (isLeap t.year) (((t.month : Int) - 1) % 12).toNat).2
  have hleap : leapDays ((t.year : Int) - 1) ≤ leapDays ((year : Int) - 1) :=
    leapDays_mono (by omega)
  have hday := t.day_mem.2
  have hhour := t.hour_le
  have hminute := t.minute_le
  have hsecond := t.second_le
  simp only [mktime, UtcTime.tm, hmon, hfull]
  omega

end CLib
