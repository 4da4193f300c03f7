import PmuFirmware.Can.StringReassembly
import PmuFirmware.Lib.Run

/-!
# What arrives of a string

Between two strings the reassembly is idle: no flag is set and no string waits to be delivered. From
there a transmission in order fills the buffer from the front and delivers it with its last frame,
which leaves the reassembly idle again. A string that ends in its header, a broker that does not, and
a continuation frame numbered like the last one before it are not in order.
-/

namespace Pmu

open CLib

/-! ### Transmissions -/

inductive StringParameter
  | versionInfo | ocppUrl | pmuInitial | broker | serialNumber | dateTime
  deriving DecidableEq

def StringParameter.number : StringParameter → UInt8
  | versionInfo => 4
  | ocppUrl => 5
  | pmuInitial => 6
  | broker => 7
  | serialNumber => 8
  | dateTime => 10

/-- A string that is sent; the bytes from `length` on fill up the last frame. -/
structure Transmission where
  parameter : StringParameter
  length : Nat
  byte : Nat → UInt8
  length_mem : 1 ≤ length ∧ length ≤ 99

namespace Transmission

variable (t : Transmission)

def string : CStr := ((List.range t.length).map fun k => byteChar (t.byte k)).takeWhile (· != NUL)

def header : Frame :=
  ![5, t.parameter.number, 0, UInt8.ofNat t.length, t.byte 0, t.byte 1, t.byte 2, t.byte 3]

/-- The continuation frame `c`, counted from 0. -/
def continuation (c : Nat) : Frame :=
  Fin.cons (UInt8.ofNat (6 + c)) fun k : Fin 7 => t.byte (4 + 7 * c + k)

/-- The number of continuation frames: the bytes after the first four, seven at a time. -/
def continuations : Nat := (t.length + 2) / 7

def frames : List Frame := t.header :: (List.range t.continuations).map t.continuation

/-- The field a string belongs in, with the string in it. -/
def put (c : ConfigStrings) : ConfigStrings :=
  let values := parts ',' t.string
  match t.parameter with
  | .versionInfo => { c with versionInfo := assignVersions values c.versionInfo }
  | .ocppUrl => { c with ocppURL := fieldText 100 t.string }
  | .pmuInitial =>
    { c with
      wifiSsid := (values[0]?).elim c.wifiSsid (fieldText 50)
      wifiPassword := (values[1]?).elim c.wifiPassword (fieldText 100) }
  | .broker => { c with mqttBroker := fieldText 100 t.string }
  | .serialNumber => { c with serialNumber2 := fieldText 26 t.string }
  | .dateTime => { c with dateTime := fieldText 25 t.string }

/-- All frames of a transmission. -/
def receive (s : Reassembly) : Option Reassembly := Runs.run handleChargerConfig t.frames s

/-- When a transmission to an idle reassembly arrives. -/
def InOrder (s : Reassembly) : Prop :=
  if t.parameter = .broker then t.length ≤ 4 else 5 ≤ t.length ∧ s.prevSequenceNo ≠ 6

end Transmission

/-- No string is on its way. -/
structure Reassembly.Idle (s : Reassembly) : Prop where
  entry : s.giveEntrytoPrint = false
  flags : ∀ flag, s.flag flag = false

/-! ### Filling the buffer -/

namespace Reassembly

/-- The buffer with the bytes from `n` to `k` in it. -/
def fill (t : Transmission) (n k : Nat) (s : Reassembly) : Reassembly :=
  { s with arr := fun j => if n ≤ j ∧ j < k then byteChar (t.byte j) else s.arr j, i := k }

variable {t : Transmission} {s : Reassembly}

theorem fill_self {n : Nat} (hi : s.i = n) : s.fill t n n = s := by
  have harr : (fun j => if n ≤ j ∧ j < n then byteChar (t.byte j) else s.arr j) = s.arr := by
    funext j
    exact if_neg (by omega)
  rw [fill, harr, ← hi]

theorem fill_fill {n m k : Nat} (hnm : n ≤ m) (hmk : m ≤ k) (s : Reassembly) :
    (s.fill t n m).fill t m k = s.fill t n k := by
  have harr : (fun j => if m ≤ j ∧ j < k then byteChar (t.byte j) else
        if n ≤ j ∧ j < m then byteChar (t.byte j) else s.arr j)
      = fun j => if n ≤ j ∧ j < k then byteChar (t.byte j) else s.arr j := by
    funext j
    by_cases hj : n ≤ j ∧ j < k
    · by_cases hm : m ≤ j ∧ j < k
      · rw [if_pos hm, if_pos hj]
      · rw [if_neg hm, if_pos (by omega), if_pos hj]
    · rw [if_neg (by omega), if_neg (by omega), if_neg hj]
  simp only [fill, harr]

theorem push_eq (b : UInt8) {s : Reassembly} (hi : s.i < 100) :
    s.push b = some { s with arr := Function.update s.arr s.i (byteChar b), i := s.i + 1 } := by
  rw [push, write, if_pos hi]
  rfl

theorem push_eq_none (b : UInt8) {s : Reassembly} (hi : ¬ s.i < 100) : s.push b = none := by
  rw [push, write, if_neg hi]
  rfl

theorem push_eq_some {b : UInt8} {s s' : Reassembly} (h : s.push b = some s') :
    s' = { s with arr := Function.update s.arr s.i (byteChar b), i := s.i + 1 } := by
  by_cases hi : s.i < 100
  · rw [push_eq b hi] at h
    exact (Option.some.inj h).symm
  · rw [push_eq_none b hi] at h
    cases h

theorem push_eq_fill {n : Nat} (hi : s.i = n) (hn : n < 100) :
    s.push (t.byte n) = some (s.fill t n (n + 1)) := by
  have harr : Function.update s.arr n (byteChar (t.byte n))
      = fun j => if n ≤ j ∧ j < n + 1 then byteChar (t.byte j) else s.arr j := by
    funext j
    by_cases hj : j = n
    · subst hj
      simp
    · rw [Function.update_of_ne hj, if_neg (by omega)]
  rw [push_eq _ (hi ▸ hn), hi, harr, fill]

theorem takeBytes_of_complete {finish : Reassembly → Option Reassembly}
    (hdone : s.i = s.stringLength.toNat) (bs : List UInt8) : takeBytes finish bs s = some s := by
  cases bs with
  | nil => rfl
  | cons b bs => rw [takeBytes, if_neg (by omega)]

/-- What each byte and the end of the string preserve, the copying loops preserve. -/
theorem takeBytes_invariant {Inv : Reassembly → Prop} {finish : Reassembly → Option Reassembly}
    (hpush : ∀ b r r', Inv r → r.i < r.stringLength.toNat → r.push b = some r' → Inv r')
    (hfinish : ∀ r r', Inv r → r.i = r.stringLength.toNat → finish r = some r' → Inv r')
    {bytes : List UInt8} {r r' : Reassembly} (hr : Inv r)
    (h : takeBytes finish bytes r = some r') : Inv r' := by
  induction bytes generalizing r with
  | nil => exact Option.some.inj h ▸ hr
  | cons b bytes ih =>
      rw [takeBytes] at h
      split at h
      · next hmore =>
          obtain ⟨r₁, hpushed, hrest⟩ := Option.bind_eq_some_iff.mp h
          obtain ⟨r₂, hfinished, hrest⟩ := Option.bind_eq_some_iff.mp hrest
          have hr₁ : Inv r₁ := hpush b r r₁ hr hmore hpushed
          refine ih ?_ hrest
          split at hfinished
          · next hlast => exact hfinish r₁ r₂ hr₁ hlast hfinished
          · exact Option.some.inj hfinished ▸ hr₁
      · exact Option.some.inj h ▸ hr

/-- What does not depend on the buffer and the index, the loops leave. -/
theorem takeBytes_observes {α : Type} (v : Reassembly → α)
    (hbuffer : ∀ r arr i, v { r with arr := arr, i := i } = v r)
    {finish : Reassembly → Option Reassembly} (hfinish : ∀ r r', finish r = some r' → v r' = v r)
    {bytes : List UInt8} {r r' : Reassembly} (h : takeBytes finish bytes r = some r') :
    v r' = v r := by
  have hpush : ∀ (b : UInt8) (q q' : Reassembly), v q = v r → q.i < q.stringLength.toNat →
      q.push b = some q' → v q' = v r := by
    intro b q q' hq _ hpush
    rw [push_eq_some hpush, hbuffer, hq]
  exact takeBytes_invariant hpush (fun q q' hq _ hq' => (hfinish q q' hq').trans hq) rfl h

theorem terminate_observes {α : Type} (v : Reassembly → α)
    (hbuffer : ∀ r arr i, v { r with arr := arr, i := i } = v r) {r r' : Reassembly}
    (h : r.terminate = some r') : v r' = v r := by
  rw [terminate, write] at h
  split at h
  · rw [← Option.some.inj h]
    exact hbuffer r _ r.i
  · cases h

/-- The loops copy the bytes up to the end of the frame or of the string, whichever comes first. -/
theorem takeBytes_eq {finish : Reassembly → Option Reassembly}
    (hfinish : ∀ s s', finish s = some s' → s'.i = s.i ∧ s'.stringLength = s.stringLength)
    (m : Nat) {s : Reassembly} {n : Nat} (hi : s.i = n) (hlength : s.stringLength.toNat = t.length)
    (hn : n < t.length) :
    takeBytes finish ((List.range' n m).map t.byte) s
      = if n + m < t.length then some (s.fill t n (n + m)) else finish (s.fill t n t.length) := by
  induction m generalizing s n with
  | zero =>
      rw [if_pos (by omega), Nat.add_zero, fill_self hi]
      rfl
  | succ m ih =>
      have hroom : n < 100 := lt_of_lt_of_le hn (le_trans t.length_mem.2 (by decide))
      have hlength' : (s.fill t n (n + 1)).stringLength.toNat = t.length := hlength
      rw [List.range'_succ, List.map_cons, takeBytes, hi, hlength, if_pos hn, push_eq_fill hi hroom,
        Option.bind_some, hlength', show (s.fill t n (n + 1)).i = n + 1 from rfl]
      by_cases hlast : n + 1 = t.length
      · rw [if_pos hlast, if_neg (by omega), ← hlast]
        cases hdone : finish (s.fill t n (n + 1)) with
        | none => rfl
        | some s' =>
            obtain ⟨hi', hlen'⟩ := hfinish _ _ hdone
            refine takeBytes_of_complete ?_ _
            rw [hi', hlen', hlength', ← hlast]
            rfl
      · have hrest := ih (s := s.fill t n (n + 1)) (n := n + 1) rfl hlength' (by omega)
        rw [if_neg hlast, Option.bind_some, hrest, fill_fill (by omega) (by omega),
          fill_fill (by omega) (by omega), show n + 1 + m = n + (m + 1) by omega]

/-- A buffer with the string in front and a NUL behind it holds the string. -/
theorem text_eq_string (hbytes : ∀ k < t.length, s.arr k = byteChar (t.byte k))
    (hend : s.arr t.length = NUL) : s.text = t.string := by
  obtain ⟨m, hm⟩ := Nat.exists_eq_add_of_le (Nat.succ_le_of_lt (Nat.lt_succ_of_le t.length_mem.2))
  have hsplit : (List.range 100).map s.arr
      = (List.range t.length).map (fun k => byteChar (t.byte k))
        ++ NUL :: (List.range m).map fun k => s.arr (t.length + (k + 1)) := by
    rw [show 100 = t.length + (m + 1) by omega, List.range_add, List.map_append, List.map_map,
      List.range_succ_eq_map, List.map_cons, List.map_map]
    congr 1
    · exact List.map_congr_left fun k hk => hbytes k (List.mem_range.mp hk)
    · congr 1
  have hnul : (NUL :: (List.range m).map fun k => s.arr (t.length + (k + 1))).takeWhile (· != NUL)
      = [] := by
    simp
  rw [text, hsplit, List.takeWhile_append, hnul, List.append_nil, Transmission.string]
  split
  · next hall =>
      exact ((List.takeWhile_prefix _).eq_of_length hall).symm
  · rfl

/-- The buffer with the whole string and its NUL. -/
def full (t : Transmission) (s : Reassembly) : Reassembly :=
  { s.fill t 0 t.length with
    arr := Function.update (s.fill t 0 t.length).arr t.length NUL }

theorem terminate_fill (t : Transmission) (s : Reassembly) :
    (s.fill t 0 t.length).terminate = some (s.full t) := by
  have hroom : t.length < 100 := Nat.lt_succ_of_le t.length_mem.2
  rw [terminate, write, show (s.fill t 0 t.length).i = t.length from rfl, if_pos hroom]
  rfl

theorem text_full (t : Transmission) (s : Reassembly) : (s.full t).text = t.string := by
  refine text_eq_string (fun k hk => ?_) (Function.update_self _ _ _)
  show Function.update _ _ _ k = _
  rw [Function.update_of_ne (by omega)]
  exact if_pos ⟨Nat.zero_le k, hk⟩

/-! ### Delivering it -/

theorem deliver_of_not {flag : StringFlag} (h : s.flag flag = false ∨ s.giveEntrytoPrint = false) :
    s.deliver flag = s := by
  rw [deliver]
  rcases h with h | h <;> simp [h]

theorem foldl_deliver_of_not (h : s.giveEntrytoPrint = false) (flags : List StringFlag) :
    flags.foldl deliver s = s := by
  induction flags with
  | nil => rfl
  | cons flag flags ih => rw [List.foldl_cons, deliver_of_not (.inr h), ih]

/-- With one flag set, the string goes to the field of that flag. -/
theorem foldl_deliver_eq {flag : StringFlag} (hentry : s.giveEntrytoPrint = true)
    (hflag : s.flag flag = true) (hother : ∀ g, g ≠ flag → s.flag g = false) :
    ∀ {flags : List StringFlag}, flag ∈ flags → flags.foldl deliver s = s.deliver flag
  | g :: flags, hmem => by
    have hdone : (s.deliver flag).giveEntrytoPrint = false := by
      simp [deliver, hentry, hflag]
    rw [List.foldl_cons]
    by_cases hg : g = flag
    · rw [hg, foldl_deliver_of_not hdone]
    · rw [deliver_of_not (.inl (hother g hg))]
      exact foldl_deliver_eq hentry hflag hother ((List.mem_cons.mp hmem).resolve_left (Ne.symm hg))

theorem deliverAll_eq {flag : StringFlag} (hentry : s.giveEntrytoPrint = true)
    (hflag : s.flag flag = true) (hother : ∀ g, g ≠ flag → s.flag g = false) :
    s.deliverAll.Idle ∧ s.deliverAll.config = flag.store s.text s.config := by
  have hall : s.deliverAll = s.deliver flag :=
    foldl_deliver_eq hentry hflag hother (by cases flag <;> decide)
  rw [hall, deliver, hflag, hentry, Bool.and_self, if_pos rfl]
  refine ⟨⟨rfl, fun g => ?_⟩, rfl⟩
  by_cases hg : g = flag
  · rw [hg]
    exact Function.update_self _ _ _
  · exact (Function.update_of_ne hg _ _).trans (hother g hg)

end Reassembly

/-! ### One transmission -/

namespace Transmission

variable (t : Transmission)

theorem toNat_ofNat_length : (UInt8.ofNat t.length).toNat = t.length := by
  have := t.length_mem
  rw [UInt8.toNat_ofNat', Nat.mod_eq_of_lt (by omega)]

theorem continuation_bytes (c : Nat) :
    [t.continuation c 1, t.continuation c 2, t.continuation c 3, t.continuation c 4,
      t.continuation c 5, t.continuation c 6, t.continuation c 7]
      = (List.range' (4 + 7 * c) 7).map t.byte := by
  rfl

theorem header_bytes :
    [t.header 4, t.header 5, t.header 6, t.header 7] = (List.range' 0 4).map t.byte := by
  rfl

theorem header_length :
    UInt8.ofNat ((t.header 2).toNat * 256 + (t.header 3).toNat) = UInt8.ofNat t.length := by
  show UInt8.ofNat (0 * 256 + (UInt8.ofNat t.length).toNat) = _
  rw [toNat_ofNat_length, Nat.zero_mul, Nat.zero_add]

/-- The flag of a string that is not copied right away. -/
def flag? : StringParameter → Option StringFlag
  | .versionInfo => some .flagVersionInfo
  | .ocppUrl => some .flagOcppUrl
  | .pmuInitial => some .flagPmuInitial
  | .broker => none
  | .serialNumber => some .flagString
  | .dateTime => some .flagDateTime

/-- The field a flag stands for is the field of its parameter. -/
theorem store_eq_put {flag : StringFlag} (hflag : flag? t.parameter = some flag)
    (c : ConfigStrings) : flag.store t.string c = t.put c := by
  have htokens : ∀ s : CStr, (strtokAll ',' [] s).1 = parts ',' s := fun s =>
    strtokAll_eq s List.not_mem_nil
  have hlength : fieldText 100 t.string = t.string := by
    rw [fieldText, List.take_of_length_le]
    exact le_trans (List.takeWhile_prefix _).length_le (by simpa using t.length_mem.2)
  rw [put]
  cases hparameter : t.parameter <;> rw [hparameter] at hflag <;> cases hflag
  case versionInfo => simp only [StringFlag.store, htokens]
  case pmuInitial => simp only [StringFlag.store, parseWiFiCredentials, hlength, htokens]
  all_goals rfl

/-- The state after the header and `c` continuation frames. -/
def collected (c : Nat) (s : Reassembly) : Reassembly :=
  { s.fill t 0 (4 + 7 * c) with
    prevSequenceNo := if c = 0 then s.prevSequenceNo else 5 + c }

/-- The state that a header starts from. -/
def begun (flag : StringFlag) (s : Reassembly) : Reassembly :=
  { s with
    flag := Function.update s.flag flag true
    stringLength := UInt8.ofNat t.length
    i := 0 }

theorem receive_header {flag : StringFlag} (hflag : flag? t.parameter = some flag)
    (hlength : 5 ≤ t.length) (s : Reassembly) :
    handleChargerConfig t.header s = some (t.collected 0 (t.begun flag s)) := by
  have hbegin : Reassembly.beginFlagged flag t.header s
      = some (t.collected 0 (t.begun flag s)) := by
    rw [Reassembly.beginFlagged, Reassembly.beginString, header_bytes, header_length,
      Reassembly.takeBytes_eq (t := t) (n := 0) ?_ 4 rfl t.toNat_ofNat_length (by omega),
      if_pos (by omega)]
    · rfl
    · intro s s' h
      rw [← Option.some.inj h]
      exact ⟨rfl, rfl⟩
  have hsequence : (t.header 0).toNat = 5 := rfl
  have hnumber : (t.header 1).toNat = t.parameter.number.toNat := rfl
  rw [← hbegin, handleChargerConfig, hsequence, hnumber]
  cases hparameter : t.parameter <;> rw [hparameter] at hflag <;> cases hflag <;> rfl

theorem toNat_continuation {c : Nat} (hc : 4 + 7 * c < t.length) :
    (t.continuation c 0).toNat = 6 + c := by
  have := t.length_mem
  show (UInt8.ofNat (6 + c)).toNat = 6 + c
  rw [UInt8.toNat_ofNat', Nat.mod_eq_of_lt (by omega)]

theorem terminate_length {s s' : Reassembly} (h : s.terminate = some s') :
    s'.i = s.i ∧ s'.stringLength = s.stringLength := by
  rw [Reassembly.terminate, Reassembly.write] at h
  split at h
  · rw [← Option.some.inj h]
    exact ⟨rfl, rfl⟩
  · cases h

theorem complete_length {s s' : Reassembly} (h : s.complete = some s') :
    s'.i = s.i ∧ s'.stringLength = s.stringLength := by
  obtain ⟨s₁, hwrite, rfl⟩ := Option.map_eq_some_iff.mp h
  have hterminated : s₁.i = s.i ∧ s₁.stringLength = s.stringLength := terminate_length hwrite
  exact hterminated

/-- The frame `c` fills the buffer further. -/
theorem receive_continuation {c : Nat} (hc : 4 + 7 * c < t.length) {s : Reassembly}
    (hlength : s.stringLength.toNat = t.length) (hprev : s.prevSequenceNo ≠ 6) :
    handleChargerConfig (t.continuation c) (t.collected c s)
      = (if 4 + 7 * (c + 1) < t.length then some (t.collected (c + 1) s)
          else (Reassembly.fill t 0 t.length { s with prevSequenceNo := 6 + c }).complete).map
            Reassembly.deliverAll := by
  have hnumber := t.toNat_continuation hc
  have hfresh : ¬ 6 + c = (t.collected c s).prevSequenceNo := by
    rw [collected]
    dsimp only
    split <;> omega
  have hfill : ∀ k, 4 + 7 * c ≤ k →
      Reassembly.fill t (4 + 7 * c) k { t.collected c s with prevSequenceNo := 6 + c }
        = Reassembly.fill t 0 k { s with prevSequenceNo := 6 + c } := by
    intro k hk
    have hboth := Reassembly.fill_fill (t := t) (Nat.zero_le (4 + 7 * c)) hk s
    exact congrArg (fun r : Reassembly => { r with prevSequenceNo := 6 + c }) hboth
  have hlengths : ∀ s s' : Reassembly, s.complete = some s' →
      s'.i = s.i ∧ s'.stringLength = s.stringLength := fun _ _ => complete_length
  have htake := Reassembly.takeBytes_eq (t := t) hlengths 7 (s := { t.collected c s with prevSequenceNo := 6 + c })
    (n := 4 + 7 * c) rfl hlength hc
  rw [hfill _ (by omega), hfill _ (by omega)] at htake
  rw [handleChargerConfig, hnumber, if_pos (by omega), Reassembly.continueString, hnumber,
    if_neg hfresh, continuation_bytes, htake]
  have hnext : Reassembly.fill t 0 (4 + 7 * c + 7) { s with prevSequenceNo := 6 + c }
      = t.collected (c + 1) s := by
    rw [collected, if_neg (Nat.succ_ne_zero c), show 5 + (c + 1) = 6 + c by omega]
    rfl
  rw [hnext]
  rfl

/-- Before the last frame nothing is delivered. -/
theorem receive_middle {s : Reassembly} (hlength : s.stringLength.toNat = t.length)
    (hentry : s.giveEntrytoPrint = false) (hprev : s.prevSequenceNo ≠ 6) (c : Nat)
    (hc : 4 + 7 * c < t.length) :
    Runs.run handleChargerConfig ((List.range c).map t.continuation) (t.collected 0 s)
      = some (t.collected c s) := by
  induction c with
  | zero => rfl
  | succ c ih =>
      have hnone : (t.collected (c + 1) s).giveEntrytoPrint = false := hentry
      rw [List.range_succ, List.map_append, Runs.run_append, ih (by omega), Option.bind_some,
        List.map_singleton, Runs.run_cons, receive_continuation t (by omega) hlength hprev,
        if_pos (by omega), Option.map_some, Option.bind_some, Runs.run_nil, Reassembly.deliverAll,
        Reassembly.foldl_deliver_of_not hnone]

/-- The state in which the last frame, with the number `6 + c`, leaves the string to be delivered. -/
def received (c : Nat) (flag : StringFlag) (s : Reassembly) : Reassembly :=
  { Reassembly.full t { t.begun flag s with prevSequenceNo := 6 + c } with giveEntrytoPrint := true }

theorem received_text (c : Nat) (flag : StringFlag) (s : Reassembly) :
    (t.received c flag s).text = t.string :=
  Reassembly.text_full t { t.begun flag s with prevSequenceNo := 6 + c }

theorem received_flag (c : Nat) (flag : StringFlag) (s : Reassembly) :
    (t.received c flag s).flag = Function.update s.flag flag true := rfl

/-- A string with continuation frames is delivered with the last of them. -/
theorem receive_eq {s : Reassembly} {flag : StringFlag} (hflag : flag? t.parameter = some flag)
    (hlength : 5 ≤ t.length) (hentry : s.giveEntrytoPrint = false) (hprev : s.prevSequenceNo ≠ 6) :
    ∃ c, t.receive s = some (t.received c flag s).deliverAll := by
  obtain ⟨c, hcount⟩ : ∃ c, t.continuations = c + 1 := by
    refine Nat.exists_eq_succ_of_ne_zero ?_
    rw [continuations]
    omega
  have hbounds : 4 + 7 * c < t.length ∧ ¬ 4 + 7 * (c + 1) < t.length := by
    rw [continuations] at hcount
    omega
  have hcomplete :
      (Reassembly.fill t 0 t.length { t.begun flag s with prevSequenceNo := 6 + c }).complete
        = some (t.received c flag s) := by
    rw [Reassembly.complete, Reassembly.terminate_fill]
    rfl
  refine ⟨c, ?_⟩
  rw [receive, frames, hcount, List.range_succ, List.map_append, Runs.run_cons,
    receive_header t hflag hlength, Option.bind_some, Runs.run_append,
    receive_middle t (s := t.begun flag s) t.toNat_ofNat_length hentry hprev c hbounds.1,
    Option.bind_some, List.map_singleton, Runs.run_cons,
    receive_continuation t hbounds.1 (s := t.begun flag s) t.toNat_ofNat_length hprev,
    if_neg hbounds.2, hcomplete, Option.map_some]
  rfl

/-- It arrives as it was sent. -/
theorem receive_flagged {s : Reassembly} {flag : StringFlag} (hidle : s.Idle)
    (hflag : flag? t.parameter = some flag) (hlength : 5 ≤ t.length) (hprev : s.prevSequenceNo ≠ 6) :
    ∃ s', t.receive s = some s' ∧ s'.Idle ∧ s'.config = t.put s.config := by
  obtain ⟨c, hreceive⟩ := t.receive_eq hflag hlength hidle.entry hprev
  have hset : (t.received c flag s).flag flag = true := Function.update_self _ _ _
  have hother : ∀ g, g ≠ flag → (t.received c flag s).flag g = false := by
    intro g hg
    rw [received_flag, Function.update_of_ne hg]
    exact hidle.flags g
  obtain ⟨hidle', hconfig⟩ := Reassembly.deliverAll_eq rfl hset hother
  refine ⟨_, hreceive, hidle', ?_⟩
  rw [hconfig, received_text, store_eq_put t hflag]
  rfl

/-- A broker that fits its header is copied right away. -/
theorem receive_broker {s : Reassembly} (hidle : s.Idle) (hparameter : t.parameter = .broker)
    (hlength : t.length ≤ 4) :
    ∃ s', t.receive s = some s' ∧ s'.Idle ∧ s'.config = t.put s.config := by
  have hpos := t.length_mem.1
  obtain ⟨begun, hbegun⟩ : ∃ begun : Reassembly, begun =
      { s with stringLength := UInt8.ofNat t.length, i := 0 } := ⟨_, rfl⟩
  have hbegin : Reassembly.beginString Reassembly.terminate t.header s = some (begun.full t) := by
    have htoNat : begun.stringLength.toNat = t.length := by
      rw [hbegun]
      exact t.toNat_ofNat_length
    have hstart : begun.i = 0 := by rw [hbegun]
    rw [Reassembly.beginString, header_bytes, header_length, ← hbegun,
      Reassembly.takeBytes_eq (t := t) (fun _ _ => terminate_length) 4 hstart htoNat (by omega),
      if_neg (by omega), Reassembly.terminate_fill]
  have hsequence : (t.header 0).toNat = 5 := rfl
  have hnumber : (t.header 1).toNat = 7 := by
    show t.parameter.number.toNat = 7
    rw [hparameter]
    rfl
  have hheader : handleChargerConfig t.header s = some { begun.full t with
      config := { begun.config with mqttBroker := fieldText 100 t.string } } := by
    rw [handleChargerConfig, hsequence, hnumber, ← Reassembly.text_full t begun]
    show Option.map _ (Reassembly.beginString Reassembly.terminate t.header s) = _
    rw [hbegin]
    rfl
  have hnone : t.continuations = 0 := by
    rw [continuations]
    omega
  refine ⟨{ begun.full t with
    config := { begun.config with mqttBroker := fieldText 100 t.string } }, ?_, ⟨?_, ?_⟩, ?_⟩
  · rw [receive, frames, hnone, Runs.run_cons, hheader]
    rfl
  · show begun.giveEntrytoPrint = false
    rw [hbegun]
    exact hidle.entry
  · show ∀ flag, begun.flag flag = false
    rw [hbegun]
    exact hidle.flags
  · rw [put, hparameter, hbegun]

/-- A transmission in order puts its string into its field and changes no other one. -/
theorem receive_inOrder {s : Reassembly} (hidle : s.Idle) (horder : t.InOrder s) :
    ∃ s', t.receive s = some s' ∧ s'.Idle ∧ s'.config = t.put s.config := by
  rw [InOrder] at horder
  split at horder
  · next hbroker => exact t.receive_broker hidle hbroker horder
  · next hbroker =>
      obtain ⟨flag, hflag⟩ : ∃ flag, flag? t.parameter = some flag := by
        cases hparameter : t.parameter
        case broker => exact (hbroker hparameter).elim
        all_goals exact ⟨_, rfl⟩
      exact t.receive_flagged hidle hflag horder.1 horder.2

end Transmission

/-! ### A run of transmissions -/

theorem powerOn_idle (config : ConfigStrings) : (Reassembly.powerOn config).Idle :=
  ⟨rfl, fun _ => rfl⟩

/-- After every transmission of a run in which all are in order, the string is in its field and the
other fields are what they were before it. -/
theorem strings_arrive (config : ConfigStrings) {sent : List Transmission} {t : Transmission}
    (horder : Runs.Meets Transmission.receive Transmission.InOrder (sent ++ [t])
      (Reassembly.powerOn config)) :
    ∃ s s', Runs.run Transmission.receive sent (Reassembly.powerOn config) = some s
      ∧ t.receive s = some s' ∧ s'.config = t.put s.config := by
  obtain ⟨hsent, hlast⟩ := Runs.meets_append.mp horder
  obtain ⟨s, hrun, hidle⟩ := Runs.run_total
    (fun t s hidle horder => by
      obtain ⟨s', hreceive, hidle', -⟩ := t.receive_inOrder hidle horder
      exact ⟨s', hreceive, hidle'⟩) (powerOn_idle config) hsent
  obtain ⟨s', hreceive, -, hconfig⟩ := t.receive_inOrder hidle (hlast s hrun).1
  exact ⟨s, s', hrun, hreceive, hconfig⟩

/-! ### Two strings -/

def noStrings : ConfigStrings := ⟨⟨[], [], [], fun _ => [], []⟩, [], [], [], [], [], []⟩

/-- The text `AAA...` of the given length. -/
def sampleString (parameter : StringParameter) (length : Nat) (h : 1 ≤ length ∧ length ≤ 99) :
    Transmission := ⟨parameter, length, fun _ => 65, h⟩

theorem url_after_ssid : ∃ s s',
    Runs.run Transmission.receive [sampleString .pmuInitial 30 (by decide)]
        (Reassembly.powerOn noStrings) = some s
      ∧ (sampleString .ocppUrl 12 (by decide)).receive s = some s'
      ∧ s'.config = (sampleString .ocppUrl 12 (by decide)).put s.config := by
  refine strings_arrive noStrings ?_
  refine ⟨⟨by decide, by decide⟩, fun s hs => ⟨⟨by decide, ?_⟩, fun _ _ => trivial⟩⟩
  have hprev : ((sampleString .pmuInitial 30 (by decide)).receive
      (Reassembly.powerOn noStrings)).map Reassembly.prevSequenceNo = some 9 := by
    decide +kernel
  rw [hs] at hprev
  rw [Option.some.inj hprev]
  decide

/-- A string that ends in its header is not delivered. -/
theorem short_url_is_lost : ∃ s,
    (sampleString .ocppUrl 4 (by decide)).receive (Reassembly.powerOn noStrings) = some s
      ∧ s.config.ocppURL ≠ ((sampleString .ocppUrl 4 (by decide)).put noStrings).ocppURL :=
  ⟨_, rfl, by decide +kernel⟩

end Pmu
