import PmuFirmware.Can.StringBounds

/-!
# The versions on the bus

The five versions are sent as one string with commas between them. The string is taken apart when
its last byte arrives in a continuation frame. Of one with 100 bytes or more the last ones are written
past the buffer. When the last string has ended with frame 6, frame 6 is taken for a repetition of it:
seven bytes are missing, so the string is never complete.
-/

namespace Pmu

open CLib Reassembly

/-! ### What is sent -/

/-- Five versions, in bytes that are neither zero nor a comma, and what fills up the last frame. -/
structure SentVersions where
  version : Fin 5 → List UInt8
  clean : ∀ i, ∀ b ∈ version i, b ≠ 0 ∧ b ≠ 44
  padding : Nat → UInt8

namespace SentVersions

variable (v : SentVersions)

def text (i : Fin 5) : CStr := (v.version i).map byteChar

/-- `hmi,lcu,mcu,evse1,evse2` -/
def bytes : List UInt8 := [44].intercalate (List.ofFn v.version)

def byte (k : Nat) : UInt8 := (v.bytes[k]?).getD (v.padding k)

def header : Frame :=
  ![5, 4, UInt8.ofNat (v.bytes.length / 256), UInt8.ofNat v.bytes.length, v.byte 0, v.byte 1,
    v.byte 2, v.byte 3]

/-- The continuation frame `c`, counted from 0. -/
def continuation (c : Nat) : Frame :=
  Fin.cons (UInt8.ofNat (6 + c)) fun k : Fin 7 => v.byte (4 + 7 * c + k)

def continuations : Nat := (v.bytes.length + 2) / 7

def frames : List Frame := v.header :: (List.range v.continuations).map v.continuation

theorem bytes_eq : v.bytes = v.version 0 ++ 44 :: (v.version 1 ++ 44 :: (v.version 2
    ++ 44 :: (v.version 3 ++ 44 :: v.version 4))) := by
  simp [bytes, List.ofFn_succ, List.intercalate]

theorem length_bytes : v.bytes.length = (v.version 0).length + (v.version 1).length
    + (v.version 2).length + (v.version 3).length + (v.version 4).length + 4 := by
  rw [bytes_eq]
  simp only [List.length_append, List.length_cons]
  omega

theorem le_length_bytes : 4 ≤ v.bytes.length := by
  rw [length_bytes]
  omega

theorem length_version_le (i : Fin 5) : (v.version i).length + 4 ≤ v.bytes.length := by
  rw [length_bytes]
  match i with
  | 0 => omega
  | 1 => omega
  | 2 => omega
  | 3 => omega
  | 4 => omega

theorem length_bytes_le (hfits : ∀ i, (v.version i).length ≤ 44) : v.bytes.length ≤ 224 := by
  have h0 := hfits 0
  have h1 := hfits 1
  have h2 := hfits 2
  have h3 := hfits 3
  have h4 := hfits 4
  rw [length_bytes]
  omega

theorem map_bytes : v.bytes.map byteChar = [','].intercalate (List.ofFn v.text) := by
  have hcomma : byteChar 44 = ',' := rfl
  rw [bytes_eq]
  simp [List.ofFn_succ, List.intercalate, text, hcomma]

/-- A string that fits the buffer is a transmission. -/
def transmission (hlength : v.bytes.length ≤ 99) : Transmission where
  parameter := .versionInfo
  length := v.bytes.length
  byte := v.byte
  length_mem := ⟨le_trans (by decide) v.le_length_bytes, hlength⟩

theorem transmission_frames (hlength : v.bytes.length ≤ 99) :
    (v.transmission hlength).frames = v.frames := by
  have hhigh : v.bytes.length / 256 = 0 := Nat.div_eq_of_lt (by omega)
  rw [frames, header, hhigh]
  rfl

end SentVersions

/-! ### In the middle of a string -/

namespace Reassembly

/-- Of a string of `total` bytes `taken` have been taken, and the last frame was `number`. -/
structure Middle (total taken number : Nat) (strings : ConfigStrings) (s : Reassembly) : Prop where
  length : s.stringLength.toNat = total
  index : s.i = taken
  prev : s.prevSequenceNo = number
  entry : s.giveEntrytoPrint = false
  config : s.config = strings

/-- Where the string goes on behind the frame, it does not matter how it would end. -/
theorem takeBytes_unfinished (finish : Reassembly → Option Reassembly) {bytes : List UInt8}
    {s : Reassembly} (hmore : s.i + bytes.length < s.stringLength.toNat) :
    takeBytes finish bytes s = takeBytes some bytes s := by
  induction bytes generalizing s with
  | nil => rfl
  | cons b bytes ih =>
      rw [List.length_cons] at hmore
      rw [takeBytes, takeBytes, if_pos (by omega), if_pos (by omega)]
      cases hpush : s.push b with
      | none => rfl
      | some s₁ =>
          have hs₁ := push_eq_some hpush
          have hi : s₁.i = s.i + 1 := by rw [hs₁]
          have hlength : s₁.stringLength = s.stringLength := by rw [hs₁]
          have hunfinished : ¬ s₁.i = s₁.stringLength.toNat := by
            rw [hi, hlength]
            omega
          rw [Option.bind_some, Option.bind_some, if_neg hunfinished, if_neg hunfinished,
            Option.bind_some, Option.bind_some]
          exact ih (by rw [hi, hlength]; omega)

/-- Bytes that end nothing change the buffer only. -/
theorem takeBytes_leaves {bytes : List UInt8} {r r' : Reassembly}
    (h : takeBytes some bytes r = some r') : r'.prevSequenceNo = r.prevSequenceNo
      ∧ r'.giveEntrytoPrint = r.giveEntrytoPrint ∧ r'.config = r.config := by
  refine ⟨takeBytes_observes prevSequenceNo (fun _ _ _ => rfl) ?_ h,
    takeBytes_observes giveEntrytoPrint (fun _ _ _ => rfl) ?_ h,
    takeBytes_observes config (fun _ _ _ => rfl) ?_ h⟩
  · exact fun _ _ hsome => Option.some.inj hsome ▸ rfl
  · exact fun _ _ hsome => Option.some.inj hsome ▸ rfl
  · exact fun _ _ hsome => Option.some.inj hsome ▸ rfl

variable {total taken number : Nat} {strings : ConfigStrings} {s : Reassembly}

theorem Middle.next (h : s.Middle total taken number strings) (data : Frame)
    (hstring : 5 < (data 0).toNat) (hnew : (data 0).toNat ≠ number) (hmore : taken + 7 < total)
    (hroom : taken + 7 < 100) :
    ∃ s', handleChargerConfig data s = some s'
      ∧ s'.Middle total (taken + 7) (data 0).toNat strings := by
  have hlength := h.length
  have hindex := h.index
  obtain ⟨s₁, htake, hlength₁, hi₁, -⟩ := takeBytes_bounds ends_some
    [data 1, data 2, data 3, data 4, data 5, data 6, data 7]
    (s := { s with prevSequenceNo := (data 0).toNat }) (show s.i ≤ s.stringLength.toNat by omega)
    (show min (s.i + 7) s.stringLength.toNat < 100 by omega)
  obtain ⟨hprev, hentry, hconfig⟩ := takeBytes_leaves htake
  have hentry : s₁.giveEntrytoPrint = false := hentry.trans h.entry
  refine ⟨s₁, ?_, ?_, ?_, hprev, hentry, hconfig.trans h.config⟩
  · have hunfinished : s.i + 7 < s.stringLength.toNat := by omega
    rw [handleChargerConfig_continuation hstring (by rw [h.prev]; exact hnew),
      takeBytes_unfinished complete hunfinished, htake, Option.map_some, deliverAll,
      foldl_deliver_of_not hentry]
  · rw [hlength₁]
    exact hlength
  · rw [hi₁]
    show min (s.i + 7) s.stringLength.toNat = taken + 7
    omega

theorem Middle.repeated (h : s.Middle total taken number strings) (data : Frame)
    (hstring : 5 < (data 0).toNat) (hold : (data 0).toNat = number) :
    handleChargerConfig data s = some s := by
  rw [handleChargerConfig, if_pos hstring, continueString, h.prev, if_pos hold]

/-- The frame that reaches byte 100 is written past the buffer. -/
theorem Middle.overrun (h : s.Middle total taken number strings) (data : Frame)
    (hstring : 5 < (data 0).toNat) (hnew : (data 0).toNat ≠ number)
    (htaken : 93 < taken ∧ taken < 100) (htotal : 100 ≤ total) :
    handleChargerConfig data s = none := by
  have hlength := h.length
  have hindex := h.index
  rw [handleChargerConfig_continuation hstring (by rw [h.prev]; exact hnew),
    takeBytes_overrun complete_full]
  · rfl
  · show s.i ≤ 100
    omega
  · show s.i < s.stringLength.toNat
    omega
  · show 100 < s.i + 7
    omega
  · show 100 ≤ s.stringLength.toNat
    omega

end Reassembly

/-! ### The frames of the versions -/

namespace SentVersions

variable {v : SentVersions} {strings : ConfigStrings} {s : Reassembly} {total number a : Nat}

theorem toNat_continuation {c : Nat} (hc : c < 250) : (v.continuation c 0).toNat = 6 + c := by
  show (UInt8.ofNat (6 + c)).toNat = 6 + c
  rw [UInt8.toNat_ofNat', Nat.mod_eq_of_lt (by omega)]

/-- The header brings four bytes. -/
theorem receive_header (hlength : v.bytes.length < 256) (hentry : s.giveEntrytoPrint = false) :
    ∃ s', handleChargerConfig v.header s = some s'
      ∧ s'.Middle v.bytes.length 4 s.prevSequenceNo s.config := by
  have hfour := v.le_length_bytes
  have htotal : (UInt8.ofNat v.bytes.length).toNat = v.bytes.length := by
    rw [UInt8.toNat_ofNat', Nat.mod_eq_of_lt (by omega)]
  have hannounced : UInt8.ofNat ((v.header 2).toNat * 256 + (v.header 3).toNat)
      = UInt8.ofNat v.bytes.length := by
    show UInt8.ofNat ((UInt8.ofNat (v.bytes.length / 256)).toNat * 256
      + (UInt8.ofNat v.bytes.length).toNat) = _
    rw [Nat.div_eq_of_lt hlength, htotal]
    exact congrArg UInt8.ofNat (Nat.zero_add _)
  obtain ⟨s', hbegin, hlength', hi', -⟩ := beginString_bounds ends_some v.header
    { s with flag := Function.update s.flag .flagVersionInfo true }
  rw [hannounced] at hlength'
  have hstep : handleChargerConfig v.header s = some s' := hbegin
  obtain ⟨hprev, hleft, hconfig⟩ := takeBytes_leaves hbegin
  refine ⟨s', hstep, by rw [hlength', htotal], ?_, hprev, hleft.trans hentry, hconfig⟩
  rw [hi', hlength', htotal]
  omega

/-- Continuation frames in a row, as long as the string goes on behind them. -/
theorem receive_middle (h : s.Middle total 4 number strings) (hnew : number ≠ 6 + a) {c : Nat}
    (ha : a ≤ 1) (hmore : 4 + 7 * c < total) (hroom : 4 + 7 * c < 100) :
    ∃ s' number', Runs.run handleChargerConfig ((List.range' a c).map v.continuation) s = some s'
      ∧ s'.Middle total (4 + 7 * c) number' strings ∧ number' ≠ 6 + (a + c) := by
  induction c with
  | zero => exact ⟨s, number, rfl, h, hnew⟩
  | succ c ih =>
      obtain ⟨s₁, number₁, hrun, hmiddle, hfresh⟩ := ih (by omega) (by omega)
      have hnumber : (v.continuation (a + c) 0).toNat = 6 + (a + c) := toNat_continuation (by omega)
      obtain ⟨s₂, hstep, hmiddle₂⟩ := hmiddle.next (v.continuation (a + c))
        (by omega) (by omega) (by omega) (by omega)
      refine ⟨s₂, (v.continuation (a + c) 0).toNat, ?_, hmiddle₂, by omega⟩
      rw [List.range'_1_concat, List.map_append, Runs.run_append, hrun, Option.bind_some,
        List.map_singleton, Runs.run_cons, hstep]
      rfl

/-- Fourteen of them are too many for a string of 100 bytes. -/
theorem receive_overrun (h : s.Middle total 4 number strings) (hnew : number ≠ 6 + a) {c : Nat}
    (ha : a ≤ 1) (htotal : 100 ≤ total) (hc : 14 ≤ c) :
    Runs.run handleChargerConfig ((List.range' a c).map v.continuation) s = none := by
  obtain ⟨rest, rfl⟩ := Nat.exists_eq_add_of_le hc
  obtain ⟨s', number', hrun, hmiddle, hfresh⟩ := receive_middle (v := v) h hnew (c := 13) ha
    (by omega) (by omega)
  have hnumber : (v.continuation (a + 13) 0).toNat = 6 + (a + 13) := toNat_continuation (by omega)
  have hover := hmiddle.overrun (v.continuation (a + 13)) (by omega) (by omega) (by omega)
    htotal
  have hsplit : List.range' a (14 + rest)
      = List.range' a 13 ++ (a + 13) :: List.range' (a + 13 + 1) rest := by
    rw [← List.range'_succ, List.range'_append_1]
    congr 1
    omega
  rw [hsplit, List.map_append, Runs.run_append, hrun, Option.bind_some, List.map_cons, Runs.run_cons,
    hover, Option.bind_none]

/-! ### The whole string -/

/-- A string that is taken for a repetition leaves the fields, unless it is written past the buffer. -/
theorem receive_lost (hlength : v.bytes.length < 256) (hentry : s.giveEntrytoPrint = false)
    (hprev : s.prevSequenceNo = 6) :
    if v.bytes.length ≤ 102 then
      ∃ s', Runs.run handleChargerConfig v.frames s = some s' ∧ s'.config = s.config
    else Runs.run handleChargerConfig v.frames s = none := by
  obtain ⟨s₁, hheader, hmiddle⟩ := receive_header hlength hentry
  rw [hprev] at hmiddle
  have hfour := v.le_length_bytes
  rw [frames, Runs.run_cons, hheader, Option.bind_some, List.range_eq_range']
  cases hcount : v.continuations with
  | zero =>
      rw [continuations] at hcount
      rw [if_pos (by omega)]
      exact ⟨s₁, rfl, hmiddle.config⟩
  | succ c =>
      rw [continuations] at hcount
      have hzero : (v.continuation 0 0).toNat = 6 := toNat_continuation (by decide)
      have hdropped := hmiddle.repeated (v.continuation 0) (by omega) hzero
      rw [List.range'_succ, List.map_cons, Runs.run_cons, hdropped, Option.bind_some]
      split
      · next hshort =>
          obtain ⟨s', number', hrun, hmiddle', -⟩ := receive_middle (v := v) (a := 1) (c := c) hmiddle
            (by decide) le_rfl (by omega) (by omega)
          exact ⟨s', hrun, hmiddle'.config⟩
      · next hlong =>
          exact receive_overrun hmiddle (by decide) le_rfl (by omega) (by omega)

/-- A string of 100 bytes or more is written past the buffer. -/
theorem receive_too_long (hlength : v.bytes.length < 256) (hlong : 100 ≤ v.bytes.length)
    (hentry : s.giveEntrytoPrint = false) (hprev : s.prevSequenceNo ≠ 6) :
    Runs.run handleChargerConfig v.frames s = none := by
  obtain ⟨s₁, hheader, hmiddle⟩ := receive_header hlength hentry
  rw [frames, Runs.run_cons, hheader, Option.bind_some, List.range_eq_range']
  refine receive_overrun hmiddle hprev (Nat.zero_le 1) hlong ?_
  rw [continuations]
  omega

end SentVersions

/-! ### One that fits -/

theorem Reassembly.deliverAll_versions {s : Reassembly} (hentry : s.giveEntrytoPrint = true)
    (hflag : s.flag .flagVersionInfo = true) :
    s.deliverAll.config = StringFlag.flagVersionInfo.store s.text s.config := by
  have hdone : (s.deliver .flagVersionInfo).giveEntrytoPrint = false := by
    simp [deliver, hentry, hflag]
  rw [deliverAll, List.foldl_cons, foldl_deliver_of_not hdone, deliver, hflag, hentry]
  rfl

/-- The versions come first among the strings that wait, so the flags of others do not matter. -/
theorem Transmission.receive_versions (t : Transmission) {s : Reassembly}
    (hparameter : t.parameter = .versionInfo) (hlength : 5 ≤ t.length)
    (hentry : s.giveEntrytoPrint = false) (hprev : s.prevSequenceNo ≠ 6) :
    ∃ s', t.receive s = some s' ∧ s'.config = t.put s.config := by
  have hflag : flag? t.parameter = some .flagVersionInfo := by rw [hparameter]; rfl
  obtain ⟨c, hreceive⟩ := t.receive_eq hflag hlength hentry hprev
  have hset : (t.received c .flagVersionInfo s).flag .flagVersionInfo = true := rfl
  refine ⟨_, hreceive, ?_⟩
  rw [Reassembly.deliverAll_versions rfl hset, received_text, store_eq_put t hflag]
  rfl

end Pmu
