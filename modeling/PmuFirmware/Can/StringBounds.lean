import PmuFirmware.Can.Transmission

/-!
# The bounds of the reassembly buffer

The charger announces the length of a string in 16 bits, of which `stringLength` keeps eight, and the
buffer has 100 bytes. The index moves on by seven with every continuation frame until it reaches the
length. It stays inside when it would not come to 100 with the next frame; a longer string is written
past the end as soon as it has sent so much.

The last byte of the buffer is then always zero, so that splitting the versions in place ends there.
-/

namespace Pmu

open CLib

namespace Reassembly

/-! ### The copying loops -/

/-- What ends a copying loop writes at the index, if at all, and only a zero. -/
structure Ends (finish : Reassembly → Option Reassembly) : Prop where
  index : ∀ s s', finish s = some s' → s'.i = s.i ∧ s'.stringLength = s.stringLength
  zero : ∀ s s', finish s = some s' → s.arr 99 = NUL → s'.arr 99 = NUL
  fits : ∀ s, s.i < 100 → ∃ s', finish s = some s'

theorem ends_some : Ends some where
  index _ _ h := Option.some.inj h ▸ ⟨rfl, rfl⟩
  zero _ _ h hzero := Option.some.inj h ▸ hzero
  fits s _ := ⟨s, rfl⟩

theorem ends_terminate : Ends terminate where
  index _ _ h := Transmission.terminate_length h
  zero s s' h hzero := by
    rw [terminate, write] at h
    split at h
    · rw [← Option.some.inj h]
      by_cases hi : 99 = s.i
      · rw [hi]
        exact Function.update_self _ _ _
      · exact (Function.update_of_ne hi _ _).trans hzero
    · cases h
  fits s hi := ⟨_, if_pos hi⟩

theorem ends_complete : Ends complete where
  index _ _ h := Transmission.complete_length h
  zero s s' h hzero := by
    obtain ⟨s₁, hterminate, rfl⟩ := Option.map_eq_some_iff.mp h
    have hzero₁ : s₁.arr 99 = NUL := ends_terminate.zero s s₁ hterminate hzero
    exact hzero₁
  fits s hi := by
    obtain ⟨s₁, hterminate⟩ := ends_terminate.fits s hi
    exact ⟨_, Option.map_eq_some_iff.mpr ⟨s₁, hterminate, rfl⟩⟩

/-- The index moves on by the bytes of the frame, up to the end of the string. If it stays below 100
then all writes do, and the last byte of the buffer is left alone. -/
theorem takeBytes_bounds {finish : Reassembly → Option Reassembly} (hends : Ends finish)
    (bytes : List UInt8) {s : Reassembly} (hi : s.i ≤ s.stringLength.toNat)
    (hroom : min (s.i + bytes.length) s.stringLength.toNat < 100) :
    ∃ s', takeBytes finish bytes s = some s' ∧ s'.stringLength = s.stringLength
      ∧ s'.i = min (s.i + bytes.length) s.stringLength.toNat
      ∧ (s.arr 99 = NUL → s'.arr 99 = NUL) := by
  induction bytes generalizing s with
  | nil => exact ⟨s, rfl, rfl, (min_eq_left hi).symm, id⟩
  | cons b bytes ih =>
      rw [List.length_cons] at hroom ⊢
      by_cases hmore : s.i < s.stringLength.toNat
      · obtain ⟨s₁, hs₁⟩ : ∃ s₁ : Reassembly, s₁ =
            { s with arr := Function.update s.arr s.i (byteChar b), i := s.i + 1 } := ⟨_, rfl⟩
        have hi₁ : s₁.i = s.i + 1 := by rw [hs₁]
        have hlength₁ : s₁.stringLength = s.stringLength := by rw [hs₁]
        have hzero₁ : s.arr 99 = NUL → s₁.arr 99 = NUL := by
          intro hzero
          rw [hs₁]
          exact (Function.update_of_ne (by omega) _ _).trans hzero
        have hend : ∃ s₂, (if s₁.i = s₁.stringLength.toNat then finish s₁ else some s₁) = some s₂
            ∧ s₂.i = s₁.i ∧ s₂.stringLength = s₁.stringLength
            ∧ (s₁.arr 99 = NUL → s₂.arr 99 = NUL) := by
          split
          · obtain ⟨s₂, hfinish⟩ := hends.fits s₁ (by omega)
            obtain ⟨hi₂, hlength₂⟩ := hends.index s₁ s₂ hfinish
            exact ⟨s₂, hfinish, hi₂, hlength₂, hends.zero s₁ s₂ hfinish⟩
          · exact ⟨s₁, rfl, rfl, rfl, id⟩
        obtain ⟨s₂, hfinish, hi₂, hlength₂, hzero₂⟩ := hend
        have hlength : s₂.stringLength = s.stringLength := hlength₂.trans hlength₁
        have hsame : s₂.stringLength.toNat = s.stringLength.toNat := by rw [hlength]
        obtain ⟨s', hrest, hlength', hi', hzero'⟩ := ih (s := s₂) (by omega) (by omega)
        refine ⟨s', ?_, hlength'.trans hlength, by omega, fun hzero => hzero' (hzero₂ (hzero₁ hzero))⟩
        rw [takeBytes, if_pos hmore, push_eq b (by omega), Option.bind_some, ← hs₁, hfinish,
          Option.bind_some, hrest]
      · refine ⟨s, ?_, rfl, by omega, id⟩
        rw [takeBytes, if_neg hmore]

/-- A string that goes on past the end of the buffer is written there. -/
theorem takeBytes_overrun {finish : Reassembly → Option Reassembly}
    (hfull : ∀ s, s.i = 100 → finish s = none) {bytes : List UInt8} {s : Reassembly}
    (hi : s.i ≤ 100) (hmore : s.i < s.stringLength.toNat) (hbytes : 100 < s.i + bytes.length)
    (hlength : 100 ≤ s.stringLength.toNat) : takeBytes finish bytes s = none := by
  induction bytes generalizing s with
  | nil => exact absurd hbytes (by rw [List.length_nil]; omega)
  | cons b bytes ih =>
      rw [List.length_cons] at hbytes
      rw [takeBytes, if_pos hmore]
      by_cases hlast : s.i < 100
      · rw [push_eq b hlast, Option.bind_some]
        by_cases hdone : s.i + 1 = s.stringLength.toNat
        · rw [if_pos hdone, hfull _ (show s.i + 1 = 100 by omega)]
          rfl
        · rw [if_neg hdone, Option.bind_some]
          refine ih ?_ ?_ ?_ hlength
          · exact hlast
          · show s.i + 1 < s.stringLength.toNat
            omega
          · show 100 < s.i + 1 + bytes.length
            omega
      · rw [push_eq_none b hlast]
        rfl

theorem complete_full (s : Reassembly) (hi : s.i = 100) : s.complete = none := by
  rw [complete, terminate, write, if_neg (by omega)]
  rfl

/-! ### Delivering -/

theorem length_text_le {s : Reassembly} (hzero : s.arr 99 = NUL) : s.text.length ≤ 99 := by
  by_contra hlong
  have hall : s.text = (List.range 100).map s.arr := by
    refine (List.takeWhile_prefix _).eq_of_length_le ?_
    rw [List.length_map, List.length_range]
    exact Nat.succ_le_of_lt (Nat.lt_of_not_le hlong)
  have hmem : NUL ∈ s.text := by
    rw [hall, ← hzero]
    exact List.mem_map_of_mem (List.mem_range.mpr (by decide))
  exact absurd (List.mem_takeWhile_imp hmem) (by simp)

theorem deliver_bounds (s : Reassembly) (flag : StringFlag) :
    (s.deliver flag).i = s.i ∧ (s.deliver flag).stringLength = s.stringLength
      ∧ (s.arr 99 = NUL → (s.deliver flag).arr 99 = NUL) := by
  rw [deliver]
  split
  · refine ⟨rfl, rfl, fun hzero => ?_⟩
    by_cases hversions : flag = .flagVersionInfo
    · have hlength : (strtokAll ',' [] s.text).2.length ≤ 99 := by
        rw [length_strtokAll]
        exact length_text_le hzero
      show (if flag = .flagVersionInfo then
        fun k => (strtokAll ',' [] s.text).2.getD k (s.arr k) else s.arr) 99 = NUL
      rw [if_pos hversions, List.getD_eq_default _ _ hlength, hzero]
    · show (if flag = .flagVersionInfo then
        fun k => (strtokAll ',' [] s.text).2.getD k (s.arr k) else s.arr) 99 = NUL
      rw [if_neg hversions, hzero]
  · exact ⟨rfl, rfl, id⟩

theorem deliverAll_bounds (s : Reassembly) :
    s.deliverAll.i = s.i ∧ s.deliverAll.stringLength = s.stringLength
      ∧ (s.arr 99 = NUL → s.deliverAll.arr 99 = NUL) := by
  rw [deliverAll]
  induction [StringFlag.flagVersionInfo, .flagOcppUrl, .flagPmuInitial, .flagString,
    .flagDateTime] using List.reverseRecOn with
  | nil => exact ⟨rfl, rfl, id⟩
  | append_singleton flags flag ih =>
      rw [List.foldl_append, List.foldl_cons, List.foldl_nil]
      obtain ⟨hi, hlength, hzero⟩ := deliver_bounds (flags.foldl deliver s) flag
      exact ⟨hi.trans ih.1, hlength.trans ih.2.1, fun h => hzero (ih.2.2 h)⟩

/-! ### Frames -/

theorem beginString_bounds {finish : Reassembly → Option Reassembly} (hends : Ends finish)
    (data : Frame) (s : Reassembly) :
    ∃ s', beginString finish data s = some s'
      ∧ s'.stringLength = UInt8.ofNat ((data 2).toNat * 256 + (data 3).toNat)
      ∧ s'.i = min 4 s'.stringLength.toNat ∧ (s.arr 99 = NUL → s'.arr 99 = NUL) := by
  obtain ⟨s', htake, hlength, hi, hzero⟩ := takeBytes_bounds hends
    [data 4, data 5, data 6, data 7]
    (s := { s with stringLength := UInt8.ofNat ((data 2).toNat * 256 + (data 3).toNat), i := 0 })
    (Nat.zero_le _) (lt_of_le_of_lt (min_le_left 4 _) (by decide))
  refine ⟨s', htake, hlength, ?_, hzero⟩
  rw [hi, hlength]
  rfl

end Reassembly

open Reassembly

/-- The length that a header announces. -/
def announcedLength (data : Frame) : Option Nat :=
  if (data 0).toNat = 5 ∧ (data 1).toNat ∈ [4, 5, 6, 7, 8, 10] then
    some ((data 2).toNat * 256 + (data 3).toNat)
  else none

/-- The length that was announced last, which is 0 before the first header. -/
def lastAnnounced (frames : List Frame) : Nat :=
  frames.foldl (fun length data => (announcedLength data).getD length) 0

/-- The frame announces a length of eight bits, and does not carry the index to the end of the
buffer. -/
def FrameFits (data : Frame) (s : Reassembly) : Prop :=
  (∀ n, announcedLength data = some n → n < 256)
    ∧ (5 < (data 0).toNat → (data 0).toNat ≠ s.prevSequenceNo →
        min (s.i + 7) s.stringLength.toNat < 100)

theorem handleChargerConfig_of_announced {data : Frame} {n : Nat}
    (h : announcedLength data = some n) (s : Reassembly) :
    ∃ s', handleChargerConfig data s = some s' ∧ s'.stringLength = UInt8.ofNat n
      ∧ s'.i = min 4 s'.stringLength.toNat ∧ (s.arr 99 = NUL → s'.arr 99 = NUL) := by
  rw [announcedLength] at h
  split at h
  · next hheader =>
      obtain ⟨hfive, hnumber⟩ := hheader
      rw [← Option.some.inj h, handleChargerConfig, if_neg (by omega), if_pos hfive]
      simp only [List.mem_cons, List.not_mem_nil, or_false] at hnumber
      rcases hnumber with hnumber | hnumber | hnumber | hnumber | hnumber | hnumber <;> rw [hnumber]
      case inr.inr.inr.inl =>
        obtain ⟨s', hbegin, hbounds⟩ := beginString_bounds ends_terminate data s
        exact ⟨_, Option.map_eq_some_iff.mpr ⟨s', hbegin, rfl⟩, hbounds⟩
      all_goals exact beginString_bounds ends_some data _
  · cases h

theorem handleChargerConfig_of_not_announced {data : Frame} (h : announcedLength data = none)
    (hstring : ¬ 5 < (data 0).toNat) (s : Reassembly) : handleChargerConfig data s = some s := by
  rw [handleChargerConfig, if_neg hstring]
  split
  · next hfive =>
      rw [announcedLength] at h
      split at h
      · cases h
      · next hother =>
          have hnumber : (data 1).toNat ∉ [4, 5, 6, 7, 8, 10] := fun hmem => hother ⟨hfive, hmem⟩
          split
          case h_7 => rfl
          all_goals
            next hknown =>
              rw [hknown] at hnumber
              exact absurd (by decide) hnumber
  · rfl

/-! ### Runs -/

/-- The length is the announced one and the buffer ends in a zero. -/
def Bounded (length : Nat) (s : Reassembly) : Prop :=
  s.stringLength.toNat = length ∧ s.arr 99 = NUL

/-- Four bytes of the string have come with its header and seven with each frame after it, unless it is
complete. -/
structure Collecting (length : Nat) (s : Reassembly) : Prop where
  bounded : Bounded length s
  room : s.i < 100
  index : s.i = length ∨ s.i < length ∧ s.i % 7 = 4

theorem Collecting.index_le {length : Nat} {s : Reassembly} (h : Collecting length s) :
    s.i ≤ s.stringLength.toNat := by
  rw [h.bounded.1]
  exact h.index.elim le_of_eq fun hmore => hmore.1.le

/-- The frame has a result that is bounded by what has been announced now. -/
def KeepsBounded (length : Nat) (data : Frame) (s : Reassembly) : Prop :=
  ∃ s', handleChargerConfig data s = some s' ∧ Bounded ((announcedLength data).getD length) s'

/-- A continuation frame that is not a repetition. -/
theorem handleChargerConfig_continuation {data : Frame} (hstring : 5 < (data 0).toNat)
    {s : Reassembly} (hnew : (data 0).toNat ≠ s.prevSequenceNo) :
    handleChargerConfig data s
      = (takeBytes complete [data 1, data 2, data 3, data 4, data 5, data 6, data 7]
          { s with prevSequenceNo := (data 0).toNat }).map deliverAll := by
  rw [handleChargerConfig, if_pos hstring, continueString, if_neg hnew]

/-- A continuation frame that does not reach the end of the buffer. -/
theorem continuation_bounds {length : Nat} {s : Reassembly} (h : Collecting length s) {data : Frame}
    (hstring : 5 < (data 0).toNat) (hnew : (data 0).toNat ≠ s.prevSequenceNo)
    (hroom : min (s.i + 7) s.stringLength.toNat < 100) :
    ∃ s', handleChargerConfig data s = some s' ∧ Collecting length s' := by
  obtain ⟨s₁, htake, hlength, hi, hzero⟩ := takeBytes_bounds ends_complete
    [data 1, data 2, data 3, data 4, data 5, data 6, data 7]
    (s := { s with prevSequenceNo := (data 0).toNat }) h.index_le hroom
  obtain ⟨hi', hlength', hzero'⟩ := deliverAll_bounds s₁
  have hindex : s₁.deliverAll.i = min (s.i + 7) length := by
    rw [hi', hi, ← h.bounded.1]
    rfl
  refine ⟨s₁.deliverAll, ?_, ⟨?_, hzero' (hzero h.bounded.2)⟩, ?_, ?_⟩
  · rw [handleChargerConfig_continuation hstring hnew, htake, Option.map_some]
  · rw [hlength', hlength]
    exact h.bounded.1
  · rw [hindex, ← h.bounded.1]
    exact hroom
  · have := h.index
    omega

/-- One that does is written past it. -/
theorem continuation_overrun {length : Nat} {s : Reassembly} (h : Collecting length s) {data : Frame}
    (hstring : 5 < (data 0).toNat) (hnew : (data 0).toNat ≠ s.prevSequenceNo)
    (hlong : ¬ min (s.i + 7) s.stringLength.toNat < 100) : handleChargerConfig data s = none := by
  have hindex := h.index
  have hroom := h.room
  rw [h.bounded.1] at hlong
  rw [handleChargerConfig_continuation hstring hnew, takeBytes_overrun complete_full]
  · rfl
  · exact hroom.le
  · show s.i < s.stringLength.toNat
    rw [h.bounded.1]
    omega
  · show 100 < s.i + 7
    omega
  · show 100 ≤ s.stringLength.toNat
    rw [h.bounded.1]
    omega

theorem header_collects {data : Frame} {n : Nat} (h : announcedLength data = some n)
    {s : Reassembly} (hzero : s.arr 99 = NUL) :
    ∃ s', handleChargerConfig data s = some s' ∧ s'.stringLength.toNat = n % 256
      ∧ Collecting (n % 256) s' := by
  obtain ⟨s', hstep, hlength, hi, hzero'⟩ := handleChargerConfig_of_announced h s
  have hnarrow : s'.stringLength.toNat = n % 256 := by rw [hlength, UInt8.toNat_ofNat']
  rw [hnarrow] at hi
  exact ⟨s', hstep, hnarrow, ⟨hnarrow, hzero' hzero⟩, by omega, by omega⟩

/-- Any other frame changes nothing. -/
theorem handleChargerConfig_unchanged {data : Frame} (hheader : announcedLength data = none)
    {s : Reassembly} (hold : 5 < (data 0).toNat → (data 0).toNat = s.prevSequenceNo) :
    handleChargerConfig data s = some s := by
  by_cases hstring : 5 < (data 0).toNat
  · rw [handleChargerConfig, if_pos hstring, continueString, if_pos (hold hstring)]
  · exact handleChargerConfig_of_not_announced hheader hstring s

/-- With a frame that fits, the string goes on being collected, or the next one begins. -/
theorem Collecting.step {length : Nat} {s : Reassembly} (h : Collecting length s) {data : Frame}
    (hfits : FrameFits data s) :
    ∃ s', handleChargerConfig data s = some s'
      ∧ Collecting ((announcedLength data).getD length) s' := by
  cases hheader : announcedLength data with
  | some n =>
      obtain ⟨s', hstep, -, hcollecting⟩ := header_collects hheader h.bounded.2
      rw [Nat.mod_eq_of_lt (hfits.1 n hheader)] at hcollecting
      exact ⟨s', hstep, hcollecting⟩
  | none =>
      by_cases hnew : 5 < (data 0).toNat ∧ (data 0).toNat ≠ s.prevSequenceNo
      · exact continuation_bounds h hnew.1 hnew.2 (hfits.2 hnew.1 hnew.2)
      · refine ⟨s, handleChargerConfig_unchanged hheader fun hstring => ?_, h⟩
        by_contra hother
        exact hnew ⟨hstring, hother⟩

/-- A frame that does not fit breaks a bound. -/
theorem Collecting.fits {length : Nat} {s : Reassembly} (h : Collecting length s) {data : Frame}
    (hkeeps : KeepsBounded length data s) : FrameFits data s := by
  obtain ⟨s', hstep, hbounded⟩ := hkeeps
  refine ⟨fun n hheader => ?_, fun hstring hnew => ?_⟩
  · obtain ⟨s₁, hs₁, hnarrow, -⟩ := header_collects hheader h.bounded.2
    obtain rfl := Option.some.inj (hs₁.symm.trans hstep)
    rw [hheader, Option.getD_some] at hbounded
    have hn : n % 256 = n := hnarrow.symm.trans hbounded.1
    omega
  · by_contra hlong
    rw [continuation_overrun h hstring hnew hlong] at hstep
    cases hstep

theorem Collecting.fits_iff {length : Nat} {s : Reassembly} (h : Collecting length s)
    (data : Frame) : FrameFits data s ↔ KeepsBounded length data s := by
  refine ⟨fun hfits => ?_, h.fits⟩
  obtain ⟨s', hstep, hcollecting⟩ := h.step hfits
  exact ⟨s', hstep, hcollecting.bounded⟩

theorem powerOn_collecting (config : ConfigStrings) : Collecting 0 (Reassembly.powerOn config) :=
  ⟨⟨rfl, rfl⟩, Nat.zero_lt_succ 99, .inl rfl⟩

/-- In every run the writes stay inside the buffer and the length is the announced one if and only if
each frame fits. -/
theorem buffer_bounded_iff (config : ConfigStrings) (frames : List Frame) :
    (∀ sent, sent <+: frames →
        ∃ s, Runs.run handleChargerConfig sent (Reassembly.powerOn config) = some s
          ∧ s.stringLength.toNat = lastAnnounced sent ∧ s.arr 99 = NUL)
      ↔ Runs.Meets handleChargerConfig FrameFits frames (Reassembly.powerOn config) := by
  have hbounded : ∀ length s, Collecting length s → Bounded length s := fun _ _ h => h.bounded
  have hfits : ∀ data length s, Collecting length s →
      (FrameFits data s ↔ ∃ s', handleChargerConfig data s = some s'
        ∧ Bounded ((announcedLength data).getD length) s') := fun data _ _ h => h.fits_iff data
  have hkeep : ∀ data length s s', Collecting length s → handleChargerConfig data s = some s' →
      Bounded ((announcedLength data).getD length) s' →
      Collecting ((announcedLength data).getD length) s' := by
    intro data length s s' h hstep hbounded
    obtain ⟨s₁, hs₁, hcollecting⟩ := h.step (h.fits ⟨s', hstep, hbounded⟩)
    obtain rfl := Option.some.inj (hs₁.symm.trans hstep)
    exact hcollecting
  exact (Runs.meets_iff_throughout (fun length data => (announcedLength data).getD length) hbounded
    hfits hkeep (powerOn_collecting config)).symm

/-- The header of an OCPP URL of 120 bytes and its first 14 continuation frames. -/
def longUrl : List Frame :=
  ![5, 5, 0, 120, 65, 65, 65, 65]
    :: (List.range 14).map fun c => ![UInt8.ofNat (6 + c), 65, 65, 65, 65, 65, 65, 65]

/-- The last of these frames is written past the buffer, and of a length of 256 nothing is kept. -/
theorem long_url_overruns :
    Runs.run handleChargerConfig longUrl (Reassembly.powerOn noStrings) = none
      ∧ (handleChargerConfig ![5, 5, 1, 0, 65, 65, 65, 65] (Reassembly.powerOn noStrings)).map
          (fun s => s.stringLength) = some 0 := by
  decide +kernel

end Pmu
