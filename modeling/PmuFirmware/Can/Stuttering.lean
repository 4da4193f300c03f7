import PmuFirmware.Can.Acknowledgement
import PmuFirmware.Can.Fields

/-!
# Frames of the configuration that are repeated

The charger repeats a frame until it is acknowledged. A continuation frame whose number is the one of the
last is only acknowledged; a header starts the string again, with the bytes that are in the buffer
already; and numbers are written once more. So a repeated frame changes nothing and is acknowledged in
the same way.
-/

namespace Pmu

open CLib

/-! ### The strings -/

namespace Reassembly

/-- What ends a copying loop leaves the bytes before the index, and does nothing when it is done again
with the same bytes. -/
structure Settles (finish : Reassembly → Option Reassembly) : Prop where
  index : ∀ r r', finish r = some r' → r'.i = r.i ∧ r'.stringLength = r.stringLength
  before : ∀ r r', finish r = some r' → ∀ k < r.i, r'.arr k = r.arr k
  again : ∀ r r' q, finish r = some r' → q.arr = r'.arr → q.i = r'.i → finish q = some q

theorem settles_some : Settles some where
  index _ _ h := Option.some.inj h ▸ ⟨rfl, rfl⟩
  before _ _ h _ _ := Option.some.inj h ▸ rfl
  again _ _ _ _ _ _ := rfl

theorem settles_terminate : Settles terminate where
  index _ _ h := Transmission.terminate_length h
  before r r' h k hk := by
    rw [terminate, write] at h
    split at h
    · rw [← Option.some.inj h]
      exact Function.update_of_ne hk.ne _ _
    · cases h
  again r r' q h harr hi := by
    have hindex := (Transmission.terminate_length h).1
    rw [terminate, write] at h
    split at h
    · next hroom =>
        have hzero : q.arr q.i = NUL := by
          rw [harr, hi, hindex, ← Option.some.inj h]
          exact Function.update_self _ _ _
        rw [terminate, write, if_pos (by omega), ← hzero, Function.update_eq_self]
    · cases h

/-- The loops write at the index and after it. -/
theorem takeBytes_before {finish : Reassembly → Option Reassembly} (hfinish : Settles finish)
    {bytes : List UInt8} {r r' : Reassembly} (h : takeBytes finish bytes r = some r') {k : Nat}
    (hk : k < r.i) : r'.arr k = r.arr k := by
  have hpush : ∀ (b : UInt8) (q q' : Reassembly), k < q.i ∧ q.arr k = r.arr k → q.i < q.stringLength.toNat →
      q.push b = some q' → k < q'.i ∧ q'.arr k = r.arr k := by
    intro b q q' ⟨hq, harr⟩ _ hpush
    rw [push_eq_some hpush]
    exact ⟨Nat.lt_succ_of_lt hq, (Function.update_of_ne hq.ne _ _).trans harr⟩
  have hend : ∀ q q' : Reassembly, k < q.i ∧ q.arr k = r.arr k → q.i = q.stringLength.toNat →
      finish q = some q' → k < q'.i ∧ q'.arr k = r.arr k := by
    intro q q' ⟨hq, harr⟩ _ hq'
    exact ⟨(hfinish.index q q' hq').1 ▸ hq, (hfinish.before q q' hq' k hq).trans harr⟩
  exact (takeBytes_invariant hpush hend ⟨hk, rfl⟩ h).2

/-- Copied once more into a buffer that holds them, the bytes only move the index. -/
theorem takeBytes_again {finish : Reassembly → Option Reassembly} (hfinish : Settles finish)
    {bytes : List UInt8} {r r' q : Reassembly} (h : takeBytes finish bytes r = some r')
    (harr : q.arr = r'.arr) (hi : q.i = r.i) (hlength : q.stringLength = r.stringLength) :
    takeBytes finish bytes q = some { q with i := r'.i } := by
  induction bytes generalizing r q with
  | nil =>
      rw [takeBytes, ← Option.some.inj h, ← hi]
  | cons b bytes ih =>
      rw [takeBytes] at h
      by_cases hmore : r.i < r.stringLength.toNat
      · rw [if_pos hmore] at h
        obtain ⟨r₁, hpush, hrest⟩ := Option.bind_eq_some_iff.mp h
        obtain ⟨r₂, hfinished, hrest⟩ := Option.bind_eq_some_iff.mp hrest
        have hroom : r.i < 100 := by
          by_contra hfull
          rw [push_eq_none b hfull] at hpush
          cases hpush
        have hr₁ := push_eq_some hpush
        have hi₁ : r₁.i = r.i + 1 := by rw [hr₁]
        have hlength₁ : r₁.stringLength = r.stringLength := by rw [hr₁]
        have hbyte : r₁.arr r.i = byteChar b := by
          rw [hr₁]
          exact Function.update_self _ _ _
        have hmore' : q.i < q.stringLength.toNat := by rwa [hi, hlength]
        obtain ⟨q₁, hq₁⟩ : ∃ q₁ : Reassembly, q₁ = { q with i := q.i + 1 } := ⟨_, rfl⟩
        have harr₁ : q₁.arr = r'.arr := by rw [hq₁, harr]
        have hindex₁ : q₁.i = r₁.i := by rw [hq₁, hi₁, hi]
        have hsame₁ : q₁.stringLength = r₁.stringLength := by rw [hq₁, hlength₁, hlength]
        -- the byte is not overwritten later on
        suffices hrest' : r'.arr r.i = r₁.arr r.i ∧
            (if q₁.i = q₁.stringLength.toNat then finish q₁ else some q₁).bind
              (takeBytes finish bytes) = some { q₁ with i := r'.i } by
          have hheld : q.arr q.i = byteChar b := by rw [harr, hi, hrest'.1, hbyte]
          rw [takeBytes, if_pos hmore', push_eq b (by omega), ← hheld, Function.update_eq_self,
            Option.bind_some, ← hq₁, hrest'.2, hq₁]
        have hcomplete : q₁.i = q₁.stringLength.toNat ↔ r₁.i = r₁.stringLength.toNat := by
          rw [hindex₁, hsame₁]
        by_cases hlast : r₁.i = r₁.stringLength.toNat
        · rw [if_pos hlast] at hfinished
          rw [if_pos (hcomplete.mpr hlast)]
          obtain ⟨hi₂, hlength₂⟩ := hfinish.index r₁ r₂ hfinished
          have hdone : ∀ r : Reassembly, r.i = r₁.i → r.stringLength = r₁.stringLength →
              takeBytes finish bytes r = some r := by
            intro r hri hrlength
            exact takeBytes_of_complete (by rw [hri, hrlength, hlast]) bytes
          rw [hdone r₂ hi₂ hlength₂] at hrest
          obtain rfl := Option.some.inj hrest
          refine ⟨hfinish.before r₁ r₂ hfinished r.i (by omega), ?_⟩
          rw [hfinish.again r₁ r₂ q₁ hfinished harr₁ (hindex₁.trans hi₂.symm), Option.bind_some,
            hdone q₁ hindex₁ hsame₁, hi₂, ← hindex₁]
        · rw [if_neg hlast] at hfinished
          rw [if_neg (mt hcomplete.mp hlast)]
          obtain rfl := Option.some.inj hfinished
          refine ⟨takeBytes_before hfinish hrest (by omega), ?_⟩
          exact ih hrest harr₁ hindex₁ hsame₁
      · rw [if_neg hmore] at h
        rw [takeBytes, if_neg (by rwa [hi, hlength]), ← Option.some.inj h, ← hi]

/-- A header of a string that has begun leaves it as it is. -/
theorem beginString_again {finish : Reassembly → Option Reassembly} (hfinish : Settles finish)
    {data : Frame} {r r' q : Reassembly} (h : beginString finish data r = some r')
    (harr : q.arr = r'.arr) (hi : q.i = r'.i) (hlength : q.stringLength = r'.stringLength) :
    beginString finish data q = some q := by
  have hannounced : r'.stringLength = UInt8.ofNat ((data 2).toNat * 256 + (data 3).toNat) :=
    takeBytes_observes stringLength (fun _ _ _ => rfl) (fun r r' h => (hfinish.index r r' h).2) h
  have hagain := takeBytes_again hfinish h (q := { q with
    stringLength := UInt8.ofNat ((data 2).toNat * 256 + (data 3).toNat), i := 0 }) harr rfl rfl
  rw [beginString, hagain, ← hi, ← hannounced, ← hlength]

theorem beginFlagged_again {flag : StringFlag} {data : Frame} {r r' : Reassembly}
    (h : beginFlagged flag data r = some r') : beginFlagged flag data r' = some r' := by
  have hflag : r'.flag = Function.update r.flag flag true :=
    takeBytes_observes Reassembly.flag (fun _ _ _ => rfl)
      (fun _ _ h => Option.some.inj h ▸ rfl) h
  have hset : Function.update r'.flag flag true = r'.flag := by
    rw [hflag, Function.update_idem]
  rw [beginFlagged, hset]
  exact beginString_again settles_some h rfl rfl rfl

end Reassembly

open Reassembly

/-- A header that is not the one of the broker. -/
theorem handleChargerConfig_header_again {data : Frame} (hfive : (data 0).toNat = 5)
    (hbroker : (data 1).toNat ≠ 7) {r r' : Reassembly}
    (h : handleChargerConfig data r = some r') : handleChargerConfig data r' = some r' := by
  have hfirst := h
  rw [handleChargerConfig, if_neg (by omega), if_pos hfive] at h
  split at h
  case h_4 hseven => exact absurd hseven hbroker
  case h_7 => exact Option.some.inj h ▸ hfirst
  all_goals
    next hnumber =>
      rw [handleChargerConfig, if_neg (by omega), if_pos hfive, hnumber]
      exact beginFlagged_again h

namespace ConfigMemory

theorem deliverAll_prevSequenceNo (s : ConfigMemory) :
    s.deliverAll.prevSequenceNo = s.prevSequenceNo := by
  have hdeliver : ∀ (s : ConfigMemory) flag,
      (s.deliver flag).prevSequenceNo = s.prevSequenceNo := by
    intro s flag
    show (s.toReassembly.deliver flag).prevSequenceNo = _
    rw [Reassembly.deliver]
    split
    · rfl
    · rfl
  simp only [deliverAll, List.foldl_cons, List.foldl_nil, hdeliver]

/-- A frame that is repeated changes neither the buffer nor a string. -/
theorem handleChargerConfig_again {data : Frame} {s s' : ConfigMemory}
    (h : s.handleChargerConfig data = some s') : s'.handleChargerConfig data = some s' := by
  have hfirst := h
  rw [handleChargerConfig] at h
  by_cases hstring : 5 < (data 0).toNat
  · rw [if_pos hstring] at h
    by_cases hrepeated : (data 0).toNat = s.prevSequenceNo
    · rw [if_pos hrepeated] at h
      exact Option.some.inj h ▸ hfirst
    · rw [if_neg hrepeated, lift, Option.map_map] at h
      obtain ⟨r, htake, rfl⟩ := Option.map_eq_some_iff.mp h
      have hprev : r.prevSequenceNo = (data 0).toNat := by
        refine takeBytes_observes prevSequenceNo (fun _ _ _ => rfl) (fun q q' hq => ?_) htake
        obtain ⟨q₁, hterminate, rfl⟩ := Option.map_eq_some_iff.mp hq
        have hsame := terminate_observes prevSequenceNo (fun _ _ _ => rfl) hterminate
        exact hsame
      rw [handleChargerConfig, if_pos hstring, Function.comp_apply, deliverAll_prevSequenceNo, hprev,
        if_pos rfl]
  · rw [if_neg hstring] at h
    by_cases hfive : (data 0).toNat = 5
    · rw [if_pos hfive] at h
      rw [handleChargerConfig, if_neg hstring, if_pos hfive]
      split at h
      case h_1 =>
        obtain ⟨s₁, hlift, rfl⟩ := Option.map_eq_some_iff.mp h
        obtain ⟨r, hbegin, rfl⟩ := Option.map_eq_some_iff.mp hlift
        have hagain := beginString_again (q := { r with
          config := { r.config with mqttBroker := fieldText 100 r.text } })
          settles_terminate hbegin rfl rfl rfl
        exact Option.map_eq_some_iff.mpr ⟨_, Option.map_eq_some_iff.mpr ⟨_, hagain, rfl⟩, rfl⟩
      case h_2 hother =>
        obtain ⟨r, hheader, rfl⟩ := Option.map_eq_some_iff.mp h
        exact Option.map_eq_some_iff.mpr
          ⟨r, handleChargerConfig_header_again hfive hother hheader, rfl⟩
    · rw [if_neg hfive] at h
      exact Option.some.inj h ▸ hfirst

end ConfigMemory

/-! ### The numbers -/

theorem setBytes_again (start : Nat) (data : Frame) (first count : Nat) (a : CharArray 25) :
    setBytes start data first count (setBytes start data first count a)
      = setBytes start data first count a := by
  funext j
  simp only [setBytes]
  split_ifs <;> rfl

theorem sentLimit_again (data : Frame) (unit limit : ℚ) :
    sentLimit data unit (sentLimit data unit limit) = sentLimit data unit limit := by
  rw [sentLimit]
  split_ifs with hnone
  · rfl
  · rw [sentLimit, if_neg hnone]

theorem setLimit_again (data : Frame) (l : LimitSetting) :
    setLimit data (setLimit data l) = setLimit data l := by
  unfold setLimit
  split
  all_goals simp only [sentLimit_again]

theorem setParameter_again (data : Frame) (c : ConfigNumbers) :
    setParameter data { setParameter data c with parameterName := c.parameterName }
      = setParameter data c := by
  unfold setParameter
  split
  all_goals
    next hparameter =>
      simp only [setLimit_again]

/-- A frame that is repeated writes the same numbers. -/
theorem handleConfigNumbers_again (data : Frame) (c : ConfigNumbers) :
    handleConfigNumbers data (handleConfigNumbers data c) = handleConfigNumbers data c := by
  by_cases hfive : (data 0).toNat = 5
  · have hnumbers : ∀ c, handleConfigNumbers data c
        = setParameter data { c with parameterName := (data 1).toNat } := by
      intro c
      rw [handleConfigNumbers, hfive]
      rfl
    rw [hnumbers, hnumbers c]
    exact setParameter_again data { c with parameterName := (data 1).toNat }
  · unfold handleConfigNumbers
    split
    case h_5 hnumber => exact absurd hnumber hfive
    all_goals simp only [setBytes_again]

/-! ### The acknowledgement -/

/-- A frame that is repeated is acknowledged in the same way. -/
theorem AckPmu.handleChargerConfig_again (data : Frame) (a : AckPmu) :
    (a.handleChargerConfig data).1.handleChargerConfig data = a.handleChargerConfig data := by
  unfold AckPmu.handleChargerConfig
  dsimp only
  split_ifs
  · rfl
  · unfold AckPmu.setParameter
    split_ifs <;> rfl
  · rfl
  · rfl

/-! ### All of it -/

/-- `chargerConfigCAN`, the globals of the reassembly and `AckPmu`. -/
structure ConfigReception where
  memory : ConfigMemory
  numbers : ConfigNumbers
  ackPmu : AckPmu

namespace ConfigReception

/-- `handle_charger_config`, with the messages it transmits. -/
def handleChargerConfig (data : Frame) (s : ConfigReception) :
    Option (ConfigReception × List CanMessage) :=
  (s.memory.handleChargerConfig data).map fun memory =>
    (⟨memory, handleConfigNumbers data s.numbers, (s.ackPmu.handleChargerConfig data).1⟩,
      (s.ackPmu.handleChargerConfig data).2)

/-- The state that a frame leads to. -/
def receive (data : Frame) (s : ConfigReception) : Option ConfigReception :=
  (s.handleChargerConfig data).map Prod.fst

theorem handleChargerConfig_again {data : Frame} {s s' : ConfigReception} {sent : List CanMessage}
    (h : s.handleChargerConfig data = some (s', sent)) :
    s'.handleChargerConfig data = some (s', sent) := by
  obtain ⟨memory, hmemory, hresult⟩ := Option.map_eq_some_iff.mp h
  have hagain := ConfigMemory.handleChargerConfig_again hmemory
  have hnumbers := handleConfigNumbers_again data s.numbers
  have hack := AckPmu.handleChargerConfig_again data s.ackPmu
  obtain ⟨rfl, rfl⟩ := Prod.mk.inj hresult
  refine Option.map_eq_some_iff.mpr ⟨memory, hagain, ?_⟩
  dsimp only
  rw [hnumbers, hack]

/-- A frame that is handled twice in a row has the result and the acknowledgement of the first time, so
that frames can be repeated any number of times without changing what is received. -/
theorem stuttering_invariant (s : ConfigReception) :
    (∀ data, (s.handleChargerConfig data).bind (fun first => first.1.handleChargerConfig data)
        = s.handleChargerConfig data)
      ∧ ∀ frames : List (Frame × Nat),
        Runs.run receive (Runs.repeated frames) s = Runs.run receive (frames.map Prod.fst) s := by
  refine ⟨fun data => ?_, fun frames => Runs.run_repeated (fun data s s' h => ?_) frames s⟩
  · cases h : s.handleChargerConfig data with
    | none => rfl
    | some first => exact handleChargerConfig_again h
  · obtain ⟨⟨s₁, sent⟩, hstep, rfl⟩ := Option.map_eq_some_iff.mp h
    exact Option.map_eq_some_iff.mpr ⟨(s₁, sent), handleChargerConfig_again hstep, rfl⟩

end ConfigReception

end Pmu
