import PmuFirmware.Can.Delivery
import PmuFirmware.Can.Termination

/-!
# Records of a fixed layout

A session, a fault and the serial number are laid out byte after byte and cut into frames of seven. The
frames can be handled in any order and any number of times: no frame disturbs the bytes of another, and
together they bring every byte of the record.
-/

namespace Pmu

open CLib

/-! ### Frames in any order -/

/-- The frames from 1 to `count`, each at least once. -/
def Covers (count : Nat) (numbers : List UInt8) : Prop :=
  (∀ n ∈ numbers, 1 ≤ n.toNat ∧ n.toNat ≤ count)
    ∧ ∀ k, 1 ≤ k → k ≤ count → ∃ n ∈ numbers, n.toNat = k

section AnyOrder

variable {σ : Type} {x : SentRecord} {P : (Nat → Option SentRecord) → σ → Prop} {f : σ → UInt8 → σ}

/-- When all frames have come from one sender, all fields have its bytes. -/
theorem sourced_of_covers
    (hstep : ∀ source s n, P source s → P (Function.update source n.toNat (some x)) (f s n))
    {s : σ} (hs : P (fun _ => none) s) {count : Nat} {numbers : List UInt8}
    (hcovers : Covers count numbers) :
    ∃ source : Nat → Option SentRecord, (∀ k, 1 ≤ k → k ≤ count → source k = some x)
      ∧ P source (numbers.foldl f s) := by
  suffices hhandled : ∀ numbers : List UInt8, ∃ source : Nat → Option SentRecord,
      (∀ n ∈ numbers, source n.toNat = some x) ∧ P source (numbers.foldl f s) by
    obtain ⟨source, hall, hinv⟩ := hhandled numbers
    refine ⟨source, fun k hk hk' => ?_, hinv⟩
    obtain ⟨n, hn, rfl⟩ := hcovers.2 k hk hk'
    exact hall n hn
  intro numbers
  induction numbers using List.reverseRecOn with
  | nil => exact ⟨fun _ => none, fun n hn => absurd hn List.not_mem_nil, hs⟩
  | append_singleton numbers n ih =>
      obtain ⟨source, hall, hinv⟩ := ih
      refine ⟨Function.update source n.toNat (some x), fun m hm => ?_, ?_⟩
      · by_cases hsame : m.toNat = n.toNat
        · rw [hsame, Function.update_self]
        · rcases List.mem_append.mp hm with hm | hm
          · rw [Function.update_of_ne hsame]
            exact hall m hm
          · exact absurd (congrArg UInt8.toNat (List.mem_singleton.mp hm)) hsame
      · rw [List.foldl_append]
        exact hstep source _ n hinv

end AnyOrder

/-! ### The layout -/

/-- A number in `count` bytes, the upper one first. -/
def bigEndian : Nat → Nat → List UInt8
  | 0, _ => []
  | count + 1, v => bigEndian count (v / 256) ++ [UInt8.ofNat v]

/-- The bytes from the first one of frame 1 on, with 0xFF behind them. -/
def laidOut (bytes : List UInt8) : SentRecord where
  byte k := bytes.getD (k - 7) 0xFF

theorem date_laidOut (before after : List UInt8) (date : Fin 25 → UInt8) :
    (laidOut (before ++ (List.ofFn date ++ after))).date (before.length + 7)
      = fun j => byteChar (date j) := by
  funext j
  have hlt : j.val < (List.ofFn date).length := by
    rw [List.length_ofFn]
    exact j.isLt
  show byteChar (List.getD _ (before.length + 7 + j.val - 7) _) = _
  rw [show before.length + 7 + j.val - 7 = before.length + j.val by omega,
    List.getD_append_right _ _ _ _ (Nat.le_add_right _ _), Nat.add_sub_cancel_left,
    List.getD_append _ _ _ _ hlt, List.getD_eq_getElem _ _ hlt, List.getElem_ofFn]

theorem threeBytes_eq {v : Nat} (hv : v < 256 ^ 3) :
    (UInt8.ofNat (v / 256 / 256)).toNat * 65536 + (UInt8.ofNat (v / 256)).toNat * 256
      + (UInt8.ofNat v).toNat = v := by
  simp only [UInt8.toNat_ofNat']
  omega

theorem twoBytes_eq {v : Nat} (hv : v < 256 ^ 2) :
    (UInt8.ofNat (v / 256)).toNat * 256 + (UInt8.ofNat v).toNat = v := by
  simp only [UInt8.toNat_ofNat']
  omega

/-- Two numbers of four bits in one byte. -/
theorem halves_eq {low high : Nat} (hlow : low < 16) (hhigh : high < 16) :
    (UInt8.ofNat (high * 16 + low)).toNat % 16 = low
      ∧ (UInt8.ofNat (high * 16 + low)).toNat / 16 = high := by
  rw [UInt8.toNat_ofNat']
  omega

/-! ### Sessions -/

/-- A session that has started and ended. -/
structure SessionRecord where
  sessionType : Nat
  connector : Fin 16
  stopReason : UInt8
  startDateTime : Fin 25 → UInt8
  chargePercentage : UInt8
  endDateTime : Fin 25 → UInt8
  energyConsumed : Fin (256 ^ 3)
  estimatedCost : Fin (256 ^ 3)
  chargeDuration : Fin (256 ^ 2)
  startSoC : UInt8
  endSoC : UInt8
  ended : sessionType = initiatedStartedNormalTermination
    ∨ sessionType = initiatedStartedFaultyTermination

namespace SessionRecord

variable (r : SessionRecord)

def bytes : List UInt8 :=
  [[UInt8.ofNat (r.connector.val * 16 + r.sessionType), r.stopReason], List.ofFn r.startDateTime,
    [r.chargePercentage], List.ofFn r.endDateTime, bigEndian 3 r.energyConsumed,
    bigEndian 3 r.estimatedCost, bigEndian 2 r.chargeDuration, [r.startSoC, r.endSoC]].flatten

/-- The record that is to be read, with a bit that is not sent. -/
def sessionInfo (occured : Bool) : SessionInfo where
  sessionType := r.sessionType
  connector := r.connector
  stopReason := r.stopReason.toNat
  startDateTime j := byteChar (r.startDateTime j)
  endDateTime j := byteChar (r.endDateTime j)
  chargePercentage := r.chargePercentage.toNat
  energyConsumed := r.energyConsumed
  estimatedCost := (r.estimatedCost.val : ℚ) / 1000
  chargeDuration := r.chargeDuration
  startSoC := r.startSoC.toNat
  endSoC := r.endSoC.toNat
  chargingSessionOccured := occured

theorem sessionType_lt : r.sessionType < 16 := by
  rcases r.ended with h | h <;> rw [h] <;> decide

/-- The bytes describe the session. -/
theorem sessionInfo_laidOut (occured : Bool) :
    { (laidOut r.bytes).sessionInfo with chargingSessionOccured := occured }
      = r.sessionInfo occured := by
  have hhalves := halves_eq r.sessionType_lt r.connector.isLt
  have hstart : (laidOut r.bytes).date 9 = fun j => byteChar (r.startDateTime j) :=
    date_laidOut [_, _] _ r.startDateTime
  have hend : (laidOut r.bytes).date 35 = fun j => byteChar (r.endDateTime j) := by
    have hsplit : r.bytes = ([UInt8.ofNat (r.connector.val * 16 + r.sessionType), r.stopReason]
        ++ List.ofFn r.startDateTime ++ [r.chargePercentage]) ++ (List.ofFn r.endDateTime
        ++ [bigEndian 3 r.energyConsumed, bigEndian 3 r.estimatedCost, bigEndian 2 r.chargeDuration,
          [r.startSoC, r.endSoC]].flatten) := by
      simp [bytes]
    rw [hsplit]
    exact date_laidOut _ _ r.endDateTime
  have henergy : ((laidOut r.bytes).byte 60).toNat * 65536 + ((laidOut r.bytes).byte 61).toNat * 256
      + ((laidOut r.bytes).byte 62).toNat = r.energyConsumed.val := threeBytes_eq r.energyConsumed.isLt
  have hcost : ((laidOut r.bytes).byte 63).toNat * 65536 + ((laidOut r.bytes).byte 64).toNat * 256
      + ((laidOut r.bytes).byte 65).toNat = r.estimatedCost.val := threeBytes_eq r.estimatedCost.isLt
  have hduration : ((laidOut r.bytes).byte 66).toNat * 256 + ((laidOut r.bytes).byte 67).toNat
      = r.chargeDuration.val := twoBytes_eq r.chargeDuration.isLt
  rw [SentRecord.sessionInfo, hstart, hend, henergy, hcost, hduration]
  exact (SessionInfo.mk.injEq ..).mpr
    ⟨hhalves.1, hhalves.2, rfl, rfl, rfl, rfl, rfl, rfl, rfl, rfl, rfl, rfl⟩

theorem sent_sessionType : (laidOut r.bytes).sessionType = r.sessionType :=
  (halves_eq r.sessionType_lt r.connector.isLt).1

end SessionRecord

/-- A frame of a session that has ended does not wipe the start date. -/
theorem sourceOfSession_of_ended {x : SentRecord}
    (hended : x.sessionType = initiatedStartedNormalTermination
      ∨ x.sessionType = initiatedStartedFaultyTermination) (n : UInt8)
    (source : Nat → Option SentRecord) :
    ObservedExchange.sourceOfSession x n source = Function.update source n.toNat (some x) := by
  rw [ObservedExchange.sourceOfSession, if_neg]
  refine not_and.mpr fun _ hwipes => ?_
  rcases hended with h | h <;> rw [h] at hwipes <;> exact absurd hwipes (by decide)

/-- A session whose fields all come from one sender. -/
theorem SessionInfo.Sourced.eq {source : Nat → Option SentRecord} {x : SentRecord} {s : SessionInfo}
    (h : s.Sourced source) (hall : ∀ k, 1 ≤ k → k ≤ 9 → source k = some x) :
    s = { x.sessionInfo with chargingSessionOccured := s.chargingSessionOccured } := by
  obtain ⟨htype, hconnector, hreason⟩ := h.head x (hall 1 (by omega) (by omega))
  obtain ⟨hcost, hduration, hstartSoC, hendSoC⟩ := h.totals x (hall 9 (by omega) (by omega))
  have hpercentage := h.percentage x (hall 4 (by omega) (by omega))
  have henergy := h.energy x (hall 8 (by omega) (by omega))
  have hstart : s.startDateTime = x.date 9 := by
    funext j
    exact h.startDate j x (hall _ (by omega) (by omega))
  have hend : s.endDateTime = x.date 35 := by
    funext j
    exact h.endDate j x (hall _ (by omega) (by omega))
  exact (SessionInfo.mk.injEq ..).mpr ⟨htype, hconnector, hreason, hstart, hend, hpercentage, henergy,
    hcost, hduration, hstartSoC, hendSoC, rfl⟩

theorem session_decodes (r : SessionRecord) {numbers : List UInt8} (hcovers : Covers 9 numbers)
    (toggle : Nat) (s : SessionInfo) :
    ∃ occured, (numbers.foldl
        (fun (p : Nat × SessionInfo) n => handleSessionInfo ((laidOut r.bytes).frame n) p.1 p.2)
        (toggle, s)).2 = r.sessionInfo occured := by
  have hended := r.ended
  rw [← r.sent_sessionType] at hended
  have hstep : ∀ source (p : Nat × SessionInfo) (n : UInt8), p.2.Sourced source →
      (handleSessionInfo ((laidOut r.bytes).frame n) p.1 p.2).2.Sourced
        (Function.update source n.toNat (some (laidOut r.bytes))) := by
    intro source p n hp
    rw [← sourceOfSession_of_ended hended n source]
    exact hp.handle p.1
  have hnone : SessionInfo.Sourced (fun _ => none) s :=
    ⟨.none rfl, fun _ => .none rfl, .none rfl, fun _ => .none rfl, .none rfl, .none rfl⟩
  obtain ⟨source, hall, hinv⟩ :=
    sourced_of_covers (P := fun source (p : Nat × SessionInfo) => p.2.Sourced source) hstep
      (s := (toggle, s)) hnone hcovers
  exact ⟨_, (hinv.eq hall).trans (r.sessionInfo_laidOut _)⟩

/-! ### Faults -/

/-- A fault with a code. -/
structure FaultRecord where
  faultType : Fin 16
  player : Fin 16
  faultCode : UInt8
  occuranceDateTime : Fin 25 → UInt8
  clearanceDateTime : Fin 25 → UInt8
  sent : faultCode ≠ 0xFF

namespace FaultRecord

variable (r : FaultRecord)

def bytes : List UInt8 :=
  [[UInt8.ofNat (r.player.val * 16 + r.faultType.val), r.faultCode], List.ofFn r.occuranceDateTime,
    List.ofFn r.clearanceDateTime].flatten

/-- The record that is to be read, with a bit that is not sent. -/
def faultLog (exchanged : Bool) : FaultLog where
  faultType := r.faultType
  player := r.player
  faultCode := r.faultCode.toNat
  occuranceDateTime j := byteChar (r.occuranceDateTime j)
  clearanceDateTime j := byteChar (r.clearanceDateTime j)
  faultLogDataExchanged := exchanged

/-- The bytes describe the fault. -/
theorem faultLog_laidOut (exchanged : Bool) :
    { (laidOut r.bytes).faultLog with faultLogDataExchanged := exchanged }
      = r.faultLog exchanged := by
  have hhalves := halves_eq r.faultType.isLt r.player.isLt
  have hoccurance : (laidOut r.bytes).date 9 = fun j => byteChar (r.occuranceDateTime j) :=
    date_laidOut [_, _] _ r.occuranceDateTime
  have hclearance : (laidOut r.bytes).date 34 = fun j => byteChar (r.clearanceDateTime j) := by
    have hsplit : r.bytes = ([UInt8.ofNat (r.player.val * 16 + r.faultType.val), r.faultCode]
        ++ List.ofFn r.occuranceDateTime) ++ (List.ofFn r.clearanceDateTime ++ []) := by
      simp [bytes]
    rw [hsplit]
    exact date_laidOut _ _ r.clearanceDateTime
  rw [SentRecord.faultLog, hoccurance, hclearance]
  exact (FaultLog.mk.injEq ..).mpr ⟨hhalves.1, hhalves.2, rfl, rfl, rfl, rfl⟩

end FaultRecord

/-- A fault whose fields all come from one sender. -/
theorem FaultLog.Sourced.eq {source : Nat → Option SentRecord} {x : SentRecord} {s : FaultLog}
    (h : s.Sourced source) (hall : ∀ k, 1 ≤ k → k ≤ 8 → source k = some x) (hcode : x.byte 8 ≠ 0xFF) :
    s = { x.faultLog with faultLogDataExchanged := s.faultLogDataExchanged } := by
  obtain ⟨htype, hplayer, hsent⟩ := h.head x (hall 1 (by omega) (by omega))
  have hoccurance : s.occuranceDateTime = x.date 9 := by
    funext j
    exact h.occuranceDate j x (hall _ (by omega) (by omega))
  have hclearance : s.clearanceDateTime = x.date 34 := by
    funext j
    exact h.clearanceDate j x (hall _ (by omega) (by omega))
  exact (FaultLog.mk.injEq ..).mpr ⟨htype, hplayer, hsent hcode, hoccurance, hclearance, rfl⟩

theorem fault_decodes (r : FaultRecord) {numbers : List UInt8} (hcovers : Covers 8 numbers)
    (s : FaultLog) :
    ∃ exchanged, numbers.foldl (fun s n => handleFaultLog ((laidOut r.bytes).frame n) s) s
      = r.faultLog exchanged := by
  have hnone : FaultLog.Sourced (fun _ => none) s :=
    ⟨.none rfl, fun _ => .none rfl, fun _ => .none rfl⟩
  have hstep : ∀ source (s : FaultLog) (n : UInt8), s.Sourced source →
      (handleFaultLog ((laidOut r.bytes).frame n) s).Sourced
        (Function.update source n.toNat (some (laidOut r.bytes))) := fun _ _ _ h => h.handle
  obtain ⟨source, hall, hinv⟩ := sourced_of_covers
    (P := fun source (s : FaultLog) => s.Sourced source) hstep hnone hcovers
  exact ⟨_, (hinv.eq hall r.sent).trans (r.faultLog_laidOut _)⟩

/-! ### The serial number -/

/-- The first frames of the configuration: three bytes of other values and the serial number. -/
structure SerialRecord where
  head : Fin 3 → UInt8
  serialNumber : Fin 25 → UInt8

def SerialRecord.bytes (r : SerialRecord) : List UInt8 :=
  [List.ofFn r.head, List.ofFn r.serialNumber].flatten

/-- The bytes describe the serial number. -/
theorem SerialRecord.date_bytes (r : SerialRecord) :
    (laidOut r.bytes).date 10 = fun j => byteChar (r.serialNumber j) := by
  have hsplit : r.bytes = List.ofFn r.head ++ (List.ofFn r.serialNumber ++ []) := rfl
  rw [hsplit]
  exact date_laidOut _ _ r.serialNumber

theorem serialNumber_sourced {source : Nat → Option SentRecord} {x : SentRecord} {c : ConfigNumbers}
    (h : DateSourced source 10 c.serialNumber) (n : UInt8) :
    DateSourced (Function.update source n.toNat (some x)) 10
      (handleConfigNumbers (x.frame n) c).serialNumber := by
  rw [serialNumber_eq, show x.frame n 0 = n from rfl]
  have hslice : ∀ start begin count k, n.toNat = k →
      10 + start + 1 = 7 * k + begin ∧ 1 ≤ begin ∧ begin + count ≤ 8 →
      (∀ j < 25, (10 + j) / 7 = k ↔ start ≤ j ∧ j < start + count) →
      DateSourced (Function.update source n.toNat (some x)) 10
        (Slice.write (x.frame n) c.serialNumber ⟨start, begin, count⟩) := by
    intro start begin count k hn hbytes hrange
    rw [hn]
    exact h.setBytes hn hbytes hrange
  unfold serialSlice
  split
  · next hn => exact hslice 0 4 4 1 hn (by omega) (by omega)
  · next hn => exact hslice 4 1 7 2 hn (by omega) (by omega)
  · next hn => exact hslice 11 1 7 3 hn (by omega) (by omega)
  · next hn => exact hslice 18 1 7 4 hn (by omega) (by omega)
  · next h1 h2 h3 h4 =>
      have hnumber : n.toNat ≠ 1 ∧ n.toNat ≠ 2 ∧ n.toNat ≠ 3 ∧ n.toNat ≠ 4 := ⟨h1, h2, h3, h4⟩
      exact h.of_ne (by omega)

theorem serialNumber_decodes (r : SerialRecord) {numbers : List UInt8} (hcovers : Covers 4 numbers)
    (c : ConfigNumbers) :
    (numbers.foldl (fun c n => handleConfigNumbers ((laidOut r.bytes).frame n) c) c).serialNumber
      = fun j => byteChar (r.serialNumber j) := by
  obtain ⟨source, hall, hinv⟩ := sourced_of_covers (x := laidOut r.bytes)
    (P := fun source (c : ConfigNumbers) => DateSourced source 10 c.serialNumber)
    (fun _ _ n h => serialNumber_sourced h n) (s := c) (fun _ => .none rfl) hcovers
  rw [← r.date_bytes]
  funext j
  exact hinv j _ (hall _ (by omega) (by omega))

/-! ### All records -/

/-- A record whose frames have been handled in any order, each at least once, is read as it was sent. -/
theorem records_decode :
    (∀ (r : SessionRecord) (numbers : List UInt8), Covers 9 numbers → ∀ toggle s, ∃ occured,
        (numbers.foldl
          (fun (p : Nat × SessionInfo) n => handleSessionInfo ((laidOut r.bytes).frame n) p.1 p.2)
          (toggle, s)).2 = r.sessionInfo occured)
      ∧ (∀ (r : FaultRecord) (numbers : List UInt8), Covers 8 numbers → ∀ s, ∃ exchanged,
        numbers.foldl (fun s n => handleFaultLog ((laidOut r.bytes).frame n) s) s
          = r.faultLog exchanged)
      ∧ ∀ (r : SerialRecord) (numbers : List UInt8), Covers 4 numbers → ∀ c,
        (numbers.foldl (fun c n => handleConfigNumbers ((laidOut r.bytes).frame n) c) c).serialNumber
          = fun j => byteChar (r.serialNumber j) :=
  ⟨fun r _ hcovers => session_decodes r hcovers, fun r _ hcovers => fault_decodes r hcovers,
    fun r _ hcovers => serialNumber_decodes r hcovers⟩

def sampleSerial : SerialRecord := ⟨fun _ => 0, fun _ => 65⟩

/-- The serial number AAA..., with its frames out of order and one of them twice. -/
theorem disordered_serial_decodes :
    (([4, 2, 3, 1, 2] : List UInt8).foldl
        (fun c n => handleConfigNumbers ((laidOut sampleSerial.bytes).frame n) c)
        ConfigNumbers.powerOn).serialNumber = fun _ => 'A' := by
  have hcovers : Covers 4 [4, 2, 3, 1, 2] := by
    refine ⟨by decide +kernel, fun k hk hk' => ?_⟩
    interval_cases k <;> decide
  rw [records_decode.2.2 sampleSerial [4, 2, 3, 1, 2] hcovers ConfigNumbers.powerOn]
  funext j
  show byteChar 65 = 'A'
  decide

end Pmu
