import PmuFirmware.Can.Records

/-!
# What becomes of a completed record

The fields of a record hold the bytes of the frame that came last for them. A run is calm when no frame
and no copy replaces a completed record before it has been passed on, and when a record is completed
only with all frames of its message from one sender, with dates that end within their arrays. In a
calm run each completed record is made a message of exactly once.
-/

namespace Pmu

open CLib Handoff

/-! ### Whose bytes a record holds -/

/-- What holds of the sender whose bytes the fields of frame `k` hold. -/
def FieldSourced (source : Nat → Option SentRecord) (k : Nat) (P : SentRecord → Prop) : Prop :=
  ∀ x, source k = some x → P x

/-- A date whose bytes are sent from the byte `first` on. -/
def DateSourced (source : Nat → Option SentRecord) (first : Nat) (a : CharArray 25) : Prop :=
  ∀ j : Fin 25, FieldSourced source ((first + j.val) / 7) fun x => a j = x.date first j

section Sourced

variable {source : Nat → Option SentRecord} {x : SentRecord}

theorem FieldSourced.none {k : Nat} {P : SentRecord → Prop} (hnone : source k = none) :
    FieldSourced source k P := fun x hx => by
  rw [hnone] at hx
  cases hx

theorem FieldSourced.of_ne {k n : Nat} {P : SentRecord → Prop} (h : FieldSourced source k P)
    (hne : k ≠ n) : FieldSourced (Function.update source n (some x)) k P := fun y hy =>
  h y (by rwa [Function.update_of_ne hne] at hy)

theorem FieldSourced.self {n : Nat} {P : SentRecord → Prop} (hx : P x) :
    FieldSourced (Function.update source n (some x)) n P := fun y hy => by
  rw [Function.update_self] at hy
  exact Option.some.inj hy ▸ hx

theorem SentRecord.frame_eq {n : UInt8} {k m : Nat} {i : Fin 8} (hn : n.toNat = k) (hi : i ≠ 0)
    (hm : m = 7 * k + i.val - 1) : x.frame n i = x.byte m := by
  rw [frame, if_neg hi, hn, hm]

theorem DateSourced.of_ne {first n : Nat} {a : CharArray 25} (h : DateSourced source first a)
    (hne : ∀ j < 25, (first + j) / 7 ≠ n) :
    DateSourced (Function.update source n (some x)) first a := fun j =>
  (h j).of_ne (hne j j.isLt)

/-- The bytes of a date that one frame brings. -/
theorem DateSourced.setBytes {first start begin count k : Nat} {n : UInt8} {a : CharArray 25}
    (h : DateSourced source first a) (hn : n.toNat = k)
    (hbytes : first + start + 1 = 7 * k + begin ∧ 1 ≤ begin ∧ begin + count ≤ 8)
    (hrange : ∀ j < 25, (first + j) / 7 = k ↔ start ≤ j ∧ j < start + count) :
    DateSourced (Function.update source k (some x)) first
      (setBytes start (x.frame n) begin count a) := by
  intro j
  by_cases hj : (first + j.val) / 7 = k
  · have hin := (hrange j j.isLt).mp hj
    rw [hj]
    refine .self ?_
    rw [Pmu.setBytes, if_pos hin, SentRecord.date,
      SentRecord.frame_eq (m := first + j.val) hn ?_ ?_]
    · rw [Ne, Fin.ext_iff, Fin.val_ofNat, Nat.mod_eq_of_lt (by omega)]
      exact fun h0 => absurd (show begin + j.val - start = 0 from h0) (by omega)
    · rw [Fin.val_ofNat, Nat.mod_eq_of_lt (by omega)]
      omega
  · have hout : ¬ (start ≤ j.val ∧ j.val < start + count) := fun hin =>
      hj ((hrange j j.isLt).mpr hin)
    rw [Pmu.setBytes, if_neg hout]
    exact (h j).of_ne hj

end Sourced

/-- The session record holds the bytes of the sources. -/
structure SessionInfo.Sourced (source : Nat → Option SentRecord) (r : SessionInfo) : Prop where
  head : FieldSourced source 1 fun x => r.sessionType = x.sessionInfo.sessionType
    ∧ r.connector = x.sessionInfo.connector ∧ r.stopReason = x.sessionInfo.stopReason
  startDate : DateSourced source 9 r.startDateTime
  percentage : FieldSourced source 4 fun x => r.chargePercentage = x.sessionInfo.chargePercentage
  endDate : DateSourced source 35 r.endDateTime
  energy : FieldSourced source 8 fun x => r.energyConsumed = x.sessionInfo.energyConsumed
  totals : FieldSourced source 9 fun x => r.estimatedCost = x.sessionInfo.estimatedCost
    ∧ r.chargeDuration = x.sessionInfo.chargeDuration ∧ r.startSoC = x.sessionInfo.startSoC
    ∧ r.endSoC = x.sessionInfo.endSoC

/-- The fault record holds the bytes of the sources, but for a code that is not sent. -/
structure FaultLog.Sourced (source : Nat → Option SentRecord) (r : FaultLog) : Prop where
  head : FieldSourced source 1 fun x => r.faultType = x.faultLog.faultType
    ∧ r.player = x.faultLog.player ∧ (x.byte 8 ≠ 0xFF → r.faultCode = x.faultLog.faultCode)
  occuranceDate : DateSourced source 9 r.occuranceDateTime
  clearanceDate : DateSourced source 34 r.clearanceDateTime

section Handlers

variable {source : Nat → Option SentRecord} {x : SentRecord} {n : UInt8}

theorem SessionInfo.Sourced.toggleOccured {r : SessionInfo} (h : r.Sourced source) :
    r.toggleOccured.Sourced source :=
  ⟨h.head, h.startDate, h.percentage, h.endDate, h.energy, h.totals⟩

theorem sourceOfSession_of_ne (hn : n.toNat ≠ 1) :
    ObservedExchange.sourceOfSession x n source = Function.update source n.toNat (some x) := by
  rw [ObservedExchange.sourceOfSession, if_neg]
  intro h
  exact hn (by rw [h.1]; rfl)

/-- The first frame. -/
theorem SessionInfo.Sourced.handle_first {r : SessionInfo} (h : r.Sourced source)
    (hn : n.toNat = 1) (toggle : Nat) :
    (handleSessionInfo (x.frame n) toggle r).2.Sourced
      (ObservedExchange.sourceOfSession x n source) := by
  have hone : n = 1 := UInt8.toNat_inj.mp hn
  subst hone
  have hbody : Sourced (ObservedExchange.sourceOfSession x 1 source) { r with
      sessionType := x.sessionType
      connector := (x.byte 7).toNat / 16
      stopReason := (x.byte 8).toNat
      startDateTime :=
        if x.sessionType = initiatedButNotStarted ∨ x.sessionType = initiatedStartedPowerOutage then
          fun _ => byteChar 0xFF
        else setBytes 0 (x.frame 1) 3 5 r.startDateTime } := by
    by_cases hwipe : x.sessionType = initiatedButNotStarted
        ∨ x.sessionType = initiatedStartedPowerOutage
    · rw [ObservedExchange.sourceOfSession, if_pos ⟨rfl, hwipe⟩, if_pos hwipe]
      have hlater : ∀ {k : Nat} {P : SentRecord → Prop}, 4 < k → FieldSourced source k P →
          FieldSourced (fun k => if k ≤ 4 then none else source k) k P := by
        intro k P hk hP y hy
        have hy : (if k ≤ 4 then none else source k) = some y := hy
        rw [if_neg (by omega)] at hy
        exact hP y hy
      refine ⟨.none rfl, fun j => .none ?_, .none rfl, fun j => ?_, ?_, ?_⟩
      · exact if_pos (by omega)
      · exact hlater (by omega) (h.endDate j)
      · exact hlater (by omega) h.energy
      · exact hlater (by omega) h.totals
    · rw [ObservedExchange.sourceOfSession, if_neg (fun hboth => hwipe hboth.2), if_neg hwipe]
      exact ⟨.self ⟨rfl, rfl, rfl⟩, h.startDate.setBytes rfl (by omega) (by omega),
        h.percentage.of_ne (by decide), h.endDate.of_ne (by omega), h.energy.of_ne (by decide),
        h.totals.of_ne (by decide)⟩
  show SessionInfo.Sourced _ (if _ then _ else _)
  split
  · exact hbody.toggleOccured
  · exact hbody

/-- A frame that brings only bytes of the dates. -/
theorem SessionInfo.Sourced.dates {r : SessionInfo} {k : Nat} {start finish : CharArray 25}
    (h : r.Sourced source) (hk : k ≠ 1 ∧ k ≠ 4 ∧ k ≠ 8 ∧ k ≠ 9)
    (hstart : DateSourced (Function.update source k (some x)) 9 start)
    (hfinish : DateSourced (Function.update source k (some x)) 35 finish) :
    Sourced (Function.update source k (some x))
      { r with startDateTime := start, endDateTime := finish } :=
  ⟨h.head.of_ne hk.1.symm, hstart, h.percentage.of_ne hk.2.1.symm, hfinish,
    h.energy.of_ne hk.2.2.1.symm, h.totals.of_ne hk.2.2.2.symm⟩

/-- The last frame. -/
theorem SessionInfo.Sourced.handle_last {r : SessionInfo} (h : r.Sourced source)
    (hn : n.toNat = 9) (toggle : Nat) :
    (handleSessionInfo (x.frame n) toggle r).2.Sourced
      (Function.update source n.toNat (some x)) := by
  have hnine : n = 9 := UInt8.toNat_inj.mp hn
  subst hnine
  have hbody : Sourced (Function.update source 9 (some x)) { r with
      estimatedCost := (((x.frame 9 1).toNat * 65536 + (x.frame 9 2).toNat * 256
        + (x.frame 9 3).toNat : Nat) : ℚ) / 1000
      chargeDuration := (x.frame 9 4).toNat * 256 + (x.frame 9 5).toNat
      startSoC := (x.frame 9 6).toNat
      endSoC := (x.frame 9 7).toNat } := by
    refine ⟨h.head.of_ne (by decide), h.startDate.of_ne (by omega),
      h.percentage.of_ne (by decide), h.endDate.of_ne (by omega), h.energy.of_ne (by decide),
      .self ⟨?_, ?_, ?_, ?_⟩⟩
    · rw [SentRecord.frame_eq (i := 1) (m := 63) hn (by decide) rfl,
        SentRecord.frame_eq (i := 2) (m := 64) hn (by decide) rfl,
        SentRecord.frame_eq (i := 3) (m := 65) hn (by decide) rfl]
      rfl
    · rw [SentRecord.frame_eq (i := 4) (m := 66) hn (by decide) rfl,
        SentRecord.frame_eq (i := 5) (m := 67) hn (by decide) rfl]
      rfl
    · exact congrArg UInt8.toNat (SentRecord.frame_eq hn (by decide) rfl)
    · exact congrArg UInt8.toNat (SentRecord.frame_eq hn (by decide) rfl)
  show SessionInfo.Sourced _ (if _ then _ else _)
  split
  · exact hbody.toggleOccured
  · exact hbody

theorem SessionInfo.Sourced.handle {r : SessionInfo} (h : r.Sourced source) (toggle : Nat) :
    (handleSessionInfo (x.frame n) toggle r).2.Sourced
      (ObservedExchange.sourceOfSession x n source) := by
  by_cases hone : n.toNat = 1
  · exact h.handle_first hone toggle
  rw [sourceOfSession_of_ne hone]
  by_cases hnine : n.toNat = 9
  · exact h.handle_last hnine toggle
  rw [handleSessionInfo]
  split
  · next hn => exact absurd hn hone
  · next hn =>
      have hn : n.toNat = 2 := hn
      rw [hn]
      exact h.dates (by decide) (h.startDate.setBytes hn (by omega) (by omega))
        (h.endDate.of_ne (by omega))
  · next hn =>
      have hn : n.toNat = 3 := hn
      rw [hn]
      exact h.dates (by decide) (h.startDate.setBytes hn (by omega) (by omega))
        (h.endDate.of_ne (by omega))
  · next hn =>
      have hn : n.toNat = 4 := hn
      rw [hn]
      refine ⟨h.head.of_ne (by decide), h.startDate.setBytes hn (by omega) (by omega), .self ?_,
        h.endDate.of_ne (by omega), h.energy.of_ne (by decide), h.totals.of_ne (by decide)⟩
      exact congrArg UInt8.toNat (SentRecord.frame_eq hn (by decide) rfl)
  · next hn =>
      have hn : n.toNat = 5 := hn
      rw [hn]
      exact h.dates (by decide) (h.startDate.of_ne (by omega))
        (h.endDate.setBytes hn (by omega) (by omega))
  · next hn =>
      have hn : n.toNat = 6 := hn
      rw [hn]
      exact h.dates (by decide) (h.startDate.of_ne (by omega))
        (h.endDate.setBytes hn (by omega) (by omega))
  · next hn =>
      have hn : n.toNat = 7 := hn
      rw [hn]
      exact h.dates (by decide) (h.startDate.of_ne (by omega))
        (h.endDate.setBytes hn (by omega) (by omega))
  · next hn =>
      have hn : n.toNat = 8 := hn
      rw [hn]
      refine ⟨h.head.of_ne (by decide), h.startDate.of_ne (by omega), h.percentage.of_ne (by decide),
        h.endDate.setBytes hn (by omega) (by omega), .self ?_, h.totals.of_ne (by decide)⟩
      rw [SentRecord.frame_eq (i := 5) (m := 60) hn (by decide) rfl,
        SentRecord.frame_eq (i := 6) (m := 61) hn (by decide) rfl,
        SentRecord.frame_eq (i := 7) (m := 62) hn (by decide) rfl]
      rfl
  · next hn => exact absurd hn hnine
  · next h1 h2 h3 h4 h5 h6 h7 h8 h9 =>
      have hnumber : n.toNat ≠ 1 ∧ n.toNat ≠ 2 ∧ n.toNat ≠ 3 ∧ n.toNat ≠ 4 ∧ n.toNat ≠ 5
          ∧ n.toNat ≠ 6 ∧ n.toNat ≠ 7 ∧ n.toNat ≠ 8 ∧ n.toNat ≠ 9 :=
        ⟨h1, h2, h3, h4, h5, h6, h7, h8, h9⟩
      exact ⟨h.head.of_ne (by omega), h.startDate.of_ne (by omega), h.percentage.of_ne (by omega),
        h.endDate.of_ne (by omega), h.energy.of_ne (by omega), h.totals.of_ne (by omega)⟩

theorem FaultLog.Sourced.handle {r : FaultLog} (h : r.Sourced source) :
    (handleFaultLog (x.frame n) r).Sourced (Function.update source n.toNat (some x)) := by
  rw [handleFaultLog]
  split
  · next hn =>
      have hn : n.toNat = 1 := hn
      rw [hn]
      have htype : x.frame n 1 = x.byte 7 := SentRecord.frame_eq hn (by decide) rfl
      have hcode : x.frame n 2 = x.byte 8 := SentRecord.frame_eq hn (by decide) rfl
      refine ⟨.self ⟨?_, ?_, fun hsent => ?_⟩, h.occuranceDate.setBytes hn (by omega) (by omega),
        h.clearanceDate.of_ne (by omega)⟩
      · show (x.frame n 1).toNat % 16 = _
        rw [htype]
        rfl
      · show (x.frame n 1).toNat / 16 = _
        rw [htype]
        rfl
      · show (if x.frame n 2 = 0xFF then r.faultCode else (x.frame n 2).toNat) = _
        rw [hcode, if_neg hsent]
        rfl
  · next hn =>
      have hn : n.toNat = 2 := hn
      rw [hn]
      exact ⟨h.head.of_ne (by decide), h.occuranceDate.setBytes hn (by omega) (by omega),
        h.clearanceDate.of_ne (by omega)⟩
  · next hn =>
      have hn : n.toNat = 3 := hn
      rw [hn]
      exact ⟨h.head.of_ne (by decide), h.occuranceDate.setBytes hn (by omega) (by omega),
        h.clearanceDate.of_ne (by omega)⟩
  · next hn =>
      have hn : n.toNat = 4 := hn
      rw [hn]
      exact ⟨h.head.of_ne (by decide), h.occuranceDate.setBytes hn (by omega) (by omega),
        h.clearanceDate.setBytes hn (by omega) (by omega)⟩
  · next hn =>
      have hn : n.toNat = 5 := hn
      rw [hn]
      exact ⟨h.head.of_ne (by decide), h.occuranceDate.of_ne (by omega),
        h.clearanceDate.setBytes hn (by omega) (by omega)⟩
  · next hn =>
      have hn : n.toNat = 6 := hn
      rw [hn]
      exact ⟨h.head.of_ne (by decide), h.occuranceDate.of_ne (by omega),
        h.clearanceDate.setBytes hn (by omega) (by omega)⟩
  · next hn =>
      have hn : n.toNat = 7 := hn
      rw [hn]
      exact ⟨h.head.of_ne (by decide), h.occuranceDate.of_ne (by omega),
        h.clearanceDate.setBytes hn (by omega) (by omega)⟩
  · next hn =>
      have hn : n.toNat = 8 := hn
      rw [hn]
      exact ⟨h.head.of_ne (by decide), h.occuranceDate.of_ne (by omega),
        h.clearanceDate.setBytes hn (by omega) (by omega)⟩
  · next h1 h2 h3 h4 h5 h6 h7 h8 =>
      have hnumber : n.toNat ≠ 1 ∧ n.toNat ≠ 2 ∧ n.toNat ≠ 3 ∧ n.toNat ≠ 4 ∧ n.toNat ≠ 5
          ∧ n.toNat ≠ 6 ∧ n.toNat ≠ 7 ∧ n.toNat ≠ 8 := ⟨h1, h2, h3, h4, h5, h6, h7, h8⟩
      exact ⟨h.head.of_ne (by omega), h.occuranceDate.of_ne (by omega),
        h.clearanceDate.of_ne (by omega)⟩

end Handlers

/-! ### Messages -/

/-- The session was started and has ended. -/
def SessionInfo.Ended (r : SessionInfo) : Prop :=
  r.sessionType = initiatedStartedNormalTermination
    ∨ r.sessionType = initiatedStartedFaultyTermination

/-- The dates that the message of a session uses have a NUL. -/
def SessionInfo.Readable (r : SessionInfo) : Prop :=
  r.Ended → r.startDateTime.Terminated ∧ r.endDateTime.Terminated

instance SessionInfo.decidableReadable (r : SessionInfo) : Decidable r.Readable :=
  inferInstanceAs (Decidable ((r.sessionType = initiatedStartedNormalTermination
    ∨ r.sessionType = initiatedStartedFaultyTermination) →
      r.startDateTime.Terminated ∧ r.endDateTime.Terminated))

def FaultLog.Readable (r : FaultLog) : Prop :=
  r.occuranceDateTime.Terminated ∧ r.clearanceDateTime.Terminated

instance FaultLog.decidableReadable (r : FaultLog) : Decidable r.Readable :=
  inferInstanceAs (Decidable (r.occuranceDateTime.Terminated ∧ r.clearanceDateTime.Terminated))

/-- The message of a session, as far as the record determines it. -/
def SessionInfo.payload (r : SessionInfo) : UtcTime → Json := fun now => chargingSessionPayload now r

/-- The message of a fault and the file it is queued in. -/
def FaultLog.payload (r : FaultLog) : (UtcTime → Json) × Option QueueFile :=
  (fun now => faultLogPayload now r, faultLogFile r)

/-- The message that `create_chargingSession_message` makes of a record: nothing is known of one with a
date that is read past the end of its array. -/
def SessionInfo.message (r : SessionInfo) : Option (UtcTime → Json) :=
  if r.Readable then some r.payload else none

def FaultLog.message (r : FaultLog) : Option ((UtcTime → Json) × Option QueueFile) :=
  if r.Readable then some r.payload else none

/-- The message of the session has a field that frame `k` brings. -/
def SessionInfo.UsesFrame (r : SessionInfo) (k : Nat) : Prop :=
  k = 1 ∨ r.Ended ∧ 2 ≤ k ∧ k ≤ 9

/-- The frame completes a session, with the toggle that is set before it. -/
def completesSession (toggle : Nat) (data : Frame) : Prop :=
  (data 0).toNat = 1 ∧ (toggleOfType ((data 1).toNat % 16) toggle = 1
      ∨ toggleOfType ((data 1).toNat % 16) toggle = 4)
    ∨ (data 0).toNat = 9 ∧ toggle = 2

section Messages

variable {source : Nat → Option SentRecord} {x : SentRecord} {n : UInt8}

theorem SessionInfo.message_of_payload {r r' : SessionInfo} (hreadable : r.Readable ↔ r'.Readable)
    (hpayload : r.payload = r'.payload) : r.message = r'.message := by
  simp only [message, hreadable, hpayload]

theorem FaultLog.message_of_payload {r r' : FaultLog} (hreadable : r.Readable ↔ r'.Readable)
    (hpayload : r.payload = r'.payload) : r.message = r'.message := by
  simp only [message, hreadable, hpayload]

theorem SessionInfo.message_of_readable {r : SessionInfo} (h : r.Readable) :
    r.message = some r.payload := if_pos h

theorem FaultLog.message_of_readable {r : FaultLog} (h : r.Readable) : r.message = some r.payload :=
  if_pos h

theorem SessionInfo.message_congr {r r' : SessionInfo} (hended : ¬ r.Ended)
    (hhead : r.sessionType = r'.sessionType ∧ r.connector = r'.connector
      ∧ r.stopReason = r'.stopReason) : r.message = r'.message := by
  have hended' : ¬ r'.Ended := by
    rw [Ended, ← hhead.1]
    exact hended
  refine message_of_payload (iff_of_true (fun h => absurd h hended) fun h => absurd h hended') ?_
  rw [Ended] at hended hended'
  funext now
  simp only [payload, chargingSessionPayload]
  rw [if_neg hended, if_neg hended', hhead.1, hhead.2.1, hhead.2.2]

/-- A record whose message has only bytes of one sender gives the message of the sender. -/
theorem SessionInfo.Sourced.message_eq {r : SessionInfo} (h : r.Sourced source)
    (hall : ∀ k, r.UsesFrame k → source k = some x) : r.message = x.sessionInfo.message := by
  have hhead := h.head x (hall 1 (.inl rfl))
  by_cases hended : r.Ended
  · have hlater : ∀ k, 1 ≤ k ∧ k ≤ 9 → source k = some x := by
      intro k hk
      refine hall k ?_
      by_cases hone : k = 1
      · exact .inl hone
      · exact .inr ⟨hended, by omega⟩
    have hstart : r.startDateTime = x.date 9 := by
      funext j
      exact h.startDate j x (hlater _ (by omega))
    have hend : r.endDateTime = x.date 35 := by
      funext j
      exact h.endDate j x (hlater _ (by omega))
    have hpercentage := h.percentage x (hlater 4 (by omega))
    have henergy := h.energy x (hlater 8 (by omega))
    have htotals := h.totals x (hlater 9 (by omega))
    apply message_of_payload
    · rw [Readable, Ended, hhead.1, hstart, hend]
      rfl
    · funext now
      simp only [payload, chargingSessionPayload]
      rw [hhead.1, hhead.2.1, hhead.2.2, hstart, hend, hpercentage, henergy, htotals.1, htotals.2.1,
        htotals.2.2.1, htotals.2.2.2]
      rfl
  · exact message_congr hended hhead

theorem FaultLog.Sourced.message_eq {r : FaultLog} (h : r.Sourced source)
    (hall : ∀ k, 1 ≤ k → k ≤ 8 → source k = some x)
    (hcode : x.byte 8 = 0xFF → r.faultCode = 0xFF) : r.message = x.faultLog.message := by
  have hhead := h.head x (hall 1 (by omega) (by omega))
  have hcode' : r.faultCode = x.faultLog.faultCode := by
    by_cases hsent : x.byte 8 = 0xFF
    · rw [hcode hsent, SentRecord.faultLog, hsent]
      rfl
    · exact hhead.2.2 hsent
  have hoccurance : r.occuranceDateTime = x.date 9 := by
    funext j
    exact h.occuranceDate j x (hall _ (by omega) (by omega))
  have hclearance : r.clearanceDateTime = x.date 34 := by
    funext j
    exact h.clearanceDate j x (hall _ (by omega) (by omega))
  apply message_of_payload
  · rw [Readable, hoccurance, hclearance]
    rfl
  · simp only [payload, faultLogPayload, faultLogFile]
    rw [hhead.1, hhead.2.1, hcode', hoccurance, hclearance]
    rfl

theorem handleSessionInfo_completes {data : Frame} {toggle : Nat}
    (hcompletes : completesSession toggle data) (r : SessionInfo) :
    (handleSessionInfo data toggle r).2.chargingSessionOccured = !r.chargingSessionOccured := by
  rw [handleSessionInfo]
  rcases hcompletes with ⟨hone, htoggle⟩ | ⟨hnine, htoggle⟩
  · rw [hone]
    show SessionInfo.chargingSessionOccured (if _ then _ else _) = _
    rw [if_pos htoggle]
    rfl
  · rw [hnine]
    show SessionInfo.chargingSessionOccured (if _ then _ else _) = _
    rw [if_pos htoggle]
    rfl

theorem handleSessionInfo_continues {data : Frame} {toggle : Nat}
    (hcontinues : ¬ completesSession toggle data) (r : SessionInfo) :
    (handleSessionInfo data toggle r).2.chargingSessionOccured = r.chargingSessionOccured := by
  rw [completesSession, not_or, not_and, not_and] at hcontinues
  rw [handleSessionInfo]
  split
  case h_1 hone =>
    show SessionInfo.chargingSessionOccured (if _ then _ else _) = _
    rw [if_neg (hcontinues.1 hone)]
  case h_9 hnine =>
    show SessionInfo.chargingSessionOccured (if _ then _ else _) = _
    rw [if_neg (hcontinues.2 hnine)]
  all_goals rfl

/-- A frame that the message has no field of, and that completes nothing, leaves the message. -/
theorem handleSessionInfo_unused {toggle : Nat} {r : SessionInfo} {data : Frame}
    (hunused : ¬ r.UsesFrame (data 0).toNat) :
    (handleSessionInfo data toggle r).2.message = r.message := by
  rw [SessionInfo.UsesFrame, not_or] at hunused
  have hhead := handleSessionInfo_head hunused.1 toggle r
  by_cases hended : r.Ended
  · have hother : ¬ (2 ≤ (data 0).toNat ∧ (data 0).toNat ≤ 9) := fun hin => hunused.2 ⟨hended, hin⟩
    rw [handleSessionInfo]
    split
    case h_10 => rfl
    all_goals omega
  · refine SessionInfo.message_congr ?_ hhead
    rw [SessionInfo.Ended, hhead.1]
    exact hended

/-- The message of a session that its first frame completes is that of the sender. -/
theorem handleSessionInfo_first {toggle : Nat} (hn : n.toNat = 1)
    (hcompletes : completesSession toggle (x.frame n)) (r : SessionInfo) :
    (handleSessionInfo (x.frame n) toggle r).2.message = some x.sessionInfo.payload := by
  have hone : n = 1 := UInt8.toNat_inj.mp hn
  subst hone
  have htoggle : toggleOfType x.sessionType toggle = 1 ∨ toggleOfType x.sessionType toggle = 4 := by
    rcases hcompletes with ⟨-, htoggle⟩ | ⟨hnine, -⟩
    · exact htoggle
    · exact absurd (show (1 : UInt8).toNat = 9 from hnine) (by decide)
  have hended : ¬ x.sessionInfo.Ended := by
    intro hended
    have htwo : toggleOfType x.sessionType toggle = 2 := by
      rcases hended with htype | htype
      · rw [toggleOfType, show x.sessionType = 2 from htype]
        rfl
      · rw [toggleOfType, show x.sessionType = 3 from htype]
        rfl
    omega
  rw [← SessionInfo.message_of_readable (r := x.sessionInfo) fun h => absurd h hended]
  symm
  refine SessionInfo.message_congr hended ?_
  show _ = SessionInfo.sessionType (if _ then _ else _)
    ∧ _ = SessionInfo.connector (if _ then _ else _)
    ∧ _ = SessionInfo.stopReason (if _ then _ else _)
  split
  · exact ⟨rfl, rfl, rfl⟩
  · exact ⟨rfl, rfl, rfl⟩

theorem handleFaultLog_completes {data : Frame} (hlast : (data 0).toNat = 8) (r : FaultLog) :
    (handleFaultLog data r).faultLogDataExchanged = !r.faultLogDataExchanged
      ∧ (handleFaultLog data r).faultCode = r.faultCode := by
  rw [handleFaultLog, hlast]
  exact ⟨rfl, rfl⟩

theorem handleFaultLog_continues {data : Frame} (hlast : (data 0).toNat ≠ 8) (r : FaultLog) :
    (handleFaultLog data r).faultLogDataExchanged = r.faultLogDataExchanged := by
  rw [handleFaultLog]
  split
  case h_8 hn => exact absurd hn hlast
  all_goals rfl

theorem handleFaultLog_other {data : Frame} (hother : ¬ (1 ≤ (data 0).toNat ∧ (data 0).toNat ≤ 8))
    (r : FaultLog) : handleFaultLog data r = r := by
  rw [handleFaultLog]
  split
  case h_9 => rfl
  all_goals omega

end Messages

/-! ### Calm runs -/

namespace ObservedExchange

abbrev sessionBit : SessionInfo → Bool := SessionInfo.chargingSessionOccured

abbrev faultBit : FaultLog → Bool := FaultLog.faultLogDataExchanged

/-- A frame is received when the record has been copied since it was completed, or when it changes
nothing of the message; a session is completed with all frames of its message from one sender, whose
dates have a NUL. -/
def CalmSession (x : SentRecord) (n : UInt8) (s : ObservedExchange) : Prop :=
  (sessionBit s.sessions.producer = sessionBit s.sessions.shared
      ∨ ¬ s.sessions.producer.UsesFrame n.toNat
        ∧ ¬ completesSession s.toggleChargingSession (x.frame n))
    ∧ (n.toNat = 9 → s.toggleChargingSession = 2 →
      (∀ k, k ≠ 9 → s.sessions.producer.UsesFrame k → s.sessionSource k = some x)
        ∧ x.sessionInfo.Readable)

/-- The same of faults, which have to bring a code when the record has one. -/
def CalmFault (x : SentRecord) (n : UInt8) (s : ObservedExchange) : Prop :=
  (faultBit s.faults.producer = faultBit s.faults.shared ∨ ¬ (1 ≤ n.toNat ∧ n.toNat ≤ 8))
    ∧ (n.toNat = 8 → (∀ k, 1 ≤ k → k ≤ 7 → s.faultSource k = some x)
      ∧ (x.byte 8 = 0xFF → s.faults.producer.faultCode = 0xFF) ∧ x.faultLog.Readable)

/-- What has to hold for an event not to lose or mix records. -/
def Calm : Exchange.Event → ObservedExchange → Prop
  | .sessionFrame x n, s => s.CalmSession x n
  | .faultFrame x n, s => s.CalmFault x n
  | .canCopy, s => s.sessions.MayCopy sessionBit SessionInfo.message
      ∧ s.faults.MayCopy faultBit FaultLog.message
  | .mqttIteration _, _ => True

/-- What holds in every state of a calm run. -/
structure Inv (s : ObservedExchange) : Prop where
  gates : s.chargerConfigReceived = true ∧ s.pmuEnable = true ∧ s.receivedConfigDataMQTT = true
  sessionSource : s.sessions.producer.Sourced s.sessionSource
  faultSource : s.faults.producer.Sourced s.faultSource
  sessions : s.sessions.Balanced sessionBit SessionInfo.message
    (s.completedSessions.map fun x => some x.sessionInfo.payload)
  faults : s.faults.Balanced faultBit FaultLog.message
    (s.completedFaults.map fun x => some x.faultLog.payload)

variable {s : ObservedExchange} {x : SentRecord} {n : UInt8}

theorem powerOn_inv (estimatedCost : ℚ) : (powerOn estimatedCost).Inv where
  gates := ⟨rfl, rfl, rfl⟩
  sessionSource := ⟨.none rfl, fun _ => .none rfl, .none rfl, fun _ => .none rfl, .none rfl, .none rfl⟩
  faultSource := ⟨.none rfl, fun _ => .none rfl, fun _ => .none rfl⟩
  sessions := ⟨rfl, rfl⟩
  faults := ⟨rfl, rfl⟩

/-- The record that a frame completes gives the message of the sender of the frame. -/
theorem Inv.completed_message (h : s.Inv) (hcalm : s.CalmSession x n)
    (hcompletes : completesSession s.toggleChargingSession (x.frame n)) :
    (handleSessionInfo (x.frame n) s.toggleChargingSession s.sessions.producer).2.message
      = some x.sessionInfo.payload := by
  rcases hcompletes with ⟨hone, htoggle⟩ | ⟨hnine, htoggle⟩
  · exact handleSessionInfo_first hone (.inl ⟨hone, htoggle⟩) _
  · have hnine : n.toNat = 9 := hnine
    have hlater : (x.frame n 0).toNat ≠ 1 := by
      show n.toNat ≠ 1
      omega
    have hhead := handleSessionInfo_head hlater s.toggleChargingSession s.sessions.producer
    obtain ⟨hsources, hreadable⟩ := hcalm.2 hnine htoggle
    rw [← SessionInfo.message_of_readable hreadable]
    refine (h.sessionSource.handle s.toggleChargingSession).message_eq fun k huses => ?_
    rw [sourceOfSession_of_ne (by omega), hnine]
    by_cases hk : k = 9
    · rw [hk, Function.update_self]
    · rw [Function.update_of_ne hk]
      rw [SessionInfo.UsesFrame, SessionInfo.Ended, hhead.1] at huses
      exact hsources k hk huses

theorem Inv.sessionFrame (h : s.Inv) (hcalm : s.CalmSession x n) :
    (step (.sessionFrame x n) s).Inv := by
  have hbalanced := h.sessions.produce
    (v := (handleSessionInfo (x.frame n) s.toggleChargingSession s.sessions.producer).2) (by
      rcases hcalm.1 with hcopied | ⟨hunused, hcontinues⟩
      · exact .inl hcopied
      · exact .inr ⟨handleSessionInfo_continues hcontinues _, handleSessionInfo_unused hunused⟩)
  refine ⟨h.gates, h.sessionSource.handle _, h.faultSource, ?_, h.faults⟩
  show Link.Balanced _ _ (s.sessions.produce (handleSessionInfo (x.frame n)
      s.toggleChargingSession s.sessions.producer).2)
    (List.map _ (if sessionBit (handleSessionInfo (x.frame n) s.toggleChargingSession
        s.sessions.producer).2 = sessionBit s.sessions.producer then s.completedSessions
      else s.completedSessions ++ [x]))
  by_cases hcompletes : completesSession s.toggleChargingSession (x.frame n)
  · have hflip : ¬ sessionBit (handleSessionInfo (x.frame n) s.toggleChargingSession
        s.sessions.producer).2 = sessionBit s.sessions.producer := by
      rw [sessionBit, handleSessionInfo_completes hcompletes]
      exact Bool.not_ne_self _
    rw [if_neg hflip, h.completed_message hcalm hcompletes] at hbalanced
    rw [if_neg hflip, List.map_append, List.map_singleton]
    exact hbalanced
  · have hkeep := handleSessionInfo_continues hcompletes s.sessions.producer
    rw [if_pos hkeep] at hbalanced
    rw [if_pos hkeep]
    exact hbalanced

theorem Inv.faultFrame (h : s.Inv) (hcalm : s.CalmFault x n) : (step (.faultFrame x n) s).Inv := by
  have hsourced := h.faultSource.handle (x := x) (n := n)
  have hbalanced := h.faults.produce (v := handleFaultLog (x.frame n) s.faults.producer) (by
    rcases hcalm.1 with hcopied | hother
    · exact .inl hcopied
    · have hother : ¬ (1 ≤ (x.frame n 0).toNat ∧ (x.frame n 0).toNat ≤ 8) := hother
      rw [handleFaultLog_other hother]
      exact .inr ⟨rfl, rfl⟩)
  refine ⟨h.gates, h.sessionSource, hsourced, h.sessions, ?_⟩
  show Link.Balanced _ _ (s.faults.produce (handleFaultLog (x.frame n) s.faults.producer))
    (List.map _ (if faultBit (handleFaultLog (x.frame n) s.faults.producer)
        = faultBit s.faults.producer then s.completedFaults
      else s.completedFaults ++ [x]))
  by_cases hlast : (x.frame n 0).toNat = 8
  · obtain ⟨hbit, hcode⟩ := handleFaultLog_completes hlast s.faults.producer
    have hlast : n.toNat = 8 := hlast
    have hflip : ¬ faultBit (handleFaultLog (x.frame n) s.faults.producer)
        = faultBit s.faults.producer := by
      rw [faultBit, hbit]
      exact Bool.not_ne_self _
    have hmessage : (handleFaultLog (x.frame n) s.faults.producer).message
        = some x.faultLog.payload := by
      rw [← FaultLog.message_of_readable (hcalm.2 hlast).2.2]
      refine hsourced.message_eq (fun k hk hk' => ?_) fun hunsent => ?_
      · rw [hlast]
        by_cases hk8 : k = 8
        · rw [hk8, Function.update_self]
        · rw [Function.update_of_ne hk8]
          exact (hcalm.2 hlast).1 k hk (by omega)
      · rw [hcode]
        exact (hcalm.2 hlast).2.1 hunsent
    rw [if_neg hflip, hmessage] at hbalanced
    rw [if_neg hflip, List.map_append, List.map_singleton]
    exact hbalanced
  · have hkeep := handleFaultLog_continues hlast s.faults.producer
    rw [if_pos hkeep] at hbalanced
    rw [if_pos hkeep]
    exact hbalanced

theorem copyToIPC_eq (h : s.Inv) :
    step .canCopy s = { s with sessions := s.sessions.copyOut, faults := s.faults.copyOut } := by
  rw [step, Exchange.copyToIPC, h.gates.1, if_pos rfl]

/-- An iteration of `mqtt_task` that gets the mutex fetches both records. -/
theorem mqttIteration_eq (h : s.Inv) :
    step (.mqttIteration true) s = { s with
      sessions := s.sessions.fetch.compare sessionBit
      faults := s.faults.fetch.compare faultBit } := by
  obtain ⟨-, henable, hconfig⟩ := h.gates
  rw [step, Exchange.mqttIteration, if_pos rfl, Exchange.publishRecords, Exchange.copyToMQTT]
  simp only [henable, hconfig, Bool.and_self, if_true]

theorem mqttIteration_skipped (h : s.Inv) :
    step (.mqttIteration false) s = { s with
      sessions := s.sessions.compare sessionBit
      faults := s.faults.compare faultBit } := by
  obtain ⟨-, henable, hconfig⟩ := h.gates
  rw [step, Exchange.mqttIteration, if_neg Bool.false_ne_true, Exchange.publishRecords]
  simp only [henable, hconfig, Bool.and_self, if_true]

theorem Inv.step_inv (h : s.Inv) {event : Exchange.Event} (hcalm : Calm event s) :
    (step event s).Inv := by
  cases event with
  | sessionFrame x n => exact h.sessionFrame hcalm
  | faultFrame x n => exact h.faultFrame hcalm
  | canCopy =>
      rw [copyToIPC_eq h]
      exact ⟨h.gates, h.sessionSource, h.faultSource, h.sessions.copyOut hcalm.1,
        h.faults.copyOut hcalm.2⟩
  | mqttIteration mutexTaken =>
      cases mutexTaken with
      | true =>
          rw [mqttIteration_eq h]
          refine ⟨h.gates, ?_, ?_, h.sessions.fetch_compare.1, h.faults.fetch_compare.1⟩
          · show SessionInfo.Sourced _ (s.sessions.fetch.compare sessionBit).producer
            rw [Link.compare_producer]
            exact h.sessionSource
          · show FaultLog.Sourced _ (s.faults.fetch.compare faultBit).producer
            rw [Link.compare_producer]
            exact h.faultSource
      | false =>
          rw [mqttIteration_skipped h]
          refine ⟨h.gates, ?_, ?_, h.sessions.compare, h.faults.compare⟩
          · show SessionInfo.Sourced _ (s.sessions.compare sessionBit).producer
            rw [Link.compare_producer]
            exact h.sessionSource
          · show FaultLog.Sourced _ (s.faults.compare faultBit).producer
            rw [Link.compare_producer]
            exact h.faultSource

/-- An iteration of `mqtt_task`, a copy of `can_task` and another iteration. -/
def passOn : List Exchange.Event := [.mqttIteration true, .canCopy, .mqttIteration true]

/-- When everything has been passed on, a message was made of each completed record. -/
theorem Inv.passOn_handled (h : s.Inv) :
    (run passOn s).sessions.handled.map SessionInfo.message
        = s.completedSessions.map (fun x => some x.sessionInfo.payload)
      ∧ (run passOn s).faults.handled.map FaultLog.message
        = s.completedFaults.map fun x => some x.faultLog.payload := by
  have hfirst : (step (.mqttIteration true) s).Inv := h.step_inv trivial
  have hcopied := copyToIPC_eq hfirst
  have hcopy : (step .canCopy (step (.mqttIteration true) s)).Inv := by
    refine hfirst.step_inv ⟨.inl ?_, .inl ?_⟩
    · rw [mqttIteration_eq h]
      exact h.sessions.fetch_compare.2
    · rw [mqttIteration_eq h]
      exact h.faults.fetch_compare.2
  show (step (.mqttIteration true) (step .canCopy (step (.mqttIteration true) s))).sessions.handled.map
        _ = _ ∧ (step (.mqttIteration true)
          (step .canCopy (step (.mqttIteration true) s))).faults.handled.map _ = _
  rw [mqttIteration_eq hcopy, hcopied, mqttIteration_eq h]
  exact ⟨h.sessions.drained, h.faults.drained⟩

/-- In a calm run messages are made of completed records only, of each one once and in order, and each
is determined by the fields of its own record. -/
theorem records_become_messages (estimatedCost : ℚ) (events : List Exchange.Event)
    (hcalm : Runs.Meets (fun event s => some (step event s)) Calm events (powerOn estimatedCost)) :
    let s := run events (powerOn estimatedCost)
    s.sessions.handled.map SessionInfo.message
        <+: s.completedSessions.map (fun x => some x.sessionInfo.payload)
      ∧ s.faults.handled.map FaultLog.message
        <+: s.completedFaults.map (fun x => some x.faultLog.payload)
      ∧ (run passOn s).sessions.handled.map SessionInfo.message
        = s.completedSessions.map (fun x => some x.sessionInfo.payload)
      ∧ (run passOn s).faults.handled.map FaultLog.message
        = s.completedFaults.map fun x => some x.faultLog.payload := by
  intro s
  have hinv : s.Inv := Runs.foldl_invariant (fun _ _ hs hcalm => hs.step_inv hcalm)
    (powerOn_inv estimatedCost) hcalm
  exact ⟨hinv.sessions.handled_prefix, hinv.faults.handled_prefix, hinv.passOn_handled⟩

/-! ### Sessions in a row -/

/-- A session of the given type. -/
def sampleSession (sessionType connector : UInt8) : SentRecord :=
  ⟨fun k => if k = 7 then connector * 16 + sessionType else 0⟩

theorem session_becomes_message :
    let s := run ([1, 2, 3, 4, 5, 6, 7, 8, 9].map (.sessionFrame (sampleSession 2 1)) ++ [.canCopy])
      (powerOn 0)
    s.sessions.handled.map SessionInfo.message
        <+: s.completedSessions.map (fun x => some x.sessionInfo.payload)
      ∧ s.faults.handled.map FaultLog.message
        <+: s.completedFaults.map (fun x => some x.faultLog.payload)
      ∧ (run passOn s).sessions.handled.map SessionInfo.message
        = s.completedSessions.map (fun x => some x.sessionInfo.payload)
      ∧ (run passOn s).faults.handled.map FaultLog.message
        = s.completedFaults.map fun x => some x.faultLog.payload := by
  have hearly : ∀ (n : UInt8) (s : ObservedExchange), n.toNat ≠ 9 →
      sessionBit s.sessions.producer = sessionBit s.sessions.shared →
      Calm (.sessionFrame (sampleSession 2 1) n) s :=
    fun n s hn hcopied => ⟨.inl hcopied, fun h9 => absurd h9 hn⟩
  refine records_become_messages 0 _ ?_
  iterate 8 refine Runs.meets_some_cons.mpr ⟨hearly _ _ (by decide) rfl, ?_⟩
  have hreadable : (sampleSession 2 1).sessionInfo.Readable := fun _ => ⟨⟨0, rfl⟩, 0, rfl⟩
  refine Runs.meets_some_cons.mpr ⟨⟨.inl rfl, fun _ _ => ⟨fun k hk huses => ?_, hreadable⟩⟩,
    Runs.meets_some_cons.mpr ⟨⟨.inl rfl, .inl rfl⟩, trivial⟩⟩
  have hrange : 1 ≤ k ∧ k ≤ 8 := by
    rcases huses with rfl | ⟨-, hlow, hhigh⟩ <;> omega
  obtain ⟨hlow, hhigh⟩ := hrange
  interval_cases k <;> rfl

/-- Two sessions that are copied before `mqtt_task` looks again are both lost. -/
theorem two_sessions_are_lost :
    let s := run [.sessionFrame (sampleSession 4 1) 1, .canCopy,
      .sessionFrame (sampleSession 4 2) 1, .canCopy] (powerOn 0)
    (run passOn s).sessions.handled.map SessionInfo.message
      ≠ s.completedSessions.map fun x => some x.sessionInfo.payload := by
  intro s h
  have hhandled : ((run passOn s).sessions.handled.map SessionInfo.message).length = 0 := rfl
  rw [h] at hhandled
  have hcompleted : (s.completedSessions.map fun x => some x.sessionInfo.payload).length = 2 := rfl
  omega

end ObservedExchange

end Pmu
