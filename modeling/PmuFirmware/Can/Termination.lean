import PmuFirmware.Can.Fields
import PmuFirmware.Lib.Latest

/-!
# Which arrays stay terminated

The frames of the configuration, of sessions and of faults in any order, and what they must bring so
that each character array that is read as a C string has a NUL within its bounds. The strings that are
copied get one each time. The serial number and the dates are arrays of raw bytes: each byte of them is
the one that the last frame for it has brought.
-/

namespace Pmu

open CLib Latest

/-! ### Raw bytes -/

/-- The bytes of an array that a frame brings: `count` of them from `start` on, which are in the frame
from `first` on. -/
structure Slice where
  start : Nat
  first : Nat
  count : Nat

def Slice.write (data : Frame) (a : CharArray 25) (x : Slice) : CharArray 25 :=
  setBytes x.start data x.first x.count a

def serialSlice : Nat → Option Slice
  | 1 => some ⟨0, 4, 4⟩
  | 2 => some ⟨4, 1, 7⟩
  | 3 => some ⟨11, 1, 7⟩
  | 4 => some ⟨18, 1, 7⟩
  | _ => none

/-- The byte `n` of what is sent in frames of seven bytes, if the frame brings it. -/
def byteOf (n : Nat) (data : Frame) : Option UInt8 :=
  if (data 0).toNat = n / 7 then some (data (Fin.ofNat 8 (n % 7 + 1))) else none

section Bytes

variable {data : Frame} {a : CharArray 25} {j : Fin 25}

theorem byteChar_injective : Function.Injective byteChar := by
  have hvalid : ∀ b : UInt8, b.toNat.isValidChar := fun b => by
    have hlt := b.toNat_lt
    exact .inl (by omega)
  intro b b' h
  have hnat := congrArg Char.toNat h
  rw [byteChar, byteChar, Char.toNat_ofNat, Char.toNat_ofNat, if_pos (hvalid b),
    if_pos (hvalid b')] at hnat
  exact UInt8.toNat_inj.mp hnat

theorem byteChar_eq_nul_iff (b : UInt8) : byteChar b = NUL ↔ b = 0 :=
  byteChar_injective.eq_iff (b := 0)

/-- Of an array whose bytes are sent from `first` on, a frame sets those it brings. -/
theorem setBytes_eq {first start begin count k : Nat} (hk : (data 0).toNat = k)
    (hbytes : first + start + 1 = 7 * k + begin ∧ 1 ≤ begin ∧ begin + count ≤ 8)
    (hrange : ∀ j < 25, (first + j) / 7 = k ↔ start ≤ j ∧ j < start + count) :
    setBytes start data begin count a j = (byteOf (first + j) data).elim (a j) byteChar := by
  rw [byteOf, hk]
  by_cases hin : start ≤ j.val ∧ j.val < start + count
  · have hframe := (hrange j j.isLt).mpr hin
    rw [setBytes, if_pos hin, if_pos hframe.symm, Option.elim_some]
    rw [show begin + j.val - start = (first + j.val) % 7 + 1 by omega]
  · have hframe : ¬ k = (first + j.val) / 7 := fun h => hin ((hrange j j.isLt).mp h.symm)
    rw [setBytes, if_neg hin, if_neg hframe, Option.elim_none]

/-- A frame that brings none of them leaves the array. -/
theorem eq_byteOf_elim {first k : Nat} (hk : (data 0).toNat = k)
    (hother : ∀ j < 25, (first + j) / 7 ≠ k) :
    a j = (byteOf (first + j) data).elim (a j) byteChar := by
  rw [byteOf, hk, if_neg (hother j j.isLt).symm, Option.elim_none]

theorem serialNumber_eq (data : Frame) (c : ConfigNumbers) :
    (handleConfigNumbers data c).serialNumber
      = (serialSlice (data 0).toNat).elim c.serialNumber (Slice.write data c.serialNumber) := by
  rw [handleConfigNumbers]
  split
  case h_5 hn =>
    rw [hn, setParameter]
    split <;> rfl
  case h_6 =>
    unfold serialSlice
    split <;> first | rfl | contradiction
  all_goals
    rename_i hn
    rw [hn]
    rfl

theorem serialNumber_byte (c : ConfigNumbers) :
    (handleConfigNumbers data c).serialNumber j
      = (byteOf (10 + j) data).elim (c.serialNumber j) byteChar := by
  rw [serialNumber_eq]
  unfold serialSlice
  split
  · next hn =>
      show setBytes 0 data 4 4 c.serialNumber j = _
      exact setBytes_eq hn (by omega) (by omega)
  · next hn =>
      show setBytes 4 data 1 7 c.serialNumber j = _
      exact setBytes_eq hn (by omega) (by omega)
  · next hn =>
      show setBytes 11 data 1 7 c.serialNumber j = _
      exact setBytes_eq hn (by omega) (by omega)
  · next hn =>
      show setBytes 18 data 1 7 c.serialNumber j = _
      exact setBytes_eq hn (by omega) (by omega)
  · next h1 h2 h3 h4 =>
      have hnumber : (data 0).toNat ≠ 1 ∧ (data 0).toNat ≠ 2 ∧ (data 0).toNat ≠ 3
          ∧ (data 0).toNat ≠ 4 := ⟨h1, h2, h3, h4⟩
      exact eq_byteOf_elim rfl (by omega)

theorem occuranceDateTime_byte (r : FaultLog) :
    (handleFaultLog data r).occuranceDateTime j
      = (byteOf (9 + j) data).elim (r.occuranceDateTime j) byteChar := by
  rw [handleFaultLog]
  split
  · next hn => exact setBytes_eq hn (by omega) (by omega)
  · next hn => exact setBytes_eq hn (by omega) (by omega)
  · next hn => exact setBytes_eq hn (by omega) (by omega)
  · next hn => exact setBytes_eq hn (by omega) (by omega)
  · next hn => exact eq_byteOf_elim hn (by omega)
  · next hn => exact eq_byteOf_elim hn (by omega)
  · next hn => exact eq_byteOf_elim hn (by omega)
  · next hn => exact eq_byteOf_elim hn (by omega)
  · next h1 h2 h3 h4 h5 h6 h7 h8 =>
      have hnumber : (data 0).toNat ≠ 1 ∧ (data 0).toNat ≠ 2 ∧ (data 0).toNat ≠ 3
          ∧ (data 0).toNat ≠ 4 := ⟨h1, h2, h3, h4⟩
      exact eq_byteOf_elim rfl (by omega)

theorem clearanceDateTime_byte (r : FaultLog) :
    (handleFaultLog data r).clearanceDateTime j
      = (byteOf (34 + j) data).elim (r.clearanceDateTime j) byteChar := by
  rw [handleFaultLog]
  split
  · next hn => exact eq_byteOf_elim hn (by omega)
  · next hn => exact eq_byteOf_elim hn (by omega)
  · next hn => exact eq_byteOf_elim hn (by omega)
  · next hn => exact setBytes_eq hn (by omega) (by omega)
  · next hn => exact setBytes_eq hn (by omega) (by omega)
  · next hn => exact setBytes_eq hn (by omega) (by omega)
  · next hn => exact setBytes_eq hn (by omega) (by omega)
  · next hn => exact setBytes_eq hn (by omega) (by omega)
  · next h1 h2 h3 h4 h5 h6 h7 h8 =>
      have hnumber : (data 0).toNat ≠ 4 ∧ (data 0).toNat ≠ 5 ∧ (data 0).toNat ≠ 6
          ∧ (data 0).toNat ≠ 7 ∧ (data 0).toNat ≠ 8 := ⟨h4, h5, h6, h7, h8⟩
      exact eq_byteOf_elim rfl (by omega)

/-- The bytes of the first frame are 0xFF in the whole start date when the session has not started or
was cut off. -/
def startByteOf (n : Nat) (data : Frame) : Option UInt8 :=
  if (data 0).toNat = 1 ∧ ((data 1).toNat % 16 = initiatedButNotStarted
      ∨ (data 1).toNat % 16 = initiatedStartedPowerOutage) then some 0xFF
  else byteOf n data

theorem startByteOf_later {n k : Nat} (hk : (data 0).toNat = k) (hlater : k ≠ 1) :
    startByteOf n data = byteOf n data :=
  if_neg fun h => hlater (hk.symm.trans h.1)

theorem startDateTime_first (hn : (data 0).toNat = 1) (toggle : Nat) (r : SessionInfo) :
    (handleSessionInfo data toggle r).2.startDateTime
      = if (data 1).toNat % 16 = initiatedButNotStarted
            ∨ (data 1).toNat % 16 = initiatedStartedPowerOutage then fun _ => byteChar 0xFF
        else setBytes 0 data 3 5 r.startDateTime := by
  rw [handleSessionInfo, hn]
  show SessionInfo.startDateTime (if _ then _ else _) = _
  split
  · rfl
  · rfl

theorem startDateTime_byte (toggle : Nat) (r : SessionInfo) :
    (handleSessionInfo data toggle r).2.startDateTime j
      = (startByteOf (9 + j) data).elim (r.startDateTime j) byteChar := by
  by_cases hone : (data 0).toNat = 1
  · rw [startDateTime_first hone, startByteOf]
    by_cases hwipe : (data 1).toNat % 16 = initiatedButNotStarted
        ∨ (data 1).toNat % 16 = initiatedStartedPowerOutage
    · rw [if_pos hwipe, if_pos ⟨hone, hwipe⟩]
      rfl
    · rw [if_neg hwipe, if_neg fun h => hwipe h.2]
      exact setBytes_eq hone (by omega) (by omega)
  rw [handleSessionInfo]
  split
  · next hn => exact absurd hn hone
  · next hn =>
      rw [startByteOf_later hn (by decide)]
      exact setBytes_eq hn (by omega) (by omega)
  · next hn =>
      rw [startByteOf_later hn (by decide)]
      exact setBytes_eq hn (by omega) (by omega)
  · next hn =>
      rw [startByteOf_later hn (by decide)]
      exact setBytes_eq hn (by omega) (by omega)
  · next hn =>
      rw [startByteOf_later hn (by decide)]
      exact eq_byteOf_elim hn (by omega)
  · next hn =>
      rw [startByteOf_later hn (by decide)]
      exact eq_byteOf_elim hn (by omega)
  · next hn =>
      rw [startByteOf_later hn (by decide)]
      exact eq_byteOf_elim hn (by omega)
  · next hn =>
      rw [startByteOf_later hn (by decide)]
      exact eq_byteOf_elim hn (by omega)
  · next hn =>
      rw [startByteOf_later hn (by decide)]
      show SessionInfo.startDateTime (if _ then _ else _) j = _
      split
      · exact eq_byteOf_elim hn (by omega)
      · exact eq_byteOf_elim hn (by omega)
  · next h1 h2 h3 h4 h5 h6 h7 h8 h9 =>
      have hnumber : (data 0).toNat ≠ 1 ∧ (data 0).toNat ≠ 2 ∧ (data 0).toNat ≠ 3
          ∧ (data 0).toNat ≠ 4 := ⟨h1, h2, h3, h4⟩
      rw [startByteOf_later rfl hnumber.1]
      exact eq_byteOf_elim rfl (by omega)

theorem endDateTime_byte (toggle : Nat) (r : SessionInfo) :
    (handleSessionInfo data toggle r).2.endDateTime j
      = (byteOf (35 + j) data).elim (r.endDateTime j) byteChar := by
  rw [handleSessionInfo]
  split
  · next hn =>
      show SessionInfo.endDateTime (if _ then _ else _) j = _
      split
      · exact eq_byteOf_elim hn (by omega)
      · exact eq_byteOf_elim hn (by omega)
  · next hn => exact eq_byteOf_elim hn (by omega)
  · next hn => exact eq_byteOf_elim hn (by omega)
  · next hn => exact eq_byteOf_elim hn (by omega)
  · next hn => exact setBytes_eq hn (by omega) (by omega)
  · next hn => exact setBytes_eq hn (by omega) (by omega)
  · next hn => exact setBytes_eq hn (by omega) (by omega)
  · next hn => exact setBytes_eq hn (by omega) (by omega)
  · next hn =>
      show SessionInfo.endDateTime (if _ then _ else _) j = _
      split
      · exact eq_byteOf_elim hn (by omega)
      · exact eq_byteOf_elim hn (by omega)
  · next h1 h2 h3 h4 h5 h6 h7 h8 h9 =>
      have hnumber : (data 0).toNat ≠ 5 ∧ (data 0).toNat ≠ 6 ∧ (data 0).toNat ≠ 7
          ∧ (data 0).toNat ≠ 8 := ⟨h5, h6, h7, h8⟩
      exact eq_byteOf_elim rfl (by omega)

end Bytes

/-! ### Copied strings -/

/-- Every field that is copied has a NUL. -/
structure ConfigFields.Terminated (f : ConfigFields) : Prop where
  hmiVersion : f.hmiVersion.Terminated
  lcuVersion : f.lcuVersion.Terminated
  mcuVersion : f.mcuVersion.Terminated
  evseCommContoller : ∀ k, (f.evseCommContoller k).Terminated
  pcm : ∀ k, (f.pcm k).Terminated
  pmu : f.pmu.Terminated
  ocppURL : f.ocppURL.Terminated
  wifiSsid : f.wifiSsid.Terminated
  wifiPassword : f.wifiPassword.Terminated
  mqttBroker : f.mqttBroker.Terminated
  serialNumber2 : f.serialNumber2.Terminated
  dateTime : f.dateTime.Terminated

namespace ConfigFields.Terminated

variable {f : ConfigFields}

theorem token {n : Nat} {a : CharArray (n + 1)} (ha : a.Terminated) (token : Option CStr) :
    CharArray.Terminated (token.elim a (strncpyArray (n + 1))) := by
  cases token with
  | none => exact ha
  | some token => exact terminated_strncpyArray n token

theorem store (h : f.Terminated) (text : CStr) (flag : StringFlag) :
    (f.store text flag).Terminated := by
  cases flag with
  | flagVersionInfo =>
      exact { h with
        hmiVersion := token h.hmiVersion _
        lcuVersion := token h.lcuVersion _
        mcuVersion := token h.mcuVersion _
        evseCommContoller := fun k => token (h.evseCommContoller k) _ }
  | flagOcppUrl => exact { h with ocppURL := terminated_strncpyArray 99 text }
  | flagPmuInitial =>
      exact { h with
        wifiSsid := token h.wifiSsid _
        wifiPassword := token h.wifiPassword _ }
  | flagString => exact { h with serialNumber2 := terminated_strncpyArray 25 text }
  | flagDateTime => exact { h with dateTime := terminated_strncpyArray 24 text }

theorem deliver {s : ConfigMemory} (h : s.fields.Terminated) (flag : StringFlag) :
    (s.deliver flag).fields.Terminated := by
  show ConfigFields.Terminated (if s.flag flag && s.giveEntrytoPrint then _ else _)
  split
  · exact h.store s.text flag
  · exact h

/-- No frame leaves one of them without a NUL. -/
theorem handleChargerConfig {s s' : ConfigMemory} (h : s.fields.Terminated) {data : Frame}
    (hstep : s.handleChargerConfig data = some s') : s'.fields.Terminated := by
  obtain ⟨r, -, hs' | hs' | hs'⟩ := ConfigMemory.handleChargerConfig_cases hstep
  · rw [hs']
    exact h
  · have hr : (⟨r, s.fields⟩ : ConfigMemory).fields.Terminated := h
    rw [hs']
    exact deliver (deliver (deliver (deliver (deliver hr _) _) _) _) _
  · rw [hs']
    exact { h with mqttBroker := terminated_strncpyArray 99 r.text }

theorem powerOn : ConfigFields.powerOn.Terminated :=
  have hzero : ∀ n, CharArray.Terminated (fun _ : Fin (n + 1) => NUL) := fun _ => ⟨0, rfl⟩
  ⟨hzero 44, hzero 44, hzero 44, fun _ => hzero 44, fun _ => terminated_strncpyArray 29 _, hzero 44,
    hzero 99, hzero 49, hzero 99, hzero 99, hzero 25, hzero 24⟩

/-- So in every state that string frames lead to all of them have one. -/
theorem of_run {frames : List Frame} {s : ConfigMemory}
    (hrun : Runs.run ConfigMemory.handleChargerConfig frames .powerOn = some s) :
    s.fields.Terminated :=
  Runs.run_invariant
    (fun _ _ _ (h : ConfigFields.Terminated _) (_ : True) hstep => h.handleChargerConfig hstep)
    powerOn (Runs.Meets.of_forall fun _ _ _ => trivial) hrun

end ConfigFields.Terminated

/-! ### Runs -/

/-- What these frames write. `sessionComplete` is set by the last frame of a session of type 2 or 3, and
holds until the first frame of the next one. -/
structure CanMemory where
  config : ConfigNumbers
  strings : ConfigMemory
  toggleChargingSession : Nat
  session : SessionInfo
  fault : FaultLog
  sessionComplete : Bool

/-- The frame is the last one of a session that has ended. -/
def SessionInfo.completes (r : SessionInfo) (data : Frame) : Bool :=
  (data 0).toNat = 9 && (r.sessionType = initiatedStartedNormalTermination
    || r.sessionType = initiatedStartedFaultyTermination)

namespace CanMemory

def handleSession (data : Frame) (s : CanMemory) : CanMemory :=
  let (toggle, session) := handleSessionInfo data s.toggleChargingSession s.session
  { s with
    toggleChargingSession := toggle
    session := session
    sessionComplete :=
      (data 0).toNat ≠ 1 && (s.sessionComplete || s.session.completes data) }

/-- `receive_can_message` -/
def step (m : CanMessage) (s : CanMemory) : Option CanMemory :=
  if m.identifier = SESSION_INFO_ID then some (s.handleSession m.data)
  else if m.identifier = CHARGER_CONFIG_ID then
    (s.strings.handleChargerConfig m.data).map fun strings =>
      { s with strings := strings, config := handleConfigNumbers m.data s.config }
  else if m.identifier = FAULT_LOG then some { s with fault := handleFaultLog m.data s.fault }
  else some s

/-- The initialisation in `app_main`. -/
def powerOn (estimatedCost : ℚ) : CanMemory where
  config := .powerOn
  strings := .powerOn
  toggleChargingSession := 0
  session := .powerOn estimatedCost
  fault := .powerOn
  sessionComplete := false

/-- Every array that is read as a C string has a NUL. -/
structure AllTerminated (s : CanMemory) : Prop where
  serialNumber : s.config.serialNumber.Terminated
  fields : s.strings.fields.Terminated
  sessionDates : s.sessionComplete = true →
    s.session.startDateTime.Terminated ∧ s.session.endDateTime.Terminated
  occuranceDateTime : s.fault.occuranceDateTime.Terminated
  clearanceDateTime : s.fault.clearanceDateTime.Terminated

/-! ### What the frames have brought -/

/-- What the last message under the identifier that brings the byte has brought. -/
def lastByte (identifier : Nat) (byte : Frame → Option UInt8) (messages : List CanMessage) :
    Option UInt8 :=
  latest (fun m => if m.identifier = identifier then byte m.data else none) messages

/-- The type in the last first frame of a session. -/
def lastSessionType (messages : List CanMessage) : Option Nat :=
  latest (fun m =>
    if m.identifier = SESSION_INFO_ID ∧ (m.data 0).toNat = 1 then some ((m.data 1).toNat % 16)
    else none) messages

/-- The number of the last first or last frame of a session. -/
def lastBound (messages : List CanMessage) : Option Nat :=
  latest (fun m =>
    if m.identifier = SESSION_INFO_ID ∧ ((m.data 0).toNat = 1 ∨ (m.data 0).toNat = 9) then
      some (m.data 0).toNat
    else none) messages

/-- The last frame of a session of type 2 or 3 has come, and no first frame after it. -/
def SessionEnded (messages : List CanMessage) : Prop :=
  lastBound messages = some 9
    ∧ (lastSessionType messages = some initiatedStartedNormalTermination
      ∨ lastSessionType messages = some initiatedStartedFaultyTermination)

/-- What `app_main` sets the bytes of the session dates to. -/
def sessionDateInit (j : Fin 25) : UInt8 := if j.val = 24 then 0 else 0xFF

/-- In each array one of the bytes that came last is zero, or one that has not come and was so at the
start. -/
structure BroughtNuls (messages : List CanMessage) : Prop where
  serialNumber : ∃ j : Fin 25, (lastByte CHARGER_CONFIG_ID (byteOf (10 + j)) messages).getD 0 = 0
  sessionDates : SessionEnded messages →
    (∃ j : Fin 25, (lastByte SESSION_INFO_ID (startByteOf (9 + j)) messages).getD (sessionDateInit j) = 0)
      ∧ ∃ j : Fin 25, (lastByte SESSION_INFO_ID (byteOf (35 + j)) messages).getD (sessionDateInit j) = 0
  occuranceDateTime : ∃ j : Fin 25, (lastByte FAULT_LOG (byteOf (9 + j)) messages).getD 0 = 0
  clearanceDateTime : ∃ j : Fin 25, (lastByte FAULT_LOG (byteOf (34 + j)) messages).getD 0 = 0

/-- What the memory holds of them. -/
structure Holds (messages : List CanMessage) (s : CanMemory) : Prop where
  serialNumber : ∀ j : Fin 25, s.config.serialNumber j
    = byteChar ((lastByte CHARGER_CONFIG_ID (byteOf (10 + j)) messages).getD 0)
  fields : s.strings.fields.Terminated
  startDateTime : ∀ j : Fin 25, s.session.startDateTime j
    = byteChar ((lastByte SESSION_INFO_ID (startByteOf (9 + j)) messages).getD (sessionDateInit j))
  endDateTime : ∀ j : Fin 25, s.session.endDateTime j
    = byteChar ((lastByte SESSION_INFO_ID (byteOf (35 + j)) messages).getD (sessionDateInit j))
  sessionType : s.session.sessionType = (lastSessionType messages).getD 4294967295
  sessionComplete : s.sessionComplete = true ↔ SessionEnded messages
  occuranceDateTime : ∀ j : Fin 25, s.fault.occuranceDateTime j
    = byteChar ((lastByte FAULT_LOG (byteOf (9 + j)) messages).getD 0)
  clearanceDateTime : ∀ j : Fin 25, s.fault.clearanceDateTime j
    = byteChar ((lastByte FAULT_LOG (byteOf (34 + j)) messages).getD 0)

/-! ### One message -/

variable {s : CanMemory} {m : CanMessage} {messages : List CanMessage}

theorem step_sessionInfo (hm : m.identifier = SESSION_INFO_ID) :
    step m s = some (s.handleSession m.data) := if_pos hm

theorem step_chargerConfig (hm : m.identifier = CHARGER_CONFIG_ID) :
    step m s = (s.strings.handleChargerConfig m.data).map fun strings =>
      { s with strings := strings, config := handleConfigNumbers m.data s.config } := by
  rw [step, hm]
  rfl

theorem step_faultLog (hm : m.identifier = FAULT_LOG) :
    step m s = some { s with fault := handleFaultLog m.data s.fault } := by
  rw [step, hm]
  rfl

section Byte

variable {identifier : Nat} {byte : Frame → Option UInt8} {init : UInt8} {c c' : Char}

/-- A message with another identifier leaves a byte. -/
theorem byte_skip (hc : c = byteChar ((lastByte identifier byte messages).getD init))
    (hm : m.identifier ≠ identifier) :
    c = byteChar ((lastByte identifier byte (messages ++ [m])).getD init) := by
  rw [hc, lastByte, lastByte, latest_snoc, if_neg hm, Option.none_or]

/-- One with the identifier sets it if it brings it. -/
theorem byte_set (hc : c = byteChar ((lastByte identifier byte messages).getD init))
    (hm : m.identifier = identifier) (hc' : c' = (byte m.data).elim c byteChar) :
    c' = byteChar ((lastByte identifier byte (messages ++ [m])).getD init) := by
  rw [hc', hc, lastByte, lastByte, latest_snoc, if_pos hm]
  cases byte m.data with
  | none => rw [Option.none_or, Option.elim_none]
  | some b => rw [Option.some_or, Option.elim_some, Option.getD_some]

end Byte

theorem sessionDate_powerOn (j : Fin 25) :
    (if j.val = 24 then NUL else byteChar 0xFF) = byteChar (sessionDateInit j) :=
  (apply_ite byteChar (j.val = 24) 0 0xFF).symm

theorem powerOn_holds (estimatedCost : ℚ) : Holds [] (powerOn estimatedCost) where
  serialNumber _ := rfl
  fields := .powerOn
  startDateTime := sessionDate_powerOn
  endDateTime := sessionDate_powerOn
  sessionType := rfl
  sessionComplete := iff_of_false Bool.false_ne_true fun h => absurd h.1 (Option.some_ne_none 9).symm
  occuranceDateTime _ := rfl
  clearanceDateTime _ := rfl

/-- A message that is none of sessions leaves what the session frames have brought. -/
theorem Holds.session_skip (h : Holds messages s) (hm : m.identifier ≠ SESSION_INFO_ID) :
    (∀ j : Fin 25, s.session.startDateTime j = byteChar
        ((lastByte SESSION_INFO_ID (startByteOf (9 + j)) (messages ++ [m])).getD (sessionDateInit j)))
      ∧ (∀ j : Fin 25, s.session.endDateTime j = byteChar
        ((lastByte SESSION_INFO_ID (byteOf (35 + j)) (messages ++ [m])).getD (sessionDateInit j)))
      ∧ s.session.sessionType = (lastSessionType (messages ++ [m])).getD 4294967295
      ∧ (s.sessionComplete = true ↔ SessionEnded (messages ++ [m])) := by
  have htype : lastSessionType (messages ++ [m]) = lastSessionType messages := by
    rw [lastSessionType, latest_snoc, if_neg fun h => hm h.1]
    rfl
  have hbound : lastBound (messages ++ [m]) = lastBound messages := by
    rw [lastBound, latest_snoc, if_neg fun h => hm h.1]
    rfl
  rw [SessionEnded, htype, hbound]
  exact ⟨fun j => byte_skip (h.startDateTime j) hm, fun j => byte_skip (h.endDateTime j) hm,
    h.sessionType, h.sessionComplete⟩

theorem Holds.faultLog (h : Holds messages s) (hm : m.identifier = FAULT_LOG) :
    Holds (messages ++ [m]) { s with fault := handleFaultLog m.data s.fault } := by
  have hsession : m.identifier ≠ SESSION_INFO_ID := by
    rw [hm]
    decide
  have hconfig : m.identifier ≠ CHARGER_CONFIG_ID := by
    rw [hm]
    decide
  obtain ⟨hstart, hend, htype, hcomplete⟩ := h.session_skip hsession
  exact ⟨fun j => byte_skip (h.serialNumber j) hconfig, h.fields, hstart, hend, htype, hcomplete,
    fun j => byte_set (h.occuranceDateTime j) hm (occuranceDateTime_byte s.fault),
    fun j => byte_set (h.clearanceDateTime j) hm (clearanceDateTime_byte s.fault)⟩

/-- The strings are copied as a whole, so only the serial number depends on the bytes. -/
theorem Holds.chargerConfig (h : Holds messages s) (hm : m.identifier = CHARGER_CONFIG_ID)
    {strings : ConfigMemory} (hstrings : s.strings.handleChargerConfig m.data = some strings) :
    Holds (messages ++ [m])
      { s with strings := strings, config := handleConfigNumbers m.data s.config } := by
  have hsession : m.identifier ≠ SESSION_INFO_ID := by
    rw [hm]
    decide
  have hlog : m.identifier ≠ FAULT_LOG := by
    rw [hm]
    decide
  obtain ⟨hstart, hend, htype, hcomplete⟩ := h.session_skip hsession
  exact ⟨fun j => byte_set (h.serialNumber j) hm (serialNumber_byte s.config),
    h.fields.handleChargerConfig hstrings, hstart, hend, htype, hcomplete,
    fun j => byte_skip (h.occuranceDateTime j) hlog, fun j => byte_skip (h.clearanceDateTime j) hlog⟩

/-- The first frame of a session names its type. -/
theorem sessionType_first (hone : (m.data 0).toNat = 1) (toggle : Nat) (r : SessionInfo) :
    (handleSessionInfo m.data toggle r).2.sessionType = (m.data 1).toNat % 16 := by
  rw [handleSessionInfo, hone]
  show SessionInfo.sessionType (if _ then _ else _) = _
  split
  · rfl
  · rfl

theorem Holds.ended_iff (h : Holds messages s) :
    (s.session.sessionType = initiatedStartedNormalTermination
        ∨ s.session.sessionType = initiatedStartedFaultyTermination)
      ↔ lastSessionType messages = some initiatedStartedNormalTermination
        ∨ lastSessionType messages = some initiatedStartedFaultyTermination := by
  rw [h.sessionType]
  cases lastSessionType messages with
  | none => simp
  | some sessionType => simp

/-- The session is complete from its last frame to the first one of the next. -/
theorem Holds.sessionComplete_snoc (h : Holds messages s) (hm : m.identifier = SESSION_INFO_ID) :
    (s.handleSession m.data).sessionComplete = true ↔ SessionEnded (messages ++ [m]) := by
  have hcomplete : (s.handleSession m.data).sessionComplete
      = ((m.data 0).toNat ≠ 1 && (s.sessionComplete || s.session.completes m.data)) := rfl
  have hcompletes : s.session.completes m.data = true ↔ (m.data 0).toNat = 9
      ∧ (s.session.sessionType = initiatedStartedNormalTermination
        ∨ s.session.sessionType = initiatedStartedFaultyTermination) := by
    simp only [SessionInfo.completes, Bool.and_eq_true, Bool.or_eq_true, decide_eq_true_eq]
  rw [hcomplete, SessionEnded, lastBound, latest_snoc, Bool.and_eq_true, Bool.or_eq_true,
    decide_eq_true_eq, hcompletes, h.ended_iff]
  by_cases hone : (m.data 0).toNat = 1
  · rw [if_pos ⟨hm, .inl hone⟩, hone]
    exact iff_of_false (fun h' => h'.1 rfl) fun h' => absurd (Option.some.inj h'.1) (by decide)
  have htype : lastSessionType (messages ++ [m]) = lastSessionType messages := by
    rw [lastSessionType, latest_snoc, if_neg fun h' => hone h'.2]
    rfl
  rw [htype]
  by_cases hnine : (m.data 0).toNat = 9
  · rw [if_pos ⟨hm, .inr hnine⟩, hnine, h.sessionComplete, SessionEnded]
    simp only [Option.some_or, true_and]
    tauto
  · rw [if_neg fun h' => h'.2.elim hone hnine, h.sessionComplete, SessionEnded, lastBound]
    simp only [Option.none_or, hnine, false_and, or_false, ne_eq, hone, not_false_eq_true, true_and]

theorem Holds.sessionInfo (h : Holds messages s) (hm : m.identifier = SESSION_INFO_ID) :
    Holds (messages ++ [m]) (s.handleSession m.data) := by
  have hconfig : m.identifier ≠ CHARGER_CONFIG_ID := by
    rw [hm]
    decide
  have hlog : m.identifier ≠ FAULT_LOG := by
    rw [hm]
    decide
  have htype : (handleSessionInfo m.data s.toggleChargingSession s.session).2.sessionType
      = (lastSessionType (messages ++ [m])).getD 4294967295 := by
    rw [lastSessionType, latest_snoc]
    by_cases hone : (m.data 0).toNat = 1
    · rw [if_pos ⟨hm, hone⟩, sessionType_first hone]
      rfl
    · rw [if_neg fun h' => hone h'.2, (handleSessionInfo_head hone _ _).1, h.sessionType]
      rfl
  exact ⟨fun j => byte_skip (h.serialNumber j) hconfig, h.fields,
    fun j => byte_set (h.startDateTime j) hm (startDateTime_byte s.toggleChargingSession s.session),
    fun j => byte_set (h.endDateTime j) hm (endDateTime_byte s.toggleChargingSession s.session),
    htype, h.sessionComplete_snoc hm, fun j => byte_skip (h.occuranceDateTime j) hlog,
    fun j => byte_skip (h.clearanceDateTime j) hlog⟩

theorem Holds.step {s' : CanMemory} (h : Holds messages s) (hstep : step m s = some s') :
    Holds (messages ++ [m]) s' := by
  by_cases hsession : m.identifier = SESSION_INFO_ID
  · rw [step_sessionInfo hsession] at hstep
    exact Option.some.inj hstep ▸ h.sessionInfo hsession
  by_cases hconfig : m.identifier = CHARGER_CONFIG_ID
  · rw [step_chargerConfig hconfig] at hstep
    obtain ⟨strings, hstrings, rfl⟩ := Option.map_eq_some_iff.mp hstep
    exact h.chargerConfig hconfig hstrings
  by_cases hlog : m.identifier = FAULT_LOG
  · rw [step_faultLog hlog] at hstep
    exact Option.some.inj hstep ▸ h.faultLog hlog
  · rw [CanMemory.step, if_neg hsession, if_neg hconfig, if_neg hlog] at hstep
    obtain rfl := Option.some.inj hstep
    obtain ⟨hstart, hend, htype, hcomplete⟩ := h.session_skip hsession
    exact ⟨fun j => byte_skip (h.serialNumber j) hconfig, h.fields, hstart, hend, htype, hcomplete,
      fun j => byte_skip (h.occuranceDateTime j) hlog, fun j => byte_skip (h.clearanceDateTime j) hlog⟩

/-! ### Every run -/

theorem terminated_iff_byte {a : CharArray 25} {byte : Fin 25 → UInt8}
    (ha : ∀ j, a j = byteChar (byte j)) : a.Terminated ↔ ∃ j, byte j = 0 :=
  exists_congr fun j => by rw [ha j, byteChar_eq_nul_iff]

theorem Holds.allTerminated_iff (h : Holds messages s) : s.AllTerminated ↔ BroughtNuls messages := by
  have hserial := terminated_iff_byte h.serialNumber
  have hstart := terminated_iff_byte h.startDateTime
  have hend := terminated_iff_byte h.endDateTime
  have hoccurance := terminated_iff_byte h.occuranceDateTime
  have hclearance := terminated_iff_byte h.clearanceDateTime
  constructor
  · intro hall
    refine ⟨hserial.mp hall.serialNumber, fun hended => ?_, hoccurance.mp hall.occuranceDateTime,
      hclearance.mp hall.clearanceDateTime⟩
    obtain ⟨hstarted, hstopped⟩ := hall.sessionDates (h.sessionComplete.mpr hended)
    exact ⟨hstart.mp hstarted, hend.mp hstopped⟩
  · intro hbrought
    refine ⟨hserial.mpr hbrought.serialNumber, h.fields, fun hcomplete => ?_,
      hoccurance.mpr hbrought.occuranceDateTime, hclearance.mpr hbrought.clearanceDateTime⟩
    obtain ⟨hstarted, hstopped⟩ := hbrought.sessionDates (h.sessionComplete.mp hcomplete)
    exact ⟨hstart.mpr hstarted, hend.mpr hstopped⟩

/-- After any messages all character arrays are terminated if and only if the frames have brought a zero
byte for each array of raw bytes, which the last frames for it have not overwritten. -/
theorem strings_terminate_iff {estimatedCost : ℚ} {messages : List CanMessage} {s : CanMemory}
    (hrun : Runs.run step messages (powerOn estimatedCost) = some s) :
    s.AllTerminated ↔ BroughtNuls messages := by
  have hholds : Holds messages s :=
    Runs.run_history (powerOn_holds estimatedCost) (fun _ _ _ _ (_ : True) h hstep => h.step hstep)
      (fun _ _ => trivial) hrun
  exact hholds.allTerminated_iff

/-- A frame with letters only, and one with a zero byte at its end. -/
def letters (identifier : Nat) (number : UInt8) : CanMessage :=
  ⟨identifier, fun k => if k = 0 then number else 65⟩

def lettersAndNul (identifier : Nat) (number : UInt8) : CanMessage :=
  ⟨identifier, fun k => if k = 0 then number else if k = 4 then 0 else 65⟩

/-- A session of type 2 with a zero byte in its last date frames. -/
def endedSession : List CanMessage :=
  [⟨SESSION_INFO_ID, ![1, 0x12, 0, 65, 65, 65, 65, 65]⟩, letters SESSION_INFO_ID 2,
    letters SESSION_INFO_ID 3, lettersAndNul SESSION_INFO_ID 4, letters SESSION_INFO_ID 5,
    letters SESSION_INFO_ID 6, letters SESSION_INFO_ID 7, lettersAndNul SESSION_INFO_ID 8,
    letters SESSION_INFO_ID 9]

theorem endedSession_terminates :
    ∃ s, Runs.run step endedSession (powerOn 0) = some s
      ∧ (s.AllTerminated ↔ BroughtNuls endedSession) :=
  ⟨_, rfl, @strings_terminate_iff 0 endedSession _ rfl⟩

/-- A serial number of 25 letters has no NUL. -/
theorem long_serialNumber_is_unterminated :
    ∃ s, Runs.run step ([1, 2, 3, 4].map (letters CHARGER_CONFIG_ID)) (powerOn 0) = some s
      ∧ ¬ s.AllTerminated := by
  refine ⟨_, rfl, fun h => ?_⟩
  obtain ⟨k, hk⟩ := h.serialNumber
  have hletters : ∀ k, (handleConfigNumbers (letters CHARGER_CONFIG_ID 4).data
      (handleConfigNumbers (letters CHARGER_CONFIG_ID 3).data
        (handleConfigNumbers (letters CHARGER_CONFIG_ID 2).data
          (handleConfigNumbers (letters CHARGER_CONFIG_ID 1).data .powerOn)))).serialNumber k
        ≠ NUL := by
    decide
  exact hletters k hk

end CanMemory

end Pmu
