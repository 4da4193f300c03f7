import PmuFirmware.Can.Delivery

/-!
# Frames that arrive again

The charger sends a frame until it is acknowledged, so that each frame of a record may arrive several
times in a row. The bit of the record is flipped as often as the frame that completes it arrives: the
check for a repeated frame that the strings of the configuration have is missing here.
-/

namespace Pmu

open ObservedExchange

inductive RecordKind
  | session | fault
  deriving DecidableEq

/-- A record with the number of times that each of its frames arrives. -/
structure RepeatedRecord where
  kind : RecordKind
  record : SentRecord
  arrivals : UInt8 → Nat
  arrives : ∀ n, 0 < arrivals n
  valid : kind = .session → 1 ≤ record.sessionType ∧ record.sessionType ≤ 4

namespace RepeatedRecord

def frames (t : RepeatedRecord) : List UInt8 :=
  match t.kind with
  | .session => [1, 2, 3, 4, 5, 6, 7, 8, 9]
  | .fault => [1, 2, 3, 4, 5, 6, 7, 8]

def arrival (t : RepeatedRecord) (n : UInt8) : Exchange.Event :=
  match t.kind with
  | .session => .sessionFrame t.record n
  | .fault => .faultFrame t.record n

def deliveries (t : RepeatedRecord) : List Exchange.Event :=
  t.frames.flatMap fun n => List.replicate (t.arrivals n) (t.arrival n)

/-- The frame on which the bit is flipped. -/
def completingFrame (t : RepeatedRecord) : UInt8 :=
  match t.kind with
  | .session =>
    if t.record.sessionType = initiatedButNotStarted
        ∨ t.record.sessionType = initiatedStartedPowerOutage then 1
    else 9
  | .fault => 8

end RepeatedRecord

namespace ObservedExchange

/-- The records that have flipped the bit of their kind, once for each flip. -/
def completed (s : ObservedExchange) : RecordKind → List SentRecord
  | .session => s.completedSessions
  | .fault => s.completedFaults

variable {x : SentRecord} {n : UInt8} {s : ObservedExchange}

/-! ### One arrival -/

/-- The records that an arrival adds to those of its kind. -/
def Adds (kind : RecordKind) (added : List SentRecord) (s next : ObservedExchange) : Prop :=
  ∀ k, next.completed k = s.completed k ++ if k = kind then added else []

theorem sessionFrame_completes (h : completesSession s.toggleChargingSession (x.frame n)) :
    Adds .session [x] s (step (.sessionFrame x n) s) := by
  intro kind
  cases kind with
  | session =>
      have hflip : ¬ (handleSessionInfo (x.frame n) s.toggleChargingSession
          s.sessions.producer).2.chargingSessionOccured
            = s.sessions.producer.chargingSessionOccured := by
        rw [handleSessionInfo_completes h]
        exact Bool.not_ne_self _
      exact if_neg hflip
  | fault => exact (List.append_nil _).symm

theorem sessionFrame_continues (h : ¬ completesSession s.toggleChargingSession (x.frame n)) :
    Adds .session [] s (step (.sessionFrame x n) s) := by
  intro kind
  cases kind with
  | session =>
      have hkeep := handleSessionInfo_continues h s.sessions.producer
      exact (if_pos hkeep).trans (List.append_nil _).symm
  | fault => exact (List.append_nil _).symm

theorem faultFrame_adds :
    Adds .fault (if n.toNat = 8 then [x] else []) s (step (.faultFrame x n) s) := by
  intro kind
  cases kind with
  | session => exact (List.append_nil _).symm
  | fault =>
      show (if (handleFaultLog (x.frame n) s.faults.producer).faultLogDataExchanged
          = s.faults.producer.faultLogDataExchanged then s.completedFaults
        else s.completedFaults ++ [x]) = s.completedFaults ++ if n.toNat = 8 then [x] else []
      by_cases hlast : n.toNat = 8
      · rw [if_pos hlast, (handleFaultLog_completes (show (x.frame n 0).toNat = 8 from hlast) _).1,
          if_neg (Bool.not_ne_self _)]
      · rw [if_neg hlast, if_pos (handleFaultLog_continues (show (x.frame n 0).toNat ≠ 8 from hlast) _),
          List.append_nil]

theorem sessionFrame_toggle_first (hn : n.toNat = 1) :
    (step (.sessionFrame x n) s).toggleChargingSession
      = toggleOfType x.sessionType s.toggleChargingSession := by
  have hone : n = 1 := UInt8.toNat_inj.mp hn
  subst hone
  rfl

theorem sessionFrame_toggle_later (hn : n.toNat ≠ 1) :
    (step (.sessionFrame x n) s).toggleChargingSession = s.toggleChargingSession := by
  show (handleSessionInfo (x.frame n) s.toggleChargingSession s.sessions.producer).1 = _
  rw [handleSessionInfo]
  split
  case h_1 hone => exact absurd hone hn
  all_goals rfl

/-! ### Arrivals in a row -/

theorem Adds.trans {kind : RecordKind} {a b : List SentRecord} {s₁ s₂ : ObservedExchange}
    (h : Adds kind a s s₁) (h' : Adds kind b s₁ s₂) : Adds kind (a ++ b) s s₂ := by
  intro k
  rw [h' k, h k]
  split
  · exact List.append_assoc ..
  · rw [List.append_nil, List.append_nil]

theorem Adds.refl (kind : RecordKind) : Adds kind [] s s := by
  intro k
  rw [ite_self, List.append_nil]

/-- The arrivals of one frame: each adds the same. -/
theorem adds_replicate {P : ObservedExchange → Prop} {e : Exchange.Event} {k : RecordKind}
    {c : Nat}
    (hstep : ∀ s, P s → P (step e s) ∧ Adds k (List.replicate c x) s (step e s)) :
    ∀ (times : Nat) (s : ObservedExchange), P s →
      P (run (List.replicate times e) s)
        ∧ Adds k (List.replicate (times * c) x) s (run (List.replicate times e) s)
  | 0, s, hs => by
      rw [Nat.zero_mul]
      exact ⟨hs, .refl k⟩
  | times + 1, s, hs => by
      obtain ⟨hfirst, hadds⟩ := hstep s hs
      obtain ⟨hrest, hadds'⟩ := adds_replicate hstep times (step e s) hfirst
      have hcount : List.replicate ((times + 1) * c) x
          = List.replicate c x ++ List.replicate (times * c) x := by
        rw [Nat.succ_mul, Nat.add_comm, List.replicate_add]
      rw [hcount]
      exact ⟨hrest, hadds.trans hadds'⟩

/-- The arrivals of several frames. -/
theorem adds_frames {P : ObservedExchange → Prop} {t : RepeatedRecord} {c : UInt8 → Nat} :
    ∀ {l : List UInt8}, (∀ n ∈ l, ∀ s, P s →
        P (step (t.arrival n) s)
          ∧ Adds t.kind (List.replicate (c n) t.record) s (step (t.arrival n) s)) →
      ∀ s, P s → Adds t.kind
        (List.replicate ((l.map fun n => t.arrivals n * c n).sum) t.record) s
        (run (l.flatMap fun n => List.replicate (t.arrivals n) (t.arrival n)) s)
  | [], _, s, _ => .refl t.kind
  | n :: l, hstep, s, hs => by
      obtain ⟨hfirst, hadds⟩ :=
        adds_replicate (hstep n List.mem_cons_self) (t.arrivals n) s hs
      have hrest := adds_frames (fun m hm => hstep m (List.mem_cons_of_mem n hm)) _ hfirst
      rw [List.flatMap_cons, run, List.foldl_append, List.map_cons, List.sum_cons,
        List.replicate_add]
      exact hadds.trans hrest

/-! ### One record -/

theorem completesSession_first_iff {toggle : Nat}
    (hvalid : 1 ≤ x.sessionType ∧ x.sessionType ≤ 4) :
    completesSession toggle (x.frame 1) ↔ x.sessionType = initiatedButNotStarted
      ∨ x.sessionType = initiatedStartedPowerOutage := by
  have hone : (x.frame 1 0).toNat = 1 := rfl
  show _ ∧ (toggleOfType x.sessionType toggle = 1 ∨ toggleOfType x.sessionType toggle = 4) ∨ _ ∧ _
    ↔ _
  rw [toggleOfType, initiatedButNotStarted, initiatedStartedNormalTermination,
    initiatedStartedFaultyTermination, initiatedStartedPowerOutage, hone]
  split_ifs <;> omega

/-- The type of a session is known once its first frame has arrived. -/
theorem toggle_of_first (times : Nat) (s : ObservedExchange)
    (hvalid : 1 ≤ x.sessionType ∧ x.sessionType ≤ 4) :
    (run (List.replicate (times + 1) (.sessionFrame x 1)) s).toggleChargingSession
      = toggleOfType x.sessionType 0 := by
  rw [List.replicate_succ', run, List.foldl_append, List.foldl_cons, List.foldl_nil,
    sessionFrame_toggle_first rfl, toggleOfType, toggleOfType, initiatedButNotStarted,
    initiatedStartedNormalTermination, initiatedStartedFaultyTermination,
    initiatedStartedPowerOutage]
  split_ifs <;> omega

/-- The arrivals of the completing frame, counted frame by frame. -/
theorem completing_arrivals {t : RepeatedRecord} (hkind : t.kind = .session) :
    t.arrivals t.completingFrame
      = t.arrivals 1 * (if t.record.sessionType = initiatedButNotStarted
          ∨ t.record.sessionType = initiatedStartedPowerOutage then 1 else 0)
        + ([2, 3, 4, 5, 6, 7, 8, 9].map fun n => t.arrivals n
            * if n = 9 ∧ toggleOfType t.record.sessionType 0 = 2 then 1 else 0).sum := by
  have hvalid := t.valid hkind
  have hended : toggleOfType t.record.sessionType 0 = 2
      ↔ ¬ (t.record.sessionType = initiatedButNotStarted
        ∨ t.record.sessionType = initiatedStartedPowerOutage) := by
    rw [toggleOfType, initiatedButNotStarted, initiatedStartedNormalTermination,
      initiatedStartedFaultyTermination, initiatedStartedPowerOutage]
    split_ifs <;> omega
  rw [RepeatedRecord.completingFrame, hkind]
  by_cases hfirst : t.record.sessionType = initiatedButNotStarted
      ∨ t.record.sessionType = initiatedStartedPowerOutage
  · have hlater : ¬ toggleOfType t.record.sessionType 0 = 2 := fun h => hended.mp h hfirst
    simp [hfirst, hlater]
  · have hlater := hended.mpr hfirst
    simp [hfirst, hlater]

/-- A session flips the bit on its first frame or, when it has ended, on frame 9. -/
theorem session_adds {t : RepeatedRecord} (hkind : t.kind = .session) (s : ObservedExchange) :
    Adds t.kind (List.replicate (t.arrivals t.completingFrame) t.record) s
      (run t.deliveries s) := by
  have hvalid := t.valid hkind
  have harrival : ∀ n, t.arrival n = .sessionFrame t.record n := by
    intro n
    rw [RepeatedRecord.arrival, hkind]
  obtain ⟨times, htimes⟩ : ∃ times, t.arrivals 1 = times + 1 :=
    Nat.exists_eq_succ_of_ne_zero (t.arrives 1).ne'
  -- the first frame, from any state
  have hfirst := adds_replicate (P := fun _ => True) (e := .sessionFrame t.record 1)
    (k := .session) (x := t.record)
    (c := if t.record.sessionType = initiatedButNotStarted
        ∨ t.record.sessionType = initiatedStartedPowerOutage then 1 else 0)
    (fun s _ => ?_) (t.arrivals 1) s trivial
  · have htoggle := toggle_of_first times s hvalid
    rw [← htimes] at htoggle
    -- the other frames, once the type is known
    have hrest := adds_frames (t := t)
      (P := fun s => s.toggleChargingSession = toggleOfType t.record.sessionType 0)
      (c := fun n => if n = 9 ∧ toggleOfType t.record.sessionType 0 = 2 then 1 else 0)
      (l := [2, 3, 4, 5, 6, 7, 8, 9]) ?_ _ htoggle
    · have hrun : run t.deliveries s
          = run ([2, 3, 4, 5, 6, 7, 8, 9].flatMap fun n =>
              List.replicate (t.arrivals n) (t.arrival n))
            (run (List.replicate (t.arrivals 1) (.sessionFrame t.record 1)) s) := by
        rw [RepeatedRecord.deliveries, RepeatedRecord.frames, hkind]
        show run ([1, 2, 3, 4, 5, 6, 7, 8, 9].flatMap fun n =>
          List.replicate (t.arrivals n) (t.arrival n)) s = _
        rw [List.flatMap_cons, run, List.foldl_append, harrival 1]
        rfl
      rw [hkind] at hrest ⊢
      have hall := hfirst.2.trans hrest
      rw [← List.replicate_add] at hall
      rw [hrun, completing_arrivals hkind]
      exact hall
    · intro n hn s hs
      have hlater : n.toNat ≠ 1 := by
        rintro hone
        rw [UInt8.toNat_inj.mp (show n.toNat = (1 : UInt8).toNat from hone)] at hn
        exact absurd hn (by decide)
      rw [harrival, hkind]
      refine ⟨(sessionFrame_toggle_later hlater).trans hs, ?_⟩
      have hcompletes : completesSession s.toggleChargingSession (t.record.frame n)
          ↔ n = 9 ∧ toggleOfType t.record.sessionType 0 = 2 := by
        rw [hs, ← UInt8.toNat_inj]
        show n.toNat = 1 ∧ _ ∨ n.toNat = 9 ∧ _ ↔ n.toNat = 9 ∧ _
        simp only [hlater, false_and, false_or]
      by_cases hnine : n = 9 ∧ toggleOfType t.record.sessionType 0 = 2
      · rw [if_pos hnine]
        exact sessionFrame_completes (hcompletes.mpr hnine)
      · rw [if_neg hnine]
        exact sessionFrame_continues fun h => hnine (hcompletes.mp h)
  · refine ⟨trivial, ?_⟩
    by_cases hfirst : t.record.sessionType = initiatedButNotStarted
        ∨ t.record.sessionType = initiatedStartedPowerOutage
    · rw [if_pos hfirst]
      exact sessionFrame_completes ((completesSession_first_iff hvalid).mpr hfirst)
    · rw [if_neg hfirst]
      exact sessionFrame_continues fun h => hfirst ((completesSession_first_iff hvalid).mp h)

/-- A fault flips the bit on frame 8. -/
theorem fault_adds {t : RepeatedRecord} (hkind : t.kind = .fault) (s : ObservedExchange) :
    Adds t.kind (List.replicate (t.arrivals t.completingFrame) t.record) s
      (run t.deliveries s) := by
  have hrun := adds_frames (t := t) (P := fun _ => True)
    (c := fun n => if n = 8 then 1 else 0) (l := [1, 2, 3, 4, 5, 6, 7, 8]) ?_ s trivial
  · have hcount : t.arrivals t.completingFrame
        = ([1, 2, 3, 4, 5, 6, 7, 8].map fun n => t.arrivals n * if n = 8 then 1 else 0).sum := by
      rw [RepeatedRecord.completingFrame, hkind]
      simp
    rw [RepeatedRecord.deliveries, RepeatedRecord.frames, hcount]
    rw [hkind] at hrun ⊢
    exact hrun
  · intro n _ s _
    refine ⟨trivial, ?_⟩
    rw [RepeatedRecord.arrival, hkind]
    have hadds := faultFrame_adds (x := t.record) (n := n) (s := s)
    by_cases hlast : n = 8
    · rw [if_pos (by rw [hlast]; rfl)] at hadds
      rw [if_pos hlast]
      exact hadds
    · have hother : ¬ n.toNat = 8 := fun h => hlast (UInt8.toNat_inj.mp h)
      rw [if_neg hother] at hadds
      rw [if_neg hlast]
      exact hadds

/-- A record flips the bit of its kind once for each arrival of the frame that completes it, and no
other bit. -/
theorem transmission_adds (t : RepeatedRecord) (s : ObservedExchange) :
    Adds t.kind (List.replicate (t.arrivals t.completingFrame) t.record) s
      (run t.deliveries s) := by
  cases hkind : t.kind with
  | session => exact hkind ▸ session_adds hkind s
  | fault => exact hkind ▸ fault_adds hkind s

/-! ### Any sequence of records -/

/-- Each record flips the bit of its kind exactly once while its frames arrive. -/
def FlipsOnce : List RepeatedRecord → ObservedExchange → Prop
  | [], _ => True
  | t :: ts, s => Adds t.kind [t.record] s (run t.deliveries s) ∧ FlipsOnce ts (run t.deliveries s)

/-- In every sequence of records each one flips its bit exactly once if and only if each frame that
completes a record arrives once. -/
theorem flipsOnce_iff (ts : List RepeatedRecord) (s : ObservedExchange) :
    FlipsOnce ts s ↔ ∀ t ∈ ts, t.arrivals t.completingFrame = 1 := by
  induction ts generalizing s with
  | nil => exact ⟨fun _ t ht => absurd ht List.not_mem_nil, fun _ => trivial⟩
  | cons t ts ih =>
      have hadds := transmission_adds t s
      rw [FlipsOnce, ih, List.forall_mem_cons]
      refine and_congr ⟨fun honce => ?_, fun honce => ?_⟩ Iff.rfl
      · have heq := (hadds t.kind).symm.trans (honce t.kind)
        rw [if_pos rfl, if_pos rfl, List.append_cancel_left_eq] at heq
        simpa using congrArg List.length heq
      · rw [honce] at hadds
        exact hadds

/-- A session whose last frame arrives twice flips the bit twice. -/
def repeatedSession : RepeatedRecord where
  kind := .session
  record := sampleSession 2 1
  arrivals n := if n = 9 then 2 else 1
  arrives n := by split <;> decide
  valid _ := by decide

theorem repeated_frame_flips_twice : ¬ FlipsOnce [repeatedSession] (powerOn 0) := by
  intro h
  have honce := h.1 .session
  rw [transmission_adds repeatedSession (powerOn 0) .session] at honce
  exact absurd (congrArg List.length honce) (by decide)

end ObservedExchange

end Pmu
