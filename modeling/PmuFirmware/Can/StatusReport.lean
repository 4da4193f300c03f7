import PmuFirmware.Lib.Relay
import PmuFirmware.Lib.Watchdog
import PmuFirmware.Can.ChargerConfig

/-!
# What the charger is told

`can_task` sends the status of the network and the number of queued messages in every 300th iteration.
The main loop counts the messages and checks the internet; the number comes to `can_task` over the
shared `quequeSizeIPC`, and the two bits of the network are written by the main loop and by the event
handler of the MQTT client.
-/

namespace Pmu

open CLib Watchdog

def PMU_INFO_ID : Nat := 0x42

/-- The globals that the report is made of. `sent` are the messages that are given to the CAN driver. -/
structure StatusReport where
  internetCounter : UInt8
  internetStatus : Bool
  brokerStatus : Bool
  wifiConnected : Bool
  totalEntries : UInt16
  quequeSizeIPC : UInt16
  quequeSizeCAN : UInt16
  timerCounter : Nat
  sent : List CanMessage

namespace StatusReport

/-- The globals as `app_main` has set them up. -/
def powerOn : StatusReport := ⟨0, false, false, false, 0xFFFF, 0xFFFF, 0xFFFF, 0, []⟩

/-! ### The steps -/

/-- The number of queued messages, from the counters of the files as the main loop reads them. -/
def countEntries (request onlineCharger offlineCharger : UInt8) (connectors : List UInt8) : UInt16 :=
  connectors.foldl (fun total entries => total + entries.toUInt16)
    (request.toUInt16 + onlineCharger.toUInt16 + offlineCharger.toUInt16)

/-- `check_internet_status`, where `ok` is whether the request is answered. -/
def checkInternetStatus (ok : Bool) (s : StatusReport) : StatusReport :=
  let s := if ok then { s with internetStatus := true, internetCounter := 0 }
    else { s with internetCounter := s.internetCounter + 1 }
  if 5 ≤ s.internetCounter then { s with internetCounter := 0, internetStatus := false } else s

/-- The message with the status. The source copies three bytes behind the sixth, one more than there is
room for; the array is filled by the first two. -/
def message (s : StatusReport) : CanMessage where
  identifier := PMU_INFO_ID
  data := ![1, s.internetStatus.toUInt8 ||| s.brokerStatus.toUInt8 <<< 1 ||| (0x3F : UInt8) <<< 2, 1, 2,
    s.quequeSizeCAN.toUInt8, (s.quequeSizeCAN >>> 8).toUInt8, 0xFF, 0xFF]

/-- An iteration of `can_task`, with whether the configuration has been received and whether the mutex
is free. -/
def canIteration (chargerConfigReceived mutexTaken : Bool) (s : StatusReport) : StatusReport :=
  let s := { s with timerCounter := s.timerCounter + 1 }
  let s := if s.timerCounter = 300 then { s with sent := s.sent ++ [s.message], timerCounter := 0 }
    else s
  if chargerConfigReceived && mutexTaken then { s with quequeSizeCAN := s.quequeSizeIPC } else s

/-- Two parts of a turn of the main loop and the copy at its end, the events of the Wi-Fi station and of
the MQTT client, and the iterations of `can_task`. -/
inductive Event
  | countEntries (request onlineCharger offlineCharger : UInt8) (connectors : List UInt8)
  | checkInternet (ok : Bool)
  | copyTotal
  | staGotIp
  | staDisconnected
  | mqttConnected
  | mqttDisconnected
  | canIteration (chargerConfigReceived mutexTaken : Bool)

def step (s : StatusReport) : Event → StatusReport
  | .countEntries request onlineCharger offlineCharger connectors =>
    { s with totalEntries := StatusReport.countEntries request onlineCharger offlineCharger connectors }
  | .checkInternet ok => if s.wifiConnected then s.checkInternetStatus ok else s
  | .copyTotal => { s with quequeSizeIPC := s.totalEntries }
  | .staGotIp => { s with wifiConnected := true }
  | .staDisconnected => { s with wifiConnected := false }
  | .mqttConnected => { s with brokerStatus := true }
  | .mqttDisconnected => { s with brokerStatus := false }
  | .canIteration chargerConfigReceived mutexTaken => s.canIteration chargerConfigReceived mutexTaken

def run (events : List Event) (s : StatusReport) : StatusReport := events.foldl step s

/-! ### What has happened -/

/-- Whether the station has an address, and the outcomes of the checks that were made with one. -/
def recordCheck (r : Bool × List Bool) : Event → Bool × List Bool
  | .staGotIp => (true, r.2)
  | .staDisconnected => (false, r.2)
  | .checkInternet ok => (r.1, if r.1 then r.2 ++ [ok] else r.2)
  | _ => r

def checks (events : List Event) : Bool × List Bool := events.foldl recordCheck (false, [])

/-- One of the last five checks was answered. -/
def InternetUp (events : List Event) : Prop :=
  ∃ i : Nat, (checks events).2[i]? = some true ∧ (checks events).2.length ≤ i + 5

/-- The client has connected to the broker and not disconnected since. -/
def BrokerUp (events : List Event) : Prop :=
  ∃ before after, events = before ++ .mqttConnected :: after ∧ .mqttDisconnected ∉ after

/-- The total that the main loop counts. -/
def Event.total : Event → List UInt16
  | .countEntries request onlineCharger offlineCharger connectors =>
    [StatusReport.countEntries request onlineCharger offlineCharger connectors]
  | _ => []

/-- The numbers that may be told, in their order: that the number is not known, then the totals. -/
def sizes (events : List Event) : List UInt16 := 0xFFFF :: events.flatMap Event.total

def Event.isIteration : Event → Bool
  | .canIteration _ _ => true
  | _ => false

def iterations (events : List Event) : Nat := events.countP Event.isIteration

/-- The number of queued messages in a message. -/
def reportedSize (m : CanMessage) : UInt16 :=
  UInt16.ofNat ((m.data 4).toNat + 256 * (m.data 5).toNat)

/-- What a message says when it is sent after these events. -/
structure Tells (m : CanMessage) (events : List Event) : Prop where
  identifier : m.identifier = PMU_INFO_ID
  internet : (m.data 1).toNat.testBit 0 = true ↔ InternetUp events
  broker : (m.data 1).toNat.testBit 1 = true ↔ BrokerUp events

/-! ### The internet -/

/-- The status and the counter as a watchdog. -/
def internetWatch (s : StatusReport) : Watch :=
  ⟨false, s.internetCounter.toNat, !s.internetStatus⟩

section Internet

variable {s : StatusReport}

theorem checkInternetStatus_watch (ok : Bool) (hle : s.internetWatch.count ≤ 4) :
    (s.checkInternetStatus ok).internetWatch = s.internetWatch.judge 4 ok := by
  have hcount : s.internetCounter.toNat ≤ 4 := hle
  have hnext : (s.internetCounter + 1).toNat = s.internetCounter.toNat + 1 := by
    rw [UInt8.toNat_add]
    exact Nat.mod_eq_of_lt (by simp; omega)
  cases ok with
  | true => rfl
  | false =>
      have hlimit : 5 ≤ s.internetCounter + 1 ↔ 4 < s.internetCounter.toNat + 1 := by
        rw [UInt8.le_iff_toNat_le, hnext]
        rfl
      have hjudge : s.internetWatch.judge 4 false = if 4 < s.internetCounter.toNat + 1
          then ⟨false, 0, true⟩ else ⟨false, s.internetCounter.toNat + 1, !s.internetStatus⟩ := rfl
      simp only [checkInternetStatus, Bool.false_eq_true, if_false, hlimit, hjudge]
      split
      · rfl
      · rw [internetWatch, hnext]

end Internet

/-! ### The broker -/

theorem brokerUp_nil : ¬BrokerUp [] := by
  rintro ⟨before, after, hevents, -⟩
  simp at hevents

theorem brokerUp_snoc (events : List Event) (e : Event) :
    BrokerUp (events ++ [e]) ↔ e = .mqttConnected ∨ e ≠ .mqttDisconnected ∧ BrokerUp events := by
  constructor
  · rintro ⟨before, after, hevents, hafter⟩
    rcases List.eq_nil_or_concat after with rfl | ⟨after, last, rfl⟩
    · exact .inl (List.append_inj_right' hevents rfl |> List.singleton_inj.mp)
    · rw [List.concat_eq_append, ← List.cons_append, ← List.append_assoc] at hevents
      obtain ⟨hinit, hlast⟩ := List.append_inj' hevents rfl
      obtain rfl := List.singleton_inj.mp hlast
      refine .inr ⟨fun he => hafter (by simp [he]), before, after, hinit, fun hmem => hafter ?_⟩
      simp [hmem]
  · rintro (rfl | ⟨he, before, after, rfl, hafter⟩)
    · exact ⟨events, [], rfl, List.not_mem_nil⟩
    · refine ⟨before, after ++ [e], by simp, ?_⟩
      simp [hafter, he.symm]

/-! ### The message -/

theorem reportedSize_message (s : StatusReport) : reportedSize s.message = s.quequeSizeCAN := by
  have hlow : s.quequeSizeCAN.toUInt8.toNat = s.quequeSizeCAN.toNat % 256 := UInt16.toNat_toUInt8 _
  have hshift : (s.quequeSizeCAN >>> 8).toNat = s.quequeSizeCAN.toNat / 256 := by
    rw [UInt16.toNat_shiftRight]
    exact Nat.shiftRight_eq_div_pow _ 8
  have hhigh : (s.quequeSizeCAN >>> 8).toUInt8.toNat = s.quequeSizeCAN.toNat / 256 := by
    have hlt := s.quequeSizeCAN.toNat_lt
    rw [UInt16.toNat_toUInt8, hshift]
    omega
  have hsum : (s.message.data 4).toNat + 256 * (s.message.data 5).toNat = s.quequeSizeCAN.toNat := by
    change s.quequeSizeCAN.toUInt8.toNat + 256 * (s.quequeSizeCAN >>> 8).toUInt8.toNat = _
    rw [hlow, hhigh]
    exact Nat.mod_add_div _ 256
  rw [reportedSize, hsum]
  exact UInt16.ofNat_toNat

theorem message_bits (s : StatusReport) : (s.message.data 1).toNat.testBit 0 = s.internetStatus
    ∧ (s.message.data 1).toNat.testBit 1 = s.brokerStatus := by
  have hbits : ∀ internet broker : Bool,
      (internet.toUInt8 ||| broker.toUInt8 <<< 1 ||| (0x3F : UInt8) <<< 2).toNat.testBit 0 = internet
        ∧ (internet.toUInt8 ||| broker.toUInt8 <<< 1 ||| (0x3F : UInt8) <<< 2).toNat.testBit 1
          = broker := by decide
  exact hbits s.internetStatus s.brokerStatus

/-! ### The network -/

/-- What the state says about the network after these events. -/
structure Network (events : List Event) (s : StatusReport) : Prop where
  wifi : s.wifiConnected = (checks events).1
  internet : s.internetWatch = (checks events).2.foldl (Watch.judge 4) .start
  broker : s.brokerStatus = true ↔ BrokerUp events

section Network

variable {events : List Event} {s : StatusReport} {e : Event}

theorem powerOn_network : powerOn.Network [] :=
  ⟨rfl, rfl, iff_of_false Bool.false_ne_true brokerUp_nil⟩

theorem checks_snoc : checks (events ++ [e]) = recordCheck (checks events) e := by
  rw [checks, List.foldl_append]
  rfl

theorem canIteration_network (c t : Bool) (s : StatusReport) :
    (s.canIteration c t).wifiConnected = s.wifiConnected
      ∧ (s.canIteration c t).internetWatch = s.internetWatch
      ∧ (s.canIteration c t).brokerStatus = s.brokerStatus := by
  rw [canIteration]
  split <;> split <;> exact ⟨rfl, rfl, rfl⟩

theorem Network.internet_count (h : s.Network events) : s.internetWatch.count ≤ 4 := by
  rw [h.internet]
  exact Watch.judge_count_le _

/-- The status is that of the last five checks. -/
theorem Network.internetUp (h : s.Network events) :
    s.internetStatus = true ↔ InternetUp events := by
  rw [InternetUp, ← Watch.judge_rounds, ← h.internet, internetWatch, Bool.not_eq_false']

theorem Network.step (h : s.Network events) (e : Event) : (s.step e).Network (events ++ [e]) := by
  have hbroker : e ≠ .mqttConnected → e ≠ .mqttDisconnected →
      (s.brokerStatus = true ↔ BrokerUp (events ++ [e])) := by
    intro hconnected hdisconnected
    rw [brokerUp_snoc, h.broker]
    simp [hconnected, hdisconnected]
  cases e with
  | countEntries request onlineCharger offlineCharger connectors =>
      exact ⟨by rw [checks_snoc]; exact h.wifi, by rw [checks_snoc]; exact h.internet,
        hbroker (by simp) (by simp)⟩
  | copyTotal =>
      exact ⟨by rw [checks_snoc]; exact h.wifi, by rw [checks_snoc]; exact h.internet,
        hbroker (by simp) (by simp)⟩
  | checkInternet ok =>
      have hchecked : (s.checkInternetStatus ok).internetWatch = s.internetWatch.judge 4 ok :=
        checkInternetStatus_watch ok h.internet_count
      have hsame : (s.checkInternetStatus ok).wifiConnected = s.wifiConnected
          ∧ (s.checkInternetStatus ok).brokerStatus = s.brokerStatus := by
        rw [checkInternetStatus]
        split <;> split <;> exact ⟨rfl, rfl⟩
      rw [StatusReport.step]
      by_cases hwifi : s.wifiConnected = true
      · rw [if_pos hwifi]
        refine ⟨?_, ?_, ?_⟩
        · rw [checks_snoc, hsame.1]
          exact h.wifi
        · rw [checks_snoc, hchecked, h.internet, recordCheck, ← h.wifi, if_pos hwifi,
            List.foldl_append]
          rfl
        · rw [hsame.2]
          exact hbroker (by simp) (by simp)
      · rw [if_neg hwifi]
        refine ⟨by rw [checks_snoc]; exact h.wifi, ?_, hbroker (by simp) (by simp)⟩
        rw [checks_snoc, h.internet, recordCheck, ← h.wifi, if_neg hwifi]
  | staGotIp =>
      exact ⟨by rw [checks_snoc]; rfl, by rw [checks_snoc]; exact h.internet,
        hbroker (by simp) (by simp)⟩
  | staDisconnected =>
      exact ⟨by rw [checks_snoc]; rfl, by rw [checks_snoc]; exact h.internet,
        hbroker (by simp) (by simp)⟩
  | mqttConnected =>
      refine ⟨by rw [checks_snoc]; exact h.wifi, by rw [checks_snoc]; exact h.internet, ?_⟩
      rw [brokerUp_snoc]
      exact iff_of_true rfl (.inl rfl)
  | mqttDisconnected =>
      refine ⟨by rw [checks_snoc]; exact h.wifi, by rw [checks_snoc]; exact h.internet, ?_⟩
      rw [brokerUp_snoc]
      exact iff_of_false Bool.false_ne_true (by simp)
  | canIteration c t =>
      obtain ⟨hwifi, hwatch, hstatus⟩ := canIteration_network c t s
      rw [StatusReport.step]
      refine ⟨?_, ?_, ?_⟩
      · rw [checks_snoc, hwifi]
        exact h.wifi
      · rw [checks_snoc, hwatch]
        exact h.internet
      · rw [hstatus]
        exact hbroker (by simp) (by simp)

theorem Network.tells (h : s.Network events) : Tells s.message events := by
  obtain ⟨hinternet, hbroker⟩ := message_bits s
  refine ⟨rfl, ?_, ?_⟩
  · rw [hinternet]
    exact h.internetUp
  · rw [hbroker]
    exact h.broker

end Network

/-! ### The number of queued messages -/

/-- The three places that the number passes. -/
def places (s : StatusReport) : Nat → UInt16 :=
  Relay.row s.totalEntries s.quequeSizeIPC s.quequeSizeCAN 0xFFFF

/-- What an event does to the number. -/
def Event.relay : Event → Option (Relay.Event UInt16)
  | .countEntries request onlineCharger offlineCharger connectors =>
    some (.put (StatusReport.countEntries request onlineCharger offlineCharger connectors))
  | .copyTotal => some (.copy 0)
  | .canIteration c t => if c && t then some (.copy 1) else none
  | _ => none

/-- What the state says about the messages that were sent during these events: the numbers in them are
totals in their order, and the message `k` was sent in the iteration `300 * k + 300`. -/
structure Counted (events : List Event) (s : StatusReport) : Prop where
  timer : s.timerCounter = iterations events % 300
  count : s.sent.length = iterations events / 300
  numbers : ∃ index, Relay.Tracks (sizes events) index s.places
    ∧ Relay.Readings (sizes events) (index 2) (s.sent.map reportedSize)
  told : ∀ k m, s.sent[k]? = some m → ∃ before c t after,
    events = before ++ .canIteration c t :: after ∧ iterations before = 300 * k + 299
      ∧ Tells m before

section Counted

variable {events : List Event} {s : StatusReport} {e : Event}

theorem powerOn_counted : powerOn.Counted [] where
  timer := rfl
  count := rfl
  numbers := ⟨fun _ => 0, Relay.tracks_row_singleton 0xFFFF, Relay.readings_nil⟩
  told := by
    intro k m hm
    cases hm

theorem iterations_snoc : iterations (events ++ [e]) = iterations events + e.isIteration.toNat := by
  rw [iterations, List.countP_append, List.countP_singleton, ← iterations]
  cases e.isIteration <;> rfl

theorem sizes_snoc : sizes (events ++ [e]) = sizes events ++ e.total := by
  simp [sizes]

theorem canIteration_places (c t : Bool) (s : StatusReport) : (s.canIteration c t).places
    = Relay.row s.totalEntries s.quequeSizeIPC
      (if c && t then s.quequeSizeIPC else s.quequeSizeCAN) 0xFFFF := by
  rw [canIteration]
  split <;> split <;> rfl

theorem checkInternetStatus_counted (ok : Bool) (s : StatusReport) :
    (s.checkInternetStatus ok).places = s.places
      ∧ (s.checkInternetStatus ok).timerCounter = s.timerCounter
      ∧ (s.checkInternetStatus ok).sent = s.sent := by
  rw [checkInternetStatus]
  split <;> split <;> exact ⟨rfl, rfl, rfl⟩

theorem step_places (e : Event) :
    (s.step e).places = e.relay.elim s.places (Relay.step s.places) := by
  cases e with
  | countEntries request onlineCharger offlineCharger connectors => exact (Relay.row_put ..).symm
  | copyTotal => exact (Relay.row_copy_source ..).symm
  | canIteration c t =>
      rw [step, canIteration_places, Event.relay]
      split
      · exact (Relay.row_copy_between ..).symm
      · rfl
  | checkInternet ok =>
      rw [step]
      split
      · exact (checkInternetStatus_counted ok s).1
      · rfl
  | _ => rfl

theorem total_eq (e : Event) : e.total = (e.relay.map Relay.Event.brought).getD [] := by
  cases e with
  | canIteration c t =>
      rw [Event.relay]
      split <;> rfl
  | _ => rfl

/-- Every event brings the number forward. -/
theorem tracks_step {index : Nat → Nat} (h : Relay.Tracks (sizes events) index s.places) (e : Event) :
    ∃ index', (∀ i, index i ≤ index' i)
      ∧ Relay.Tracks (sizes (events ++ [e])) index' (s.step e).places := by
  rw [step_places, sizes_snoc, total_eq]
  cases e.relay with
  | none =>
      refine ⟨index, fun _ => le_rfl, ?_⟩
      rw [Option.map_none, Option.getD_none, List.append_nil]
      exact h
  | some r => exact h.step r

theorem step_of_not_iteration (he : e.isIteration = false) :
    (s.step e).timerCounter = s.timerCounter ∧ (s.step e).sent = s.sent := by
  cases e with
  | canIteration c t => cases he
  | checkInternet ok =>
      rw [step]
      split
      · exact (checkInternetStatus_counted ok s).2
      · exact ⟨rfl, rfl⟩
  | _ => exact ⟨rfl, rfl⟩

theorem canIteration_sent (c t : Bool) (s : StatusReport) :
    (s.canIteration c t).timerCounter = (if s.timerCounter + 1 = 300 then 0 else s.timerCounter + 1)
      ∧ (s.canIteration c t).sent
        = s.sent ++ if s.timerCounter + 1 = 300 then [s.message] else [] := by
  rw [canIteration]
  by_cases hfull : s.timerCounter + 1 = 300
  · simp only [hfull, if_true]
    split <;> exact ⟨rfl, rfl⟩
  · simp only [hfull, if_false, List.append_nil]
    split <;> exact ⟨rfl, rfl⟩

/-- What was told before an event was told before all of them. -/
theorem told_snoc {k : Nat} {m : CanMessage} (h : ∃ before c t after,
      events = before ++ .canIteration c t :: after ∧ iterations before = 300 * k + 299
        ∧ Tells m before) : ∃ before c t after,
      events ++ [e] = before ++ .canIteration c t :: after ∧ iterations before = 300 * k + 299
        ∧ Tells m before := by
  obtain ⟨before, c, t, after, rfl, hcount, htells⟩ := h
  exact ⟨before, c, t, after ++ [e], by simp, hcount, htells⟩

theorem Counted.step (h : s.Counted events) (hnetwork : s.Network events) (e : Event) :
    (s.step e).Counted (events ++ [e]) := by
  obtain ⟨index, htracks, hreadings⟩ := h.numbers
  obtain ⟨index', hforward, htracks'⟩ := tracks_step htracks e
  have htimer := h.timer
  have hcount := h.count
  have hlater : Relay.Readings (sizes (events ++ [e])) (index' 2) (s.sent.map reportedSize) := by
    rw [sizes_snoc]
    exact hreadings.append.mono (hforward 2)
  cases hiteration : e.isIteration with
  | false =>
      obtain ⟨hsame, hsent⟩ := step_of_not_iteration (s := s) hiteration
      have hstill : iterations (events ++ [e]) = iterations events := by
        rw [iterations_snoc, hiteration]
        rfl
      refine ⟨by rw [hsame, hstill, htimer], by rw [hsent, hstill, hcount], ⟨index', htracks', ?_⟩, ?_⟩
      · rw [hsent]
        exact hlater
      · rw [hsent]
        exact fun k m hm => told_snoc (h.told k m hm)
  | true =>
      have hnext : iterations (events ++ [e]) = iterations events + 1 := by
        rw [iterations_snoc, hiteration]
        rfl
      cases e with
      | canIteration c t =>
          obtain ⟨hcounter, hsent⟩ := canIteration_sent c t s
          rw [StatusReport.step] at htracks' ⊢
          by_cases hfull : s.timerCounter + 1 = 300
          · rw [if_pos hfull] at hcounter hsent
            refine ⟨?_, ?_, ⟨index', htracks', ?_⟩, ?_⟩
            · rw [hcounter, hnext]
              omega
            · rw [hsent, hnext, List.length_append, List.length_singleton]
              omega
            · have hread : (sizes events)[index 2]? = some (reportedSize s.message) := by
                rw [reportedSize_message]
                exact htracks.value 2
              rw [hsent, List.map_append, sizes_snoc]
              exact (hreadings.snoc hread).append.mono (hforward 2)
            · rw [hsent]
              intro k m hm
              rcases lt_or_ge k s.sent.length with hlt | hge
              · rw [List.getElem?_append_left hlt] at hm
                exact told_snoc (h.told k m hm)
              · rw [List.getElem?_append_right hge] at hm
                rw [List.getElem?_singleton, Option.ite_none_right_eq_some] at hm
                obtain ⟨hlast, hm⟩ := hm
                rw [← Option.some.inj hm]
                exact ⟨events, c, t, [], rfl, by omega, hnetwork.tells⟩
          · rw [if_neg hfull] at hcounter hsent
            rw [List.append_nil] at hsent
            refine ⟨?_, ?_, ⟨index', htracks', ?_⟩, ?_⟩
            · rw [hcounter, hnext]
              omega
            · rw [hsent, hnext]
              omega
            · rw [hsent]
              exact hlater
            · rw [hsent]
              exact fun k m hm => told_snoc (h.told k m hm)
      | _ => cases hiteration

end Counted

end StatusReport

end Pmu
