import PmuFirmware.Lib.Ledger
import PmuFirmware.Publisher.Losses

/-!
# The account of a queue file

Over any run of the publisher a queue file is a ledger: every call that can be queued makes one entry,
behind the others, and every entry is there until an event takes it for one of three reasons. The
configuration and restarts take nothing.
-/

namespace Pmu

open CLib

variable (parse : CStr → Option Json) (print : Json → Option CStr) (f : QueueFile)

/-! ### What the events bring and take -/

/-- The message is a response to the entries with the UUID, which were queued for the action. The
payload of a critical one must be valid. -/
def Answers (env : Env) (msg uuid action : CStr) (s : Publisher) : Prop :=
  ∃ json members, parse msg = some json ∧ messageHeader 3 json = .ok uuid
    ∧ json.getArrayItem 2 = some (.object members)
    ∧ getActionFromUuid parse env uuid s.queue = some action
    ∧ (critical action → hasValidTimestamp env.timeLibrary (.object members) = true)

/-- With this turn the message has been sent once too often. -/
def GivesUp (message : CStr) (importance : Nat) (s : Publisher) : Prop :=
  3 ≤ s.retryCount + (if importance = 0 then 1 else 0)
    ∨ importance ≠ 0 ∧ 3 ≤ s.criticalRetryCount + 1 ∧ parse message = none

/-- The message is sent again. -/
structure SendsAgain (env : Env) (b : Board) (message : CStr) (importance : Nat) (s : Publisher) :
    Prop where
  offered : offeredMessage env b s = some (message, importance)
  again : s.lastSentMessage = some message
  waited : retryInterval ≤ b.currentTime - s.lastCheckTime
  published : b.published = true

/-- The entries that an event appends. -/
def Event.Brings : Env × Event → Publisher → Stored f → Prop
  | (env, .call g uuid action payload), s, e =>
    g = f ∧ ∃ text ∈ print (callArray uuid action payload), s.queue.Appends env text e
  | _, _, _ => False

/-- The entries that an event may take. -/
def Event.Takes : Env × Event → Publisher → List (Stored f) → Stored f → Prop
  | (_, .call g _ _ _), s, es, e => g = f ∧ s.queue.Full f ∧ IsOldest es e
  | (env, .received msg), s, _, e => ∃ uuid action, Answers parse env msg uuid action s
      ∧ e.uuid parse = some uuid ∧ (f = .request ↔ action ≠ faultInformation)
  | (env, .turn b), s, _, e => ∃ message importance, SendsAgain env b message importance s
      ∧ GivesUp parse message importance s ∧ strstr e.line message = true
  | _, _, _, _ => False

/-- A call that is queued in the file makes an entry that all functions read as it was written. -/
def Event.Storable : Env × Event → Prop
  | (env, .call g uuid action payload) => g = f →
    ∀ text ∈ print (callArray uuid action payload), ∀ t ∈ env.time,
      ∃ e : Stored f, e.message = text ∧ e.time = t
  | _ => True

/-! ### One event -/

section Events

variable {parse} {print} {f} {env : Env} {es : List (Stored f)}

/-- Deleting a message that may go. -/
theorem deleteEverywhere_lost {out : Stored f → Prop} {message : CStr} {s : Publisher}
    (hs : Lost es out s.queue) (hout : ∀ e : Stored f, strstr e.line message = true → out e) :
    Lost es out (deleteEverywhere env message s).queue :=
  hs.trans fun _ hes' => (searchAndDelete_lost env message hes').mono fun e _ => hout e

theorem deleteEntry_lost {out : Stored f → Prop} {message : CStr} {s : Publisher}
    (hs : Lost es out s.queue)
    (hout : parse message = none → ∀ e : Stored f, strstr e.line message = true → out e) :
    Lost es out (deleteEntry parse env message s).queue := by
  rw [deleteEntry]
  split
  · next hparse => exact deleteEverywhere_lost hs (hout hparse)
  · exact hs

theorem deleteEntry_retryCount (message : CStr) (s : Publisher) :
    (deleteEntry parse env message s).retryCount = s.retryCount := by
  rw [deleteEntry]
  split <;> rfl

/-- Counting a retry deletes the message when it has been sent once too often. -/
theorem countRetry_lost {message : CStr} {importance : Nat} {s : Publisher}
    (hs : s.queue.Holds es) :
    Lost es (fun e => GivesUp parse message importance s ∧ strstr e.line message = true)
      (countRetry parse env message importance s).queue := by
  have hcounted : ∀ t : Publisher,
      Lost es (fun e => GivesUp parse message importance s ∧ strstr e.line message = true) t.queue →
      t.retryCount = s.retryCount + (if importance = 0 then 1 else 0) →
      Lost es (fun e => GivesUp parse message importance s ∧ strstr e.line message = true)
        (if 3 ≤ t.retryCount then deleteEverywhere env message { t with retryCount := 0 }
          else t).queue := by
    intro t ht hcount
    split
    · next hthree =>
        rw [hcount] at hthree
        exact deleteEverywhere_lost ht fun _ hfound => ⟨.inl hthree, hfound⟩
    · exact ht
  rw [countRetry]
  refine hcounted _ ?_ ?_
  · split
    · exact hs.lost
    · next himportance =>
        dsimp only
        split
        · next hthree =>
            exact deleteEntry_lost hs.lost fun hparse _ hfound =>
              ⟨.inr ⟨himportance, hthree, hparse⟩, hfound⟩
        · exact hs.lost
  · split
    · rfl
    · dsimp only
      split
      · exact (deleteEntry_retryCount message _).trans (UInt8.add_zero _).symm
      · exact (UInt8.add_zero _).symm

theorem publishMessage_lost {b : Board} {message : CStr} {importance : Nat} {s : Publisher}
    (hs : s.queue.Holds es) :
    Lost es (fun e => (s.lastSentMessage = some message
          ∧ ¬b.currentTime - s.lastCheckTime < retryInterval ∧ b.published = true)
        ∧ GivesUp parse message importance s ∧ strstr e.line message = true)
      (publishMessage parse env b message importance s).queue := by
  rw [publishMessage]
  split
  · exact hs.lost
  · next hwaited =>
      dsimp only
      split
      · next hpublished =>
          cases hsent : s.lastSentMessage with
          | none => exact hs.lost
          | some last =>
              dsimp only
              split
              · next hsame =>
                  subst hsame
                  have hagain : ¬b.currentTime - s.lastCheckTime < retryInterval :=
                    fun hlt => hwaited ⟨hsent, hlt⟩
                  have hcounted := @countRetry_lost parse f env es last importance
                    { s with lastSentMessage := some last, lastCheckTime := b.currentTime } hs
                  exact hcounted.mono fun e _ h => ⟨⟨rfl, hagain, hpublished⟩, h⟩
              · exact hs.lost
      · exact hs.lost

/-- A turn loses only the lines with a message that is given up. -/
theorem mainLoop_lost (b : Board) {s : Publisher} (hs : s.queue.Holds es) :
    Lost es (Event.Takes parse f (env, .turn b) s es) (mainLoop parse env b s).queue := by
  have hturn : ∀ t : Publisher, t.toNode = s.toNode → t.lastSentMessage = s.lastSentMessage →
      t.lastCheckTime = s.lastCheckTime → (∀ message importance,
        GivesUp parse message importance t ↔ GivesUp parse message importance s) →
      Lost es (Event.Takes parse f (env, .turn b) s es) (publishTurn parse env b t).queue := by
    intro t hnode hlast htime hgives
    have hoffered : offeredMessage env b t = offeredMessage env b s := by
      simp only [offeredMessage, selectMessage, hnode]
    have ht : t.queue.Holds es := by rwa [hnode]
    rw [publishTurn, hoffered]
    cases hoffer : offeredMessage env b s with
    | none => exact ht.lost
    | some offer =>
        refine (publishMessage_lost ht).mono fun e _ hgone => ?_
        obtain ⟨⟨hagain, hwaited, hpublished⟩, h⟩ := hgone
        rw [hlast] at hagain
        rw [htime] at hwaited
        exact ⟨offer.1, offer.2, ⟨hoffer, hagain, UInt64.not_lt.mp hwaited, hpublished⟩,
          (hgives offer.1 offer.2).mp h.1, h.2⟩
  rw [show mainLoop parse env b s = publishTurn parse env b
    (if s.firstTimeBootUpFlag = 1 ∧ b.networkReady then { s with firstTimeBootUpFlag := 3 } else s)
    from rfl]
  split
  · exact hturn { s with firstTimeBootUpFlag := 3 } rfl rfl rfl fun _ _ => Iff.rfl
  · exact hturn s rfl rfl rfl fun _ _ => Iff.rfl

/-- The payload of a critical response that is not refused is valid. -/
theorem processPayload_valid {action uuid : CStr} {payload : Json} {s : Node}
    (hcritical : critical action) (hvalid : (processPayload env action payload uuid s).1 = .validMsg) :
    hasValidTimestamp env.timeLibrary payload = true := by
  by_contra hno
  rw [processPayload] at hvalid
  rcases hcritical with rfl | rfl | rfl
  · simp [processConfigurationDataPayload, hno] at hvalid
  · revert hvalid
    rw [if_neg (by decide), if_neg (by decide), if_neg (by decide), if_pos rfl,
      processChargingSessionPayload, processTimestampPayload, if_neg hno]
    exact fun h => ErrorCode.noConfusion h
  · revert hvalid
    rw [if_neg (by decide), if_neg (by decide), if_neg (by decide), if_neg (by decide), if_pos rfl,
      processFaultLogPayload, processTimestampPayload, if_neg hno]
    exact fun h => ErrorCode.noConfusion h

theorem validateCallResult_queue {json : Json} {s : Node} {r : Reply × Node}
    (hrun : validateCallResult parse env json s = some r) :
    r.2.queue = s.queue ∨ ∃ uuid action members, messageHeader 3 json = .ok uuid
      ∧ getActionFromUuid parse env uuid s.queue = some action
      ∧ json.getArrayItem 2 = some (.object members)
      ∧ (critical action → hasValidTimestamp env.timeLibrary (.object members) = true)
      ∧ deleteAnswered parse env action uuid s.queue = some r.2.queue := by
  rw [validateCallResult] at hrun
  split at hrun
  · exact .inl (by rw [← Option.some.inj hrun])
  · next uuid hheader =>
      split at hrun
      · exact .inl (by rw [← Option.some.inj hrun])
      · next action haction =>
          split at hrun
          · next members hmembers =>
              have hqueue := processPayload_queue env action (.object members) uuid s
              dsimp only at hrun
              split at hrun
              · exact .inl (by rw [← Option.some.inj hrun, hqueue])
              · next hvalid =>
                  obtain ⟨queue, hdelete, rfl⟩ := Option.map_eq_some_iff.mp hrun
                  refine .inr ⟨uuid, action, members, hheader, haction, hmembers, ?_, ?_⟩
                  · intro hcritical
                    by_contra hno
                    exact hvalid ⟨hcritical, fun h => hno (processPayload_valid hcritical h)⟩
                  · rwa [hqueue] at hdelete
          · exact .inl (by rw [← Option.some.inj hrun])

theorem validateJsonString_queue {msg : CStr} {s : Publisher} {r : Reply × Node}
    (hrun : validateJsonString parse env msg s.toNode = some r) :
    r.2.queue = s.queue ∨ ∃ uuid action, Answers parse env msg uuid action s
      ∧ deleteAnswered parse env action uuid s.queue = some r.2.queue := by
  rw [validateJsonString] at hrun
  cases hparse : parse msg with
  | none =>
      rw [hparse] at hrun
      exact .inl (by rw [← Option.some.inj hrun])
  | some json =>
      rw [hparse] at hrun
      dsimp only at hrun
      split_ifs at hrun
      · exact .inl (by rw [← Option.some.inj hrun])
      · refine .inl ?_
        rw [← Option.some.inj hrun, validateCall]
        repeat' first | rfl | split
        simp only [processComponentStatus]
        repeat' first | rfl | split
      · rcases validateCallResult_queue hrun with hsame
          | ⟨uuid, action, members, hheader, haction, hmembers, hvalid, hdelete⟩
        · exact .inl hsame
        · exact .inr ⟨uuid, action,
            ⟨json, members, hparse, hheader, hmembers, haction, hvalid⟩, hdelete⟩
      · refine .inl ?_
        rw [← Option.some.inj hrun, validateCallError]
        repeat' first | rfl | split
      · exact .inl (by rw [← Option.some.inj hrun])

/-- Every event amends the file. -/
theorem step_amends {i : Env × Event} {s s' : Publisher} (hlegal : Event.Storable print f i)
    (hs : s.queue.Holds es) (hrun : Event.step parse print i s = some s') :
    Ledger.Amends (fun s es => s.queue.Holds es) (Event.Brings print f) (Event.Takes parse f) i s s'
      es := by
  obtain ⟨env, event⟩ := i
  have hlost : (∀ e, ¬Event.Brings print f (env, event) s e) →
      Lost es (Event.Takes parse f (env, event) s es) s'.queue →
      Ledger.Amends (fun s es => s.queue.Holds es) (Event.Brings print f) (Event.Takes parse f)
        (env, event) s s' es := by
    intro hnone hloses
    obtain ⟨gone, hholds, hgone⟩ := hloses
    refine ⟨gone, none, ?_, hgone, fun e => iff_of_false (Option.some_ne_none e).symm (hnone e)⟩
    rwa [Option.toList_none, List.append_nil]
  cases event with
  | call g uuid action payload =>
      obtain ⟨text, hprinted, hsaved⟩ := Option.bind_eq_some_iff.mp hrun
      obtain ⟨queue, hsave, rfl⟩ := Option.map_eq_some_iff.mp hsaved
      have hprint : print (callArray uuid action payload) = some text := hprinted
      by_cases hg : g = f
      · subst hg
        obtain ⟨gone, brought, hholds, hgone, hbrought⟩ :=
          savePayloadToSpiffs_amends hs (hlegal rfl text hprint) hsave
        refine ⟨gone, brought, hholds, fun e he h => ⟨rfl, hgone e he h⟩, fun e => ?_⟩
        rw [hbrought]
        constructor
        · exact fun h => ⟨rfl, text, hprint, h⟩
        · rintro ⟨-, text', htext', h⟩
          obtain rfl := Option.some.inj (hprint.symm.trans htext')
          exact h
      · exact hlost (fun e h => hg h.1)
          (hs.congr (savePayloadToSpiffs_contents (Ne.symm hg) hsave)).lost
  | received msg =>
      obtain ⟨r, hvalidate, rfl⟩ := Option.map_eq_some_iff.mp hrun
      refine hlost (fun _ h => h) ?_
      rcases validateJsonString_queue hvalidate with hsame | ⟨uuid, action, hanswers, hdelete⟩
      · exact (hs.congr (by rw [hsame])).lost
      · exact (deleteAnswered_lost hs hdelete).mono fun e _ h => ⟨uuid, action, hanswers, h⟩
  | turn b =>
      obtain rfl := Option.some.inj hrun
      exact hlost (fun _ h => h) (mainLoop_lost b hs)
  | configured numConnectors =>
      obtain rfl := Option.some.inj hrun
      exact hlost (fun _ h => h) (hs.congr rfl).lost
  | restarted exchanged =>
      obtain rfl := Option.some.inj hrun
      exact hlost (fun _ h => h) (hs.congr rfl).lost

/-! ### Runs -/

end Events

theorem sessionEntry_plain : sessionEntry.Plain := by
  rw [Entry.Plain]
  decide

theorem sessionEntry_year_lt : sessionEntry.time.year < 9998 := by decide

/-- The session that an earlier boot has left. -/
def sessionStored : Stored .request where
  toEntry := sessionEntry
  plain := sessionEntry_plain
  year_lt := sessionEntry_year_lt

theorem requestMessage_fits :
    (entryLine requestMessage newYear).length + 2 ≤ QueueFile.request.lineBuffer := by decide

theorem requestMessage_clean : newline ∉ requestMessage ∧ NUL ∉ requestMessage := by decide

theorem requestMessage_short : requestMessage.length < messageBuffer := by decide

theorem requestMessage_plain : '\r' ∉ requestMessage := by decide

/-- The configuration message as it is queued at the start. -/
def requestStored : Stored .request where
  message := requestMessage
  time := newYear
  clean := requestMessage_clean
  message_lt := requestMessage_short
  fits := requestMessage_fits
  plain := requestMessage_plain
  year_lt := sessionEntry_year_lt

end Pmu
