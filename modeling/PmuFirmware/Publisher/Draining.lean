import PmuFirmware.Inbound.Effect
import PmuFirmware.Publisher.RetryBudget
import PmuFirmware.Publisher.Accounts
import PmuFirmware.Queue.RoundTrip

/-!
# Emptying the queue

With a connection to the broker and a server that answers, every turn of the main loop publishes one
message and the answer takes it from its file, so that the queue becomes empty and every message is
published once. While the gate is closed it is the turn of the requests up to the configuration message
of this boot; then the faults go first, file by file, and the other requests follow.
-/

namespace Pmu

open CLib

variable {parse : CStr → Option Json}

/-! ### The calls of several files -/

/-- The calls of the files, one file after the other. -/
def waitingIn (calls : Calls parse) (files : List QueueFile) : List (Σ f, Call parse f) :=
  files.flatMap fun f => (calls f).map (Sigma.mk f)

/-- The calls without those that carry the UUID. -/
def remaining (uuid : CStr) (calls : Calls parse) : Calls parse := fun f =>
  (calls f).filter fun c => c.callUuid ≠ uuid

section Calls

variable {calls : Calls parse} {files : List QueueFile} {uuid : CStr}

theorem mem_waitingIn {r : Σ f, Call parse f} :
    r ∈ waitingIn calls files ↔ r.1 ∈ files ∧ r.2 ∈ calls r.1 := by
  rw [waitingIn, List.mem_flatMap]
  constructor
  · rintro ⟨f, hf, hr⟩
    obtain ⟨c, hc, rfl⟩ := List.mem_map.mp hr
    exact ⟨hf, hc⟩
  · rintro ⟨hf, hc⟩
    exact ⟨r.1, hf, List.mem_map.mpr ⟨r.2, hc, rfl⟩⟩

theorem waitingIn_cons (f : QueueFile) :
    waitingIn calls (f :: files) = (calls f).map (Sigma.mk f) ++ waitingIn calls files := rfl

theorem waitingIn_singleton (f : QueueFile) :
    waitingIn calls [f] = (calls f).map (Sigma.mk f) := List.append_nil _

theorem firstCall_eq_find (p : ∀ f, Call parse f → Bool) :
    firstCall p calls files = (waitingIn calls files).find? fun r => p r.1 r.2 := by
  rw [firstCall]
  induction files with
  | nil => rfl
  | cons f files ih =>
      have hsame : ((fun r : Σ f, Call parse f => p r.1 r.2) ∘ Sigma.mk f) = p f := rfl
      rw [List.findSome?_cons, waitingIn_cons, List.find?_append, ih, List.find?_map, hsame]
      cases (calls f).find? (p f) <;> rfl

theorem waitingIn_remaining :
    waitingIn (remaining uuid calls) files
      = (waitingIn calls files).filter fun r => r.2.callUuid ≠ uuid := by
  rw [waitingIn, waitingIn, List.filter_flatMap]
  refine List.flatMap_congr fun f _ => ?_
  rw [List.filter_map]
  rfl

/-- With distinct UUIDs one call is taken out. -/
theorem filter_split {before after : List (Σ f, Call parse f)} {c : Σ f, Call parse f}
    (hdistinct : ((before ++ c :: after).map fun r => r.2.callUuid).Nodup) :
    (before ++ c :: after).filter (fun r => r.2.callUuid ≠ c.2.callUuid) = before ++ after := by
  rw [List.map_append, List.map_cons, List.nodup_middle, List.nodup_cons, ← List.map_append]
    at hdistinct
  obtain ⟨hnot, -⟩ := hdistinct
  have hkeep : ∀ r ∈ before ++ after, decide (r.2.callUuid ≠ c.2.callUuid) = true := by
    intro r hr
    refine decide_eq_true fun hsame => hnot ?_
    rw [← hsame]
    exact List.mem_map_of_mem hr
  rw [List.filter_append, List.filter_cons_of_neg (by simp), ← List.filter_append,
    List.filter_eq_self.mpr hkeep]

theorem message_ne {f g : QueueFile} {c : Call parse f} {c' : Call parse g}
    (hne : c'.callUuid ≠ c.callUuid) : c'.message ≠ c.message := by
  intro hsame
  have hparsed := c'.parsed
  rw [hsame, c.parsed] at hparsed
  have harray := Option.some.inj hparsed
  simp only [callArray, Json.array.injEq, List.cons.injEq, Json.string.injEq] at harray
  exact hne harray.2.1.symm

end Calls

/-! ### What is published next -/

/-- The calls with distinct UUIDs that wait in the files, none of which has just been sent. -/
structure Waits (calls : Calls parse) (s : Publisher) : Prop where
  has : s.queue.Has calls
  readable : ∀ r ∈ waitingIn calls s.queue.queueFiles, r.2.Readable
  distinct : ((waitingIn calls s.queue.queueFiles).map fun r => r.2.callUuid).Nodup
  unsent : ∀ r ∈ waitingIn calls s.queue.queueFiles, s.lastSentMessage ≠ some r.2.message
  reads : (s.queue.numConnectors : Nat) ≤ noOfConnectors

/-- The order in which the calls are published. While the gate is closed, no session may be ahead of
its key. -/
inductive Schedule (calls : Calls parse) (s : Publisher) : List (Σ f, Call parse f) → Prop
  | opened : s.configDataExchanged = true →
      Schedule calls s (waitingIn calls s.queue.faultFiles ++ waitingIn calls [.request])
  | closed {before rest : List (Call parse .request)} {key : Call parse .request} :
      s.configDataExchanged = false → calls .request = before ++ key :: rest →
      key.action = configurationData → key.callUuid = s.configDataBootUUID →
      (∀ c ∈ before ++ [key], messageImportance c.message ≠ 2) →
      Schedule calls s ((before.map (Sigma.mk .request) ++ ⟨.request, key⟩ ::
        waitingIn calls s.queue.faultFiles) ++ rest.map (Sigma.mk .request))

section Next

variable {env : Env} {calls : Calls parse} {s : Publisher}

theorem Store.Has.firstMessage {st : Store} (henv : env.Healthy) (hst : st.Has calls) {f : QueueFile}
    (hf : st.HasCounter f) {c : Call parse f} {cs : List (Call parse f)} (hcalls : calls f = c :: cs)
    (hread : c.Readable) : (st.openRead env f).bind firstMessage = some c.message := by
  have hne : calls f ≠ [] := by
    rw [hcalls]
    exact List.cons_ne_nil c cs
  rw [henv.openRead (hst.contents_ne_nil hf hne), (hst f hf).1, hcalls, Option.bind_some,
    List.map_cons, firstMessage_entries, queuedMessage_eq_self hread]

/-- The faults are read in the order of the files. -/
theorem getQueuedFaultMessages_calls (henv : env.Healthy) (h : Waits calls s) :
    getQueuedFaultMessages env s.queue
      = (waitingIn calls s.queue.faultFiles).head?.map fun r => r.2.message := by
  have hfiles : s.queue.faultReadFiles = s.queue.faultFiles := by
    rw [Store.faultReadFiles, Store.faultFiles, Nat.min_eq_left h.reads]
  have hcounters : ∀ f ∈ s.queue.faultFiles, s.queue.HasCounter f :=
    fun f hf => (faultFiles_hasCounter s.queue f hf).1
  have hreadable : ∀ r ∈ waitingIn calls s.queue.faultFiles, r.2.Readable := by
    intro r hr
    obtain ⟨hf, hc⟩ := mem_waitingIn.mp hr
    exact h.readable r (mem_waitingIn.mpr ⟨List.mem_cons_of_mem _ hf, hc⟩)
  rw [getQueuedFaultMessages, hfiles]
  generalize s.queue.faultFiles = files at hcounters hreadable
  induction files with
  | nil => rfl
  | cons f files ih =>
      have hf := hcounters f List.mem_cons_self
      have hrest := ih (fun g hg => hcounters g (List.mem_cons_of_mem _ hg)) fun r hr =>
        hreadable r (List.mem_append_right _ hr)
      rw [List.findSome?_cons, waitingIn_cons]
      cases hcalls : calls f with
      | nil =>
          have hempty : s.queue.contents f = [] := by
            rw [(h.has f hf).1, hcalls]
            rfl
          rw [if_neg fun hne => hne.2 hempty, hrest]
          rfl
      | cons c cs =>
          have hne : calls f ≠ [] := by
            rw [hcalls]
            exact List.cons_ne_nil c cs
          have hread : c.Readable := hreadable ⟨f, c⟩
            (mem_waitingIn.mpr ⟨List.mem_cons_self, by rw [hcalls]; exact List.mem_cons_self⟩)
          rw [if_pos ⟨henv.stats f, h.has.contents_ne_nil hf hne⟩,
            h.has.firstMessage henv hf hcalls hread]
          rfl

theorem getQueuedRequestMessages_calls (henv : env.Healthy) (h : Waits calls s) :
    getQueuedRequestMessages env s.queue
      = (calls .request).head?.map fun c => (c.message, messageImportance c.message) := by
  rw [getQueuedRequestMessages]
  cases hcalls : calls .request with
  | nil =>
      have hempty : s.queue.contents .request = [] := by
        rw [(h.has .request trivial).1, hcalls]
        rfl
      have hnone : (s.queue.openRead env .request).bind firstMessage = none := by
        cases hopen : s.queue.openRead env .request with
        | none => rfl
        | some text =>
            rw [Store.contents_of_openRead hopen] at hempty
            rw [hempty]
            rfl
      rw [hnone]
      rfl
  | cons c cs =>
      have hread : c.Readable := h.readable ⟨.request, c⟩
        (mem_waitingIn.mpr ⟨List.mem_cons_self, by rw [hcalls]; exact List.mem_cons_self⟩)
      have hcounter : s.queue.HasCounter .request := trivial
      rw [h.has.firstMessage henv hcounter hcalls hread]
      rfl

theorem Store.queueFiles_eq (st : Store) : st.queueFiles = .request :: st.faultFiles := rfl

/-- The first of the schedule is selected. -/
theorem Schedule.selected (henv : env.Healthy) (h : Waits calls s) {c : Σ f, Call parse f}
    {order : List (Σ f, Call parse f)} (horder : Schedule calls s (c :: order)) :
    c ∈ waitingIn calls s.queue.queueFiles
      ∧ ∃ importance, selectMessage env s = some (c.2.message, importance) := by
  have hfaults := getQueuedFaultMessages_calls henv h
  have hrequests := getQueuedRequestMessages_calls henv h
  rw [Store.queueFiles_eq, waitingIn_cons]
  generalize hall : c :: order = all at horder
  cases horder with
  | opened hopen =>
      rw [waitingIn_singleton] at hall
      have hmem : c ∈ waitingIn calls s.queue.faultFiles ++ (calls .request).map (Sigma.mk .request) := by
        rw [← hall]
        exact List.mem_cons_self
      refine ⟨List.mem_append.mpr (List.mem_append.mp hmem).symm, ?_⟩
      rw [selectMessage, hopen, if_pos rfl, hfaults]
      cases hfirst : waitingIn calls s.queue.faultFiles with
      | cons fault faults =>
          rw [hfirst] at hall
          obtain ⟨rfl, -⟩ := List.cons.inj hall
          exact ⟨3, rfl⟩
      | nil =>
          rw [hfirst, List.nil_append] at hall
          obtain ⟨first, rest, hcalls, rfl, -⟩ := List.map_eq_cons_iff.mp hall.symm
          refine ⟨messageImportance first.message, ?_⟩
          rw [hrequests, hcalls]
          exact if_neg fun hheld => Bool.false_ne_true hheld.2.symm
  | @closed before rest key hclosed hcalls haction huuid hfree =>
      have hselect : ∀ (first : Call parse .request) (later : List (Call parse .request)),
          calls .request = first :: later → messageImportance first.message ≠ 2 →
          selectMessage env s = some (first.message, messageImportance first.message) := by
        intro first later hfirst himportance
        rw [selectMessage, hclosed, if_neg Bool.false_ne_true, hrequests, hfirst]
        exact if_neg fun hheld => himportance hheld.1
      cases before with
      | nil =>
          obtain ⟨rfl, -⟩ := List.cons.inj hall
          refine ⟨List.mem_append_left _ ?_, _,
            hselect key rest hcalls (hfree key (List.mem_append_right _ List.mem_cons_self))⟩
          rw [hcalls]
          exact List.mem_map_of_mem List.mem_cons_self
      | cons first before =>
          obtain ⟨rfl, -⟩ := List.cons.inj hall
          refine ⟨List.mem_append_left _ ?_, _,
            hselect first (before ++ key :: rest) hcalls (hfree first List.mem_cons_self)⟩
          rw [hcalls]
          exact List.mem_map_of_mem List.mem_cons_self

end Next

/-! ### One round -/

/-- A turn of the main loop, and the answer of the server. -/
structure Round where
  turnEnv : Env
  board : Board
  answerEnv : Env
  answer : CStr

def Round.events (r : Round) : List (Env × Event) :=
  [(r.turnEnv, .turn r.board), (r.answerEnv, .received r.answer)]

/-- The client takes the message, and the server answers it. -/
structure Round.Serves (r : Round) (c : Σ f, Call parse f) : Prop where
  turnHealthy : r.turnEnv.Healthy
  answerHealthy : r.answerEnv.Healthy
  online : r.board.isMqttNetworkOnline = true
  timeSet : r.board.isTimeSet = true
  published : r.board.published = true
  answered : ∃ payload, response parse r.answer = some (c.2.callUuid, payload)
    ∧ hasValidTimestamp r.answerEnv.timeLibrary payload = true

/-- The call has been published and acknowledged. -/
structure Served (calls : Calls parse) (c : Σ f, Call parse f) (s s' : Publisher) : Prop where
  has : s'.queue.Has (remaining c.2.callUuid calls)
  connectors : s'.queue.numConnectors = s.queue.numConnectors
  gate : s'.configDataExchanged = (s.configDataExchanged
    || decide (c.2.action = configurationData) && s.configDataBootUUID == c.2.callUuid)
  bootUuid : s'.configDataBootUUID = s.configDataBootUUID
  sent : s'.lastSentMessage = some c.2.message

section Round

variable {print : Json → Option CStr} {env : Env} {calls : Calls parse} {s : Publisher}
  {c : Σ f, Call parse f}

theorem publishMessage_other {b : Board} {message : CStr} (importance : Nat) {t : Publisher}
    (hother : t.lastSentMessage ≠ some message) (hpublished : b.published = true) :
    (publishMessage parse env b message importance t).toNode = t.toNode
      ∧ (publishMessage parse env b message importance t).lastSentMessage = some message := by
  rw [publishMessage, if_neg fun h => hother h.1]
  dsimp only
  rw [if_pos hpublished]
  cases hlast : t.lastSentMessage with
  | none => exact ⟨rfl, rfl⟩
  | some last =>
      have hne : last ≠ message := fun h => hother (hlast.trans (congrArg some h))
      dsimp only
      rw [if_neg hne]
      exact ⟨rfl, rfl⟩

/-- The turn publishes the selected message and deletes nothing. -/
theorem turn_publishes {b : Board} {importance : Nat}
    (hselect : selectMessage env s = some (c.2.message, importance))
    (hunsent : s.lastSentMessage ≠ some c.2.message) (honline : b.isMqttNetworkOnline = true)
    (htime : b.isTimeSet = true) (hpublished : b.published = true) :
    ∃ s', Event.step parse print (env, .turn b) s = some s' ∧ s'.toNode = s.toNode
      ∧ s'.lastSentMessage = some c.2.message
      ∧ Event.sent (env, .turn b) s = [⟨env, b, c.2.message, importance⟩] := by
  have hoffered : ∀ t : Publisher, t.toNode = s.toNode →
      offeredMessage env b t = some (c.2.message, importance) := by
    intro t ht
    rw [offeredMessage, honline, htime, Bool.and_self, if_pos rfl, ← hselect]
    simp only [selectMessage, ht]
  have hturn : ∀ t : Publisher, t.toNode = s.toNode → t.lastSentMessage = s.lastSentMessage →
      (publishTurn parse env b t).toNode = s.toNode
        ∧ (publishTurn parse env b t).lastSentMessage = some c.2.message := by
    intro t ht hlast
    rw [publishTurn, hoffered t ht]
    obtain ⟨hnode, hsent⟩ := @publishMessage_other parse env b c.2.message importance t
      (hlast ▸ hunsent) hpublished
    exact ⟨hnode.trans ht, hsent⟩
  refine ⟨_, rfl, ?_, ?_, ?_⟩
  · rw [show mainLoop parse env b s = publishTurn parse env b
      (if s.firstTimeBootUpFlag = 1 ∧ b.networkReady then { s with firstTimeBootUpFlag := 3 }
        else s) from rfl]
    split
    · exact (hturn { s with firstTimeBootUpFlag := 3 } rfl rfl).1
    · exact (hturn s rfl rfl).1
  · rw [show mainLoop parse env b s = publishTurn parse env b
      (if s.firstTimeBootUpFlag = 1 ∧ b.networkReady then { s with firstTimeBootUpFlag := 3 }
        else s) from rfl]
    split
    · exact (hturn { s with firstTimeBootUpFlag := 3 } rfl rfl).2
    · exact (hturn s rfl rfl).2
  · have hpublishes : (Attempt.mk env b c.2.message importance).Publishes s.retry :=
      ⟨fun hdelayed => hunsent hdelayed.1, hpublished⟩
    rw [Event.sent, Event.attempt, hoffered s rfl]
    exact if_pos hpublishes

theorem response_eq_some {msg uuid : CStr} {payload : Json}
    (hmsg : response parse msg = some (uuid, payload)) :
    ∃ type members, parse msg = some (.array [.number type, .string uuid, .object members])
      ∧ (Json.number type).valueint = 3 ∧ uuid.length ≤ 36 ∧ payload = .object members := by
  rw [response] at hmsg
  split at hmsg
  · next type uuid' members hparse =>
      split at hmsg
      · next hchecks =>
          obtain ⟨rfl, rfl⟩ := Prod.mk.inj (Option.some.inj hmsg)
          exact ⟨type, members, hparse, hchecks.1, hchecks.2, rfl⟩
      · cases hmsg
  · cases hmsg

/-- With distinct UUIDs the answer is for the call. -/
theorem answeredReadable_eq {files : List QueueFile} (hmem : c ∈ waitingIn calls files)
    (hdistinct : ((waitingIn calls files).map fun r => r.2.callUuid).Nodup)
    (hread : c.2.Readable) : answeredReadable c.2.callUuid calls files = some c := by
  rw [answeredReadable, firstCall_eq_find]
  obtain ⟨before, after, hsplit⟩ := List.append_of_mem hmem
  rw [hsplit] at hdistinct ⊢
  rw [List.map_append, List.map_cons] at hdistinct
  have hbefore : before.find? (fun r => decide (r.2.Readable ∧ r.2.callUuid = c.2.callUuid)) = none := by
    rw [List.find?_eq_none]
    intro r hr hfound
    have hsame := (of_decide_eq_true hfound).2
    have hdisjoint := (List.nodup_append.mp hdistinct).2.2
    exact hdisjoint _ (List.mem_map_of_mem hr) _ List.mem_cons_self hsame
  rw [List.find?_append, hbefore, Option.none_or, List.find?_cons_of_pos]
  exact decide_eq_true ⟨hread, rfl⟩

/-- The gate after the payload of an accepted response. -/
theorem processPayload_gate {payload : Json} (hvalid : hasValidTimestamp env.timeLibrary payload = true)
    (action uuid : CStr) (t : Node) :
    (processPayload env action payload uuid t).2.configDataExchanged
        = (t.configDataExchanged || decide (action = configurationData) && t.configDataBootUUID == uuid)
      ∧ (processPayload env action payload uuid t).2.configDataBootUUID = t.configDataBootUUID := by
  rw [processPayload]
  by_cases haction : action = configurationData
  · rw [if_pos haction, processConfigurationDataPayload, if_pos hvalid]
    simp [haction]
  · rw [if_neg haction]
    have hsame : ∀ r : ErrorCode, ∀ t' : Node, t' = t →
        t'.configDataExchanged = (t.configDataExchanged
          || decide (action = configurationData) && t.configDataBootUUID == uuid)
          ∧ t'.configDataBootUUID = t.configDataBootUUID := by
      rintro - t' rfl
      simp [haction]
    split_ifs
    all_goals exact hsame .validMsg _ rfl

/-- The answer takes the call from its file, and may open the gate. -/
theorem answer_serves {msg : CStr} {payload : Json} (henv : env.Healthy) (hhas : s.queue.Has calls)
    (hmem : c ∈ waitingIn calls s.queue.queueFiles)
    (hdistinct : ((waitingIn calls s.queue.queueFiles).map fun r => r.2.callUuid).Nodup)
    (hreadable : ∀ r ∈ waitingIn calls s.queue.queueFiles, r.2.Readable)
    (hmsg : response parse msg = some (c.2.callUuid, payload))
    (hvalid : hasValidTimestamp env.timeLibrary payload = true)
    (hsent : s.lastSentMessage = some c.2.message) :
    ∃ s', Event.step parse print (env, .received msg) s = some s' ∧ Served calls c s s' := by
  obtain ⟨type, members, hparse, htype, hlength, rfl⟩ := response_eq_some hmsg
  have hfirst := answeredReadable_eq hmem hdistinct (hreadable c hmem)
  have haction : getActionFromUuid parse env c.2.callUuid s.queue = some c.2.action := by
    rw [getActionFromUuid_eq henv hhas, hfirst]
    rfl
  have hheader : messageHeader 3 (.array [.number type, .string c.2.callUuid, .object members])
      = .ok c.2.callUuid := by
    simp [messageHeader, Json.getArrayItem, Json.children, htype, hlength]
  have hnotkept : ¬(critical c.2.action ∧ (processPayload env c.2.action (.object members)
      c.2.callUuid s.toNode).1 ≠ .validMsg) := by
    rw [kept_iff]
    exact fun h => h fun _ => hvalid
  obtain ⟨st', hdelete, hnum, hleft⟩ := deleteAnswered_eq henv hhas hfirst
  obtain ⟨hgate, huuid⟩ := processPayload_gate hvalid c.2.action c.2.callUuid s.toNode
  let node : Node :=
    { (processPayload env c.2.action (.object members) c.2.callUuid s.toNode).2 with queue := st' }
  refine ⟨{ s with toNode := node }, ?_, ?_, hnum, hgate, huuid, hsent⟩
  · have hresult : validateCallResult parse env
        (.array [.number type, .string c.2.callUuid, .object members]) s.toNode
        = some (⟨(processPayload env c.2.action (.object members) c.2.callUuid s.toNode).1,
          some c.2.callUuid⟩, node) := by
      rw [validateCallResult, hheader]
      dsimp only
      rw [haction]
      dsimp only
      rw [show (Json.array [.number type, .string c.2.callUuid, .object members]).getArrayItem 2
        = some (.object members) from rfl]
      dsimp only
      rw [if_neg hnotkept, processPayload_queue, hdelete]
      rfl
    have hvalidated : validateJsonString parse env msg s.toNode
        = some (⟨(processPayload env c.2.action (.object members) c.2.callUuid s.toNode).1,
          some c.2.callUuid⟩, node) := by
      rw [validateJsonString, hparse]
      exact hresult
    show receiveMessage parse env msg s = _
    rw [receiveMessage, hvalidated]
    rfl
  · intro f hf
    have hf' : s.queue.HasCounter f := by
      cases f <;> simp_all [Store.HasCounter, node]
    have hsame : Function.update calls c.1 (unanswered c.2.callUuid (calls c.1)) f
        = remaining c.2.callUuid calls f := by
      by_cases hfile : f = c.1
      · subst hfile
        rw [Function.update_self, unanswered, remaining]
        refine List.filter_congr fun c' hc' => ?_
        have hread : c'.Readable :=
          hreadable ⟨c.1, c'⟩ (mem_waitingIn.mpr ⟨(mem_waitingIn.mp hmem).1, hc'⟩)
        simp [hread]
      · rw [Function.update_of_ne hfile, remaining, List.filter_eq_self.mpr]
        intro c' hc'
        refine decide_eq_true fun huuid' => hfile ?_
        have hother : (⟨f, c'⟩ : Σ f, Call parse f) ∈ waitingIn calls s.queue.queueFiles :=
          mem_waitingIn.mpr ⟨mem_queueFiles.mpr hf', hc'⟩
        exact congrArg Sigma.fst (List.inj_on_of_nodup_map hdistinct hother hmem huuid')
    rw [← hsame]
    exact hleft f hf

/-- One round publishes the first call of the schedule and has it acknowledged. -/
theorem round_serves {r : Round} {order : List (Σ f, Call parse f)} (h : Waits calls s)
    (horder : Schedule calls s (c :: order)) (hr : r.Serves c) :
    ∃ s', Runs.run (Event.step parse print) r.events s = some s' ∧ Served calls c s s'
      ∧ (sentDuring parse print r.events s).map Attempt.message = [c.2.message] := by
  obtain ⟨hmem, importance, hselect⟩ := horder.selected hr.turnHealthy h
  obtain ⟨payload, hmsg, hvalid⟩ := hr.answered
  obtain ⟨s₁, hturn, hnode, hsent, hattempt⟩ := @turn_publishes parse print r.turnEnv s c
    r.board importance hselect (h.unsent c hmem) hr.online hr.timeSet hr.published
  have hhas₁ : s₁.queue.Has calls := by
    rw [hnode]
    exact h.has
  rw [← hnode] at hmem
  obtain ⟨s', hanswer, hserved⟩ := @answer_serves parse print r.answerEnv calls s₁ c r.answer payload
    hr.answerHealthy hhas₁ hmem (by rw [hnode]; exact h.distinct)
    (by rw [hnode]; exact h.readable) hmsg hvalid hsent
  refine ⟨s', ?_, ⟨hserved.has, ?_, ?_, ?_, hserved.sent⟩, ?_⟩
  · rw [Round.events, Runs.run_cons, hturn, Option.bind_some, Runs.run_cons, hanswer]
    rfl
  · rw [hserved.connectors, hnode]
  · rw [hserved.gate, hnode]
  · rw [hserved.bootUuid, hnode]
  · rw [sentDuring, Round.events, Runs.observed, hturn, hattempt]
    simp [Runs.observed, Event.sent, Event.attempt, hanswer]

/-- After the round the others still wait. -/
theorem Served.waits {s' : Publisher} (hserved : Served calls c s s') (h : Waits calls s) :
    Waits (remaining c.2.callUuid calls) s' := by
  have hfiles : s'.queue.queueFiles = s.queue.queueFiles := by
    simp only [Store.queueFiles, Store.faultFiles, hserved.connectors]
  have hleft : waitingIn (remaining c.2.callUuid calls) s'.queue.queueFiles
      = (waitingIn calls s.queue.queueFiles).filter fun r => r.2.callUuid ≠ c.2.callUuid := by
    rw [hfiles, waitingIn_remaining]
  refine ⟨hserved.has, ?_, ?_, ?_, ?_⟩
  · intro r hr
    rw [hleft] at hr
    exact h.readable r (List.mem_of_mem_filter hr)
  · rw [hleft]
    exact h.distinct.sublist (List.filter_sublist.map _)
  · intro r hr hsame
    rw [hleft] at hr
    rw [hserved.sent] at hsame
    exact message_ne (of_decide_eq_true (List.mem_filter.mp hr).2) (Option.some.inj hsame).symm
  · rw [hserved.connectors]
    exact h.reads

/-- The rest of the schedule is the schedule of what is left. -/
theorem Served.schedule {s' : Publisher} {order : List (Σ f, Call parse f)}
    (hserved : Served calls c s s') (h : Waits calls s) (horder : Schedule calls s (c :: order)) :
    Schedule (remaining c.2.callUuid calls) s' order := by
  have hfiles : s'.queue.faultFiles = s.queue.faultFiles := by
    simp only [Store.faultFiles, hserved.connectors]
  have hdistinct := h.distinct
  rw [Store.queueFiles_eq, waitingIn_cons] at hdistinct
  generalize hall : c :: order = all at horder
  cases horder with
  | opened hopen =>
      rw [waitingIn_singleton] at hall
      have hrest : order = waitingIn (remaining c.2.callUuid calls) s'.queue.faultFiles
          ++ waitingIn (remaining c.2.callUuid calls) [.request] := by
        rw [waitingIn_remaining, waitingIn_remaining, ← List.filter_append, hfiles,
          waitingIn_singleton, ← hall]
        have hnodup : (([] ++ c :: order).map fun r : Σ f, Call parse f => r.2.callUuid).Nodup := by
          rw [List.nil_append, hall, List.map_append]
          rw [List.map_append] at hdistinct
          exact List.nodup_append_comm.mp hdistinct
        exact (filter_split hnodup).symm
      rw [hrest]
      refine .opened ?_
      rw [hserved.gate, hopen, Bool.true_or]
  | @closed before rest key hclosed hcalls haction huuid hfree =>
      have hkeys : ((calls .request).map Call.callUuid).Nodup := by
        rw [List.map_append, List.map_map] at hdistinct
        exact (List.nodup_append.mp hdistinct).1
      have hrequests : ∀ first later, calls .request = first :: later →
          remaining first.callUuid calls .request = later := by
        intro first later hfirst
        rw [hfirst, List.map_cons, List.nodup_cons] at hkeys
        rw [remaining, hfirst, List.filter_cons_of_neg (by simp), List.filter_eq_self]
        intro c' hc'
        refine decide_eq_true fun hsame => hkeys.1 ?_
        rw [← hsame]
        exact List.mem_map_of_mem hc'
      have hfaults : ∀ first later, calls .request = first :: later →
          waitingIn (remaining first.callUuid calls) s'.queue.faultFiles
            = waitingIn calls s.queue.faultFiles := by
        intro first later hfirst
        rw [waitingIn_remaining, hfiles, List.filter_eq_self]
        intro r hr
        refine decide_eq_true fun hsame => ?_
        rw [List.map_append] at hdistinct
        refine (List.nodup_append.mp hdistinct).2.2 first.callUuid ?_ _ (List.mem_map_of_mem hr)
          hsame.symm
        rw [hfirst]
        exact List.mem_map_of_mem (List.mem_map_of_mem List.mem_cons_self)
      cases before with
      | nil =>
          obtain ⟨rfl, rfl⟩ := List.cons.inj hall
          have hopens : s'.configDataExchanged = true := by
            rw [hserved.gate, haction, huuid]
            simp
          have hsched := @Schedule.opened _ (remaining key.callUuid calls) s' hopens
          rwa [hfaults key rest hcalls, waitingIn_singleton, hrequests key rest hcalls] at hsched
      | cons first before =>
          obtain ⟨rfl, rfl⟩ := List.cons.inj hall
          have hcalls' := hrequests first (before ++ key :: rest) hcalls
          have hother : first.callUuid ≠ key.callUuid := by
            intro hsame
            rw [hcalls, List.cons_append, List.map_cons, List.nodup_cons] at hkeys
            refine hkeys.1 ?_
            rw [hsame]
            exact List.mem_map_of_mem (List.mem_append_right _ List.mem_cons_self)
          have hcloses : s'.configDataExchanged = false := by
            rw [hserved.gate, hclosed, ← huuid]
            simp [hother.symm]
          have hsched := Schedule.closed (s := s') hcloses hcalls' haction
            (huuid.trans hserved.bootUuid.symm) fun c' hc' => hfree c' (List.mem_cons_of_mem _ hc')
          rwa [hfaults first (before ++ key :: rest) hcalls] at hsched

end Round

/-! ### All rounds -/

section Rounds

variable {print : Json → Option CStr} {calls : Calls parse} {s : Publisher}
  {order : List (Σ f, Call parse f)}

/-- Every call has its place in the schedule. -/
theorem Schedule.perm (horder : Schedule calls s order) :
    order.Perm (waitingIn calls s.queue.queueFiles) := by
  rw [Store.queueFiles_eq, waitingIn_cons]
  cases horder with
  | opened hopen =>
      rw [waitingIn_singleton]
      exact List.perm_append_comm
  | closed hclosed hcalls haction huuid hfree =>
      rw [hcalls, List.map_append, List.map_cons, List.append_assoc, List.append_assoc,
        List.cons_append, List.cons_append]
      exact (List.perm_append_comm.cons _).append_left _

theorem Schedule.empty (horder : Schedule calls s []) (h : Waits calls s) {f : QueueFile}
    (hf : s.queue.HasCounter f) : s.queue.contents f = [] ∧ s.queue.entries f = 0 := by
  have hnone : calls f = [] := by
    by_contra hne
    obtain ⟨c, hc⟩ := List.exists_mem_of_ne_nil _ hne
    have hmem : (⟨f, c⟩ : Σ f, Call parse f) ∈ waitingIn calls s.queue.queueFiles :=
      mem_waitingIn.mpr ⟨mem_queueFiles.mpr hf, hc⟩
    exact List.not_mem_nil (horder.perm.mem_iff.mpr hmem)
  obtain ⟨htext, hcount⟩ := h.has f hf
  rw [hnone] at htext hcount
  exact ⟨htext, UInt8.toNat_inj.mp hcount⟩

/-- While the server answers what is published, every message is published once, in the order of the
schedule, and the queue becomes empty. -/
theorem queue_drains {rounds : List Round} (h : Waits calls s) (horder : Schedule calls s order)
    (hserves : List.Forall₂ Round.Serves rounds order) :
    ∃ s', Runs.run (Event.step parse print) (rounds.flatMap Round.events) s = some s'
      ∧ (∀ f, s'.queue.HasCounter f → s'.queue.contents f = [] ∧ s'.queue.entries f = 0)
      ∧ ((sentDuring parse print (rounds.flatMap Round.events) s).map Attempt.message).reverse
        = order.map (fun c => c.2.message)
      ∧ order.Perm (waitingIn calls s.queue.queueFiles) := by
  suffices hrun : ∃ s', Runs.run (Event.step parse print) (rounds.flatMap Round.events) s = some s'
      ∧ (∀ f, s'.queue.HasCounter f → s'.queue.contents f = [] ∧ s'.queue.entries f = 0)
      ∧ ((sentDuring parse print (rounds.flatMap Round.events) s).map Attempt.message).reverse
        = order.map (fun c => c.2.message) by
    obtain ⟨s', hrun, hempty, hsent⟩ := hrun
    exact ⟨s', hrun, hempty, hsent, horder.perm⟩
  induction hserves generalizing calls s with
  | nil => exact ⟨s, rfl, fun f hf => horder.empty h hf, rfl⟩
  | @cons r c rounds order hr _ ih =>
      obtain ⟨s₁, hround, hserved, hsent⟩ := @round_serves parse print calls s c r order h
        horder hr
      obtain ⟨s', hrun, hempty, hrest⟩ := ih (hserved.waits h) (hserved.schedule h horder)
      refine ⟨s', ?_, hempty, ?_⟩
      · rw [List.flatMap_cons, Runs.run_append, hround, Option.bind_some, hrun]
      · rw [sentDuring] at hsent hrest ⊢
        rw [List.flatMap_cons, Runs.observed_append _ hround, List.map_append, hsent,
          List.reverse_append, hrest]
        rfl

end Rounds

/-! ### Two rounds -/

def answerTo (uuid : CStr) : CStr :=
  "[3,\"".toList ++ uuid ++ "\",\x7b\"timestamp\":\"2025-01-01T00:00:00Z\"\x7d]".toList

/-- What the library makes of the two messages and their answers. -/
def parseDialogue (text : CStr) : Option Json :=
  if text = answerTo "a1".toList then
    some (.array [.number 3, .string "a1".toList, responsePayload])
  else if text = answerTo "b2".toList then
    some (.array [.number 3, .string "b2".toList, responsePayload])
  else parseSamples text

theorem requestMessage_parsed : parseDialogue requestMessage
    = some (callArray "a1".toList configurationData (.object [])) := rfl

theorem faultMessage_parsed : parseDialogue faultMessage
    = some (callArray "b2".toList faultInformation (.object [])) := rfl

theorem requestMessage_readable : '|' ∉ requestMessage := by decide

theorem faultMessage_readable : '|' ∉ faultMessage := by decide

theorem request_placed :
    configurationData = faultInformation ↔ QueueFile.request ≠ .request := by decide

theorem fault_placed :
    faultInformation = faultInformation ↔ QueueFile.onlineCharger ≠ .request := by decide

theorem faultMessage_clean : newline ∉ faultMessage ∧ NUL ∉ faultMessage := by decide

theorem faultMessage_short : faultMessage.length < messageBuffer := by decide

theorem faultMessage_fits :
    (entryLine faultMessage newYear).length + 2 ≤ QueueFile.onlineCharger.lineBuffer := by decide

def requestCall : Call parseDialogue .request where
  toEntry := requestStored.toEntry
  callUuid := "a1".toList
  action := configurationData
  payload := .object []
  parsed := requestMessage_parsed
  cut := fun hbar => absurd hbar requestMessage_readable
  placed := request_placed

def faultCall : Call parseDialogue .onlineCharger where
  message := faultMessage
  time := newYear
  clean := faultMessage_clean
  message_lt := faultMessage_short
  fits := faultMessage_fits
  callUuid := "b2".toList
  action := faultInformation
  payload := .object []
  parsed := faultMessage_parsed
  cut := fun hbar => absurd hbar faultMessage_readable
  placed := fault_placed

def twoCalls : Calls parseDialogue
  | .request => [requestCall]
  | .onlineCharger => [faultCall]
  | _ => []

/-- The configuration of this boot and a fault wait. -/
def awaitingBoth : Publisher :=
  { powerOn false requestAndFault.disk with
    queue := requestAndFault
    configDataBootUUID := "a1".toList }

def publishingBoard : Board := ⟨true, true, true, true, 60000, true, true⟩

def roundFor (uuid : CStr) : Round := ⟨healthy, publishingBoard, healthy, answerTo uuid⟩

theorem responsePayload_valid : hasValidTimestamp (.posix false) responsePayload = true := by decide

theorem roundFor_serves {c : Σ f, Call parseDialogue f}
    (hanswer : response parseDialogue (answerTo c.2.callUuid)
      = some (c.2.callUuid, responsePayload)) : (roundFor c.2.callUuid).Serves c where
  turnHealthy := healthy_healthy
  answerHealthy := healthy_healthy
  online := rfl
  timeSet := rfl
  published := rfl
  answered := ⟨responsePayload, hanswer, responsePayload_valid⟩

theorem awaitingBoth_waits : Waits twoCalls awaitingBoth := by
  refine ⟨?_, ?_, by decide, ?_, by decide⟩
  · intro f _
    cases f with
    | connector i => exact ⟨rfl, rfl⟩
    | _ => exact ⟨rfl, rfl⟩
  · intro r hr
    have hall : ∀ r ∈ waitingIn twoCalls awaitingBoth.queue.queueFiles, r.2.Readable := by decide
    exact hall r hr
  · intro r _ hsent
    cases hsent

theorem both_are_published_once :
    ∃ s', Runs.run (Event.step parseDialogue printSample)
        ([roundFor "a1".toList, roundFor "b2".toList].flatMap Round.events) awaitingBoth = some s'
      ∧ (∀ f, s'.queue.HasCounter f → s'.queue.contents f = [] ∧ s'.queue.entries f = 0)
      ∧ ((sentDuring parseDialogue printSample
          ([roundFor "a1".toList, roundFor "b2".toList].flatMap Round.events) awaitingBoth).map
            Attempt.message).reverse = [requestMessage, faultMessage] := by
  have horder : Schedule twoCalls awaitingBoth [⟨.request, requestCall⟩, ⟨.onlineCharger, faultCall⟩] :=
    @Schedule.closed _ twoCalls awaitingBoth [] [] requestCall rfl rfl rfl rfl (by decide)
  have hserves : List.Forall₂ Round.Serves [roundFor "a1".toList, roundFor "b2".toList]
      [⟨.request, requestCall⟩, ⟨.onlineCharger, faultCall⟩] :=
    .cons (roundFor_serves (c := ⟨.request, requestCall⟩) rfl)
      (.cons (roundFor_serves (c := ⟨.onlineCharger, faultCall⟩) rfl) .nil)
  obtain ⟨s', hrun, hempty, hsent, -⟩ := queue_drains awaitingBoth_waits horder hserves
  exact ⟨s', hrun, hempty, hsent⟩

end Pmu
