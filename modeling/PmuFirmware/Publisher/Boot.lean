import PmuFirmware.Publisher.MainLoop
import PmuFirmware.Queue.Rewriter
import PmuFirmware.Inbound.Effect

/-!
# The boot configuration

The main loop takes `firstTimeBootUpFlag` from 1 to 2 when it starts `mqtt_task` and on to 3 when it
has set the clock. The first configuration message that is formed then leaves its UUID in
`configDataBootUUID` and the flag at 0, and the response to that message opens the gate for sessions
and faults.

The UUID is empty until then, so it matters that no stored line is taken for a configuration call
without a UUID. Lines are copied in pieces when they are longer than a buffer, so this is required
of all parts of a line.
-/

namespace Pmu

open CLib

/-! ### The steps of the three tasks -/

/-- `generateUUID`, with the values of `rand`. -/
def generateUUID (rand : Fin 36 → Nat) : CStr :=
  List.ofFn fun i : Fin 36 =>
    if i.val = 8 ∨ i.val = 13 ∨ i.val = 18 ∨ i.val = 23 then '-'
    else if i.val = 14 then '4'
    else if i.val = 19 then "89ab".toList.getD (rand i % 4) '8'
    else "0123456789abcdef".toList.getD (rand i % 16) '0'

theorem length_generateUUID (rand : Fin 36 → Nat) : (generateUUID rand).length = 36 :=
  List.length_ofFn

/-- What `msg_string` can hold. -/
abbrev InboundText : Type := { msg : CStr // msg.length < msgStringLen }

variable (parse : CStr → Option Json) (print : Json → Option CStr) (env : Env)

inductive BootEvent
  | startMqtt (networkReady : Bool)
  | setClock
  | turn (b : Board)
  | call (f : QueueFile) (rand : Fin 36 → Nat) (action : CStr) (payload : Json)
  | received (msg : InboundText)
  | configured (numConnectors : Fin 16)

/-- `mqtt_task` only forms a configuration message where the flag is 3 or 0. -/
def BootEvent.step : Env × BootEvent → Publisher → Option Publisher
  | (_, .startMqtt networkReady), s => some (Pmu.startMqtt networkReady s)
  | (_, .setClock), s => some (Pmu.setClock s)
  | (env, .turn b), s => some (publishTurn parse env b s)
  | (env, .call f rand action payload), s =>
    if action = configurationData ∧ s.firstTimeBootUpFlag ≠ 3 ∧ s.firstTimeBootUpFlag ≠ 0 then none
    else queueCall print env f (generateUUID rand) action payload s
  | (env, .received msg), s => receiveMessage parse env msg.val s
  | (_, .configured numConnectors), s => some (nameConnectorFiles numConnectors s)

/-- With nothing in between, the steps of the main loop are its turn. -/
theorem run_mainLoop (b : Board) {s : Publisher} (hflag : s.firstTimeBootUpFlag ≠ 2) :
    Runs.run (BootEvent.step parse print)
      [(env, .startMqtt b.networkReady), (env, .setClock), (env, .turn b)] s
      = some (mainLoop parse env b s) := by
  rw [mainLoop_eq parse env b hflag]
  rfl

/-- A configuration message is formed. -/
def BootEvent.FormsConfiguration : BootEvent → Prop
  | .call _ _ action _ => action = configurationData
  | _ => False

/-! ### The response -/

/-- A line of a queue file that is read as a call with this UUID and action. -/
def HoldsCall (st : Store) (uuid action : CStr) : Prop :=
  ∃ f text, st.disk (.queue f) = some text ∧ ∃ buffer ∈ readLines totalLine text, ∃ message rest,
    strchr '|' (cutAt (· == newline) buffer) = some (message, rest)
      ∧ extractUuidFromJsonResponse parse message = some uuid
      ∧ extractActionFromJsonResponse parse message = some action

/-- A message of three elements that answers a configuration message which is still queued. -/
structure AnswersConfiguration (msg uuid : CStr) (st : Store) : Prop where
  response : ∃ items members, parse msg = some (.array items) ∧ items.length = 3
    ∧ messageHeader 3 (.array items) = .ok uuid ∧ items[2]? = some (.object members)
    ∧ hasValidTimestamp env.timeLibrary (.object members) = true
  queued : HoldsCall parse st uuid configurationData

/-! ### The lines -/

/-- A text that is taken for a configuration call without a UUID. -/
def ReadsUnnamed (text : CStr) : Prop :=
  extractUuidFromJsonResponse parse text = some []
    ∧ extractActionFromJsonResponse parse text = some configurationData

/-- What a reader can take for a message, wherever the text is cut into pieces. -/
def LinePart (w text : CStr) : Prop := w <:+: text ∧ newline ∉ w ∧ '|' ∉ w

/-- Whole lines of which no part is taken for a configuration call without a UUID. -/
structure NamesCalls (text : CStr) : Prop where
  whole : text = [] ∨ ∃ lines, text = lines ++ [newline]
  named : ∀ w, LinePart w text → ¬ ReadsUnnamed parse w

def Store.NamesCalls (st : Store) : Prop :=
  ∀ f text, st.disk (.queue f) = some text → Pmu.NamesCalls parse text

/-- No part of the line that is appended for a message is taken for such a call. -/
def NamedLine (message : CStr) : Prop :=
  ∀ t ∈ env.time, ∀ w, LinePart w (entryLine message t) → ¬ ReadsUnnamed parse w

/-- A message that is not a configuration message is not taken for one either. -/
def BootEvent.NamesCalls : Env × BootEvent → Prop
  | (env, .call _ rand action payload) => action ≠ configurationData →
      ∀ text ∈ print (callArray (generateUUID rand) action payload), NamedLine parse env text
  | _ => True

/-- Nor is a configuration message taken for one without a UUID. -/
def BootEvent.NamesAllCalls : Env × BootEvent → Prop
  | (env, .call _ rand action payload) =>
      ∀ text ∈ print (callArray (generateUUID rand) action payload), NamedLine parse env text
  | _ => True

section Lines

variable {parse} {print} {env} {st : Store}

theorem namesCalls_unlines {text : CStr} (htext : NamesCalls parse text) {lines : List CStr}
    (hlines : ∀ line ∈ lines, line <:+: text) : NamesCalls parse (unlines lines) := by
  refine ⟨?_, fun w hw => ?_⟩
  · cases lines using List.reverseRecOn with
    | nil => exact .inl rfl
    | append_singleton lines line =>
        exact .inr ⟨unlines lines ++ line, by simp [unlines]⟩
  · rcases infix_unlines hw.2.1 hw.1 with rfl | ⟨line, hline, hpart⟩
    · exact htext.named [] ⟨List.nil_infix, hw.2⟩
    · exact htext.named w ⟨hpart.trans (hlines line hline), hw.2⟩

theorem namesCalls_append {text line : CStr} (htext : text = [] ∨ NamesCalls parse text)
    (hline : ∀ w, LinePart w line → ¬ ReadsUnnamed parse w) :
    NamesCalls parse (text ++ (line ++ [newline])) := by
  refine ⟨.inr ⟨text ++ line, by simp⟩, fun w hw => ?_⟩
  have hlast : w <:+: line ++ [newline] → ¬ ReadsUnnamed parse w := by
    intro h
    rcases infix_append_newline hw.2.1 h with hpart | hnil
    · exact hline w ⟨hpart, hw.2⟩
    · exact hline w ⟨List.infix_nil.mp hnil ▸ List.nil_infix, hw.2⟩
  rcases htext with rfl | htext
  · exact hlast hw.1
  · rcases htext.whole with rfl | ⟨lines, rfl⟩
    · exact hlast hw.1
    · have hsplit := hw.1
      rw [List.append_assoc, List.singleton_append] at hsplit
      rcases infix_append_newline hw.2.1 hsplit with hpart | hpart
      · exact htext.named w ⟨hpart.trans (List.prefix_append _ _).isInfix, hw.2⟩
      · exact hlast hpart

theorem Store.NamesCalls.congr {st' : Store} (hst : st.NamesCalls parse)
    (hdisk : ∀ f, st'.disk (.queue f) = st.disk (.queue f)) : st'.NamesCalls parse :=
  fun f text htext => hst f text ((hdisk f).symm.trans htext)

/-- A rewritten file consists of parts of the old one. -/
theorem Store.NamesCalls.apply {job : Rewriter} (hst : st.NamesCalls parse)
    {r : Store × Option Pass} (hrun : job.apply env st = some r) : r.1.NamesCalls parse := by
  rw [Rewriter.apply] at hrun
  split at hrun
  · rw [← Option.some.inj hrun]
    exact hst
  · rename_i text hopen
    have htext : st.disk (.queue job.file) = some text := by
      rw [Store.openRead] at hopen
      split at hopen
      · exact hopen
      · cases hopen
    split at hrun
    · obtain ⟨p, hpass, rfl⟩ := Option.map_eq_some_iff.mp hrun
      dsimp only
      split
      · intro f text' hf
        rw [Store.disk_replace] at hf
        split at hf
        · rw [← Option.some.inj hf, (job.pass_eq hpass).1]
          refine namesCalls_unlines (hst _ _ htext) fun line hline => ?_
          obtain ⟨buffer, hbuffer, rfl⟩ :=
            List.mem_map.mp (job.mem_lines_of_mem_keptLines hline)
          exact (List.takeWhile_prefix _).isInfix.trans (infix_of_mem_readLines hbuffer)
        · exact hst f text' hf
      · exact hst.congr fun f => by simp [Store.remove, Store.put, Rewriter.temp]
    · rw [← Option.some.inj hrun]
      exact hst

theorem handleResponseMessage_namesCalls {uuid : CStr} (hst : st.NamesCalls parse)
    {r : Store × Option Nat} (hrun : handleResponseMessage parse env uuid st = some r) :
    r.1.NamesCalls parse := by
  obtain ⟨q, hq, rfl⟩ := Option.map_eq_some_iff.mp hrun
  rw [Rewriter.handleResponseMessage_apply] at hq
  exact hst.apply hq

theorem faultResponseFile_namesCalls {uuid : CStr} {f : QueueFile} {s s' : Store × Bool}
    (hs : s.1.NamesCalls parse) (hrun : faultResponseFile parse env uuid s f = some s') :
    s'.1.NamesCalls parse := by
  rcases faultResponseFile_cases parse hrun with hsame | ⟨p, hdelete, hr⟩
  · rwa [hsame]
  · rw [Rewriter.deleteFaultFileEntryByUuid_apply] at hdelete
    rw [hr]
    exact (hs.apply hdelete).congr fun _ => rfl

theorem deleteAnswered_namesCalls {action uuid : CStr} {st' : Store} (hst : st.NamesCalls parse)
    (hrun : deleteAnswered parse env action uuid st = some st') : st'.NamesCalls parse := by
  rw [deleteAnswered] at hrun
  split at hrun
  · obtain ⟨r, hresponse, rfl⟩ := Option.map_eq_some_iff.mp hrun
    have hleft := handleResponseMessage_namesCalls hst hresponse
    cases r.2 with
    | none => exact hleft
    | some count => exact hleft.congr fun _ => rfl
  · obtain ⟨s', hfold, rfl⟩ := Option.map_eq_some_iff.mp hrun
    have hkeep : ∀ f (s s' : Store × Bool), s.1.NamesCalls parse → True →
        faultResponseFile parse env uuid s f = some s' → s'.1.NamesCalls parse :=
      fun _ _ _ hs _ hstep => faultResponseFile_namesCalls hs hstep
    exact Runs.run_invariant hkeep hst (.of_forall fun _ _ _ => trivial) hfold

theorem deleteLineIfFound_namesCalls (f : QueueFile) (target : CStr) (hst : st.NamesCalls parse) :
    (deleteLineIfFound env f target st).1.NamesCalls parse := by
  obtain ⟨r, hrun, hr⟩ := Option.map_eq_some_iff.mp
    (Rewriter.deleteLineIfFound_apply env st f target).symm
  rw [← hr]
  exact hst.apply hrun

theorem searchAndDelete_namesCalls (target : CStr) (hst : st.NamesCalls parse) :
    (searchAndDeleteMessageFromAnyFile env target st).st.NamesCalls parse := by
  have hturn : ∀ (i : Nat) (f : QueueFile) (s : Retry), s.st.NamesCalls parse →
      (retryFile env target i f s).st.NamesCalls parse := by
    intro i f s hs
    have hdelete := @deleteLineIfFound_namesCalls parse env s.st f target hs
    rw [retryFile]
    split
    · generalize deleteLineIfFound env f target s.st = r at hdelete
      obtain ⟨st', _ | remaining⟩ := r
      · exact hdelete
      · dsimp only
        split
        · exact hdelete.congr fun _ => rfl
        · exact hdelete
    · exact hs
  have hloop : ∀ (fs : List QueueFile) (i : Nat) (s : Retry), s.st.NamesCalls parse →
      (retryLoop env target i fs s).st.NamesCalls parse := by
    intro fs
    induction fs with
    | nil => exact fun _ _ hs => hs
    | cons f fs ih => exact fun i s hs => ih (i + 1) _ (hturn i f s hs)
  exact hloop st.retryFiles 0 ⟨st, 0, []⟩ hst

theorem GivenUp.namesCalls {st' : Store} (h : GivenUp env st st') (hst : st.NamesCalls parse) :
    st'.NamesCalls parse := by
  induction h with
  | refl => exact hst
  | delete message _ ih => exact searchAndDelete_namesCalls message ih

theorem makeRoom_namesCalls {f : QueueFile} {room : Option Store} (hst : st.NamesCalls parse)
    (hrun : makeRoom env f st = some room) : (room.getD st).NamesCalls parse := by
  rw [makeRoom] at hrun
  split at hrun
  · obtain ⟨r, hremove, rfl⟩ := Option.map_eq_some_iff.mp hrun
    rw [Rewriter.removeOldestMessage_apply] at hremove
    obtain ⟨q, hq, rfl⟩ := Option.map_eq_some_iff.mp hremove
    have hleft : q.1.NamesCalls parse := hst.apply hq
    dsimp only
    cases q.2 with
    | none => exact hst
    | some p => exact hleft.congr fun _ => rfl
  · rw [← Option.some.inj hrun]
    exact hst

theorem append_namesCalls {f : QueueFile} {payload : CStr} {t : UtcTime}
    (hst : st.NamesCalls parse)
    (hline : ∀ w, LinePart w (entryLine payload t) → ¬ ReadsUnnamed parse w) :
    (st.append f payload t).NamesCalls parse := by
  intro g text hg
  by_cases hfile : g = f
  · have htext : st.contents f ++ (entryLine payload t ++ [newline]) = text := by
      simpa [Store.append, Store.put, hfile] using hg
    rw [← htext]
    refine namesCalls_append ?_ hline
    cases hdisk : st.disk (.queue f) with
    | none => exact .inl (by simp [Store.contents, hdisk])
    | some old =>
        refine .inr ?_
        rw [Store.contents, hdisk]
        exact hst f old hdisk
  · refine hst g text ?_
    simpa [Store.append, Store.put, hfile] using hg

theorem savePayloadToSpiffs_namesCalls {f : QueueFile} {payload : CStr} {st' : Store}
    (hst : st.NamesCalls parse)
    (hline : NamedLine parse env payload) (hrun : savePayloadToSpiffs env f payload st = some st') :
    st'.NamesCalls parse := by
  obtain ⟨room, hroom, rfl⟩ := Option.map_eq_some_iff.mp hrun
  have hmade := makeRoom_namesCalls hst hroom
  cases room with
  | none => exact hst
  | some st₁ =>
      dsimp only
      split
      · exact hmade
      · rename_i t htime
        split_ifs
        · exact (append_namesCalls hmade (hline t htime)).congr fun _ => rfl
        · exact append_namesCalls hmade (hline t htime)
        · exact hmade

end Lines

/-! ### Opening the gate -/

/-- Every element of an array has a character of its own and one that ends it. -/
def ReadsShortArrays : Prop :=
  ∀ msg items, parse msg = some (.array items) → 2 * items.length ≤ msg.length

section Received

variable {parse} {env}

theorem holdsCall_of_searchUuidInLines {uuid action : CStr} {buffers : List CStr}
    (h : searchUuidInLines parse uuid buffers = some (some action)) :
    ∃ buffer ∈ buffers, ∃ message rest,
      strchr '|' (cutAt (· == newline) buffer) = some (message, rest)
        ∧ extractUuidFromJsonResponse parse message = some uuid
        ∧ extractActionFromJsonResponse parse message = some action := by
  induction buffers with
  | nil => cases h
  | cons buffer buffers ih =>
      have hlater : searchUuidInLines parse uuid buffers = some (some action) →
          ∃ other ∈ buffer :: buffers, ∃ message rest,
            strchr '|' (cutAt (· == newline) other) = some (message, rest)
              ∧ extractUuidFromJsonResponse parse message = some uuid
              ∧ extractActionFromJsonResponse parse message = some action := by
        intro hrest
        obtain ⟨other, hother, hread⟩ := ih hrest
        exact ⟨other, List.mem_cons_of_mem buffer hother, hread⟩
      rw [searchUuidInLines] at h
      split at h
      · exact hlater h
      · rename_i message rest hsplit
        split at h
        · rename_i huuid
          exact ⟨buffer, List.mem_cons_self, message, rest, hsplit, huuid, Option.some.inj h⟩
        · exact hlater h

theorem holdsCall_of_getActionFromUuid {uuid action : CStr} {st : Store}
    (h : getActionFromUuid parse env uuid st = some action) : HoldsCall parse st uuid action := by
  obtain ⟨f, -, hf⟩ := List.exists_of_findSome?_eq_some h
  split at hf
  · obtain ⟨text, hopen, hfound⟩ := Option.bind_eq_some_iff.mp hf
    rw [Option.join_eq_some_iff] at hfound
    refine ⟨f, text, ?_, holdsCall_of_searchUuidInLines hfound⟩
    rw [Store.openRead] at hopen
    split at hopen
    · exact hopen
    · cases hopen
  · cases hf

/-- No line is found under the empty UUID. -/
theorem not_holdsCall_unnamed {st : Store} (hst : st.NamesCalls parse) :
    ¬ HoldsCall parse st [] configurationData := by
  rintro ⟨f, text, htext, buffer, hbuffer, message, rest, hsplit, hread⟩
  obtain ⟨hline, hbar⟩ := strchr_eq_some hsplit
  have hpart : message <+: cutAt (· == newline) buffer := ⟨'|' :: rest, hline.symm⟩
  refine (hst f text htext).named message ⟨?_, fun hmem => ?_, hbar⟩ hread
  · exact (hpart.trans (List.takeWhile_prefix _)).isInfix.trans (infix_of_mem_readLines hbuffer)
  · simpa using List.mem_takeWhile_imp (hpart.subset hmem)

theorem processPayload_opens {action uuid : CStr} {payload : Json} {s : Node}
    (hopen : (processPayload env action payload uuid s).2.configDataExchanged = true)
    (hclosed : s.configDataExchanged = false) : action = configurationData
      ∧ hasValidTimestamp env.timeLibrary payload = true ∧ s.configDataBootUUID = uuid := by
  rw [processPayload] at hopen
  split at hopen
  · rename_i haction
    rw [processConfigurationDataPayload] at hopen
    split at hopen
    · rename_i hvalid
      simp only [hclosed, Bool.false_or, beq_iff_eq] at hopen
      exact ⟨haction, hvalid, hopen⟩
    · rw [hclosed] at hopen
      cases hopen
  · split_ifs at hopen
    all_goals
      rw [hclosed] at hopen
      cases hopen

theorem validateCall_exchanged (json : Json) (s : Node) :
    (validateCall json s).2.configDataExchanged = s.configDataExchanged := by
  rw [validateCall]
  repeat' first | rfl | split
  rw [processComponentStatus]
  repeat' first | rfl | split

/-- Only a response to the configuration message with the recorded UUID opens the gate. -/
theorem validateJsonString_opens (hparse : ReadsShortArrays parse) {msg : InboundText} {s : Node}
    {r : Reply × Node} (hrun : validateJsonString parse env msg.val s = some r)
    (hclosed : s.configDataExchanged = false) (hopen : r.2.configDataExchanged = true) :
    AnswersConfiguration parse env msg.val s.configDataBootUUID s.queue := by
  have hsame : ∀ {t : Node}, t.configDataExchanged = true → t = s → False := by
    rintro t ht rfl
    rw [hclosed] at ht
    cases ht
  rw [validateJsonString] at hrun
  split at hrun
  · exact (hsame hopen (by rw [← Option.some.inj hrun])).elim
  · rename_i json hmsg
    dsimp only at hrun
    split_ifs at hrun with harray hrange hcall hresult
    · exact (hsame hopen (by rw [← Option.some.inj hrun])).elim
    · rw [← Option.some.inj hrun] at hopen
      rw [validateCall_exchanged, hclosed] at hopen
      cases hopen
    · obtain ⟨items, rfl⟩ : ∃ items, json = .array items := by
        cases json <;> first | exact ⟨_, rfl⟩ | cases harray
      have hthree : items.length = 3 := by
        have hlen := hparse msg.val items hmsg
        have hroom : msg.val.length < 512 := msg.property
        have hcount : items.length % 256 = 3 := hresult
        omega
      rw [validateCallResult] at hrun
      split at hrun
      · exact (hsame hopen (by rw [← Option.some.inj hrun])).elim
      · rename_i uuid hheader
        split at hrun
        · exact (hsame hopen (by rw [← Option.some.inj hrun])).elim
        · rename_i action haction
          split at hrun
          · rename_i members hpayload
            have hprocessed :
                (processPayload env action (.object members) uuid s).2.configDataExchanged = true := by
              dsimp only at hrun
              split at hrun
              · rwa [← Option.some.inj hrun] at hopen
              · obtain ⟨queue, -, rfl⟩ := Option.map_eq_some_iff.mp hrun
                exact hopen
            obtain ⟨rfl, hvalid, rfl⟩ := processPayload_opens hprocessed hclosed
            exact ⟨⟨items, members, hmsg, hthree, hheader, hpayload, hvalid⟩,
              holdsCall_of_getActionFromUuid haction⟩
          · exact (hsame hopen (by rw [← Option.some.inj hrun])).elim
    · rw [← Option.some.inj hrun, validateCallError] at hopen
      refine (hsame hopen ?_).elim
      repeat' first | rfl | split
    · exact (hsame hopen (by rw [← Option.some.inj hrun])).elim

end Received

/-! ### The history of a boot -/

section History

variable (disk : Path → Option CStr)

/-- The flag has gone through its four values and one UUID has been recorded, that of the first
configuration message, which was formed when the flag was 3. -/
structure Recorded (events : List (Env × BootEvent)) (s : Publisher) : Prop where
  flags : Runs.values (BootEvent.step parse print) (fun s => s.firstTimeBootUpFlag) events
    (powerOn false disk) = [1, 2, 3, 0]
  uuids : Runs.values (BootEvent.step parse print) (fun s => s.configDataBootUUID) events
    (powerOn false disk) = [[], s.configDataBootUUID]
  first : ∃ before env f rand payload after s₁,
    events = before ++ (env, .call f rand configurationData payload) :: after
      ∧ generateUUID rand = s.configDataBootUUID
      ∧ Runs.run (BootEvent.step parse print) before (powerOn false disk) = some s₁
      ∧ s₁.firstTimeBootUpFlag = 3 ∧ ∀ event ∈ before, ¬ event.2.FormsConfiguration

/-- The response to the recorded message has been processed while the message was queued. -/
def Answered (events : List (Env × BootEvent)) (s : Publisher) : Prop :=
  ∃ before env msg after s₁, events = before ++ (env, .received msg) :: after
    ∧ Runs.run (BootEvent.step parse print) before (powerOn false disk) = some s₁
    ∧ AnswersConfiguration parse env msg.val s.configDataBootUUID s₁.queue

/-- Nothing has been recorded yet. -/
structure Waiting (events : List (Env × BootEvent)) (s : Publisher) : Prop where
  flag : 1 ≤ s.firstTimeBootUpFlag ∧ s.firstTimeBootUpFlag ≤ 3
  flags : Runs.values (BootEvent.step parse print) (fun s => s.firstTimeBootUpFlag) events
    (powerOn false disk) = List.range' 1 s.firstTimeBootUpFlag
  uuid : s.configDataBootUUID = []
  uuids : Runs.values (BootEvent.step parse print) (fun s => s.configDataBootUUID) events
    (powerOn false disk) = [[]]
  closed : s.configDataExchanged = false
  unformed : ∀ event ∈ events, ¬ event.2.FormsConfiguration
  names : s.queue.NamesCalls parse

/-- What is known after the events. -/
structure BootHistory (events : List (Env × BootEvent)) (s : Publisher) : Prop where
  reached : Runs.run (BootEvent.step parse print) events (powerOn false disk) = some s
  phase : Waiting parse print disk events s ∨ s.firstTimeBootUpFlag = 0
    ∧ Recorded parse print disk events s
    ∧ (s.configDataExchanged = true → Answered parse print disk events s)

variable {parse} {print} {disk} {events : List (Env × BootEvent)} {event : Env × BootEvent}
  {s s' : Publisher}

theorem Recorded.keep (h : Recorded parse print disk events s)
    (hreached : Runs.run (BootEvent.step parse print) events (powerOn false disk) = some s)
    (hstep : BootEvent.step parse print event s = some s')
    (hflag : s'.firstTimeBootUpFlag = s.firstTimeBootUpFlag)
    (huuid : s'.configDataBootUUID = s.configDataBootUUID) :
    Recorded parse print disk (events ++ [event]) s' := by
  refine ⟨?_, ?_, ?_⟩
  · rw [Runs.values_append_singleton _ hreached hstep, if_pos hflag, h.flags]
  · rw [Runs.values_append_singleton _ hreached hstep, if_pos huuid, h.uuids, huuid]
  · obtain ⟨before, env, f, rand, payload, after, s₁, rfl, hrand, hrest⟩ := h.first
    exact ⟨before, env, f, rand, payload, after ++ [event], s₁, by simp, by rw [hrand, huuid],
      hrest⟩

theorem Answered.keep (h : Answered parse print disk events s)
    (huuid : s'.configDataBootUUID = s.configDataBootUUID) :
    Answered parse print disk (events ++ [event]) s' := by
  obtain ⟨before, env, msg, after, s₁, rfl, hreached, hanswers⟩ := h
  exact ⟨before, env, msg, after ++ [event], s₁, by simp, hreached, by rwa [huuid]⟩

theorem Waiting.keep (h : Waiting parse print disk events s)
    (hreached : Runs.run (BootEvent.step parse print) events (powerOn false disk) = some s)
    (hstep : BootEvent.step parse print event s = some s')
    (hflag : s'.firstTimeBootUpFlag = s.firstTimeBootUpFlag)
    (huuid : s'.configDataBootUUID = s.configDataBootUUID)
    (hclosed : s'.configDataExchanged = false) (hevent : ¬ event.2.FormsConfiguration)
    (hnames : s'.queue.NamesCalls parse) : Waiting parse print disk (events ++ [event]) s' where
  flag := by rw [hflag]; exact h.flag
  flags := by rw [Runs.values_append_singleton _ hreached hstep, if_pos hflag, h.flags, hflag]
  uuid := huuid.trans h.uuid
  uuids := by rw [Runs.values_append_singleton _ hreached hstep, if_pos huuid, h.uuids]
  closed := hclosed
  unformed := by
    intro e he
    rcases List.mem_append.mp he with he | he
    · exact h.unformed e he
    · rwa [List.mem_singleton.mp he]
  names := hnames

/-- The flag goes on by one. -/
theorem Waiting.advance (h : Waiting parse print disk events s)
    (hreached : Runs.run (BootEvent.step parse print) events (powerOn false disk) = some s)
    (hflag : s.firstTimeBootUpFlag < 3) (hevent : ¬ event.2.FormsConfiguration)
    (hstep : BootEvent.step parse print event s
      = some { s with firstTimeBootUpFlag := s.firstTimeBootUpFlag + 1 }) :
    Waiting parse print disk (events ++ [event])
      { s with firstTimeBootUpFlag := s.firstTimeBootUpFlag + 1 } where
  flag := ⟨by simp, hflag⟩
  flags := by
    rw [Runs.values_append_singleton _ hreached hstep, if_neg (Nat.succ_ne_self _), h.flags,
      List.range'_concat, Nat.one_mul, Nat.add_comm 1]
  uuid := h.uuid
  uuids := by rw [Runs.values_append_singleton _ hreached hstep, if_pos rfl, h.uuids]
  closed := h.closed
  unformed := by
    intro e he
    rcases List.mem_append.mp he with he | he
    · exact h.unformed e he
    · rwa [List.mem_singleton.mp he]
  names := h.names

theorem queueCall_cases {env : Env} {f : QueueFile} {uuid action : CStr} {payload : Json}
    (hrun : queueCall print env f uuid action payload s = some s') :
    s'.configDataExchanged = s.configDataExchanged
      ∧ ⟨s'.firstTimeBootUpFlag, s'.configDataBootUUID⟩
        = (createJsonCallString print uuid action (some payload)
          ⟨s.firstTimeBootUpFlag, s.configDataBootUUID⟩).2
      ∧ ∃ text ∈ print (callArray uuid action payload),
        savePayloadToSpiffs env f text s.queue = some s'.queue := by
  obtain ⟨text, hprint, hsaved⟩ := Option.bind_eq_some_iff.mp hrun
  obtain ⟨queue, hsave, rfl⟩ := Option.map_eq_some_iff.mp hsaved
  exact ⟨rfl, rfl, text, hprint, hsave⟩

/-- The first configuration message is remembered. -/
theorem Waiting.record {env : Env} {f : QueueFile} {rand : Fin 36 → Nat} {payload : Json}
    (h : Waiting parse print disk events s)
    (hreached : Runs.run (BootEvent.step parse print) events (powerOn false disk) = some s)
    (hthree : s.firstTimeBootUpFlag = 3)
    (hstep : BootEvent.step parse print (env, .call f rand configurationData payload) s = some s') :
    s'.firstTimeBootUpFlag = 0 ∧ s'.configDataExchanged = false
      ∧ Recorded parse print disk (events ++ [(env, .call f rand configurationData payload)]) s' := by
  have hqueue : queueCall print env f (generateUUID rand) configurationData payload s = some s' := by
    rw [BootEvent.step, if_neg fun hforms => hforms.2.1 hthree] at hstep
    exact hstep
  obtain ⟨hexchanged, hstate, -⟩ := queueCall_cases hqueue
  rw [createJsonCallString, if_pos ⟨hthree, rfl⟩] at hstate
  obtain ⟨hflag, huuid⟩ := CallState.mk.inj hstate
  have hnamed : generateUUID rand ≠ [] := by
    intro hempty
    have hlength := length_generateUUID rand
    rw [hempty] at hlength
    cases hlength
  refine ⟨hflag, hexchanged.trans h.closed, ?_, ?_, ?_⟩
  · rw [Runs.values_append_singleton _ hreached hstep, if_neg (by rw [hflag, hthree]; decide),
      h.flags, hthree, hflag]
    rfl
  · rw [Runs.values_append_singleton _ hreached hstep, if_neg (by rwa [huuid, h.uuid]), h.uuids]
    rfl
  · exact ⟨events, env, f, rand, payload, [], s, rfl, huuid.symm, hreached, hthree, h.unformed⟩

theorem receiveMessage_cases {env : Env} {msg : InboundText}
    (hrun : receiveMessage parse env msg.val s = some s') :
    s'.firstTimeBootUpFlag = s.firstTimeBootUpFlag
      ∧ s'.configDataBootUUID = s.configDataBootUUID
      ∧ (s.queue.NamesCalls parse → s'.queue.NamesCalls parse)
      ∧ (ReadsShortArrays parse → s.configDataExchanged = false → s'.configDataExchanged = true →
        AnswersConfiguration parse env msg.val s.configDataBootUUID s.queue) := by
  obtain ⟨r, hvalidate, rfl⟩ := Option.map_eq_some_iff.mp hrun
  obtain ⟨huuid, -, hqueue⟩ := validateJsonString_received hvalidate
  refine ⟨rfl, huuid, fun hnames => ?_, fun hparse hclosed hopen =>
    validateJsonString_opens hparse hvalidate hclosed hopen⟩
  rcases hqueue with hsame | ⟨action, uuid, hdelete⟩
  · exact hsame ▸ hnames
  · exact deleteAnswered_namesCalls hnames hdelete

theorem waiting_step (hparse : ReadsShortArrays parse)
    (hnames : BootEvent.NamesCalls parse print event) (h : Waiting parse print disk events s)
    (hreached : Runs.run (BootEvent.step parse print) events (powerOn false disk) = some s)
    (hstep : BootEvent.step parse print event s = some s') :
    Waiting parse print disk (events ++ [event]) s' ∨ s'.firstTimeBootUpFlag = 0
      ∧ Recorded parse print disk (events ++ [event]) s'
      ∧ (s'.configDataExchanged = true → Answered parse print disk (events ++ [event]) s') := by
  obtain ⟨env, event⟩ := event
  cases event with
  | startMqtt networkReady =>
      by_cases hready : s.firstTimeBootUpFlag = 1 ∧ networkReady
      · have hone := hready.1
        obtain rfl : { s with firstTimeBootUpFlag := s.firstTimeBootUpFlag + 1 } = s' := by
          rw [← Option.some.inj hstep, startMqtt, if_pos hready, hone]
        exact .inl (h.advance hreached (by omega) id hstep)
      · obtain rfl : s = s' := by rw [← Option.some.inj hstep, startMqtt, if_neg hready]
        exact .inl (h.keep hreached hstep rfl rfl h.closed id h.names)
  | setClock =>
      by_cases htwo : s.firstTimeBootUpFlag = 2
      · obtain rfl : { s with firstTimeBootUpFlag := s.firstTimeBootUpFlag + 1 } = s' := by
          rw [← Option.some.inj hstep, setClock, if_pos htwo, htwo]
        exact .inl (h.advance hreached (by omega) id hstep)
      · obtain rfl : s = s' := by rw [← Option.some.inj hstep, setClock, if_neg htwo]
        exact .inl (h.keep hreached hstep rfl rfl h.closed id h.names)
  | turn b =>
      obtain rfl := Option.some.inj hstep
      have hturn := @publishTurn_onlyGivesUp parse env b s
      exact .inl (h.keep hreached hstep hturn.flag hturn.uuid (hturn.exchanged.trans h.closed) id
        (hturn.queue.namesCalls h.names))
  | call f rand action payload =>
      by_cases haction : action = configurationData
      · subst haction
        have hthree : s.firstTimeBootUpFlag = 3 := by
          by_contra hother
          have hzero : s.firstTimeBootUpFlag ≠ 0 := by
            have hone := h.flag.1
            omega
          rw [BootEvent.step, if_pos ⟨rfl, hother, hzero⟩] at hstep
          cases hstep
        obtain ⟨hflag, hclosed, hrecorded⟩ := h.record hreached hthree hstep
        refine .inr ⟨hflag, hrecorded, fun hopen => ?_⟩
        rw [hclosed] at hopen
        cases hopen
      · have hqueue : queueCall print env f (generateUUID rand) action payload s = some s' := by
          rw [BootEvent.step, if_neg fun hforms => haction hforms.1] at hstep
          exact hstep
        obtain ⟨hexchanged, hstate, text, hprint, hsave⟩ := queueCall_cases hqueue
        rw [createJsonCallString, if_neg fun hforms => haction hforms.2] at hstate
        obtain ⟨hflag, huuid⟩ := CallState.mk.inj hstate
        exact .inl (h.keep hreached hstep hflag huuid (hexchanged.trans h.closed) haction
          (savePayloadToSpiffs_namesCalls h.names (hnames haction text hprint) hsave))
  | received msg =>
      obtain ⟨hflag, huuid, hleft, hopens⟩ := receiveMessage_cases hstep
      have hclosed : s'.configDataExchanged = false := by
        refine Bool.eq_false_iff.mpr fun hopen => ?_
        have hqueued := (hopens hparse h.closed hopen).queued
        rw [h.uuid] at hqueued
        exact not_holdsCall_unnamed h.names hqueued
      exact .inl (h.keep hreached hstep hflag huuid hclosed id (hleft h.names))
  | configured numConnectors =>
      obtain rfl := Option.some.inj hstep
      exact .inl (h.keep hreached hstep rfl rfl h.closed id (h.names.congr fun _ => rfl))

/-- Once the UUID is recorded, a step leaves it and the flag as they are, and only the response to
the recorded message opens the gate. -/
theorem recorded_step (hparse : ReadsShortArrays parse) (hzero : s.firstTimeBootUpFlag = 0)
    (hstep : BootEvent.step parse print event s = some s') :
    s'.firstTimeBootUpFlag = 0 ∧ s'.configDataBootUUID = s.configDataBootUUID
      ∧ (s.configDataExchanged = false → s'.configDataExchanged = true → ∃ env msg,
        event = (env, .received msg)
          ∧ AnswersConfiguration parse env msg.val s.configDataBootUUID s.queue) := by
  have hkept : ∀ {t : Publisher}, t.configDataExchanged = s.configDataExchanged →
      s.configDataExchanged = false → t.configDataExchanged = true → ∃ env msg,
        event = (env, .received msg)
          ∧ AnswersConfiguration parse env msg.val s.configDataBootUUID s.queue := by
    intro t hsame hclosed hopen
    rw [hsame, hclosed] at hopen
    cases hopen
  obtain ⟨env, event⟩ := event
  cases event with
  | startMqtt networkReady =>
      obtain rfl : s = s' := by
        rw [← Option.some.inj hstep, startMqtt, if_neg (by rw [hzero]; simp)]
      exact ⟨hzero, rfl, hkept rfl⟩
  | setClock =>
      obtain rfl : s = s' := by
        rw [← Option.some.inj hstep, setClock, if_neg (by rw [hzero]; simp)]
      exact ⟨hzero, rfl, hkept rfl⟩
  | turn b =>
      obtain rfl := Option.some.inj hstep
      have hturn := @publishTurn_onlyGivesUp parse env b s
      exact ⟨hturn.flag.trans hzero, hturn.uuid, hkept hturn.exchanged⟩
  | call f rand action payload =>
      have hqueue : queueCall print env f (generateUUID rand) action payload s = some s' := by
        rw [BootEvent.step, if_neg fun hforms => hforms.2.2 hzero] at hstep
        exact hstep
      obtain ⟨hexchanged, hstate, -⟩ := queueCall_cases hqueue
      rw [createJsonCallString, if_neg (by rw [hzero]; simp)] at hstate
      obtain ⟨hflag, huuid⟩ := CallState.mk.inj hstate
      exact ⟨hflag.trans hzero, huuid, hkept hexchanged⟩
  | received msg =>
      obtain ⟨hflag, huuid, -, hopens⟩ := receiveMessage_cases hstep
      exact ⟨hflag.trans hzero, huuid, fun hclosed hopen =>
        ⟨env, msg, rfl, hopens hparse hclosed hopen⟩⟩
  | configured numConnectors =>
      obtain rfl := Option.some.inj hstep
      exact ⟨hzero, rfl, hkept rfl⟩

theorem bootHistory_nil (hdisk : (powerOn false disk).queue.NamesCalls parse) :
    BootHistory parse print disk [] (powerOn false disk) :=
  ⟨rfl, .inl ⟨⟨le_rfl, show 1 ≤ 3 by decide⟩, rfl, rfl, rfl, rfl, by simp, hdisk⟩⟩

theorem bootHistory_step (hparse : ReadsShortArrays parse)
    (hnames : BootEvent.NamesCalls parse print event) (h : BootHistory parse print disk events s)
    (hstep : BootEvent.step parse print event s = some s') :
    BootHistory parse print disk (events ++ [event]) s' := by
  obtain ⟨hreached, hphase⟩ := h
  refine ⟨Runs.run_append_singleton.mpr ⟨s, hreached, hstep⟩, ?_⟩
  rcases hphase with hwaiting | ⟨hzero, hrecorded, hanswered⟩
  · exact waiting_step hparse hnames hwaiting hreached hstep
  · obtain ⟨hflag, huuid, hopens⟩ := recorded_step hparse hzero hstep
    refine .inr ⟨hflag, hrecorded.keep hreached hstep (hflag.trans hzero.symm) huuid, fun hopen => ?_⟩
    cases hexchanged : s.configDataExchanged with
    | true => exact (hanswered hexchanged).keep huuid
    | false =>
        obtain ⟨env, msg, rfl, hanswers⟩ := hopens hexchanged hopen
        exact ⟨events, env, msg, [], s, rfl, hreached, by rwa [huuid]⟩

/-- What a boot leaves behind is as the next one needs it. -/
theorem files_of_earlier_boot (hdisk : (powerOn false disk).queue.NamesCalls parse)
    (hnames : ∀ event ∈ events, BootEvent.NamesAllCalls parse print event)
    (hrun : Runs.run (BootEvent.step parse print) events (powerOn false disk) = some s) :
    (powerOn false s.queue.disk).queue.NamesCalls parse := by
  have hkeep : ∀ event (s s' : Publisher), s.queue.NamesCalls parse →
      BootEvent.NamesAllCalls parse print event →
      BootEvent.step parse print event s = some s' → s'.queue.NamesCalls parse := by
    rintro ⟨env, event⟩ s s' hs hnamed hstep
    cases event with
    | startMqtt networkReady =>
        rw [← Option.some.inj hstep, startMqtt]
        split
        · exact hs
        · exact hs
    | setClock =>
        rw [← Option.some.inj hstep, setClock]
        split
        · exact hs
        · exact hs
    | turn b =>
        obtain rfl := Option.some.inj hstep
        exact (publishTurn_onlyGivesUp b s).queue.namesCalls hs
    | call f rand action payload =>
        rw [BootEvent.step] at hstep
        split at hstep
        · cases hstep
        · obtain ⟨-, -, text, hprint, hsave⟩ := queueCall_cases hstep
          exact savePayloadToSpiffs_namesCalls hs (hnamed text hprint) hsave
    | received msg => exact (receiveMessage_cases hstep).2.2.1 hs
    | configured numConnectors =>
        obtain rfl := Option.some.inj hstep
        exact hs.congr fun _ => rfl
  have hleft : s.queue.NamesCalls parse :=
    Runs.run_invariant hkeep hdisk (.of_forall fun event hevent _ => hnames event hevent) hrun
  exact hleft.congr fun _ => rfl

/-- With the gate closed, neither faults nor sessions are selected. -/
theorem selectMessage_closed {env : Env} {message : CStr} {importance : Nat}
    (hclosed : s.configDataExchanged = false)
    (hselect : selectMessage env s = some (message, importance)) :
    importance ≠ 3 ∧ importance ≠ 2 := by
  rw [selectMessage, hclosed] at hselect
  simp only [Bool.false_eq_true, if_false] at hselect
  split at hselect
  · cases hselect
  · rename_i text level hrequest
    split at hselect
    · cases hselect
    · rename_i hallowed
      obtain ⟨-, rfl⟩ := Prod.mk.inj (Option.some.inj hselect)
      refine ⟨?_, fun htwo => hallowed ⟨htwo, trivial⟩⟩
      obtain ⟨text', -, hlevel⟩ := Option.map_eq_some_iff.mp hrequest
      rw [← (Prod.mk.inj hlevel).2, messageImportance]
      split_ifs <;> decide

/-- The gate is open only after the boot sequence, the first configuration message and the response
to it; sessions and faults are published only then. -/
theorem gate_opens_after_boot (hparse : ReadsShortArrays parse)
    (hdisk : (powerOn false disk).queue.NamesCalls parse)
    (hnames : ∀ event ∈ events, BootEvent.NamesCalls parse print event)
    (hrun : Runs.run (BootEvent.step parse print) events (powerOn false disk) = some s) :
    (s.configDataExchanged = true →
        Recorded parse print disk events s ∧ Answered parse print disk events s)
      ∧ ∀ env b message importance, offeredMessage env b s = some (message, importance) →
        importance = 3 ∨ importance = 2 →
          Recorded parse print disk events s ∧ Answered parse print disk events s := by
  have hhistory : BootHistory parse print disk events s :=
    Runs.run_history (bootHistory_nil hdisk)
      (fun _ _ _ _ hnamed hbefore hstep => bootHistory_step hparse hnamed hbefore hstep) hnames hrun
  have hgate : s.configDataExchanged = true →
      Recorded parse print disk events s ∧ Answered parse print disk events s := by
    intro hopen
    rcases hhistory.phase with hwaiting | ⟨-, hrecorded, hanswered⟩
    · rw [hwaiting.closed] at hopen
      cases hopen
    · exact ⟨hrecorded, hanswered hopen⟩
  refine ⟨hgate, fun env b message importance hoffered hheld => hgate ?_⟩
  by_contra hclosed
  rw [offeredMessage] at hoffered
  split at hoffered
  · obtain ⟨hthree, htwo⟩ := selectMessage_closed (Bool.eq_false_iff.mpr hclosed) hoffered
    exact hheld.elim hthree htwo
  · cases hoffered

end History

/-! ### A boot -/

def bootUuid : CStr := generateUUID fun _ => 0

def bootMessage : CStr :=
  "[2,\"".toList ++ bootUuid ++ "\",\"ConfigurationData\",\x7b\x7d]".toList

def bootResponse : CStr :=
  "[3,\"".toList ++ bootUuid ++ "\",\x7b\"timestamp\":\"2025-01-01T00:00:00Z\"\x7d]".toList

/-- What the library makes of the two texts. -/
def parseBoot (text : CStr) : Option Json :=
  if text = bootMessage then some (callArray bootUuid configurationData (.object []))
  else if text = bootResponse then some (.array [.number 3, .string bootUuid, responsePayload])
  else none

theorem bootResponse_short : bootResponse.length < msgStringLen := by decide

def bootEvents : List (Env × BootEvent) :=
  [(healthy, .startMqtt true), (healthy, .setClock),
    (healthy, .call .request (fun _ => 0) configurationData (.object [])),
    (healthy, .received ⟨bootResponse, bootResponse_short⟩)]

/-- The board after these events, started with empty files. -/
def booted : Publisher :=
  (Runs.run (BootEvent.step parseBoot fun _ => some bootMessage) bootEvents
    (powerOn false fun _ => none)).getD (powerOn false fun _ => none)

theorem readsShortArrays_parseBoot : ReadsShortArrays parseBoot := by
  intro msg items hmsg
  rw [parseBoot] at hmsg
  split_ifs at hmsg with hmessage hresponse
  · obtain rfl := Json.array.inj (Option.some.inj hmsg)
    rw [hmessage]
    decide
  · obtain rfl := Json.array.inj (Option.some.inj hmsg)
    rw [hresponse]
    decide

theorem booted_opens_gate : booted.configDataExchanged = true
    ∧ Recorded parseBoot (fun _ => some bootMessage) (fun _ => none) bootEvents booted
    ∧ Answered parseBoot (fun _ => some bootMessage) (fun _ => none) bootEvents booted := by
  have hdisk : (powerOn false fun _ => none).queue.NamesCalls parseBoot := by
    rintro f text ⟨⟩
  have hnames : ∀ event ∈ bootEvents,
      BootEvent.NamesCalls parseBoot (fun _ => some bootMessage) event := by
    intro event hevent
    simp only [bootEvents, List.mem_cons, List.not_mem_nil, or_false] at hevent
    rcases hevent with rfl | rfl | rfl | rfl
    · trivial
    · trivial
    · exact fun haction => absurd rfl haction
    · trivial
  have hrun : Runs.run (BootEvent.step parseBoot fun _ => some bootMessage) bootEvents
      (powerOn false fun _ => none) = some booted := rfl
  have hopen : booted.configDataExchanged = true := by decide +kernel
  exact ⟨hopen, (gate_opens_after_boot readsShortArrays_parseBoot hdisk hnames hrun).1 hopen⟩

end Pmu
