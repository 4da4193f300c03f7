import PmuFirmware.Publisher.MainLoop
import PmuFirmware.Queue.Counters

/-!
# The gate for sessions and faults

The gate opens when the configuration message of this boot is acknowledged, so that message must not
wait behind one that the gate holds back. Lines are only appended to the request log and taken out of
it, so what was not ahead of the configuration message when it was queued never gets ahead of it.
-/

namespace Pmu

open CLib

variable (parse : CStr → Option Json)

/-! ### The lines of the request log -/

def lineImportance (line : CStr) : Nat := messageImportance (queuedMessage line)

/-- A session, which is held back. -/
def IsSession (line : CStr) : Prop := lineImportance line = 2

instance : DecidablePred IsSession := fun line =>
  inferInstanceAs (Decidable (lineImportance line = 2))

/-- The lines of the request log. -/
def requestLines (st : Store) : List CStr :=
  (readLines totalLine (st.contents .request)).map (cutAt (· == newline))

/-- The configuration message whose acknowledgement opens the gate. -/
def IsBootConfiguration (uuid line : CStr) : Prop :=
  uuid ≠ [] ∧ lineUuid parse line = some uuid ∧ lineImportance line = 1

/-- The gate is closed and its key is queued. -/
structure AwaitsConfiguration (s : Publisher) : Prop where
  closed : s.configDataExchanged = false
  queued : ∃ line ∈ requestLines s.queue, IsBootConfiguration parse s.configDataBootUUID line

/-- An entry that the deletion of a message leaves as it is. -/
def Entry.Plain {f : QueueFile} (e : Entry f) : Prop := '\r' ∉ e.message

/-- The request log holds the given entries. -/
def Store.Logs (st : Store) (es : List (Entry .request)) : Prop :=
  st.contents .request = fileText es ∧ ∀ e ∈ es, e.Plain

theorem cr_not_mem_timestampText (t : UtcTime) : '\r' ∉ timestampText t := by
  intro h
  have hpad : ∀ {width n : Nat}, '\r' ∉ pad width n := by
    intro width n hmem
    obtain ⟨d, hd, heq⟩ := mem_pad hmem
    have hdigit := (digit_spec d hd).1
    rw [← heq] at hdigit
    exact absurd hdigit (by decide)
  simp only [timestampText, UtcTime.iso, List.mem_append, List.mem_cons, List.not_mem_nil,
    or_false, hpad, false_or] at h
  revert h
  decide

theorem Entry.Plain.cutAt {f : QueueFile} {e : Entry f} (he : e.Plain) :
    cutAt (fun c => c == '\r' || c == newline) (e.line ++ [newline]) = e.line := by
  refine cutAt_append_stop (fun c hc => ?_) (by decide) []
  obtain ⟨hnewline, hnul⟩ := e.line_clean c hc
  refine ⟨?_, hnul⟩
  rw [hnewline, Bool.or_false, beq_eq_false_iff_ne]
  rintro rfl
  rw [Entry.line, entryLine, List.mem_append, List.mem_cons] at hc
  rcases hc with hmessage | hbar | htime
  · exact he hmessage
  · cases hbar
  · exact cr_not_mem_timestampText e.time htime

theorem searchedLines_fileText {f : QueueFile} {es : List (Entry f)} (hes : ∀ e ∈ es, e.Plain) :
    searchedLines (fileText es) = es.map Entry.line := by
  rw [searchedLines, readLines_fileText es f.lineBuffer_le, List.map_map]
  exact List.map_congr_left fun e he => (hes e he).cutAt

theorem requestLines_eq {st : Store} {es : List (Entry .request)} (hst : st.Logs es) :
    requestLines st = es.map Entry.line := by
  rw [requestLines, hst.1, readLines_fileText es (QueueFile.lineBuffer_le _), List.map_map]
  exact List.map_congr_left fun e _ => e.cutAt_line

/-! ### What the operations do to the request log -/

/-- Some entries have been taken out. -/
def Thinned (es : List (Entry .request)) (st : Store) : Prop :=
  ∃ es', es'.Sublist es ∧ st.Logs es'

section Operations

variable {parse} {env : Env} {st : Store} {es : List (Entry .request)}

theorem Store.Logs.thinned (hst : st.Logs es) : Thinned es st := ⟨es, List.Sublist.refl es, hst⟩

theorem Store.Logs.congr {st' : Store} (hst : st.Logs es)
    (hcontents : st'.contents .request = st.contents .request) : st'.Logs es :=
  ⟨hcontents.trans hst.1, hst.2⟩

theorem Store.Logs.replace (hst : st.Logs es) (p : Entry .request → Bool) :
    Thinned es (st.replace .request (fileText (es.filter p))) := by
  refine ⟨es.filter p, List.filter_sublist, ?_, fun e he => hst.2 e (List.mem_of_mem_filter he)⟩
  rw [Store.contents_replace, if_pos rfl]

theorem openRead_of_logs {text : CStr} (hst : st.Logs es)
    (hopen : st.openRead env .request = some text) : text = fileText es := by
  rw [← Store.contents_of_openRead hopen, hst.1]

theorem deleteEntriesByUuid_thinned {size : Nat} (hsize : QueueFile.request.lineBuffer ≤ size)
    {uuid : CStr} (hst : st.Logs es) {r : Store × Option Pass}
    (hrun : deleteEntriesByUuid parse env size .request uuid st = some r) : Thinned es r.1 := by
  rcases deleteEntriesByUuid_cases parse hrun with rfl | ⟨text, p, hopen, -, hr⟩
  · exact hst.thinned
  · obtain rfl := openRead_of_logs hst hopen
    by_cases htemp : env.opensTemp .request = true
    · rw [deleteEntriesByUuid_eq parse hsize hopen htemp uuid] at hrun
      rw [← Option.some.inj hrun]
      exact hst.replace _
    · rw [deleteEntriesByUuid, hopen] at hrun
      dsimp only at hrun
      rw [if_neg htemp] at hrun
      rw [← Option.some.inj hrun]
      exact hst.thinned

theorem handleResponseMessage_thinned {uuid : CStr} (hst : st.Logs es) {r : Store × Option Nat}
    (hrun : handleResponseMessage parse env uuid st = some r) : Thinned es r.1 := by
  obtain ⟨q, hq, rfl⟩ := Option.map_eq_some_iff.mp hrun
  exact deleteEntriesByUuid_thinned le_rfl hst hq

theorem faultResponseFile_request {uuid : CStr} {s s' : Store × Bool} {f : QueueFile}
    (hf : f ≠ .request) (hrun : faultResponseFile parse env uuid s f = some s') :
    s'.1.contents .request = s.1.contents .request := by
  rcases faultResponseFile_cases parse hrun with hsame | ⟨p, -, hr⟩
  · rw [hsame]
  · rw [hr]
    show (Store.replace _ _ _).contents _ = _
    rw [Store.contents_replace, if_neg hf.symm]

theorem handleFaultResponseMessage_request {uuid : CStr} {st' : Store}
    (hrun : handleFaultResponseMessage parse env uuid st = some st') :
    st'.contents .request = st.contents .request := by
  obtain ⟨s', hfold, rfl⟩ := Option.map_eq_some_iff.mp hrun
  have hfiles : ∀ f ∈ st.faultFiles, f ≠ .request := by
    intro f hf hrequest
    simp [hrequest, Store.faultFiles] at hf
  have hkeep : ∀ f (s s' : Store × _), s.1.contents .request = st.contents .request →
      f ≠ QueueFile.request → faultResponseFile parse env uuid s f = some s' →
      s'.1.contents .request = st.contents .request :=
    fun f s s' hs hne hstep => (faultResponseFile_request hne hstep).trans hs
  exact Runs.run_invariant hkeep rfl (.of_forall fun f hf _ => hfiles f hf) hfold

theorem searchAndDelete_thinned (target : CStr) (hst : st.Logs es) :
    Thinned es (searchAndDeleteMessageFromAnyFile env target st).st := by
  rcases search_contents_cases env target st .request with hsame | hsearched
  · exact (hst.congr hsame).thinned
  · rw [hst.1, searchedText, searchedLines_fileText hst.2, List.filter_map] at hsearched
    split at hsearched
    · exact ⟨_, List.filter_sublist, hsearched, fun e he => hst.2 e (List.mem_of_mem_filter he)⟩
    · exact ⟨es, List.Sublist.refl es, hsearched, hst.2⟩

theorem removeOldestMessage_thinned (hst : st.Logs es) {r : Store × Option Nat}
    (hrun : removeOldestMessage env .request st = some r) : Thinned es r.1 := by
  rw [removeOldestMessage] at hrun
  cases hopen : st.openRead env .request with
  | none =>
      rw [hopen] at hrun
      rw [← Option.some.inj hrun]
      exact hst.thinned
  | some text =>
      obtain rfl := openRead_of_logs hst hopen
      rw [hopen] at hrun
      dsimp only at hrun
      split at hrun
      · obtain ⟨o, -, rfl⟩ := Option.map_eq_some_iff.mp hrun
        rw [readLines_fileText es (QueueFile.lineBuffer_le _), foldl_notOldestLine]
        exact hst.replace _
      · rw [← Option.some.inj hrun]
        exact hst.thinned

theorem makeRoom_thinned (hst : st.Logs es) (f : QueueFile) {room : Option Store}
    (hrun : makeRoom env f st = some room) (hf : f = .request) : Thinned es (room.getD st) := by
  subst hf
  rw [makeRoom] at hrun
  split at hrun
  · obtain ⟨r, hremove, rfl⟩ := Option.map_eq_some_iff.mp hrun
    have hthin := removeOldestMessage_thinned hst hremove
    cases hcount : r.2 with
    | none => exact hst.thinned
    | some count =>
        obtain ⟨es', hsub, hlogs⟩ := hthin
        exact ⟨es', hsub, hlogs.congr rfl⟩
  · rw [← Option.some.inj hrun]
    exact hst.thinned

end Operations

/-! ### The condition -/

variable (print : Json → Option CStr)

/-- The store in which a payload is appended. -/
def afterRoom (env : Env) (st : Store) : Store :=
  ((makeRoom env .request st).join).getD st

/-- A call about the configuration, or one whose text is taken for such a call. -/
def Configures (uuid action : CStr) (payload : Json) : Prop :=
  action = configurationData
    ∨ ∃ text ∈ print (callArray uuid action payload), lineImportance text = 1

/-- While the gate is closed, no session is ahead of a configuration message that is queued. -/
def Event.NoSessionAhead : Env × Event → Publisher → Prop
  | (env, .call .request uuid action payload), s =>
    s.configDataExchanged = false → Configures print uuid action payload →
      ∀ line ∈ requestLines (afterRoom env s.queue), ¬ IsSession line
  | _, _ => True

/-- The calls that are queued in the request log are lines that its readers have room for, and the
configuration is queued there. -/
def Event.Legal : Env × Event → Prop
  | (env, .call .request uuid action payload) =>
    ∀ text ∈ print (callArray uuid action payload), ∀ t ∈ env.time,
      ∃ e : Entry .request, e.message = text ∧ e.time = t ∧ e.Plain
  | (_, .call _ _ action _) => action ≠ configurationData
  | _ => True

/-! ### The invariant -/

/-- While the gate is closed, no session is ahead of its key. -/
def KeyFirst (s : Node) : Prop :=
  ∃ es : List (Entry .request), s.queue.Logs es ∧ (s.configDataExchanged = false →
    es.Pairwise fun a b => IsBootConfiguration parse s.configDataBootUUID b.line →
      ¬ IsSession a.line)

section Invariant

variable {parse} {print} {env : Env}

/-- Taking entries out keeps the order; the gate may open, but not close. -/
theorem KeyFirst.thinned {s s' : Node} (hs : KeyFirst parse s)
    (hthin : ∀ es, s.queue.Logs es → Thinned es s'.queue)
    (huuid : s'.configDataBootUUID = s.configDataBootUUID)
    (hgate : s'.configDataExchanged = false → s.configDataExchanged = false) :
    KeyFirst parse s' := by
  obtain ⟨es, hlogs, hpairwise⟩ := hs
  obtain ⟨es', hsub, hlogs'⟩ := hthin es hlogs
  refine ⟨es', hlogs', fun hclosed => ?_⟩
  rw [huuid]
  exact (hpairwise (hgate hclosed)).sublist hsub

theorem GivenUp.thinned {st st' : Store} (h : GivenUp env st st') {es : List (Entry .request)}
    (hst : st.Logs es) : Thinned es st' := by
  induction h with
  | refl => exact hst.thinned
  | delete message _ ih =>
      obtain ⟨es', hsub, hlogs⟩ := ih
      obtain ⟨es'', hsub', hlogs'⟩ := searchAndDelete_thinned message hlogs
      exact ⟨es'', hsub'.trans hsub, hlogs'⟩

theorem publishMessage_keyFirst (b : Board) (message : CStr) (importance : Nat) {s : Publisher}
    (hs : KeyFirst parse s.toNode) :
    KeyFirst parse (publishMessage parse env b message importance s).toNode := by
  have hpublish := @publishMessage_onlyGivesUp parse env b message importance s
  refine hs.thinned (fun _ hlogs => hpublish.queue.thinned hlogs) hpublish.uuid fun hclosed => ?_
  rwa [hpublish.exchanged] at hclosed

theorem mainLoop_keyFirst (b : Board) {s : Publisher} (hs : KeyFirst parse s.toNode) :
    KeyFirst parse (mainLoop parse env b s).toNode := by
  have hready : KeyFirst parse (if s.firstTimeBootUpFlag = 1 ∧ b.networkReady then
      { s with firstTimeBootUpFlag := 3 } else s).toNode := by
    split
    · exact hs
    · exact hs
  rw [mainLoop]
  generalize (if s.firstTimeBootUpFlag = 1 ∧ b.networkReady then
      { s with firstTimeBootUpFlag := 3 } else s) = s' at hready ⊢
  split
  · exact hready
  · exact publishMessage_keyFirst b _ _ hready

theorem receiveMessage_keyFirst {msg : CStr} {s s' : Publisher} (hs : KeyFirst parse s.toNode)
    (hrun : receiveMessage parse env msg s = some s') : KeyFirst parse s'.toNode := by
  obtain ⟨r, hvalidate, rfl⟩ := Option.map_eq_some_iff.mp hrun
  obtain ⟨huuid, hgate, hqueue⟩ := validateJsonString_received hvalidate
  refine hs.thinned (fun es hlogs => ?_) huuid hgate
  rcases hqueue with hqueue | ⟨action, uuid, hdelete⟩
  · rw [hqueue]
    exact hlogs.thinned
  · rw [deleteAnswered] at hdelete
    split at hdelete
    · obtain ⟨q, hresponse, hq⟩ := Option.map_eq_some_iff.mp hdelete
      obtain ⟨es', hsub, hlogs'⟩ := handleResponseMessage_thinned hlogs hresponse
      refine ⟨es', hsub, hlogs'.congr ?_⟩
      rw [← hq]
      split <;> rfl
    · exact (hlogs.congr (handleFaultResponseMessage_request hdelete)).thinned

/-- Saving makes room and then appends the payload, if anything. -/
theorem savePayloadToSpiffs_logs {st st' : Store} {es : List (Entry .request)} {text : CStr}
    (hst : st.Logs es)
    (hlegal : ∀ t ∈ env.time, ∃ e : Entry .request, e.message = text ∧ e.time = t ∧ e.Plain)
    (hrun : savePayloadToSpiffs env .request text st = some st') :
    ∃ es', es'.Sublist es ∧ (afterRoom env st).Logs es' ∧ (st'.Logs es'
      ∨ ∃ e : Entry .request, e.message = text ∧ st'.Logs (es' ++ [e])) := by
  obtain ⟨room, hroom, hsaved⟩ := Option.map_eq_some_iff.mp hrun
  obtain ⟨es', hsub, hlogs⟩ := makeRoom_thinned hst .request hroom rfl
  have hafter : afterRoom env st = room.getD st := by
    rw [afterRoom, hroom]
    rfl
  refine ⟨es', hsub, hafter ▸ hlogs, ?_⟩
  cases room with
  | none => exact .inl (hsaved ▸ hlogs)
  | some st₁ =>
      cases htime : env.time with
      | none =>
          simp only [htime] at hsaved
          exact .inl (hsaved ▸ hlogs)
      | some t =>
          obtain ⟨e, rfl, rfl, hplain⟩ := hlegal t htime
          simp only [htime] at hsaved
          split at hsaved
          · refine .inr ⟨e, rfl, ?_, fun e' he' => ?_⟩
            · have hcontents : st'.contents .request
                  = (st₁.append .request e.message e.time).contents .request := by
                rw [← hsaved]
                split <;> rfl
              rw [hcontents, Store.contents_append, if_pos rfl]
              have htext := hlogs.1
              simp only [Option.getD_some] at htext
              rw [htext]
              simp [fileText, Entry.line]
            · rcases List.mem_append.mp he' with he' | he'
              · exact hlogs.2 e' he'
              · rwa [List.mem_singleton.mp he']
          · exact .inl (hsaved ▸ hlogs)

theorem makeRoom_request {f : QueueFile} (hf : f ≠ .request) {st : Store} {room : Option Store}
    (hrun : makeRoom env f st = some room) :
    (room.getD st).contents .request = st.contents .request := by
  rw [makeRoom] at hrun
  split at hrun
  · obtain ⟨r, hremove, rfl⟩ := Option.map_eq_some_iff.mp hrun
    have hcontents : r.1.contents .request = st.contents .request := by
      rw [removeOldestMessage] at hremove
      split at hremove
      · rw [← Option.some.inj hremove]
      · split at hremove
        · obtain ⟨o, -, rfl⟩ := Option.map_eq_some_iff.mp hremove
          rw [Store.contents_replace, if_neg hf.symm]
        · rw [← Option.some.inj hremove]
    cases hcount : r.2 with
    | none => rfl
    | some count => exact hcontents
  · rw [← Option.some.inj hrun]
    rfl

theorem savePayloadToSpiffs_request {f : QueueFile} (hf : f ≠ .request) {st st' : Store}
    {text : CStr} (hrun : savePayloadToSpiffs env f text st = some st') :
    st'.contents .request = st.contents .request := by
  obtain ⟨room, hroom, hsaved⟩ := Option.map_eq_some_iff.mp hrun
  rw [← makeRoom_request hf hroom]
  cases room with
  | none => rw [← hsaved]; rfl
  | some st₁ =>
      rw [← hsaved]
      dsimp only
      split
      · rfl
      · split
        · split
          · exact (Store.contents_append _ _ _ _ _).trans (if_neg hf.symm)
          · exact (Store.contents_append _ _ _ _ _).trans (if_neg hf.symm)
        · rfl

/-- Where there is no session, the key can be put behind everything. -/
theorem pairwise_of_no_session {uuid : CStr} {es later : List (Entry .request)}
    (hes : ∀ e ∈ es, ¬ IsSession e.line) (hlater : later.length ≤ 1) :
    (es ++ later).Pairwise fun a b => IsBootConfiguration parse uuid b.line →
      ¬ IsSession a.line := by
  refine List.pairwise_append.mpr ⟨?_, ?_, fun a ha _ _ _ => hes a ha⟩
  · exact List.pairwise_iff_forall_sublist.mpr fun hsub _ => hes _ (hsub.subset List.mem_cons_self)
  · match later, hlater with
    | [], _ => exact List.Pairwise.nil
    | [e], _ => exact List.pairwise_singleton _ e

/-- Only a configuration message is remembered as the key. -/
theorem createJsonCallString_uuid {uuid action : CStr} {payload : Option Json} {s : CallState}
    (haction : action ≠ configurationData) :
    (createJsonCallString print uuid action payload s).2 = s := by
  have hsame : ¬ (s.firstTimeBootUpFlag = 3 ∧ action = configurationData) := fun h => haction h.2
  cases payload <;> rw [createJsonCallString, if_neg hsame]

theorem lineImportance_line (e : Entry .request) :
    lineImportance e.line = lineImportance e.message := by
  rw [lineImportance, Entry.line, queuedMessage_entryLine, ← lineImportance]

theorem queueCall_keyFirst {f : QueueFile} {uuid action : CStr} {payload : Json} {s s' : Publisher}
    (hs : KeyFirst parse s.toNode) (hlegal : Event.Legal print (env, .call f uuid action payload))
    (hahead : Event.NoSessionAhead print (env, .call f uuid action payload) s)
    (hrun : queueCall print env f uuid action payload s = some s') : KeyFirst parse s'.toNode := by
  obtain ⟨text, hprinted, hsaved⟩ := Option.bind_eq_some_iff.mp hrun
  obtain ⟨queue, hsave, rfl⟩ := Option.map_eq_some_iff.mp hsaved
  have hprint : text ∈ print (callArray uuid action payload) := hprinted
  clear hrun hprinted hsaved
  by_cases hf : f = .request
  · subst hf
    obtain ⟨es, hlogs, hpairwise⟩ := hs
    obtain ⟨es', hsub, hroom, hsaved⟩ :=
      savePayloadToSpiffs_logs hlogs (fun t ht => hlegal text hprint t ht) hsave
    obtain ⟨later, hlogs', hlater⟩ : ∃ later : List (Entry .request), queue.Logs (es' ++ later)
        ∧ (later = [] ∨ ∃ e : Entry .request, later = [e] ∧ e.message = text) := by
      rcases hsaved with hsaved | ⟨e, he, hsaved⟩
      · exact ⟨[], by rwa [List.append_nil], .inl rfl⟩
      · exact ⟨[e], hsaved, .inr ⟨e, rfl, he⟩⟩
    refine ⟨es' ++ later, hlogs', fun hclosed => ?_⟩
    by_cases hconf : Configures print uuid action payload
    · have hfree : ∀ e ∈ es', ¬ IsSession e.line := by
        intro e he
        have hlines := hahead hclosed hconf
        rw [requestLines_eq hroom] at hlines
        exact hlines e.line (List.mem_map_of_mem he)
      refine pairwise_of_no_session hfree ?_
      rcases hlater with rfl | ⟨e, rfl, -⟩ <;> simp
    · have haction : action ≠ configurationData := fun h => hconf (.inl h)
      have hunimportant : lineImportance text ≠ 1 := fun h => hconf (.inr ⟨text, hprint, h⟩)
      rw [createJsonCallString_uuid haction]
      refine List.pairwise_append.mpr ⟨(hpairwise hclosed).sublist hsub, ?_, ?_⟩
      · rcases hlater with rfl | ⟨e, rfl, -⟩
        · exact List.Pairwise.nil
        · exact List.pairwise_singleton _ e
      · rcases hlater with rfl | ⟨e, rfl, rfl⟩
        · simp
        · intro a _ b hb hboot
          rw [List.mem_singleton.mp hb] at hboot
          exact (hunimportant (lineImportance_line e ▸ hboot.2.2)).elim
  · have haction : action ≠ configurationData := by
      cases f with
      | request => exact (hf rfl).elim
      | _ => exact hlegal
    rw [createJsonCallString_uuid haction]
    exact hs.thinned
      (fun _ hlogs => (hlogs.congr (savePayloadToSpiffs_request hf hsave)).thinned) rfl id

theorem powerOn_keyFirst (exchanged : Bool) {disk : Path → Option CStr}
    {es : List (Entry .request)} (hlogs : (powerOn exchanged disk).queue.Logs es) :
    KeyFirst parse (powerOn exchanged disk).toNode :=
  ⟨es, hlogs, fun _ => List.pairwise_iff_forall_sublist.mpr fun _ hboot => (hboot.1 rfl).elim⟩

theorem step_keyFirst {event : Env × Event} {s s' : Publisher} (hs : KeyFirst parse s.toNode)
    (hlegal : Event.Legal print event) (hahead : Event.NoSessionAhead print event s)
    (hrun : Event.step parse print event s = some s') : KeyFirst parse s'.toNode := by
  obtain ⟨env, event⟩ := event
  cases event with
  | call f uuid action payload => exact queueCall_keyFirst hs hlegal hahead hrun
  | received msg => exact receiveMessage_keyFirst hs hrun
  | turn b =>
      obtain rfl := Option.some.inj hrun
      exact mainLoop_keyFirst b hs
  | configured numConnectors =>
      obtain rfl := Option.some.inj hrun
      exact hs.thinned (fun _ hlogs => (hlogs.congr rfl).thinned) rfl id
  | restarted exchanged =>
      obtain rfl := Option.some.inj hrun
      obtain ⟨es, hlogs, -⟩ := hs
      exact powerOn_keyFirst exchanged (hlogs.congr rfl)

theorem run_keyFirst {events : List (Env × Event)} {s s' : Publisher} (hs : KeyFirst parse s.toNode)
    (hlegal : ∀ event ∈ events, Event.Legal print event)
    (hahead : Runs.Meets (Event.step parse print) (Event.NoSessionAhead print) events s)
    (hrun : Runs.run (Event.step parse print) events s = some s') : KeyFirst parse s'.toNode := by
  have hmeets : Runs.Meets (Event.step parse print)
      (fun event s => Event.Legal print event ∧ Event.NoSessionAhead print event s) events s :=
    .and (.of_forall fun event hevent _ => hlegal event hevent) hahead
  have hstep : ∀ event (s s' : Publisher), KeyFirst parse s.toNode →
      Event.Legal print event ∧ Event.NoSessionAhead print event s →
      Event.step parse print event s = some s' → KeyFirst parse s'.toNode :=
    fun _ _ _ hs hcond hstep => step_keyFirst hs hcond.1 hcond.2 hstep
  exact Runs.run_invariant hstep hs hmeets hrun

end Invariant

/-! ### What is selected -/

/-- With the gate closed, the first line of the request log is selected unless it is a session. -/
theorem selectMessage_isSome_iff {env : Env} {s : Publisher} {e : Entry .request}
    {es : List (Entry .request)} (hclosed : s.configDataExchanged = false)
    (hlogs : s.queue.Logs (e :: es)) :
    (selectMessage env s).isSome = true
      ↔ env.opensForReading .request = true ∧ ¬ IsSession e.line := by
  have hne : s.queue.contents .request ≠ [] := by
    rw [hlogs.1]
    simp [fileText, unlines]
  have hopen : s.queue.openRead env .request
      = if env.opensForReading .request then some (fileText (e :: es)) else none := by
    rw [Store.openRead, ← hlogs.1, Store.contents]
    cases hdisk : s.queue.disk (.queue .request) with
    | none => simp [Store.contents, hdisk] at hne
    | some text => rfl
  have hfirst : firstMessage (fileText (e :: es)) = some (queuedMessage e.message) := by
    have htext : fileText (e :: es) = e.line ++ newline :: fileText es := by
      simp [fileText, unlines]
    rw [htext, firstMessage_entry]
  have himportance : messageImportance (queuedMessage e.message) = lineImportance e.line := by
    rw [lineImportance_line, lineImportance]
  rw [selectMessage, hclosed, getQueuedRequestMessages, hopen]
  by_cases hread : env.opensForReading .request = true
  · by_cases hsession : IsSession e.line
    · rw [IsSession] at hsession
      simp [hread, hfirst, himportance, IsSession, hsession]
    · rw [IsSession] at hsession
      simp [hread, hfirst, himportance, IsSession, hsession]
  · simp [hread]

/-- The gate never keeps its key out: whatever has happened since the files were first written, the
turn publishes something while the boot configuration is queued, provided no session was in the
request log when that message was put there. -/
theorem key_is_offered {parse : CStr → Option Json} {print : Json → Option CStr} (exchanged : Bool)
    {disk : Path → Option CStr} {es : List (Entry .request)} {events : List (Env × Event)}
    {s : Publisher} (hlogs : (powerOn exchanged disk).queue.Logs es)
    (hlegal : ∀ event ∈ events, Event.Legal print event)
    (hahead : Runs.Meets (Event.step parse print) (Event.NoSessionAhead print) events
      (powerOn exchanged disk))
    (hrun : Runs.run (Event.step parse print) events (powerOn exchanged disk) = some s)
    (hawaits : AwaitsConfiguration parse s) {env : Env} (hopen : env.opensForReading .request = true)
    {b : Board} (honline : b.isMqttNetworkOnline = true) (htime : b.isTimeSet = true) :
    (offeredMessage env b s).isSome = true := by
  obtain ⟨es, hlogs, hpairwise⟩ :=
    run_keyFirst (powerOn_keyFirst exchanged hlogs) hlegal hahead hrun
  obtain ⟨hclosed, line, hline, hboot⟩ := hawaits
  rw [requestLines_eq hlogs] at hline
  obtain ⟨key, hkey, rfl⟩ := List.mem_map.mp hline
  rw [offeredMessage, honline, htime, Bool.and_self, if_pos rfl]
  cases es with
  | nil => cases hkey
  | cons first rest =>
      refine (selectMessage_isSome_iff hclosed hlogs).mpr ⟨hopen, fun hsession => ?_⟩
      rcases List.mem_cons.mp hkey with rfl | hrest
      · have himportance := hboot.2.2
        rw [IsSession, himportance] at hsession
        cases hsession
      · exact (List.pairwise_cons.mp (hpairwise hclosed)).1 key hrest hboot hsession

/-! ### A session ahead -/

def sessionMessage : CStr := "[2,\"c3\",\"ChargingSession\",\x7b\x7d]".toList

def sessionEntry : Entry .request := ⟨sessionMessage, newYear, by decide, by decide, by decide⟩

def requestDisk (es : List (Entry .request)) (p : Path) : Option CStr :=
  if p = .queue .request then some (fileText es) else none

def onlineBoard : Board := ⟨true, true, true, true, 0, true, false⟩

/-- The first turn of the loop, and the configuration that arrives afterwards. -/
def startUp : List (Env × Event) :=
  [(healthy, .turn { onlineBoard with brokerStatus := false }),
    (healthy, .call .request "a1".toList configurationData (.object []))]

def printSample (_ : Json) : Option CStr := some requestMessage

/-- The board after `startUp`, on the files of an earlier boot. -/
def started (es : List (Entry .request)) : Publisher :=
  (Runs.run (Event.step parseSamples printSample) startUp (powerOn false (requestDisk es))).getD
    (powerOn false (requestDisk es))

/-- A session left in the request log by an earlier boot is withheld until the configuration behind
it is acknowledged. -/
theorem key_behind_session :
    Runs.run (Event.step parseSamples printSample) startUp
        (powerOn false (requestDisk [sessionEntry])) = some (started [sessionEntry])
      ∧ AwaitsConfiguration parseSamples (started [sessionEntry])
      ∧ offeredMessage healthy onlineBoard (started [sessionEntry]) = none := by
  refine ⟨rfl, ⟨rfl, entryLine requestMessage newYear, ?_, ?_, ?_, ?_⟩, ?_⟩
  all_goals decide +kernel

theorem key_offered_after_start :
    (offeredMessage healthy onlineBoard (started [])).isSome = true := by
  have hlegal : ∀ event ∈ startUp, Event.Legal printSample event := by
    intro event hevent
    simp only [startUp, List.mem_cons, List.not_mem_nil, or_false] at hevent
    rcases hevent with rfl | rfl
    · trivial
    · rintro text ⟨⟩ t ⟨⟩
      exact ⟨⟨requestMessage, newYear, by decide, by decide, by decide⟩, rfl, rfl, by
        rw [Entry.Plain]; decide⟩
  have hahead : Runs.Meets (Event.step parseSamples printSample)
      (Event.NoSessionAhead printSample) startUp (powerOn false (requestDisk [])) := by
    refine ⟨trivial, fun s hs => ⟨fun _ _ => ?_, fun _ _ => trivial⟩⟩
    obtain rfl := Option.some.inj hs
    decide +kernel
  have hawaits : AwaitsConfiguration parseSamples (started []) := by
    refine ⟨rfl, entryLine requestMessage newYear, ?_, ?_, ?_, ?_⟩
    all_goals decide +kernel
  exact key_is_offered false ⟨rfl, by simp⟩ hlegal hahead rfl hawaits rfl rfl rfl

end Pmu
