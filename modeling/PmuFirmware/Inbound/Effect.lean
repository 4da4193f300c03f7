import PmuFirmware.Inbound.Calls

/-!
# The effect of an inbound message

Every message leaves the files as `leftover` says, with the calls the readers see in place of all
calls. Comparing the two queues file by file gives the condition under which they are the same.
-/

namespace Pmu

open CLib

variable {parse : CStr → Option Json}

section Firmware

variable {env : Env} {uuid : CStr} {calls : Calls parse} {st : Store}

/-! ### The validation -/

/-- The payload checks of the critical actions are the same test. -/
theorem processPayload_critical (env : Env) {action : CStr} (haction : critical action)
    (payload : Json) (uuid : CStr) (s : Node) :
    (processPayload env action payload uuid s).1 = .validMsg
      ↔ hasValidTimestamp env.timeLibrary payload = true := by
  have hdistinct : chargingSession ≠ configurationData ∧ chargingSession ≠ chargerPeriodicData
      ∧ chargingSession ≠ pcmPeriodicData ∧ faultInformation ≠ configurationData
      ∧ faultInformation ≠ chargerPeriodicData ∧ faultInformation ≠ pcmPeriodicData
      ∧ faultInformation ≠ chargingSession := by
    decide +kernel
  obtain ⟨h₁, h₂, h₃, h₄, h₅, h₆, h₇⟩ := hdistinct
  by_cases hvalid : hasValidTimestamp env.timeLibrary payload = true
  all_goals
    rcases haction with rfl | rfl | rfl
    · simp [processPayload, processConfigurationDataPayload, hvalid]
    · simp [processPayload, processChargingSessionPayload, processTimestampPayload, hvalid, h₁, h₂,
        h₃]
    · simp [processPayload, processFaultLogPayload, processTimestampPayload, hvalid, h₄, h₅, h₆, h₇]

theorem kept_iff (env : Env) (action : CStr) (payload : Json) (uuid : CStr) (s : Node) :
    critical action ∧ (processPayload env action payload uuid s).1 ≠ .validMsg
      ↔ ¬ Accepts env.timeLibrary action payload := by
  rw [Accepts, Classical.not_imp]
  refine and_congr_right fun haction => ?_
  rw [Ne, processPayload_critical env haction]

/-- What the firmware leaves in the files. -/
def leftover (lib : TimeLibrary) (msg : CStr) (calls : Calls parse) (st : Store) : Calls parse :=
  match response parse msg with
  | none => calls
  | some (uuid, payload) =>
    match answeredReadable uuid calls st.queueFiles with
    | none => calls
    | some ⟨f, c⟩ =>
      if Accepts lib c.action payload then
        Function.update calls f (unanswered uuid (calls f))
      else calls

theorem leftover_of_none {lib : TimeLibrary} {msg : CStr} (hmsg : response parse msg = none) :
    leftover lib msg calls st = calls := by
  rw [leftover, hmsg]

theorem leftover_of_some {lib : TimeLibrary} {msg : CStr} {payload : Json}
    (hmsg : response parse msg = some (uuid, payload)) :
    leftover lib msg calls st
      = match answeredReadable uuid calls st.queueFiles with
        | none => calls
        | some ⟨f, c⟩ =>
          if Accepts lib c.action payload then
            Function.update calls f (unanswered uuid (calls f))
          else calls := by
  rw [leftover, hmsg]

/-- A response is what passes the checks of the first two elements and has an object after them. -/
theorem response_of_three {msg : CStr} {items : List Json} (hmsg : parse msg = some (.array items))
    (hthree : items.length = 3) :
    response parse msg
      = match messageHeader 3 (.array items), (Json.array items).getArrayItem 2 with
        | .ok uuid, some (.object members) => some (uuid, .object members)
        | _, _ => none := by
  obtain ⟨type, id, payload, rfl⟩ := List.length_eq_three.mp hthree
  rw [response, hmsg, messageHeader]
  cases type with
  | number value =>
      by_cases htype : (Json.number value).valueint = 3
      · cases id with
        | string uuid =>
            by_cases hid : uuid.length ≤ 36
            · cases payload <;> simp [Json.getArrayItem, Json.children, htype, hid]
            · cases payload <;> simp [Json.getArrayItem, Json.children, htype, hid]
        | _ => simp [Json.getArrayItem, Json.children, htype]
      · cases id <;> cases payload <;> simp [Json.getArrayItem, Json.children, htype]
  | _ => simp [Json.getArrayItem, Json.children]

/-- Three elements: a response takes its effect and anything else is turned down. -/
theorem validateCallResult_has (henv : env.Healthy) {s : Node} (hst : s.queue.Has calls) {msg : CStr}
    {items : List Json} (hmsg : parse msg = some (.array items)) (hthree : items.length = 3) :
    ∃ r, validateCallResult parse env (.array items) s = some r
      ∧ r.2.queue.numConnectors = s.queue.numConnectors
      ∧ r.2.queue.Has (leftover env.timeLibrary msg calls s.queue) := by
  have hresponse := response_of_three hmsg hthree
  rw [validateCallResult]
  cases hheader : messageHeader 3 (.array items) with
  | error code =>
      rw [hheader] at hresponse
      rw [leftover_of_none hresponse]
      exact ⟨_, rfl, rfl, hst⟩
  | ok uuid =>
      rw [hheader] at hresponse
      have haction := getActionFromUuid_eq henv hst uuid
      cases hfirst : answeredReadable uuid calls s.queue.queueFiles with
      | none =>
          rw [hfirst] at haction
          simp only [haction, Option.map_none]
          refine ⟨_, rfl, rfl, ?_⟩
          cases hr : response parse msg with
          | none => rwa [leftover_of_none hr]
          | some r =>
              have huuid : r.1 = uuid := by
                rw [hr] at hresponse
                split at hresponse <;> simp_all
              rw [leftover_of_some hr, huuid, hfirst]
              exact hst
      | some r =>
          obtain ⟨f, c⟩ := r
          rw [hfirst] at haction
          simp only [haction, Option.map_some]
          split
          · next members hitem =>
              rw [hitem] at hresponse
              rw [leftover_of_some hresponse, hfirst]
              simp only
              by_cases hkept : Accepts env.timeLibrary c.action (.object members)
              · rw [if_pos hkept, if_neg (by rw [kept_iff]; simpa using hkept),
                  processPayload_queue]
                obtain ⟨st', hrun, hnum, hhas⟩ := deleteAnswered_eq henv hst hfirst
                rw [hrun]
                exact ⟨_, rfl, hnum, hhas⟩
              · rw [if_neg hkept, if_pos (by rwa [kept_iff])]
                refine ⟨_, rfl, ?_⟩
                rw [processPayload_queue]
                exact ⟨rfl, hst⟩
          · next hitem =>
              have hnone : response parse msg = none := by
                rw [hresponse]
                split <;> simp_all
              rw [leftover_of_none hnone]
              exact ⟨_, rfl, rfl, hst⟩

theorem response_of_not_three {msg : CStr} {items : List Json}
    (hmsg : parse msg = some (.array items)) (hthree : items.length ≠ 3) :
    response parse msg = none := by
  rw [response, hmsg]
  split
  · next h =>
      cases h
      exact absurd rfl hthree
  · rfl

theorem response_of_not_array {msg : CStr} {json : Json} (hmsg : parse msg = some json)
    (hjson : json.isArray = false) : response parse msg = none := by
  rw [response, hmsg]
  cases json <;> first | rfl | cases hjson

theorem validateCall_queue (json : Json) (s : Node) : (validateCall json s).2.queue = s.queue := by
  rw [validateCall]
  repeat' first | rfl | split
  simp only [processComponentStatus]
  repeat' first | rfl | split

theorem validateCallError_node (parse : CStr → Option Json) (env : Env) (json : Json) (s : Node) :
    (validateCallError parse env json s).2 = s := by
  rw [validateCallError]
  repeat' first | rfl | split

/-- The size of `msg_string`. -/
def msgStringLen : Nat := 512

/-- Whatever arrives, the files are left as `leftover` says. An array of `n` elements takes `2 * n`
characters, so no number of elements is mistaken for another in 8 bits. -/
theorem validateJsonString_has (henv : env.Healthy) {s : Node} (hst : s.queue.Has calls) {msg : CStr}
    (hlen : msg.length < msgStringLen)
    (hsize : ∀ items, parse msg = some (.array items) → 2 * items.length ≤ msg.length) :
    ∃ r, validateJsonString parse env msg s = some r
      ∧ r.2.queue.numConnectors = s.queue.numConnectors
      ∧ r.2.queue.Has (leftover env.timeLibrary msg calls s.queue) := by
  have hsame : response parse msg = none →
      ∀ r : Reply × Node, r.2.queue = s.queue →
        r.2.queue.numConnectors = s.queue.numConnectors
          ∧ r.2.queue.Has (leftover env.timeLibrary msg calls s.queue) := by
    intro hnone r hr
    rw [leftover_of_none hnone, hr]
    exact ⟨rfl, hst⟩
  rw [validateJsonString]
  cases hmsg : parse msg with
  | none => exact ⟨_, rfl, hsame (by rw [response, hmsg]) _ rfl⟩
  | some json =>
      cases hjson : json.isArray with
      | false =>
          refine ⟨(⟨.jsonArrayNotFound, none⟩, s), ?_, hsame (response_of_not_array hmsg hjson) _ rfl⟩
          simp [hjson]
      | true =>
          obtain ⟨items, rfl⟩ : ∃ items, json = .array items := by
            cases json <;> first | exact ⟨_, rfl⟩ | cases hjson
          have hcount : (Json.array items).getArraySize % 256 = items.length := by
            have := hsize items hmsg
            rw [msgStringLen] at hlen
            exact Nat.mod_eq_of_lt (by rw [Json.getArraySize, Json.children]; omega)
          simp only [hjson, if_true, hcount]
          by_cases hthree : items.length = 3
          · obtain ⟨r, hrun, hhas⟩ := validateCallResult_has henv hst hmsg hthree
            exact ⟨r, by simp [hthree, hrun], hhas⟩
          · have hnone := response_of_not_three hmsg hthree
            split_ifs
            · exact ⟨_, rfl, hsame hnone _ rfl⟩
            · exact ⟨_, rfl, hsame hnone _ (validateCall_queue _ _)⟩
            · exact ⟨_, rfl, hsame hnone _ (by rw [validateCallError_node])⟩

end Firmware

/-! ### When the files follow the abstract queue -/

section Exact

variable {uuid : CStr} {calls : Calls parse} {st : Store}

theorem Store.Has.lengths {calls' : Calls parse} (h : st.Has calls) (h' : st.Has calls')
    {f : QueueFile} (hf : st.HasCounter f) : (calls f).length = (calls' f).length := by
  rw [← (h f hf).2, (h' f hf).2]

/-- The call that is answered lies in the file that loses calls. -/
theorem targetFile_of_answered {f : QueueFile} {c : Call parse f}
    (hfirst : answered uuid calls st.queueFiles = some ⟨f, c⟩) :
    targetFile uuid calls st.faultFiles c.action = some f := by
  obtain ⟨before, after, hsplit, hfind, hbefore⟩ := firstCall_eq_some hfirst
  rw [targetFile]
  by_cases haction : c.action = faultInformation
  · have hreq := c.placed.mp haction
    obtain ⟨left, rfl⟩ : ∃ left, before = .request :: left := by
      cases before with
      | nil => exact absurd (List.cons.inj hsplit).1.symm hreq
      | cons g left => exact ⟨left, by rw [(List.cons.inj hsplit).1]⟩
    rw [if_pos haction, (List.cons.inj hsplit).2, List.find?_eq_some_iff_append]
    refine ⟨?_, left, after, rfl, ?_⟩
    · rw [List.any_eq_true]
      have huuid := List.find?_some hfind
      exact ⟨c, List.mem_of_find?_eq_some hfind, huuid⟩
    · intro g hg
      have hnone := hbefore g (by simp [hg])
      rw [List.find?_eq_none] at hnone
      simpa using hnone
  · have hreq : f = .request := by
      by_contra h
      exact haction (c.placed.mpr h)
    rw [if_neg haction, hreq]

theorem expected_of_answered {lib : TimeLibrary} {msg : CStr} {payload : Json}
    (hmsg : response parse msg = some (uuid, payload)) {f : QueueFile} {c : Call parse f}
    (hfirst : answered uuid calls st.queueFiles = some ⟨f, c⟩) :
    expected lib msg calls st
      = if Accepts lib c.action payload then
          Function.update calls f ((calls f).filter fun c => c.callUuid ≠ uuid)
        else calls := by
  rw [expected, hmsg]
  simp only [hfirst, targetFile_of_answered hfirst]

/-- A readable call with the UUID is a call with the UUID. -/
theorem answered_of_readable {files : List QueueFile}
    (hnone : answered uuid calls files = none) : answeredReadable uuid calls files = none := by
  rw [answered, firstCall, List.findSome?_eq_none_iff] at hnone
  rw [answeredReadable, firstCall, List.findSome?_eq_none_iff]
  intro f hf
  have hall := hnone f hf
  rw [Option.map_eq_none_iff, List.find?_eq_none] at hall ⊢
  intro c hc
  have hother := hall c hc
  simp_all

/-- If the calls with the UUID in the file of the first one are all readable, the readers find the
first one. -/
theorem answeredReadable_of_readable {f : QueueFile} {c : Call parse f}
    (hfirst : answered uuid calls st.queueFiles = some ⟨f, c⟩)
    (hread : ∀ c' ∈ calls f, c'.callUuid = uuid → c'.Readable) :
    answeredReadable uuid calls st.queueFiles = some ⟨f, c⟩
      ∧ unanswered uuid (calls f) = (calls f).filter fun c => c.callUuid ≠ uuid := by
  obtain ⟨before, after, hsplit, hfind, hbefore⟩ := firstCall_eq_some hfirst
  have hsame : ∀ c' ∈ calls f, (c'.Readable ∧ c'.callUuid = uuid ↔ c'.callUuid = uuid) :=
    fun c' hc' => and_iff_right_of_imp (hread c' hc')
  constructor
  · rw [answeredReadable, firstCall, List.findSome?_eq_some_iff]
    refine ⟨before, f, after, hsplit, ?_, ?_⟩
    · rw [Option.map_eq_some_iff]
      refine ⟨c, ?_, rfl⟩
      rw [← hfind]
      exact List.find?_congr fun c' hc' => by simp only [hsame c' hc']
    · intro g hg
      have hnone := hbefore g hg
      rw [List.find?_eq_none] at hnone
      rw [Option.map_eq_none_iff, List.find?_eq_none]
      intro c' hc'
      have hother := hnone c' hc'
      simp_all
  · refine List.filter_congr fun c' hc' => ?_
    simp only [hsame c' hc', ne_eq]

theorem leftover_eq_expected {lib : TimeLibrary} {msg : CStr}
    (h : Unobstructed lib msg calls st) :
    leftover lib msg calls st = expected lib msg calls st := by
  cases hmsg : response parse msg with
  | none => rw [leftover_of_none hmsg, expected, hmsg]
  | some r =>
      obtain ⟨uuid, payload⟩ := r
      rw [leftover_of_some hmsg]
      cases hfirst : answered uuid calls st.queueFiles with
      | none =>
          rw [answered_of_readable hfirst, expected, hmsg]
          simp only [hfirst]
      | some r =>
          obtain ⟨f, c⟩ := r
          obtain ⟨hreadable, hrefused⟩ := h uuid payload hmsg f c hfirst
          rw [expected_of_answered hmsg hfirst]
          by_cases haccepts : Accepts lib c.action payload
          · obtain ⟨hsame, hleft⟩ := answeredReadable_of_readable hfirst (hreadable haccepts)
            simp only [hsame, if_pos haccepts, hleft]
          · rw [if_neg haccepts]
            cases hsecond : answeredReadable uuid calls st.queueFiles with
            | none => rfl
            | some r => exact if_neg (hrefused haccepts r.1 r.2 hsecond)

theorem mem_unanswered {f : QueueFile} {c : Call parse f} :
    c ∈ unanswered uuid (calls f) ↔ c ∈ calls f ∧ ¬ (c.Readable ∧ c.callUuid = uuid) := by
  simp [unanswered, imp_iff_not_or]

/-- An unreadable call stays, together with everything that should stay. -/
theorem leftover_keeps {lib : TimeLibrary} {msg : CStr} {payload : Json}
    (hmsg : response parse msg = some (uuid, payload)) (f : QueueFile) :
    ((calls f).filter fun c => c.callUuid ≠ uuid).Sublist (leftover lib msg calls st f)
      ∧ ∀ c ∈ calls f, ¬ c.Readable → c ∈ leftover lib msg calls st f := by
  have hall : ((calls f).filter fun c => c.callUuid ≠ uuid).Sublist (calls f)
      ∧ ∀ c ∈ calls f, ¬ c.Readable → c ∈ calls f :=
    ⟨List.filter_sublist, fun c hc _ => hc⟩
  rw [leftover_of_some hmsg]
  cases answeredReadable uuid calls st.queueFiles with
  | none => exact hall
  | some r =>
      obtain ⟨g, c⟩ := r
      by_cases haccepts : Accepts lib c.action payload
      · simp only [if_pos haccepts]
        by_cases hf : f = g
        · subst hf
          rw [Function.update_self]
          refine ⟨List.monotone_filter_right _ fun c' hc' => ?_, fun c' hc' hread => ?_⟩
          · simp only [ne_eq, decide_eq_true_eq] at hc' ⊢
            exact fun h => hc' h.2
          · exact mem_unanswered.mpr ⟨hc', fun h => hread h.1⟩
        · rwa [Function.update_of_ne hf]
      · simpa only [if_neg haccepts] using hall

/-- Where the lengths of the lists agree, nothing stood in the way. -/
theorem unobstructed_of_lengths {lib : TimeLibrary} {msg : CStr}
    (hlengths : ∀ f, st.HasCounter f →
      (leftover lib msg calls st f).length = (expected lib msg calls st f).length) :
    Unobstructed lib msg calls st := by
  intro uuid payload hmsg f c hfirst
  have hcounter : ∀ {p : ∀ f, Call parse f → Bool} {g : QueueFile} {c' : Call parse g},
      firstCall p calls st.queueFiles = some ⟨g, c'⟩ → st.HasCounter g ∧ c' ∈ calls g := by
    intro p g c' h
    obtain ⟨before, after, hsplit, hfind, -⟩ := firstCall_eq_some h
    refine ⟨?_, List.mem_of_find?_eq_some hfind⟩
    rw [← mem_queueFiles, hsplit]
    simp
  have hexpected : expected lib msg calls st = _ := expected_of_answered hmsg hfirst
  constructor
  · intro haccepts c' hc' huuid
    by_contra hread
    have hlen := hlengths f (hcounter hfirst).1
    have hkept : _ ∧ ∀ c ∈ calls f, ¬ c.Readable → c ∈ leftover lib msg calls st f :=
      leftover_keeps hmsg f
    obtain ⟨hsub, hkeeps⟩ := hkept
    rw [hexpected, if_pos haccepts, Function.update_self] at hlen
    have hmem := hkeeps c' hc' hread
    rw [← hsub.eq_of_length hlen.symm, List.mem_filter] at hmem
    simp [huuid] at hmem
  · intro hrefused f' c' hsecond haccepts
    have hlen := hlengths f' (hcounter hsecond).1
    have hfound : c'.Readable ∧ c'.callUuid = uuid := by
      obtain ⟨_, _, _, hfind, _⟩ := firstCall_eq_some hsecond
      simpa using List.find?_some hfind
    rw [hexpected, if_neg hrefused, leftover_of_some hmsg, hsecond] at hlen
    simp only [if_pos haccepts, Function.update_self] at hlen
    have hmem := (hcounter hsecond).2
    rw [← List.filter_sublist.eq_of_length hlen] at hmem
    exact (mem_unanswered.mp hmem).2 hfound

end Exact

theorem unobstructed_of_has {env : Env} (henv : env.Healthy) {s : Node} {calls : Calls parse}
    (hst : s.queue.Has calls) {msg : CStr} (hlen : msg.length < msgStringLen)
    (hsize : ∀ items, parse msg = some (.array items) → 2 * items.length ≤ msg.length)
    {r : Reply × Node} (hrun : validateJsonString parse env msg s = some r)
    (hexpected : r.2.queue.Has (expected env.timeLibrary msg calls s.queue)) :
    Unobstructed env.timeLibrary msg calls s.queue := by
  obtain ⟨r', hrun', hnum, hleft⟩ := validateJsonString_has henv hst hlen hsize
  obtain rfl : r' = r := Option.some.inj (hrun'.symm.trans hrun)
  refine unobstructed_of_lengths fun f hf => hleft.lengths hexpected ?_
  cases f <;> simp_all [Store.HasCounter]

/-- The files follow the abstract queue exactly when no unreadable call is in the way. -/
theorem inbound_effect_iff {env : Env} (henv : env.Healthy) {s : Node} {calls : Calls parse}
    (hst : s.queue.Has calls) {msg : CStr} (hlen : msg.length < msgStringLen)
    (hsize : ∀ items, parse msg = some (.array items) → 2 * items.length ≤ msg.length) :
    (∃ r, validateJsonString parse env msg s = some r
        ∧ r.2.queue.Has (expected env.timeLibrary msg calls s.queue))
      ↔ Unobstructed env.timeLibrary msg calls s.queue := by
  constructor
  · rintro ⟨r, hrun, hexpected⟩
    exact unobstructed_of_has henv hst hlen hsize hrun hexpected
  · intro h
    obtain ⟨r, hrun, -, hleft⟩ := validateJsonString_has henv hst hlen hsize
    rw [leftover_eq_expected h] at hleft
    exact ⟨r, hrun, hleft⟩

/-! ### Two runs -/

def faultText (occurred : CStr) : CStr :=
  "[2,\"b2\",\"FaultInformation\",\x7b\"occurrenceDateTime\":\"".toList ++ occurred
    ++ "\"\x7d]".toList

def faultPayload (occurred : CStr) : Json :=
  .object [("occurrenceDateTime".toList, .string occurred)]

def responseText : CStr := "[3,\"b2\",\x7b\"timestamp\":\"2025-01-01T00:00:00Z\"\x7d]".toList

def responsePayload : Json := .object [("timestamp".toList, .string "2025-01-01T00:00:00Z".toList)]

/-- What the library makes of the two texts. -/
def parseTexts (occurred text : CStr) : Option Json :=
  if text = responseText then some (.array [.number 3, .string "b2".toList, responsePayload])
  else if text = faultText occurred then
    some (callArray "b2".toList faultInformation (faultPayload occurred))
  else none

def barredDate : CStr := "2025|01".toList

def plainDate : CStr := "2025-01".toList

def barredCall : Call (parseTexts barredDate) .onlineCharger where
  message := faultText barredDate
  time := newYear
  clean := by decide +kernel
  message_lt := by decide +kernel
  fits := by decide +kernel
  callUuid := "b2".toList
  action := faultInformation
  payload := faultPayload barredDate
  parsed := (if_neg (by decide +kernel)).trans (if_pos rfl)
  cut _ := (if_neg (by decide +kernel)).trans (if_neg (by decide +kernel))
  placed := ⟨fun _ => by decide, fun _ => rfl⟩

def plainCall : Call (parseTexts plainDate) .onlineCharger where
  message := faultText plainDate
  time := newYear
  clean := by decide +kernel
  message_lt := by decide +kernel
  fits := by decide +kernel
  callUuid := "b2".toList
  action := faultInformation
  payload := faultPayload plainDate
  parsed := (if_neg (by decide +kernel)).trans (if_pos rfl)
  cut h := absurd h (by decide +kernel)
  placed := ⟨fun _ => by decide, fun _ => rfl⟩

def oneCall (c : Call parse .onlineCharger) : Calls parse
  | .onlineCharger => [c]
  | _ => []

/-- A board on which the call is queued. -/
def waiting (c : Call parse .onlineCharger) : Node where
  queue := alone .onlineCharger (c.toEntry.line ++ [newline])
  configDataExchanged := true
  configDataBootUUID := []
  valueofChangedParameter := 0
  globalComponentValue := 0
  idRequested := 0
  componentRequests := []

theorem waiting_has (c : Call parse .onlineCharger) : (waiting c).queue.Has (oneCall c) := by
  intro f _
  rw [waiting, contents_alone]
  cases f with
  | onlineCharger =>
      rw [if_pos rfl]
      exact ⟨by simp [fileText, unlines, oneCall], by simp [alone, oneCall]⟩
  | _ =>
      rw [if_neg (by simp)]
      exact ⟨rfl, by simp [alone, oneCall]⟩

theorem healthy_healthy : healthy.Healthy := ⟨fun _ => rfl, fun _ => rfl, fun _ => rfl⟩

theorem answered_oneCall (c : Call parse .onlineCharger) :
    answered c.callUuid (oneCall c) (waiting c).queue.queueFiles = some ⟨.onlineCharger, c⟩ := by
  rw [answered, firstCall, Store.queueFiles, Store.faultFiles]
  simp [List.findSome?_cons, oneCall]

theorem response_responseText (occurred : CStr) :
    response (parseTexts occurred) responseText = some ("b2".toList, responsePayload) := by
  have hparse : parseTexts occurred responseText
      = some (.array [.number 3, .string "b2".toList, responsePayload]) := if_pos rfl
  rw [response, hparse]
  exact if_pos ⟨Json.valueint_intCast (by decide) (by decide), by decide⟩

theorem responseText_size (occurred : CStr) (items : List Json)
    (hparse : parseTexts occurred responseText = some (.array items)) :
    2 * items.length ≤ responseText.length := by
  rw [parseTexts, if_pos rfl] at hparse
  cases hparse
  decide +kernel

/-- The call whose date holds a `|` is not deleted by its response. -/
theorem response_misses_barred_call :
    ¬ ∃ r, validateJsonString (parseTexts barredDate) healthy responseText (waiting barredCall)
        = some r
      ∧ r.2.queue.Has (expected (.posix false) responseText (oneCall barredCall)
          (waiting barredCall).queue) := by
  rintro ⟨r, hrun, hexpected⟩
  have hfree := unobstructed_of_has healthy_healthy (waiting_has barredCall) (by decide +kernel)
    (responseText_size barredDate) hrun hexpected
  have hread := (hfree _ _ (response_responseText barredDate) _ _ (answered_oneCall barredCall)).1
    (fun _ => by decide +kernel) barredCall (by simp [oneCall]) rfl
  exact hread (by decide +kernel)

theorem response_deletes_plain_call :
    ∃ r, validateJsonString (parseTexts plainDate) healthy responseText (waiting plainCall) = some r
      ∧ r.2.queue.Has (expected (.posix false) responseText (oneCall plainCall)
          (waiting plainCall).queue) := by
  refine (inbound_effect_iff healthy_healthy (waiting_has plainCall) (by decide +kernel)
    (responseText_size plainDate)).mpr ?_
  intro uuid payload hmsg f c hfirst
  obtain ⟨rfl, rfl⟩ := Prod.mk.inj (Option.some.inj ((response_responseText _).symm.trans hmsg))
  have hmem : ∀ g (c' : Call (parseTexts plainDate) g), c' ∈ oneCall plainCall g → c'.Readable := by
    intro g c' hc'
    cases g with
    | onlineCharger =>
        obtain rfl := List.mem_singleton.mp hc'
        exact (by decide +kernel : plainCall.Readable)
    | _ => cases hc'
  have haccepted : hasValidTimestamp (.posix false) responsePayload = true := by decide +kernel
  exact ⟨fun _ c' hc' _ => hmem f c' hc', fun hrefused => absurd (fun _ => haccepted) hrefused⟩

end Pmu
