import PmuFirmware.Inbound.Validate
import PmuFirmware.Queue.Acknowledge

/-!
# What a response deletes

The abstract queue is a list of calls for each file. A well-formed response answers the first call
with its UUID, in the order request log, online charger, offline charger, connectors; if its payload
is accepted for that call's action, all calls with the UUID leave the file of that call. The firmware
sees only the calls whose text has no `|`; the others do not parse once they are cut. So the files
follow the abstract queue exactly when no unreadable call is among those that matter.
-/

namespace Pmu

open CLib

variable (parse : CStr → Option Json)

/-- A queued message together with what the library reads from its full text. A message that is cut
at a `|` is an unfinished text and does not parse. Faults are queued in the fault files and nothing
else is. -/
structure Call (f : QueueFile) extends Entry f where
  callUuid : CStr
  action : CStr
  payload : Json
  parsed : parse message = some (callArray callUuid action payload)
  cut : '|' ∈ message → parse (queuedMessage message) = none
  placed : action = faultInformation ↔ f ≠ .request

/-- The calls waiting in each file. -/
abbrev Calls := (f : QueueFile) → List (Call parse f)

variable {parse}

/-- The readers see the whole message. -/
def Call.Readable {f : QueueFile} (c : Call parse f) : Prop := '|' ∉ c.message

instance {f : QueueFile} (c : Call parse f) : Decidable c.Readable :=
  inferInstanceAs (Decidable ('|' ∉ c.message))

/-- The files hold the calls, and the counters are their numbers. -/
def Store.Has (st : Store) (calls : Calls parse) : Prop :=
  ∀ f, st.HasCounter f → st.contents f = fileText ((calls f).map Call.toEntry)
    ∧ (st.entries f).toNat = (calls f).length

variable (parse) in
/-- The UUID and the payload of a response: three elements, the first a 3, the second a string of at
most 36 characters, the third an object. -/
def response (msg : CStr) : Option (CStr × Json) :=
  match parse msg with
  | some (.array [.number type, .string uuid, .object members]) =>
    if (Json.number type).valueint = 3 ∧ uuid.length ≤ 36 then some (uuid, .object members) else none
  | _ => none

/-- The payload of a response is good enough for the action of the call. -/
def Accepts (lib : TimeLibrary) (action : CStr) (payload : Json) : Prop :=
  critical action → hasValidTimestamp lib payload = true

instance (lib : TimeLibrary) (action : CStr) (payload : Json) :
    Decidable (Accepts lib action payload) :=
  inferInstanceAs (Decidable (critical action → hasValidTimestamp lib payload = true))

/-- The first call satisfying `p` in the first file that has one. -/
def firstCall (p : ∀ f, Call parse f → Bool) (calls : Calls parse) (files : List QueueFile) :
    Option (Σ f, Call parse f) :=
  files.findSome? fun f => ((calls f).find? (p f)).map (Sigma.mk f)

/-- The first call with the UUID. -/
def answered (uuid : CStr) : Calls parse → List QueueFile → Option (Σ f, Call parse f) :=
  firstCall fun _ c => c.callUuid = uuid

/-- The first call with the UUID among those the readers see. -/
def answeredReadable (uuid : CStr) : Calls parse → List QueueFile → Option (Σ f, Call parse f) :=
  firstCall fun _ c => c.Readable ∧ c.callUuid = uuid

/-- The file that loses calls: the request log, or for a fault the first fault file with the UUID. -/
def targetFile (uuid : CStr) (calls : Calls parse) (faultFiles : List QueueFile) (action : CStr) :
    Option QueueFile :=
  if action = faultInformation then
    faultFiles.find? fun f => (calls f).any fun c => c.callUuid = uuid
  else some .request

/-- The queue after the message, as it should be. -/
def expected (lib : TimeLibrary) (msg : CStr) (calls : Calls parse) (st : Store) : Calls parse :=
  match response parse msg with
  | none => calls
  | some (uuid, payload) =>
    match answered uuid calls st.queueFiles with
    | none => calls
    | some ⟨_, c⟩ =>
      if Accepts lib c.action payload then
        match targetFile uuid calls st.faultFiles c.action with
        | none => calls
        | some f => Function.update calls f ((calls f).filter fun c => c.callUuid ≠ uuid)
      else calls

/-- When the firmware treats the queue as it should: for a response to a queued call, either its
payload is accepted and every call with the UUID in the file of the first one is readable, or it is
not accepted, and not accepted for the first readable call either. -/
def Unobstructed (lib : TimeLibrary) (msg : CStr) (calls : Calls parse) (st : Store) : Prop :=
  ∀ uuid payload, response parse msg = some (uuid, payload) →
    ∀ f (c : Call parse f), answered uuid calls st.queueFiles = some ⟨f, c⟩ →
      (Accepts lib c.action payload → ∀ c' ∈ calls f, c'.callUuid = uuid → c'.Readable)
      ∧ (¬ Accepts lib c.action payload →
          ∀ f' (c' : Call parse f'), answeredReadable uuid calls st.queueFiles = some ⟨f', c'⟩ →
            ¬ Accepts lib c'.action payload)

/-! ### The readers -/

section Readers

variable {f : QueueFile}

theorem uuid_eq_some_iff (c : Call parse f) (uuid : CStr) :
    c.toEntry.uuid parse = some uuid ↔ c.Readable ∧ c.callUuid = uuid := by
  by_cases hread : '|' ∈ c.message
  · have hnone : c.toEntry.uuid parse = none := by
      rw [Entry.uuid, extractUuidFromJsonResponse, c.cut hread]
      rfl
    simp [hnone, Call.Readable, hread]
  · have hsome : c.toEntry.uuid parse = some c.callUuid := by
      rw [Entry.uuid, queuedMessage_eq_self hread, extractUuidFromJsonResponse, c.parsed]
      rfl
    simp [hsome, Call.Readable, hread]

theorem action_of_readable {c : Call parse f} (hread : c.Readable) :
    c.toEntry.action parse = some c.action := by
  rw [Entry.action, queuedMessage_eq_self hread, extractActionFromJsonResponse, c.parsed]
  rfl

/-- What is left of a file after the readable calls with the UUID are deleted. -/
def unanswered (uuid : CStr) (calls : List (Call parse f)) : List (Call parse f) :=
  calls.filter fun c => ¬ (c.Readable ∧ c.callUuid = uuid)

theorem others_toEntry (uuid : CStr) (calls : List (Call parse f)) :
    others parse uuid (calls.map Call.toEntry) = (unanswered uuid calls).map Call.toEntry := by
  rw [others, unanswered, List.filter_map]
  congr 1
  refine List.filter_congr fun c _ => ?_
  simp [uuid_eq_some_iff]

theorem find?_toEntry (uuid : CStr) (calls : List (Call parse f)) :
    ((calls.map Call.toEntry).find? fun e => e.uuid parse = some uuid)
      = (calls.find? fun c => c.Readable ∧ c.callUuid = uuid).map Call.toEntry := by
  rw [List.find?_map]
  congr 2
  funext c
  simp [uuid_eq_some_iff]

end Readers

/-! ### The firmware -/

section Firmware

variable {env : Env} {uuid : CStr} {calls : Calls parse} {st : Store}

theorem Store.Has.contents_ne_nil (hst : st.Has calls) {f : QueueFile} (hf : st.HasCounter f)
    (hne : calls f ≠ []) : st.contents f ≠ [] := by
  rw [(hst f hf).1, fileText]
  simpa [unlines_eq_nil] using hne

/-- Looking up a UUID finds the action of the first readable call. -/
theorem getActionFromUuid_eq (henv : env.Healthy) (hst : st.Has calls) (uuid : CStr) :
    getActionFromUuid parse env uuid st
      = (answeredReadable uuid calls st.queueFiles).map fun r => r.2.action := by
  have hfile : ∀ f ∈ st.queueFiles,
      (if 0 < st.entries f then searchUuidInFile parse env uuid f st else none)
        = (((calls f).find? fun c => c.Readable ∧ c.callUuid = uuid).map (Sigma.mk f)).map
            fun r => r.2.action := by
    intro f hmem
    have hf := mem_queueFiles.mp hmem
    by_cases hnil : calls f = []
    · have hzero : st.entries f = 0 := by
        rw [← UInt8.toNat_inj, (hst f hf).2, hnil]
        rfl
      rw [if_neg (by simp [hzero]), hnil]
      rfl
    · have hpos : 0 < st.entries f := by
        rw [UInt8.lt_iff_toNat_lt, (hst f hf).2]
        exact List.length_pos_iff.mpr hnil
      have hopen := henv.openRead (hst.contents_ne_nil hf hnil)
      rw [(hst f hf).1] at hopen
      rw [if_pos hpos, searchUuidInFile_entries parse hopen, find?_toEntry]
      cases hfind : (calls f).find? fun c => c.Readable ∧ c.callUuid = uuid with
      | none => rfl
      | some c =>
          have hread : c.Readable := by
            have := List.find?_some hfind
            simp only [decide_eq_true_eq] at this
            exact this.1
          exact action_of_readable hread
  rw [getActionFromUuid, answeredReadable, firstCall, List.map_findSome?]
  generalize st.queueFiles = files at hfile
  induction files with
  | nil => rfl
  | cons f files ih =>
      have htail := ih fun g hg => hfile g (by simp [hg])
      rw [List.findSome?_cons, List.findSome?_cons, hfile f (by simp), htail]
      rfl

/-- What is known of the first call that satisfies `p`. -/
theorem firstCall_eq_some {p : ∀ f, Call parse f → Bool} {files : List QueueFile} {f : QueueFile}
    {c : Call parse f} (hfirst : firstCall p calls files = some ⟨f, c⟩) :
    ∃ before after, files = before ++ f :: after ∧ (calls f).find? (p f) = some c
      ∧ ∀ g ∈ before, (calls g).find? (p g) = none := by
  obtain ⟨before, g, after, hsplit, hg, hbefore⟩ := List.findSome?_eq_some_iff.mp hfirst
  obtain ⟨c', hc', heq⟩ := Option.map_eq_some_iff.mp hg
  obtain ⟨rfl, hcc⟩ := Sigma.mk.inj heq
  obtain rfl := eq_of_heq hcc
  exact ⟨before, after, hsplit, hc', fun g hg => by simpa using hbefore g hg⟩

/-- A file rewritten with fewer calls, and its counter. -/
theorem Store.Has.update (hst : st.Has calls) {f : QueueFile} {left : List (Call parse f)}
    (hleft : left.length ≤ (calls f).length) (hf : st.HasCounter f) {st' : Store}
    (hnum : st'.numConnectors = st.numConnectors)
    (htext : st'.contents f = fileText (left.map Call.toEntry))
    (hcount : (st'.entries f).toNat = left.length % 256)
    (hcontents : ∀ g, g ≠ f → st'.contents g = st.contents g)
    (hentries : ∀ g, st.HasCounter g → g ≠ f → st'.entries g = st.entries g) :
    st'.Has (Function.update calls f left) := by
  intro g hg
  have hg' : st.HasCounter g := by
    cases g <;> simp_all [Store.HasCounter]
  by_cases hgf : g = f
  · subst hgf
    have hlt : (st.entries g).toNat < 256 := UInt8.toNat_lt _
    rw [(hst g hf).2] at hlt
    rw [Function.update_self, htext, hcount, Nat.mod_eq_of_lt (by omega)]
    exact ⟨rfl, rfl⟩
  · rw [Function.update_of_ne hgf, hcontents g hgf, hentries g hg' hgf]
    exact hst g hg'

theorem length_unanswered_le {f : QueueFile} (cs : List (Call parse f)) :
    (unanswered uuid cs).length ≤ cs.length := List.length_filter_le _ _

/-- `handle_response_message` deletes the readable calls with the UUID from the request file. -/
theorem handleResponseMessage_calls (henv : env.Healthy) (hst : st.Has calls)
    (hne : calls .request ≠ []) (uuid : CStr) :
    ∃ st' count, handleResponseMessage parse env uuid st = some (st', some count)
      ∧ st'.numConnectors = st.numConnectors
      ∧ (st'.setEntries .request count).Has
        (Function.update calls .request (unanswered uuid (calls .request))) := by
  have hentries : (calls .request).map Call.toEntry ≠ [] := by simpa using hne
  have hrun := @handleResponseMessage_eq parse env uuid henv _ _ (hst .request trivial).1 hentries
  rw [others_toEntry] at hrun
  have hcounter : st.HasCounter .request := trivial
  refine ⟨_, _, hrun, rfl, ?_⟩
  refine hst.update (length_unanswered_le _) hcounter rfl ?_ ?_ ?_ ?_
  · rw [Store.contents_setEntries, Store.contents_replace, if_pos rfl]
  · rw [Store.entries_setEntries, if_pos rfl, List.length_map]
  · intro g hg
    rw [Store.contents_setEntries, Store.contents_replace, if_neg hg]
  · intro g _ hg
    simp [Store.setEntries, hg]

/-- `handle_fault_response_message` deletes them from the first fault file with such a call. -/
theorem handleFaultResponseMessage_calls (henv : env.Healthy) (hst : st.Has calls)
    {before after : List QueueFile} {f : QueueFile} (hsplit : st.faultFiles = before ++ f :: after)
    {c : Call parse f} (hmem : c ∈ calls f) (hc : c.Readable ∧ c.callUuid = uuid)
    (hbefore : ∀ g ∈ before, ∀ c' ∈ calls g, ¬ (c'.Readable ∧ c'.callUuid = uuid)) :
    ∃ st', handleFaultResponseMessage parse env uuid st = some st'
      ∧ st'.numConnectors = st.numConnectors
      ∧ st'.Has (Function.update calls f (unanswered uuid (calls f))) := by
  have hcounters : ∀ g ∈ before ++ f :: after, st.HasCounter g :=
    fun g hg => (faultFiles_hasCounter st g (hsplit ▸ hg)).1
  have hf : st.HasCounter f := hcounters f (by simp)
  obtain ⟨htext, hcount⟩ := hst f hf
  have habsent : ∀ g ∈ before, ∃ es : List (Entry g),
      st.contents g = fileText es ∧ ∀ e ∈ es, e.uuid parse ≠ some uuid := by
    intro g hg
    refine ⟨_, (hst g (hcounters g (by simp [hg]))).1, fun e he => ?_⟩
    obtain ⟨c', hc', rfl⟩ := List.mem_map.mp he
    rw [Ne, uuid_eq_some_iff]
    exact hbefore g hg c' hc'
  have hnot : f ∉ before := fun hf' => hbefore f hf' c hmem hc
  have hcounted : st.entries f ≠ 0 := by
    intro h
    rw [h] at hcount
    exact List.ne_nil_of_mem hmem (List.length_eq_zero_iff.mp hcount.symm)
  obtain ⟨st', hrun, hnum, hcontents, hentries, hother, hsame⟩ :=
    handleFaultResponseMessage_of_present henv hsplit habsent htext
      ⟨c.toEntry, List.mem_map.mpr ⟨c, hmem, rfl⟩, (uuid_eq_some_iff c uuid).mpr hc⟩ hcounted hnot
  rw [others_toEntry] at hcontents hentries
  refine ⟨st', hrun, hnum, ?_⟩
  refine hst.update (length_unanswered_le _) hf hnum hcontents
    (by rw [hentries, List.length_map]) hother ?_
  intro g hg hgf
  refine hsame g hgf fun _ => ?_
  rw [(hst g hg).1, lineCount_fileText, List.length_map, (hst g hg).2]

/-- The handlers delete the readable calls with the UUID from the file of the first one. -/
theorem deleteAnswered_eq (henv : env.Healthy) (hst : st.Has calls) {f : QueueFile}
    {c : Call parse f} (hfirst : answeredReadable uuid calls st.queueFiles = some ⟨f, c⟩) :
    ∃ st', deleteAnswered parse env c.action uuid st = some st'
      ∧ st'.numConnectors = st.numConnectors
      ∧ st'.Has (Function.update calls f (unanswered uuid (calls f))) := by
  obtain ⟨before, after, hsplit, hfind, hbefore⟩ := firstCall_eq_some hfirst
  have hmem : c ∈ calls f := List.mem_of_find?_eq_some hfind
  have hc : c.Readable ∧ c.callUuid = uuid := by simpa using List.find?_some hfind
  by_cases hreq : f = .request
  · subst hreq
    have haction : c.action ≠ faultInformation := fun h => c.placed.mp h rfl
    obtain ⟨st', count, hrun, hnum, hhas⟩ :=
      handleResponseMessage_calls henv hst (List.ne_nil_of_mem hmem) uuid
    exact ⟨st'.setEntries .request count, by rw [deleteAnswered, if_pos haction, hrun]; rfl, hnum,
      hhas⟩
  · have haction : c.action = faultInformation := c.placed.mpr hreq
    obtain ⟨left, rfl⟩ : ∃ left, before = .request :: left := by
      cases before with
      | nil => exact absurd (List.cons.inj hsplit).1.symm hreq
      | cons g left => exact ⟨left, by rw [(List.cons.inj hsplit).1]⟩
    have hnone : ∀ g ∈ left, ∀ c' ∈ calls g, ¬ (c'.Readable ∧ c'.callUuid = uuid) := by
      intro g hg c' hc'
      simpa using List.find?_eq_none.mp (hbefore g (by simp [hg])) c' hc'
    obtain ⟨st', hrun, hnum, hhas⟩ :=
      handleFaultResponseMessage_calls henv hst (List.cons.inj hsplit).2 hmem hc hnone
    exact ⟨st', by rw [deleteAnswered, if_neg (by simp [haction]), hrun], hnum, hhas⟩

end Firmware

end Pmu
