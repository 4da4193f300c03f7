import PmuFirmware.Queue.Acknowledge
import PmuFirmware.Queue.Enqueueing
import PmuFirmware.Messages.FormMessage

/-!
# What comes back out of a queue file

A message is written as `message|timestamp` and read back by splitting a line at its first `|`. The
readers therefore undo the writer only for messages without `|`. The handlers moreover read into
fixed buffers, so a message must leave room for its timestamp, and it must fit the array it is
copied to. `roundTrip_iff` says that nothing else is needed.
-/

namespace Pmu

open CLib

variable (parse : CStr → Option Json)

/-- The response handler in charge of a file. -/
def acknowledge (env : Env) (uuid : CStr) (f : QueueFile) (st : Store) : Option Store :=
  match f with
  | .request => (handleResponseMessage parse env uuid st).map Prod.fst
  | _ => handleFaultResponseMessage parse env uuid st

/-- The message read next for a file. -/
def nextMessage (env : Env) (f : QueueFile) (st : Store) : Option CStr :=
  match f with
  | .request => (getQueuedRequestMessages env st).map Prod.fst
  | _ => getQueuedFaultMessages env st

/-- The message `m` is queued in `f` between other entries, and its UUID is used nowhere else. -/
structure Queued (f : QueueFile) (m uuid : CStr) (t : UtcTime) (st : Store)
    (before after : List (Entry f)) : Prop where
  listed : st.HasCounter f
  text : st.contents f = fileText before ++ (entryLine m t ++ newline :: fileText after)
  counted : 0 < st.entries f
  distinct : ∀ e ∈ before ++ after, e.uuid parse ≠ some uuid
  elsewhere : ∀ g, st.HasCounter g → g ≠ f → ∃ es : List (Entry g),
    st.contents g = fileText es ∧ ∀ e ∈ es, e.uuid parse ≠ some uuid

/-- The fault files before `f` are empty, so that `f` is the file read next. -/
def FirstInLine (f : QueueFile) (st : Store) : Prop :=
  f ≠ .request → ∃ left right, st.faultReadFiles = left ++ f :: right
    ∧ ∀ g ∈ left, st.contents g = []

/-- Whatever else is queued, the readers give the message back, its UUID leads to its action, and
acknowledging the UUID removes the message and nothing else. -/
structure RoundTrip (f : QueueFile) (m uuid action : CStr) : Prop where
  reads : ∀ env st t after, env.Healthy → Queued parse f m uuid t st [] after →
    FirstInLine f st → nextMessage env f st = some m
  finds : ∀ env st t before after, env.Healthy → Queued parse f m uuid t st before after →
    getActionFromUuid parse env uuid st = some action
  removes : ∀ env st t before after, env.Healthy → Queued parse f m uuid t st before after →
    ∃ st', acknowledge parse env uuid f st = some st' ∧ st'.contents f = fileText (before ++ after)
      ∧ ∀ g, g ≠ f → st'.contents g = st.contents g

/-- A message that the handler of the file has room for, together with its timestamp. -/
def HasRoom (f : QueueFile) (m : CStr) : Prop :=
  m.length < messageBuffer ∧ m.length + 27 ≤ f.lineBuffer

variable {parse} {f : QueueFile} {m uuid action : CStr}

/-! ### Messages that fit -/

section Fits

variable {payload : Json}
  (hparse : parse m = some (callArray uuid action payload))
  (hclean : newline ∉ m ∧ NUL ∉ m) (hbar : '|' ∉ m) (hroom : HasRoom f m)

/-- The entry that the message makes. -/
def messageEntry (hclean : newline ∉ m ∧ NUL ∉ m) (hroom : HasRoom f m) (t : UtcTime) : Entry f where
  message := m
  time := t
  clean := hclean
  message_lt := hroom.1
  fits := by
    have := hroom.2
    rw [entryLine, List.length_append, List.length_cons, length_timestampText]
    omega

include hparse hbar in
theorem uuid_messageEntry (t : UtcTime) :
    (messageEntry hclean hroom t).uuid parse = some uuid := by
  rw [Entry.uuid, messageEntry, queuedMessage_eq_self hbar, extractUuidFromJsonResponse, hparse]
  rfl

include hparse hbar in
theorem action_messageEntry (t : UtcTime) :
    (messageEntry hclean hroom t).action parse = some action := by
  rw [Entry.action, messageEntry, queuedMessage_eq_self hbar, extractActionFromJsonResponse, hparse]
  rfl

variable {t : UtcTime} {st : Store} {before after : List (Entry f)}
  (hq : Queued parse f m uuid t st before after)

include hq in
theorem Queued.fileText_eq :
    st.contents f = fileText (before ++ messageEntry hclean hroom t :: after) := by
  rw [hq.text]
  simp [fileText, messageEntry, Entry.line]

include hq in
theorem Queued.contents_ne_nil : st.contents f ≠ [] := by
  rw [hq.text]
  simp

include hq hparse hbar in
theorem Queued.others_eq :
    others parse uuid (before ++ messageEntry hclean hroom t :: after) = before ++ after := by
  have huuid := uuid_messageEntry hparse hclean hbar hroom t
  have hkeep : ∀ e ∈ before ++ after, decide (e.uuid parse ≠ some uuid) = true := fun e he => by
    simpa using hq.distinct e he
  rw [others, List.filter_append, List.filter_cons_of_neg (by simpa using huuid),
    ← List.filter_append, List.filter_eq_self.mpr hkeep]

theorem firstMessage_entries {g : QueueFile} (e : Entry g) (es : List (Entry g)) :
    firstMessage (fileText (e :: es)) = some (queuedMessage e.message) := by
  rw [fileText, List.map_cons, unlines_cons]
  exact firstMessage_entry e _

include hclean hbar hroom in
theorem nextMessage_of_queued {env : Env} (henv : env.Healthy)
    (hq : Queued parse f m uuid t st [] after) (hfirst : FirstInLine f st) :
    nextMessage env f st = some m := by
  have hread : (st.openRead env f).bind firstMessage = some m := by
    rw [henv.openRead hq.contents_ne_nil, Option.bind_some, hq.fileText_eq hclean hroom,
      List.nil_append, firstMessage_entries]
    exact congrArg some (queuedMessage_eq_self hbar)
  by_cases hf : f = .request
  · subst hf
    rw [nextMessage, getQueuedRequestMessages, hread]
    rfl
  · obtain ⟨left, right, hsplit, hleft⟩ := hfirst hf
    have hfault : nextMessage env f st = getQueuedFaultMessages env st := by
      cases f with
      | request => exact absurd rfl hf
      | _ => rfl
    rw [hfault, getQueuedFaultMessages, hsplit, List.findSome?_append]
    have hbefore : left.findSome? (fun g =>
        if env.stats g ∧ st.contents g ≠ [] then (st.openRead env g).bind firstMessage else none)
          = none := by
      rw [List.findSome?_eq_none_iff]
      intro g hg
      rw [if_neg]
      simp [hleft g hg]
    rw [hbefore, Option.none_or, List.findSome?_cons,
      if_pos ⟨henv.stats f, hq.contents_ne_nil⟩, hread]

/-- A file without the UUID gives no action for it. -/
theorem searchUuidInFile_of_absent {env : Env} {g : QueueFile} {es : List (Entry g)}
    (htext : st.contents g = fileText es) (hes : ∀ e ∈ es, e.uuid parse ≠ some uuid) :
    searchUuidInFile parse env uuid g st = none := by
  cases hopen : st.openRead env g with
  | none => rw [searchUuidInFile, hopen]; rfl
  | some text =>
      obtain rfl : text = fileText es := by rw [← htext, Store.contents_of_openRead hopen]
      have hnone : (es.find? fun e => e.uuid parse = some uuid) = none := by
        simpa using hes
      rw [searchUuidInFile_entries parse hopen, hnone]
      rfl

include hparse hclean hbar hroom in
theorem getActionFromUuid_of_queued {env : Env} (henv : env.Healthy)
    (hq : Queued parse f m uuid t st before after) :
    getActionFromUuid parse env uuid st = some action := by
  have hopen := henv.openRead hq.contents_ne_nil
  rw [hq.fileText_eq hclean hroom] at hopen
  have huuid := uuid_messageEntry hparse hclean hbar hroom t
  have hown : searchUuidInFile parse env uuid f st = some action := by
    have hnone : (before.find? fun e => e.uuid parse = some uuid) = none := by
      rw [List.find?_eq_none]
      intro e he
      simpa using hq.distinct e (by simp [he])
    rw [searchUuidInFile_entries parse hopen, List.find?_append, hnone, Option.none_or,
      List.find?_cons_of_pos (by simpa using huuid), Option.bind_some,
      action_messageEntry hparse hclean hbar hroom t]
  obtain ⟨left, right, hsplit, hleft⟩ :=
    List.eq_append_cons_of_mem (mem_queueFiles.mpr hq.listed)
  rw [getActionFromUuid, hsplit, List.findSome?_append]
  have hbefore : left.findSome? (fun g =>
      if 0 < st.entries g then searchUuidInFile parse env uuid g st else none) = none := by
    rw [List.findSome?_eq_none_iff]
    intro g hg
    have hgf : g ≠ f := fun h => hleft (h ▸ hg)
    have hcounter : st.HasCounter g := by
      rw [← mem_queueFiles, hsplit]
      simp [hg]
    obtain ⟨es, htext, hes⟩ := hq.elsewhere g hcounter hgf
    rw [searchUuidInFile_of_absent htext hes, ite_self]
  rw [hbefore, Option.none_or, List.findSome?_cons, if_pos hq.counted, hown]

include hparse hclean hbar hroom in
theorem acknowledge_of_queued {env : Env} (henv : env.Healthy)
    (hq : Queued parse f m uuid t st before after) :
    ∃ st', acknowledge parse env uuid f st = some st' ∧ st'.contents f = fileText (before ++ after)
      ∧ ∀ g, g ≠ f → st'.contents g = st.contents g := by
  have htext := hq.fileText_eq hclean hroom
  have hothers := hq.others_eq hparse hclean hbar hroom
  have huuid := uuid_messageEntry hparse hclean hbar hroom t
  by_cases hf : f = .request
  · subst hf
    refine ⟨st.replace .request (fileText (before ++ after)), ?_, ?_, ?_⟩
    · rw [acknowledge, handleResponseMessage_eq henv htext (by simp), hothers]
      rfl
    · rw [Store.contents_replace, if_pos rfl]
    · intro g hg
      rw [Store.contents_replace, if_neg hg]
  · have hmem : f ∈ st.faultFiles := by
      have hfile := mem_queueFiles.mpr hq.listed
      rcases List.mem_cons.mp hfile with h | h
      · exact absurd h hf
      · exact h
    have hhandler : acknowledge parse env uuid f st
        = handleFaultResponseMessage parse env uuid st := by
      cases f with
      | request => exact absurd rfl hf
      | _ => rfl
    obtain ⟨left, right, hsplit, hleft⟩ := List.eq_append_cons_of_mem hmem
    have hbefore : ∀ g ∈ left, ∃ es : List (Entry g),
        st.contents g = fileText es ∧ ∀ e ∈ es, e.uuid parse ≠ some uuid := by
      intro g hg
      have hgf : g ≠ f := fun h => hleft (h ▸ hg)
      exact hq.elsewhere g (faultFiles_hasCounter st g (by rw [hsplit]; simp [hg])).1 hgf
    have hcount : st.entries f ≠ 0 := by
      have := hq.counted
      rintro h
      rw [h] at this
      exact absurd this (by decide)
    obtain ⟨st', hrun, -, hcontents, -, hsame, -⟩ :=
      handleFaultResponseMessage_of_present henv hsplit hbefore htext
        ⟨messageEntry hclean hroom t, by simp, huuid⟩ hcount hleft
    exact ⟨st', by rw [hhandler, hrun], by rw [hcontents, hothers], hsame⟩

end Fits

/-! ### Messages that do not fit -/

/-- A copy only grows. -/
theorem uuidLine_extends {p p' : Pass} {buffer : CStr}
    (hstep : uuidLine parse uuid p buffer = some p') : p.temp <+: p'.temp := by
  rw [uuidLine] at hstep
  have hkeep : ∀ line, p.temp <+: (p.keep line).temp := fun line => by simp [Pass.keep]
  split at hstep
  · rw [← Option.some.inj hstep]
    exact hkeep _
  · split at hstep
    · split at hstep <;> rw [← Option.some.inj hstep]
      · exact List.prefix_rfl
      · exact hkeep _
    · cases hstep

theorem foldlM_uuidLine_extends {buffers : List CStr} {p p' : Pass}
    (hfold : buffers.foldlM (uuidLine parse uuid) p = some p') : p.temp <+: p'.temp := by
  induction buffers generalizing p with
  | nil => rw [Option.some.inj hfold]
  | cons buffer buffers ih =>
      rw [List.foldlM_cons] at hfold
      obtain ⟨p₁, hstep, hrest⟩ := Option.bind_eq_some_iff.mp hfold
      exact (uuidLine_extends hstep).trans (ih hrest)

/-- The first buffer filled from a line holds the line cut to the buffer. -/
theorem readLines_first {size : Nat} (hsize : 2 ≤ size) {line : CStr}
    (hline : ∀ c ∈ line, (c == newline) = false ∧ c ≠ NUL) (rest : CStr) :
    ∃ buffer, readLines size (line ++ newline :: rest)
        = buffer :: readLines size ((line.drop (size - 1)) ++ (if line.length + 2 ≤ size then rest
            else newline :: rest))
      ∧ cutAt (· == newline) buffer = line.take (size - 1) := by
  have hnl : newline ∉ line := fun h => by simpa using (hline newline h).1
  by_cases hfits : line.length + 2 ≤ size
  · refine ⟨line ++ [newline], ?_, ?_⟩
    · rw [readLines_cons ⟨hnl, hfits⟩, if_pos hfits, List.drop_eq_nil_of_le (by omega),
        List.nil_append]
    · rw [cutAt_append_stop hline (by decide), List.take_of_length_le (by omega)]
  · refine ⟨line.take (size - 1), ?_, ?_⟩
    · rw [readLines_eq hsize, fgets, if_neg (by simp), readLine_of_long hnl (by omega),
        if_neg hfits]
    · exact cutAt_eq_self fun c hc => hline c (List.mem_of_mem_take hc)

/-- A message without room is not removed: copying its file overruns a buffer or leaves text. -/
theorem foldlM_uuidLine_of_no_room {size : Nat} (hsize : 2 ≤ size) (hclean : newline ∉ m ∧ NUL ∉ m)
    (hbar : '|' ∉ m) (hroom : ¬ (m.length < messageBuffer ∧ m.length + 27 ≤ size)) (t : UtcTime)
    {p : Pass} (hfold : (readLines size (entryLine m t ++ [newline])).foldlM
      (uuidLine parse uuid) Pass.start = some p) : p.temp ≠ [] := by
  have hlen : (entryLine m t).length = m.length + 25 := by
    rw [entryLine, List.length_append, List.length_cons, length_timestampText]
  have hline : ∀ c ∈ entryLine m t, (c == newline) = false ∧ c ≠ NUL :=
    fun _ => entryLine_clean hclean t
  obtain ⟨buffer, hread, hcut⟩ := readLines_first hsize hline []
  rw [hread, List.foldlM_cons] at hfold
  obtain ⟨p₁, hstep, hrest⟩ := Option.bind_eq_some_iff.mp hfold
  have hne : p₁.temp ≠ [] → p.temp ≠ [] := fun h hp =>
    h (List.prefix_nil.mp (hp ▸ foldlM_uuidLine_extends hrest))
  rw [uuidLine, hcut] at hstep
  by_cases hlong : size - 1 ≤ m.length
  · -- the first piece ends inside the message, so it has no separator and is kept
    have hpiece : (entryLine m t).take (size - 1) = m.take (size - 1) := by
      rw [entryLine, List.take_append_of_le_length hlong]
    have hnone : strchr '|' (m.take (size - 1)) = none :=
      strchr_eq_none.mpr fun h => hbar (List.mem_of_mem_take h)
    rw [hpiece, hnone] at hstep
    rw [← Option.some.inj hstep] at hne
    exact hne (by simp [Pass.keep])
  · -- the first piece holds the whole message; what is left of the timestamp stays in the file
    have hpiece : (entryLine m t).take (size - 1)
        = m ++ '|' :: (timestampText t).take (size - 1 - m.length - 1) := by
      obtain ⟨k, hk⟩ : ∃ k, size - 1 - m.length = k + 1 := ⟨size - 1 - m.length - 1, by omega⟩
      rw [entryLine, List.take_append, List.take_of_length_le (by omega), hk, List.take_succ_cons]
      rfl
    rw [hpiece, strchr_append hbar] at hstep
    by_cases hbuffer : m.length < messageBuffer
    · have hnofit : ¬ (entryLine m t).length + 2 ≤ size := by
        rw [hlen]
        exact fun h => hroom ⟨hbuffer, by omega⟩
      rw [if_neg hnofit] at hrest
      have htail : (entryLine m t).drop (size - 1)
          = (timestampText t).drop (size - 1 - m.length - 1) := by
        obtain ⟨k, hk⟩ : ∃ k, size - 1 - m.length = k + 1 := ⟨size - 1 - m.length - 1, by omega⟩
        rw [entryLine, List.drop_append, List.drop_eq_nil_of_le (by omega), hk]
        rfl
      have hrestline : ∀ c ∈ (entryLine m t).drop (size - 1), (c == newline) = false ∧ c ≠ NUL :=
        fun c hc => hline c (List.mem_of_mem_drop hc)
      obtain ⟨buffer₂, hread₂, hcut₂⟩ := readLines_first hsize hrestline []
      rw [hread₂, List.foldlM_cons] at hrest
      obtain ⟨p₂, hstep₂, hrest₂⟩ := Option.bind_eq_some_iff.mp hrest
      have hnone : strchr '|' (((entryLine m t).drop (size - 1)).take (size - 1)) = none := by
        rw [strchr_eq_none, htail]
        exact fun h => bar_not_mem_timestampText t (List.mem_of_mem_drop (List.mem_of_mem_take h))
      rw [uuidLine, hcut₂, hnone] at hstep₂
      have hp₂ : p₂.temp ≠ [] := by
        rw [← Option.some.inj hstep₂]
        simp [Pass.keep]
      exact fun hp => hp₂ (List.prefix_nil.mp (hp ▸ foldlM_uuidLine_extends hrest₂))
    · dsimp only at hstep
      rw [if_neg hbuffer] at hstep
      cases hstep

theorem alone_queued (hf : ∀ i, f = .connector i → i < noOfConnectors) (t : UtcTime) :
    Queued parse f m uuid t (alone f (entryLine m t ++ [newline])) [] [] where
  listed := by
    cases f with
    | connector i => exact hf i rfl
    | _ => trivial
  text := by rw [contents_alone, if_pos rfl]; rfl
  counted := by simp [alone]
  distinct := by simp
  elsewhere g _ hg := ⟨[], by rw [contents_alone, if_neg hg]; rfl, by simp⟩

theorem alone_firstInLine (hf : ∀ i, f = .connector i → i < noOfConnectors) (text : CStr) :
    FirstInLine f (alone f text) := by
  intro hreq
  have hmem : f ∈ (alone f text).faultReadFiles := by
    cases f with
    | request => exact absurd rfl hreq
    | connector i => simpa [Store.faultReadFiles, alone] using hf i rfl
    | _ => simp [Store.faultReadFiles]
  obtain ⟨left, right, hsplit, hleft⟩ := List.eq_append_cons_of_mem hmem
  refine ⟨left, right, hsplit, fun g hg => ?_⟩
  rw [contents_alone, if_neg]
  rintro rfl
  exact hleft hg

theorem handleFault_alone {env : Env} {text : CStr} (hmem : f ∈ (alone f text).faultFiles) :
    handleFaultResponseMessage parse env uuid (alone f text)
      = (faultResponseFile parse env uuid (alone f text, false) f).map Prod.fst := by
  have hskip : ∀ (files : List QueueFile) (s : Store × Bool), (∀ g ∈ files, s.1.entries g = 0) →
      files.foldlM (faultResponseFile parse env uuid) s = some s := by
    intro files s hfiles
    induction files with
    | nil => rfl
    | cons g files ih =>
        rw [List.foldlM_cons, faultResponseFile, if_neg (by simp [hfiles g (by simp)])]
        exact ih fun g' hg' => hfiles g' (by simp [hg'])
  have hnodup : (alone f text).faultFiles.Nodup := faultFiles_nodup (alone f text)
  obtain ⟨left, right, hsplit, hleft⟩ := List.eq_append_cons_of_mem hmem
  rw [hsplit, List.nodup_append, List.nodup_cons] at hnodup
  have hne : ∀ g, g ≠ f → (alone f text).entries g = 0 := fun g hg => if_neg hg
  rw [handleFaultResponseMessage, hsplit, List.foldlM_append,
    hskip left _ fun g hg => hne g fun h => hleft (h ▸ hg)]
  simp only [Option.bind_eq_bind, Option.bind_some, List.foldlM_cons]
  cases hstep : faultResponseFile parse env uuid (alone f text, false) f with
  | none => rfl
  | some s =>
      have hentries : ∀ g ∈ right, s.1.entries g = 0 := by
        intro g hg
        have hgf : g ≠ f := fun h => hnodup.2.1.1 (h ▸ hg)
        rw [faultResponseFile_entries parse hstep hgf]
        exact hne g hgf
      rw [Option.bind_some, hskip right s hentries]

/-- Whatever is read has been cut at its first `|`. -/
theorem bar_not_mem_nextMessage {env : Env} {st : Store} (hread : nextMessage env f st = some m) :
    '|' ∉ m := by
  have hfirst : ∀ {text : CStr}, firstMessage text = some m → '|' ∉ m := by
    intro text h
    obtain ⟨r, -, rfl⟩ := Option.map_eq_some_iff.mp h
    exact bar_not_mem_queuedMessage _
  have hfault : getQueuedFaultMessages env st = some m → '|' ∉ m := by
    intro h
    obtain ⟨g, -, hg⟩ := List.exists_of_findSome?_eq_some h
    split at hg
    · obtain ⟨text, -, htext⟩ := Option.bind_eq_some_iff.mp hg
      exact hfirst htext
    · cases hg
  cases f with
  | request =>
      obtain ⟨r, hr, rfl⟩ := Option.map_eq_some_iff.mp hread
      obtain ⟨text, htext, rfl⟩ := Option.map_eq_some_iff.mp hr
      obtain ⟨text', -, htext'⟩ := Option.bind_eq_some_iff.mp htext
      exact hfirst htext'
  | _ => exact hfault hread

/-- A message without room stays, at least in part, when it is acknowledged. -/
theorem acknowledge_of_no_room {env : Env}
    (hf : ∀ i, f = .connector i → i < noOfConnectors) (hclean : newline ∉ m ∧ NUL ∉ m)
    (hbar : '|' ∉ m) (hroom : ¬ HasRoom f m) (t : UtcTime) {st' : Store}
    (hrun : acknowledge parse env uuid f (alone f (entryLine m t ++ [newline])) = some st') :
    st'.contents f ≠ [] := by
  have hsize : 2 ≤ f.lineBuffer := by cases f <;> simp only [QueueFile.lineBuffer] <;> decide
  have htext : (alone f (entryLine m t ++ [newline])).contents f = entryLine m t ++ [newline] := by
    rw [contents_alone, if_pos rfl]
  -- whatever a copy of the file leaves is not empty
  have hcopy : ∀ r, deleteEntriesByUuid parse env f.lineBuffer f uuid
      (alone f (entryLine m t ++ [newline])) = some r → r.1.contents f ≠ [] := by
    intro r hr
    rcases deleteEntriesByUuid_cases parse hr with rfl | ⟨text, p, hopen, hfold, rfl⟩
    · rw [htext]
      simp
    · rw [Store.contents_replace, if_pos rfl]
      rw [← Store.contents_of_openRead hopen, htext] at hfold
      exact foldlM_uuidLine_of_no_room hsize hclean hbar hroom t hfold
  by_cases hreq : f = .request
  · subst hreq
    obtain ⟨r, hr, rfl⟩ := Option.map_eq_some_iff.mp hrun
    obtain ⟨q, hq, rfl⟩ := Option.map_eq_some_iff.mp hr
    exact hcopy q hq
  · have hmem : f ∈ (alone f (entryLine m t ++ [newline])).faultFiles := by
      cases f with
      | request => exact absurd rfl hreq
      | connector i => simpa [Store.faultFiles, alone] using hf i rfl
      | _ => simp [Store.faultFiles]
    have hhandler : acknowledge parse env uuid f (alone f (entryLine m t ++ [newline]))
        = handleFaultResponseMessage parse env uuid (alone f (entryLine m t ++ [newline])) := by
      cases f with
      | request => exact absurd rfl hreq
      | _ => rfl
    have hbuffer : f.lineBuffer = dequeMsgBufferFault := by
      cases f with
      | request => exact absurd rfl hreq
      | _ => rfl
    rw [hhandler, handleFault_alone hmem] at hrun
    obtain ⟨s, hs, rfl⟩ := Option.map_eq_some_iff.mp hrun
    rw [faultResponseFile, if_pos ⟨by simp [alone], rfl⟩] at hs
    obtain ⟨r, hr, rfl⟩ := Option.map_eq_some_iff.mp hs
    obtain ⟨q, hq, rfl⟩ := Option.map_eq_some_iff.mp hr
    rw [← hbuffer] at hq
    have hne := hcopy q hq
    cases hpass : q.2 with
    | none => simpa [hpass] using hne
    | some p => simpa [hpass] using hne

/-- A queued message makes the round trip exactly when it contains no `|` and there is room for it.
The library reads back the call it printed, and what it prints has no line break. -/
theorem roundTrip_iff {print : Json → Option CStr} {s : CallState} {payload : Json}
    (hf : ∀ i, f = .connector i → i < noOfConnectors)
    (hprint : (createJsonCallString print uuid action (some payload) s).1 = some m)
    (hparse : ∀ text, print (callArray uuid action payload) = some text →
      ∃ payload', parse text = some (callArray uuid action payload'))
    (hclean : ∀ text, print (callArray uuid action payload) = some text →
      newline ∉ text ∧ NUL ∉ text) :
    RoundTrip parse f m uuid action ↔ '|' ∉ m ∧ HasRoom f m := by
  obtain ⟨payload', hm⟩ := hparse m hprint
  have hclean' := hclean m hprint
  have hhealthy : healthy.Healthy := ⟨fun _ => rfl, fun _ => rfl, fun _ => rfl⟩
  constructor
  · intro htrip
    have hread := htrip.reads healthy (alone f (entryLine m newYear ++ [newline])) newYear []
      hhealthy (alone_queued hf newYear) (alone_firstInLine hf _)
    have hbar := bar_not_mem_nextMessage hread
    refine ⟨hbar, ?_⟩
    by_contra hroom
    obtain ⟨st', hrun, hcontents, -⟩ := htrip.removes healthy
      (alone f (entryLine m newYear ++ [newline])) newYear [] [] hhealthy (alone_queued hf newYear)
    exact acknowledge_of_no_room hf hclean' hbar hroom newYear hrun hcontents
  · rintro ⟨hbar, hroom⟩
    exact ⟨fun env st t after henv hq hfirst =>
        nextMessage_of_queued hclean' hbar hroom henv hq hfirst,
      fun env st t before after henv hq =>
        getActionFromUuid_of_queued hm hclean' hbar hroom henv hq,
      fun env st t before after henv hq => acknowledge_of_queued hm hclean' hbar hroom henv hq⟩

/-! ### A date that contains a separator -/

def faultUuid : CStr := "3f2504e0-4f89-4bd3-9a0c-0305e82c3301".toList

/-- A fault of the online charger, with its date as it came over CAN. -/
def onlineFault (occurred : CStr) : FaultLog where
  faultType := 1
  player := 0
  faultCode := 7
  occuranceDateTime := strncpyArray 25 occurred
  clearanceDateTime := strncpyArray 25 "2025-01-01T00:05:00.000Z".toList
  faultLogDataExchanged := true

def onlineFaultMessage (occurred : CStr) : Option CStr :=
  (createJsonCallString Json.printUnformatted faultUuid faultInformation
    (some (faultLogPayload newYear (onlineFault occurred))) ⟨0, []⟩).1

/-- The readers cut this message inside the date. -/
theorem date_with_bar_is_cut :
    ∃ m, onlineFaultMessage "2025-01-01|00:00:00.000Z".toList = some m
      ∧ ∀ parse, ¬ RoundTrip parse .onlineCharger m faultUuid faultInformation := by
  obtain ⟨m, hm⟩ := Option.isSome_iff_exists.mp
    (show (onlineFaultMessage "2025-01-01|00:00:00.000Z".toList).isSome = true by decide +kernel)
  have hmem : (onlineFaultMessage "2025-01-01|00:00:00.000Z".toList).any ('|' ∈ ·) = true := by
    decide +kernel
  rw [hm] at hmem
  refine ⟨m, hm, fun parse htrip => ?_⟩
  have hread := htrip.reads healthy (alone .onlineCharger (entryLine m newYear ++ [newline]))
    newYear [] ⟨fun _ => rfl, fun _ => rfl, fun _ => rfl⟩
    (alone_queued (fun i hi => by cases hi) newYear)
    (alone_firstInLine (fun i hi => by cases hi) _)
  exact bar_not_mem_nextMessage hread (by simpa using hmem)

/-- The text of the same message with an ordinary date. -/
def plainFaultMessage : CStr :=
  "[2,\"3f2504e0-4f89-4bd3-9a0c-0305e82c3301\",\"FaultInformation\",\x7b\"timestamp\":".toList
    ++ "\"2025-01-01T00:00:00Z\",\"type\":1,\"connectorId\":0,\"occurrenceDateTime\":".toList
    ++ "\"2025-01-01T00:00:00.000Z\",\"clearanceDateTime\":".toList
    ++ "\"2025-01-01T00:05:00.000Z\",\"faultCode\":7\x7d]".toList

theorem plain_fault_round_trip :
    RoundTrip
      (fun text => if text = plainFaultMessage then some (callArray faultUuid faultInformation
        (faultLogPayload newYear (onlineFault "2025-01-01T00:00:00.000Z".toList))) else none)
      .onlineCharger plainFaultMessage faultUuid faultInformation := by
  have hprint : onlineFaultMessage "2025-01-01T00:00:00.000Z".toList = some plainFaultMessage := by
    decide +kernel
  have htext : ∀ text, Json.printUnformatted (callArray faultUuid faultInformation
      (faultLogPayload newYear (onlineFault "2025-01-01T00:00:00.000Z".toList))) = some text →
      text = plainFaultMessage := fun text h => Option.some.inj (h.symm.trans hprint)
  refine (roundTrip_iff (fun i hi => by cases hi) hprint ?_ ?_).mpr
    ⟨by decide, by decide +kernel, by decide +kernel⟩
  · intro text h
    exact ⟨_, if_pos (htext text h)⟩
  · intro text h
    rw [htext text h]
    decide

end Pmu
