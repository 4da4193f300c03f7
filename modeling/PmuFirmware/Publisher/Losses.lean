import PmuFirmware.Publisher.Gate
import PmuFirmware.Queue.Eviction

/-!
# What a queue file loses

The entries of a file leave it in three ways: the oldest makes room for a new one, an acknowledged UUID
takes the entries that carry it, and a message that is given up takes all lines it is found in. None of
them changes the others or their order.
-/

namespace Pmu

open CLib

/-- An entry that every function reads as it was written. -/
structure Stored (f : QueueFile) extends Entry f where
  plain : toEntry.Plain
  year_lt : time.year < 9998

variable {f : QueueFile}

theorem Stored.ext {e e' : Stored f} (hmessage : e.message = e'.message) (htime : e.time = e'.time) :
    e = e' := by
  obtain ⟨⟨message, time, _, _, _⟩, _, _⟩ := e
  obtain ⟨⟨message', time', _, _, _⟩, _, _⟩ := e'
  obtain rfl : message = message' := hmessage
  obtain rfl : time = time' := htime
  rfl

def storedText (es : List (Stored f)) : CStr := fileText (es.map Stored.toEntry)

def Store.Holds (st : Store) (es : List (Stored f)) : Prop := st.contents f = storedText es

/-- The file has lost entries of `es`, all of which may go. -/
def Lost (es : List (Stored f)) (out : Stored f → Prop) (st : Store) : Prop :=
  ∃ gone : Stored f → Bool, st.Holds (es.filter fun e => !gone e) ∧ ∀ e ∈ es, gone e = true → out e

section Lost

variable {st st' : Store} {es : List (Stored f)} {out out' : Stored f → Prop}

theorem Store.Holds.congr (hst : st.Holds es) (hsame : st'.contents f = st.contents f) :
    st'.Holds es :=
  hsame.trans hst

theorem Store.Holds.lost (hst : st.Holds es) : Lost es out st := by
  refine ⟨fun _ => false, ?_, fun _ _ hgone => absurd hgone Bool.false_ne_true⟩
  have hall : (es.filter fun _ => !false) = es := List.filter_eq_self.mpr fun _ _ => rfl
  rwa [hall]

theorem Lost.congr (h : Lost es out st) (hsame : st'.contents f = st.contents f) :
    Lost es out st' := by
  obtain ⟨gone, hholds, hout⟩ := h
  exact ⟨gone, hholds.congr hsame, hout⟩

theorem Lost.mono (h : Lost es out st) (himp : ∀ e ∈ es, out e → out' e) : Lost es out' st := by
  obtain ⟨gone, hholds, hout⟩ := h
  exact ⟨gone, hholds, fun e he hgone => himp e he (hout e he hgone)⟩

theorem Lost.trans (h : Lost es out st)
    (h' : ∀ es', st.Holds es' → Lost es' out st') : Lost es out st' := by
  obtain ⟨gone, hholds, hout⟩ := h
  obtain ⟨gone', hholds', hout'⟩ := h' _ hholds
  refine ⟨fun e => gone e || gone' e, ?_, fun e he hgone => ?_⟩
  · rw [List.filter_filter] at hholds'
    simpa only [Bool.not_or, Bool.and_comm] using hholds'
  · cases hfirst : gone e with
    | true => exact hout e he hfirst
    | false =>
        refine hout' e (List.mem_filter.mpr ⟨he, by rw [hfirst]; rfl⟩) ?_
        simpa only [hfirst, Bool.false_or] using hgone

/-- A file that is rewritten loses what is not kept. -/
theorem lost_replace (st : Store) (es : List (Stored f)) (keep : Entry f → Bool)
    (hout : ∀ e ∈ es, keep e.toEntry = false → out e) :
    Lost es out (st.replace f (fileText ((es.map Stored.toEntry).filter keep))) := by
  refine ⟨fun e => !keep e.toEntry, ?_, fun e he hgone => hout e he (by simpa using hgone)⟩
  rw [Store.Holds, Store.contents_replace, if_pos rfl, storedText, List.filter_map]
  simp only [Bool.not_not, Function.comp_def]

theorem Store.Holds.openRead {env : Env} {text : CStr} (hst : st.Holds es)
    (hopen : st.openRead env f = some text) : text = storedText es :=
  (Store.contents_of_openRead hopen).symm.trans hst

end Lost

/-! ### Acknowledged entries -/

section Acknowledged

variable {parse : CStr → Option Json} {env : Env} {st : Store} {uuid : CStr}
  {es : List (Stored f)}

theorem deleteEntriesByUuid_lost {size : Nat} (hsize : f.lineBuffer ≤ size) (hst : st.Holds es)
    {r : Store × Option Pass} (hrun : deleteEntriesByUuid parse env size f uuid st = some r) :
    Lost es (fun e => e.uuid parse = some uuid) r.1 := by
  rcases deleteEntriesByUuid_cases parse hrun with rfl | ⟨text, p, hopen, -, -⟩
  · exact hst.lost
  · obtain rfl := hst.openRead hopen
    by_cases htemp : env.opensTemp f = true
    · rw [storedText] at hopen
      rw [deleteEntriesByUuid_eq parse hsize hopen htemp uuid] at hrun
      rw [← Option.some.inj hrun]
      exact lost_replace st es _ fun e _ hkeep => by simpa using hkeep
    · rw [deleteEntriesByUuid, hopen] at hrun
      dsimp only at hrun
      rw [if_neg htemp] at hrun
      rw [← Option.some.inj hrun]
      exact hst.lost

theorem deleteEntriesByUuid_contents {size : Nat} {f g : QueueFile} (hg : g ≠ f)
    {r : Store × Option Pass} (hrun : deleteEntriesByUuid parse env size f uuid st = some r) :
    r.1.contents g = st.contents g := by
  rcases deleteEntriesByUuid_cases parse hrun with rfl | ⟨text, p, -, -, rfl⟩
  · rfl
  · exact (Store.contents_replace ..).trans (if_neg hg)

theorem faultResponseFile_lost {g : QueueFile} (hsize : g.lineBuffer ≤ dequeMsgBufferFault)
    {s s' : Store × Bool} (hs : s.1.Holds es)
    (hrun : faultResponseFile parse env uuid s g = some s') :
    Lost es (fun e => e.uuid parse = some uuid) s'.1 := by
  rcases faultResponseFile_cases parse hrun with hsame | ⟨p, hdelete, hs'⟩
  · rw [hsame]
    exact hs.lost
  · rw [hs']
    by_cases hf : f = g
    · subst hf
      exact (deleteEntriesByUuid_lost hsize hs hdelete).congr rfl
    · exact (hs.congr (deleteEntriesByUuid_contents hf hdelete)).lost.congr rfl

theorem handleFaultResponseMessage_lost (hst : st.Holds es) {st' : Store}
    (hrun : handleFaultResponseMessage parse env uuid st = some st') :
    Lost es (fun e => e.uuid parse = some uuid) st' := by
  obtain ⟨s', hfold, rfl⟩ := Option.map_eq_some_iff.mp hrun
  have hstep : ∀ g (s s' : Store × Bool), Lost es (fun e => e.uuid parse = some uuid) s.1 →
      g.lineBuffer ≤ dequeMsgBufferFault → faultResponseFile parse env uuid s g = some s' →
      Lost es (fun e => e.uuid parse = some uuid) s'.1 :=
    fun g s s' hs hsize hstep => hs.trans fun es' hes' => faultResponseFile_lost hsize hes' hstep
  exact Runs.run_invariant hstep hst.lost
    (.of_forall fun g hg _ => (faultFiles_hasCounter st g hg).2) hfold

/-- A response takes the entries that carry its UUID, from the request log or from the fault logs. -/
theorem deleteAnswered_lost {action : CStr} (hst : st.Holds es) {st' : Store}
    (hrun : deleteAnswered parse env action uuid st = some st') :
    Lost es (fun e => e.uuid parse = some uuid ∧ (f = .request ↔ action ≠ faultInformation)) st' := by
  rw [deleteAnswered] at hrun
  split at hrun
  · next haction =>
      obtain ⟨r, hresponse, hr⟩ := Option.map_eq_some_iff.mp hrun
      obtain ⟨q, hdelete, rfl⟩ := Option.map_eq_some_iff.mp hresponse
      have hcontents : st'.contents f = q.1.contents f := by
        rw [← hr]
        split <;> rfl
      by_cases hf : f = .request
      · subst hf
        exact ((deleteEntriesByUuid_lost le_rfl hst hdelete).mono fun e _ huuid =>
          ⟨huuid, iff_of_true rfl haction⟩).congr hcontents
      · exact (hst.congr (hcontents.trans (deleteEntriesByUuid_contents hf hdelete))).lost
  · next haction =>
      by_cases hf : f = .request
      · subst hf
        exact (hst.congr (handleFaultResponseMessage_request hrun)).lost
      · exact (handleFaultResponseMessage_lost hst hrun).mono fun e _ huuid =>
          ⟨huuid, iff_of_false hf haction⟩

end Acknowledged

/-! ### Entries that are given up -/

theorem searchAndDelete_lost (env : Env) (target : CStr) {st : Store} {es : List (Stored f)}
    (hst : st.Holds es) :
    Lost es (fun e => strstr e.line target = true)
      (searchAndDeleteMessageFromAnyFile env target st).st := by
  rcases search_contents_cases env target st f with hsame | hsearched
  · exact (hst.congr hsame).lost
  · have hplain : ∀ e ∈ es.map Stored.toEntry, e.Plain := by
      intro e he
      obtain ⟨e', -, rfl⟩ := List.mem_map.mp he
      exact e'.plain
    rw [hst, searchedText, storedText, searchedLines_fileText hplain, List.filter_map,
      List.filter_map] at hsearched
    split at hsearched
    · refine ⟨fun e => strstr e.line target, ?_, fun _ _ hgone => hgone⟩
      rw [Store.Holds, hsearched]
      rfl
    · exact Store.Holds.lost hsearched

/-! ### The oldest entry -/

namespace Stored

/-- The second of the timestamp. -/
def second (e : Stored f) : Option Int := some (mktime e.time.tm)

/-- The line as the first pass over the file reads it. -/
def queueLine (e : Stored f) : QueueLine where
  message := e.message
  time := some e.time
  clean := e.clean
  fits := e.line_fits_totalLine.2
  bare := fun htime => absurd htime (Option.some_ne_none _)
  year_lt := fun _ ht => Option.some.inj ht ▸ e.year_lt

end Stored

theorem FirstMin.of_map {α α' β : Type} [LinearOrder β] {key : α' → Option β} {g : α → α'}
    {xs : List α} {y : α'} (h : FirstMin key (xs.map g) y) :
    ∃ x, g x = y ∧ FirstMin (fun x => key (g x)) xs x := by
  obtain ⟨before, after, k, hsplit, hk, hbefore, hafter⟩ := h
  obtain ⟨xs₁, xs₂, rfl, rfl, hrest⟩ := List.map_eq_append_iff.mp hsplit
  obtain ⟨x, xs₃, rfl, rfl, rfl⟩ := List.map_eq_cons_iff.mp hrest
  exact ⟨x, rfl, xs₁, xs₃, k, rfl, hk, fun z hz => hbefore _ (List.mem_map_of_mem hz),
    fun z hz => hafter _ (List.mem_map_of_mem hz)⟩

/-- The entry goes to make room: it is the first one with the least timestamp, or its line is the
same. -/
def IsOldest (es : List (Stored f)) (e : Stored f) : Prop :=
  ∃ oldest, FirstMin Stored.second es oldest ∧ e.line = oldest.line

section Oldest

variable {env : Env} {st : Store} {es : List (Stored f)}

/-- The first pass over the file. -/
theorem foldlM_oldestLine_stored (lib : TimeLibrary) (es : List (Stored f)) :
    ∃ o, (es.map fun e => e.line ++ [newline]).foldlM (oldestLine lib) Oldest.start = some o
      ∧ Found (es.map Stored.queueLine) o := by
  obtain ⟨o, hfold, hfound⟩ := foldlM_oldestLine_text lib (es.map Stored.queueLine)
  refine ⟨o, ?_, hfound⟩
  rw [← hfold, List.map_map, List.foldlM_map, List.foldlM_map]
  refine congrArg (fun step => es.foldlM step Oldest.start) (funext₂ fun o e => ?_)
  rw [← oldestLine_cutAt, e.cutAt_line]
  rfl

theorem Found.oldest {o : Oldest} (hfound : Found (es.map Stored.queueLine) o) (hes : es ≠ []) :
    ∃ oldest, FirstMin Stored.second es oldest ∧ o.entry = oldest.line := by
  rcases hfound with ⟨hnone, -⟩ | ⟨oldest, t, hmin, ht, rfl⟩
  · obtain ⟨e, he⟩ := List.exists_mem_of_ne_nil es hes
    exact absurd (hnone _ (List.mem_map_of_mem he)) (Option.some_ne_none _)
  · obtain ⟨e, rfl, hmin'⟩ := hmin.of_map
    obtain rfl : e.time = t := Option.some.inj ht
    exact ⟨e, hmin', rfl⟩

/-- All lines are kept but those of the oldest entry. -/
theorem removeOldestMessage_stored (hopen : st.openRead env f = some (storedText es))
    (htemp : env.opensTemp f = true) :
    ∃ o, Found (es.map Stored.queueLine) o ∧ removeOldestMessage env f st
      = some (st.replace f (fileText ((es.map Stored.toEntry).filter fun e => e.line ≠ o.entry)),
        some ((es.map Stored.toEntry).filter fun e => e.line ≠ o.entry).length) := by
  obtain ⟨o, hfold, hfound⟩ := foldlM_oldestLine_stored env.timeLibrary es
  have hread : readLines totalLine (storedText es)
      = (es.map Stored.toEntry).map fun e => e.line ++ [newline] :=
    readLines_fileText _ f.lineBuffer_le
  refine ⟨o, hfound, ?_⟩
  rw [removeOldestMessage, hopen]
  simp only [htemp, if_true, hread, foldl_notOldestLine]
  rw [List.map_map]
  exact congrArg (Option.map _) hfold

/-- Whether the file can be rewritten without its oldest entry. -/
def CanRewrite (env : Env) (f : QueueFile) (st : Store) : Prop :=
  (st.openRead env f).isSome ∧ env.opensTemp f = true

theorem removeOldestMessage_lost (hst : st.Holds es) {r : Store × Option Nat}
    (hrun : removeOldestMessage env f st = some r) :
    Lost es (IsOldest es) r.1 ∧ (r.2.isSome ↔ CanRewrite env f st) := by
  cases hopen : st.openRead env f with
  | none =>
      rw [removeOldestMessage, hopen] at hrun
      rw [← Option.some.inj hrun, CanRewrite, hopen]
      exact ⟨hst.lost, by simp⟩
  | some text =>
      obtain rfl := hst.openRead hopen
      by_cases htemp : env.opensTemp f = true
      · obtain ⟨o, hfound, hremove⟩ := removeOldestMessage_stored hopen htemp
        rw [hremove] at hrun
        rw [← Option.some.inj hrun]
        refine ⟨lost_replace st es _ fun e he hkeep => ?_, ?_⟩
        · obtain ⟨oldest, hmin, hentry⟩ := hfound.oldest (List.ne_nil_of_mem he)
          have hsame : e.line = o.entry := by simpa using hkeep
          exact ⟨oldest, hmin, hsame.trans hentry⟩
        · rw [CanRewrite, hopen]
          exact iff_of_true rfl ⟨rfl, htemp⟩
      · rw [removeOldestMessage, hopen] at hrun
        dsimp only at hrun
        rw [if_neg htemp] at hrun
        rw [← Option.some.inj hrun, CanRewrite]
        exact ⟨hst.lost, iff_of_false Bool.false_ne_true fun h => htemp h.2⟩

theorem removeOldestMessage_contents {g : QueueFile} (hg : g ≠ f) {r : Store × Option Nat}
    (hrun : removeOldestMessage env f st = some r) : r.1.contents g = st.contents g := by
  rw [removeOldestMessage] at hrun
  split at hrun
  · rw [← Option.some.inj hrun]
  · split at hrun
    · obtain ⟨o, -, rfl⟩ := Option.map_eq_some_iff.mp hrun
      exact (Store.contents_replace ..).trans (if_neg hg)
    · rw [← Option.some.inj hrun]

end Oldest

/-! ### Saving -/

/-- The file has as many entries as it may have, or more. -/
def Store.Full (st : Store) (f : QueueFile) : Prop :=
  st.HasCounter f ∧ f.cap ≤ (st.entries f).toNat

/-- The entry is appended: room can be made if there is none, and the line can be written. -/
def Store.Appends (st : Store) (env : Env) (message : CStr) (e : Stored f) : Prop :=
  e.message = message ∧ env.time = some e.time ∧ env.opensForAppending = true
    ∧ (st.Full f → CanRewrite env f st)

section Saving

variable {env : Env} {st : Store} {es : List (Stored f)}

theorem makeRoom_lost (hst : st.Holds es) {room : Option Store}
    (hrun : makeRoom env f st = some room) :
    (room.isSome ↔ (st.Full f → CanRewrite env f st))
      ∧ Lost es (fun e => st.Full f ∧ IsOldest es e) (room.getD st) := by
  rw [makeRoom] at hrun
  split at hrun
  · next hfull =>
      obtain ⟨r, hremove, rfl⟩ := Option.map_eq_some_iff.mp hrun
      obtain ⟨hlost, hopens⟩ := removeOldestMessage_lost hst hremove
      rw [Option.isSome_map]
      refine ⟨hopens.trans ⟨fun h _ => h, fun h => h hfull⟩, ?_⟩
      cases hcount : r.2 with
      | none => exact hst.lost
      | some count => exact (hlost.mono fun e _ hold => ⟨hfull, hold⟩).congr rfl
  · next hfull =>
      rw [← Option.some.inj hrun]
      exact ⟨iff_of_true rfl fun h => absurd h hfull, hst.lost⟩

/-- What a saved payload does to its file. -/
theorem savePayloadToSpiffs_amends {text : CStr} {st' : Store} (hst : st.Holds es)
    (hlegal : ∀ t ∈ env.time, ∃ e : Stored f, e.message = text ∧ e.time = t)
    (hrun : savePayloadToSpiffs env f text st = some st') :
    ∃ (gone : Stored f → Bool) (brought : Option (Stored f)),
      st'.Holds ((es.filter fun e => !gone e) ++ brought.toList)
        ∧ (∀ e ∈ es, gone e = true → st.Full f ∧ IsOldest es e)
        ∧ ∀ e, brought = some e ↔ st.Appends env text e := by
  obtain ⟨room, hroom, hsaved⟩ := Option.map_eq_some_iff.mp hrun
  obtain ⟨hopens, gone, hholds, hgone⟩ := makeRoom_lost hst hroom
  have hnothing : st' = room.getD st → (∀ e : Stored f, ¬st.Appends env text e) →
      ∃ (gone : Stored f → Bool) (brought : Option (Stored f)),
        st'.Holds ((es.filter fun e => !gone e) ++ brought.toList)
          ∧ (∀ e ∈ es, gone e = true → st.Full f ∧ IsOldest es e)
          ∧ ∀ e, brought = some e ↔ st.Appends env text e := by
    intro hst' hnone
    refine ⟨gone, none, ?_, hgone, fun e => iff_of_false (Option.some_ne_none e).symm (hnone e)⟩
    rwa [Option.toList_none, List.append_nil, hst']
  cases room with
  | none =>
      refine hnothing hsaved.symm fun e he => ?_
      exact Bool.false_ne_true (hopens.mpr he.2.2.2)
  | some st₁ =>
      cases htime : env.time with
      | none =>
          simp only [htime] at hsaved
          exact hnothing hsaved.symm fun e he => Option.some_ne_none _ (he.2.1.symm.trans htime)
      | some t =>
          simp only [htime] at hsaved
          by_cases happend : env.opensForAppending = true
          · obtain ⟨e, rfl, rfl⟩ := hlegal t htime
            have hcontents : st'.contents f = (st₁.append f e.message e.time).contents f := by
              rw [← hsaved, if_pos happend]
              split <;> rfl
            refine ⟨gone, some e, ?_, hgone, fun e' => ?_⟩
            · rw [Store.Holds, hcontents, Store.contents_append, if_pos rfl]
              have htext := hholds
              rw [Option.getD_some, Store.Holds] at htext
              rw [htext]
              simp [storedText, fileText, Entry.line]
            · constructor
              · intro he
                obtain rfl := Option.some.inj he
                exact ⟨rfl, htime, happend, hopens.mp rfl⟩
              · intro he
                exact congrArg some (Stored.ext he.1.symm (Option.some.inj (htime.symm.trans he.2.1)))
          · rw [if_neg happend] at hsaved
            exact hnothing hsaved.symm fun e he => happend he.2.2.1

theorem makeRoom_contents {g : QueueFile} (hg : g ≠ f) {room : Option Store}
    (hrun : makeRoom env f st = some room) : (room.getD st).contents g = st.contents g := by
  rw [makeRoom] at hrun
  split at hrun
  · obtain ⟨r, hremove, rfl⟩ := Option.map_eq_some_iff.mp hrun
    have hcontents := removeOldestMessage_contents hg hremove
    cases hcount : r.2 with
    | none => rfl
    | some count => exact hcontents
  · rw [← Option.some.inj hrun]
    rfl

theorem savePayloadToSpiffs_contents {g : QueueFile} (hg : g ≠ f) {text : CStr} {st' : Store}
    (hrun : savePayloadToSpiffs env f text st = some st') : st'.contents g = st.contents g := by
  obtain ⟨room, hroom, hsaved⟩ := Option.map_eq_some_iff.mp hrun
  rw [← makeRoom_contents hg hroom]
  cases room with
  | none =>
      rw [← hsaved]
      rfl
  | some st₁ =>
      rw [← hsaved]
      dsimp only
      split
      · rfl
      · split
        · split
          · exact (Store.contents_append ..).trans (if_neg hg)
          · exact (Store.contents_append ..).trans (if_neg hg)
        · rfl

end Saving

end Pmu
