import PmuFirmware.Publisher.Accounts
import PmuFirmware.Publisher.ConnectorTable
import Mathlib.Data.List.DropRight

/-!
# An outage

While there is no connection to the broker nothing is published and nothing is acknowledged, but calls
are still queued, and the board may restart. A file then holds the newest entries, as many as it may
have, in the order of the calls: it is a bounded queue that drops its oldest entry.
-/

namespace Pmu

open CLib

/-! ### Bounded queues -/

section Bounded

variable {α : Type} {n : Nat}

theorem rtake_of_length_le {xs : List α} (h : xs.length ≤ n) : xs.rtake n = xs := by
  rw [List.rtake, Nat.sub_eq_zero_of_le h, List.drop_zero]

/-- Only the newest count for what is kept later. -/
theorem rtake_rtake_append (xs ys : List α) : (xs.rtake n ++ ys).rtake n = (xs ++ ys).rtake n := by
  rw [List.rtake_eq_reverse_take_reverse, List.rtake_eq_reverse_take_reverse,
    List.rtake_eq_reverse_take_reverse, List.reverse_append, List.reverse_reverse,
    List.reverse_append, List.take_append, List.take_append, List.take_take,
    Nat.min_eq_left (Nat.sub_le _ _)]

theorem rtake_cons_append (x y : α) {xs : List α} (h : xs.length + 1 = n) :
    (x :: xs ++ [y]).rtake n = xs ++ [y] := by
  have hone : (x :: xs ++ [y]).length - n = 1 := by
    simp only [List.cons_append, List.length_cons, List.length_append, List.length_nil]
    omega
  rw [List.rtake, hone]
  rfl

end Bounded

variable {f : QueueFile}

/-- The entry does not come after the other one, and its line is another. -/
def Stored.Earlier (e e' : Stored f) : Prop :=
  mktime e.time.tm ≤ mktime e'.time.tm ∧ e.line ≠ e'.line

/-- The first of ordered elements is the first least one. -/
theorem FirstMin.eq_head {α β : Type} [LinearOrder β] {key : α → Option β} {x y : α} {xs : List α}
    (h : FirstMin key (x :: xs) y) {k : β} (hx : key x = some k)
    (hle : ∀ z ∈ xs, ∀ k', key z = some k' → k ≤ k') : y = x := by
  obtain ⟨before, after, k', hsplit, hk', hbefore, -⟩ := h
  cases before with
  | nil => exact (List.cons.inj hsplit).1.symm
  | cons z before =>
      obtain ⟨rfl, hxs⟩ := List.cons.inj hsplit
      have hy : y ∈ xs := by rw [hxs]; simp
      exact absurd (hbefore x List.mem_cons_self k hx) (not_lt.mpr (hle y hy k' hk'))

section Saving

variable {env : Env} {st st' : Store} {e : Stored f} {es : List (Stored f)}

/-- Of entries in order it is the first one that makes room. -/
theorem removeOldestMessage_head (hst : st.Holds (e :: es))
    (hopen : st.openRead env f = some (storedText (e :: es))) (htemp : env.opensTemp f = true)
    (hordered : (e :: es).Pairwise Stored.Earlier) :
    removeOldestMessage env f st = some (st.replace f (storedText es), some es.length) := by
  obtain ⟨o, hfound, hremove⟩ := removeOldestMessage_stored hopen htemp
  obtain ⟨oldest, hmin, hentry⟩ := hfound.oldest (List.cons_ne_nil e es)
  obtain ⟨hearlier, -⟩ := List.pairwise_cons.mp hordered
  obtain rfl : oldest = e := hmin.eq_head rfl fun z hz k hk =>
    Option.some.inj hk ▸ (hearlier z hz).1
  have hrest : ((oldest :: es).map Stored.toEntry).filter (fun e => e.line ≠ o.entry)
      = es.map Stored.toEntry := by
    rw [List.map_cons, List.filter_cons_of_neg (by simp [hentry]), List.filter_eq_self]
    intro entry hmem
    obtain ⟨later, hlater, rfl⟩ := List.mem_map.mp hmem
    rw [hentry]
    exact decide_eq_true (hearlier later hlater).2.symm
  rw [hremove, hrest, List.length_map]
  rfl

/-- Every call that the file needs for a new entry succeeds. -/
structure Env.Saves (env : Env) (f : QueueFile) (t : UtcTime) : Prop where
  reading : env.opensForReading f = true
  temp : env.opensTemp f = true
  appending : env.opensForAppending = true
  time : env.time = some t

/-- A file with its entries in order and a counter that is right, if there is one. -/
structure Store.Buffers (st : Store) (es : List (Stored f)) : Prop where
  holds : st.Holds es
  within : es.length ≤ f.cap
  counted : st.HasCounter f → (st.entries f).toNat = es.length

theorem Store.Holds.openRead_eq (hst : st.Holds es) (hes : es ≠ [])
    (hread : env.opensForReading f = true) : st.openRead env f = some (storedText es) := by
  rw [Store.openRead, if_pos hread, ← hst, Store.contents]
  cases hdisk : st.disk (.queue f) with
  | none =>
      rw [Store.Holds, Store.contents, hdisk, Option.getD_none, storedText] at hst
      have hnil := unlines_eq_nil.mp hst.symm
      exact absurd (by simpa using hnil) hes
  | some text => rfl

/-- A file without an entry to spare loses the first. -/
theorem makeRoom_newest (henv : env.Saves f e.time) (hst : st.Buffers es)
    (hcounter : st.HasCounter f) (hordered : es.Pairwise Stored.Earlier) :
    ∃ st₁ kept, makeRoom env f st = some (some st₁) ∧ st₁.Buffers kept ∧ kept.length < f.cap
      ∧ kept ++ [e] = (es ++ [e]).rtake f.cap ∧ st₁.numConnectors = st.numConnectors := by
  have hwithin := hst.within
  by_cases hfull : f.cap ≤ (st.entries f).toNat
  · rw [hst.counted hcounter] at hfull
    cases es with
    | nil =>
        have hpos : 0 < f.cap := by cases f <;> simp [QueueFile.cap]
        exact absurd (Nat.le_zero.mp hfull) hpos.ne'
    | cons first rest =>
        rw [List.length_cons] at hwithin hfull
        have hremove := removeOldestMessage_head hst.holds
          (hst.holds.openRead_eq (List.cons_ne_nil first rest) henv.reading) henv.temp hordered
        refine ⟨(st.replace f (storedText rest)).setEntries f rest.length, rest, ?_, ?_, by omega,
          ?_, rfl⟩
        · rw [makeRoom, if_pos ⟨hcounter, (hst.counted hcounter).symm ▸ hfull⟩, hremove]
          rfl
        · have hcap := f.cap_le
          refine ⟨?_, by omega, fun _ => ?_⟩
          · rw [Store.Holds, Store.contents_setEntries, Store.contents_replace, if_pos rfl]
          · rw [Store.entries_setEntries, if_pos rfl, Nat.mod_eq_of_lt (by omega)]
        · exact (rtake_cons_append first e (by omega)).symm
  · refine ⟨st, es, ?_, hst, ?_, ?_, rfl⟩
    · rw [makeRoom, if_neg fun h => hfull h.2]
    · rw [hst.counted hcounter] at hfull
      omega
    · rw [hst.counted hcounter] at hfull
      rw [rtake_of_length_le]
      rw [List.length_append, List.length_singleton]
      omega

/-- Saving keeps the newest entries. -/
theorem savePayloadToSpiffs_newest (henv : env.Saves f e.time) (hst : st.Buffers es)
    (hcounter : st.HasCounter f) (hordered : es.Pairwise Stored.Earlier)
    (hrun : savePayloadToSpiffs env f e.message st = some st') :
    st'.Buffers ((es ++ [e]).rtake f.cap) := by
  obtain ⟨st₁, kept, hroom, hkept, hlt, hnewest, hnum⟩ := makeRoom_newest henv hst hcounter hordered
  have hcounter₁ : st₁.HasCounter f := by
    cases f <;> simp_all [Store.HasCounter]
  have hcap := f.cap_le
  rw [savePayloadToSpiffs, hroom] at hrun
  simp only [Option.map_some, henv.time, henv.appending, if_true] at hrun
  have hcounter₂ : (st₁.append f e.message e.time).HasCounter f := hcounter₁
  rw [if_pos hcounter₂] at hrun
  obtain rfl := Option.some.inj hrun
  rw [← hnewest]
  refine ⟨?_, ?_, fun _ => ?_⟩
  · rw [Store.Holds, Store.contents_setEntries, Store.contents_append, if_pos rfl, hkept.holds]
    simp [storedText, fileText, Entry.line]
  · rw [List.length_append, List.length_singleton]
    omega
  · rw [Store.entries_setEntries, if_pos rfl, Store.entries_append, hkept.counted hcounter₁,
      List.length_append, List.length_singleton, Nat.mod_eq_of_lt (by omega)]

/-- A store in which neither the file nor its counter has changed. -/
theorem Store.Buffers.congr (hst : st.Buffers es) (hcontents : st'.contents f = st.contents f)
    (hcounter : st'.HasCounter f → st.HasCounter f ∧ st'.entries f = st.entries f) :
    st'.Buffers es where
  holds := hst.holds.congr hcontents
  within := hst.within
  counted := fun h => by
    obtain ⟨hbefore, hsame⟩ := hcounter h
    rw [hsame, hst.counted hbefore]

/-- A file whose entries have been counted. -/
theorem Store.Buffers.recount (hst : st.Buffers es) (hcontents : st'.contents f = st.contents f)
    (hcounter : st'.HasCounter f →
      st'.entries f = UInt8.ofNat (countFileEntries (st.disk (.queue f)))) : st'.Buffers es where
  holds := hst.holds.congr hcontents
  within := hst.within
  counted := fun h => by
    have hlength : (es.map Stored.toEntry).length ≤ f.cap := by
      rw [List.length_map]
      exact hst.within
    have hcap := f.cap_le
    rw [hcounter h, countFileEntries_eq hst.holds hlength, List.length_map,
      UInt8.toNat_ofNat_of_lt' (by rw [UInt8.size]; have := hst.within; omega)]

theorem makeRoom_numConnectors {g : QueueFile} {room : Option Store}
    (hrun : makeRoom env g st = some room) :
    (room.getD st).numConnectors = st.numConnectors := by
  rw [makeRoom] at hrun
  split at hrun
  · obtain ⟨r, hremove, rfl⟩ := Option.map_eq_some_iff.mp hrun
    have hnum : r.1.numConnectors = st.numConnectors := by
      rw [removeOldestMessage] at hremove
      split at hremove
      · rw [← Option.some.inj hremove]
      · split at hremove
        · obtain ⟨o, -, rfl⟩ := Option.map_eq_some_iff.mp hremove
          rfl
        · rw [← Option.some.inj hremove]
    cases hcount : r.2 with
    | none => rfl
    | some count => exact hnum
  · rw [← Option.some.inj hrun]
    rfl

theorem savePayloadToSpiffs_numConnectors {g : QueueFile} {text : CStr}
    (hrun : savePayloadToSpiffs env g text st = some st') :
    st'.numConnectors = st.numConnectors := by
  obtain ⟨room, hroom, hsaved⟩ := Option.map_eq_some_iff.mp hrun
  rw [← makeRoom_numConnectors hroom]
  cases room with
  | none =>
      rw [← hsaved]
      rfl
  | some st₁ =>
      rw [← hsaved]
      dsimp only
      split
      · rfl
      · split_ifs <;> rfl

/-- Saving elsewhere leaves the file alone. -/
theorem savePayloadToSpiffs_elsewhere {g : QueueFile} (hg : g ≠ f) {text : CStr}
    (hst : st.Buffers es) (hrun : savePayloadToSpiffs env g text st = some st') :
    st'.Buffers es := by
  refine hst.congr (savePayloadToSpiffs_contents hg.symm hrun) fun hcounter => ⟨?_, ?_⟩
  · have hnum := savePayloadToSpiffs_numConnectors hrun
    cases f <;> simp_all [Store.HasCounter]
  · exact savePayloadToSpiffs_entries hrun hg.symm

end Saving

/-! ### The run -/

/-- The board has no connection to the broker, or does not know the time. -/
def Board.Offline (b : Board) : Prop := (b.isMqttNetworkOnline && b.isTimeSet) = false

variable (print : Json → Option CStr)

/-- The events of an outage, and the entries that are queued in the file meanwhile. -/
inductive Outage (f : QueueFile) : List (Env × Event) → List (Stored f) → Prop
  | nil : Outage f [] []
  | saved {env : Env} {uuid action : CStr} {payload : Json} {e : Stored f}
      {inputs : List (Env × Event)} {es : List (Stored f)} : env.Saves f e.time →
      print (callArray uuid action payload) = some e.message → Outage f inputs es →
      Outage f ((env, .call f uuid action payload) :: inputs) (e :: es)
  | elsewhere {env : Env} {g : QueueFile} {uuid action : CStr} {payload : Json}
      {inputs : List (Env × Event)} {es : List (Stored f)} : g ≠ f → Outage f inputs es →
      Outage f ((env, .call g uuid action payload) :: inputs) es
  | turn {env : Env} {b : Board} {inputs : List (Env × Event)} {es : List (Stored f)} :
      b.Offline → Outage f inputs es → Outage f ((env, .turn b) :: inputs) es
  | configured {env : Env} {numConnectors : Fin 16} {inputs : List (Env × Event)}
      {es : List (Stored f)} : Outage f inputs es →
      Outage f ((env, .configured numConnectors) :: inputs) es
  | restarted {env : Env} {exchanged : Bool} {inputs : List (Env × Event)}
      {es : List (Stored f)} : Outage f inputs es →
      Outage f ((env, .restarted exchanged) :: inputs) es

/-- A connector file is only written when the connectors are known. -/
def Event.Counted (f : QueueFile) : Env × Event → Publisher → Prop
  | (_, .call g _ _ _), s => g = f → s.queue.HasCounter f
  | _, _ => True

section Outage

variable {parse : CStr → Option Json} {print} {env : Env} {s s' : Publisher} {es : List (Stored f)}

theorem mainLoop_offline {b : Board} (hb : b.Offline) (s : Publisher) :
    (mainLoop parse env b s).queue = s.queue := by
  have hnothing : ∀ t : Publisher, offeredMessage env b t = none := by
    intro t
    rw [offeredMessage, if_neg]
    rw [hb]
    exact Bool.false_ne_true
  rw [mainLoop, hnothing]
  dsimp only
  split <;> rfl

theorem nameConnectorFiles_buffers (numConnectors : Fin 16) (hs : s.queue.Buffers es) :
    (nameConnectorFiles numConnectors s).queue.Buffers es := by
  cases f with
  | connector i => exact hs.recount rfl fun _ => rfl
  | _ => exact hs.congr rfl fun _ => ⟨trivial, rfl⟩

theorem powerOn_buffers (exchanged : Bool) (hs : s.queue.Buffers es) :
    (powerOn exchanged s.queue.disk).queue.Buffers es := by
  cases f with
  | connector i => exact hs.recount rfl fun h => absurd h (Nat.not_lt_zero i)
  | _ => exact hs.recount rfl fun _ => rfl

/-- After an outage a file holds the newest of the entries that were in it and that were queued
meanwhile, as many as it may have, and they are counted. -/
theorem outage_keeps_newest {inputs : List (Env × Event)} {saved : List (Stored f)}
    (houtage : Outage print f inputs saved) (hs : s.queue.Buffers es)
    (hcounted : Runs.Meets (Event.step parse print) (Event.Counted f) inputs s)
    (hordered : (es ++ saved).Pairwise Stored.Earlier)
    (hrun : Runs.run (Event.step parse print) inputs s = some s') :
    s'.queue.Buffers ((es ++ saved).rtake f.cap) := by
  induction houtage generalizing s es with
  | nil =>
      obtain rfl := Option.some.inj hrun
      rwa [List.append_nil, rtake_of_length_le hs.within]
  | @saved env uuid action payload e inputs later henv hprint _ ih =>
      rw [Runs.run_cons] at hrun
      obtain ⟨s₁, hfirst, hrest⟩ := Option.bind_eq_some_iff.mp hrun
      have hlater := hcounted.2 s₁ hfirst
      obtain ⟨text, hprinted, hsaved⟩ := Option.bind_eq_some_iff.mp hfirst
      obtain ⟨queue, hsave, rfl⟩ := Option.map_eq_some_iff.mp hsaved
      obtain rfl : e.message = text := Option.some.inj (hprint.symm.trans hprinted)
      have hnewest := savePayloadToSpiffs_newest henv hs (hcounted.1 rfl)
        (List.pairwise_append.mp hordered).1 hsave
      rw [List.append_cons] at hordered ⊢
      have hsub : ((es ++ [e]).rtake f.cap ++ later).Sublist (es ++ [e] ++ later) :=
        (List.drop_sublist _ _).append_right later
      have hlast := ih hnewest hlater (hordered.sublist hsub) hrest
      rwa [rtake_rtake_append] at hlast
  | @elsewhere env g uuid action payload inputs later hg _ ih =>
      rw [Runs.run_cons] at hrun
      obtain ⟨s₁, hfirst, hrest⟩ := Option.bind_eq_some_iff.mp hrun
      have hlater := hcounted.2 s₁ hfirst
      obtain ⟨text, -, hsaved⟩ := Option.bind_eq_some_iff.mp hfirst
      obtain ⟨queue, hsave, rfl⟩ := Option.map_eq_some_iff.mp hsaved
      exact ih (savePayloadToSpiffs_elsewhere hg hs hsave) hlater hordered hrest
  | turn hb _ ih =>
      refine ih ?_ (hcounted.2 _ rfl) hordered hrun
      rwa [mainLoop_offline hb]
  | configured _ ih =>
      exact ih (nameConnectorFiles_buffers _ hs) (hcounted.2 _ rfl) hordered hrun
  | restarted _ ih => exact ih (powerOn_buffers _ hs) (hcounted.2 _ rfl) hordered hrun

end Outage

/-- The board starts without a connection, and once more behind its first message. -/
def startsTwice : List (Env × Event) := startUp ++ [(healthy, .restarted false)]

def startedTwice : Publisher :=
  (Runs.run (Event.step parseSamples printSample) startsTwice
    (powerOn false (requestDisk [sessionEntry]))).getD (powerOn false (requestDisk [sessionEntry]))

theorem session_outlasts_outage :
    startedTwice.queue.Buffers ([sessionStored, requestStored].rtake QueueFile.request.cap) := by
  have houtage : Outage printSample .request startsTwice [requestStored] :=
    .turn rfl (.saved ⟨rfl, rfl, rfl, rfl⟩ rfl (.restarted .nil))
  have hbuffers : (powerOn false (requestDisk [sessionEntry])).queue.Buffers [sessionStored] :=
    ⟨rfl, by decide, fun _ => by decide +kernel⟩
  have hcounted : Runs.Meets (Event.step parseSamples printSample) (Event.Counted .request)
      startsTwice (powerOn false (requestDisk [sessionEntry])) := by
    refine .of_forall fun event hevent s => ?_
    simp only [startsTwice, startUp, List.cons_append, List.nil_append, List.mem_cons,
      List.not_mem_nil, or_false] at hevent
    rcases hevent with rfl | rfl | rfl
    · trivial
    · exact fun _ => trivial
    · trivial
  have hordered : ([sessionStored] ++ [requestStored]).Pairwise Stored.Earlier := by
    rw [List.singleton_append, List.pairwise_pair]
    exact ⟨le_rfl, by decide⟩
  exact outage_keeps_newest houtage hbuffers hcounted hordered rfl

end Pmu
