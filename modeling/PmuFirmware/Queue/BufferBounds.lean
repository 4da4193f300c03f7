import PmuFirmware.Queue.Enqueueing
import PmuFirmware.Queue.Readers

/-!
# The bounds of the buffers that lines are copied to

The readers copy the part of a line before its first `|` without a look at its length. The buffer for it
is as large as the line everywhere but in `handle_response_message`, where it is 100 bytes smaller.
`remove_oldest_message` copies what follows the last `|`, which need not be a timestamp, to 30 bytes
whenever it is less than the last one.
-/

namespace Pmu

open CLib

/-! ### The texts that are copied -/

/-- What the readers with a buffer of `size` bytes copy of a file: the text before the first `|` of each
piece they read. -/
def messagesRead (size : Nat) (text : CStr) : List CStr :=
  (readLines size text).filterMap fun buffer =>
    (strchr '|' (cutAt (· == newline) buffer)).map Prod.fst

/-- What follows the last `|` of a piece. -/
def lastPart (buffer : CStr) : Option CStr :=
  (strrchr '|' (cutAt (· == newline) buffer)).map Prod.snd

theorem length_cutAt_le (stop : Char → Bool) (s : CStr) : (cutAt stop s).length ≤ s.length :=
  (List.takeWhile_prefix _).length_le

/-- A message is shorter than the piece it is taken from. -/
theorem length_messagesRead_lt {size : Nat} (hsize : 1 ≤ size) {text message : CStr}
    (hmessage : message ∈ messagesRead size text) : message.length < size := by
  obtain ⟨buffer, hbuffer, hsplit⟩ := List.mem_filterMap.mp hmessage
  obtain ⟨⟨before, after⟩, hstrchr, rfl⟩ := Option.map_eq_some_iff.mp hsplit
  have hlength := congrArg List.length (strchr_eq_some hstrchr).1
  have hcut := length_cutAt_le (· == newline) buffer
  have hlt := length_lt_of_mem_readLines hsize hbuffer
  rw [List.length_append] at hlength
  show before.length < size
  omega

/-! ### Deleting by UUID -/

section Uuid

variable (parse : CStr → Option Json)

theorem isSome_foldlM_uuidLine (responseUuid : CStr) (buffers : List CStr) (p : Pass) :
    (buffers.foldlM (uuidLine parse responseUuid) p).isSome
      ↔ ∀ message ∈ buffers.filterMap fun buffer =>
          (strchr '|' (cutAt (· == newline) buffer)).map Prod.fst,
        message.length < messageBuffer := by
  induction buffers generalizing p with
  | nil => simp
  | cons buffer buffers ih =>
      rw [List.foldlM_cons, uuidLine]
      cases hsplit : strchr '|' (cutAt (· == newline) buffer) with
      | none =>
          rw [List.filterMap_cons_none (by rw [hsplit]; rfl), Option.bind_eq_bind]
          exact ih _
      | some parts =>
          obtain ⟨message, rest⟩ := parts
          rw [List.filterMap_cons_some (by rw [hsplit]; rfl), List.forall_mem_cons]
          dsimp only
          by_cases hroom : message.length < messageBuffer
          · rw [if_pos hroom]
            split
            · rw [Option.bind_eq_bind, Option.bind_some, ih]
              exact (and_iff_right hroom).symm
            · rw [Option.bind_eq_bind, Option.bind_some, ih]
              exact (and_iff_right hroom).symm
          · rw [if_neg hroom]
            exact iff_of_false (by simp) fun h => hroom h.1

/-- The file and the temporary file are opened. -/
def Store.Opens (st : Store) (env : Env) (f : QueueFile) (text : CStr) : Prop :=
  st.openRead env f = some text ∧ env.opensTemp f = true

/-- Only once both files are open does it depend on the text whether a function gets through. -/
theorem Store.isSome_iff_of_opens {α : Type} {st : Store} {env : Env} {f : QueueFile} {run : Option α}
    {P : CStr → Prop} (hclosed : (∀ text, ¬st.Opens env f text) → run.isSome)
    (hopened : ∀ text, st.Opens env f text → (run.isSome ↔ P text)) :
    run.isSome ↔ ∀ text, st.Opens env f text → P text := by
  by_cases hopens : ∃ text, st.Opens env f text
  · obtain ⟨text, hopens⟩ := hopens
    rw [hopened text hopens]
    refine ⟨fun h text' hopens' => ?_, fun h => h text hopens⟩
    obtain rfl := Option.some.inj (hopens.1.symm.trans hopens'.1)
    exact h
  · have hnone : ∀ text, ¬st.Opens env f text := not_exists.mp hopens
    exact iff_of_true (hclosed hnone) fun text h => absurd h (hnone text)

theorem isSome_deleteEntriesByUuid (env : Env) (size : Nat) (f : QueueFile) (responseUuid : CStr)
    (st : Store) :
    (deleteEntriesByUuid parse env size f responseUuid st).isSome
      ↔ ∀ text, st.Opens env f text →
        ∀ message ∈ messagesRead size text, message.length < messageBuffer := by
  refine Store.isSome_iff_of_opens (fun hclosed => ?_) fun text hopens => ?_
  · rw [deleteEntriesByUuid]
    cases hopen : st.openRead env f with
    | none => rfl
    | some text =>
        dsimp only
        rw [if_neg fun htemp => hclosed text ⟨hopen, htemp⟩]
        rfl
  · rw [deleteEntriesByUuid, hopens.1]
    dsimp only
    rw [if_pos hopens.2, Option.isSome_map, isSome_foldlM_uuidLine]
    rfl

/-- The pieces of a fault file are too short to overrun the buffer. -/
theorem isSome_deleteFaultFileEntryByUuid (env : Env) (f : QueueFile) (responseUuid : CStr)
    (st : Store) : (deleteFaultFileEntryByUuid parse env f responseUuid st).isSome := by
  rw [deleteFaultFileEntryByUuid, Option.isSome_map, isSome_deleteEntriesByUuid]
  intro text _ message hmessage
  exact lt_of_lt_of_le (length_messagesRead_lt (by decide) hmessage) (by decide)

theorem isSome_handleResponseMessage (env : Env) (responseUuid : CStr) (st : Store) :
    (handleResponseMessage parse env responseUuid st).isSome
      ↔ ∀ text, st.Opens env .request text →
        ∀ message ∈ messagesRead dequeMsgBuffer text, message.length < messageBuffer := by
  rw [handleResponseMessage, Option.isSome_map, isSome_deleteEntriesByUuid]

end Uuid

/-! ### Removing the oldest entry -/

/-- What `remove_oldest_message` holds fits its three buffers. -/
structure Oldest.Fits (o : Oldest) : Prop where
  timestamp : o.timestamp.length < 30
  line : o.line.length < totalLine
  entry : o.entry.length < totalLine

/-- The parts that are less than all before them have room for themselves and their zero. -/
def MinimaFit (lib : TimeLibrary) (first : CStr) (parts : List CStr) : Prop :=
  ∀ before part after, parts = before ++ part :: after →
    (∀ earlier ∈ first :: before, instant lib part < instant lib earlier) →
    part.length < 30

section Oldest

variable {lib : TimeLibrary}

theorem start_fits : Oldest.start.Fits := ⟨by decide, by decide, by decide⟩

/-- A part that is not less than the last one is not copied. -/
theorem minimaFit_cons_of_not_lt {first part : CStr} {parts : List CStr}
    (hnot : ¬ instant lib part < instant lib first) :
    MinimaFit lib first (part :: parts) ↔ MinimaFit lib first parts := by
  constructor
  · intro h before later after hparts hless
    refine h (part :: before) later after (by rw [hparts]; rfl) fun earlier hearlier => ?_
    rcases List.mem_cons.mp hearlier with rfl | hearlier
    · exact hless _ List.mem_cons_self
    · rcases List.mem_cons.mp hearlier with rfl | hearlier
      · exact lt_of_lt_of_le (hless _ List.mem_cons_self) (not_lt.mp hnot)
      · exact hless earlier (List.mem_cons_of_mem _ hearlier)
  · intro h before later after hparts hless
    rcases List.cons_eq_append_iff.mp hparts with ⟨-, hlater⟩ | ⟨before, rfl, hrest⟩
    · obtain rfl := (List.cons.inj hlater).1
      exact absurd (hless first List.mem_cons_self) hnot
    · refine h before later after hrest fun earlier hearlier => hless earlier ?_
      rcases List.mem_cons.mp hearlier with rfl | hearlier
      · exact List.mem_cons_self
      · exact List.mem_cons_of_mem _ (List.mem_cons_of_mem _ hearlier)

/-- One that is less takes its place. -/
theorem minimaFit_cons_of_lt {first part : CStr} {parts : List CStr}
    (hlt : instant lib part < instant lib first) :
    MinimaFit lib first (part :: parts)
      ↔ part.length < 30 ∧ MinimaFit lib part parts := by
  constructor
  · intro h
    refine ⟨h [] part parts rfl fun earlier hearlier => ?_, fun before later after hparts hless => ?_⟩
    · exact List.mem_singleton.mp hearlier ▸ hlt
    · refine h (part :: before) later after (by rw [hparts]; rfl) fun earlier hearlier => ?_
      rcases List.mem_cons.mp hearlier with rfl | hearlier
      · exact (hless part List.mem_cons_self).trans hlt
      · exact hless earlier hearlier
  · intro ⟨hroom, h⟩ before later after hparts hless
    rcases List.cons_eq_append_iff.mp hparts with ⟨-, hlater⟩ | ⟨before, rfl, hrest⟩
    · exact (List.cons.inj hlater).1 ▸ hroom
    · exact h before later after hrest fun earlier hearlier =>
        hless earlier (List.mem_cons_of_mem _ hearlier)

theorem oldestLine_of_part {o : Oldest} {buffer : CStr} {part : CStr}
    (hpart : lastPart buffer = some part) : ∃ line,
      oldestLine lib o buffer
        = (if instant lib part < instant lib o.timestamp then
            if part.length < 30 then some ⟨line, part⟩ else none
          else some o)
        ∧ line.length + 1 + part.length ≤ buffer.length := by
  obtain ⟨⟨line, rest⟩, hsplit, rfl⟩ := Option.map_eq_some_iff.mp hpart
  refine ⟨line, ?_, ?_⟩
  · rw [oldestLine, hsplit]
    simp only [compareTimestamps_neg]
  · have hlength := congrArg List.length (strrchr_eq_some hsplit).1
    have hcut := length_cutAt_le (· == newline) buffer
    rw [List.length_append, List.length_cons] at hlength
    show line.length + 1 + rest.length ≤ _
    omega

theorem oldestLine_of_no_part {o : Oldest} {buffer : CStr} (hpart : lastPart buffer = none) :
    oldestLine lib o buffer = some o := by
  rw [lastPart, Option.map_eq_none_iff] at hpart
  rw [oldestLine, hpart]

/-- Line and timestamp come from one piece, so that they fit together. -/
theorem Oldest.Fits.step {o o' : Oldest} (h : o.Fits) {buffer : CStr}
    (hbuffer : buffer.length < totalLine) (hstep : oldestLine lib o buffer = some o') :
    o'.Fits := by
  cases hpart : lastPart buffer with
  | none =>
      rw [oldestLine_of_no_part hpart] at hstep
      exact Option.some.inj hstep ▸ h
  | some part =>
      obtain ⟨line, hresult, hlength⟩ := oldestLine_of_part (o := o) hpart
      rw [hresult] at hstep
      split at hstep
      · split at hstep
        · next hroom =>
            rw [← Option.some.inj hstep]
            refine ⟨hroom, show line.length < totalLine by omega, ?_⟩
            show (line ++ '|' :: part).length < totalLine
            rw [List.length_append, List.length_cons]
            omega
        · cases hstep
      · exact Option.some.inj hstep ▸ h

theorem isSome_foldlM_oldestLine (buffers : List CStr) (o : Oldest) :
    (buffers.foldlM (oldestLine lib) o).isSome
      ↔ MinimaFit lib o.timestamp (buffers.filterMap lastPart) := by
  induction buffers generalizing o with
  | nil =>
      refine iff_of_true rfl fun before part after hparts _ => ?_
      simp at hparts
  | cons buffer buffers ih =>
      rw [List.foldlM_cons]
      cases hpart : lastPart buffer with
      | none =>
          rw [List.filterMap_cons_none hpart, oldestLine_of_no_part hpart]
          exact ih o
      | some part =>
          obtain ⟨line, hresult, -⟩ := @oldestLine_of_part lib o buffer part hpart
          rw [List.filterMap_cons_some hpart, hresult]
          by_cases hlt : instant lib part < instant lib o.timestamp
          · rw [minimaFit_cons_of_lt hlt, if_pos hlt]
            by_cases hroom : part.length < 30
            · rw [if_pos hroom, and_iff_right hroom]
              exact ih ⟨line, part⟩
            · rw [if_neg hroom]
              exact iff_of_false (by simp) fun h => hroom h.1
          · rw [minimaFit_cons_of_not_lt hlt, if_neg hlt]
            exact ih o

theorem isSome_removeOldestMessage (env : Env) (f : QueueFile) (st : Store) :
    (removeOldestMessage env f st).isSome
      ↔ ∀ text, st.Opens env f text →
        MinimaFit env.timeLibrary futureTimestamp
          ((readLines totalLine text).filterMap lastPart) := by
  refine Store.isSome_iff_of_opens (fun hclosed => ?_) fun text hopens => ?_
  · rw [removeOldestMessage]
    cases hopen : st.openRead env f with
    | none => rfl
    | some text =>
        dsimp only
        rw [if_neg fun htemp => hclosed text ⟨hopen, htemp⟩]
        rfl
  · rw [removeOldestMessage, hopens.1]
    dsimp only
    rw [if_pos hopens.2, Option.isSome_map, isSome_foldlM_oldestLine]
    rfl

end Oldest

/-! ### All readers -/

/-- No reader writes past the end of a buffer. The first pass of `remove_oldest_message` copies line,
timestamp and entry; where it stops being `some` it has overrun the timestamp. -/
structure WithinBuffers (parse : CStr → Option Json) (env : Env) (uuid : CStr) (f : QueueFile)
    (st : Store) : Prop where
  response : (handleResponseMessage parse env uuid st).isSome
  fault : (deleteFaultFileEntryByUuid parse env f uuid st).isSome
  search : ∀ text, st.openRead env f = some text →
    ∀ message ∈ messagesRead totalLine text, message.length < totalLine
  oldest : (removeOldestMessage env f st).isSome
  found : ∀ text, st.openRead env f = some text → ∀ done, done <+: readLines totalLine text →
    ∀ o, done.foldlM (oldestLine env.timeLibrary) Oldest.start = some o → o.Fits

/-- The readers stay within their buffers if and only if each message in the request log leaves room in
the smaller buffer and each text that is taken for the oldest timestamp is as short as one. -/
theorem withinBuffers_iff (parse : CStr → Option Json) (env : Env) (uuid : CStr) (f : QueueFile)
    (st : Store) :
    WithinBuffers parse env uuid f st
      ↔ (∀ text, st.Opens env .request text →
          ∀ message ∈ messagesRead dequeMsgBuffer text, message.length < messageBuffer)
        ∧ ∀ text, st.Opens env f text → MinimaFit env.timeLibrary futureTimestamp
          ((readLines totalLine text).filterMap lastPart) := by
  rw [← isSome_handleResponseMessage parse env uuid st, ← isSome_removeOldestMessage env f st]
  refine ⟨fun h => ⟨h.response, h.oldest⟩, fun h =>
    ⟨h.1, isSome_deleteFaultFileEntryByUuid parse env f uuid st, ?_, h.2, ?_⟩⟩
  · intro text _ message hmessage
    exact length_messagesRead_lt (by decide) hmessage
  · intro text _ done hdone
    have hpieces : ∀ buffer ∈ done, buffer.length < totalLine := fun buffer hbuffer =>
      length_lt_of_mem_readLines (by decide) (hdone.subset hbuffer)
    clear hdone
    induction done using List.reverseRecOn with
    | nil =>
        intro o ho
        exact Option.some.inj ho ▸ start_fits
    | append_singleton done buffer ih =>
        intro o ho
        rw [List.foldlM_append] at ho
        obtain ⟨o₁, hdone, hlast⟩ := Option.bind_eq_some_iff.mp ho
        have hstep : oldestLine env.timeLibrary o₁ buffer = some o := by simpa using hlast
        have hfits : o₁.Fits := ih (fun b hb => hpieces b (List.mem_append_left _ hb)) o₁ hdone
        exact hfits.step (hpieces buffer (by simp)) hstep

/-- A request of 1950 characters overruns the message buffer, and a `|` with 30 characters behind it the
timestamp. -/
theorem long_texts_overrun :
    handleResponseMessage (fun _ => none) healthy []
        (alone .request (unlines [List.replicate 1950 'a' ++ ['|']])) = none
      ∧ removeOldestMessage healthy .request
        (alone .request (unlines ['|' :: List.replicate 30 'a'])) = none := by
  decide +kernel

end Pmu
