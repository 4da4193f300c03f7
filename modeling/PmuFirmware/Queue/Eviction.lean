import PmuFirmware.Queue.Enqueueing

/-!
# Which entry is removed

`remove_oldest_message` goes through a file twice: the first time for the line with the oldest timestamp,
the second time to copy all other lines. A timestamp is what follows the last `|`, so that messages may
contain one; lines without it are copied. Of several lines with the same timestamp it is the first one
that is found, and all lines that are equal to it are removed.
-/

namespace Pmu

open CLib

/-! ### The first least element -/

section FirstMin

variable {α β : Type} [LinearOrder β] (key : α → Option β)

/-- The first element whose key is the least. Elements without a key do not count. -/
def FirstMin (xs : List α) (x : α) : Prop :=
  ∃ before after k, xs = before ++ x :: after ∧ key x = some k
    ∧ (∀ y ∈ before, ∀ k', key y = some k' → k < k')
    ∧ ∀ y ∈ after, ∀ k', key y = some k' → k ≤ k'

variable {key} {xs : List α} {x y : α}

theorem FirstMin.mem (h : FirstMin key xs x) : x ∈ xs := by
  obtain ⟨before, after, k, rfl, -⟩ := h
  simp

/-- All other elements have a key that is not less. -/
theorem FirstMin.le (h : FirstMin key xs x) {k k' : β} (hx : key x = some k) (hy : y ∈ xs)
    (hkey : key y = some k') : k ≤ k' := by
  obtain ⟨before, after, k₁, rfl, hk₁, hbefore, hafter⟩ := h
  obtain rfl := Option.some.inj (hk₁.symm.trans hx)
  rcases List.mem_append.mp hy with hy | hy
  · exact (hbefore y hy k' hkey).le
  · rcases List.mem_cons.mp hy with rfl | hy
    · exact (Option.some.inj (hx.symm.trans hkey)).le
    · exact hafter y hy k' hkey

/-- An element behind that is not less changes nothing. -/
theorem FirstMin.append (h : FirstMin key xs x) {k : β} (hx : key x = some k)
    (hy : ∀ k', key y = some k' → k ≤ k') : FirstMin key (xs ++ [y]) x := by
  obtain ⟨before, after, k₁, rfl, hk₁, hbefore, hafter⟩ := h
  obtain rfl := Option.some.inj (hk₁.symm.trans hx)
  refine ⟨before, after ++ [y], k₁, by simp, hk₁, hbefore, fun z hz k' hk' => ?_⟩
  rcases List.mem_append.mp hz with hz | hz
  · exact hafter z hz k' hk'
  · exact hy k' (List.mem_singleton.mp hz ▸ hk')

/-- An element behind that is less than all others takes their place. -/
theorem FirstMin.last {k : β} (hy : key y = some k) (hless : ∀ z ∈ xs, ∀ k', key z = some k' → k < k') :
    FirstMin key (xs ++ [y]) y :=
  ⟨xs, [], k, rfl, hy, hless, fun _ hz => absurd hz List.not_mem_nil⟩

end FirstMin

/-! ### The lines of a queue file -/

/-- A line that fits the buffer: a message with a timestamp, or a text without `|`. -/
structure QueueLine where
  message : CStr
  time : Option UtcTime
  clean : newline ∉ message ∧ NUL ∉ message
  fits : (time.elim message (entryLine message)).length + 2 ≤ totalLine
  bare : time = none → '|' ∉ message
  year_lt : ∀ t, time = some t → t.year < 9998

namespace QueueLine

variable (line : QueueLine)

def text : CStr := line.time.elim line.message (entryLine line.message)

/-- The second of the timestamp. -/
def second : Option Int := line.time.map fun t => mktime t.tm

theorem text_clean : ∀ c ∈ line.text, (c == newline) = false ∧ c ≠ NUL := by
  intro c hc
  rw [text] at hc
  cases htime : line.time with
  | none =>
      rw [htime] at hc
      exact clean_of_mem line.clean hc
  | some t =>
      rw [htime] at hc
      exact entryLine_clean line.clean t hc

theorem text_fits : Fits totalLine line.text :=
  ⟨fun hmem => by simpa using (line.text_clean newline hmem).1, line.fits⟩

theorem cutAt_text {buffer : CStr} (h : buffer = line.text ++ [newline] ∨ buffer = line.text) :
    cutAt (· == newline) buffer = line.text := by
  rcases h with rfl | rfl
  · exact cutAt_append_stop line.text_clean (by decide) []
  · exact cutAt_eq_self line.text_clean

/-- The readers see the lines of the file. -/
theorem map_cutAt {lines : List QueueLine} {text : CStr}
    (htext : LinesOf (lines.map QueueLine.text) text) :
    (readLines totalLine text).map (cutAt (· == newline)) = lines.map QueueLine.text := by
  have hfits : ∀ l ∈ lines.map QueueLine.text, Fits totalLine l := by
    intro l hl
    obtain ⟨line, -, rfl⟩ := List.mem_map.mp hl
    exact line.text_fits
  have hread := readLines_linesOf htext hfits
  rw [List.forall₂_map_left_iff] at hread
  have hsame : List.Forall₂ (· = ·) (lines.map QueueLine.text)
      ((readLines totalLine text).map (cutAt (· == newline))) := by
    rw [List.forall₂_map_left_iff, List.forall₂_map_right_iff]
    exact hread.imp fun line buffer h => (line.cutAt_text h).symm
  rw [List.forall₂_eq_eq_eq] at hsame
  exact hsame.symm

end QueueLine

/-! ### The first pass -/

theorem compareTimestamps_lt (lib : TimeLibrary) (t t' : UtcTime) :
    compareTimestamps lib (timestampText t) (timestampText t') < 0
      ↔ mktime t.tm < mktime t'.tm := by
  rw [compareTimestamps_neg, instant_timestampText, instant_timestampText]

section FirstPass

variable (lib : TimeLibrary) (o : Oldest) {line : QueueLine}

/-- What is done with a line depends on the text before its newline. -/
theorem oldestLine_cutAt (buffer : CStr) :
    oldestLine lib o (cutAt (· == newline) buffer) = oldestLine lib o buffer := by
  have hclean : ∀ c ∈ cutAt (· == newline) buffer, (c == newline) = false ∧ c ≠ NUL := by
    intro c hc
    have hkept := List.mem_takeWhile_imp hc
    simpa using hkept
  rw [oldestLine, cutAt_eq_self hclean]
  rfl

theorem oldestLine_bare (htime : line.time = none) :
    oldestLine lib o line.text = some o := by
  have hcut : cutAt (· == newline) line.text = line.text := line.cutAt_text (.inr rfl)
  have hbar : strrchr '|' line.text = none := by
    rw [strrchr_eq_none, QueueLine.text, htime]
    exact line.bare htime
  rw [oldestLine, hcut, hbar]

theorem oldestLine_entry {t : UtcTime} (htime : line.time = some t) :
    oldestLine lib o line.text
      = some (if compareTimestamps lib (timestampText t) o.timestamp < 0 then
            ⟨line.message, timestampText t⟩
          else o) := by
  have hcut : cutAt (· == newline) line.text = line.text := line.cutAt_text (.inr rfl)
  have hsplit : strrchr '|' line.text = some (line.message, timestampText t) := by
    rw [QueueLine.text, htime]
    exact strrchr_append (bar_not_mem_timestampText t) line.message
  have hroom : (timestampText t).length < 30 := by
    rw [length_timestampText]
    decide
  rw [oldestLine, hcut, hsplit]
  simp only [hroom, if_true]
  split <;> rfl

/-- What has been found in the lines so far. -/
def Found (lines : List QueueLine) (o : Oldest) : Prop :=
  ((∀ line ∈ lines, line.time = none) ∧ o = Oldest.start)
    ∨ ∃ oldest t, FirstMin QueueLine.second lines oldest ∧ oldest.time = some t
      ∧ o = ⟨oldest.message, timestampText t⟩

theorem Found.bare {o : Oldest} {lines : List QueueLine} (h : Found lines o)
    (htime : line.time = none) : Found (lines ++ [line]) o := by
  rcases h with ⟨hnone, ho⟩ | ⟨oldest, t, hmin, ht, ho⟩
  · refine .inl ⟨fun l hl => ?_, ho⟩
    rcases List.mem_append.mp hl with hl | hl
    · exact hnone l hl
    · exact List.mem_singleton.mp hl ▸ htime
  · refine .inr ⟨oldest, t, hmin.append (by rw [QueueLine.second, ht]; rfl) ?_, ht, ho⟩
    intro k hk
    rw [QueueLine.second, htime] at hk
    cases hk

theorem Found.entry {o : Oldest} {lines : List QueueLine} (h : Found lines o) {t : UtcTime}
    (htime : line.time = some t) :
    Found (lines ++ [line])
      (if compareTimestamps lib (timestampText t) o.timestamp < 0 then
          ⟨line.message, timestampText t⟩
        else o) := by
  have hkey : line.second = some (mktime t.tm) := by
    rw [QueueLine.second, htime]
    rfl
  rcases h with ⟨hnone, ho⟩ | ⟨oldest, t', hmin, ht', ho⟩
  · have hfuture := compareTimestamps_future lib t (line.year_lt t htime)
    rw [ho, Oldest.start, if_pos hfuture]
    refine .inr ⟨line, t, FirstMin.last hkey fun l hl k hk => ?_, htime, rfl⟩
    rw [QueueLine.second, hnone l hl] at hk
    cases hk
  · have hkey' : oldest.second = some (mktime t'.tm) := by
      rw [QueueLine.second, ht']
      rfl
    have hless := compareTimestamps_lt lib t t'
    rw [ho]
    split
    · next hbefore =>
        refine .inr ⟨line, t, FirstMin.last hkey fun l hl k hk => ?_, htime, rfl⟩
        exact lt_of_lt_of_le (hless.mp hbefore) (hmin.le hkey' hl hk)
    · next hafter =>
        refine .inr ⟨oldest, t', hmin.append hkey' fun k hk => ?_, ht', rfl⟩
        rw [hkey] at hk
        exact Option.some.inj hk ▸ not_lt.mp (mt hless.mpr hafter)

/-- The first pass finds the first line whose timestamp is the least. -/
theorem foldlM_oldestLine_text (lines : List QueueLine) :
    ∃ o, (lines.map QueueLine.text).foldlM (oldestLine lib) Oldest.start = some o
      ∧ Found lines o := by
  induction lines using List.reverseRecOn with
  | nil => exact ⟨Oldest.start, rfl, .inl ⟨fun _ hl => absurd hl List.not_mem_nil, rfl⟩⟩
  | append_singleton lines line ih =>
      obtain ⟨o, hfold, hfound⟩ := ih
      have hlast : ∀ o', oldestLine lib o line.text = some o' →
          ((lines ++ [line]).map QueueLine.text).foldlM (oldestLine lib) Oldest.start
            = some o' := by
        intro o' ho'
        rw [List.map_append, List.foldlM_append, hfold]
        simp [ho']
      cases htime : line.time with
      | none => exact ⟨o, hlast o (oldestLine_bare lib o htime), hfound.bare htime⟩
      | some t =>
          exact ⟨_, hlast _ (oldestLine_entry lib o htime), hfound.entry lib htime⟩

end FirstPass

/-! ### The second pass -/

theorem foldl_notOldestLine_cutAt (oldestEntry : CStr) (buffers : List CStr) (p : Pass) :
    buffers.foldl (notOldestLine oldestEntry) p
      = p.after (fun line => decide (line ≠ oldestEntry))
          (buffers.map (cutAt (· == newline))) := by
  induction buffers generalizing p with
  | nil => exact (Pass.after_nil p _).symm
  | cons buffer buffers ih =>
      rw [List.foldl_cons, ih, List.map_cons, Pass.after_cons, notOldestLine]
      simp only [decide_eq_true_eq]

/-- `remove_oldest_message` keeps all lines but those that are equal to the first one with the least
timestamp, so that a line without a timestamp stays, and returns their number. -/
theorem removeOldestMessage_removes {env : Env} {f : QueueFile} {st : Store} {text : CStr}
    {lines : List QueueLine} (hopen : st.openRead env f = some text)
    (htemp : env.opensTemp f = true) (htext : LinesOf (lines.map QueueLine.text) text)
    (htimed : ∃ line ∈ lines, line.time ≠ none) :
    ∃ oldest, FirstMin QueueLine.second lines oldest
      ∧ removeOldestMessage env f st
          = some (st.replace f
              (unlines ((lines.map QueueLine.text).filter fun line => line ≠ oldest.text)),
            some ((lines.map QueueLine.text).countP fun line => line ≠ oldest.text))
      ∧ ((lines.map QueueLine.text).countP fun line => line ≠ oldest.text) < lines.length
      ∧ ∀ line ∈ lines, line.time = none → line.text ≠ oldest.text := by
  obtain ⟨o, hfold, hfound⟩ := foldlM_oldestLine_text env.timeLibrary lines
  have hpass : (readLines totalLine text).foldlM (oldestLine env.timeLibrary) Oldest.start
      = some o := by
    rw [← hfold, ← QueueLine.map_cutAt htext, List.foldlM_map]
    simp only [oldestLine_cutAt]
  obtain ⟨hnone, -⟩ | ⟨oldest, t, hmin, ht, ho⟩ := hfound
  · obtain ⟨line, hline, htime⟩ := htimed
    exact absurd (hnone line hline) htime
  have hentry : o.entry = oldest.text := by
    rw [ho, QueueLine.text, ht]
    rfl
  refine ⟨oldest, hmin, ?_, ?_, fun line _ htime hsame => ?_⟩
  · rw [removeOldestMessage, hopen]
    simp only [htemp, if_true, hpass, Option.map_some, foldl_notOldestLine_cutAt,
      QueueLine.map_cutAt htext, hentry, Pass.after, Pass.start, List.nil_append, Nat.zero_add]
  · refine lt_of_lt_of_eq (List.countP_lt_length_iff.mpr ⟨oldest.text, ?_, by simp⟩)
      (List.length_map ..)
    exact List.mem_map_of_mem hmin.mem
  · have hbar : '|' ∈ oldest.text := by
      rw [QueueLine.text, ht]
      simp [entryLine]
    rw [← hsame, QueueLine.text, htime] at hbar
    exact line.bare htime hbar

/-- A file with a line without a timestamp and a message that contains a `|`. -/
theorem removes_message_with_bar : ∃ st count,
    removeOldestMessage healthy .request
        (alone .request (unlines ["a line".toList, entryLine "a|b".toList newYear]))
      = some (st, some count) ∧ count < 2 := by
  have hyear : ∀ t, some newYear = some t → t.year < 9998 := by
    intro t ht
    rw [← Option.some.inj ht]
    decide
  let bare : QueueLine :=
    ⟨"a line".toList, none, by decide, by decide, fun _ => by decide, fun _ ht => nomatch ht⟩
  let timed : QueueLine :=
    ⟨"a|b".toList, some newYear, by decide, by decide, fun ht => absurd ht (by simp), hyear⟩
  obtain ⟨oldest, -, hrun, hcount, -⟩ := @removeOldestMessage_removes healthy .request
    (alone .request (unlines ["a line".toList, entryLine "a|b".toList newYear])) _ [bare, timed]
    rfl rfl (.inl rfl) ⟨timed, by simp, by simp [timed]⟩
  exact ⟨_, _, hrun, hcount⟩

end Pmu
