import PmuFirmware.Publisher.Gate

/-!
# What retrying deletes

A message that the broker does not answer is sent again, and the third time the loop looks at whether
it may be given up: an unimportant message is deleted, an important one only when it cannot be parsed.
Deleting goes by text, over all files. What is parsed and searched for is the part of the line before
its first `|`.

Sessions, configurations and faults are to be kept however often they are sent again. The two counts
stay below three between turns, so a turn deletes at most once, and only the message it has selected.
-/

namespace Pmu

open CLib

variable (parse : CStr → Option Json) (print : Json → Option CStr)

/-! ### The lines of the queues -/

/-- The lines of a queue file, as its readers see them. -/
def Store.lines (st : Store) (f : QueueFile) : List CStr :=
  (readLines totalLine (st.contents f)).map (cutAt (· == newline))

/-- The message that was queued: the timestamp behind the last `|` has none of its own. -/
def storedMessage (line : CStr) : CStr := (strrchr '|' line).elim line Prod.fst

/-- Data that must not be given up: a fault, or a configuration or a session in the request log. -/
def isCritical (f : QueueFile) (line : CStr) : Bool :=
  (parse (storedMessage line)).isSome && (f != .request
    || decide (extractActionFromJsonResponse parse (storedMessage line) = some configurationData)
    || decide (extractActionFromJsonResponse parse (storedMessage line) = some chargingSession))

/-- A line that its readers have room for and that none of them cuts short. -/
structure CleanLine (line : CStr) : Prop where
  fits : Fits totalLine line
  noNul : NUL ∉ line
  noReturn : '\r' ∉ line

/-- The files consist of such lines. -/
def Store.Clean (st : Store) : Prop :=
  ∀ f, ∃ lines, st.contents f = unlines lines ∧ ∀ line ∈ lines, CleanLine line

/-- No queued message is part of another queued line. -/
def Store.Separate (st : Store) : Prop :=
  ∀ f g (i j : Nat) line other, (f, i) ≠ (g, j) → (st.lines f)[i]? = some line →
    (st.lines g)[j]? = some other → strstr other (storedMessage line) = false

/-- When retrying keeps what is critical: such a message is still one once it is cut at its first `|`,
and no other message is turned into a part of it by that cut. -/
structure KeptApart (st : Store) : Prop where
  clean : st.Clean
  separate : st.Separate
  parses : ∀ f, ∀ line ∈ st.lines f, isCritical parse f line = true →
    (parse (queuedMessage line)).isSome = true
  important : ∀ line ∈ st.lines .request, isCritical parse .request line = true →
    lineImportance line ≠ 0
  apart : ∀ f, ∀ line ∈ st.lines f, isCritical parse f line = false → '|' ∈ storedMessage line →
    ∀ g, ∀ other ∈ st.lines g, isCritical parse g other = true →
      strstr other (queuedMessage line) = false

/-- The critical lines of every file are as before. -/
def KeepsCritical (st st' : Store) : Prop :=
  ∀ f, (st'.lines f).filter (isCritical parse f) = (st.lines f).filter (isCritical parse f)

section Lines

variable {parse} {st : Store}

theorem CleanLine.clean {line : CStr} (h : CleanLine line) :
    ∀ c ∈ line, (c == '\r' || c == newline) = false ∧ c ≠ NUL := by
  intro c hc
  have hreturn : c ≠ '\r' := fun h' => h.noReturn (h' ▸ hc)
  have hnewline : c ≠ newline := fun h' => h.fits.1 (h' ▸ hc)
  refine ⟨?_, fun h' => h.noNul (h' ▸ hc)⟩
  rw [beq_eq_false_iff_ne.mpr hreturn, beq_eq_false_iff_ne.mpr hnewline]
  rfl

theorem map_cutAt_readLines (stop : Char → Bool) (hstop : stop newline = true) {lines : List CStr}
    (hlines : ∀ line ∈ lines, Fits totalLine line)
    (hclean : ∀ line ∈ lines, ∀ c ∈ line, stop c = false ∧ c ≠ NUL) :
    (readLines totalLine (unlines lines)).map (cutAt stop) = lines := by
  rw [readLines_unlines hlines, List.map_map]
  conv_rhs => rw [← List.map_id lines]
  exact List.map_congr_left fun line hline => cutAt_append_stop (hclean line hline) hstop []

theorem lines_eq {f : QueueFile} {lines : List CStr} (hcontents : st.contents f = unlines lines)
    (hlines : ∀ line ∈ lines, CleanLine line) : st.lines f = lines := by
  rw [Store.lines, hcontents]
  refine map_cutAt_readLines (fun c => c == newline) (by decide)
    (fun line hline => (hlines line hline).fits) fun line hline c hc => ?_
  obtain ⟨hstop, hnul⟩ := (hlines line hline).clean c hc
  exact ⟨(Bool.or_eq_false_iff.mp hstop).2, hnul⟩

theorem searchedLines_eq {lines : List CStr} (hlines : ∀ line ∈ lines, CleanLine line) :
    searchedLines (unlines lines) = lines :=
  map_cutAt_readLines _ (by decide) (fun line hline => (hlines line hline).fits)
    fun line hline => (hlines line hline).clean

theorem Store.Clean.contents_eq (h : st.Clean) (f : QueueFile) :
    st.contents f = unlines (st.lines f) ∧ ∀ line ∈ st.lines f, CleanLine line := by
  obtain ⟨lines, hcontents, hlines⟩ := h f
  rw [lines_eq hcontents hlines]
  exact ⟨hcontents, hlines⟩

theorem lines_congr {st' : Store} {f : QueueFile} (hcontents : st'.contents f = st.contents f) :
    st'.lines f = st.lines f := by
  rw [Store.lines, Store.lines, hcontents]

end Lines

/-! ### What a deletion removes -/

section Deletion

variable {parse} {env : Env} {target : CStr}

/-- The lines of a file with those that contain the target taken out, if it was searched at all. -/
def Searches (target : CStr) (before after : List CStr) : Prop :=
  after = before ∨ after = before.filter fun line => !strstr line target

theorem searchAndDelete_lines {st : Store} (hst : st.Clean) (f : QueueFile) :
    Searches target (st.lines f) ((searchAndDeleteMessageFromAnyFile env target st).st.lines f) := by
  obtain ⟨hcontents, hlines⟩ := hst.contents_eq f
  rcases search_contents_cases env target st f with hsame | hsearched
  · exact .inl (lines_congr hsame)
  · rw [hcontents, searchedText, searchedLines_eq hlines] at hsearched
    split at hsearched
    · exact .inr (lines_eq hsearched fun line hline => hlines line (List.mem_of_mem_filter hline))
    · exact .inl (lines_eq hsearched hlines)

theorem Searches.filter_eq {before after : List CStr} {p : CStr → Bool}
    (h : Searches target before after)
    (hp : ∀ line ∈ before, p line = true → strstr line target = false) :
    after.filter p = before.filter p := by
  rcases h with rfl | rfl
  · rfl
  · rw [List.filter_filter]
    refine List.filter_congr fun line hline => ?_
    cases hline' : p line with
    | false => rw [Bool.false_and]
    | true => rw [hp line hline hline', Bool.true_and, Bool.not_false]

/-- Deleting a message that is in no critical line. -/
theorem searchAndDelete_keepsCritical {st : Store} (hst : st.Clean)
    (htarget : ∀ f, ∀ line ∈ st.lines f, isCritical parse f line = true →
      strstr line target = false) :
    KeepsCritical parse st (searchAndDeleteMessageFromAnyFile env target st).st := by
  intro f
  exact (searchAndDelete_lines hst f).filter_eq (htarget f)

end Deletion

/-! ### What a turn deletes -/

section Turn

variable {parse} {print} {env : Env}

theorem firstMessage_line {lines : List CStr} (hlines : ∀ line ∈ lines, CleanLine line)
    {message : CStr} (hfirst : firstMessage (unlines lines) = some message) :
    ∃ line ∈ lines, message = queuedMessage line := by
  cases lines with
  | nil => cases hfirst
  | cons line rest =>
      refine ⟨line, List.mem_cons_self, ?_⟩
      have hfits := (hlines line List.mem_cons_self).fits
      rw [unlines_cons, firstMessage, fgets_line hfits.1 hfits.2] at hfirst
      simpa using hfirst.symm

theorem firstMessage_of_open {st : Store} (hst : st.Clean) {f : QueueFile} {message : CStr}
    (hfirst : (st.openRead env f).bind firstMessage = some message) :
    ∃ line ∈ st.lines f, message = queuedMessage line := by
  obtain ⟨text, hopen, hfirst⟩ := Option.bind_eq_some_iff.mp hfirst
  obtain ⟨hcontents, hlines⟩ := hst.contents_eq f
  rw [← Store.contents_of_openRead hopen, hcontents] at hfirst
  exact firstMessage_line hlines hfirst

/-- What is selected is the text of a queued line, and it is unimportant only when that line is one
of the request log that names no critical action. -/
theorem selectMessage_line {s : Publisher} (hst : s.queue.Clean) {message : CStr} {importance : Nat}
    (hselect : selectMessage env s = some (message, importance)) :
    ∃ f, ∃ line ∈ s.queue.lines f, message = queuedMessage line
      ∧ (importance = 0 → f = .request ∧ lineImportance line = 0) := by
  rw [selectMessage] at hselect
  split at hselect
  · rename_i fault hfault
    obtain ⟨rfl, rfl⟩ := Prod.mk.inj (Option.some.inj hselect)
    split at hfault
    · obtain ⟨f, -, hread⟩ := List.exists_of_findSome?_eq_some hfault
      split at hread
      · obtain ⟨line, hline, hmessage⟩ := firstMessage_of_open hst hread
        exact ⟨f, line, hline, hmessage, fun h => absurd h (by decide)⟩
      · cases hread
    · cases hfault
  · split at hselect
    · cases hselect
    · rename_i request level hrequest
      obtain ⟨text, hread, hpair⟩ := Option.map_eq_some_iff.mp hrequest
      obtain ⟨rfl, rfl⟩ := Prod.mk.inj hpair
      obtain ⟨line, hline, hmessage⟩ := firstMessage_of_open hst hread
      split at hselect
      · cases hselect
      · obtain ⟨rfl, rfl⟩ := Prod.mk.inj (Option.some.inj hselect)
        exact ⟨.request, line, hline, hmessage, fun h => ⟨rfl, by rwa [lineImportance, ← hmessage]⟩⟩

/-- The counts between two turns. -/
def CountsBelow (s : Publisher) : Prop := s.retryCount < 3 ∧ s.criticalRetryCount < 3

/-- A count that is still below three once it has been raised or else been reset. -/
theorem succ_lt_three {n : UInt8} (hn : ¬ 3 ≤ n + 1) : n + 1 < 3 := UInt8.not_le.mp hn

/-- At most the message itself is deleted, when it is unimportant or cannot be parsed. -/
structure GivesUpAtMost (parse : CStr → Option Json) (env : Env) (message : CStr) (importance : Nat)
    (s s' : Publisher) : Prop where
  counts : CountsBelow s'
  queue : s'.queue = s.queue ∨ (importance = 0 ∨ parse message = none)
    ∧ s'.queue = (searchAndDeleteMessageFromAnyFile env message s.queue).st

/-- An important message is deleted when it cannot be parsed. -/
theorem deleteEntry_cases (message : CStr) (s : Publisher) :
    (deleteEntry parse env message s).retryCount = s.retryCount
      ∧ (deleteEntry parse env message s).criticalRetryCount = 0
      ∧ ((deleteEntry parse env message s).queue = s.queue ∨ parse message = none
        ∧ (deleteEntry parse env message s).queue
          = (searchAndDeleteMessageFromAnyFile env message s.queue).st) := by
  rw [deleteEntry]
  split
  · rename_i hparse
    exact ⟨rfl, rfl, .inr ⟨hparse, rfl⟩⟩
  · exact ⟨rfl, rfl, .inl rfl⟩

theorem countRetry_givesUp {s : Publisher} (hs : CountsBelow s) (message : CStr)
    (importance : Nat) :
    GivesUpAtMost parse env message importance s (countRetry parse env message importance s) := by
  obtain ⟨hretry, hcritical⟩ := hs
  have hless : ¬ 3 ≤ s.retryCount := UInt8.not_le.mpr hretry
  have hzero : (0 : UInt8) < 3 := by decide
  rw [countRetry]
  by_cases himportance : importance = 0
  · rw [if_pos himportance]
    split
    · exact ⟨⟨hzero, hcritical⟩, .inr ⟨.inl himportance, rfl⟩⟩
    · rename_i hcount
      exact ⟨⟨succ_lt_three hcount, hcritical⟩, .inl rfl⟩
  · rw [if_neg himportance]
    dsimp only
    by_cases hthree : 3 ≤ s.criticalRetryCount + 1
    · rw [if_pos hthree]
      obtain ⟨hcount, hreset, hqueue⟩ := @deleteEntry_cases parse env message
        { s with criticalRetryCount := s.criticalRetryCount + 1 }
      generalize deleteEntry parse env message _ = t at hcount hreset hqueue ⊢
      have hcount : t.retryCount = s.retryCount := hcount
      rw [if_neg (by rwa [hcount])]
      refine ⟨⟨by rwa [hcount], by rwa [hreset]⟩, hqueue.imp id fun hdelete => ?_⟩
      exact ⟨.inr hdelete.1, hdelete.2⟩
    · rw [if_neg hthree, if_neg hless]
      exact ⟨⟨hretry, succ_lt_three hthree⟩, .inl rfl⟩

theorem GivesUpAtMost.refl {s : Publisher} (hs : CountsBelow s) (message : CStr)
    (importance : Nat) : GivesUpAtMost parse env message importance s s := ⟨hs, .inl rfl⟩

theorem GivesUpAtMost.sent {message : CStr} {importance : Nat} {s t u : Publisher}
    (h : GivesUpAtMost parse env message importance t u) (hqueue : t.queue = s.queue)
    (last : Option CStr) :
    GivesUpAtMost parse env message importance s { u with lastSentMessage := last } := by
  refine ⟨h.counts, ?_⟩
  rw [← hqueue]
  exact h.queue

theorem publishMessage_givesUp {s : Publisher} (hs : CountsBelow s) (b : Board) (message : CStr)
    (importance : Nat) :
    GivesUpAtMost parse env message importance s
      (publishMessage parse env b message importance s) := by
  rw [publishMessage]
  split
  · exact .refl hs message importance
  obtain ⟨t, ht⟩ : ∃ t, t = ({ s with lastCheckTime := b.currentTime } : Publisher) := ⟨_, rfl⟩
  have hbelow : CountsBelow t := ht ▸ hs
  have hqueue : t.queue = s.queue := ht ▸ rfl
  rw [← ht]
  split
  · refine GivesUpAtMost.sent (t := t) ?_ hqueue _
    cases t.lastSentMessage with
    | none => exact .refl hbelow message importance
    | some last =>
        dsimp only
        split
        · exact countRetry_givesUp hbelow message importance
        · exact ⟨⟨show (0 : UInt8) < 3 by decide, hbelow.2⟩, .inl rfl⟩
  · exact ⟨hbelow, .inl hqueue⟩

theorem queuedMessage_of_stored {line : CStr} (hbar : '|' ∉ storedMessage line) :
    queuedMessage line = storedMessage line := by
  rw [storedMessage] at hbar ⊢
  cases hlast : strrchr '|' line with
  | none => exact queuedMessage_eq_self (strrchr_eq_none.mp hlast)
  | some p =>
      obtain ⟨message, rest⟩ := p
      rw [hlast] at hbar
      obtain ⟨rfl, -⟩ := strrchr_eq_some hlast
      exact queuedMessage_append_bar hbar rest

/-- The text of a line that is not critical is in no critical line. -/
theorem KeptApart.target {st : Store} (h : KeptApart parse st) {f : QueueFile} {line : CStr}
    (hline : line ∈ st.lines f) (hcritical : isCritical parse f line = false) (g : QueueFile) :
    ∀ other ∈ st.lines g, isCritical parse g other = true →
      strstr other (queuedMessage line) = false := by
  intro other hother hkept
  by_cases hbar : '|' ∈ storedMessage line
  · exact h.apart f line hline hcritical hbar g other hother hkept
  · rw [queuedMessage_of_stored hbar]
    obtain ⟨i, hi⟩ := List.mem_iff_getElem?.mp hline
    obtain ⟨j, hj⟩ := List.mem_iff_getElem?.mp hother
    refine h.separate f g i j line other (fun hsame => ?_) hi hj
    obtain ⟨rfl, rfl⟩ := Prod.mk.inj hsame
    obtain rfl := Option.some.inj (hi.symm.trans hj)
    exact Bool.false_ne_true (hcritical.symm.trans hkept)

theorem publishMessage_keepsCritical {s : Publisher} (hs : CountsBelow s)
    (h : KeptApart parse s.queue) (b : Board) {message : CStr} {importance : Nat}
    (hselect : selectMessage env s = some (message, importance)) :
    KeepsCritical parse s.queue (publishMessage parse env b message importance s).queue := by
  rcases (publishMessage_givesUp hs b message importance).queue with hsame | ⟨hgiven, hdelete⟩
  · intro f
    rw [hsame]
  · rw [hdelete]
    obtain ⟨f, line, hline, rfl, hlevel⟩ := selectMessage_line h.clean hselect
    refine searchAndDelete_keepsCritical h.clean (h.target hline ?_)
    refine Bool.eq_false_iff.mpr fun hcritical => ?_
    rcases hgiven with hzero | hparse
    · obtain ⟨rfl, himportance⟩ := hlevel hzero
      exact h.important line hline hcritical himportance
    · have hparses := h.parses f line hline hcritical
      rw [hparse] at hparses
      cases hparses

theorem mainLoop_keepsCritical {s : Publisher} (hs : CountsBelow s) (h : KeptApart parse s.queue)
    (b : Board) : KeepsCritical parse s.queue (mainLoop parse env b s).queue := by
  obtain ⟨t, ht⟩ : ∃ t, t = if s.firstTimeBootUpFlag = 1 ∧ b.networkReady then
      { s with firstTimeBootUpFlag := 3 } else s := ⟨_, rfl⟩
  have hqueue : t.queue = s.queue := by
    rw [ht]
    split <;> rfl
  have hbelow : CountsBelow t := by
    rw [ht]
    split
    · exact hs
    · exact hs
  rw [mainLoop, ← ht, ← hqueue]
  rw [← hqueue] at h
  split
  · exact fun _ => rfl
  · rename_i message importance hoffered
    rw [offeredMessage] at hoffered
    split at hoffered
    · exact publishMessage_keepsCritical hbelow h b hoffered
    · cases hoffered

theorem mainLoop_countsBelow {s : Publisher} (hs : CountsBelow s) (b : Board) :
    CountsBelow (mainLoop parse env b s) := by
  have hready : CountsBelow (if s.firstTimeBootUpFlag = 1 ∧ b.networkReady then
      { s with firstTimeBootUpFlag := 3 } else s) := by
    split
    · exact hs
    · exact hs
  rw [mainLoop]
  generalize (if s.firstTimeBootUpFlag = 1 ∧ b.networkReady then
      { s with firstTimeBootUpFlag := 3 } else s) = t at hready ⊢
  split
  · exact hready
  · exact (publishMessage_givesUp hready b _ _).counts

theorem step_countsBelow {event : Env × Event} {s s' : Publisher} (hs : CountsBelow s)
    (hrun : Event.step parse print event s = some s') : CountsBelow s' := by
  obtain ⟨env, event⟩ := event
  cases event with
  | call f uuid action payload =>
      obtain ⟨text, -, hsaved⟩ := Option.bind_eq_some_iff.mp hrun
      obtain ⟨queue, -, rfl⟩ := Option.map_eq_some_iff.mp hsaved
      exact hs
  | received msg =>
      obtain ⟨r, -, rfl⟩ := Option.map_eq_some_iff.mp hrun
      exact hs
  | turn b =>
      obtain rfl := Option.some.inj hrun
      exact mainLoop_countsBelow hs b
  | configured numConnectors =>
      obtain rfl := Option.some.inj hrun
      exact hs
  | restarted exchanged =>
      obtain rfl := Option.some.inj hrun
      exact ⟨show (0 : UInt8) < 3 by decide, show (0 : UInt8) < 3 by decide⟩

end Turn

/-! ### All runs -/

/-- A turn removes no critical line. -/
def TurnKeeps (event : Env × Event) (s : Publisher) : Prop :=
  match event with
  | (env, .turn b) => KeepsCritical parse s.queue (mainLoop parse env b s).queue
  | _ => True

/-- A turn finds the critical lines kept apart. -/
def TurnKeptApart (event : Env × Event) (s : Publisher) : Prop :=
  match event with
  | (_, .turn _) => KeptApart parse s.queue
  | _ => True

/-- However often messages are sent again, no turn of a run removes critical data where it is kept
apart. -/
theorem retrying_keeps_critical (exchanged : Bool) {disk : Path → Option CStr}
    {events : List (Env × Event)}
    (hapart : Runs.Meets (Event.step parse print) (TurnKeptApart parse) events
      (powerOn exchanged disk)) :
    Runs.Meets (Event.step parse print) (TurnKeeps parse) events (powerOn exchanged disk) := by
  have hturn : ∀ event s, CountsBelow s → TurnKeptApart parse event s → TurnKeeps parse event s := by
    rintro ⟨env, event⟩ s hs h
    cases event with
    | turn b => exact mainLoop_keepsCritical hs h b
    | _ => trivial
  have hzero : (0 : UInt8) < 3 := by decide
  exact hapart.imp hturn (fun _ _ _ hs _ hrun => step_countsBelow hs hrun) ⟨hzero, hzero⟩

/-! ### A configuration with a bar -/

/-- The version of the display came over the bus with a `|` in it. -/
def barredConfiguration : CStr :=
  "[2,\"a1\",\"ConfigurationData\",\x7b\"versionInfo\":\x7b\"hmi\":\"1|2\"\x7d\x7d]".toList

/-- What the JSON library makes of the messages: the barred one is no JSON once it is cut. -/
def parseBarred (text : CStr) : Option Json :=
  if text = barredConfiguration then
    some (.array [.number 2, .string "a1".toList, .string configurationData,
      .object [("versionInfo".toList, .object [("hmi".toList, .string "1|2".toList)])]])
  else parseSamples text

/-- The message is taken by the client, but not answered. -/
def unansweredTurn (currentTime : UInt64) : Env × Event :=
  (healthy, .turn ⟨true, true, true, true, currentTime, true, true⟩)

/-- A message that is sent four times. -/
def sentAgain : List (Env × Event) :=
  [unansweredTurn 0, unansweredTurn 20000, unansweredTurn 40000, unansweredTurn 60000]

def singleLine (message : CStr) : Publisher :=
  powerOn false fun p =>
    if p = .queue .request then some (unlines [entryLine message newYear]) else none

theorem separate_of_single {st : Store} (line : CStr) (hrequest : st.lines .request = [line])
    (hother : ∀ f, f ≠ .request → st.lines f = []) : st.Separate := by
  intro f g i j text other hne htext hother'
  have hposition : ∀ {f : QueueFile} {i : Nat} {text : CStr}, (st.lines f)[i]? = some text →
      (f, i) = (.request, 0) := by
    intro f i text htext
    by_cases hf : f = .request
    · subst hf
      rw [hrequest, List.getElem?_singleton] at htext
      split at htext
      · rename_i hi
        rw [hi]
      · cases htext
    · rw [hother f hf] at htext
      cases htext
  exact absurd ((hposition htext).trans (hposition hother').symm) hne

theorem singleLine_lines (message : CStr) {f : QueueFile} (hf : f ≠ .request) :
    (singleLine message).queue.lines f = [] := by
  show (readLines totalLine (Option.getD (if Path.queue f = .queue .request then _ else none) [])).map
    _ = []
  rw [if_neg (by simpa using hf)]
  rfl

/-- The configuration is sent again three times, and then it is gone. -/
theorem barred_configuration_is_deleted :
    Runs.Meets (Event.step parseBarred printSample) (fun _ s => s.queue.Separate) sentAgain
        (singleLine barredConfiguration)
      ∧ ¬ Runs.Meets (Event.step parseBarred printSample) (TurnKeeps parseBarred) sentAgain
        (singleLine barredConfiguration) := by
  have hqueued : (singleLine barredConfiguration).queue.Separate :=
    separate_of_single (entryLine barredConfiguration newYear) (by decide +kernel)
      fun _ => singleLine_lines barredConfiguration
  constructor
  · refine ⟨hqueued, fun s hs => ⟨?_, fun s' hs' => ⟨?_, fun s'' hs'' => ⟨?_, fun _ _ => trivial⟩⟩⟩⟩
    · obtain rfl := Option.some.inj hs
      exact hqueued
    · obtain rfl := Option.some.inj hs
      obtain rfl := Option.some.inj hs'
      exact hqueued
    · obtain rfl := Option.some.inj hs
      obtain rfl := Option.some.inj hs'
      obtain rfl := Option.some.inj hs''
      exact hqueued
  · intro h
    have hlast := (((h.2 _ rfl).2 _ rfl).2 _ rfl).1 .request
    revert hlast
    decide +kernel

/-- A configuration without a bar is sent again just as often and stays. -/
theorem plain_configuration_is_kept :
    Runs.Meets (Event.step parseSamples printSample) (TurnKeeps parseSamples) sentAgain
      (singleLine requestMessage) := by
  have hrequest : (singleLine requestMessage).queue.lines .request
      = [entryLine requestMessage newYear] := by decide +kernel
  have hapart : KeptApart parseSamples (singleLine requestMessage).queue := by
    refine ⟨fun f => ?_, separate_of_single _ hrequest fun _ => singleLine_lines requestMessage,
      fun f line hline _ => ?_, by decide +kernel, fun f line hline hcritical => ?_⟩
    · by_cases hf : f = .request
      · subst hf
        refine ⟨[entryLine requestMessage newYear], rfl, fun line hline => ?_⟩
        rw [List.mem_singleton.mp hline]
        exact ⟨⟨by decide, by decide⟩, by decide, by decide⟩
      · refine ⟨[], ?_, fun _ h => nomatch h⟩
        show Option.getD (if Path.queue f = .queue .request then _ else none) [] = []
        rw [if_neg (by simpa using hf)]
        rfl
    · by_cases hf : f = .request
      · rw [hf, hrequest] at hline
        rw [List.mem_singleton.mp hline]
        decide +kernel
      · rw [singleLine_lines _ hf] at hline
        cases hline
    · by_cases hf : f = .request
      · rw [hf, hrequest] at hline
        have hkept : isCritical parseSamples .request (entryLine requestMessage newYear) = true := by
          decide +kernel
        rw [hf, List.mem_singleton.mp hline, hkept] at hcritical
        cases hcritical
      · rw [singleLine_lines _ hf] at hline
        cases hline
  refine retrying_keeps_critical _ _ false
    ⟨hapart, fun s hs => ⟨?_, fun s' hs' => ⟨?_, fun s'' hs'' => ⟨?_, fun _ _ => trivial⟩⟩⟩⟩
  · obtain rfl := Option.some.inj hs
    exact hapart
  · obtain rfl := Option.some.inj hs
    obtain rfl := Option.some.inj hs'
    exact hapart
  · obtain rfl := Option.some.inj hs
    obtain rfl := Option.some.inj hs'
    obtain rfl := Option.some.inj hs''
    exact hapart

end Pmu
