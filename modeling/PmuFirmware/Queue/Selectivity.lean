import PmuFirmware.Queue.RetryDeletion
import PmuFirmware.Queue.Readers

/-!
# Which lines a retry deletion removes

The message that is given up is searched for in all files, and every line that contains it goes. The
message of a line comes before its last `|`, while the text searched for is what came before the first
`|` of some line, which may be short or empty. So a line is told apart only where the text is in no
line of another message. A line that is rewritten must also fit the buffer it is read into and be read
up to its end.
-/

namespace Pmu

open CLib

/-- A line of a queue file: the timestamp follows the last `|`. -/
structure QueuedLine where
  message : CStr
  timestamp : CStr
  oneLine : newline ∉ message ∧ newline ∉ timestamp
  noBar : '|' ∉ timestamp

def QueuedLine.text (line : QueuedLine) : CStr := line.message ++ '|' :: line.timestamp

def fileOf (lines : List QueuedLine) : CStr := unlines (lines.map QueuedLine.text)

/-- The parts in which `delete_line_if_found` reads a line: one, unless the line does not fit its
buffer. -/
def QueuedLine.parts (line : QueuedLine) : List CStr := searchedLines (line.text ++ [newline])

/-- The file keeps exactly the lines of other messages. -/
def RemovesExactly (target : CStr) (lines : List QueuedLine) (text : CStr) : Prop :=
  text = fileOf (lines.filter fun line => line.message ≠ target)

/-- The target is in all parts of a line that is to go, and a line that is to stay is read in one
part, in which the target is not. -/
def QueuedLine.Told (target : CStr) (line : QueuedLine) : Prop :=
  if line.message = target then ∀ part ∈ line.parts, strstr part target = true
  else line.parts = [line.text] ∧ strstr line.text target = false

/-- The lines of a file are told apart by the search, or none of them is to go and none is found. -/
def ToldApart (env : Env) (target : CStr) (st : Store) (f : QueueFile) (lines : List QueuedLine) :
    Prop :=
  (∀ line ∈ lines, line.message ≠ target)
      ∧ (Searched env st f → ∀ line ∈ lines, ∀ part ∈ line.parts, strstr part target = false)
    ∨ Searched env st f ∧ ∀ line ∈ lines, line.Told target

section Parts

variable {target : CStr} {line : QueuedLine} {lines : List QueuedLine}

theorem QueuedLine.newline_not_mem_text (line : QueuedLine) : newline ∉ line.text := by
  rw [text, List.mem_append, List.mem_cons]
  rintro (h | h | h)
  · exact line.oneLine.1 h
  · revert h
    decide
  · exact line.oneLine.2 h

theorem searchedLines_fileOf (lines : List QueuedLine) :
    searchedLines (fileOf lines) = lines.flatMap QueuedLine.parts := by
  induction lines with
  | nil => rfl
  | cons line lines ih =>
      rw [fileOf, List.map_cons, unlines_cons, searchedLines,
        readLines_append_line (by decide) line.newline_not_mem_text, List.map_append, List.flatMap_cons,
        ← ih]
      rfl

theorem QueuedLine.parts_ne_nil (line : QueuedLine) : line.parts ≠ [] := by
  intro h
  rw [parts, searchedLines, List.map_eq_nil_iff, readLines_eq (by decide)] at h
  cases hget : fgets dequeMsgBuffer (line.text ++ [newline]) with
  | none => simp [fgets_eq_none] at hget
  | some r =>
      rw [hget] at h
      cases h

/-- What is in a part is in the line. -/
theorem QueuedLine.strstr_text {part : CStr} (hpart : part ∈ line.parts)
    (hfound : strstr part target = true) : strstr line.text target = true := by
  obtain ⟨buffer, hbuffer, rfl⟩ := List.mem_map.mp hpart
  have htarget : target <:+: cutAt (fun c => c == '\r' || c == newline) buffer :=
    of_decide_eq_true hfound
  have hclean : newline ∉ target :=
    fun h => newline_not_mem_searchedLines hpart (htarget.subset h)
  have hcut : cutAt (fun c => c == '\r' || c == newline) buffer <:+: buffer :=
    (List.takeWhile_prefix _).isInfix
  have hinfix := (htarget.trans hcut).trans (infix_of_mem_readLines hbuffer)
  rcases infix_append_newline hclean hinfix with h | h
  · exact decide_eq_true h
  · rw [List.infix_nil.mp h]
    exact decide_eq_true List.nil_infix

theorem QueuedLine.filter_parts (h : strstr line.text target = false) :
    line.parts.filter (fun part => !strstr part target) = line.parts := by
  rw [List.filter_eq_self]
  intro part hpart
  rw [Bool.not_eq_true', Bool.eq_false_iff]
  intro hfound
  rw [QueuedLine.strstr_text hpart hfound] at h
  cases h

/-- What is left of a line that is told apart is what is to stay of it. -/
theorem QueuedLine.told_iff :
    line.parts.filter (fun part => !strstr part target)
        = (if line.message = target then [] else [line.text])
      ↔ line.Told target := by
  rw [Told]
  by_cases hmessage : line.message = target
  · rw [if_pos hmessage, if_pos hmessage, List.filter_eq_nil_iff]
    simp
  · rw [if_neg hmessage, if_neg hmessage]
    constructor
    · intro h
      have hmem : line.text ∈ line.parts.filter fun part => !strstr part target := by
        rw [h]
        exact List.mem_singleton_self _
      have hnot : strstr line.text target = false := by simpa using (List.mem_filter.mp hmem).2
      rw [filter_parts hnot] at h
      exact ⟨h, hnot⟩
    · intro ⟨hparts, hnot⟩
      rw [filter_parts hnot, hparts]

theorem fileOf_filter :
    fileOf (lines.filter fun line => line.message ≠ target)
      = unlines (lines.flatMap fun line =>
        if line.message = target then [] else [line.text]) := by
  rw [fileOf]
  congr 1
  induction lines with
  | nil => rfl
  | cons line lines ih =>
      rw [List.flatMap_cons, ← ih, List.filter_cons]
      by_cases hmessage : line.message = target
      · simp [hmessage]
      · simp [hmessage]

/-- A searched file keeps exactly the lines of other messages when all lines are told apart. -/
theorem removesExactly_filter_iff :
    RemovesExactly target lines
        (unlines ((searchedLines (fileOf lines)).filter fun part => !strstr part target))
      ↔ ∀ line ∈ lines, line.Told target := by
  rw [RemovesExactly, fileOf_filter, searchedLines_fileOf, List.filter_flatMap]
  constructor
  · intro h
    have hsame := unlines_injective (fun part hpart => ?_) (fun text htext => ?_) h
    · have hle : ∀ line ∈ lines, (if line.message = target then [] else [line.text]).length
          ≤ (line.parts.filter fun part => !strstr part target).length := by
        intro line hline
        by_cases hmessage : line.message = target
        · simp [hmessage]
        · rw [if_neg hmessage]
          have hkept : line.text ∈ lines.flatMap fun line =>
              if line.message = target then [] else [line.text] :=
            List.mem_flatMap.mpr ⟨line, hline, by simp [hmessage]⟩
          rw [← hsame, List.mem_flatMap] at hkept
          obtain ⟨other, -, hkept⟩ := hkept
          have hnot : strstr line.text target = false := by simpa using (List.mem_filter.mp hkept).2
          rw [QueuedLine.filter_parts hnot]
          exact List.length_pos_iff.mpr line.parts_ne_nil
      exact fun line hline => QueuedLine.told_iff.mp (flatMap_inj_of_length_le hle hsame line hline)
    · obtain ⟨line, -, hpart⟩ := List.mem_flatMap.mp hpart
      exact newline_not_mem_searchedLines (List.mem_of_mem_filter hpart)
    · obtain ⟨line, -, htext⟩ := List.mem_flatMap.mp htext
      split at htext
      · cases htext
      · rw [List.mem_singleton.mp htext]
        exact line.newline_not_mem_text
  · intro h
    congr 1
    rw [List.flatMap_congr fun line hline => QueuedLine.told_iff.mpr (h line hline)]

end Parts

section Files

variable {env : Env} {st : Store} {target : CStr} {lines : List QueuedLine} {f : QueueFile}

theorem removesExactly_fileOf_iff :
    RemovesExactly target lines (fileOf lines) ↔ ∀ line ∈ lines, line.message ≠ target := by
  rw [RemovesExactly]
  constructor
  · intro h
    have hsame := unlines_injective (fun text htext => ?_) (fun text htext => ?_) h
    · have hlength := congrArg List.length hsame
      rw [List.length_map, List.length_map, eq_comm, List.length_filter_eq_length_iff] at hlength
      exact fun line hline => of_decide_eq_true (hlength line hline)
    · obtain ⟨line, -, rfl⟩ := List.mem_map.mp htext
      exact line.newline_not_mem_text
    · obtain ⟨line, -, rfl⟩ := List.mem_map.mp htext
      exact line.newline_not_mem_text
  · intro h
    rw [List.filter_eq_self.mpr fun line hline => decide_eq_true (h line hline)]

theorem removesExactly_iff (hf : f ∈ st.retryFiles) (hcontents : st.contents f = fileOf lines) :
    RemovesExactly target lines ((searchAndDeleteMessageFromAnyFile env target st).st.contents f)
      ↔ ToldApart env target st f lines := by
  rw [search_contents env target st hf, hcontents, ToldApart]
  by_cases hsearched : Searched env st f
  · rw [if_pos hsearched, searchedText]
    by_cases hany : ((searchedLines (fileOf lines)).any fun part => strstr part target) = true
    · rw [if_pos hany, removesExactly_filter_iff]
      have hfound : ¬∀ line ∈ lines, ∀ part ∈ line.parts, strstr part target = false := by
        intro hnone
        rw [searchedLines_fileOf, List.any_eq_true] at hany
        obtain ⟨part, hpart, hfound⟩ := hany
        obtain ⟨line, hline, hpart⟩ := List.mem_flatMap.mp hpart
        rw [hnone line hline part hpart] at hfound
        cases hfound
      constructor
      · exact fun h => .inr ⟨hsearched, h⟩
      · rintro (⟨-, hnone⟩ | ⟨-, h⟩)
        · exact absurd (hnone hsearched) hfound
        · exact h
    · rw [if_neg hany, removesExactly_fileOf_iff]
      have hnone : ∀ line ∈ lines, ∀ part ∈ line.parts, strstr part target = false := by
        intro line hline part hpart
        rw [searchedLines_fileOf, List.any_eq_true] at hany
        exact Bool.eq_false_iff.mpr fun hfound =>
          hany ⟨part, List.mem_flatMap.mpr ⟨line, hline, hpart⟩, hfound⟩
      constructor
      · exact fun h => .inl ⟨h, fun _ => hnone⟩
      · rintro (⟨h, -⟩ | ⟨-, h⟩)
        · exact h
        · intro line hline hmessage
          have htold := h line hline
          rw [QueuedLine.Told, if_pos hmessage] at htold
          obtain ⟨part, hpart⟩ := List.exists_mem_of_ne_nil _ line.parts_ne_nil
          exact Bool.false_ne_true ((hnone line hline part hpart).symm.trans (htold part hpart))
  · rw [if_neg hsearched, removesExactly_fileOf_iff]
    constructor
    · exact fun h => .inl ⟨h, fun hs => absurd hs hsearched⟩
    · rintro (⟨h, -⟩ | ⟨hs, -⟩)
      · exact h
      · exact absurd hs hsearched

/-- Every file keeps exactly the lines of other messages when its lines are told apart. -/
theorem selective_iff {lines : QueueFile → List QueuedLine}
    (hlines : ∀ f ∈ st.retryFiles, st.contents f = fileOf (lines f)) :
    (∀ f ∈ st.retryFiles, RemovesExactly target (lines f)
        ((searchAndDeleteMessageFromAnyFile env target st).st.contents f))
      ↔ ∀ f ∈ st.retryFiles, ToldApart env target st f (lines f) :=
  forall₂_congr fun f hf => removesExactly_iff hf (hlines f hf)

end Files

/-! ### A short text -/

theorem newYear_oneLine : newline ∉ timestampText newYear := by decide

theorem newYear_noBar : '|' ∉ timestampText newYear := by decide

/-- A line as it is queued. -/
def queuedAtNewYear (message : CStr) (hmessage : newline ∉ message) : QueuedLine where
  message := message
  timestamp := timestampText newYear
  oneLine := ⟨hmessage, newYear_oneLine⟩
  noBar := newYear_noBar

theorem requestMessage_oneLine : newline ∉ requestMessage := by decide

theorem faultMessage_oneLine : newline ∉ faultMessage := by decide

def requestThenFault : List QueuedLine :=
  [queuedAtNewYear requestMessage requestMessage_oneLine,
    queuedAtNewYear faultMessage faultMessage_oneLine]

/-- A line without a message in front of another one. -/
def blankAndRequest : List QueuedLine :=
  [queuedAtNewYear [] List.not_mem_nil, queuedAtNewYear requestMessage requestMessage_oneLine]

def logOf (lines : List QueuedLine) : QueueFile → List QueuedLine := fun f =>
  if f = .request then lines else []

theorem contents_logOf (lines : List QueuedLine) (f : QueueFile) :
    (alone .request (fileOf lines)).contents f = fileOf (logOf lines f) := by
  rw [contents_alone, logOf]
  split
  · rfl
  · rfl

theorem requestThenFault_toldApart (f : QueueFile) :
    ToldApart healthy requestMessage (alone .request (fileOf requestThenFault)) f
      (logOf requestThenFault f) := by
  by_cases hf : f = .request
  · subst hf
    refine .inr ⟨by decide +kernel, fun line hline => ?_⟩
    rw [logOf, if_pos rfl, requestThenFault, List.mem_cons, List.mem_singleton] at hline
    rcases hline with rfl | rfl
    all_goals
      rw [QueuedLine.Told]
      decide +kernel
  · rw [logOf, if_neg hf]
    exact .inl ⟨by simp, by simp⟩

theorem request_is_told_apart :
    .request ∈ (alone .request (fileOf requestThenFault)).retryFiles
      ∧ RemovesExactly requestMessage (logOf requestThenFault .request)
        ((searchAndDeleteMessageFromAnyFile healthy requestMessage
          (alone .request (fileOf requestThenFault))).st.contents .request) := by
  have hmem : .request ∈ (alone .request (fileOf requestThenFault)).retryFiles := by decide +kernel
  refine ⟨hmem, ?_⟩
  exact (selective_iff fun f _ => contents_logOf requestThenFault f).mpr
    (fun f _ => requestThenFault_toldApart f) .request hmem

/-- What stands before the first `|` of the blank line is in every line. -/
theorem blank_line_deletes_all :
    (alone .request (fileOf blankAndRequest)).contents .request = fileOf blankAndRequest
      ∧ firstMessage (fileOf blankAndRequest) = some []
      ∧ ¬RemovesExactly [] blankAndRequest ((searchAndDeleteMessageFromAnyFile healthy []
        (alone .request (fileOf blankAndRequest))).st.contents .request)
      ∧ (searchAndDeleteMessageFromAnyFile healthy []
        (alone .request (fileOf blankAndRequest))).st.contents .request = [] := by
  have hcontents : (searchAndDeleteMessageFromAnyFile healthy []
      (alone .request (fileOf blankAndRequest))).st.contents .request = [] := by decide +kernel
  refine ⟨rfl, by decide +kernel, ?_, hcontents⟩
  rw [hcontents, RemovesExactly]
  decide +kernel

end Pmu
