/-
# Sensitive log data (`app/log.py`, `app/static/js/logs.js`)

`log.py` puts a sensitive message between two markers, and `redactSensitiveData` replaces the lines
of a log text from a start marker to an end marker.  It goes line by line, and **a message may have
markers of its own**: an end marker in a line that is not the last one makes the lines after it
readable.

`redaction_iff` says for which messages two logs look the same after redaction.
-/
import Mathlib.Data.List.GetD
import TinyPilotKvm.Lines
import TinyPilotKvm.Python.Values

namespace TinyPilotKvm
namespace Logs

/-! ## 1. `redactSensitiveData` -/

def newline : Nat := 10

def sensitiveMarkerStart : PyStr := py "[SENSITIVE]"

def sensitiveMarkerEnd : PyStr := py "[/SENSITIVE]"

def redactedMessage : PyStr := py "[SENSITIVE DATA REDACTED]"

/-- `s.includes(t)`. -/
def includes (s t : PyStr) : Bool := decide (t <:+: s)

/-- `isWithinMarkers` after a line. -/
def nextWithin (isWithinMarkers : Bool) (logLine : PyStr) : Bool :=
  let isWithinMarkers := if includes logLine sensitiveMarkerStart then true else isWithinMarkers
  if includes logLine sensitiveMarkerEnd then false else isWithinMarkers

/-- The loop. -/
def redactLoop : List PyStr → Bool → List PyStr
  | [], _ => []
  | logLine :: logLines, isWithinMarkers =>
    let containsStartMarker := includes logLine sensitiveMarkerStart
    let containsEndMarker := includes logLine sensitiveMarkerEnd
    let isWithinMarkers := nextWithin isWithinMarkers logLine
    let isRedacted := containsStartMarker || containsEndMarker || isWithinMarkers
    (if isRedacted then redactedMessage else logLine) :: redactLoop logLines isWithinMarkers

/-- `redactSensitiveData`. -/
def redactSensitiveData (logText : PyStr) : PyStr :=
  [newline].intercalate (redactLoop (logText.splitOn newline) false)

/-! ## 2. Log calls -/

inductive Level
  | debug
  | info
  | warning
  | error

/-- Its number. -/
def Level.value : Level → Nat
  | debug => 10
  | info => 20
  | warning => 30
  | error => 40

/-- `levelname`. -/
def Level.name : Level → PyStr
  | debug => py "DEBUG"
  | info => py "INFO"
  | warning => py "WARNING"
  | error => py "ERROR"

/-- What a record has besides its message.  A time consists of digits and separators, and the name
of a logger is that of a module. -/
structure Header where
  asctime : PyStr
  msecs : Fin 1000
  name : PyStr
  level : Level
  plain : ∀ c ∈ asctime ++ name, c ≠ newline ∧ c ≠ 91

/-- `%-15s` and the like. -/
def ljust (width : Nat) (s : PyStr) : PyStr := s ++ List.replicate (width - s.length) 32

/-- `%03d`. -/
def threeDigits (n : Nat) : PyStr := [48 + n / 100 % 10, 48 + n / 10 % 10, 48 + n % 10]

/-- `'%(asctime)s.%(msecs)03d %(name)-15s %(levelname)-4s %(message)s'`, up to the last blank. -/
def Header.text (header : Header) : PyStr :=
  header.asctime ++ py "." ++ threeDigits header.msecs ++ py " " ++ ljust 15 header.name ++
    py " " ++ ljust 4 header.level.name

/-- A call of `debug`, `info` and so on, or of `debug_sensitive` and so on, with the formatted
text. -/
inductive LogCall
  | plain (header : Header) (message : PyStr)
  | sensitive (header : Header) (text : PyStr)

namespace LogCall

def header : LogCall → Header
  | plain header _ => header
  | sensitive header _ => header

/-- The message of the record. -/
def message : LogCall → PyStr
  | plain _ message => message
  | sensitive _ text => py "[SENSITIVE] " ++ text ++ py " [/SENSITIVE]"

/-- What the handler writes, without the newline. -/
def record (call : LogCall) : PyStr := call.header.text ++ py " " ++ call.message

/-- What a call writes, for a logger with this level. -/
def output (threshold : Nat) (call : LogCall) : PyStr :=
  if threshold ≤ call.header.level.value then call.record ++ [newline] else []

end LogCall

/-- The log after some calls. -/
def logText (threshold : Nat) (calls : List LogCall) : PyStr :=
  calls.flatMap (LogCall.output threshold)

/-! ## 3. The loop -/

def hasMarker (line : PyStr) : Bool :=
  includes line sensitiveMarkerStart || includes line sensitiveMarkerEnd

/-- Of these lines, the last one that has a marker has an end marker. -/
def closed (lines : List PyStr) : Bool :=
  (lines.reverse.find? hasMarker).any fun line => includes line sensitiveMarkerEnd

theorem closed_concat (lines : List PyStr) (line : PyStr) :
    closed (lines ++ [line])
      = if hasMarker line then includes line sensitiveMarkerEnd else closed lines := by
  unfold closed
  rw [List.reverse_append, List.reverse_singleton, List.singleton_append, List.find?_cons]
  cases hasMarker line <;> rfl

theorem nextWithin_of_not_hasMarker {line : PyStr} (h : hasMarker line = false) (within : Bool) :
    nextWithin within line = within := by
  obtain ⟨hstart, hend⟩ := Bool.or_eq_false_iff.mp h
  simp [nextWithin, hstart, hend]

theorem nextWithin_closed (lines : List PyStr) (line : PyStr) :
    nextWithin (!closed lines) line = !closed (lines ++ [line]) := by
  rw [closed_concat]
  unfold nextWithin hasMarker
  cases includes line sensitiveMarkerStart <;> cases includes line sensitiveMarkerEnd <;> rfl

theorem redactLoop_append : ∀ (lines lines' : List PyStr) (within : Bool),
    redactLoop (lines ++ lines') within
      = redactLoop lines within ++ redactLoop lines' (lines.foldl nextWithin within)
  | [], _, _ => rfl
  | _ :: lines, lines', _ => congrArg _ (redactLoop_append lines lines' _)

@[simp] theorem length_redactLoop : ∀ (lines : List PyStr) (within : Bool),
    (redactLoop lines within).length = lines.length
  | [], _ => rfl
  | _ :: lines, _ => congrArg Nat.succ (length_redactLoop lines _)

/-- Lines without markers, outside a section. -/
theorem redactLoop_of_not_hasMarker : ∀ {lines : List PyStr},
    (∀ line ∈ lines, hasMarker line = false) →
      redactLoop lines false = lines ∧ lines.foldl nextWithin false = false
  | [], _ => ⟨rfl, rfl⟩
  | line :: lines, h => by
    have hline := h line List.mem_cons_self
    obtain ⟨hstart, hend⟩ := Bool.or_eq_false_iff.mp hline
    obtain ⟨hlines, hwithin⟩ :=
      redactLoop_of_not_hasMarker fun l hl => h l (List.mem_cons_of_mem _ hl)
    rw [redactLoop, List.foldl_cons, nextWithin_of_not_hasMarker hline, hstart, hend, hlines]
    exact ⟨rfl, hwithin⟩

/-- A line has the message, or is replaced by the text that says so. -/
theorem mem_redactLoop : ∀ {lines : List PyStr} {within : Bool} {line : PyStr},
    line ∈ redactLoop lines within → line = redactedMessage ∨ line ∈ lines
  | [], _, _, h => absurd h List.not_mem_nil
  | l :: lines, within, line, h => by
    rcases List.mem_cons.mp h with rfl | h
    · split
      · exact Or.inl rfl
      · exact Or.inr List.mem_cons_self
    · exact (mem_redactLoop h).imp_right (List.mem_cons_of_mem _)

/-- Inside a message: what is shown of the lines after those seen. -/
theorem redactLoop_inner : ∀ (lines seen : List PyStr),
    redactLoop lines (!closed seen) = (List.range lines.length).map fun i =>
      if hasMarker (lines.getD i []) = false ∧ closed (seen ++ lines.take i) = true then
        lines.getD i []
      else redactedMessage
  | [], _ => rfl
  | line :: lines, seen => by
    have ih := redactLoop_inner lines (seen ++ [line])
    rw [redactLoop, nextWithin_closed, ih, List.length_cons, List.range_succ_eq_map,
      List.map_cons, List.map_map]
    congr 1
    · have hfirst : closed (seen ++ [line])
          = if hasMarker line then includes line sensitiveMarkerEnd else closed seen :=
        closed_concat seen line
      simp only [List.getD_cons_zero, List.take_zero, List.append_nil, hfirst]
      unfold hasMarker
      cases includes line sensitiveMarkerStart <;> cases includes line sensitiveMarkerEnd <;>
        cases closed seen <;> rfl
    · refine List.map_congr_left fun i _ => ?_
      simp only [Function.comp_apply, Nat.succ_eq_add_one, List.getD_cons_succ,
        List.take_succ_cons, List.append_assoc, List.singleton_append]

/-! ## 4. The lines of a call -/

/-- The lines that a call writes. -/
def callLines (threshold : Nat) (call : LogCall) : List PyStr :=
  if threshold ≤ call.header.level.value then call.record.splitOn newline else []

theorem splitOn_logText (threshold : Nat) : ∀ calls : List LogCall,
    (logText threshold calls).splitOn newline = calls.flatMap (callLines threshold) ++ [[]]
  | [] => List.splitOn_nil newline
  | call :: calls => by
    have ih := splitOn_logText threshold calls
    unfold logText at ih ⊢
    rw [List.flatMap_cons, List.flatMap_cons, LogCall.output, callLines]
    split
    · rw [List.append_assoc, List.append_assoc, List.singleton_append,
        List.splitOn_append_cons_self, ih]
    · exact ih

theorem notMem_ljust {c width : Nat} {s : PyStr} (hblank : c ≠ 32) (hs : c ∉ s) :
    c ∉ ljust width s := by
  unfold ljust
  rw [List.mem_append]
  rintro (h | h)
  · exact hs h
  · exact hblank (List.eq_of_mem_replicate h)

/-- A header has no newline and no bracket. -/
theorem notMem_headerText {c : Nat} (hc : c = newline ∨ c = 91) (header : Header) :
    c ∉ header.text := by
  have hplain : ∀ d ∈ header.asctime ++ header.name, d ≠ c := by
    intro d hd
    rcases hc with rfl | rfl
    · exact (header.plain d hd).1
    · exact (header.plain d hd).2
  have hmsecs : c ∉ threeDigits header.msecs := by
    simp only [threeDigits, List.mem_cons, List.not_mem_nil, or_false, newline] at hc ⊢
    omega
  have hlevel : c ∉ header.level.name := by
    rcases hc with rfl | rfl <;> cases header.level <;> decide
  have hpoint : c ∉ py "." ∧ c ∉ py " " ∧ c ≠ 32 := by
    rcases hc with rfl | rfl <;> decide
  have htime : c ∉ header.asctime := fun h => hplain c (List.mem_append_left _ h) rfl
  have hname : c ∉ header.name := fun h => hplain c (List.mem_append_right _ h) rfl
  unfold Header.text
  simp only [List.mem_append, not_or]
  exact ⟨⟨⟨⟨⟨⟨htime, hpoint.1⟩, hmsecs⟩, hpoint.2.1⟩, notMem_ljust hpoint.2.2 hname⟩, hpoint.2.1⟩,
    notMem_ljust hpoint.2.2 hlevel⟩

/-- A marker has no blank: text that ends with a blank makes no difference before it. -/
theorem includes_append_blank {marker before : PyStr} (hblank : 32 ∉ marker)
    (hbefore : ¬ marker <:+: before) (text : PyStr) :
    includes (before ++ 32 :: text) marker = includes text marker := by
  unfold includes
  refine decide_eq_decide.mpr ⟨fun h => ?_, fun h => ?_⟩
  · exact (infix_append_cons hblank h).resolve_left hbefore
  · exact h.trans ⟨before ++ [32], [], by simp⟩

theorem not_infix_headerText {marker : PyStr} (hopen : 91 ∈ marker) (header : Header) :
    ¬ marker <:+: header.text :=
  fun h => notMem_headerText (Or.inr rfl) header (h.subset hopen)

theorem hasMarker_record (header : Header) (message : PyStr) :
    hasMarker (header.text ++ py " " ++ message) = hasMarker message := by
  have hrecord : header.text ++ py " " ++ message = header.text ++ 32 :: message := by
    rw [List.append_assoc]
    rfl
  have hopen : 91 ∈ sensitiveMarkerStart ∧ 91 ∈ sensitiveMarkerEnd := by decide
  unfold hasMarker
  rw [hrecord,
    includes_append_blank (by decide) (not_infix_headerText hopen.1 header),
    includes_append_blank (by decide) (not_infix_headerText hopen.2 header)]

/-- A line of a text without markers has none. -/
theorem hasMarker_of_mem_splitOn {text line : PyStr} (h : hasMarker text = false)
    (hline : line ∈ text.splitOn newline) : hasMarker line = false := by
  have hpart : line <:+: text := infix_of_mem_splitOn hline
  obtain ⟨hstart, hend⟩ := Bool.or_eq_false_iff.mp h
  refine Bool.or_eq_false_iff.mpr ⟨?_, ?_⟩
  · exact decide_eq_false fun hm => of_decide_eq_false hstart (hm.trans hpart)
  · exact decide_eq_false fun hm => of_decide_eq_false hend (hm.trans hpart)

/-- **A plain message is shown as it is.** -/
theorem redactLoop_plain (header : Header) {message : PyStr} (h : hasMarker message = false) :
    redactLoop ((LogCall.plain header message).record.splitOn newline) false
        = (LogCall.plain header message).record.splitOn newline ∧
      ((LogCall.plain header message).record.splitOn newline).foldl nextWithin false = false := by
  have hrecord : hasMarker (LogCall.plain header message).record = false :=
    (hasMarker_record header message).trans h
  exact redactLoop_of_not_hasMarker fun line hline => hasMarker_of_mem_splitOn hrecord hline

/-! ## 5. Sensitive messages -/

/-- **A line in the middle of a message stays readable**: it has no marker, and of the lines before
it, the last one that has a marker has an end marker. -/
def Exposed (lines : List PyStr) (i : Nat) : Prop :=
  0 < i ∧ i + 1 < lines.length ∧ hasMarker (lines.getD i []) = false ∧
    closed (lines.take i) = true

instance (lines : List PyStr) (i : Nat) : Decidable (Exposed lines i) :=
  inferInstanceAs (Decidable (_ ∧ _))

/-- What is shown of a line of a sensitive message. -/
def visible (lines : List PyStr) (i : Nat) : PyStr :=
  if Exposed lines i then lines.getD i [] else redactedMessage

/-- The text before a sensitive message. -/
def sensitivePrefix (header : Header) : PyStr := header.text ++ py " " ++ py "[SENSITIVE] "

/-- The lines of a sensitive record. -/
theorem splitOn_sensitive (header : Header) (text : PyStr) :
    ∃ pieces last, text.splitOn newline = pieces ++ [last] ∧
      (LogCall.sensitive header text).record.splitOn newline
        = (pieces ++ [last ++ py " [/SENSITIVE]"]).modifyHead (sensitivePrefix header ++ ·) := by
  have hblank : newline ∉ py " " ∧ newline ∉ py "[SENSITIVE] " := by decide
  have hafter : newline ∉ py " [/SENSITIVE]" := by decide
  have hfront : newline ∉ sensitivePrefix header := by
    unfold sensitivePrefix
    simp only [List.mem_append, not_or]
    exact ⟨⟨notMem_headerText (Or.inl rfl) header, hblank.1⟩, hblank.2⟩
  obtain ⟨pieces, last, hsplit, happend⟩ :=
    splitOn_append_of_notMem_right (a := newline) hafter text
  have hrecord : (LogCall.sensitive header text).record
      = sensitivePrefix header ++ (text ++ py " [/SENSITIVE]") := by
    simp only [LogCall.record, LogCall.header, LogCall.message, sensitivePrefix, List.append_assoc]
  refine ⟨pieces, last, hsplit, ?_⟩
  rw [hrecord, splitOn_append_of_notMem hfront, happend]

/-- The first line has a start marker; it has an end marker if the message's first line has one. -/
theorem includes_sensitivePrefix (header : Header) (text : PyStr) :
    includes (sensitivePrefix header ++ text) sensitiveMarkerStart = true ∧
      includes (sensitivePrefix header ++ text) sensitiveMarkerEnd
        = includes text sensitiveMarkerEnd := by
  have hfront : sensitivePrefix header ++ text
      = (header.text ++ 32 :: sensitiveMarkerStart) ++ 32 :: text := by
    have hstart : py "[SENSITIVE] " = sensitiveMarkerStart ++ [32] := by decide
    unfold sensitivePrefix
    rw [hstart]
    simp only [List.append_assoc]
    rfl
  have hopen : 91 ∈ sensitiveMarkerEnd := by decide
  have hblank : 32 ∉ sensitiveMarkerEnd := by decide
  rw [hfront]
  constructor
  · exact decide_eq_true ⟨header.text ++ [32], 32 :: text, by simp⟩
  · refine includes_append_blank hblank (fun h => ?_) text
    rcases infix_append_cons hblank h with h | h
    · exact not_infix_headerText hopen header h
    · exact absurd h (by decide)

theorem includes_sensitiveSuffix (text : PyStr) :
    includes (text ++ py " [/SENSITIVE]") sensitiveMarkerEnd = true := by
  have hsuffix : py " [/SENSITIVE]" = [32] ++ sensitiveMarkerEnd := by decide
  exact decide_eq_true ⟨text ++ [32], [], by rw [hsuffix]; simp⟩

theorem closed_singleton (line : PyStr) : closed [line] = includes line sensitiveMarkerEnd := by
  refine (closed_concat [] line).trans ?_
  unfold hasMarker
  cases includes line sensitiveMarkerStart <;> cases includes line sensitiveMarkerEnd <;> rfl

/-- The last line of a record ends the section. -/
theorem redactLoop_last {line : PyStr} (h : includes line sensitiveMarkerEnd = true)
    (within : Bool) :
    redactLoop [line] within = [redactedMessage] ∧ nextWithin within line = false := by
  simp [redactLoop, nextWithin, h]

/-- What is shown of the message whose lines are these. -/
theorem map_visible (first last : PyStr) (mid : List PyStr) :
    (List.range (mid.length + 2)).map (visible (first :: (mid ++ [last])))
      = redactedMessage :: (redactLoop mid (!closed [first]) ++ [redactedMessage]) := by
  have hfirst : visible (first :: (mid ++ [last])) 0 = redactedMessage :=
    if_neg fun h => absurd h.1 (Nat.lt_irrefl 0)
  have hlast : visible (first :: (mid ++ [last])) (mid.length + 1) = redactedMessage := by
    refine if_neg fun h => absurd h.2.1 ?_
    simp
  have hmid : ∀ i ∈ List.range mid.length, visible (first :: (mid ++ [last])) (i + 1)
      = if hasMarker (mid.getD i []) = false ∧ closed ([first] ++ mid.take i) = true then
          mid.getD i [] else redactedMessage := by
    intro i hi
    have hlt : i < mid.length := List.mem_range.mp hi
    have hget : (first :: (mid ++ [last])).getD (i + 1) [] = mid.getD i [] := by
      rw [List.getD_cons_succ, List.getD_append _ _ _ _ hlt]
    have htake : (first :: (mid ++ [last])).take (i + 1) = [first] ++ mid.take i := by
      rw [List.take_succ_cons, List.take_append_of_le_length hlt.le]
      rfl
    have hlen : i + 1 + 1 < (first :: (mid ++ [last])).length := by
      simp only [List.length_cons, List.length_append, List.length_nil]
      omega
    have hexposed : Exposed (first :: (mid ++ [last])) (i + 1) ↔
        hasMarker (mid.getD i []) = false ∧ closed ([first] ++ mid.take i) = true := by
      unfold Exposed
      rw [hget, htake]
      exact ⟨fun h => h.2.2, fun h => ⟨Nat.succ_pos i, hlen, h⟩⟩
    unfold visible
    rw [hget]
    exact if_congr hexposed rfl rfl
  rw [redactLoop_inner, List.range_succ_eq_map, List.map_cons, List.map_map, List.range_succ,
    List.map_append, hfirst]
  congr 2
  · exact List.map_congr_left hmid
  · rw [List.map_singleton]
    exact congrArg (fun line => [line]) hlast

/-- **What is shown of a sensitive message, line by line.** -/
theorem redactLoop_sensitive (header : Header) (text : PyStr) :
    redactLoop ((LogCall.sensitive header text).record.splitOn newline) false
        = (List.range (text.splitOn newline).length).map (visible (text.splitOn newline)) ∧
      ((LogCall.sensitive header text).record.splitOn newline).foldl nextWithin false = false := by
  obtain ⟨pieces, last, hsplit, hrecord⟩ := splitOn_sensitive header text
  rw [hsplit, hrecord]
  cases pieces with
  | nil =>
    -- a single line, which has both markers
    have hend : includes (sensitivePrefix header ++ (last ++ py " [/SENSITIVE]"))
        sensitiveMarkerEnd = true := by
      rw [(includes_sensitivePrefix header _).2, includes_sensitiveSuffix]
    obtain ⟨hshown, hwithin⟩ := redactLoop_last hend false
    refine ⟨hshown.trans ?_, hwithin⟩
    have hfirst : visible [last] 0 = redactedMessage :=
      if_neg fun h => absurd h.1 (Nat.lt_irrefl 0)
    exact congrArg (fun line => [line]) hfirst.symm
  | cons first mid =>
    obtain ⟨hstart, hend⟩ := includes_sensitivePrefix header first
    have hnext : nextWithin false (sensitivePrefix header ++ first) = !closed [first] := by
      rw [closed_singleton, nextWithin, hstart, hend]
      cases includes first sensitiveMarkerEnd <;> rfl
    have hlen : (first :: mid ++ [last]).length = mid.length + 2 := by simp
    rw [hlen]
    simp only [List.cons_append]
    rw [map_visible, List.modifyHead_cons, redactLoop, List.foldl_cons, hnext, hstart,
      redactLoop_append, List.foldl_append]
    obtain ⟨hshown, hwithin⟩ := redactLoop_last (includes_sensitiveSuffix last)
      (mid.foldl nextWithin (!closed [first]))
    rw [hshown]
    exact ⟨rfl, hwithin⟩

/-! ## 6. Whole logs -/

/-- Calls that differ at most in the text of a sensitive message, which keeps its number of
lines. -/
inductive SameButText : LogCall → LogCall → Prop
  | plain (header : Header) (message : PyStr) :
      SameButText (.plain header message) (.plain header message)
  | sensitive (header : Header) {text text' : PyStr} :
      (text.splitOn newline).length = (text'.splitOn newline).length →
        SameButText (.sensitive header text) (.sensitive header text')

/-- The line count is preserved, and the lines of a plain call stay where and what they are. -/
structure KeepsLines (threshold : Nat) (calls : List LogCall) : Prop where
  length : ((redactSensitiveData (logText threshold calls)).splitOn newline).length
    = ((logText threshold calls).splitOn newline).length
  plain : ∀ before header message after, calls = before ++ .plain header message :: after →
    threshold ≤ header.level.value → ∃ linesBefore linesAfter,
      (redactSensitiveData (logText threshold calls)).splitOn newline
          = linesBefore ++ (LogCall.plain header message).record.splitOn newline ++ linesAfter ∧
        linesBefore.length + 1 = ((logText threshold before).splitOn newline).length

/-- The exposed lines of the two messages are the same. -/
def ShownAlike (threshold : Nat) : LogCall → LogCall → Prop
  | .sensitive header text, .sensitive _ text' =>
    threshold ≤ header.level.value →
      ∀ i, visible (text.splitOn newline) i = visible (text'.splitOn newline) i
  | _, _ => True

/-- What is shown of a call. -/
def shownLines (threshold : Nat) (call : LogCall) : List PyStr :=
  redactLoop (callLines threshold call) false

/-- No plain message has a marker. -/
def PlainWithoutMarkers (calls : List LogCall) : Prop :=
  ∀ header message, .plain header message ∈ calls → hasMarker message = false

/-- Each call is redacted on its own: it leaves no section open. -/
theorem redactLoop_callLines (threshold : Nat) : ∀ {calls : List LogCall},
    PlainWithoutMarkers calls →
      redactLoop (calls.flatMap (callLines threshold)) false
          = calls.flatMap (shownLines threshold) ∧
        (calls.flatMap (callLines threshold)).foldl nextWithin false = false
  | [], _ => ⟨rfl, rfl⟩
  | call :: calls, hplain => by
    obtain ⟨hshown, hwithin⟩ := redactLoop_callLines threshold fun header message h =>
      hplain header message (List.mem_cons_of_mem _ h)
    have hcall : (callLines threshold call).foldl nextWithin false = false := by
      unfold callLines
      split
      · cases call with
        | plain header message =>
          exact (redactLoop_plain header (hplain header message List.mem_cons_self)).2
        | sensitive header text => exact (redactLoop_sensitive header text).2
      · rfl
    rw [List.flatMap_cons, List.flatMap_cons, redactLoop_append, List.foldl_append, hcall, hshown]
    exact ⟨rfl, hwithin⟩

theorem splitOn_redactSensitiveData (logText : PyStr) :
    (redactSensitiveData logText).splitOn newline
      = redactLoop (logText.splitOn newline) false := by
  refine List.splitOn_intercalate newline (fun line hline => ?_) ?_
  · rcases mem_redactLoop hline with rfl | hmem
    · decide
    · exact notMem_of_mem_splitOn hmem
  · rw [← List.length_pos_iff, length_redactLoop, List.length_pos_iff]
    exact List.splitOn_ne_nil newline logText

/-- **A redacted log, call by call.** -/
theorem splitOn_redacted {threshold : Nat} {calls : List LogCall}
    (hplain : PlainWithoutMarkers calls) :
    (redactSensitiveData (logText threshold calls)).splitOn newline
      = calls.flatMap (shownLines threshold) ++ [[]] := by
  obtain ⟨hshown, hwithin⟩ := redactLoop_callLines threshold hplain
  rw [splitOn_redactSensitiveData, splitOn_logText, redactLoop_append, hshown, hwithin]
  rfl

theorem shownLines_plain {threshold : Nat} {header : Header} {message : PyStr}
    (hmarker : hasMarker message = false) (hlevel : threshold ≤ header.level.value) :
    shownLines threshold (.plain header message)
      = (LogCall.plain header message).record.splitOn newline := by
  have hlines : callLines threshold (.plain header message)
      = (LogCall.plain header message).record.splitOn newline := if_pos hlevel
  rw [shownLines, hlines]
  exact (redactLoop_plain header hmarker).1

theorem keepsLines {threshold : Nat} {calls : List LogCall} (hplain : PlainWithoutMarkers calls) :
    KeepsLines threshold calls where
  length := by
    rw [splitOn_redactSensitiveData, length_redactLoop]
  plain := by
    rintro before header message after rfl hlevel
    have hmarker := hplain header message (by simp)
    refine ⟨before.flatMap (shownLines threshold),
      after.flatMap (shownLines threshold) ++ [[]], ?_, ?_⟩
    · rw [splitOn_redacted hplain, List.flatMap_append, List.flatMap_cons,
        shownLines_plain hmarker hlevel]
      simp only [List.append_assoc]
    · rw [splitOn_logText, List.length_append]
      simp [List.length_flatMap, shownLines]

/-! ## 7. Two logs -/

theorem visible_of_le {lines : List PyStr} {i : Nat} (h : lines.length ≤ i + 1) :
    visible lines i = redactedMessage :=
  if_neg fun hexposed => absurd hexposed.2.1 (Nat.not_lt.mpr h)

theorem shownLines_sensitive {threshold : Nat} {header : Header} (text : PyStr)
    (hlevel : threshold ≤ header.level.value) :
    shownLines threshold (.sensitive header text)
      = (List.range (text.splitOn newline).length).map (visible (text.splitOn newline)) := by
  have hlines : callLines threshold (.sensitive header text)
      = (LogCall.sensitive header text).record.splitOn newline := if_pos hlevel
  rw [shownLines, hlines]
  exact (redactLoop_sensitive header text).1

/-- Two calls: the same number of lines, and the same lines exactly if the exposed ones are. -/
theorem shownLines_iff (threshold : Nat) {call call' : LogCall} (h : SameButText call call') :
    (shownLines threshold call).length = (shownLines threshold call').length ∧
      (shownLines threshold call = shownLines threshold call' ↔
        ShownAlike threshold call call') := by
  cases h with
  | plain header message => exact ⟨rfl, fun _ => trivial, fun _ => rfl⟩
  | sensitive header hlength =>
    rename_i text text'
    by_cases hlevel : threshold ≤ header.level.value
    · rw [shownLines_sensitive text hlevel, shownLines_sensitive text' hlevel, ← hlength]
      refine ⟨by simp, ?_⟩
      rw [List.map_inj_left]
      constructor
      · intro heq _ i
        by_cases hi : i < (text.splitOn newline).length
        · exact heq i (List.mem_range.mpr hi)
        · rw [visible_of_le (by omega), visible_of_le (by omega)]
      · exact fun halike i _ => halike hlevel i
    · have hnone : ∀ t, shownLines threshold (.sensitive header t) = [] := by
        intro t
        have hlines : callLines threshold (.sensitive header t) = [] := if_neg hlevel
        rw [shownLines, hlines]
        rfl
      rw [hnone, hnone]
      exact ⟨rfl, fun _ h => absurd h hlevel, fun _ => rfl⟩

theorem flatMap_shownLines_iff {threshold : Nat} {calls calls' : List LogCall}
    (hsame : List.Forall₂ SameButText calls calls') :
    calls.flatMap (shownLines threshold) = calls'.flatMap (shownLines threshold) ↔
      List.Forall₂ (ShownAlike threshold) calls calls' := by
  induction hsame with
  | nil => exact ⟨fun _ => .nil, fun _ => rfl⟩
  | cons hcall _ ih =>
    obtain ⟨hlength, hiff⟩ := shownLines_iff threshold hcall
    rw [List.flatMap_cons, List.flatMap_cons, List.forall₂_cons, ← hiff, ← ih]
    constructor
    · exact fun heq => List.append_inj heq hlength
    · rintro ⟨hfirst, hrest⟩
      rw [hfirst, hrest]

theorem SameButText.plainWithoutMarkers {calls calls' : List LogCall}
    (hsame : List.Forall₂ SameButText calls calls') (hplain : PlainWithoutMarkers calls) :
    PlainWithoutMarkers calls' := by
  induction hsame with
  | nil => exact hplain
  | cons hcall _ ih =>
    intro header message hmem
    rcases List.mem_cons.mp hmem with rfl | hmem
    · cases hcall
      exact hplain header message List.mem_cons_self
    · exact ih (fun h m hm => hplain h m (List.mem_cons_of_mem _ hm)) header message hmem

/-- **Two logs look the same after redaction exactly if the exposed lines of their messages are the
same**; plain lines and line counts are preserved in any case. -/
theorem redaction_iff {threshold : Nat} {calls calls' : List LogCall}
    (hsame : List.Forall₂ SameButText calls calls') (hplain : PlainWithoutMarkers calls) :
    (redactSensitiveData (logText threshold calls)
        = redactSensitiveData (logText threshold calls') ∧
      KeepsLines threshold calls ∧ KeepsLines threshold calls') ↔
        List.Forall₂ (ShownAlike threshold) calls calls' := by
  have hplain' := SameButText.plainWithoutMarkers hsame hplain
  rw [← flatMap_shownLines_iff hsame]
  constructor
  · rintro ⟨heq, -, -⟩
    have hsplit := congrArg (List.splitOn newline) heq
    rw [splitOn_redacted hplain, splitOn_redacted hplain'] at hsplit
    exact List.append_cancel_right hsplit
  · intro heq
    refine ⟨splitOn_injective (a := newline) ?_, keepsLines hplain, keepsLines hplain'⟩
    rw [splitOn_redacted hplain, splitOn_redacted hplain', heq]

/-- The header of the module `app`'s records. -/
def appHeader : Header where
  asctime := py "2020-01-01 00:00:01"
  msecs := 7
  name := py "app"
  level := .debug
  plain := by decide

/-- A message of two lines has no line in the middle. -/
theorem redaction_iff_two_lines :
    (redactSensitiveData (logText 10 [.sensitive appHeader (py "a\nsecret")])
        = redactSensitiveData (logText 10 [.sensitive appHeader (py "b\npublic")]) ∧
      KeepsLines 10 [.sensitive appHeader (py "a\nsecret")] ∧
      KeepsLines 10 [.sensitive appHeader (py "b\npublic")]) := by
  have hsame : List.Forall₂ SameButText [.sensitive appHeader (py "a\nsecret")]
      [.sensitive appHeader (py "b\npublic")] := .cons (.sensitive appHeader (by decide)) .nil
  refine (redaction_iff hsame ?_).mpr (.cons ?_ .nil)
  · intro header message hmem
    simp at hmem
  · intro _ i
    have hshort : ∀ lines : List PyStr, lines.length = 2 → visible lines i = redactedMessage := by
      intro lines hlen
      by_cases hi : i = 0
      · exact if_neg fun h => absurd h.1 (by omega)
      · exact visible_of_le (by omega)
    rw [hshort _ (by decide), hshort _ (by decide)]

/-- A message whose second line has an end marker: the third line is published. -/
theorem secret_after_end_marker :
    List.Forall₂ SameButText [.sensitive appHeader (py "a\n[/SENSITIVE]\nsecret\nx")]
        [.sensitive appHeader (py "a\n[/SENSITIVE]\npublic\nx")] ∧
      py "secret" ∈ (redactSensitiveData
        (logText 10 [.sensitive appHeader (py "a\n[/SENSITIVE]\nsecret\nx")])).splitOn newline ∧
      redactSensitiveData (logText 10 [.sensitive appHeader (py "a\n[/SENSITIVE]\nsecret\nx")])
        ≠ redactSensitiveData
          (logText 10 [.sensitive appHeader (py "a\n[/SENSITIVE]\npublic\nx")]) := by
  refine ⟨.cons (.sensitive appHeader (by decide)) .nil, ?_, ?_⟩
  · decide +kernel
  · decide +kernel

end Logs
end TinyPilotKvm
