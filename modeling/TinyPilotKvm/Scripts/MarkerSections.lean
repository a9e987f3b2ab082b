/-
# `strip-marker-sections` and `print-marker-sections` together

The two scripts read a file with the same loop and differ in what they collect: the one the lines
outside the sections, the other the lines inside.  A turn of the one goes with a turn of the other
(`turn_lockstep`), so they fail on the same files with the same message, and where they succeed
every line that is read has one place: it is kept, printed, or a marker
(`marker_sections_complementary`).

What is read of a line is its bytes but for the NUL bytes: `read` leaves them out, as no variable
of the shell can hold one.  A file with NUL bytes therefore does not come out again
(`nul_byte_is_lost`).
-/
import TinyPilotKvm.Interleaving
import TinyPilotKvm.Scripts.PrintMarkerSections

namespace TinyPilotKvm

/-! ## 1. Lines sorted into three groups -/

def IsMarker (line : List UInt8) : Prop := line = markerStart ∨ line = markerEnd

/-- `lines` are the lines of three groups, each group in its order: what is kept, what is printed,
and the markers. -/
structure SortedLines (lines kept printed markers : List (List UInt8)) : Prop where
  merge : ∃ rest, Interleaving kept rest lines ∧ Interleaving printed markers rest
  kept_plain : ∀ l ∈ kept, ¬ IsMarker l
  printed_plain : ∀ l ∈ printed, ¬ IsMarker l
  isMarker : ∀ l ∈ markers, IsMarker l

namespace SortedLines

variable {lines kept printed markers : List (List UInt8)} {l : List UInt8}

theorem snoc_kept (h : SortedLines lines kept printed markers) (hl : ¬ IsMarker l) :
    SortedLines (lines ++ [l]) (kept ++ [l]) printed markers where
  merge := by
    obtain ⟨rest, hkept, hrest⟩ := h.merge
    exact ⟨rest, hkept.snoc_left l, hrest⟩
  kept_plain := List.forall_mem_append.mpr ⟨h.kept_plain, List.forall_mem_singleton.mpr hl⟩
  printed_plain := h.printed_plain
  isMarker := h.isMarker

theorem snoc_printed (h : SortedLines lines kept printed markers) (hl : ¬ IsMarker l) :
    SortedLines (lines ++ [l]) kept (printed ++ [l]) markers where
  merge := by
    obtain ⟨rest, hkept, hrest⟩ := h.merge
    exact ⟨rest ++ [l], hkept.snoc_right l, hrest.snoc_left l⟩
  kept_plain := h.kept_plain
  printed_plain := List.forall_mem_append.mpr ⟨h.printed_plain, List.forall_mem_singleton.mpr hl⟩
  isMarker := h.isMarker

theorem snoc_marker (h : SortedLines lines kept printed markers) (hl : IsMarker l) :
    SortedLines (lines ++ [l]) kept printed (markers ++ [l]) where
  merge := by
    obtain ⟨rest, hkept, hrest⟩ := h.merge
    exact ⟨rest ++ [l], hkept.snoc_right l, hrest.snoc_right l⟩
  kept_plain := h.kept_plain
  printed_plain := h.printed_plain
  isMarker := List.forall_mem_append.mpr ⟨h.isMarker, List.forall_mem_singleton.mpr hl⟩

/-- Every line is in one of the groups. -/
theorem mem_iff (h : SortedLines lines kept printed markers) :
    l ∈ lines ↔ l ∈ kept ∨ l ∈ printed ∨ l ∈ markers := by
  obtain ⟨rest, hkept, hrest⟩ := h.merge
  rw [hkept.mem_iff, hrest.mem_iff]

end SortedLines

/-! ## 2. The two loops -/

/-- The two loops after `lines`. -/
structure Lockstep (lines : List (List UInt8)) (s : StripState) (p : PrintState) : Prop where
  isInMarkerSection : s.isInMarkerSection = p.isInMarkerSection
  sorted : ∃ markers, SortedLines lines s.preservedLines p.sectionContents markers

/-- **A turn of both**: an end marker outside a section stops both; else the line joins one of the
three groups. -/
theorem turn_lockstep {lines : List (List UInt8)} {s : StripState} {p : PrintState}
    (h : Lockstep lines s p) (l : List UInt8) :
    (∃ message, stripTurn s l = .error message ∧ printTurn p l = .error message) ∨
      ∃ s' p', stripTurn s l = .ok s' ∧ printTurn p l = .ok p' ∧ Lockstep (lines ++ [l]) s' p' := by
  obtain ⟨hin, markers, hsorted⟩ := h
  unfold stripTurn printTurn
  by_cases hend : l = markerEnd
  · rw [if_pos hend, if_pos hend, hin]
    cases hsec : p.isInMarkerSection with
    | false => exact Or.inl ⟨_, rfl, rfl⟩
    | true => exact Or.inr ⟨_, _, rfl, rfl, rfl, _, hsorted.snoc_marker (Or.inr hend)⟩
  · rw [if_neg hend, if_neg hend, hin]
    refine Or.inr ?_
    by_cases hstart : l = markerStart
    · rw [if_pos (by simp [hstart]), if_pos hstart]
      exact ⟨_, _, rfl, rfl, rfl, _, hsorted.snoc_marker (Or.inl hstart)⟩
    · have hplain : ¬ IsMarker l := not_or.mpr ⟨hstart, hend⟩
      rw [if_neg hstart]
      cases hsec : p.isInMarkerSection with
      | false =>
        rw [if_neg (by simp [hstart]), if_neg (by simp)]
        exact ⟨_, _, rfl, rfl, hsec.symm, _, hsorted.snoc_kept hplain⟩
      | true =>
        rw [if_pos (by simp), if_pos rfl]
        exact ⟨_, _, rfl, rfl, rfl, _, hsorted.snoc_printed hplain⟩

/-- **The whole loop of both.** -/
theorem foldlM_lockstep (todo : List (List UInt8)) :
    ∀ {lines : List (List UInt8)} {s : StripState} {p : PrintState}, Lockstep lines s p →
      (∃ message, todo.foldlM stripTurn s = .error message ∧
        todo.foldlM printTurn p = .error message) ∨
      ∃ s' p', todo.foldlM stripTurn s = .ok s' ∧ todo.foldlM printTurn p = .ok p' ∧
        Lockstep (lines ++ todo) s' p' := by
  induction todo with
  | nil =>
    intro lines s p h
    rw [List.append_nil]
    exact Or.inr ⟨s, p, rfl, rfl, h⟩
  | cons l todo ih =>
    intro lines s p h
    rw [List.foldlM_cons, List.foldlM_cons]
    rcases turn_lockstep h l with ⟨message, hs, hp⟩ | ⟨s', p', hs, hp, h'⟩
    · rw [hs, hp]
      exact Or.inl ⟨message, rfl, rfl⟩
    · have hrest := ih h'
      rw [List.append_assoc] at hrest
      rw [hs, hp]
      exact hrest

/-! ## 3. The lines that are read -/

/-- A line without its NUL bytes. -/
def withoutNul (line : List UInt8) : List UInt8 := line.filter (· ≠ 0)

/-- The newline-terminated lines of a file. -/
def terminatedTexts (content : List UInt8) : List (List UInt8) :=
  (terminatedLines content).map FileLine.text

/-- The loops read the newline-terminated lines, without their NUL bytes. -/
theorem readLines_eq_withoutNul (content : List UInt8) : ∀ line : List UInt8,
    readLines content (withoutNul line)
      = (((fileLines content line).filter FileLine.terminated).map FileLine.text).map
          withoutNul := by
  induction content with
  | nil =>
    intro line
    unfold fileLines readLines
    split <;> rfl
  | cons b content ih =>
    intro line
    unfold fileLines readLines
    by_cases hb : b = newline
    · rw [if_pos hb, if_pos hb]
      have hnil : readLines content [] = _ := ih []
      rw [hnil]
      rfl
    · rw [if_neg hb, if_neg hb, ← ih (line ++ [b])]
      have hline : withoutNul (line ++ [b]) = withoutNul line ++ withoutNul [b] :=
        List.filter_append ..
      rw [hline]
      by_cases hzero : b = 0
      · rw [if_pos hzero, hzero]
        exact congrArg _ (List.append_nil _).symm
      · rw [if_neg hzero]
        have hkeep : withoutNul [b] = [b] := List.filter_cons_of_pos (by simpa using hzero)
        rw [hkeep]

theorem readLines_eq_terminatedTexts (content : List UInt8) :
    readLines content [] = (terminatedTexts content).map withoutNul :=
  readLines_eq_withoutNul content []

/-! ## 4. The two scripts -/

/-- The scripts complement each other on a file, if `lines` are taken for its lines: both fail, or
what the first leaves in the file and what the second prints are two of three groups that `lines`
consist of. -/
def Complementary (lines : List (List UInt8)) (content : List UInt8) : Prop :=
  (∃ message, (stripMarkerSections content).status ≠ 0 ∧
    (stripMarkerSections content).stderr = message ∧
    printMarkerSections content = .error message) ∨
  ∃ kept printed markers, stripMarkerSections content = ⟨0, "", printfLines kept⟩ ∧
    printMarkerSections content = .ok (printfLines printed) ∧
    SortedLines lines kept printed markers

/-- **For every file** the scripts complement each other on the newline-terminated lines, less the
NUL bytes. -/
theorem marker_sections_complementary (content : List UInt8) :
    Complementary ((terminatedTexts content).map withoutNul) content := by
  have hnil : SortedLines [] [] [] [] :=
    ⟨⟨[], .nil, .nil⟩, by simp, by simp, by simp⟩
  have hstart : Lockstep [] ⟨[], false⟩ ⟨false, []⟩ := ⟨rfl, [], hnil⟩
  unfold Complementary stripMarkerSections printMarkerSections sectionContents
  rw [← readLines_eq_terminatedTexts]
  rcases foldlM_lockstep (readLines content []) hstart with
    ⟨message, hs, hp⟩ | ⟨s, p, hs, hp, hin, markers, hsorted⟩
  · rw [hs, hp]
    exact Or.inl ⟨message, by simp, rfl, rfl⟩
  · rw [hs, hp]
    dsimp only
    rw [hin]
    cases p.isInMarkerSection with
    | true => exact Or.inl ⟨_, by simp, rfl, rfl⟩
    | false => exact Or.inr ⟨_, _, markers, rfl, rfl, hsorted⟩

theorem mem_printfLines {lines : List (List UInt8)} {l : List UInt8} {b : UInt8} (hl : l ∈ lines)
    (hb : b ∈ l) : b ∈ printfLines lines := by
  rw [printfLines, if_neg (List.ne_nil_of_mem hl)]
  exact List.mem_flatMap.mpr ⟨l, hl, List.mem_append_left _ hb⟩

/-- A file of the three bytes `a`, NUL and `b` and a newline: the first script keeps the line as
`ab`, so the line of the file is in no group. -/
theorem nul_byte_is_lost :
    (stripMarkerSections [97, 0, 98, 10]).content = [97, 98, 10] ∧
      printMarkerSections [97, 0, 98, 10] = .ok [10] ∧
      ¬ Complementary (terminatedTexts [97, 0, 98, 10]) [97, 0, 98, 10] := by
  have hcontent : (stripMarkerSections [97, 0, 98, 10]).content = [97, 98, 10] := by decide
  have hprinted : printMarkerSections [97, 0, 98, 10] = .ok [10] := by decide
  refine ⟨hcontent, hprinted, ?_⟩
  rintro (⟨message, hstatus, -⟩ | ⟨kept, printed, markers, hstrip, hprint, hsorted⟩)
  · exact absurd hstatus (by decide)
  · have hkept : printfLines kept = [97, 98, 10] := by
      rw [hstrip] at hcontent
      exact hcontent
    rw [hprint] at hprinted
    have hline : [97, 0, 98] ∈ terminatedTexts [97, 0, 98, 10] := by decide
    rcases hsorted.mem_iff.mp hline with h | h | h
    · have hmem : (0 : UInt8) ∈ printfLines kept := mem_printfLines h (by simp)
      rw [hkept] at hmem
      exact absurd hmem (by decide)
    · have hmem : (0 : UInt8) ∈ printfLines printed := mem_printfLines h (by simp)
      rw [Except.ok.inj hprinted] at hmem
      exact absurd hmem (by decide)
    · rcases hsorted.isMarker _ h with h | h <;> exact absurd h (by decide)

end TinyPilotKvm
