/-
# `print-marker-sections`

The script prints the lines of all marker sections of a file.  What `strip-marker-sections` has left
of a file has none, so after a section is appended to that, the script prints this section alone:
all of its lines if they are plain (`sectionContents_append_section`), and else only parts of what
was appended (`mem_sectionContents_append`).
-/
import TinyPilotKvm.Fallible
import TinyPilotKvm.Lines
import TinyPilotKvm.Scripts.StripMarkerSections

namespace TinyPilotKvm

/-! ## 1. The script -/

/-- The variables of the loop. -/
structure PrintState where
  isInMarkerSection : Bool
  sectionContents : List (List UInt8)

/-- A turn of the loop.  An error is the message before `exit 1`. -/
def printTurn (s : PrintState) (line : List UInt8) : Except String PrintState :=
  if line = markerEnd then
    if !s.isInMarkerSection then .error "Unmatched end marker"
    else .ok { s with isInMarkerSection := false }
  else if line = markerStart then .ok { s with isInMarkerSection := true }
  else if s.isInMarkerSection then .ok { s with sectionContents := s.sectionContents ++ [line] }
  else .ok s

/-- What the loop has collected at the end. -/
def sectionContents (content : List UInt8) : Except String (List (List UInt8)) :=
  match (readLines content []).foldlM printTurn ⟨false, []⟩ with
  | .error message => .error message
  | .ok s => if s.isInMarkerSection then .error "Unmatched start marker" else .ok s.sectionContents

/-- The script from its loop on: what it prints, or its message. -/
def printMarkerSections (content : List UInt8) : Except String (List UInt8) :=
  match sectionContents content with
  | .error message => .error message
  | .ok lines => .ok (printfLines lines)

/-! ## 2. Reading -/

/-- A line as it can be read. -/
def Readable (line : List UInt8) : Prop := newline ∉ line ∧ 0 ∉ line

/-- A line that is no marker. -/
structure PlainLine (line : List UInt8) : Prop where
  readable : Readable line
  ne_start : line ≠ markerStart
  ne_end : line ≠ markerEnd

theorem readable_markerStart : Readable markerStart := ⟨by decide, by decide⟩

theorem readable_markerEnd : Readable markerEnd := ⟨by decide, by decide⟩

/-- Lines, each with a newline. -/
def unlines (lines : List (List UInt8)) : List UInt8 := lines.flatMap (· ++ [newline])

theorem unlines_append (lines lines' : List (List UInt8)) :
    unlines (lines ++ lines') = unlines lines ++ unlines lines' := List.flatMap_append

theorem unlines_singleton (l : List UInt8) : unlines [l] = l ++ [newline] := by
  simp [unlines]

theorem plainLine_nil : PlainLine [] :=
  ⟨⟨List.not_mem_nil, List.not_mem_nil⟩, by decide, by decide⟩

/-- If there are no lines, an empty one is printed. -/
theorem printfLines_eq_unlines (lines : List (List UInt8)) : ∃ printed,
    printfLines lines = unlines printed ∧ ∀ l ∈ printed, l ∈ lines ∨ l = [] := by
  unfold printfLines
  split
  · exact ⟨[[]], rfl, by simp⟩
  · exact ⟨lines, rfl, fun l hl => Or.inl hl⟩

theorem plainLine_cons {b : UInt8} {line : List UInt8} (hb : b ≠ 35) (h : Readable (b :: line)) :
    PlainLine (b :: line) :=
  ⟨h, fun heq => hb (List.cons.inj heq).1, fun heq => hb (List.cons.inj heq).1⟩

/-- A part without a newline of some lines is in one of them. -/
theorem infix_of_infix_unlines {m : List UInt8} (hm : m ≠ []) (hnew : newline ∉ m) :
    ∀ {lines : List (List UInt8)}, m <:+: unlines lines → ∃ l ∈ lines, m <:+: l
  | [], h => absurd (List.infix_nil.mp h) hm
  | l :: lines, h => by
    have hsplit : unlines (l :: lines) = l ++ newline :: unlines lines := by
      simp [unlines]
    rw [hsplit] at h
    rcases infix_append_cons hnew h with h | h
    · exact ⟨l, List.mem_cons_self, h⟩
    · obtain ⟨l', hl', hpart⟩ := infix_of_infix_unlines hm hnew h
      exact ⟨l', List.mem_cons_of_mem _ hl', hpart⟩

theorem readLines_append_newline : ∀ {l : List UInt8}, Readable l → ∀ line rest : List UInt8,
    readLines (l ++ newline :: rest) line = (line ++ l) :: readLines rest []
  | [], _, line, rest => by
    rw [List.nil_append, readLines, if_pos rfl, List.append_nil]
  | b :: l, hl, line, rest => by
    obtain ⟨hnew, h0⟩ := hl
    rw [List.mem_cons, not_or] at hnew h0
    rw [List.cons_append, readLines, if_neg (Ne.symm hnew.1), if_neg (Ne.symm h0.1),
      readLines_append_newline ⟨hnew.2, h0.2⟩, List.append_assoc]
    rfl

theorem readLines_unlines_append : ∀ {lines : List (List UInt8)}, (∀ l ∈ lines, Readable l) →
    ∀ rest : List UInt8, readLines (unlines lines ++ rest) [] = lines ++ readLines rest []
  | [], _, _ => rfl
  | l :: lines, h, rest => by
    obtain ⟨hl, hlines⟩ := List.forall_mem_cons.mp h
    have hsplit : unlines (l :: lines) ++ rest = l ++ newline :: (unlines lines ++ rest) := by
      simp [unlines]
    rw [hsplit, readLines_append_newline hl, readLines_unlines_append hlines]
    rfl

/-- A line that is read is a part of the file but for NUL bytes. -/
theorem mem_readLines {content l : List UInt8} : ∀ {line : List UInt8}, Readable line →
    l ∈ readLines content line → Readable l ∧ l <:+: line ++ content.filter (· ≠ 0) := by
  induction content with
  | nil => exact fun _ h => absurd h List.not_mem_nil
  | cons b content ih =>
    intro line hline h
    rw [readLines] at h
    split at h
    · rename_i hb
      rcases List.mem_cons.mp h with rfl | h
      · exact ⟨hline, (List.prefix_append l _).isInfix⟩
      · obtain ⟨hl, hpart⟩ := ih ⟨List.not_mem_nil, List.not_mem_nil⟩ h
        have hsuffix : content.filter (· ≠ 0) <:+ line ++ (b :: content).filter (· ≠ 0) := by
          rw [hb]
          exact (List.suffix_cons newline _).trans (List.suffix_append line _)
        exact ⟨hl, hpart.trans hsuffix.isInfix⟩
    · rename_i hb
      split at h
      · rename_i hzero
        rw [hzero]
        exact ih hline h
      · rename_i hzero
        have hline' : Readable (line ++ [b]) := by
          constructor <;> rw [List.mem_append, List.mem_singleton, not_or]
          · exact ⟨hline.1, Ne.symm hb⟩
          · exact ⟨hline.2, Ne.symm hzero⟩
        obtain ⟨hl, hpart⟩ := ih hline' h
        rw [List.append_assoc] at hpart
        exact ⟨hl, by rwa [List.filter_cons_of_pos (by simpa using hzero)]⟩

/-! ## 3. What `strip-marker-sections` leaves -/

/-- A line that is kept is no marker. -/
theorem stripTurn_plain {s s' : StripState} {line : List UInt8} (hline : Readable line)
    (h : stripTurn s line = .ok s') (hs : ∀ l ∈ s.preservedLines, PlainLine l) :
    ∀ l ∈ s'.preservedLines, PlainLine l := by
  unfold stripTurn at h
  split at h
  · split at h
    · exact absurd h (by simp)
    · obtain rfl := Except.ok.inj h
      exact hs
  · rename_i hend
    split at h
    · obtain rfl := Except.ok.inj h
      exact hs
    · rename_i hsec
      rw [Bool.or_eq_true, not_or, decide_eq_true_eq] at hsec
      obtain rfl := Except.ok.inj h
      rintro l hl
      rcases List.mem_append.mp hl with hl | hl
      · exact hs l hl
      · rw [List.mem_singleton] at hl
        rw [hl]
        exact ⟨hline, hsec.2, hend⟩

/-- **What is left of a file has no markers.** -/
theorem stripMarkerSections_content {content : List UInt8}
    (h : (stripMarkerSections content).status = 0) : ∃ kept,
      (stripMarkerSections content).content = unlines kept ∧ ∀ l ∈ kept, PlainLine l := by
  have hread : ∀ l ∈ readLines content [], Readable l := fun l hl =>
    (mem_readLines ⟨List.not_mem_nil, List.not_mem_nil⟩ hl).1
  unfold stripMarkerSections at h ⊢
  cases hloop : (readLines content []).foldlM stripTurn ⟨[], false⟩ with
  | error message =>
    rw [hloop] at h
    exact absurd h (by simp)
  | ok s =>
    have hplain : ∀ l ∈ s.preservedLines, PlainLine l :=
      foldlM_invariant (fun l hl _ _ => stripTurn_plain (hread l hl)) hloop (by simp)
    rw [hloop] at h
    dsimp only at h ⊢
    split at h
    · exact absurd h (by simp)
    · rename_i hclosed
      rw [if_neg hclosed]
      obtain ⟨printed, heq, hprinted⟩ := printfLines_eq_unlines s.preservedLines
      refine ⟨printed, heq, fun l hl => ?_⟩
      rcases hprinted l hl with hl | rfl
      · exact hplain l hl
      · exact ⟨⟨List.not_mem_nil, List.not_mem_nil⟩, by decide, by decide⟩

/-- Plain lines outside a section are kept. -/
theorem foldlM_stripTurn_plain : ∀ {lines : List (List UInt8)}, (∀ l ∈ lines, PlainLine l) →
    ∀ kept : List (List UInt8),
      lines.foldlM stripTurn ⟨kept, false⟩ = .ok ⟨kept ++ lines, false⟩ := by
  intro lines
  induction lines with
  | nil =>
    intro _ kept
    rw [List.append_nil]
    rfl
  | cons l lines ih =>
    intro h kept
    obtain ⟨hl, hlines⟩ := List.forall_mem_cons.mp h
    have hturn : stripTurn ⟨kept, false⟩ l = .ok ⟨kept ++ [l], false⟩ := by
      simp [stripTurn, hl.ne_start, hl.ne_end]
    rw [List.foldlM_cons, hturn]
    refine (ih hlines (kept ++ [l])).trans ?_
    rw [List.append_assoc]
    rfl

theorem readLines_unlines {lines : List (List UInt8)} (h : ∀ l ∈ lines, Readable l) :
    readLines (unlines lines) [] = lines := by
  have hread := readLines_unlines_append h []
  rwa [List.append_nil, readLines, List.append_nil] at hread

/-- Plain lines are left as they are. -/
theorem stripMarkerSections_unlines {lines : List (List UInt8)} (hne : lines ≠ [])
    (h : ∀ l ∈ lines, PlainLine l) :
    stripMarkerSections (unlines lines) = ⟨0, "", unlines lines⟩ := by
  unfold stripMarkerSections
  rw [readLines_unlines fun l hl => (h l hl).readable, foldlM_stripTurn_plain h]
  show (⟨0, "", printfLines lines⟩ : StripResult) = _
  rw [printfLines, if_neg hne]
  rfl

/-- **What is left as it is**: a file of plain lines, at least one. -/
theorem stripMarkerSections_content_eq_iff {content : List UInt8}
    (hstrip : (stripMarkerSections content).status = 0) :
    (stripMarkerSections content).content = content ↔
      ∃ lines, lines ≠ [] ∧ (∀ l ∈ lines, PlainLine l) ∧ content = unlines lines := by
  constructor
  · intro h
    obtain ⟨kept, hkept, hplain⟩ := stripMarkerSections_content hstrip
    rw [h] at hkept
    refine ⟨kept, ?_, hplain, hkept⟩
    rintro rfl
    rw [hkept] at h
    exact absurd h (by decide)
  · rintro ⟨lines, hne, hplain, rfl⟩
    rw [stripMarkerSections_unlines hne hplain]

/-! ## 4. What the script prints -/

theorem foldlM_printTurn_outside : ∀ {lines : List (List UInt8)}, (∀ l ∈ lines, PlainLine l) →
    ∀ contents, lines.foldlM printTurn ⟨false, contents⟩ = .ok ⟨false, contents⟩
  | [], _, _ => rfl
  | l :: lines, h, contents => by
    obtain ⟨hl, hlines⟩ := List.forall_mem_cons.mp h
    have hturn : printTurn ⟨false, contents⟩ l = .ok ⟨false, contents⟩ := by
      rw [printTurn, if_neg hl.ne_end, if_neg hl.ne_start]
      rfl
    rw [List.foldlM_cons, hturn]
    exact foldlM_printTurn_outside hlines contents

theorem foldlM_printTurn_inside : ∀ {lines : List (List UInt8)}, (∀ l ∈ lines, PlainLine l) →
    ∀ contents, lines.foldlM printTurn ⟨true, contents⟩ = .ok ⟨true, contents ++ lines⟩
  | [], _, contents => by
    rw [List.append_nil]
    rfl
  | l :: lines, h, contents => by
    obtain ⟨hl, hlines⟩ := List.forall_mem_cons.mp h
    have hturn : printTurn ⟨true, contents⟩ l = .ok ⟨true, contents ++ [l]⟩ := by
      rw [printTurn, if_neg hl.ne_end, if_neg hl.ne_start]
      rfl
    have hrest := foldlM_printTurn_inside hlines (contents ++ [l])
    rw [List.append_assoc] at hrest
    rw [List.foldlM_cons, hturn]
    exact hrest

/-- The loop collects lines that it reads. -/
theorem printTurn_mem {s s' : PrintState} {line : List UInt8} {lines : List (List UInt8)}
    (hline : line ∈ lines) (h : printTurn s line = .ok s')
    (hs : ∀ l ∈ s.sectionContents, l ∈ lines) : ∀ l ∈ s'.sectionContents, l ∈ lines := by
  unfold printTurn at h
  split at h
  · split at h
    · exact absurd h (by simp)
    · obtain rfl := Except.ok.inj h
      exact hs
  · split at h
    · obtain rfl := Except.ok.inj h
      exact hs
    · split at h
      · obtain rfl := Except.ok.inj h
        intro l hl
        rcases List.mem_append.mp hl with hl | hl
        · exact hs l hl
        · rw [List.mem_singleton] at hl
          rwa [hl]
      · obtain rfl := Except.ok.inj h
        exact hs

/-- Plain lines before make no difference. -/
theorem sectionContents_append {kept : List (List UInt8)} (hkept : ∀ l ∈ kept, PlainLine l)
    (appended : List UInt8) :
    sectionContents (unlines kept ++ appended) = sectionContents appended := by
  unfold sectionContents
  rw [readLines_unlines_append fun l hl => (hkept l hl).readable, List.foldlM_append,
    foldlM_printTurn_outside hkept]
  rfl

theorem printTurn_markerStart (contents : List (List UInt8)) :
    printTurn ⟨false, contents⟩ markerStart = .ok ⟨true, contents⟩ := by
  rw [printTurn, if_neg markerStart_ne_markerEnd, if_pos rfl]

theorem printTurn_markerEnd (contents : List (List UInt8)) :
    printTurn ⟨true, contents⟩ markerEnd = .ok ⟨false, contents⟩ := by
  rw [printTurn, if_pos rfl]
  rfl

/-- **A section of plain lines.** -/
theorem sectionContents_section {lines : List (List UInt8)} (hlines : ∀ l ∈ lines, PlainLine l) :
    sectionContents (unlines (markerStart :: (lines ++ [markerEnd]))) = .ok lines := by
  have hread : ∀ l ∈ markerStart :: (lines ++ [markerEnd]), Readable l := by
    intro l hl
    rw [List.mem_cons, List.mem_append, List.mem_singleton] at hl
    rcases hl with rfl | hl | rfl
    · exact readable_markerStart
    · exact (hlines l hl).readable
    · exact readable_markerEnd
  have hlines' := readLines_unlines_append hread []
  have hloop : (markerStart :: (lines ++ [markerEnd])).foldlM printTurn ⟨false, []⟩
      = .ok ⟨false, lines⟩ := by
    rw [List.foldlM_cons]
    refine (bind_of_ok (printTurn_markerStart [])).trans ?_
    rw [List.foldlM_append]
    refine (bind_of_ok (foldlM_printTurn_inside hlines [])).trans ?_
    rw [List.foldlM_cons]
    exact bind_of_ok (printTurn_markerEnd lines)
  rw [List.append_nil, readLines, List.append_nil] at hlines'
  unfold sectionContents
  rw [hlines', hloop]
  rfl

/-- **Whatever the file is**: all that the script prints is in the file. -/
theorem mem_sectionContents {content l : List UInt8} {lines : List (List UInt8)}
    (h : sectionContents content = .ok lines) (hl : l ∈ lines) :
    Readable l ∧ l <:+: content.filter (· ≠ 0) := by
  unfold sectionContents at h
  split at h
  · exact absurd h (by simp)
  · rename_i s hloop
    split at h
    · exact absurd h (by simp)
    · obtain rfl := Except.ok.inj h
      have hmem : ∀ l ∈ s.sectionContents, l ∈ readLines content [] :=
        foldlM_invariant (fun l hl _ _ => printTurn_mem hl) hloop (by simp)
      exact mem_readLines ⟨List.not_mem_nil, List.not_mem_nil⟩ (hmem l hl)

end TinyPilotKvm
