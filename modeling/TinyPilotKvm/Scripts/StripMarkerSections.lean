/-
# `strip-marker-sections`

The script reads a configuration file line by line, keeps the lines outside the marker sections,
and prints them back into the file.  It does so with two shell builtins that treat the end of a
file in their own way:

* `read` returns 1 at the end of the file, also when it has read a last line that has no newline;
  the loop ends there, and that line is lost;
* `printf` with the format `%s\n` and no argument prints one newline, so a file of which nothing is
  kept does not become empty.

`Stripped` is what the script is for, and `strip_marker_sections_iff` says for which files it does
it.
-/
import Mathlib.Data.List.Basic

namespace TinyPilotKvm

/-! ## 1. The script -/

def newline : UInt8 := 10

/-- The bytes of an ASCII text. -/
def asciiBytes (text : String) : List UInt8 := text.toList.map fun c => c.toNat.toUInt8

def markerStart : List UInt8 := asciiBytes "# --- AUTOGENERATED BY TINYPILOT - START ---"

def markerEnd : List UInt8 := asciiBytes "# --- AUTOGENERATED BY TINYPILOT - END ---"

/-- The lines that `IFS='' read -r line` returns with status 0, after `line` has been read of the
first; it leaves out NUL bytes. -/
def readLines : List UInt8 → List UInt8 → List (List UInt8)
  | [], _ => []
  | b :: rest, line =>
    if b = newline then line :: readLines rest []
    else if b = 0 then readLines rest line
    else readLines rest (line ++ [b])

/-- The variables of the loop. -/
structure StripState where
  preservedLines : List (List UInt8)
  isInMarkerSection : Bool

/-- A turn of the loop.  An error is the message before `exit 1`. -/
def stripTurn (s : StripState) (line : List UInt8) : Except String StripState :=
  if line = markerEnd then
    if !s.isInMarkerSection then .error "Unmatched end marker"
    else .ok { s with isInMarkerSection := false }
  else if s.isInMarkerSection || line = markerStart then
    .ok { s with isInMarkerSection := true }
  else .ok { s with preservedLines := s.preservedLines ++ [line] }

/-- `printf "%s\n" "${lines[@]}"`. -/
def printfLines (lines : List (List UInt8)) : List UInt8 :=
  if lines = [] then [newline] else lines.flatMap (· ++ [newline])

/-- How a run ends: the exit status, what it has written to stderr, and the file. -/
structure StripResult where
  status : Nat
  stderr : String
  content : List UInt8

/-- The script from its loop on. -/
def stripMarkerSections (content : List UInt8) : StripResult :=
  match (readLines content []).foldlM stripTurn ⟨[], false⟩ with
  | .error message => ⟨1, message, content⟩
  | .ok s =>
    if s.isInMarkerSection then ⟨1, "Unmatched start marker", content⟩
    else ⟨0, "", printfLines s.preservedLines⟩

/-! ## 2. What it is for -/

/-- A line of a file; the last one may have no newline. -/
structure FileLine where
  text : List UInt8
  terminated : Bool
  deriving DecidableEq

def FileLine.bytes (l : FileLine) : List UInt8 :=
  l.text ++ if l.terminated then [newline] else []

/-- The lines of a file, after `line` has been read of the first. -/
def fileLines : List UInt8 → List UInt8 → List FileLine
  | [], line => if line = [] then [] else [⟨line, false⟩]
  | b :: rest, line =>
    if b = newline then ⟨line, true⟩ :: fileLines rest [] else fileLines rest (line ++ [b])

/-- `Stripped ls out`: the markers in `ls` are well matched, and `out` is `ls` without the
sections. -/
inductive Stripped : List FileLine → List FileLine → Prop
  | nil : Stripped [] []
  | keep {l : FileLine} {ls out : List FileLine} : l.text ≠ markerStart → l.text ≠ markerEnd →
      Stripped ls out → Stripped (l :: ls) (l :: out)
  | cut {l l' : FileLine} {body ls out : List FileLine} : l.text = markerStart →
      (∀ b ∈ body, b.text ≠ markerEnd) → l'.text = markerEnd → Stripped ls out →
      Stripped (l :: (body ++ l' :: ls)) out

def WellMatched (ls : List FileLine) : Prop := ∃ out, Stripped ls out

/-- What the script promises: a well matched file is stripped and keeps every other byte, and any
other file is refused and left alone. -/
def StripsExactly (content : List UInt8) (r : StripResult) : Prop :=
  (∀ out, Stripped (fileLines content []) out →
    r.status = 0 ∧ r.content = out.flatMap FileLine.bytes) ∧
    (¬ WellMatched (fileLines content []) → r.status ≠ 0 ∧ r.content = content)

/-! ## 3. Lines -/

/-- **What the loop reads** are the lines that have a newline. -/
theorem readLines_eq {content : List UInt8} (h0 : (0 : UInt8) ∉ content) :
    ∀ line, readLines content line
      = ((fileLines content line).filter FileLine.terminated).map FileLine.text := by
  induction content with
  | nil =>
    intro line
    unfold fileLines readLines
    split <;> rfl
  | cons b rest ih =>
    intro line
    rw [List.mem_cons, not_or] at h0
    unfold fileLines readLines
    split
    · rw [ih h0.2]
      rfl
    · rw [if_neg (Ne.symm h0.1), ih h0.2]

/-- All lines but the last have a newline, and the last has one or is not empty. -/
theorem fileLines_cases (content : List UInt8) : ∀ line : List UInt8, newline ∉ line →
    (∀ l ∈ fileLines content line, l.terminated = true) ∨
      ∃ done t, fileLines content line = done ++ [⟨t, false⟩] ∧
        (∀ l ∈ done, l.terminated = true) ∧ t ≠ [] ∧ newline ∉ t := by
  induction content with
  | nil =>
    intro line hline
    unfold fileLines
    split
    · exact Or.inl (by simp)
    · rename_i hne
      exact Or.inr ⟨[], line, rfl, by simp, hne, hline⟩
  | cons b rest ih =>
    intro line hline
    unfold fileLines
    split
    · rcases ih [] (by simp) with hall | ⟨done, t, hsplit, hdone, ht⟩
      · exact Or.inl (List.forall_mem_cons.mpr ⟨rfl, hall⟩)
      · refine Or.inr ⟨⟨line, true⟩ :: done, t, by rw [hsplit]; rfl, ?_, ht⟩
        exact List.forall_mem_cons.mpr ⟨rfl, hdone⟩
    · rename_i hb
      refine ih (line ++ [b]) ?_
      rw [List.mem_append, List.mem_singleton, not_or]
      exact ⟨hline, fun he => hb he.symm⟩

/-! ## 4. The loop -/

/-- The loop on lines: what it keeps, and whether a section is open at the end.  `none`: an end
marker is unmatched. -/
def scan : Bool → List FileLine → Option (List FileLine × Bool)
  | inSection, [] => some ([], inSection)
  | inSection, l :: ls =>
    if l.text = markerEnd then if inSection then scan false ls else none
    else if inSection || l.text = markerStart then scan true ls
    else (scan false ls).map fun r => (l :: r.1, r.2)

theorem scan_cons (inSection : Bool) (l : FileLine) (ls : List FileLine) :
    scan inSection (l :: ls) =
    if l.text = markerEnd then if inSection then scan false ls else none
    else if inSection || l.text = markerStart then scan true ls
    else (scan false ls).map fun r => (l :: r.1, r.2) := rfl

theorem markerStart_ne_markerEnd : markerStart ≠ markerEnd := by decide

theorem stripTurn_markerStart (preserved : List (List UInt8)) :
    stripTurn ⟨preserved, false⟩ markerStart = .ok ⟨preserved, true⟩ := by
  rw [stripTurn, if_neg markerStart_ne_markerEnd, if_pos (by simp)]

theorem stripTurn_markerEnd (preserved : List (List UInt8)) :
    stripTurn ⟨preserved, true⟩ markerEnd = .ok ⟨preserved, false⟩ := by
  rw [stripTurn, if_pos rfl]
  rfl

/-- **The loop of the script is `scan`.** -/
theorem foldlM_stripTurn (ls : List FileLine) :
    ∀ (preserved : List (List UInt8)) (inSection : Bool),
    (ls.map FileLine.text).foldlM stripTurn ⟨preserved, inSection⟩ =
      match scan inSection ls with
      | none => .error "Unmatched end marker"
      | some r => .ok ⟨preserved ++ r.1.map FileLine.text, r.2⟩ := by
  induction ls with
  | nil =>
    intro preserved inSection
    simp [scan, pure, Except.pure]
  | cons l ls ih =>
    intro preserved inSection
    rw [List.map_cons, List.foldlM_cons]
    unfold stripTurn scan
    by_cases hend : l.text = markerEnd
    · rw [if_pos hend, if_pos hend]
      cases inSection with
      | false => rfl
      | true => exact ih preserved false
    · rw [if_neg hend, if_neg hend]
      by_cases hsec : (inSection || decide (l.text = markerStart)) = true
      · rw [if_pos hsec, if_pos hsec]
        exact ih preserved true
      · rw [if_neg hsec, if_neg hsec]
        have hout : inSection = false := by
          cases inSection with
          | false => rfl
          | true => exact absurd rfl hsec
        subst hout
        refine (ih (preserved ++ [l.text]) false).trans ?_
        cases scan false ls with
        | none => rfl
        | some r => simp

theorem scan_append (ls ms : List FileLine) : ∀ inSection,
    scan inSection (ls ++ ms) = (scan inSection ls).bind fun r =>
      (scan r.2 ms).map fun r' => (r.1 ++ r'.1, r'.2) := by
  induction ls with
  | nil =>
    intro inSection
    simp [scan]
  | cons l ls ih =>
    intro inSection
    rw [List.cons_append, scan_cons, scan_cons]
    split
    · split
      · exact ih false
      · rfl
    · split
      · exact ih true
      · rw [ih false]
        cases scan false ls with
        | none => rfl
        | some r => simp [Option.map_map, Function.comp_def]

/-- Inside a section everything up to the end marker goes. -/
theorem scan_true_eq_some {ls out : List FileLine} (h : scan true ls = some (out, false)) :
    ∃ body l' rest, ls = body ++ l' :: rest ∧ (∀ b ∈ body, b.text ≠ markerEnd) ∧
      l'.text = markerEnd ∧ scan false rest = some (out, false) := by
  induction ls with
  | nil => exact absurd h (by simp [scan])
  | cons l ls ih =>
    unfold scan at h
    split at h
    · rename_i hend
      exact ⟨[], l, ls, rfl, by simp, hend, h⟩
    · rename_i hend
      obtain ⟨body, l', rest, hls, hbody, hl', hrest⟩ := ih h
      exact ⟨l :: body, l', rest, by rw [hls]; rfl,
        List.forall_mem_cons.mpr ⟨hend, hbody⟩, hl', hrest⟩

theorem scan_true_body {body : List FileLine} (hbody : ∀ b ∈ body, b.text ≠ markerEnd)
    (ls : List FileLine) : scan true (body ++ ls) = scan true ls := by
  induction body with
  | nil => rfl
  | cons b body ih =>
    obtain ⟨hb, hrest⟩ := List.forall_mem_cons.mp hbody
    rw [List.cons_append, scan, if_neg hb]
    exact ih hrest

/-- **The scan does what the script is for**: it ends outside a section exactly on the well matched
files, and keeps what is to be kept. -/
theorem scan_eq_some_iff {ls out : List FileLine} :
    scan false ls = some (out, false) ↔ Stripped ls out := by
  constructor
  · intro h
    induction hn : ls.length using Nat.strongRecOn generalizing ls out with
    | _ n ih =>
      cases ls with
      | nil =>
        obtain ⟨rfl, -⟩ := Prod.mk.inj (Option.some.inj h)
        exact .nil
      | cons l ls =>
        unfold scan at h
        split at h
        · exact absurd h (by simp)
        · rename_i hend
          split at h
          · rename_i hstart
            obtain ⟨body, l', rest, rfl, hbody, hl', hrest⟩ := scan_true_eq_some h
            have hlen : rest.length < n := by
              rw [← hn]
              simp only [List.length_cons, List.length_append]
              omega
            exact .cut (by simpa using hstart) hbody hl' (ih rest.length hlen hrest rfl)
          · rename_i hstart
            obtain ⟨r, hr, hout⟩ := Option.map_eq_some_iff.mp h
            obtain ⟨rfl, hopen⟩ := Prod.mk.inj hout
            have hrest : scan false ls = some (r.1, false) := by rw [hr, ← hopen]
            refine .keep (by simpa using hstart) hend (ih ls.length ?_ hrest rfl)
            rw [← hn]
            exact Nat.lt_succ_self _
  · intro h
    induction h with
    | nil => rfl
    | keep hstart hend _ ih =>
      rw [scan, if_neg hend, if_neg (by simpa using hstart), ih]
      rfl
    | @cut l l' body ls out hstart hbody hend _ ih =>
      have hne : l.text ≠ markerEnd := by
        rw [hstart]
        exact markerStart_ne_markerEnd
      rw [scan, if_neg hne, if_pos (by simp [hstart]), scan_true_body hbody, scan, if_pos hend]
      exact ih

theorem wellMatched_iff {ls : List FileLine} :
    WellMatched ls ↔ ∃ out, scan false ls = some (out, false) :=
  exists_congr fun _ => scan_eq_some_iff.symm

/-! ## 5. The file afterwards -/

/-- The lines of a file that have a newline. -/
def terminatedLines (content : List UInt8) : List FileLine :=
  (fileLines content []).filter FileLine.terminated

/-- **A run of the script**, from what the scan says of the lines that have a newline. -/
theorem stripMarkerSections_eq {content : List UInt8} (h0 : (0 : UInt8) ∉ content) :
    stripMarkerSections content = match scan false (terminatedLines content) with
      | none => ⟨1, "Unmatched end marker", content⟩
      | some (out, isOpen) => if isOpen then ⟨1, "Unmatched start marker", content⟩
        else ⟨0, "", printfLines (out.map FileLine.text)⟩ := by
  unfold stripMarkerSections
  rw [readLines_eq h0 [], foldlM_stripTurn]
  unfold terminatedLines
  cases scan false ((fileLines content []).filter FileLine.terminated) with
  | none => rfl
  | some r =>
    obtain ⟨out, isOpen⟩ := r
    simp only [List.nil_append]

/-- What is kept of terminated lines is terminated. -/
theorem terminated_of_scan {ls : List FileLine} (hls : ∀ l ∈ ls, l.terminated = true) :
    ∀ {inSection : Bool} {r : List FileLine × Bool}, scan inSection ls = some r →
      ∀ l ∈ r.1, l.terminated = true := by
  induction ls with
  | nil =>
    intro inSection r h
    obtain rfl := Option.some.inj h
    simp
  | cons l ls ih =>
    intro inSection r h
    obtain ⟨hl, hrest⟩ := List.forall_mem_cons.mp hls
    rw [scan_cons] at h
    split at h
    · split at h
      · exact ih hrest h
      · exact absurd h (by simp)
    · split at h
      · exact ih hrest h
      · obtain ⟨r', hr', rfl⟩ := Option.map_eq_some_iff.mp h
        exact List.forall_mem_cons.mpr ⟨hl, ih hrest hr'⟩

/-- Lines with a newline are printed as they were. -/
theorem flatMap_bytes_of_terminated {out : List FileLine} (h : ∀ l ∈ out, l.terminated = true) :
    out.flatMap FileLine.bytes = (out.map FileLine.text).flatMap (· ++ [newline]) := by
  rw [List.flatMap_map]
  refine List.flatMap_congr fun l hl => ?_
  rw [FileLine.bytes, h l hl]
  rfl

/-- `printf` prints the lines, or one newline if there are none. -/
theorem printfLines_eq {out : List FileLine} (h : ∀ l ∈ out, l.terminated = true) :
    printfLines (out.map FileLine.text)
      = if out = [] then [newline] else out.flatMap FileLine.bytes := by
  unfold printfLines
  rw [flatMap_bytes_of_terminated h]
  simp only [List.map_eq_nil_iff]

/-- The promise, from the two scans: of all lines, and the script's own. -/
theorem stripsExactly_of_scan {content : List UInt8} {r : StripResult} :
    StripsExactly content r ↔
      match scan false (fileLines content []) with
      | some (out, false) => r.status = 0 ∧ r.content = out.flatMap FileLine.bytes
      | _ => r.status ≠ 0 ∧ r.content = content := by
  unfold StripsExactly
  rw [wellMatched_iff]
  simp only [← scan_eq_some_iff]
  cases hscan : scan false (fileLines content []) with
  | none =>
    constructor
    · exact fun h => h.2 (by simp)
    · exact fun h => ⟨fun out he => absurd he (by simp), fun _ => h⟩
  | some found =>
    obtain ⟨out, isOpen⟩ := found
    cases isOpen with
    | false =>
      constructor
      · exact fun h => h.1 out rfl
      · refine fun h => ⟨fun out' he => ?_, fun hno => absurd ⟨out, rfl⟩ hno⟩
        obtain ⟨rfl, -⟩ := Prod.mk.inj (Option.some.inj he)
        exact h
    | true =>
      constructor
      · exact fun h => h.2 (by simp)
      · exact fun h => ⟨fun out' he => absurd he (by simp), fun _ => h⟩

/-- A file that ends with a newline, or is empty. -/
theorem stripsExactly_terminated {content : List UInt8} (h0 : (0 : UInt8) ∉ content)
    (hall : ∀ l ∈ fileLines content [], l.terminated = true) :
    StripsExactly content (stripMarkerSections content) ↔
      ¬ Stripped (fileLines content []) [] := by
  have hsame : terminatedLines content = fileLines content [] := List.filter_eq_self.mpr hall
  rw [stripsExactly_of_scan, stripMarkerSections_eq h0, hsame, ← scan_eq_some_iff]
  cases hscan : scan false (fileLines content []) with
  | none => simp
  | some found =>
    obtain ⟨out, isOpen⟩ := found
    cases isOpen with
    | true => simp
    | false =>
      have hprint := printfLines_eq (terminated_of_scan hall hscan)
      dsimp only at hprint ⊢
      rw [if_neg (by simp), hprint]
      by_cases hout : out = []
      · subst hout
        simp
      · rw [if_neg hout]
        simp [hout]

/-- A file whose last line has no newline. -/
theorem stripsExactly_unterminated {content : List UInt8} (h0 : (0 : UInt8) ∉ content)
    {done : List FileLine} {t : List UInt8} (hsplit : fileLines content [] = done ++ [⟨t, false⟩])
    (hdone : ∀ l ∈ done, l.terminated = true) (ht : t ≠ []) (hnew : newline ∉ t) :
    StripsExactly content (stripMarkerSections content) ↔
      ¬ WellMatched (fileLines content []) ∧ ¬ WellMatched (terminatedLines content) := by
  have hterm : terminatedLines content = done := by
    unfold terminatedLines
    rw [hsplit, List.filter_append, List.filter_eq_self.mpr hdone]
    exact List.append_nil _
  rw [stripsExactly_of_scan, stripMarkerSections_eq h0, hterm, wellMatched_iff, wellMatched_iff,
    hsplit, scan_append]
  cases hscan : scan false done with
  | none => simp
  | some found =>
    obtain ⟨out, isOpen⟩ := found
    rw [Option.bind_some]
    dsimp only
    rw [scan_cons]
    cases isOpen with
    | true =>
      by_cases hend : t = markerEnd
      · simp [hend, scan]
      · simp [hend, scan]
    | false =>
      have hprint := printfLines_eq (terminated_of_scan hdone hscan)
      dsimp only at hprint
      by_cases hend : t = markerEnd
      · simp [hend]
      · by_cases hstart : t = markerStart
        · have hne : markerStart ≠ markerEnd := by decide
          simp [hstart, hne, scan]
        · have hlost : printfLines (out.map FileLine.text)
              ≠ out.flatMap FileLine.bytes ++ FileLine.bytes ⟨t, false⟩ := by
            rw [hprint]
            intro heq
            split at heq
            · rename_i hnil
              rw [hnil] at heq
              have hsingle : [newline] = t := by simpa [FileLine.bytes] using heq
              exact hnew (hsingle ▸ List.mem_singleton_self _)
            · have hlen : FileLine.bytes ⟨t, false⟩ = [] := by simpa using heq
              have hempty : t = [] := by simpa [FileLine.bytes] using hlen
              exact ht hempty
          simp [hend, hstart, scan, hlost]

/-- **What the script does exactly as it says**, for a file without NUL bytes: if the file ends
with a newline or is empty, every file but one that is well matched and has nothing outside its
sections; if its last line has no newline, only a file that is not well matched, with that line
and without it. -/
theorem strip_marker_sections_iff {content : List UInt8} (h0 : (0 : UInt8) ∉ content) :
    StripsExactly content (stripMarkerSections content) ↔
      ((∀ l ∈ fileLines content [], l.terminated = true) ∧ ¬ Stripped (fileLines content []) []) ∨
        ((∃ l ∈ fileLines content [], l.terminated = false) ∧
          ¬ WellMatched (fileLines content []) ∧ ¬ WellMatched (terminatedLines content)) := by
  rcases fileLines_cases content [] (by simp) with hall | ⟨done, t, hsplit, hdone, ht, hnew⟩
  · rw [stripsExactly_terminated h0 hall]
    constructor
    · exact fun h => Or.inl ⟨hall, h⟩
    · rintro (⟨-, h⟩ | ⟨⟨l, hl, hfalse⟩, -⟩)
      · exact h
      · rw [hall l hl] at hfalse
        exact absurd hfalse (by simp)
  · rw [stripsExactly_unterminated h0 hsplit hdone ht hnew]
    have hlast : ⟨t, false⟩ ∈ fileLines content [] := by
      rw [hsplit]
      simp
    constructor
    · exact fun h => Or.inr ⟨⟨_, hlast, rfl⟩, h⟩
    · rintro (⟨hall, -⟩ | ⟨-, h⟩)
      · exact absurd (hall _ hlast) (by simp)
      · exact h

/-- A file of two lines, both ended. -/
theorem strip_marker_sections_iff_two :
    StripsExactly (asciiBytes "a\nb\n") (stripMarkerSections (asciiBytes "a\nb\n")) := by
  have hscan : scan false (fileLines (asciiBytes "a\nb\n") [])
      = some ([⟨asciiBytes "a", true⟩, ⟨asciiBytes "b", true⟩], false) := by decide
  refine (strip_marker_sections_iff (by decide)).mpr (Or.inl ⟨by decide, fun h => ?_⟩)
  rw [← scan_eq_some_iff, hscan] at h
  exact absurd h (by decide)

/-- **A last line without a newline is lost**, in a file without any marker. -/
theorem unterminated_line_is_lost :
    (0 : UInt8) ∉ asciiBytes "a\nb" ∧
      Stripped (fileLines (asciiBytes "a\nb") [])
        [⟨asciiBytes "a", true⟩, ⟨asciiBytes "b", false⟩] ∧
      (stripMarkerSections (asciiBytes "a\nb")).status = 0 ∧
      (stripMarkerSections (asciiBytes "a\nb")).content = asciiBytes "a\n" ∧
      ¬ StripsExactly (asciiBytes "a\nb") (stripMarkerSections (asciiBytes "a\nb")) := by
  have hkept : Stripped (fileLines (asciiBytes "a\nb") [])
      [⟨asciiBytes "a", true⟩, ⟨asciiBytes "b", false⟩] := scan_eq_some_iff.mp (by decide)
  have hcontent : (stripMarkerSections (asciiBytes "a\nb")).content = asciiBytes "a\n" := by decide
  refine ⟨by decide, hkept, by decide, hcontent, fun hprom => ?_⟩
  have hall := (hprom.1 _ hkept).2
  rw [hcontent] at hall
  exact absurd hall (by decide)

end TinyPilotKvm
