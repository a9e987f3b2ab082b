/-
# `change-hostname`

The script takes the old marker section out of `/etc/hosts`, reads the file through
`$(</etc/hosts)`, which drops the newlines at its end, and writes it again with a new section before
it.

`last_hostname_wins`: only the last of two runs counts.  `strip-marker-sections` leaves lines
without markers, and dropping their blank end and adding one newline comes to such lines again
(`commandSubstitution_unlines`); that is all the next run sees.
-/
import Mathlib.Data.List.DropRight
import TinyPilotKvm.Scripts.PrintMarkerSections

namespace TinyPilotKvm

/-! ## 1. The script -/

/-- `[-0-9A-Za-z]`. -/
def inHostnameScriptClass (b : UInt8) : Bool :=
  b == 45 || (48 ≤ b && b ≤ 57) || (65 ≤ b && b ≤ 90) || (97 ≤ b && b ≤ 122)

/-- The checks of `NEW_HOSTNAME`. -/
def isValidNewHostname (newHostname : List UInt8) : Bool :=
  newHostname ≠ [] && newHostname.all inHostnameScriptClass && newHostname.head? ≠ some 45 &&
    newHostname ≠ asciiBytes "localhost" && newHostname.length ≤ 63

/-- What the loop over the options comes to. -/
inductive HostnameArgs
  | help
  | illegalOption
  | positional (args : List (List UInt8))

/-- `getopts 'h'` and the `shift`. -/
def parseHostnameArgs : List (List UInt8) → HostnameArgs
  | (45 :: letter :: letters) :: args =>
    if letter = 45 ∧ letters = [] then .positional args
    else if letter = 104 then .help
    else .illegalOption
  | args => .positional args

/-- `$(…)` for a program that prints `output`, without NUL bytes and the newlines at the end. -/
def commandSubstitution (output : List UInt8) : List UInt8 :=
  (output.filter (· ≠ 0)).rdropWhile (· = newline)

/-- The line of the new section. -/
def hostsEntry (newHostname : List UInt8) : List UInt8 :=
  asciiBytes "127.0.1.1 " ++ newHostname

/-- What `printf` writes. -/
def etcHosts (newHostname oldEtcHosts : List UInt8) : List UInt8 :=
  markerStart ++ [newline] ++ asciiBytes "127.0.1.1 " ++ newHostname ++ [newline] ++ markerEnd ++
    [newline] ++ oldEtcHosts ++ [newline]

/-- How a run ends: the exit status, its error message if it has one of its own, and the file. -/
structure HostnameResult where
  status : Nat
  message : String
  content : List UInt8

/-- The script, on `/etc/hosts` as it is; `hostnamectl` is the exit status of its last command. -/
def changeHostname (hostnamectl : List UInt8 → Nat) (args : List (List UInt8))
    (content : List UInt8) : HostnameResult :=
  match parseHostnameArgs args with
  | .help => ⟨0, "", content⟩
  | .illegalOption => ⟨1, "", content⟩
  | .positional [] => ⟨1, "Input parameter missing: new_hostname", content⟩
  | .positional (newHostname :: _) =>
    if !isValidNewHostname newHostname then ⟨1, "Invalid hostname", content⟩
    else
      let stripped := stripMarkerSections content
      if stripped.status ≠ 0 then ⟨stripped.status, stripped.stderr, stripped.content⟩
      else ⟨hostnamectl newHostname, "",
        etcHosts newHostname (commandSubstitution stripped.content)⟩

/-! ## 2. Hostnames -/

theorem isValidNewHostname_iff {newHostname : List UInt8} :
    isValidNewHostname newHostname = true ↔ newHostname ≠ [] ∧
      (∀ b ∈ newHostname, inHostnameScriptClass b = true) ∧ newHostname.head? ≠ some 45 ∧
        newHostname ≠ asciiBytes "localhost" ∧ newHostname.length ≤ 63 := by
  simp only [isValidNewHostname, Bool.and_eq_true, decide_eq_true_eq, List.all_eq_true, and_assoc]

/-- A valid hostname is no option. -/
theorem parseHostnameArgs_of_valid {newHostname : List UInt8}
    (h : isValidNewHostname newHostname = true) :
    parseHostnameArgs [newHostname] = .positional [newHostname] := by
  obtain ⟨hne, -, hhead, -, -⟩ := isValidNewHostname_iff.mp h
  unfold parseHostnameArgs
  split
  · rename_i heq
    rw [(List.cons.inj heq).1] at hhead
    exact absurd rfl hhead
  · rfl

theorem hostsEntry_plain {newHostname : List UInt8} (h : isValidNewHostname newHostname = true) :
    PlainLine (hostsEntry newHostname) := by
  obtain ⟨-, hclass, -, -, -⟩ := isValidNewHostname_iff.mp h
  have hnot {b : UInt8} (hb : inHostnameScriptClass b = false) : b ∉ newHostname := by
    intro hmem
    rw [hclass b hmem] at hb
    exact Bool.noConfusion hb
  refine plainLine_cons (b := 49) (by decide) ⟨?_, ?_⟩
  · show newline ∉ asciiBytes "127.0.1.1 " ++ newHostname
    rw [List.mem_append, not_or]
    exact ⟨by decide, hnot (by decide)⟩
  · show 0 ∉ asciiBytes "127.0.1.1 " ++ newHostname
    rw [List.mem_append, not_or]
    exact ⟨by decide, hnot (by decide)⟩

/-! ## 3. The command substitution -/

theorem notMem_zero_unlines {lines : List (List UInt8)} (h : ∀ l ∈ lines, Readable l) :
    0 ∉ unlines lines := by
  intro hmem
  obtain ⟨l, hl, hmem⟩ := List.mem_flatMap.mp hmem
  rcases List.mem_append.mp hmem with hmem | hmem
  · exact (h l hl).2 hmem
  · exact absurd hmem (by decide)

/-- Without NUL bytes only the newlines at the end are left out. -/
theorem commandSubstitution_eq {output : List UInt8} (h : 0 ∉ output) :
    commandSubstitution output = output.rdropWhile (· = newline) := by
  unfold commandSubstitution
  rw [List.filter_eq_self.mpr]
  intro b hb
  exact decide_eq_true fun hzero => h (hzero ▸ hb)

/-- **Without its blank end, and with one newline after it**, a file of plain lines is one again.
The induction is from the last line on, as long as the lines are empty. -/
theorem rdropWhile_unlines (kept : List (List UInt8)) : (∀ l ∈ kept, PlainLine l) →
    ∃ rest, rest ≠ [] ∧ (∀ l ∈ rest, PlainLine l) ∧
      (unlines kept).rdropWhile (· = newline) ++ [newline] = unlines rest := by
  induction kept using List.reverseRecOn with
  | nil =>
    intro _
    refine ⟨[[]], by simp, ?_, rfl⟩
    intro l hl
    rw [List.mem_singleton.mp hl]
    exact plainLine_nil
  | append_singleton kept l ih =>
    intro hkept
    rw [unlines_append, unlines_singleton, ← List.append_assoc,
      List.rdropWhile_concat_pos _ _ _ (by decide)]
    rcases List.eq_nil_or_concat' l with rfl | ⟨l', b, rfl⟩
    · rw [List.append_nil]
      exact ih fun l hl => hkept l (List.mem_append_left _ hl)
    · have hplain : PlainLine (l' ++ [b]) := hkept _ (by simp)
      have hb : ¬ (fun x => decide (x = newline)) b = true := by
        intro heq
        rw [of_decide_eq_true heq] at hplain
        exact hplain.readable.1 (by simp)
      rw [← List.append_assoc, List.rdropWhile_concat_neg _ _ b hb]
      refine ⟨kept ++ [l' ++ [b]], by simp, hkept, ?_⟩
      rw [unlines_append, unlines_singleton]
      simp only [List.append_assoc]

theorem commandSubstitution_unlines {kept : List (List UInt8)} (hkept : ∀ l ∈ kept, PlainLine l) :
    ∃ rest, rest ≠ [] ∧ (∀ l ∈ rest, PlainLine l) ∧
      commandSubstitution (unlines kept) ++ [newline] = unlines rest := by
  rw [commandSubstitution_eq (notMem_zero_unlines fun l hl => (hkept l hl).readable)]
  exact rdropWhile_unlines kept hkept

/-- Once more, it changes nothing. -/
theorem commandSubstitution_again {kept rest : List (List UInt8)}
    (hkept : ∀ l ∈ kept, PlainLine l) (hrest : ∀ l ∈ rest, PlainLine l)
    (h : commandSubstitution (unlines kept) ++ [newline] = unlines rest) :
    commandSubstitution (unlines rest) = commandSubstitution (unlines kept) := by
  rw [commandSubstitution_eq (notMem_zero_unlines fun l hl => (hrest l hl).readable), ← h,
    List.rdropWhile_concat_pos _ _ _ (by decide),
    commandSubstitution_eq (notMem_zero_unlines fun l hl => (hkept l hl).readable)]
  exact List.rdropWhile_idempotent _ _

/-! ## 4. A file with a section at the top -/

/-- The lines of a file after a run. -/
def hostsLines (newHostname : List UInt8) (rest : List (List UInt8)) : List (List UInt8) :=
  markerStart :: hostsEntry newHostname :: markerEnd :: rest

theorem etcHosts_eq (newHostname : List UInt8) {oldEtcHosts : List UInt8}
    {rest : List (List UInt8)} (h : oldEtcHosts ++ [newline] = unlines rest) :
    etcHosts newHostname oldEtcHosts = unlines (hostsLines newHostname rest) := by
  unfold etcHosts
  rw [List.append_assoc, h]
  simp [hostsLines, hostsEntry, unlines]

/-- The section goes, and the rest stays as it is. -/
theorem stripMarkerSections_hostsLines {newHostname : List UInt8}
    (hentry : PlainLine (hostsEntry newHostname)) {rest : List (List UInt8)} (hne : rest ≠ [])
    (hrest : ∀ l ∈ rest, PlainLine l) :
    stripMarkerSections (unlines (hostsLines newHostname rest)) = ⟨0, "", unlines rest⟩ := by
  have hreadable : ∀ l ∈ hostsLines newHostname rest, Readable l := by
    intro l hl
    simp only [hostsLines, List.mem_cons] at hl
    rcases hl with rfl | rfl | rfl | hl
    · exact readable_markerStart
    · exact hentry.readable
    · exact readable_markerEnd
    · exact (hrest l hl).readable
  have hread := readLines_unlines hreadable
  have hinside : stripTurn ⟨[], true⟩ (hostsEntry newHostname) = .ok ⟨[], true⟩ := by
    simp [stripTurn, hentry.ne_end]
  have hloop : (hostsLines newHostname rest).foldlM stripTurn ⟨[], false⟩ = .ok ⟨rest, false⟩ := by
    rw [hostsLines, List.foldlM_cons]
    refine (bind_of_ok (stripTurn_markerStart [])).trans ?_
    rw [List.foldlM_cons]
    refine (bind_of_ok hinside).trans ?_
    rw [List.foldlM_cons]
    refine (bind_of_ok (stripTurn_markerEnd [])).trans ?_
    exact foldlM_stripTurn_plain hrest []
  unfold stripMarkerSections
  rw [hread, hloop]
  show (⟨0, "", printfLines rest⟩ : StripResult) = _
  rw [printfLines, if_neg hne]
  rfl

/-! ## 5. Runs -/

section

variable {hostnamectl : List UInt8 → Nat} {newHostname content : List UInt8}

/-- A run with a valid hostname, if the old section can be taken out. -/
theorem changeHostname_content (hvalid : isValidNewHostname newHostname = true)
    (hstrip : (stripMarkerSections content).status = 0) :
    (changeHostname hostnamectl [newHostname] content).content
      = etcHosts newHostname (commandSubstitution (stripMarkerSections content).content) := by
  unfold changeHostname
  rw [parseHostnameArgs_of_valid hvalid]
  dsimp only
  rw [if_neg (by simp [hvalid]), if_neg (not_not.mpr hstrip)]

/-- A run on what a run has left. -/
theorem changeHostname_hostsLines {first : List UInt8} (hfirst : isValidNewHostname first = true)
    (hvalid : isValidNewHostname newHostname = true) {rest : List (List UInt8)} (hne : rest ≠ [])
    (hrest : ∀ l ∈ rest, PlainLine l)
    (hlines : commandSubstitution (unlines rest) ++ [newline] = unlines rest) :
    (changeHostname hostnamectl [newHostname] (unlines (hostsLines first rest))).content
      = unlines (hostsLines newHostname rest) := by
  have hstrip := stripMarkerSections_hostsLines (hostsEntry_plain hfirst) hne hrest
  rw [changeHostname_content hvalid (by rw [hstrip]), hstrip]
  exact etcHosts_eq newHostname hlines

end

/-- The file has one section, which is at the top and has the entry of the hostname only. -/
def HasOnlySection (newHostname content : List UInt8) : Prop :=
  ∃ rest, (∀ l ∈ rest, PlainLine l) ∧ content = unlines (hostsLines newHostname rest)

/-- **The last hostname wins.** -/
theorem last_hostname_wins (hostnamectl : List UInt8 → Nat) {content first last : List UInt8}
    (hstrip : (stripMarkerSections content).status = 0)
    (hfirst : isValidNewHostname first = true) (hlast : isValidNewHostname last = true) :
    (changeHostname hostnamectl [last] (changeHostname hostnamectl [first] content).content).content
        = (changeHostname hostnamectl [last] content).content ∧
      HasOnlySection last (changeHostname hostnamectl [last] content).content ∧
      (changeHostname hostnamectl [last]
          (changeHostname hostnamectl [last] content).content).content
        = (changeHostname hostnamectl [last] content).content := by
  obtain ⟨kept, hkept, hplain⟩ := stripMarkerSections_content hstrip
  obtain ⟨rest, hne, hrest, heq⟩ := commandSubstitution_unlines hplain
  have hlines : commandSubstitution (unlines rest) ++ [newline] = unlines rest := by
    rw [commandSubstitution_again hplain hrest heq, heq]
  have hrun {newHostname : List UInt8} (hvalid : isValidNewHostname newHostname = true) :
      (changeHostname hostnamectl [newHostname] content).content
        = unlines (hostsLines newHostname rest) := by
    rw [changeHostname_content hvalid hstrip, hkept, etcHosts_eq newHostname heq]
  rw [hrun hfirst, hrun hlast]
  exact ⟨changeHostname_hostsLines hfirst hlast hne hrest hlines, ⟨rest, hrest, rfl⟩,
    changeHostname_hostsLines hlast hlast hne hrest hlines⟩

/-- A file with an old section and a blank end. -/
theorem last_hostname_wins_blank_end :
    let content := unlines [asciiBytes "127.0.0.1 localhost", markerStart,
      asciiBytes "127.0.1.1 old", markerEnd, [], []]
    (changeHostname (fun _ => 0) [asciiBytes "pilot2"]
        (changeHostname (fun _ => 0) [asciiBytes "pilot1"] content).content).content
      = unlines [markerStart, asciiBytes "127.0.1.1 pilot2", markerEnd,
        asciiBytes "127.0.0.1 localhost"] := by
  intro content
  have h := @last_hostname_wins (fun _ => 0) content (asciiBytes "pilot1") (asciiBytes "pilot2")
    (by decide) (by decide) (by decide)
  rw [h.1]
  decide

end TinyPilotKvm
