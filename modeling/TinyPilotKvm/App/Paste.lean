/-
# What a pasted text types

A text that is accepted is typed keystroke by keystroke, and the reports can be read back: each
press is followed by a release (`flatMap_pressed`), and a layout's table can be inverted, so two
texts with the same reports are the same text.

**The layout en-GB is the exception**: it has one keystroke for `#` and `~`.  `paste_faithful_iff`
says that this is the only one.
-/
import TinyPilotKvm.App.Hid.Typing
import TinyPilotKvm.App.TextToHid

namespace TinyPilotKvm

/-! ## 1. An accepted text -/

/-- The keystrokes of a character; none if the character is skipped or not supported. -/
def keystrokesOf (language : String) (char : Char) : List Keystroke :=
  (((languageMap language).lookup char).join).toList

/-- What the loop adds to what it has. -/
theorem parseChars_eq (language : String) (text : List Char) :
    ∀ (keystrokes : List Keystroke) (unsupported : List Char),
      (parseChars language text keystrokes unsupported).1
        = keystrokes ++ text.flatMap (keystrokesOf language) ∧
      ((parseChars language text keystrokes unsupported).2 = [] ↔
        unsupported = [] ∧ ∀ char ∈ text, (languageMap language).lookup char ≠ none) := by
  induction text with
  | nil =>
    intro keystrokes unsupported
    simp [parseChars]
  | cons char text ih =>
    intro keystrokes unsupported
    unfold parseChars convert
    cases hlookup : (languageMap language).lookup char with
    | none =>
      obtain ⟨h1, h2⟩ := ih keystrokes
        (if char ∈ unsupported then unsupported else unsupported ++ [char])
      constructor
      · rw [List.flatMap_cons, keystrokesOf, hlookup]
        exact h1
      · constructor
        · intro hnil
          have hempty := (h2.mp hnil).1
          split at hempty
          · rename_i hmem
            rw [hempty] at hmem
            exact absurd hmem (by simp)
          · exact absurd hempty (by simp)
        · rintro ⟨-, hall⟩
          exact absurd hlookup (hall char List.mem_cons_self)
    | some found =>
      have htail : ∀ keystrokes', (parseChars language text keystrokes' unsupported).2 = [] ↔
          unsupported = [] ∧ ∀ c ∈ char :: text, (languageMap language).lookup c ≠ none := by
        intro keystrokes'
        rw [(ih keystrokes' unsupported).2, List.forall_mem_cons, hlookup]
        simp
      rw [List.flatMap_cons, keystrokesOf, hlookup]
      cases found with
      | none =>
        refine ⟨?_, htail keystrokes⟩
        exact (ih keystrokes unsupported).1
      | some keystroke =>
        refine ⟨?_, htail _⟩
        refine (ih (keystrokes ++ [keystroke]) unsupported).1.trans ?_
        rw [List.append_assoc]
        rfl

/-- **An accepted text** consists of characters of the layout, and its keystrokes are theirs. -/
theorem parseKeystrokes_eq_ok {repr : Char → String} {text : List Char} {language : String}
    {keystrokes : List Keystroke} (h : parseKeystrokes repr text language = .ok keystrokes) :
    keystrokes = text.flatMap (keystrokesOf language) ∧
      ∀ char ∈ text, (languageMap language).lookup char ≠ none := by
  obtain ⟨hkeys, hempty⟩ := parseChars_eq language text [] []
  unfold parseKeystrokes at h
  dsimp only at h
  split at h
  · exact absurd h (by simp)
  · rename_i hnil
    rw [← Except.ok.inj h, hkeys, List.nil_append]
    exact ⟨rfl, (hempty.mp (not_not.mp hnil)).2⟩

/-! ## 2. Reading a layout backwards -/

/-- The first character of a table with this keystroke. -/
def charOf (map : CharMap) (keystroke : Keystroke) : Option Char :=
  (map.find? fun entry => entry.2 = some keystroke).map Prod.fst

/-- `#` and `~` are one. -/
def hashAsTilde (char : Char) : Char := if char = '#' then '~' else char

/-- What holds of every entry of a layout. -/
def EntryOk (map : CharMap) (read : Char → Char) (entry : Char × Option Keystroke) : Prop :=
  match entry.2 with
  | none => entry.1 = '\r'
  | some keystroke => keystroke.keycode ≠ 0 ∧ charOf map keystroke = some (read entry.1)

instance (map : CharMap) (read : Char → Char) (entry : Char × Option Keystroke) :
    Decidable (EntryOk map read entry) := by
  unfold EntryOk
  split <;> infer_instance

theorem entryOk_us : ∀ entry ∈ usCharToHidMap, EntryOk usCharToHidMap id entry := by
  decide +kernel

theorem entryOk_gb : ∀ entry ∈ gbCharToHidMap, EntryOk gbCharToHidMap hashAsTilde entry := by
  decide +kernel

/-- The characters that a layout tells apart. -/
def readBack (language : String) : Char → Char := if language = "en-GB" then hashAsTilde else id

theorem entryOk_languageMap (language : String) :
    ∀ entry ∈ languageMap language, EntryOk (languageMap language) (readBack language) entry := by
  unfold readBack
  by_cases hgb : language = "en-GB"
  · subst hgb
    exact entryOk_gb
  · have hus : languageMap language = usCharToHidMap := by
      unfold languageMap
      rw [List.lookup_cons, beq_eq_false_iff_ne.mpr hgb]
      by_cases hen : language = "en-US"
      · subst hen
        rfl
      · rw [List.lookup_cons, beq_eq_false_iff_ne.mpr hen]
        rfl
    rw [hus, if_neg hgb]
    exact entryOk_us

section

variable {language : String} {text text' : List Char}

/-- A character of an accepted text has one keystroke, which leads back to it. -/
theorem keystrokesOf_eq_singleton {char : Char}
    (h : (languageMap language).lookup char ≠ none) (hcr : char ≠ '\r') :
    ∃ keystroke, keystrokesOf language char = [keystroke] ∧ keystroke.keycode ≠ 0 ∧
      charOf (languageMap language) keystroke = some (readBack language char) := by
  obtain ⟨found, hfound⟩ := Option.ne_none_iff_exists'.mp h
  obtain ⟨before, after, hsplit, -⟩ := List.lookup_eq_some_iff.mp hfound
  have hmem : (char, found) ∈ languageMap language := by
    rw [hsplit]
    simp
  have hok := entryOk_languageMap language _ hmem
  cases found with
  | none => exact absurd hok hcr
  | some keystroke =>
    refine ⟨keystroke, ?_, hok⟩
    rw [keystrokesOf, hfound]
    rfl

/-- **A text can be read back from its keystrokes**, up to what the layout does not tell apart. -/
theorem map_charOf_flatMap (h : ∀ char ∈ text, (languageMap language).lookup char ≠ none)
    (hcr : '\r' ∉ text) :
    (text.flatMap (keystrokesOf language)).map (charOf (languageMap language))
        = text.map (fun char => some (readBack language char)) ∧
      ∀ k ∈ text.flatMap (keystrokesOf language), k.keycode ≠ 0 := by
  induction text with
  | nil => simp
  | cons char text ih =>
    obtain ⟨hchar, htext⟩ := List.forall_mem_cons.mp h
    rw [List.mem_cons, not_or] at hcr
    obtain ⟨hne, hcrtext⟩ := hcr
    obtain ⟨keystroke, hkeys, hcode, hback⟩ := keystrokesOf_eq_singleton hchar (Ne.symm hne)
    obtain ⟨ih1, ih2⟩ := ih htext hcrtext
    rw [List.flatMap_cons, hkeys]
    constructor
    · rw [List.singleton_append, List.map_cons, hback, ih1, List.map_cons]
    · rw [List.singleton_append, List.forall_mem_cons]
      exact ⟨hcode, ih2⟩

/-- In en-GB a `#` is typed as a `~`. -/
theorem keystrokesOf_hashAsTilde (char : Char) :
    keystrokesOf "en-GB" (hashAsTilde char) = keystrokesOf "en-GB" char := by
  unfold hashAsTilde
  split
  · rename_i hc
    subst hc
    decide +kernel
  · rfl

/-! ## 3. The reports -/

/-- A device that delivers everything. -/
def deliveringDevice : HidDevice where
  outcome _ := .delivered
  writes := 0
  received := []

/-- The reports that the host gets for some keystrokes. -/
def reportStream (keyboardPath : String) (keystrokes : List Keystroke) : List Report :=
  (sendKeystrokes keyboardPath keystrokes deliveringDevice).2.received

theorem reportStream_eq (keyboardPath : String) (keystrokes : List Keystroke) :
    reportStream keyboardPath keystrokes = keystrokes.flatMap Keystroke.reports := by
  unfold reportStream
  rw [sendKeystrokes_eq]
  refine ((sendReports_received_iff _ _ deliveringDevice ?_).mpr ?_).trans (List.nil_append _)
  · intro i _
    simp [deliveringDevice]
  · intro i _
    simp [deliveringDevice]

/-- **A paste is faithful exactly if the texts are not, in the layout en-GB, different texts with
`#` and `~` exchanged.** -/
theorem paste_faithful_iff {repr : Char → String} {keyboardPath : String}
    {keystrokes keystrokes' : List Keystroke}
    (h : parseKeystrokes repr text language = .ok keystrokes)
    (h' : parseKeystrokes repr text' language = .ok keystrokes')
    (hcr : '\r' ∉ text) (hcr' : '\r' ∉ text') :
    (reportStream keyboardPath keystrokes = reportStream keyboardPath keystrokes' → text = text') ↔
      ¬ (language = "en-GB" ∧ text ≠ text' ∧ text.map hashAsTilde = text'.map hashAsTilde) := by
  obtain ⟨rfl, hall⟩ := parseKeystrokes_eq_ok h
  obtain ⟨rfl, hall'⟩ := parseKeystrokes_eq_ok h'
  obtain ⟨hback, hcodes⟩ := map_charOf_flatMap hall hcr
  obtain ⟨hback', hcodes'⟩ := map_charOf_flatMap hall' hcr'
  rw [reportStream_eq, reportStream_eq]
  constructor
  · rintro hfaithful ⟨rfl, hne, hsame⟩
    have hhash : ∀ t : List Char, t.flatMap (keystrokesOf "en-GB")
        = (t.map hashAsTilde).flatMap (keystrokesOf "en-GB") := by
      intro t
      rw [List.flatMap_map]
      exact List.flatMap_congr fun char _ => (keystrokesOf_hashAsTilde char).symm
    refine hne (hfaithful ?_)
    rw [hhash text, hsame, ← hhash text']
  · intro hcond hstream
    have hkeys := congrArg (List.flatMap pressed) hstream
    rw [flatMap_pressed hcodes, flatMap_pressed hcodes'] at hkeys
    rw [hkeys, hback'] at hback
    have hread : text.map (readBack language) = text'.map (readBack language) := by
      have hsome := congrArg (List.map fun o : Option Char => o.getD 'a') hback
      rw [List.map_map, List.map_map] at hsome
      exact hsome.symm
    unfold readBack at hread
    by_cases hgb : language = "en-GB"
    · rw [if_pos hgb] at hread
      by_contra hne
      exact hcond ⟨hgb, hne, hread⟩
    · rw [if_neg hgb, List.map_id, List.map_id] at hread
      exact hread

end

/-- Two short texts. -/
theorem paste_faithful_iff_ab :
    (reportStream "/dev/hidg0" [⟨keycodeA, 0⟩] = reportStream "/dev/hidg0" [⟨keycodeB, 0⟩] →
      ['a'] = ['b']) ∧ ['a'] ≠ ['b'] := by
  have ha : parseKeystrokes Char.toString ['a'] "en-US" = .ok [⟨keycodeA, 0⟩] := rfl
  have hb : parseKeystrokes Char.toString ['b'] "en-US" = .ok [⟨keycodeB, 0⟩] := rfl
  exact ⟨(paste_faithful_iff ha hb (by decide) (by decide)).mpr (by decide), by decide⟩

/-- **In en-GB `#` and `~` type the same.** -/
theorem hash_types_tilde : ∃ keystrokes keystrokes',
    parseKeystrokes Char.toString ['#'] "en-GB" = .ok keystrokes ∧
      parseKeystrokes Char.toString ['~'] "en-GB" = .ok keystrokes' ∧
      '\r' ∉ ['#'] ∧ '\r' ∉ ['~'] ∧
      reportStream "/dev/hidg0" keystrokes = reportStream "/dev/hidg0" keystrokes' ∧
      ['#'] ≠ ['~'] :=
  ⟨[⟨keycodeBackslash, modifierLeftShift⟩], [⟨keycodeBackslash, modifierLeftShift⟩], rfl, rfl,
    by decide, by decide, rfl, by decide⟩

end TinyPilotKvm
