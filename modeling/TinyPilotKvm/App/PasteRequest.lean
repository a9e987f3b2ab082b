/-
# Any paste request (`app/request_parsers/paste.py`)

The body of a paste request may have a value of any type for its text and its language.  The loop
goes through whatever the text is, and both look-ups of `convert` take what they get: **a text that
cannot be iterated, and a list or a dictionary for a character or for the language, raise a
`TypeError`**.

`pasteChars_text` is the link to the model for texts; `parsePaste_raised_iff` says which requests
raise.
-/
import TinyPilotKvm.App.TextToHid
import TinyPilotKvm.App.VideoSettings
import TinyPilotKvm.Python.Operations

namespace TinyPilotKvm

open Json

/-! ## 1. The code -/

inductive PasteRequestError
  /-- An error of `parse_json_body`. -/
  | body (e : ApiException)
  | unsupportedPastedCharacterError (message : String)
  | raised (e : PyRaise)

inductive ConvertError
  | unsupportedCharacterError (message : String)
  | raised (e : PyRaise)

/-- A layout, with texts for keys. -/
def CharMap.byText (map : CharMap) : List (PyStr × Option Keystroke) :=
  map.map fun entry => ([entry.1.toNat], entry.2)

/-- The layouts of `convert`. -/
def languageMaps : List (PyStr × CharMap) :=
  [(py "en-GB", gbCharToHidMap), (py "en-US", usCharToHidMap)]

/-- `language_map`; the default is en-US. -/
def languageMapOf (language : Json) : Except PyRaise CharMap :=
  match language.lookup languageMaps with
  | .error .keyError => .ok usCharToHidMap
  | found => found

section

-- `str`, `repr` and `==` of decoded JSON
variable (str repr : Json → String) (eq : Json → Json → Bool)

/-- The second look-up of `convert`. -/
def keystrokeIn (languageMap : CharMap) (char : Json) : Except ConvertError (Option Keystroke) :=
  match char.lookup languageMap.byText with
  | .ok hidKeystroke => .ok hidKeystroke
  | .error .keyError => .error (.unsupportedCharacterError ("Unsupported character " ++ str char))
  | .error e => .error (.raised e)

/-- `convert`, of any character and language. -/
def convertAny (char language : Json) : Except ConvertError (Option Keystroke) := do
  keystrokeIn str (← (languageMapOf language).mapError .raised) char

/-- The loop: the keystrokes so far, and the keys of `unsupported_chars_found`. -/
def pasteChars (language : Json) : List Json → List Keystroke → List Json →
    Except PyRaise (List Keystroke × List Json)
  | [], keystrokes, unsupported => .ok (keystrokes, unsupported)
  | char :: text, keystrokes, unsupported =>
    match convertAny str char language with
    | .error (.unsupportedCharacterError _) =>
      pasteChars language text keystrokes
        (if unsupported.any (eq char) then unsupported else unsupported ++ [char])
    | .error (.raised e) => .error e
    | .ok none => pasteChars language text keystrokes unsupported
    | .ok (some keystroke) => pasteChars language text (keystrokes ++ [keystroke]) unsupported

/-- `parse_keystrokes`, after `parse_json_body`. -/
def parsePasteFields (text language : Json) : Except PasteRequestError (List Keystroke) := do
  let chars ← text.elements.mapError .raised
  match pasteChars str eq language chars [] [] with
  | .error e => .error (.raised e)
  | .ok found =>
    if found.2 ≠ [] then .error (.unsupportedPastedCharacterError
      ("These characters are not supported: " ++ ", ".intercalate (found.2.map repr)))
    else .ok found.1

/-- `parse_keystrokes`. -/
def parsePaste (body : Except ApiException Json) :
    Except PasteRequestError (List Keystroke) := do
  let text ← (requiredField body "text").mapError .body
  let language ← (requiredField body "language").mapError .body
  parsePasteFields str repr eq text language

/-! ## 2. Texts -/

/-- A character as a value. -/
def charText (char : Char) : Json := .str [char.toNat]

variable {str repr eq}

theorem lookup_byText (map : CharMap) (char : Char) :
    (map.byText).lookup [char.toNat] = map.lookup char := by
  induction map with
  | nil => rfl
  | cons entry map ih =>
    obtain ⟨c, keystroke⟩ := entry
    have hkey : ([char.toNat] == [c.toNat]) = (char == c) := by
      rw [Bool.eq_iff_iff, beq_iff_eq, beq_iff_eq, List.cons.injEq, Char.toNat_inj]
      exact and_iff_left rfl
    change List.lookup [char.toNat] (([c.toNat], keystroke) :: CharMap.byText map) = _
    rw [List.lookup_cons, List.lookup_cons, ih, hkey]

theorem py_injective {s t : String} (h : py s = py t) : s = t :=
  String.toList_inj.mp (List.map_injective_iff.mpr (fun _ _ => Char.toNat_inj.mp) h)

theorem lookup_str {α : Type} (d : List (PyStr × α)) (s : PyStr) :
    (Json.str s).lookup d = match d.lookup s with
      | some value => .ok value
      | none => .error .keyError := rfl

theorem languageMapOf_text (language : String) :
    languageMapOf (.str (py language)) = .ok (languageMap language) := by
  have hkey (name : String) : (py language == py name) = (language == name) := by
    rw [Bool.eq_iff_iff, beq_iff_eq, beq_iff_eq]
    exact ⟨py_injective, fun h => by rw [h]⟩
  unfold languageMapOf languageMap languageMaps
  rw [lookup_str, List.lookup_cons, List.lookup_cons, List.lookup_cons, List.lookup_cons, hkey,
    hkey]
  cases language == "en-GB" with
  | true => rfl
  | false => cases language == "en-US" <;> rfl

theorem convertAny_eq {char language : Json} {map : CharMap}
    (h : languageMapOf language = .ok map) :
    convertAny str char language = keystrokeIn str map char := by
  unfold convertAny
  rw [h]
  rfl

/-- One character of a text. -/
theorem convertAny_text (char : Char) (language : String) :
    convertAny str (charText char) (.str (py language))
      = match convert char language with
        | .ok hidKeystroke => .ok hidKeystroke
        | .error _ => .error (.unsupportedCharacterError
            ("Unsupported character " ++ str (charText char))) := by
  rw [convertAny_eq (languageMapOf_text language)]
  unfold keystrokeIn charText convert
  rw [lookup_str, lookup_byText]
  cases (languageMap language).lookup char <;> rfl

theorem any_charText (heq : ∀ c d, eq (charText c) (charText d) = decide (c = d)) (char : Char)
    (chars : List Char) :
    (chars.map charText).any (eq (charText char)) = decide (char ∈ chars) := by
  induction chars with
  | nil => rfl
  | cons c chars ih =>
    rw [List.map_cons, List.any_cons, ih, heq, ← Bool.decide_or]
    exact decide_eq_decide.mpr List.mem_cons.symm

/-- **On texts the loop is that of `parseChars`**, if texts are compared as they are. -/
theorem pasteChars_text (heq : ∀ c d, eq (charText c) (charText d) = decide (c = d))
    (language : String) (text : List Char) : ∀ (keystrokes : List Keystroke)
    (unsupported : List Char),
      pasteChars str eq (.str (py language)) (text.map charText) keystrokes
          (unsupported.map charText)
        = .ok ((parseChars language text keystrokes unsupported).1,
            (parseChars language text keystrokes unsupported).2.map charText) := by
  induction text with
  | nil =>
    intro keystrokes unsupported
    rfl
  | cons char text ih =>
    intro keystrokes unsupported
    rw [List.map_cons]
    unfold pasteChars parseChars
    rw [convertAny_text]
    cases convert char language with
    | ok found =>
      cases found with
      | none => exact ih keystrokes unsupported
      | some keystroke => exact ih (keystrokes ++ [keystroke]) unsupported
    | error e =>
      have hkeys : (if (unsupported.map charText).any (eq (charText char))
            then unsupported.map charText else unsupported.map charText ++ [charText char])
          = (if char ∈ unsupported then unsupported else unsupported ++ [char]).map charText := by
        rw [any_charText heq]
        by_cases hmem : char ∈ unsupported
        · rw [if_pos hmem, if_pos (decide_eq_true hmem)]
        · rw [if_neg hmem, if_neg (by simpa using hmem), List.map_append]
          rfl
      dsimp only
      rw [hkeys]
      exact ih keystrokes _

/-! ## 3. When the loop raises -/

theorem languageMapOf_ok_iff {language : Json} :
    (∃ map, languageMapOf language = .ok map) ↔ IsHashable language := by
  unfold languageMapOf
  constructor
  · rintro ⟨map, h⟩
    by_contra hnot
    rw [lookup_of_not_hashable hnot] at h
    cases h
  · intro h
    rcases lookup_of_hashable (d := languageMaps) h with ⟨map, hmap⟩ | hmissing
    · rw [hmap]
      exact ⟨map, rfl⟩
    · rw [hmissing]
      exact ⟨_, rfl⟩

/-- A character or a language that is no key. -/
theorem convertAny_raised {char language : Json} (h : ¬ (IsHashable language ∧ IsHashable char)) :
    ∃ e, convertAny str char language = .error (.raised e) := by
  cases hmap : languageMapOf language with
  | error e =>
    refine ⟨e, ?_⟩
    unfold convertAny
    rw [hmap]
    rfl
  | ok map =>
    have hchar : ¬ IsHashable char := fun hchar => h ⟨languageMapOf_ok_iff.mp ⟨map, hmap⟩, hchar⟩
    refine ⟨.typeError, ?_⟩
    rw [convertAny_eq hmap]
    unfold keystrokeIn
    rw [lookup_of_not_hashable hchar]

theorem convertAny_of_hashable {char language : Json} (hlanguage : IsHashable language)
    (hchar : IsHashable char) : (∃ found, convertAny str char language = .ok found) ∨
      ∃ message, convertAny str char language = .error (.unsupportedCharacterError message) := by
  obtain ⟨map, hmap⟩ := languageMapOf_ok_iff.mpr hlanguage
  rw [convertAny_eq hmap]
  unfold keystrokeIn
  rcases lookup_of_hashable (d := map.byText) hchar with ⟨keystroke, hfound⟩ | hmissing
  · rw [hfound]
    exact Or.inl ⟨keystroke, rfl⟩
  · rw [hmissing]
    exact Or.inr ⟨_, rfl⟩

/-- **The loop ends** exactly if the language, once there is a character, and all characters may be
keys. -/
theorem pasteChars_ok_iff {language : Json} (chars : List Json) :
    ∀ (keystrokes : List Keystroke) (unsupported : List Json),
      (∃ found, pasteChars str eq language chars keystrokes unsupported = .ok found) ↔
        ∀ char ∈ chars, IsHashable language ∧ IsHashable char := by
  induction chars with
  | nil =>
    intro keystrokes unsupported
    exact iff_of_true ⟨_, rfl⟩ (by simp)
  | cons char chars ih =>
    intro keystrokes unsupported
    rw [List.forall_mem_cons]
    unfold pasteChars
    by_cases h : IsHashable language ∧ IsHashable char
    · rw [and_iff_right h]
      have hends := @convertAny_of_hashable str char language h.1 h.2
      rcases hends with ⟨found, hfound⟩ | ⟨message, hmessage⟩
      · rw [hfound]
        cases found with
        | none => exact ih keystrokes unsupported
        | some keystroke => exact ih (keystrokes ++ [keystroke]) unsupported
      · rw [hmessage]
        exact ih keystrokes _
    · obtain ⟨e, he⟩ := @convertAny_raised str char language h
      rw [he]
      refine iff_of_false ?_ fun hall => h hall.1
      rintro ⟨found, hfound⟩
      cases hfound

/-! ## 4. The request -/

/-- What may stand for a text: a text, a dictionary or a list, whose characters, if there are any,
may be keys, as the language may. -/
inductive TypeableText (language : Json) : Json → Prop
  | str {s : PyStr} (h : s ≠ [] → IsHashable language) : TypeableText language (.str s)
  | dict {fields : PyDict} (h : fields ≠ [] → IsHashable language) :
      TypeableText language (.dict fields)
  | list {items : List Json} (h : ∀ item ∈ items, IsHashable language ∧ IsHashable item) :
      TypeableText language (.list items)

/-- The bodies that raise no `TypeError`. -/
inductive HandledPaste : Json → Prop
  | notDict {body : Json} (h : ∀ fields, body ≠ .dict fields) : HandledPaste body
  | missing {fields : PyDict}
      (h : PyDict.get? fields "text" = none ∨ PyDict.get? fields "language" = none) :
      HandledPaste (.dict fields)
  | present {fields : PyDict} {text language : Json}
      (htext : PyDict.get? fields "text" = some text)
      (hlanguage : PyDict.get? fields "language" = some language)
      (h : TypeableText language text) : HandledPaste (.dict fields)

theorem forall_hashable_iff {language : Json} {keys : List PyStr} :
    (∀ char ∈ keys.map Json.str, IsHashable language ∧ IsHashable char) ↔
      (keys ≠ [] → IsHashable language) := by
  cases keys with
  | nil => simp
  | cons key keys =>
    constructor
    · intro h _
      exact (h (.str key) (by simp)).1
    · intro h char hchar
      obtain ⟨s, -, rfl⟩ := List.mem_map.mp hchar
      exact ⟨h (by simp), hashable_str s⟩

theorem typeableText_iff {language text : Json} :
    (∃ chars, text.elements = .ok chars ∧ ∀ char ∈ chars, IsHashable language ∧ IsHashable char) ↔
      TypeableText language text := by
  constructor
  · rintro ⟨chars, hchars, hall⟩
    cases text with
    | str s =>
      cases hchars
      refine .str fun hne => ?_
      obtain ⟨c, s, rfl⟩ := List.exists_cons_of_ne_nil hne
      exact (hall (.str [c]) List.mem_cons_self).1
    | list items =>
      cases hchars
      exact .list hall
    | dict fields =>
      cases hchars
      refine .dict fun hne => forall_hashable_iff.mp hall fun hnil => ?_
      obtain ⟨field, fields, rfl⟩ := List.exists_cons_of_ne_nil hne
      exact keys_cons_ne_nil field fields (List.length_eq_zero_iff.mpr hnil)
    | null | bool | int | float => cases hchars
  · intro h
    cases h with
    | @str s h =>
      refine ⟨s.map fun c => .str [c], rfl, fun char hchar => ?_⟩
      obtain ⟨c, hc, rfl⟩ := List.mem_map.mp hchar
      exact ⟨h (List.ne_nil_of_mem hc), hashable_str [c]⟩
    | @dict fields h =>
      refine ⟨(PyDict.keys fields).map .str, rfl, forall_hashable_iff.mpr fun hne => h ?_⟩
      rintro rfl
      exact hne rfl
    | @list items h => exact ⟨items, rfl, h⟩

/-- What follows the loop. -/
theorem parsePasteFields_eq {text language : Json} {chars : List Json}
    (h : text.elements = .ok chars) : parsePasteFields str repr eq text language
      = match pasteChars str eq language chars [] [] with
        | .error e => .error (.raised e)
        | .ok found =>
          if found.2 ≠ [] then .error (.unsupportedPastedCharacterError
            ("These characters are not supported: " ++ ", ".intercalate (found.2.map repr)))
          else .ok found.1 := by
  unfold parsePasteFields
  rw [h]
  rfl

theorem parsePasteFields_raised_iff {text language : Json} :
    (∃ e, parsePasteFields str repr eq text language = .error (.raised e)) ↔
      ¬ TypeableText language text := by
  rw [← typeableText_iff]
  cases helements : text.elements with
  | error e =>
    refine iff_of_true ⟨e, ?_⟩ (by simp)
    unfold parsePasteFields
    rw [helements]
    rfl
  | ok chars =>
    have hiff := @pasteChars_ok_iff str eq language chars [] []
    rw [parsePasteFields_eq helements]
    cases hfound : pasteChars str eq language chars [] [] with
    | error e =>
      refine iff_of_true ⟨e, rfl⟩ ?_
      rintro ⟨chars', h, hall⟩
      cases h
      obtain ⟨found, h⟩ := hiff.mpr hall
      rw [hfound] at h
      cases h
    | ok found =>
      refine iff_of_false ?_ (not_not.mpr ⟨chars, rfl, hiff.mp ⟨found, hfound⟩⟩)
      rintro ⟨e, h⟩
      dsimp only at h
      split at h <;> cases h

theorem parsePasteFields_ne_body {text language : Json} (e : ApiException) :
    parsePasteFields str repr eq text language ≠ .error (.body e) := by
  intro h
  cases helements : text.elements with
  | error e' =>
    unfold parsePasteFields at h
    rw [helements] at h
    cases h
  | ok chars =>
    rw [parsePasteFields_eq helements] at h
    split at h
    · cases h
    · split at h <;> cases h

theorem parsePaste_dict {fields : PyDict} {text language : Json}
    (htext : PyDict.get? fields "text" = some text)
    (hlanguage : PyDict.get? fields "language" = some language) :
    parsePaste str repr eq (.ok (.dict fields)) = parsePasteFields str repr eq text language := by
  simp only [parsePaste, requiredField, htext, hlanguage]
  rfl

/-- A body without a text or a language. -/
theorem parsePaste_missing {fields : PyDict}
    (h : PyDict.get? fields "text" = none ∨ PyDict.get? fields "language" = none) :
    ∃ e, parsePaste str repr eq (.ok (.dict fields)) = .error (.body e) := by
  cases htext : PyDict.get? fields "text" with
  | none =>
    simp only [parsePaste, requiredField, htext]
    exact ⟨_, rfl⟩
  | some text =>
    have hlanguage := h.resolve_left (by rw [htext]; exact Option.some_ne_none text)
    simp only [parsePaste, requiredField, htext, hlanguage]
    exact ⟨_, rfl⟩

/-- **A request raises** something that is no request error exactly if it is not handled. -/
theorem parsePaste_raised_iff {body : Json} :
    (∃ e, parsePaste str repr eq (.ok body) = .error (.raised e)) ↔ ¬ HandledPaste body := by
  by_cases hdict : ∃ fields, body = .dict fields
  · obtain ⟨fields, rfl⟩ := hdict
    by_cases hmissing : PyDict.get? fields "text" = none ∨ PyDict.get? fields "language" = none
    · obtain ⟨e, he⟩ := @parsePaste_missing str repr eq fields hmissing
      refine iff_of_false ?_ (not_not.mpr (.missing hmissing))
      rintro ⟨e', h⟩
      rw [he] at h
      cases h
    · obtain ⟨htext, hlanguage⟩ := not_or.mp hmissing
      obtain ⟨text, htext⟩ := Option.ne_none_iff_exists'.mp htext
      obtain ⟨language, hlanguage⟩ := Option.ne_none_iff_exists'.mp hlanguage
      rw [parsePaste_dict htext hlanguage, parsePasteFields_raised_iff]
      refine not_congr ⟨.present htext hlanguage, fun h => ?_⟩
      cases h with
      | notDict h => exact absurd rfl (h fields)
      | missing h => exact absurd h hmissing
      | present htext' hlanguage' h =>
        obtain rfl := Option.some.inj (htext.symm.trans htext')
        obtain rfl := Option.some.inj (hlanguage.symm.trans hlanguage')
        exact h
  · have hnot : ∀ fields, body ≠ .dict fields := fun fields h => hdict ⟨fields, h⟩
    refine iff_of_false ?_ (not_not.mpr (.notDict hnot))
    rintro ⟨e, h⟩
    cases body with
    | dict fields => exact hnot fields rfl
    | null | bool | int | float | str | list => cases h

/-- **A request with texts** is parsed as `parseKeystrokes` does. -/
theorem parsePasteFields_text (heq : ∀ c d, eq (charText c) (charText d) = decide (c = d))
    (text : List Char) (language : String) :
    parsePasteFields str repr eq (.str (text.map Char.toNat)) (.str (py language))
      = (parseKeystrokes (fun char => repr (charText char)) text language).mapError
          .unsupportedPastedCharacterError := by
  have helements : (Json.str (text.map Char.toNat)).elements = .ok (text.map charText) := by
    change Except.ok ((text.map Char.toNat).map _) = _
    rw [List.map_map]
    rfl
  have hloop := @pasteChars_text str eq heq language text [] []
  rw [List.map_nil] at hloop
  rw [parsePasteFields_eq helements, hloop]
  unfold parseKeystrokes unsupportedMessage
  dsimp only
  by_cases hnil : (parseChars language text [] []).2 = []
  · rw [hnil, List.map_nil, if_neg (not_not.mpr rfl), if_neg (not_not.mpr rfl)]
    rfl
  · rw [if_pos (fun h => hnil (List.map_eq_nil_iff.mp h)), if_pos hnil, List.map_map]
    rfl

end

end TinyPilotKvm
