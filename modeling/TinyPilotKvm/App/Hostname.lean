/-
# The hostname of a request (`app/request_parsers/hostname.py`)

The checks after `parse_json_body` are those of the type, of the reserved name, of the first
character and of a pattern.  **The pattern ends with `$`**, so a hostname with a newline after it is
accepted too, and goes to `change-hostname` as it is.

`parse_hostname_iff` says for which values the grammar is kept.
-/
import TinyPilotKvm.App.VideoSettings
import TinyPilotKvm.Python.Patterns

namespace TinyPilotKvm

open PyStr

/-! ## 1. The code -/

inductive HostnameRequestError
  /-- An error of `parse_json_body`. -/
  | body (e : ApiException)
  | invalidHostnameError (message : String)

/-- `[-0-9a-z]`. -/
def inHostnameClass (c : Nat) : Bool :=
  c == 45 || (48 ≤ c && c ≤ 57) || (97 ≤ c && c ≤ 122)

/-- A match of `_HOSTNAME_PATTERN`. -/
def matchesHostnamePattern : PyStr → Bool := matchesAnchored inHostnameClass 63

/-- `parse_hostname`, after `parse_json_body`. -/
def parseHostnameField : Json → Except HostnameRequestError PyStr
  | .str hostname =>
    if hostname = py "localhost" then
      .error (.invalidHostnameError "The hostname cannot be localhost.")
    else if hostname.head? = some 45 then
      .error (.invalidHostnameError "The hostname cannot start with \"-\".")
    else if !matchesHostnamePattern hostname then
      .error (.invalidHostnameError "The hostname contains invalid characters.")
    else .ok hostname
  | _ => .error (.invalidHostnameError "The hostname is not a string.")

/-- `parse_hostname`. -/
def parseHostname (body : Except ApiException Json) : Except HostnameRequestError PyStr := do
  parseHostnameField (← (requiredField body "hostname").mapError .body)

/-! ## 2. The grammar -/

/-- A name that does not begin with a hyphen. -/
structure IsLabel (s : PyStr) : Prop where
  name : IsName inHostnameClass 63 s
  head : s.head? ≠ some 45

/-- What a hostname should be. -/
structure IsHostname (s : PyStr) : Prop extends IsLabel s where
  notLocalhost : s ≠ py "localhost"

/-- A hostname is returned as it is, and all else is refused. -/
def KeepsGrammar (value : Json) (r : Except HostnameRequestError PyStr) : Prop :=
  (∃ s, value = .str s ∧ IsHostname s ∧ r = .ok s) ∨
    ((¬ ∃ s, value = .str s ∧ IsHostname s) ∧ ∃ message, r = .error (.invalidHostnameError message))

/-- A name, and a newline after it. -/
def LabelWithNewline (value : Json) : Prop := ∃ s, IsLabel s ∧ value = .str (s ++ [10])

/-! ## 3. What is accepted -/

theorem head?_append_newline {s : PyStr} (h : s ≠ []) : (s ++ [10]).head? = s.head? :=
  List.head?_append_of_ne_nil s h

/-- What the parser returns is what it was given. -/
theorem parseHostnameField_eq_ok {value : Json} {s : PyStr}
    (h : parseHostnameField value = .ok s) : value = .str s := by
  cases value with
  | str hostname =>
    unfold parseHostnameField at h
    dsimp only at h
    split_ifs at h
    cases h
    rfl
  | _ => cases h

/-- The errors are all of one class. -/
theorem parseHostnameField_error {value : Json} {e : HostnameRequestError}
    (h : parseHostnameField value = .error e) : ∃ message, e = .invalidHostnameError message := by
  cases value with
  | str hostname =>
    unfold parseHostnameField at h
    dsimp only at h
    split_ifs at h <;> cases h <;> exact ⟨_, rfl⟩
  | _ =>
    cases h
    exact ⟨_, rfl⟩

theorem matchesHostnamePattern_iff {s : PyStr} : matchesHostnamePattern s = true ↔
    IsName inHostnameClass 63 s ∨ ∃ name, IsName inHostnameClass 63 name ∧ s = name ++ [10] :=
  matchesAnchored_iff (by decide)

/-- **A text is accepted exactly if it is a hostname, or a name with a newline after it.** -/
theorem parseHostnameField_ok_iff {s : PyStr} :
    parseHostnameField (.str s) = .ok s ↔
      IsHostname s ∨ ∃ name, IsLabel name ∧ s = name ++ [10] := by
  unfold parseHostnameField
  dsimp only
  split_ifs with hlocal hhead hmatch
  · simp only [false_iff, not_or, not_exists, not_and]
    refine ⟨fun h => h.notLocalhost hlocal, fun name _ heq => ?_⟩
    have hlast := congrArg List.getLast? (heq.symm.trans hlocal)
    rw [List.getLast?_concat] at hlast
    exact absurd hlast (by decide)
  · simp only [false_iff, not_or, not_exists, not_and]
    refine ⟨fun h => h.head hhead, fun name h heq => h.head ?_⟩
    rw [← head?_append_newline h.name.ne_nil, ← heq, hhead]
  · simp only [false_iff, not_or, not_exists, not_and]
    have hno : ¬ matchesHostnamePattern s = true := by
      intro h
      rw [h] at hmatch
      exact Bool.false_ne_true hmatch
    rw [matchesHostnamePattern_iff, not_or, not_exists] at hno
    exact ⟨fun h => hno.1 h.name, fun name h heq => hno.2 name ⟨h.name, heq⟩⟩
  · simp only [true_iff]
    have hyes : matchesHostnamePattern s = true := by
      simpa using hmatch
    rcases matchesHostnamePattern_iff.mp hyes with hname | ⟨name, hname, heq⟩
    · exact Or.inl ⟨⟨hname, hhead⟩, hlocal⟩
    · refine Or.inr ⟨name, ⟨hname, ?_⟩, heq⟩
      rwa [← head?_append_newline hname.ne_nil, ← heq]

/-- A text with a newline at its end is no hostname. -/
theorem IsHostname.ne_append_newline {s name : PyStr} (h : IsHostname s) : s ≠ name ++ [10] := by
  rintro rfl
  exact h.name.notMem (c := 10) (by decide) (by simp)

/-- For a value, the grammar is kept unless the value is a name with a newline after it. -/
theorem keepsGrammar_field_iff (value : Json) :
    KeepsGrammar value (parseHostnameField value) ↔ ¬ LabelWithNewline value := by
  cases hparse : parseHostnameField value with
  | ok s =>
    obtain rfl := parseHostnameField_eq_ok hparse
    constructor
    · rintro (⟨t, ht, hhost, -⟩ | ⟨-, message, h⟩)
      · cases ht
        rintro ⟨name, -, heq⟩
        cases heq
        exact hhost.ne_append_newline rfl
      · cases h
    · intro hnew
      refine Or.inl ⟨s, rfl, ?_, rfl⟩
      rcases parseHostnameField_ok_iff.mp hparse with h | ⟨name, h, rfl⟩
      · exact h
      · exact absurd ⟨name, h, rfl⟩ hnew
  | error e =>
    obtain ⟨message, rfl⟩ := parseHostnameField_error hparse
    have hrefused : ∀ s, value = .str s →
        ¬ (IsHostname s ∨ ∃ name, IsLabel name ∧ s = name ++ [10]) := by
      rintro s rfl h
      rw [parseHostnameField_ok_iff.mpr h] at hparse
      cases hparse
    constructor
    · rintro - ⟨name, h, rfl⟩
      exact hrefused _ rfl (Or.inr ⟨name, h, rfl⟩)
    · intro _
      refine Or.inr ⟨?_, message, rfl⟩
      rintro ⟨s, rfl, h⟩
      exact hrefused s rfl (Or.inl h)

/-- **`parse_hostname` keeps to the grammar exactly for the values that are not a name with a
newline after it.** -/
theorem parse_hostname_iff {fields : PyDict} {value : Json}
    (hvalue : PyDict.get? fields "hostname" = some value) :
    KeepsGrammar value (parseHostname (.ok (.dict fields))) ↔ ¬ LabelWithNewline value := by
  have hparse : parseHostname (.ok (.dict fields)) = parseHostnameField value := by
    simp only [parseHostname, requiredField, hvalue]
    rfl
  rw [hparse]
  exact keepsGrammar_field_iff value

/-- A hostname of the documentation. -/
theorem parse_hostname_iff_grandpilot :
    KeepsGrammar (.str (py "grandpilot"))
      (parseHostname (.ok (.dict [(py "hostname", .str (py "grandpilot"))]))) := by
  refine (parse_hostname_iff rfl).mpr ?_
  rintro ⟨name, -, h⟩
  have hlast := congrArg List.getLast? (Json.str.inj h)
  rw [List.getLast?_concat] at hlast
  exact absurd hlast (by decide)

/-- **A newline at the end is accepted.** -/
theorem newline_accepted :
    parseHostname (.ok (.dict [(py "hostname", .str (py "grandpilot\n"))]))
        = .ok (py "grandpilot\n") ∧
      ¬ KeepsGrammar (.str (py "grandpilot\n"))
        (parseHostname (.ok (.dict [(py "hostname", .str (py "grandpilot\n"))]))) := by
  have hparse : parseHostname (.ok (.dict [(py "hostname", .str (py "grandpilot\n"))]))
      = .ok (py "grandpilot\n") := rfl
  refine ⟨hparse, ?_⟩
  rw [hparse]
  rintro (⟨s, hs, hhost, -⟩ | ⟨-, message, h⟩)
  · cases hs
    exact hhost.name.notMem (c := 10) (by decide) (by decide)
  · cases h

end TinyPilotKvm
