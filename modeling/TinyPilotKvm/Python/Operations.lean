/-
# Operations on decoded JSON

`json.loads` may give a value of any type where another one is expected.  These are Python's
operations on such a value, with the exceptions that they raise; a key is a text here.

`ifField_ok_iff` says when `if name in v: … v[name] …` ends without an exception of its own.
-/
import Mathlib.Data.List.Infix
import TinyPilotKvm.Fallible
import TinyPilotKvm.Python.Values

namespace TinyPilotKvm

inductive PyRaise
  | typeError
  | keyError
  | indexError
  | attributeError
  | jsonDecodeError
  /-- A `ValueError` that is no `JSONDecodeError`, as for a number with too many digits. -/
  | valueError
  | recursionError
  deriving DecidableEq

/-- The keys, in the order in which they were first assigned. -/
def PyDict.keys (d : PyDict) : List PyStr := (d.map Prod.fst).eraseDups

namespace Json

/-- `len(v)`. -/
def len : Json → Except PyRaise Nat
  | .str s => .ok s.length
  | .list items => .ok items.length
  | .dict fields => .ok (PyDict.keys fields).length
  | _ => .error .typeError

/-- `v[0]`. -/
def first : Json → Except PyRaise Json
  | .str (c :: _) => .ok (.str [c])
  | .list (item :: _) => .ok item
  | .str [] | .list [] => .error .indexError
  | .dict _ => .error .keyError
  | _ => .error .typeError

/-- `v == text`. -/
def isText (text : String) : Json → Bool
  | .str s => s = py text
  | _ => false

/-- `name in v`: a part of a text, an element of a list, a key of a dictionary. -/
def contains (name : String) : Json → Except PyRaise Bool
  | .str s => .ok (decide (py name <:+: s))
  | .list items => .ok (items.any (isText name))
  | .dict fields => .ok (PyDict.get? fields name).isSome
  | _ => .error .typeError

/-- `v[name]`. -/
def item (name : String) : Json → Except PyRaise Json
  | .dict fields =>
    match PyDict.get? fields name with
    | some value => .ok value
    | none => .error .keyError
  | _ => .error .typeError

/-- What `for x in v` goes through. -/
def elements : Json → Except PyRaise (List Json)
  | .str s => .ok (s.map fun c => .str [c])
  | .list items => .ok items
  | .dict fields => .ok ((PyDict.keys fields).map .str)
  | _ => .error .typeError

/-- `hash(v)`, which a key of a dictionary needs. -/
def hash : Json → Except PyRaise Unit
  | .list _ | .dict _ => .error .typeError
  | _ => .ok ()

/-- `d[v]`, for a dictionary whose keys are texts. -/
def lookup {α : Type} (d : List (PyStr × α)) (v : Json) : Except PyRaise α := do
  v.hash
  match v with
  | .str s =>
    match d.lookup s with
    | some value => return value
    | none => throw .keyError
  | _ => throw .keyError

/-- `if name in v: … v[name] …`. -/
def ifField {α : Type} (v : Json) (name : String) (absent : α) (present : Json → Except PyRaise α) :
    Except PyRaise α := do
  if ← v.contains name then present (← v.item name) else return absent

/-! ## What the operations say -/

variable {α : Type} {name : String} {absent : α} {present : Json → Except PyRaise α}

theorem isText_iff {v : Json} : isText name v = true ↔ v = .str (py name) := by
  cases v with
  | str s => simp [isText]
  | null | bool | int | float | list | dict => simp [isText]

/-- A text or a list without the name in it. -/
inductive Lacks (name : String) : Json → Prop
  | str {s : PyStr} (h : ¬ py name <:+: s) : Lacks name (.str s)
  | list {items : List Json} (h : ∀ item ∈ items, item ≠ .str (py name)) : Lacks name (.list items)

theorem contains_of_lacks {v : Json} (h : Lacks name v) : v.contains name = .ok false := by
  cases h with
  | str h => exact congrArg Except.ok (decide_eq_false h)
  | list h =>
    refine congrArg Except.ok (List.any_eq_false.mpr fun item hmem htext => ?_)
    exact h item hmem (isText_iff.mp htext)

theorem ifField_of_lacks {v : Json} (h : Lacks name v) :
    v.ifField name absent present = .ok absent := by
  unfold ifField
  rw [contains_of_lacks h]
  rfl

theorem item_dict {fields : PyDict} {value : Json} (h : PyDict.get? fields name = some value) :
    (Json.dict fields).item name = .ok value := by
  unfold item
  dsimp only
  rw [h]

theorem item_eq_ok {v value : Json} (h : v.item name = .ok value) :
    ∃ fields, v = .dict fields ∧ PyDict.get? fields name = some value := by
  cases v with
  | dict fields =>
    refine ⟨fields, rfl, ?_⟩
    unfold item at h
    dsimp only at h
    split at h
    · cases h
      assumption
    · cases h
  | null | bool | int | float | str | list => cases h

theorem ifField_dict (fields : PyDict) : (Json.dict fields).ifField name absent present
    = match PyDict.get? fields name with
      | some value => present value
      | none => .ok absent := by
  have hcontains : (Json.dict fields).contains name = .ok (PyDict.get? fields name).isSome := rfl
  unfold ifField
  rw [hcontains]
  cases hget : PyDict.get? fields name with
  | some value =>
    rw [item_dict hget]
    rfl
  | none => rfl

/-- **An access that is guarded** ends with no exception for a text or a list without the name, and
for a dictionary whose value is read without one. -/
theorem ifField_ok_iff {v : Json} : (∃ a, v.ifField name absent present = .ok a) ↔
    Lacks name v ∨ ∃ fields, v = .dict fields ∧
      ∀ value, PyDict.get? fields name = some value → ∃ a, present value = .ok a := by
  constructor
  · rintro ⟨a, h⟩
    unfold ifField at h
    obtain ⟨found, hfound, h⟩ := bind_eq_ok h
    cases v with
    | str s =>
      refine Or.inl (.str fun hinfix => ?_)
      obtain rfl := Except.ok.inj hfound
      rw [decide_eq_true hinfix] at h
      cases h
    | list items =>
      refine Or.inl (.list fun item hmem hitem => ?_)
      obtain rfl := Except.ok.inj hfound
      rw [List.any_eq_true.mpr ⟨item, hmem, isText_iff.mpr hitem⟩] at h
      cases h
    | dict fields =>
      refine Or.inr ⟨fields, rfl, fun value hvalue => ⟨a, ?_⟩⟩
      obtain rfl := Except.ok.inj hfound
      rw [hvalue, item_dict hvalue] at h
      exact h
    | null | bool | int | float => cases hfound
  · rintro (h | ⟨fields, rfl, h⟩)
    · exact ⟨absent, ifField_of_lacks h⟩
    · rw [ifField_dict]
      cases hget : PyDict.get? fields name with
      | some value => exact h value hget
      | none => exact ⟨absent, rfl⟩

theorem keys_cons_ne_nil (field : PyStr × Json) (fields : PyDict) :
    (PyDict.keys (field :: fields)).length ≠ 0 := by
  rw [PyDict.keys, List.map_cons, List.eraseDups_cons, List.length_cons]
  exact Nat.succ_ne_zero _

/-- What a key of a dictionary may be: no list and no dictionary. -/
def IsHashable (v : Json) : Prop := (∀ items, v ≠ .list items) ∧ ∀ fields, v ≠ .dict fields

theorem hashable_str (s : PyStr) : IsHashable (.str s) := by
  constructor
  · intro items h
    cases h
  · intro fields h
    cases h

theorem lookup_of_not_hashable {d : List (PyStr × α)} {v : Json} (h : ¬ IsHashable v) :
    v.lookup d = .error .typeError := by
  cases v with
  | list | dict => rfl
  | null | bool | int | float | str =>
    refine absurd ⟨?_, ?_⟩ h
    all_goals
      intro _ heq
      cases heq

/-- A key of the right kind is there, or it is not. -/
theorem lookup_of_hashable {d : List (PyStr × α)} {v : Json} (h : IsHashable v) :
    (∃ value, v.lookup d = .ok value) ∨ v.lookup d = .error .keyError := by
  cases v with
  | list items => exact absurd rfl (h.1 items)
  | dict fields => exact absurd rfl (h.2 fields)
  | null | bool | int | float => exact Or.inr rfl
  | str s =>
    unfold lookup
    dsimp only
    cases d.lookup s with
    | some value => exact Or.inl ⟨value, rfl⟩
    | none => exact Or.inr rfl

end Json

end TinyPilotKvm
