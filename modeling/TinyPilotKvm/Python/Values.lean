/-
# Python values: texts and decoded JSON

A Python text is a sequence of code points, lone surrogates included.  `json.loads` gives `None`,
booleans, numbers, texts, lists and dictionaries.
-/
import Mathlib.Data.List.Basic

namespace TinyPilotKvm

/-- A `str`. -/
abbrev PyStr : Type := List Nat

/-- A literal. -/
def py (s : String) : PyStr := s.toList.map Char.toNat

/-- What `json.loads` returns.  A float is given by its `repr`. -/
inductive Json
  | null
  | bool (b : Bool)
  | int (n : Int)
  | float (repr : PyStr)
  | str (s : PyStr)
  | list (items : List Json)
  | dict (fields : List (PyStr × Json))

/-- A `dict` by its assignments, first to last. -/
abbrev PyDict : Type := List (PyStr × Json)

/-- `d.get(name)`: the last assignment counts. -/
def PyDict.get? (d : PyDict) (name : String) : Option Json := d.reverse.lookup (py name)

/-- `d.update(d')`. -/
def PyDict.update (d d' : PyDict) : PyDict := d ++ d'

end TinyPilotKvm
