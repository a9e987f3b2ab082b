/-
# Anchored patterns

`re.compile(r'^[…]{1,n}$').match`.  **The `$` also stands before a newline at the end of a text**,
so such a pattern matches a name, and a name with a newline after it.
-/
import TinyPilotKvm.Python.Values

namespace TinyPilotKvm
namespace PyStr

variable {inClass : Nat → Bool} {max : Nat}

/-- A match of `^[…]{1,max}$`. -/
def matchesAnchored (inClass : Nat → Bool) (max : Nat) (s : PyStr) : Bool :=
  let name := if s.getLast? = some 10 then s.dropLast else s
  name.all inClass && 1 ≤ name.length && name.length ≤ max

/-- One to `max` characters of a class. -/
structure IsName (inClass : Nat → Bool) (max : Nat) (s : PyStr) : Prop where
  nonempty : 1 ≤ s.length
  length_le : s.length ≤ max
  inClass : ∀ c ∈ s, inClass c = true

instance (inClass : Nat → Bool) (max : Nat) (s : PyStr) : Decidable (IsName inClass max s) :=
  decidable_of_iff (1 ≤ s.length ∧ s.length ≤ max ∧ ∀ c ∈ s, inClass c = true)
    ⟨fun h => ⟨h.1, h.2.1, h.2.2⟩, fun h => ⟨h.nonempty, h.length_le, h.inClass⟩⟩

theorem IsName.ne_nil {s : PyStr} (h : IsName inClass max s) : s ≠ [] := by
  rintro rfl
  exact absurd h.nonempty (by decide)

theorem IsName.notMem {s : PyStr} (h : IsName inClass max s) {c : Nat} (hc : inClass c = false) :
    c ∉ s := by
  intro hmem
  rw [h.inClass c hmem] at hc
  exact Bool.noConfusion hc

/-- The part of a match that is not the newline. -/
theorem isName_iff {s : PyStr} :
    (s.all inClass && 1 ≤ s.length && s.length ≤ max) = true ↔ IsName inClass max s := by
  rw [Bool.and_eq_true, Bool.and_eq_true, List.all_eq_true, decide_eq_true_eq, decide_eq_true_eq]
  exact ⟨fun h => ⟨h.1.2, h.2, h.1.1⟩, fun h => ⟨⟨h.inClass, h.nonempty⟩, h.length_le⟩⟩

/-- **What an anchored pattern matches**, if a newline is not in its class. -/
theorem matchesAnchored_iff (hnew : inClass 10 = false) {s : PyStr} :
    matchesAnchored inClass max s = true ↔
      IsName inClass max s ∨ ∃ name, IsName inClass max name ∧ s = name ++ [10] := by
  unfold matchesAnchored
  dsimp only
  rw [isName_iff]
  split
  · rename_i hlast
    have hs : s = s.dropLast ++ [10] := (List.dropLast_append_getLast? 10 hlast).symm
    constructor
    · intro h
      exact Or.inr ⟨s.dropLast, h, hs⟩
    · rintro (h | ⟨name, h, heq⟩)
      · exact absurd (List.mem_of_getLast? hlast) (h.notMem hnew)
      · rwa [heq, List.dropLast_concat]
  · rename_i hlast
    constructor
    · intro h
      exact Or.inl h
    · rintro (h | ⟨name, -, rfl⟩)
      · exact h
      · exact absurd List.getLast?_concat hlast

end PyStr
end TinyPilotKvm
