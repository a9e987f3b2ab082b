/-
# Computations that may fail

What can be said of a sequence of steps in `Except`, and of a loop, when it has succeeded.
-/
import Mathlib.Data.List.Basic

namespace TinyPilotKvm

theorem bind_eq_ok {ε α β : Type} {x : Except ε α} {f : α → Except ε β} {b : β}
    (h : x >>= f = .ok b) : ∃ a, x = .ok a ∧ f a = .ok b := by
  cases x with
  | error e => exact absurd h (by simp [bind, Except.bind])
  | ok a => exact ⟨a, rfl, h⟩

theorem bind_of_ok {ε α β : Type} {x : Except ε α} {f : α → Except ε β} {a : α} (h : x = .ok a) :
    x >>= f = f a := by
  rw [h]
  rfl

theorem bind_eq_error {ε α β : Type} {x : Except ε α} {f : α → Except ε β} {e : ε}
    (h : x >>= f = .error e) : x = .error e ∨ ∃ a, x = .ok a ∧ f a = .error e := by
  cases x with
  | error e' =>
    obtain rfl := Except.error.inj h
    exact Or.inl rfl
  | ok a => exact Or.inr ⟨a, rfl, h⟩

theorem mapError_eq_error {ε ε' α : Type} {x : Except ε α} {g : ε → ε'} {e : ε'}
    (h : x.mapError g = .error e) : ∃ e', x = .error e' ∧ e = g e' := by
  cases x with
  | error e' =>
    cases h
    exact ⟨e', rfl, rfl⟩
  | ok a => cases h

/-- A value that has to be there and to pass a check, with the error of each. -/
def checkValue {ε α : Type} (found : Option α) (P : α → Prop) [DecidablePred P]
    (missing wrong : ε) : Except ε α :=
  match found with
  | none => .error missing
  | some a => if P a then .ok a else .error wrong

theorem checkValue_eq_ok {ε α : Type} {found : Option α} {P : α → Prop} [DecidablePred P]
    {missing wrong : ε} {a : α} :
    checkValue found P missing wrong = .ok a ↔ found = some a ∧ P a := by
  unfold checkValue
  cases found with
  | none => simp
  | some b =>
    dsimp only
    constructor
    · intro h
      split at h
      · cases h
        exact ⟨rfl, by assumption⟩
      · cases h
    · rintro ⟨hb, hP⟩
      cases hb
      exact if_pos hP

/-- What every turn of a loop keeps, the loop keeps. -/
theorem foldlM_invariant {σ α ε : Type} {f : σ → α → Except ε σ} {P : σ → Prop} :
    ∀ {l : List α}, (∀ a ∈ l, ∀ s s', f s a = .ok s' → P s → P s') →
      ∀ {s s' : σ}, l.foldlM f s = .ok s' → P s → P s'
  | [], _, s, s', h, hs => by
    obtain rfl := Except.ok.inj h
    exact hs
  | a :: l, hf, s, s', h, hs => by
    rw [List.foldlM_cons] at h
    obtain ⟨s₁, hturn, h⟩ := bind_eq_ok h
    have hs₁ := hf a List.mem_cons_self s s₁ hturn hs
    exact foldlM_invariant (fun b hb => hf b (List.mem_cons_of_mem _ hb)) h hs₁

end TinyPilotKvm
