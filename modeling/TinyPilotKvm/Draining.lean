/-
# Runs that come to an end

A system winds down when every step that counts lowers a rank, and each of the other ones raises it
by no more than a credit.  Then the steps of a run that count are no more than the rank of its first
state and the credit of the other steps (`Draining.exec`), and what is left to show of a particular
system is that a state in which no such step is possible (`Settled`) is the one that is waited for.
-/
import TinyPilotKvm.Transition

namespace TinyPilotKvm.System

variable {σ α : Type} {M : System σ α}

/-- The steps that meet `ok` keep `I`; those of them that count lower `rank`, and the other ones
raise it by at most `credit`. -/
structure Draining (M : System σ α) (I : σ → Prop) (ok : α → Prop) (counts : α → Bool)
    (credit : Nat) (rank : σ → Nat) : Prop where
  step : ∀ s s' a, I s → ok a → M.step s a = some s' →
    I s' ∧ rank s' + (counts a).toNat ≤ rank s + credit * (!counts a).toNat

/-- No step that counts is possible. -/
def Settled (M : System σ α) (counts : α → Bool) (s : σ) : Prop :=
  ∀ a, counts a = true → M.step s a = none

/-- **A run** has no more steps that count than its first state and its other steps allow. -/
theorem Draining.exec {I : σ → Prop} {ok : α → Prop} {counts : α → Bool} {credit : Nat}
    {rank : σ → Nat} (h : M.Draining I ok counts credit rank) : ∀ {as : List α} {s s' : σ}, I s →
    (∀ a ∈ as, ok a) → M.exec s as = some s' →
      I s' ∧ as.countP counts + rank s' ≤ rank s + credit * as.countP fun a => !counts a
  | [], s, s', hI, _, hexec => by
    obtain rfl := Option.some.inj hexec
    exact ⟨hI, by simp⟩
  | a :: as, s, s', hI, hok, hexec => by
    obtain ⟨t, hstep, hexec⟩ := exec_cons_eq_some.mp hexec
    obtain ⟨ht, hrank⟩ := h.step s t a hI (hok a List.mem_cons_self) hstep
    obtain ⟨hs', hle⟩ := h.exec ht (fun b hb => hok b (List.mem_cons_of_mem a hb)) hexec
    refine ⟨hs', ?_⟩
    rw [List.countP_cons, List.countP_cons, Nat.mul_add]
    cases hcount : counts a <;> simp [hcount] at hrank ⊢ <;> omega

end TinyPilotKvm.System
