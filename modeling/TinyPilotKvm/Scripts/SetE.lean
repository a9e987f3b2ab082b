/-
# Commands under `set -e`

A script under `set -e` is a list of commands that ends with the first one that fails.  What every
command keeps, the script keeps, however far it comes (`setE_keeps`).
-/
import Mathlib.Data.List.Basic

namespace TinyPilotKvm
namespace Bash

variable {σ : Type}

/-- A command: its exit status, and what it leaves behind. -/
abbrev Command (σ : Type) := σ → Nat × σ

/-- One after the other, up to the first that fails. -/
def setE : List (Command σ) → Command σ
  | [], s => (0, s)
  | c :: cs, s => if (c s).1 = 0 then setE cs (c s).2 else c s

/-- A command that does its work. -/
def does (f : σ → σ) : Command σ := fun s => (0, f s)

/-- A program with its exit status, and what it does if that is zero. -/
def program (status : Nat) (f : σ → σ) : Command σ := fun s =>
  (status, if status = 0 then f s else s)

theorem setE_cons_does (f : σ → σ) (cs : List (Command σ)) (s : σ) :
    setE (does f :: cs) s = setE cs (f s) := rfl

theorem setE_cons_of_ok {c : Command σ} {s : σ} (h : (c s).1 = 0) (cs : List (Command σ)) :
    setE (c :: cs) s = setE cs (c s).2 := by
  rw [setE, if_pos h]

theorem setE_cons_of_failed {c : Command σ} {s : σ} (h : (c s).1 ≠ 0) (cs : List (Command σ)) :
    setE (c :: cs) s = c s := by
  rw [setE, if_neg h]

theorem setE_cons_program {status : Nat} (h : status = 0) (f : σ → σ) (cs : List (Command σ))
    (s : σ) : setE (program status f :: cs) s = setE cs (f s) := by
  rw [setE_cons_of_ok h, program, if_pos h]

theorem setE_cons_program_of_failed {status : Nat} (h : status ≠ 0) (f : σ → σ)
    (cs : List (Command σ)) (s : σ) : setE (program status f :: cs) s = (status, s) := by
  rw [setE_cons_of_failed h, program, if_neg h]

/-- **What every command keeps** is kept by a script, also if it fails. -/
theorem setE_keeps {I : σ → Prop} {cs : List (Command σ)} (h : ∀ c ∈ cs, ∀ s, I s → I (c s).2) :
    ∀ s, I s → I (setE cs s).2 := by
  induction cs with
  | nil =>
    intro s hs
    exact hs
  | cons c cs ih =>
    intro s hs
    obtain ⟨hc, hcs⟩ := List.forall_mem_cons.mp h
    rw [setE]
    split
    · exact ih hcs _ (hc s hs)
    · exact hc s hs

theorem does_keeps {I : σ → Prop} {f : σ → σ} (h : ∀ s, I s → I (f s)) :
    ∀ s, I s → I (does f s).2 := h

theorem program_keeps {I : σ → Prop} {status : Nat} {f : σ → σ} (h : ∀ s, I s → I (f s)) :
    ∀ s, I s → I (program status f s).2 := by
  intro s hs
  show I (if status = 0 then f s else s)
  split
  · exact h s hs
  · exact hs

end Bash
end TinyPilotKvm
