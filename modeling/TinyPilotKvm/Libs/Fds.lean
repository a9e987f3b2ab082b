/-
# Descriptors: what a process owns and what it closes

A process may close only a descriptor that it has obtained and not closed yet; closing
another number closes somebody else's file.  `Fds` keeps the account: `owned` are the
descriptors obtained and not closed, and `strays` the numbers that were closed all the
same.  Numbers repeat, since the kernel reuses them, so the account is one of multiplicities.

`Covers w xs` says that every close still to come is paid for: `xs` are the variables that hold
descriptors (a negative one holds none), and `w` owns each number at least as often as they
hold it.  Opening and closing keep it, and as long as it holds nothing is closed astray.
-/
import Mathlib.Algebra.Order.Group.Int
import Mathlib.Data.List.Count

namespace TinyPilotKvm

structure Fds where
  owned : List Int
  strays : List Int
  deriving DecidableEq

namespace Fds

/-- A system call has returned a new descriptor. -/
def opened (w : Fds) (fd : Int) : Fds := { w with owned := fd :: w.owned }

/-- `close(fd)`. -/
def closed (w : Fds) (fd : Int) : Fds :=
  if fd ∈ w.owned then { w with owned := w.owned.erase fd }
  else { w with strays := fd :: w.strays }

/-- Close what a variable holds, if it holds anything: `if (x >= 0) { close(x); x = -1; }`. -/
def closeVar (w : Fds) (x : Int) : Fds := if 0 ≤ x then w.closed x else w

/-- Close what each of the variables holds. -/
def closeAll (w : Fds) (xs : List Int) : Fds := xs.foldl closeVar w

@[simp] theorem closeAll_nil (w : Fds) : w.closeAll [] = w := rfl

@[simp] theorem closeAll_cons (w : Fds) (x : Int) (xs : List Int) :
    w.closeAll (x :: xs) = (w.closeVar x).closeAll xs := rfl

theorem closeAll_append (w : Fds) (xs ys : List Int) :
    w.closeAll (xs ++ ys) = (w.closeAll xs).closeAll ys :=
  List.foldl_append

/-- Nothing has been closed astray, and every variable of `xs` that holds a descriptor holds one
that is owned. -/
structure Covers (w : Fds) (xs : List Int) : Prop where
  strays : w.strays = []
  count_le : ∀ x, 0 ≤ x → xs.count x ≤ w.owned.count x

variable {w : Fds} {x : Int} {xs ys : List Int}

/-- Variables that hold as much or less are covered as well. -/
theorem Covers.mono (h : w.Covers xs) (hle : ∀ x, 0 ≤ x → ys.count x ≤ xs.count x) : w.Covers ys :=
  ⟨h.strays, fun x hx => (hle x hx).trans (h.count_le x hx)⟩

/-- A new descriptor covers the variable it is stored in. -/
theorem Covers.opened (h : w.Covers xs) (fd : Int) : (w.opened fd).Covers (fd :: xs) := by
  refine ⟨h.strays, fun x hx => ?_⟩
  have := h.count_le x hx
  simp only [Fds.opened, List.count_cons]
  omega

/-- **Closing a covered variable** closes no stray and leaves the others covered. -/
theorem Covers.closeVar (h : w.Covers (x :: xs)) : (w.closeVar x).Covers xs := by
  by_cases hx : 0 ≤ x
  · have hx1 := h.count_le x hx
    rw [List.count_cons_self] at hx1
    have hmem : x ∈ w.owned := List.count_pos_iff.mp (by omega)
    have heq : w.closeVar x = { w with owned := w.owned.erase x } := by
      rw [Fds.closeVar, if_pos hx, closed, if_pos hmem]
    rw [heq]
    refine ⟨h.strays, fun y hy => ?_⟩
    have hy1 := h.count_le y hy
    rw [List.count_cons] at hy1
    rw [List.count_erase]
    by_cases hxy : x = y
    · subst hxy
      simp only [beq_self_eq_true, if_true] at hy1 ⊢
      omega
    · simp only [beq_iff_eq, hxy, if_false] at hy1 ⊢
      omega
  · rw [Fds.closeVar, if_neg hx]
    refine h.mono fun y hy => ?_
    rw [List.count_cons]
    omega

/-- Closing covered variables one after the other. -/
theorem Covers.closeAll : ∀ (xs : List Int) {w : Fds}, w.Covers (xs ++ ys) →
    (w.closeAll xs).Covers ys
  | [], _, h => h
  | _ :: xs, _, h => Covers.closeAll xs (Covers.closeVar h)

/-- An account without strays has paid for every close. -/
theorem length_le_of_closeAll : ∀ (xs : List Int) (w : Fds), (∀ x ∈ xs, 0 ≤ x) →
    (w.closeAll xs).strays = [] → w.strays = [] ∧ xs.length ≤ w.owned.length
  | [], _, _, h => ⟨h, Nat.zero_le _⟩
  | x :: xs, w, hx, h => by
    obtain ⟨hs, hle⟩ := length_le_of_closeAll xs (w.closeVar x)
      (fun y hy => hx y (List.mem_cons_of_mem x hy)) h
    rw [Fds.closeVar, if_pos (hx x List.mem_cons_self), closed] at hs hle
    split at hs
    · rename_i hmem
      rw [if_pos hmem] at hle
      have hpos := List.length_pos_of_mem hmem
      simp only [List.length_erase_of_mem hmem] at hle
      exact ⟨hs, by rw [List.length_cons]; omega⟩
    · exact absurd hs (by simp)

/-- A variable that holds nothing is not closed. -/
theorem closeVar_of_neg (w : Fds) (h : x < 0) : w.closeVar x = w :=
  if_neg (not_le.mpr h)

theorem closeAll_of_neg (w : Fds) : ∀ (xs : List Int), (∀ x ∈ xs, x < 0) → w.closeAll xs = w
  | [], _ => rfl
  | x :: xs, h => by
    rw [closeAll_cons, closeVar_of_neg w (h x List.mem_cons_self)]
    exact closeAll_of_neg w xs fun y hy => h y (List.mem_cons_of_mem x hy)

end Fds

end TinyPilotKvm
