/-
# Interleavings of two lists

`Interleaving xs ys zs`: `zs` consists of the elements of `xs` and of `ys`, each list in its own
order.  It is what two threads that append to one list leave there.
-/
import Mathlib.Data.List.Basic

namespace TinyPilotKvm

variable {α β : Type}

/-- `zs` is an order-preserving merge of `xs` and `ys`. -/
inductive Interleaving : List α → List α → List α → Prop
  | nil : Interleaving [] [] []
  | left {x : α} {xs ys zs : List α} : Interleaving xs ys zs → Interleaving (x :: xs) ys (x :: zs)
  | right {y : α} {xs ys zs : List α} : Interleaving xs ys zs → Interleaving xs (y :: ys) (y :: zs)

namespace Interleaving

variable {xs ys zs : List α}

/-- Nothing is lost and nothing is doubled. -/
theorem length (h : Interleaving xs ys zs) : zs.length = xs.length + ys.length := by
  induction h with
  | nil => rfl
  | left _ ih =>
    simp only [List.length_cons]
    omega
  | right _ ih =>
    simp only [List.length_cons]
    omega

theorem mem_iff (h : Interleaving xs ys zs) {z : α} : z ∈ zs ↔ z ∈ xs ∨ z ∈ ys := by
  induction h with
  | nil => simp
  | left _ ih => rw [List.mem_cons, List.mem_cons, ih, or_assoc]
  | right _ ih => rw [List.mem_cons, List.mem_cons, ih, or_left_comm]

/-- The first list goes on at the end. -/
theorem snoc_left (h : Interleaving xs ys zs) (x : α) :
    Interleaving (xs ++ [x]) ys (zs ++ [x]) := by
  induction h with
  | nil => exact .left .nil
  | left _ ih => exact .left ih
  | right _ ih => exact .right ih

/-- The second list goes on at the end. -/
theorem snoc_right (h : Interleaving xs ys zs) (y : α) :
    Interleaving xs (ys ++ [y]) (zs ++ [y]) := by
  induction h with
  | nil => exact .right .nil
  | left _ ih => exact .left ih
  | right _ ih => exact .right ih

theorem append_left (h : Interleaving xs ys zs) (l : List α) :
    Interleaving (l ++ xs) ys (l ++ zs) := by
  induction l with
  | nil => exact h
  | cons x l ih => exact .left ih

theorem append_right (h : Interleaving xs ys zs) (l : List α) :
    Interleaving xs (l ++ ys) (l ++ zs) := by
  induction l with
  | nil => exact h
  | cons y l ih => exact .right ih

/-- Every element stands for a list of its own. -/
theorem flatMap (h : Interleaving xs ys zs) (f : α → List β) :
    Interleaving (xs.flatMap f) (ys.flatMap f) (zs.flatMap f) := by
  induction h with
  | nil => exact .nil
  | left _ ih =>
    simp only [List.flatMap_cons]
    exact ih.append_left _
  | right _ ih =>
    simp only [List.flatMap_cons]
    exact ih.append_right _

end Interleaving

end TinyPilotKvm
