/-
# The records of a list

An element is a RECORD if its key exceeds a bound and every key before it; an element without a
key is passed over.  Whoever keeps the greatest key seen so far (`recordKey`) and takes an element
only if its key is greater takes the records, in the order of the list, and their keys increase
strictly.
-/
import Mathlib.Order.Basic
import Mathlib.Order.Lattice

namespace TinyPilotKvm

variable {α β : Type} [LinearOrder β] {key key' : α → Option β}

/-- The greatest of `last` and the keys of a list. -/
def recordKey (key : α → Option β) : β → List α → β
  | last, [] => last
  | last, x :: xs => recordKey key (max last ((key x).getD last)) xs

/-- The elements whose key exceeds `last` and every key before them. -/
def records (key : α → Option β) : β → List α → List α
  | _, [] => []
  | last, x :: xs =>
    let rest := records key (max last ((key x).getD last)) xs
    if last < (key x).getD last then x :: rest else rest

theorem le_recordKey : ∀ (last : β) (xs : List α), last ≤ recordKey key last xs
  | _, [] => le_refl _
  | last, x :: xs =>
    (le_max_left last ((key x).getD last)).trans (le_recordKey (max last ((key x).getD last)) xs)

theorem key_le_recordKey {x : α} {k : β} (hk : key x = some k) :
    ∀ (last : β) (xs : List α), x ∈ xs → k ≤ recordKey key last xs
  | _, [], hx => absurd hx List.not_mem_nil
  | last, y :: xs, hx => by
    rcases List.mem_cons.mp hx with rfl | hx
    · have hle : max last ((key x).getD last) ≤ recordKey key (max last ((key x).getD last)) xs :=
        le_recordKey _ xs
      rw [hk, Option.getD_some] at hle
      unfold recordKey
      rw [hk, Option.getD_some]
      exact (le_max_right last k).trans hle
    · exact key_le_recordKey hk _ xs hx

theorem recordKey_append : ∀ (last : β) (xs ys : List α),
    recordKey key last (xs ++ ys) = recordKey key (recordKey key last xs) ys
  | _, [], _ => rfl
  | last, x :: xs, ys => recordKey_append (max last ((key x).getD last)) xs ys

theorem records_append : ∀ (last : β) (xs ys : List α),
    records key last (xs ++ ys) = records key last xs ++ records key (recordKey key last xs) ys
  | _, [], _ => rfl
  | last, x :: xs, ys => by
    simp only [List.cons_append, records, recordKey, records_append _ xs ys]
    split
    · rfl
    · rfl

theorem records_sublist : ∀ (last : β) (xs : List α), (records key last xs).Sublist xs
  | _, [] => .slnil
  | last, x :: xs => by
    simp only [records]
    split
    · exact (records_sublist _ xs).cons_cons x
    · exact (records_sublist _ xs).cons x

/-- A record has a key, and it exceeds the bound. -/
theorem lt_of_mem_records {x : α} : ∀ (last : β) (xs : List α), x ∈ records key last xs →
    ∃ k, key x = some k ∧ last < k
  | _, [], hx => absurd hx List.not_mem_nil
  | last, y :: xs, hx => by
    have hrest (h : x ∈ records key (max last ((key y).getD last)) xs) :
        ∃ k, key x = some k ∧ last < k := by
      obtain ⟨k, hk, hlt⟩ := lt_of_mem_records _ xs h
      exact ⟨k, hk, (le_max_left _ _).trans_lt hlt⟩
    simp only [records] at hx
    split at hx
    · rename_i hlt
      rcases List.mem_cons.mp hx with rfl | hx
      · cases hk : key x with
        | none =>
          rw [hk] at hlt
          exact absurd hlt (lt_irrefl _)
        | some k =>
          rw [hk] at hlt
          exact ⟨k, rfl, hlt⟩
      · exact hrest hx
    · exact hrest hx

/-- `x` has a smaller key than `y`. -/
def KeyLt (key : α → Option β) (x y : α) : Prop :=
  ∃ kx ky, key x = some kx ∧ key y = some ky ∧ kx < ky

/-- **The keys of the records increase strictly.** -/
theorem records_pairwise : ∀ (last : β) (xs : List α),
    (records key last xs).Pairwise (KeyLt key)
  | _, [] => .nil
  | last, x :: xs => by
    simp only [records]
    split
    · rename_i hlt
      refine .cons (fun y hy => ?_) (records_pairwise _ xs)
      obtain ⟨ky, hky, hlty⟩ := lt_of_mem_records _ xs hy
      cases hk : key x with
      | none =>
        rw [hk] at hlt
        exact absurd hlt (lt_irrefl _)
      | some kx =>
        rw [hk] at hlty
        exact ⟨kx, ky, hk, hky, (le_max_right _ _).trans_lt hlty⟩
    · exact records_pairwise _ xs

/-- Nothing behind an element with a key that is at least as great is a record. -/
theorem notMem_records {last : β} {xs ys : List α} {x y : α} {kx ky : β} (hx : x ∈ xs)
    (hkx : key x = some kx) (hy : y ∉ xs) (hky : key y = some ky) (hle : ky ≤ kx) :
    y ∉ records key last (xs ++ ys) := by
  rw [records_append, List.mem_append]
  rintro (hmem | hmem)
  · exact hy ((records_sublist last xs).subset hmem)
  · obtain ⟨k, hk, hlt⟩ := lt_of_mem_records _ ys hmem
    obtain rfl := Option.some.inj (hky.symm.trans hk)
    exact absurd (hlt.trans_le hle) (not_lt_of_ge (key_le_recordKey hkx last xs hx))

/-- Only the keys of the list's own elements count. -/
theorem records_congr : ∀ {last : β} {xs : List α}, (∀ x ∈ xs, key x = key' x) →
    records key last xs = records key' last xs
  | _, [], _ => rfl
  | last, x :: xs, h => by
    obtain ⟨hx, hxs⟩ := List.forall_mem_cons.mp h
    simp only [records, hx, records_congr hxs]

theorem recordKey_congr : ∀ {last : β} {xs : List α}, (∀ x ∈ xs, key x = key' x) →
    recordKey key last xs = recordKey key' last xs
  | _, [], _ => rfl
  | last, x :: xs, h => by
    obtain ⟨hx, hxs⟩ := List.forall_mem_cons.mp h
    simp only [recordKey, hx, recordKey_congr hxs]

end TinyPilotKvm
