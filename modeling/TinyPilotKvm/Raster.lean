/-
# Rasters that are read with running pointers

A picture is read row by row and pixel by pixel by loops that keep pointers: each turn yields an
item, moves the pointers, and may fail.  `turns` is such a loop.  If it is known where the pointers
are before each turn, a loop is the collection of its items (`turns_eq`), and a loop of loops is a
`raster`: a function of a column and a row, read everywhere.
-/
import Mathlib.Data.List.Basic

namespace TinyPilotKvm
namespace Raster

variable {σ α β : Type}

/-- `count` turns from number `i` on, each in the state that the one before has left. -/
def turns (turn : Nat → σ → Option (α × σ)) : Nat → Nat → σ → Option (List α × σ)
  | 0, _, s => some ([], s)
  | count + 1, i, s =>
    (turn i s).bind fun (a, s) => (turns turn count (i + 1) s).map fun (as, s) => (a :: as, s)

/-- **A loop whose states are known** collects its items. -/
theorem turns_eq {turn : Nat → σ → Option (α × σ)} (stateAt : Nat → σ) (item : Nat → Option α)
    (h : ∀ i, turn i (stateAt i) = (item i).map fun a => (a, stateAt (i + 1))) (count i : Nat) :
    turns turn count i (stateAt i)
      = ((List.range' i count).mapM item).map fun as => (as, stateAt (i + count)) := by
  induction count generalizing i with
  | zero => rfl
  | succ count ih =>
    have hend : i + 1 + count = i + (count + 1) := by omega
    rw [turns, h, List.range'_succ, List.mapM_cons]
    cases item i with
    | none => rfl
    | some a =>
      rw [Option.map_some, Option.bind_some]
      dsimp only
      rw [ih, hend]
      cases (List.range' (i + 1) count).mapM item with
      | none => rfl
      | some as => rfl

/-! ## Collections -/

theorem mapM_isSome_iff {f : α → Option β} {l : List α} :
    (l.mapM f).isSome ↔ ∀ a ∈ l, (f a).isSome := by
  induction l with
  | nil => exact iff_of_true rfl (List.forall_mem_nil _)
  | cons a l ih =>
    rw [List.mapM_cons, List.forall_mem_cons, ← ih]
    cases f a with
    | none => exact iff_of_false Bool.false_ne_true fun h => Bool.false_ne_true h.1
    | some b =>
      cases l.mapM f with
      | none => exact iff_of_false Bool.false_ne_true fun h => Bool.false_ne_true h.2
      | some bs => exact iff_of_true rfl ⟨rfl, rfl⟩

/-- What is collected is what the function gives. -/
theorem mapM_getElem? {f : α → Option β} {l : List α} {bs : List β} (h : l.mapM f = some bs) :
    bs.length = l.length ∧ ∀ i : Nat, bs[i]? = l[i]?.bind f := by
  induction l generalizing bs with
  | nil =>
    obtain rfl := Option.some.inj h
    exact ⟨rfl, fun i => rfl⟩
  | cons a l ih =>
    rw [List.mapM_cons] at h
    cases hf : f a with
    | none =>
      rw [hf] at h
      exact absurd h.symm (Option.some_ne_none bs)
    | some b =>
      cases hl : l.mapM f with
      | none =>
        rw [hf, hl] at h
        exact absurd h.symm (Option.some_ne_none bs)
      | some rest =>
        rw [hf, hl] at h
        obtain rfl := Option.some.inj h
        obtain ⟨hlen, hget⟩ := ih hl
        refine ⟨by rw [List.length_cons, List.length_cons, hlen], fun i => ?_⟩
        cases i with
        | zero => exact hf.symm
        | succ i => exact hget i

/-! ## Rasters -/

/-- A pixel for each column and row; `none` if one of them fails. -/
def raster (pixel : Nat → Nat → Option α) (width height : Nat) : Option (List (List α)) :=
  (List.range' 0 height).mapM fun y => (List.range' 0 width).mapM fun x => pixel x y

variable {pixel : Nat → Nat → Option α} {width height : Nat}

theorem raster_isSome_iff :
    (raster pixel width height).isSome ↔ ∀ y < height, ∀ x < width, (pixel x y).isSome := by
  have hmem : ∀ {n k : Nat}, k ∈ List.range' 0 n ↔ k < n := by
    intro n k
    rw [List.mem_range'_1, Nat.zero_add]
    exact and_iff_right (Nat.zero_le k)
  rw [raster, mapM_isSome_iff]
  constructor
  · intro h y hy x hx
    exact mapM_isSome_iff.mp (h y (hmem.mpr hy)) x (hmem.mpr hx)
  · intro h y hy
    exact mapM_isSome_iff.mpr fun x hx => h y (hmem.mp hy) x (hmem.mp hx)

/-- The pixel at a column and a row. -/
theorem raster_getElem? {rows : List (List α)} (h : raster pixel width height = some rows) :
    rows.length = height ∧
      ∀ y < height, ∃ row, rows[y]? = some row ∧ row.length = width ∧
        ∀ x < width, row[x]? = pixel x y := by
  obtain ⟨hlen, hrows⟩ := mapM_getElem? h
  rw [List.length_range'] at hlen
  refine ⟨hlen, fun y hy => ?_⟩
  have hrow := hrows y
  rw [List.getElem?_range' hy, Nat.zero_add, Nat.one_mul, Option.bind_some] at hrow
  obtain ⟨row, hget⟩ : ∃ row, rows[y]? = some row :=
    ⟨_, List.getElem?_eq_getElem (hlen.symm ▸ hy)⟩
  rw [hget] at hrow
  obtain ⟨hwidth, hpixels⟩ := mapM_getElem? hrow.symm
  rw [List.length_range'] at hwidth
  refine ⟨row, hget, hwidth, fun x hx => ?_⟩
  rw [hpixels x, List.getElem?_range' hx, Nat.zero_add, Nat.one_mul, Option.bind_some]

/-- A loop over rows of a loop over columns, if it is known where the pointers are. -/
theorem turns_raster {line : Nat → σ → Option (List α × σ)} (stateAt : Nat → σ)
    (h : ∀ y, line y (stateAt y)
      = ((List.range' 0 width).mapM fun x => pixel x y).map fun row => (row, stateAt (y + 1))) :
    (turns line height 0 (stateAt 0)).map Prod.fst = raster pixel width height := by
  rw [turns_eq stateAt _ h, Option.map_map, raster]
  exact Option.map_id'

end Raster
end TinyPilotKvm
