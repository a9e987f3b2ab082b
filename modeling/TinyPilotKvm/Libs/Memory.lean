/-
# Checked memory

A block of allocated memory is a list of its cells.  Reading is `mem[i]?` or `loadAll`, and
writing is `store` or `storeAll`; all give `none` outside the block, so that a program whose every
access is made this way and which never ends in `none` stays inside its memory.
-/
import Mathlib.Data.List.GetD

namespace TinyPilotKvm

variable {α : Type} {mem mem' : List α} {i : Nat} {x : α}

/-! ## 1. Cells -/

/-- A write to cell `i`. -/
def store (mem : List α) (i : Nat) (x : α) : Option (List α) :=
  if i < mem.length then some (mem.set i x) else none

theorem store_of_lt (h : i < mem.length) (x : α) : store mem i x = some (mem.set i x) := if_pos h

/-- A write fails exactly outside the block. -/
theorem store_eq_none_iff : store mem i x = none ↔ mem.length ≤ i := by
  unfold store
  split
  · rename_i h
    exact ⟨fun h0 => absurd h0 (by simp), fun h0 => absurd h (by omega)⟩
  · rename_i h
    exact ⟨fun _ => by omega, fun _ => rfl⟩

theorem store_eq_some_iff :
    store mem i x = some mem' ↔ i < mem.length ∧ mem' = mem.set i x := by
  unfold store
  split
  · rename_i h
    rw [Option.some.injEq]
    exact ⟨fun h0 => ⟨h, h0.symm⟩, fun h0 => h0.2.symm⟩
  · rename_i h
    exact ⟨fun h0 => absurd h0 (by simp), fun h0 => absurd h0.1 h⟩

/-- A write does not move the end of the block. -/
theorem length_store (h : store mem i x = some mem') : mem'.length = mem.length := by
  obtain ⟨-, rfl⟩ := store_eq_some_iff.mp h
  exact List.length_set

theorem getElem?_store_self (h : store mem i x = some mem') : mem'[i]? = some x := by
  obtain ⟨hi, rfl⟩ := store_eq_some_iff.mp h
  rw [List.getElem?_set_self hi]

theorem getElem?_store_of_ne (h : store mem i x = some mem') {j : Nat} (hj : i ≠ j) :
    mem'[j]? = mem[j]? := by
  obtain ⟨-, rfl⟩ := store_eq_some_iff.mp h
  exact List.getElem?_set_ne hj

/-- A write to a block is one to a larger block that begins with it. -/
theorem store_append (h : store mem i x = some mem') (rest : List α) :
    store (mem ++ rest) i x = some (mem' ++ rest) := by
  obtain ⟨hi, rfl⟩ := store_eq_some_iff.mp h
  have hlong : i < (mem ++ rest).length := by
    rw [List.length_append]
    omega
  rw [store_of_lt hlong, List.set_append_left _ _ hi]

/-! ## 2. Ranges -/

/-- A read of `n` cells from `i` on. -/
def loadAll (mem : List α) (i n : Nat) : Option (List α) :=
  if i + n ≤ mem.length then some ((mem.drop i).take n) else none

/-- A write of the cells `xs` from `i` on. -/
def storeAll (mem : List α) (i : Nat) (xs : List α) : Option (List α) :=
  if i + xs.length ≤ mem.length then some (mem.take i ++ xs ++ mem.drop (i + xs.length)) else none

/-- What stands at `i` is what is read there. -/
theorem loadAll_of_drop {xs tail : List α} (h : mem.drop i = xs ++ tail) (hi : i ≤ mem.length) :
    loadAll mem i xs.length = some xs := by
  have hlen := congrArg List.length h
  rw [List.length_drop, List.length_append] at hlen
  unfold loadAll
  rw [if_pos (by omega), h, List.take_left]

theorem storeAll_eq_some_iff {xs : List α} :
    storeAll mem i xs = some mem' ↔
      i + xs.length ≤ mem.length ∧ mem' = mem.take i ++ xs ++ mem.drop (i + xs.length) := by
  unfold storeAll
  split
  · rename_i h
    rw [Option.some.injEq]
    exact ⟨fun h0 => ⟨h, h0.symm⟩, fun h0 => h0.2.symm⟩
  · rename_i h
    exact ⟨fun h0 => absurd h0 (by simp), fun h0 => absurd h0.1 h⟩

theorem length_storeAll {xs : List α} (h : storeAll mem i xs = some mem') :
    mem'.length = mem.length := by
  obtain ⟨hle, rfl⟩ := storeAll_eq_some_iff.mp h
  rw [List.length_append, List.length_append, List.length_take, List.length_drop]
  omega

/-- Two writes, the second right after the first, are one. -/
theorem storeAll_append (mem : List α) (i : Nat) (xs ys : List α) :
    (storeAll mem i xs).bind (fun m => storeAll m (i + xs.length) ys)
      = storeAll mem i (xs ++ ys) := by
  by_cases hx : i + xs.length ≤ mem.length
  · have hpre : (mem.take i ++ xs).length = i + xs.length := by
      rw [List.length_append, List.length_take]
      omega
    have hlen : (mem.take i ++ xs ++ mem.drop (i + xs.length)).length = mem.length :=
      length_storeAll (if_pos hx)
    have hfirst : storeAll mem i xs = some (mem.take i ++ xs ++ mem.drop (i + xs.length)) :=
      if_pos hx
    rw [hfirst, Option.bind_some]
    unfold storeAll
    rw [hlen, List.length_append, ← Nat.add_assoc]
    by_cases hxy : i + xs.length + ys.length ≤ mem.length
    · rw [if_pos hxy, if_pos hxy, List.take_left' hpre, List.append_assoc (mem.take i ++ xs),
        List.drop_append, List.drop_of_length_le (by omega), List.nil_append, hpre, List.drop_drop,
        List.append_assoc, List.append_assoc, List.append_assoc]
      congr 5
      omega
    · rw [if_neg hxy, if_neg hxy]
  · have hfirst : storeAll mem i xs = none := if_neg hx
    have hboth : storeAll mem i (xs ++ ys) = none := by
      unfold storeAll
      rw [if_neg]
      rw [List.length_append]
      omega
    rw [hfirst, hboth, Option.bind_none]

/-- What has been written is there. -/
theorem take_drop_storeAll {xs : List α} (h : storeAll mem i xs = some mem') :
    (mem'.take (i + xs.length)).drop i = xs := by
  obtain ⟨hle, rfl⟩ := storeAll_eq_some_iff.mp h
  have hpre : (mem.take i).length = i := by
    rw [List.length_take]
    omega
  have hboth : (mem.take i ++ xs).length = i + xs.length := by
    rw [List.length_append, hpre]
  rw [List.take_left' hboth, List.drop_left' hpre]

/-! ## 3. Writing from left to right -/

/-- A write behind a prefix makes it longer by one cell. -/
theorem prefix_store {pre : List α} (hpre : pre <+: mem) (h : store mem pre.length x = some mem') :
    pre ++ [x] <+: mem' := by
  obtain ⟨hlt, rfl⟩ := store_eq_some_iff.mp h
  obtain ⟨rest, rfl⟩ := hpre
  rw [List.set_append_right _ _ (Nat.le_refl _), Nat.sub_self]
  cases rest with
  | nil => simp at hlt
  | cons y rest =>
    refine ⟨rest, ?_⟩
    rw [List.append_assoc]
    rfl

/-- What stands in a prefix is what is read there. -/
theorem getElem?_of_isPrefix {pre : List α} (hpre : pre <+: mem) (hi : i < pre.length) :
    mem[i]? = pre[i]? := by
  obtain ⟨rest, rfl⟩ := hpre
  exact List.getElem?_append_left hi

/-! ## 4. C strings -/

/-- A C string, less the NUL at its end. -/
structure CString where
  bytes : List UInt8
  noNul : (0 : UInt8) ∉ bytes

/-- The memory of a C string. -/
def CString.memory (s : CString) : List UInt8 := s.bytes ++ [0]

/-- The C string at the beginning of a block, up to the first NUL. -/
def cStringAt (mem : List UInt8) : List UInt8 := mem.takeWhile (· ≠ 0)

theorem cStringAt_of_isPrefix {bytes mem : List UInt8} (h0 : (0 : UInt8) ∉ bytes)
    (h : bytes ++ [0] <+: mem) : cStringAt mem = bytes := by
  obtain ⟨rest, rfl⟩ := h
  unfold cStringAt
  rw [List.append_assoc, List.takeWhile_append_of_pos]
  · simp
  · intro b hb
    simpa using fun h : b = 0 => h0 (h ▸ hb)

end TinyPilotKvm
