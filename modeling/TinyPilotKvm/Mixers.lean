/-
# Mixers of machine words that lose nothing

A mixer scatters the bits of a word.  It is built of two kinds of steps: the exclusive or of a word
with itself shifted to the right (`xorShift`), and the product with a constant.  On words of any
width the first is a bijection for every shift but zero, and the second for every constant that has
an inverse, so a mixer made of such steps is one too.

The inverse of `xorShift s` is the exclusive or of `y`, `y >>> s`, `y >>> 2s` and so on.  Of the two
copies of each term all but the first and the last cancel (`unshift_xorShift`), and the last is
zero as soon as the shifts go over the whole width.
-/
import Mathlib.Logic.Function.Basic

namespace TinyPilotKvm

variable {w : Nat}

/-! ## 1. Shifts -/

/-- A word and its shifted copy. -/
def xorShift (s : Nat) (x : BitVec w) : BitVec w := x ^^^ x >>> s

/-- The first `k` terms of the inverse of `xorShift s`. -/
def unshift (s : Nat) : Nat → BitVec w → BitVec w
  | 0, _ => 0#w
  | k + 1, y => y ^^^ unshift s k y >>> s

/-- Two copies of a word cancel. -/
theorem xor_cancel_middle (x y z : BitVec w) : x ^^^ y ^^^ (y ^^^ z) = x ^^^ z := by
  rw [BitVec.xor_assoc, ← BitVec.xor_assoc y, BitVec.xor_self, BitVec.zero_xor]

theorem xorShift_ushiftRight (s : Nat) (x : BitVec w) :
    xorShift s x >>> s = xorShift s (x >>> s) := BitVec.ushiftRight_xor_distrib _ _ _

/-- The terms cancel, all but the first and the last. -/
theorem unshift_xorShift (s k : Nat) (x : BitVec w) :
    unshift s k (xorShift s x) = x ^^^ x >>> (k * s) := by
  induction k with
  | zero => rw [unshift, Nat.zero_mul, BitVec.ushiftRight_zero, BitVec.xor_self]
  | succ k ih =>
    have hlast : x >>> ((k + 1) * s) = x >>> (k * s) >>> s := by
      rw [← BitVec.shiftRight_add, Nat.succ_mul]
    rw [unshift, ih, BitVec.ushiftRight_xor_distrib, ← hlast, xorShift, xor_cancel_middle]

theorem xorShift_unshift (s k : Nat) (y : BitVec w) :
    xorShift s (unshift s k y) = y ^^^ y >>> (k * s) := by
  induction k with
  | zero =>
    rw [unshift, Nat.zero_mul, BitVec.ushiftRight_zero, BitVec.xor_self, xorShift,
      BitVec.zero_ushiftRight, BitVec.xor_self]
  | succ k ih =>
    have hlinear : xorShift s (y ^^^ unshift s k y >>> s)
        = xorShift s y ^^^ xorShift s (unshift s k y >>> s) := by
      simp only [xorShift, BitVec.ushiftRight_xor_distrib]
      ac_rfl
    have hlast : y >>> ((k + 1) * s) = y >>> (k * s) >>> s := by
      rw [← BitVec.shiftRight_add, Nat.succ_mul]
    rw [unshift, hlinear, ← xorShift_ushiftRight, ih, BitVec.ushiftRight_xor_distrib, ← hlast,
      xorShift, xor_cancel_middle]

/-- **The exclusive or with a shifted copy is a bijection.** -/
theorem bijective_xorShift {s : Nat} (hs : 0 < s) :
    Function.Bijective (xorShift s : BitVec w → BitVec w) := by
  have hzero : ∀ x : BitVec w, x >>> (w * s) = 0#w := fun x =>
    BitVec.ushiftRight_eq_zero (Nat.le_mul_of_pos_right w hs)
  refine Function.bijective_iff_has_inverse.mpr ⟨unshift s w, fun x => ?_, fun y => ?_⟩
  · rw [unshift_xorShift, hzero, BitVec.xor_zero]
  · rw [xorShift_unshift, hzero, BitVec.xor_zero]

/-! ## 2. Products -/

/-- **The product with a constant that has an inverse is a bijection.** -/
theorem bijective_mul_of_inverse {c d : BitVec w} (h : c * d = 1#w) :
    Function.Bijective fun x : BitVec w => x * c := by
  refine Function.bijective_iff_has_inverse.mpr ⟨fun y => y * d, fun x => ?_, fun y => ?_⟩
  · show x * c * d = x
    rw [BitVec.mul_assoc, h, BitVec.mul_one]
  · show y * d * c = y
    rw [BitVec.mul_assoc, BitVec.mul_comm d, h, BitVec.mul_one]

end TinyPilotKvm
