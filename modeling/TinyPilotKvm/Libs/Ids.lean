/-
# Frame ids (`libs/tools.h`)

`us_get_now_id` makes an id of 64 bits from the clock: the microseconds, cut to 32 bits and mixed,
are its low half, and the microseconds of 12345 later, cut and mixed, the high one.  The mixer
`us_triple_u32` is three shifts and three products between them and one more shift, all of them
bijections of the words of 32 bits, so the ids of two moments are as different as the moments.
-/
import TinyPilotKvm.Mixers
import Mathlib.Data.Nat.ModEq

namespace TinyPilotKvm

/-! ## 1. The code -/

/-- `us_triple_u32`. -/
def usTripleU32 (x : UInt32) : UInt32 :=
  let x := x ^^^ x >>> 17
  let x := x * 0xED5AD4BB
  let x := x ^^^ x >>> 11
  let x := x * 0xAC4C1B51
  let x := x ^^^ x >>> 15
  let x := x * 0x31848BAB
  x ^^^ x >>> 14

/-- `struct timespec`, of the monotonic clock. -/
structure Timespec where
  tvSec : Nat
  tvNsec : Nat

/-- `us_get_now_monotonic_u64`: microseconds. -/
def usGetNowMonotonicU64 (ts : Timespec) : UInt64 :=
  (ts.tvNsec / 1000).toUInt64 + ts.tvSec.toUInt64 * 1000000

/-- `us_get_now_id`, of the microseconds that it reads. -/
def usGetNowId (now : UInt64) : UInt64 :=
  (usTripleU32 now.toUInt32).toUInt64 ||| (usTripleU32 (now + 12345).toUInt32).toUInt64 <<< 32

/-- The low half of an id. -/
def lowHalf (id : UInt64) : UInt32 := id.toUInt32

/-- The high half of an id. -/
def highHalf (id : UInt64) : UInt32 := (id >>> 32).toUInt32

/-! ## 2. The mixer -/

/-- The mixer on bit vectors, step after step. -/
theorem toBitVec_usTripleU32 (x : UInt32) :
    (usTripleU32 x).toBitVec =
      xorShift 14 (xorShift 15 (xorShift 11 (xorShift 17 x.toBitVec * 0xED5AD4BB#32)
        * 0xAC4C1B51#32) * 0x31848BAB#32) := rfl

theorem bijective_toBitVec : Function.Bijective UInt32.toBitVec :=
  ⟨fun _ _ h => UInt32.toBitVec_inj.mp h, fun x => ⟨⟨x⟩, rfl⟩⟩

/-- **The mixer is a bijection.** -/
theorem bijective_usTripleU32 : Function.Bijective usTripleU32 := by
  have h17 := bijective_xorShift (w := 32) (s := 17) (by decide)
  have h11 := bijective_xorShift (w := 32) (s := 11) (by decide)
  have h15 := bijective_xorShift (w := 32) (s := 15) (by decide)
  have h14 := bijective_xorShift (w := 32) (s := 14) (by decide)
  have hfirst := bijective_mul_of_inverse (c := 0xED5AD4BB#32) (d := 0x79A85073#32) (by decide)
  have hsecond := bijective_mul_of_inverse (c := 0xAC4C1B51#32) (d := 0x469E0DB1#32) (by decide)
  have hthird := bijective_mul_of_inverse (c := 0x31848BAB#32) (d := 0x32B21703#32) (by decide)
  have hsteps := h14.comp (hthird.comp (h15.comp (hsecond.comp (h11.comp (hfirst.comp h17)))))
  refine (Function.Bijective.of_comp_iff' bijective_toBitVec usTripleU32).mp ?_
  exact hsteps.comp bijective_toBitVec

theorem usTripleU32_eq_zero_iff (x : UInt32) : usTripleU32 x = 0 ↔ x = 0 := by
  have hzero : usTripleU32 0 = 0 := rfl
  constructor
  · intro h
    exact bijective_usTripleU32.1 (h.trans hzero.symm)
  · intro h
    rw [h, hzero]

/-! ## 3. The halves of an id -/

theorem lowHalf_or (a b : UInt32) : lowHalf (a.toUInt64 ||| b.toUInt64 <<< 32) = a := by
  apply UInt32.toBitVec_inj.mp
  apply BitVec.eq_of_getLsbD_eq
  intro i hi
  simp [lowHalf, hi]

theorem highHalf_or (a b : UInt32) : highHalf (a.toUInt64 ||| b.toUInt64 <<< 32) = b := by
  apply UInt32.toBitVec_inj.mp
  apply BitVec.eq_of_getLsbD_eq
  intro i hi
  have hhigh : 32 + i < 64 := by omega
  simp [highHalf, hi, hhigh]

theorem lowHalf_usGetNowId (now : UInt64) :
    lowHalf (usGetNowId now) = usTripleU32 now.toUInt32 := lowHalf_or _ _

theorem highHalf_usGetNowId (now : UInt64) :
    highHalf (usGetNowId now) = usTripleU32 (now + 12345).toUInt32 := highHalf_or _ _

/-! ## 4. Ids -/

theorem toUInt32_ne {a b : UInt64} (h : a.toNat % 2 ^ 32 ≠ b.toNat % 2 ^ 32) :
    a.toUInt32 ≠ b.toUInt32 := by
  intro heq
  apply h
  rw [← UInt64.toNat_toUInt32, ← UInt64.toNat_toUInt32, heq]

/-- The ids of two moments that differ in the 32 bits differ in both halves. -/
theorem usGetNowId_halves_ne {a b : UInt64} (h : a.toNat % 2 ^ 32 ≠ b.toNat % 2 ^ 32) :
    lowHalf (usGetNowId a) ≠ lowHalf (usGetNowId b) ∧
      highHalf (usGetNowId a) ≠ highHalf (usGetNowId b) := by
  have hne := toUInt32_ne h
  rw [lowHalf_usGetNowId, lowHalf_usGetNowId, highHalf_usGetNowId, highHalf_usGetNowId]
  refine ⟨fun heq => hne (bijective_usTripleU32.1 heq), fun heq => hne ?_⟩
  have hlater := bijective_usTripleU32.1 heq
  rw [UInt64.toUInt32_add, UInt64.toUInt32_add] at hlater
  exact (UInt32.add_left_inj _).mp hlater

/-- The two offsets are not both zero in 32 bits, so no id is zero. -/
theorem usGetNowId_ne_zero (now : UInt64) : usGetNowId now ≠ 0 := by
  intro h
  have hlow := lowHalf_usGetNowId now
  have hhigh := highHalf_usGetNowId now
  rw [h] at hlow hhigh
  have hnow := (usTripleU32_eq_zero_iff _).mp hlow.symm
  have hlater := (usTripleU32_eq_zero_iff _).mp hhigh.symm
  rw [UInt64.toUInt32_add, hnow] at hlater
  exact absurd hlater (by decide)

/-- The ids of two different moments less than 2 ^ 32 microseconds apart differ. -/
theorem usGetNowId_ne {a b : UInt64} (hne : a ≠ b) (hab : a.toNat < b.toNat + 2 ^ 32)
    (hba : b.toNat < a.toNat + 2 ^ 32) : usGetNowId a ≠ usGetNowId b := by
  have hnat : a.toNat ≠ b.toNat := fun h => hne (UInt64.toNat_inj.mp h)
  have hmod : a.toNat % 2 ^ 32 ≠ b.toNat % 2 ^ 32 := by omega
  intro heq
  exact (usGetNowId_halves_ne hmod).1 (congrArg lowHalf heq)

end TinyPilotKvm
