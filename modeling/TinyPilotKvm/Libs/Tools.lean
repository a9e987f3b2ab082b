/-
# Error codes, conversions and system-call outcomes (`libs/errors.h`, `libs/tools.h`)

System calls are the environment's choice in this development: a function that makes one takes
the outcome as an argument, so a statement "for every outcome" quantifies over that argument.
Numbers in floating point, the seconds of a clock among them, are exact rationals.
-/
import Mathlib.Data.Rat.Floor
import Mathlib.Tactic.Linarith

namespace TinyPilotKvm

/-! ## 1. Error codes -/

def usErrorNoDevice : Int := -2
def usErrorNoCable : Int := -3
def usErrorNoSignal : Int := -4
def usErrorNoSync : Int := -5
def usErrorNoLanes : Int := -6
def usErrorNoData : Int := -7

/-! ## 2. C conversions -/

/-- An `int` stored in a C `bool`: 1 for every value but 0. -/
def cBool (x : Int) : Bool := decide (x ≠ 0)

/-- A C `bool` read as an `int`. -/
def cInt (b : Bool) : Int := if b then 1 else 0

/-- Arithmetic of `uint`. -/
def toUint (n : Nat) : Nat := n % 4294967296

theorem toUint_of_lt {n : Nat} (h : n < 4294967296) : toUint n = n := Nat.mod_eq_of_lt h

/-- The integer that the conversion of a number in floating point gives. -/
def truncated (x : ℚ) : Int := if 0 ≤ x then ⌊x⌋ else ⌈x⌉

/-- A number in floating point stored in an `unsigned long long`. -/
def toUll (x : ℚ) : Nat := (truncated x).toNat

theorem toUll_of_nonneg {x : ℚ} (h : 0 ≤ x) : ((toUll x : ℕ) : ℤ) = ⌊x⌋ := by
  rw [toUll, truncated, if_pos h, Int.toNat_of_nonneg (Int.floor_nonneg.mpr h)]

/-! ## 3. The clock -/

/-- `us_floor_ms`, of a time in seconds. -/
def usFloorMs (now : ℚ) : Int := truncated now - if now < truncated now then 1 else 0

theorem usFloorMs_eq (now : ℚ) : usFloorMs now = ⌊now⌋ := by
  rw [usFloorMs, truncated]
  by_cases hsign : 0 ≤ now
  · rw [if_pos hsign, if_neg (not_lt.mpr (Int.floor_le now)), sub_zero]
  · rw [if_neg hsign]
    by_cases hfrac : now < ⌈now⌉
    · rw [if_pos hfrac]
      have hbelow := Int.ceil_lt_add_one now
      refine (Int.floor_eq_iff.mpr ⟨?_, ?_⟩).symm
      · push_cast
        linarith
      · push_cast
        linarith
    · rw [if_neg hfrac, sub_zero]
      have hwhole : ((⌈now⌉ : ℤ) : ℚ) = now := le_antisymm (not_lt.mp hfrac) (Int.le_ceil now)
      rw [← hwhole, Int.floor_intCast, Int.ceil_intCast]

theorem usFloorMs_mono {a b : ℚ} (h : a ≤ b) : usFloorMs a ≤ usFloorMs b := by
  rw [usFloorMs_eq, usFloorMs_eq]
  exact Int.floor_le_floor h

theorem usFloorMs_nonneg {a : ℚ} (h : 0 ≤ a) : 0 ≤ usFloorMs a := by
  rw [usFloorMs_eq]
  exact Int.floor_nonneg.mpr h

/-! ## 4. Locks -/

/-- How an attempt to take an exclusive `flock` ends: `us_flock_timedwait_monotonic` and
`flock(LOCK_EX | LOCK_NB)` return 0, or -1 with `EWOULDBLOCK`, or -1 with another error. -/
inductive Flock
  | taken
  | wouldBlock
  | failed
  deriving DecidableEq

end TinyPilotKvm
