/-
# Texts as bytes

`ascii` gives the bytes of a string literal.  Numbers are written by `digits` in a base, without
leading zeros, and read back by `readDecimal`; times are written in microseconds by `fixed6`.
-/
import Mathlib.Algebra.Order.Ring.Rat

namespace TinyPilotKvm

/-! ## 1. Writing -/

/-- The bytes of a string literal. -/
def ascii (s : String) : List UInt8 := s.toUTF8.data.toList

/-- A number in base `b`, in lower case. -/
def digits (b n : Nat) : List UInt8 := (Nat.toDigits b n).map Char.toUInt8

/-- `printf`'s `%u` and `%zu`. -/
def decimal (n : Nat) : List UInt8 := digits 10 n

/-- `printf`'s `%x`. -/
def hex (n : Nat) : List UInt8 := digits 16 n

/-- A quotient to the nearest integer, and to the even one of two. -/
def roundHalfEven (num den : Nat) : Nat :=
  if 2 * (num % den) < den then num / den
  else if den < 2 * (num % den) then num / den + 1
  else num / den + num / den % 2

/-- `printf`'s `%.06Lf`. -/
def fixed6 (x : ℚ) : List UInt8 :=
  let micros := roundHalfEven (x.num.natAbs * 1000000) x.den
  let frac := decimal (micros % 1000000)
  (if x < 0 then ascii "-" else []) ++ decimal (micros / 1000000) ++ ascii "."
    ++ List.replicate (6 - frac.length) 48 ++ frac

example : fixed6 (12345 / 10000000) = ascii "0.001234" := by decide +kernel

/-! ## 2. Letters -/

def asciiLower (c : UInt8) : UInt8 := if 65 ≤ c ∧ c ≤ 90 then c + 32 else c

/-- The same text, but for the case of its letters. -/
def asciiCaseEq (a b : List UInt8) : Bool := a.map asciiLower == b.map asciiLower

/-! ## 3. Digits -/

/-- What is to be shown of every byte is shown of 256 numbers. -/
theorem forall_byte {p : UInt8 → Prop} (h : ∀ n < 256, p (UInt8.ofNat n)) : ∀ c, p c := by
  intro c
  have hc := h c.toNat c.toNat_lt
  rwa [UInt8.ofNat_toNat] at hc

/-- `'0'` to `'9'`. -/
def isDigit (c : UInt8) : Bool := decide (48 ≤ c ∧ c ≤ 57)

/-- `'0'` to `'9'` and `'a'` to `'f'`. -/
def isHexDigit (c : UInt8) : Bool := isDigit c || decide (97 ≤ c ∧ c ≤ 102)

theorem digits_ne_nil (b n : Nat) : digits b n ≠ [] := by
  intro h
  exact Nat.toDigits_ne_nil (List.map_eq_nil_iff.mp h)

theorem digits_of_lt {b n : Nat} (h : n < b) : digits b n = [(Nat.digitChar n).toUInt8] := by
  rw [digits, Nat.toDigits_of_lt_base h]
  rfl

theorem digits_of_le {b n : Nat} (hb : 1 < b) (h : b ≤ n) :
    digits b n = digits b (n / b) ++ [(Nat.digitChar (n % b)).toUInt8] := by
  rw [digits, Nat.toDigits_of_base_le hb h, List.map_append]
  rfl

/-- What is true of the digits of a base is true of all bytes of a number in it. -/
theorem forall_mem_digits {b : Nat} (hb : 1 < b) {p : UInt8 → Prop}
    (hp : ∀ d < b, p (Nat.digitChar d).toUInt8) (n : Nat) : ∀ c ∈ digits b n, p c := by
  induction n using Nat.strongRecOn with
  | ind n ih =>
    intro c hc
    by_cases h : n < b
    · rw [digits_of_lt h, List.mem_singleton] at hc
      exact hc ▸ hp n h
    · rw [digits_of_le hb (by omega)] at hc
      rcases List.mem_append.mp hc with hc | hc
      · exact ih (n / b) (Nat.div_lt_self (by omega) hb) c hc
      · rw [List.mem_singleton] at hc
        exact hc ▸ hp _ (Nat.mod_lt _ (by omega))

theorem isDigit_decimal (n : Nat) : ∀ c ∈ decimal n, isDigit c = true :=
  forall_mem_digits (by decide) (by decide) n

/-- A number in decimal. -/
def readDecimal (t : List UInt8) : Option Nat :=
  if t = [] ∨ t.any (fun c => !isDigit c) then none
  else some (t.foldl (fun n c => 10 * n + (c.toNat - 48)) 0)

/-- What is written in decimal is read back. -/
theorem readDecimal_decimal (n : Nat) : readDecimal (decimal n) = some n := by
  have hread : ∀ n, (decimal n).foldl (fun n c => 10 * n + (c.toNat - 48)) 0 = n := by
    intro n
    induction n using Nat.strongRecOn with
    | ind n ih =>
      have hdigit : ∀ d < 10, (Nat.digitChar d).toUInt8.toNat - 48 = d := by decide
      by_cases h : n < 10
      · rw [decimal, digits_of_lt h, List.foldl_cons, List.foldl_nil, hdigit n h]
        omega
      · have hsplit : decimal n = decimal (n / 10) ++ [(Nat.digitChar (n % 10)).toUInt8] :=
          digits_of_le (by decide) (by omega)
        rw [hsplit, List.foldl_append, ih (n / 10) (by omega), List.foldl_cons, List.foldl_nil,
          hdigit _ (Nat.mod_lt _ (by decide))]
        omega
  have hno : ¬ (decimal n = [] ∨ (decimal n).any (fun c => !isDigit c) = true) := by
    rintro (hnil | hany)
    · exact digits_ne_nil 10 n hnil
    · obtain ⟨c, hc, hbad⟩ := List.any_eq_true.mp hany
      rw [isDigit_decimal n c hc] at hbad
      exact absurd hbad (by decide)
  rw [readDecimal, if_neg hno, hread]

theorem isHexDigit_hex (n : Nat) : ∀ c ∈ hex n, isHexDigit c = true :=
  forall_mem_digits (by decide) (by decide) n

/-- Only zero begins with a zero. -/
theorem decimal_head {n : Nat} (hpos : 0 < n) :
    ∃ d ds, decimal n = d :: ds ∧ 49 ≤ d ∧ d ≤ 57 := by
  induction n using Nat.strongRecOn with
  | ind n ih =>
    by_cases h : n < 10
    · have hsmall : ∀ m < 10, 0 < m →
          49 ≤ (Nat.digitChar m).toUInt8 ∧ (Nat.digitChar m).toUInt8 ≤ 57 := by decide
      exact ⟨_, [], digits_of_lt h, hsmall n h hpos⟩
    · have hsplit : decimal n = decimal (n / 10) ++ [(Nat.digitChar (n % 10)).toUInt8] :=
        digits_of_le (by decide) (by omega)
      obtain ⟨d, ds, hd, hrange⟩ := ih (n / 10) (by omega) (by omega)
      rw [hsplit, hd]
      exact ⟨d, _, rfl, hrange⟩

theorem length_hex_of_lt {n : Nat} (h : n < 16) : (hex n).length = 1 := by
  rw [hex, digits_of_lt h]
  rfl

theorem hex_of_le {n : Nat} (h : ¬ n < 16) :
    hex n = hex (n / 16) ++ [(Nat.digitChar (n % 16)).toUInt8] :=
  digits_of_le (by decide) (by omega)

theorem one_lt_length_hex {n : Nat} (h : ¬ n < 16) : 1 < (hex n).length := by
  have hpos := List.length_pos_iff.mpr (digits_ne_nil 16 (n / 16))
  rw [hex_of_le h, List.length_append, List.length_singleton]
  exact Nat.succ_lt_succ hpos

/-- Numbers that are written alike are the same. -/
theorem hex_injective {m n : Nat} (h : hex m = hex n) : m = n := by
  have hdigit : ∀ i < 16, ∀ j < 16,
      (Nat.digitChar i).toUInt8 = (Nat.digitChar j).toUInt8 → i = j := by decide
  induction m using Nat.strongRecOn generalizing n with
  | ind m ih =>
    have hlen := congrArg List.length h
    by_cases hm : m < 16 <;> by_cases hn : n < 16
    · rw [hex, hex, digits_of_lt hm, digits_of_lt hn] at h
      exact hdigit m hm n hn (List.cons.inj h).1
    · have hlong := one_lt_length_hex hn
      rw [length_hex_of_lt hm] at hlen
      omega
    · have hlong := one_lt_length_hex hm
      rw [length_hex_of_lt hn] at hlen
      omega
    · rw [hex_of_le hm, hex_of_le hn] at h
      obtain ⟨hdiv, hlast⟩ := List.append_inj' h rfl
      have hq := ih (m / 16) (by omega) hdiv
      have hr := hdigit _ (Nat.mod_lt _ (by decide)) _ (Nat.mod_lt _ (by decide))
        (List.cons.inj hlast).1
      omega

end TinyPilotKvm
