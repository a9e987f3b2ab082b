/-
# Base 64 (RFC 4648, section 4)

The input is taken three octets at a time.  A group of 24 bits is four digits of six; a last group
of one or two octets is filled up with zero bits to a whole number of digits, and the digits it has
not are written `=`.
-/
import Mathlib.Data.List.Basic

namespace TinyPilotKvm

/-- Table 1: the character of a six-bit value. -/
def base64Char (value : Nat) : UInt8 :=
  if value < 26 then UInt8.ofNat (65 + value)
  else if value < 52 then UInt8.ofNat (97 + (value - 26))
  else if value < 62 then UInt8.ofNat (48 + (value - 52))
  else if value = 62 then 43
  else 47

/-- The padding character. -/
def base64Pad : UInt8 := 61

/-- The four characters of three octets. -/
def base64Group (a b c : UInt8) : List UInt8 :=
  [base64Char (a.toNat / 4), base64Char (a.toNat % 4 * 16 + b.toNat / 16),
    base64Char (b.toNat % 16 * 4 + c.toNat / 64), base64Char (c.toNat % 64)]

/-- The encoding. -/
def base64 : List UInt8 → List UInt8
  | [] => []
  | [a] => (base64Group a 0 0).take 2 ++ [base64Pad, base64Pad]
  | [a, b] => (base64Group a b 0).take 3 ++ [base64Pad]
  | a :: b :: c :: rest => base64Group a b c ++ base64 rest

/-- The groups alone, where the digits that a last group has not are those of zero bits. -/
def base64Groups : List UInt8 → List UInt8
  | [] => []
  | [a] => base64Group a 0 0
  | [a, b] => base64Group a b 0
  | a :: b :: c :: rest => base64Group a b c ++ base64Groups rest

@[simp] theorem length_base64Group (a b c : UInt8) : (base64Group a b c).length = 4 := rfl

theorem length_base64Groups : ∀ data : List UInt8,
    (base64Groups data).length = 4 * ((data.length + 2) / 3)
  | [] => by simp [base64Groups]
  | [_] => by simp [base64Groups]
  | [_, _] => by simp [base64Groups]
  | a :: b :: c :: rest => by
    rw [base64Groups, List.length_append, length_base64Group, length_base64Groups rest]
    simp only [List.length_cons]
    omega

/-- How many padding characters a text of `n` octets has. -/
def base64Padding (n : Nat) : Nat := (3 - n % 3) % 3

/-- The encoding is the groups with the padding written over their end. -/
theorem base64_eq_groups : ∀ data : List UInt8,
    base64 data = (base64Groups data).take ((base64Groups data).length - base64Padding data.length)
      ++ List.replicate (base64Padding data.length) base64Pad
  | [] => rfl
  | [_] => rfl
  | [_, _] => rfl
  | a :: b :: c :: rest => by
    have hpad : base64Padding (a :: b :: c :: rest).length = base64Padding rest.length := by
      simp only [base64Padding, List.length_cons]
      omega
    have hle : base64Padding rest.length ≤ (base64Groups rest).length := by
      rw [length_base64Groups, base64Padding]
      omega
    rw [hpad, base64, base64Groups, base64_eq_groups rest, List.length_append, length_base64Group,
      Nat.add_sub_assoc hle, ← length_base64Group a b c, List.take_length_add_append,
      List.append_assoc]

theorem base64Char_ne_zero (value : Nat) : base64Char value ≠ 0 := by
  unfold base64Char
  split
  · rename_i h
    revert h
    revert value
    decide
  · split
    · rename_i h
      have hsmall : ∀ n < 26, UInt8.ofNat (97 + n) ≠ 0 := by decide
      exact hsmall _ (by omega)
    · split
      · rename_i h
        have hsmall : ∀ n < 10, UInt8.ofNat (48 + n) ≠ 0 := by decide
        exact hsmall _ (by omega)
      · split <;> decide

/-- There is no NUL in a group. -/
theorem noNul_base64Group (a b c : UInt8) : (0 : UInt8) ∉ base64Group a b c := by
  intro h
  simp only [base64Group, List.mem_cons, List.not_mem_nil, or_false] at h
  rcases h with h | h | h | h
  all_goals exact base64Char_ne_zero _ h.symm

/-- There is no NUL in an encoding. -/
theorem noNul_base64 : ∀ data : List UInt8, (0 : UInt8) ∉ base64 data
  | [] => List.not_mem_nil
  | [a] => by
    intro h
    rcases List.mem_append.mp h with h | h
    · exact noNul_base64Group a 0 0 (List.mem_of_mem_take h)
    · exact absurd h (by decide)
  | [a, b] => by
    intro h
    rcases List.mem_append.mp h with h | h
    · exact noNul_base64Group a b 0 (List.mem_of_mem_take h)
    · exact absurd h (by decide)
  | a :: b :: c :: rest => by
    intro h
    rcases List.mem_append.mp h with h | h
    · exact noNul_base64Group a b c h
    · exact noNul_base64 rest h

/-! ## Decoding -/

/-- Table 1 read backwards. -/
def base64Value (c : UInt8) : Option Nat :=
  if 65 ≤ c ∧ c ≤ 90 then some (c.toNat - 65)
  else if 97 ≤ c ∧ c ≤ 122 then some (c.toNat - 97 + 26)
  else if 48 ≤ c ∧ c ≤ 57 then some (c.toNat - 48 + 52)
  else if c = 43 then some 62
  else if c = 47 then some 63
  else none

/-- The octets of four characters, of which the last one or two may be padding. -/
def base64Octets (a b c d : UInt8) : Option (List UInt8) := do
  let v1 ← base64Value a
  let v2 ← base64Value b
  let first := UInt8.ofNat (v1 * 4 + v2 / 16)
  if c = base64Pad ∧ d = base64Pad then return [first]
  let v3 ← base64Value c
  let second := UInt8.ofNat (v2 % 16 * 16 + v3 / 4)
  if d = base64Pad then return [first, second]
  let v4 ← base64Value d
  return [first, second, UInt8.ofNat (v3 % 4 * 64 + v4)]

/-- The decoding.  Only the last group is padded. -/
def base64Decode : List UInt8 → Option (List UInt8)
  | [] => some []
  | a :: b :: c :: d :: rest => do
    let octets ← base64Octets a b c d
    if octets.length < 3 ∧ rest ≠ [] then none
    let more ← base64Decode rest
    return octets ++ more
  | _ => none

theorem base64Value_char : ∀ value < 64, base64Value (base64Char value) = some value := by decide

theorem base64Char_ne_pad : ∀ value < 64, base64Char value ≠ base64Pad := by decide

theorem octet_eq {v : Nat} (a : UInt8) (h : v = a.toNat) : UInt8.ofNat v = a := by
  rw [h]
  exact UInt8.ofNat_toNat

/-- One octet and padding. -/
theorem base64Octets_one (a : UInt8) :
    base64Octets (base64Char (a.toNat / 4)) (base64Char (a.toNat % 4 * 16)) base64Pad base64Pad
      = some [a] := by
  have ha := a.toNat_lt
  have hfirst : UInt8.ofNat (a.toNat / 4 * 4 + a.toNat % 4 * 16 / 16) = a := octet_eq a (by omega)
  rw [base64Octets, base64Value_char _ (by omega), base64Value_char _ (by omega)]
  simp only [Option.bind_eq_bind, Option.bind_some, and_self, if_true, hfirst]
  rfl

/-- Two octets and padding. -/
theorem base64Octets_two (a b : UInt8) :
    base64Octets (base64Char (a.toNat / 4)) (base64Char (a.toNat % 4 * 16 + b.toNat / 16))
      (base64Char (b.toNat % 16 * 4)) base64Pad = some [a, b] := by
  have ha := a.toNat_lt
  have hb := b.toNat_lt
  have hfirst : UInt8.ofNat (a.toNat / 4 * 4 + (a.toNat % 4 * 16 + b.toNat / 16) / 16) = a :=
    octet_eq a (by omega)
  have hsecond : UInt8.ofNat ((a.toNat % 4 * 16 + b.toNat / 16) % 16 * 16 + b.toNat % 16 * 4 / 4)
      = b := octet_eq b (by omega)
  have hdigit := base64Char_ne_pad (b.toNat % 16 * 4) (by omega)
  rw [base64Octets, base64Value_char _ (by omega), base64Value_char _ (by omega),
    base64Value_char _ (by omega)]
  simp only [Option.bind_eq_bind, Option.bind_some, hdigit, false_and, if_false, if_true, hfirst,
    hsecond]
  rfl

/-- Three octets. -/
theorem base64Octets_three (a b c : UInt8) :
    base64Octets (base64Char (a.toNat / 4)) (base64Char (a.toNat % 4 * 16 + b.toNat / 16))
      (base64Char (b.toNat % 16 * 4 + c.toNat / 64)) (base64Char (c.toNat % 64))
        = some [a, b, c] := by
  have ha := a.toNat_lt
  have hb := b.toNat_lt
  have hc := c.toNat_lt
  have hfirst : UInt8.ofNat (a.toNat / 4 * 4 + (a.toNat % 4 * 16 + b.toNat / 16) / 16) = a :=
    octet_eq a (by omega)
  have hsecond : UInt8.ofNat ((a.toNat % 4 * 16 + b.toNat / 16) % 16 * 16
      + (b.toNat % 16 * 4 + c.toNat / 64) / 4) = b := octet_eq b (by omega)
  have hthird : UInt8.ofNat ((b.toNat % 16 * 4 + c.toNat / 64) % 4 * 64 + c.toNat % 64) = c :=
    octet_eq c (by omega)
  have hdigit := base64Char_ne_pad (b.toNat % 16 * 4 + c.toNat / 64) (by omega)
  have hlast := base64Char_ne_pad (c.toNat % 64) (by omega)
  rw [base64Octets, base64Value_char _ (by omega), base64Value_char _ (by omega),
    base64Value_char _ (by omega), base64Value_char _ (by omega)]
  simp only [Option.bind_eq_bind, Option.bind_some, hdigit, hlast, false_and, if_false, hfirst,
    hsecond, hthird]
  rfl

/-- **The decoding of an encoding gives back the octets.** -/
theorem base64Decode_base64 : ∀ data : List UInt8, base64Decode (base64 data) = some data
  | [] => rfl
  | [a] => by
    show base64Decode [base64Char (a.toNat / 4), base64Char (a.toNat % 4 * 16), base64Pad,
      base64Pad] = some [a]
    rw [base64Decode, base64Octets_one]
    rfl
  | [a, b] => by
    show base64Decode [base64Char (a.toNat / 4), base64Char (a.toNat % 4 * 16 + b.toNat / 16),
      base64Char (b.toNat % 16 * 4), base64Pad] = some [a, b]
    rw [base64Decode, base64Octets_two]
    rfl
  | a :: b :: c :: rest => by
    rw [base64, base64Group, List.cons_append, List.cons_append, List.cons_append,
      List.cons_append, List.nil_append, base64Decode, base64Octets_three]
    simp [base64Decode_base64 rest]

end TinyPilotKvm
