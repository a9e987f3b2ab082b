/-
# `echo -e` of bash

`echo -e` expands backslash sequences in its argument, in a UTF-8 locale as below.  `HasEscape` says
that a text has such a sequence.  A text without one is printed as it is (`ansicstr_eq_self`), and
one that has a sequence comes out shorter (`length_ansicstr_lt`).
-/
import Mathlib.Algebra.Ring.Nat
import Mathlib.Data.List.Induction
import Mathlib.Tactic.SplitIfs

namespace TinyPilotKvm
namespace Bash

/-! ## 1. Digits -/

/-- An ASCII character. -/
def ch (c : Char) : UInt8 := c.toNat.toUInt8

def hexDigit (b : UInt8) : Option Nat :=
  if 48 ≤ b ∧ b ≤ 57 then some (b.toNat - 48)
  else if 65 ≤ b ∧ b ≤ 70 then some (b.toNat - 55)
  else if 97 ≤ b ∧ b ≤ 102 then some (b.toNat - 87)
  else none

def octalDigit (b : UInt8) : Option Nat :=
  if 48 ≤ b ∧ b ≤ 55 then some (b.toNat - 48) else none

/-- The digits that a text begins with, `limit` at most. -/
def leadingDigits (digit : UInt8 → Option Nat) : Nat → List UInt8 → List Nat
  | limit + 1, b :: s =>
    match digit b with
    | some d => d :: leadingDigits digit limit s
    | none => []
  | _, _ => []

def value (base : Nat) (digits : List Nat) : Nat := digits.foldl (fun v d => v * base + d) 0

/-- `u32toutf8`. -/
def u32toutf8 (wc : Nat) : List UInt8 :=
  let tail (shift : Nat) : UInt8 := (0x80 + wc / 2 ^ shift % 64).toUInt8
  if wc < 0x80 then [wc.toUInt8]
  else if wc < 0x800 then [(0xc0 + wc / 2 ^ 6).toUInt8, tail 0]
  else if wc < 0x10000 then [(0xe0 + wc / 2 ^ 12).toUInt8, tail 6, tail 0]
  else if wc < 0x200000 then [(0xf0 + wc / 2 ^ 18).toUInt8, tail 12, tail 6, tail 0]
  else if wc < 0x4000000 then [(0xf8 + wc / 2 ^ 24).toUInt8, tail 18, tail 12, tail 6, tail 0]
  else if wc < 0x80000000 then
    [(0xfc + wc / 2 ^ 30).toUInt8, tail 24, tail 18, tail 12, tail 6, tail 0]
  else []

/-! ## 2. The builtin -/

def backslash : UInt8 := 92

/-- `\a`, `\b` and so on. -/
def simpleEscape (c : UInt8) : Option UInt8 :=
  [(ch 'a', 7), (ch 'b', 8), (ch 'e', 27), (ch 'E', 27), (ch 'f', 12), (ch 'n', 10), (ch 'r', 13),
    (ch 't', 9), (ch 'v', 11), (backslash, backslash)].lookup c

/-- What a backslash and the text after it come to: the end of all output, or some bytes in place
of the backslash and of the first bytes of the text. -/
inductive Escape
  | stop
  | bytes (out : List UInt8) (used : Nat)

/-- `\xHH`, `\uXXXX` and `\UXXXXXXXX`, with `limit` digits at most; without a digit they stay. -/
def hexEscape (c : UInt8) (limit : Nat) (out : Nat → List UInt8) (s : List UInt8) : Escape :=
  let digits := leadingDigits hexDigit limit s
  if digits = [] then .bytes [backslash, c] 1
  else .bytes (out (value 16 digits)) (1 + digits.length)

def escape : List UInt8 → Escape
  | [] => .bytes [backslash] 0
  | c :: s =>
    match simpleEscape c with
    | some b => .bytes [b] 1
    | none =>
      if c = ch 'c' then .stop
      else if c = ch '0' then
        let digits := leadingDigits octalDigit 3 s
        .bytes [(value 8 digits).toUInt8] (1 + digits.length)
      else if c = ch 'x' then hexEscape c 2 (fun v => [v.toUInt8]) s
      else if c = ch 'u' then hexEscape c 4 u32toutf8 s
      else if c = ch 'U' then hexEscape c 8 u32toutf8 s
      else .bytes [backslash, c] 1

/-- `ansicstr`, for `echo`: the text after the first `skip` bytes, expanded, and whether it has been
cut off. -/
def ansicstr : Nat → List UInt8 → List UInt8 × Bool
  | _, [] => ([], false)
  | skip + 1, _ :: s => ansicstr skip s
  | 0, c :: s =>
    if c = backslash then
      match escape s with
      | .stop => ([], true)
      | .bytes out used => (out ++ (ansicstr used s).1, (ansicstr used s).2)
    else (c :: (ansicstr 0 s).1, (ansicstr 0 s).2)

/-- `echo -e arg`. -/
def echoE (arg : List UInt8) : List UInt8 :=
  (ansicstr 0 arg).1 ++ if (ansicstr 0 arg).2 then [] else [10]

/-- `echo arg`, for an argument that is no option. -/
def echo (arg : List UInt8) : List UInt8 := arg ++ [10]

/-- An argument that `echo` takes as an option. -/
def isEchoOption : List UInt8 → Bool
  | dash :: letters =>
    dash = ch '-' && letters ≠ [] && letters.all fun c => c = ch 'n' || c = ch 'e' || c = ch 'E'
  | [] => false

/-- `echo -n arg`. -/
def echoN (arg : List UInt8) : List UInt8 := if isEchoOption arg then [] else arg

/-! ## 3. Escapes -/

/-- A backslash and this text after it are expanded. -/
def expands : List UInt8 → Bool
  | [] => false
  | c :: s => (simpleEscape c).isSome || c = ch 'c' || c = ch '0' ||
    ((c = ch 'x' || c = ch 'u' || c = ch 'U') && (s.head?.bind hexDigit).isSome)

def HasEscape (s : List UInt8) : Prop :=
  ∃ before after, s = before ++ backslash :: after ∧ expands after = true

theorem length_leadingDigits_le (digit : UInt8 → Option Nat) :
    ∀ (limit : Nat) (s : List UInt8), (leadingDigits digit limit s).length ≤ s.length
  | 0, _ => Nat.zero_le _
  | _ + 1, [] => Nat.zero_le _
  | limit + 1, b :: s => by
    unfold leadingDigits
    split
    · exact Nat.succ_le_succ (length_leadingDigits_le digit limit s)
    · exact Nat.zero_le _

/-- There is a digit if the first byte is one. -/
theorem leadingDigits_ne_nil (digit : UInt8 → Option Nat) {limit : Nat} (hlimit : 0 < limit)
    (s : List UInt8) : leadingDigits digit limit s ≠ [] ↔ (s.head?.bind digit).isSome = true := by
  obtain ⟨limit, rfl⟩ := Nat.exists_eq_succ_of_ne_zero (Nat.ne_of_gt hlimit)
  cases s with
  | nil => simp [leadingDigits]
  | cons b s =>
    rw [leadingDigits]
    cases hb : digit b <;> simp [hb]

theorem hexDigit_lt {b : UInt8} {d : Nat} (h : hexDigit b = some d) : d < 16 := by
  unfold hexDigit at h
  simp only [UInt8.le_iff_toNat_le] at h
  split at h
  · obtain rfl := Option.some.inj h
    have : b.toNat ≤ 57 := by simp_all
    omega
  · split at h
    · obtain rfl := Option.some.inj h
      have : b.toNat ≤ 70 := by simp_all
      omega
    · split at h
      · obtain rfl := Option.some.inj h
        have : b.toNat ≤ 102 := by simp_all
        omega
      · exact absurd h (by simp)

theorem hexDigit_of_mem_leadingDigits : ∀ {limit : Nat} {s : List UInt8} {d : Nat},
    d ∈ leadingDigits hexDigit limit s → d < 16
  | 0, _, _, h => absurd h (by simp [leadingDigits])
  | _ + 1, [], _, h => absurd h (by simp [leadingDigits])
  | limit + 1, b :: s, d, h => by
    rw [leadingDigits] at h
    split at h
    · rename_i d' hd'
      rcases List.mem_cons.mp h with rfl | h
      · exact hexDigit_lt hd'
      · exact hexDigit_of_mem_leadingDigits h
    · exact absurd h List.not_mem_nil

/-- A number of `n` digits. -/
theorem value_lt {digits : List Nat} (h : ∀ d ∈ digits, d < 16) :
    value 16 digits < 16 ^ digits.length := by
  unfold value
  induction digits using List.reverseRecOn with
  | nil => exact Nat.one_pos
  | append_singleton digits d ih =>
    have hd : d < 16 := h d (by simp)
    have hdigits := ih fun d hd => h d (by simp [hd])
    rw [List.foldl_append, List.length_append, List.length_singleton, Nat.pow_succ]
    simp only [List.foldl_cons, List.foldl_nil]
    omega

/-- A character is no longer than its digits with `\u` before them. -/
theorem length_u32toutf8_lt {wc n : Nat} (h : wc < 16 ^ n) (hn : 0 < n) :
    (u32toutf8 wc).length < n + 2 := by
  have hthree : n ≤ 4 → wc < 0x10000 := fun hle =>
    Nat.lt_of_lt_of_le h (Nat.pow_le_pow_right (by decide) hle)
  have htwo : n ≤ 2 → wc < 0x800 := fun hle =>
    Nat.lt_of_lt_of_le (Nat.lt_of_lt_of_le h (Nat.pow_le_pow_right (by decide) hle)) (by decide)
  have hone : n ≤ 1 → wc < 0x80 := fun hle =>
    Nat.lt_of_lt_of_le (Nat.lt_of_lt_of_le h (Nat.pow_le_pow_right (by decide) hle)) (by decide)
  unfold u32toutf8
  split_ifs <;> simp only [List.length_cons, List.length_nil] <;> omega

/-- With a digit they are expanded, else they stay. -/
theorem expands_hex {c : UInt8} (hc : c = ch 'x' ∨ c = ch 'u' ∨ c = ch 'U') (s : List UInt8) :
    expands (c :: s) = (s.head?.bind hexDigit).isSome := by
  rcases hc with rfl | rfl | rfl <;> rfl

/-- What an escape does: it ends the output, or it is expanded to something shorter, or it stays as
it is, and then no second backslash is in it. -/
def Escape.Does (s : List UInt8) : Escape → Prop
  | stop => expands s = true
  | bytes out used => used ≤ s.length ∧
      ((expands s = true ∧ out.length ≤ used) ∨
        (expands s = false ∧ out = backslash :: s.take used ∧ backslash ∉ s.take used))

theorem hexEscape_does {c : UInt8} (hc : c = ch 'x' ∨ c = ch 'u' ∨ c = ch 'U') {limit : Nat}
    (hlimit : 0 < limit) {out : Nat → List UInt8}
    (hout : ∀ v n, v < 16 ^ n → 0 < n → (out v).length < n + 2) (s : List UInt8) :
    (hexEscape c limit out s).Does (c :: s) := by
  have hexp := expands_hex hc s
  have hdigit := leadingDigits_ne_nil hexDigit hlimit s
  unfold hexEscape
  dsimp only
  split
  · rename_i hnil
    refine ⟨by simp, Or.inr ⟨?_, rfl, ?_⟩⟩
    · rw [hexp, ← Bool.not_eq_true]
      exact fun hsome => hdigit.mpr hsome hnil
    · rcases hc with rfl | rfl | rfl <;> simp [ch, backslash]
  · rename_i hne
    have hlen := length_leadingDigits_le hexDigit limit s
    have hdigits : ∀ d ∈ leadingDigits hexDigit limit s, d < 16 :=
      fun d hd => hexDigit_of_mem_leadingDigits hd
    have hval := value_lt hdigits
    have hshort := hout _ _ hval (List.length_pos_iff.mpr hne)
    refine ⟨by rw [List.length_cons]; omega, Or.inl ⟨?_, by omega⟩⟩
    rw [hexp]
    exact hdigit.mp hne

theorem escape_does : ∀ s : List UInt8, (escape s).Does s
  | [] => ⟨Nat.le_refl 0, Or.inr ⟨rfl, rfl, by simp⟩⟩
  | c :: s => by
    rw [escape]
    cases hsimple : simpleEscape c with
    | some b => exact ⟨by simp, Or.inl ⟨by simp [expands, hsimple], by simp⟩⟩
    | none =>
      dsimp only
      split_ifs with hc h0 hx hu hU
      · rw [hc]
        rfl
      · have hlen := length_leadingDigits_le octalDigit 3 s
        exact ⟨by rw [List.length_cons]; omega, Or.inl ⟨by simp [expands, h0], by simp⟩⟩
      · refine hexEscape_does (Or.inl hx) Nat.two_pos (fun v n _ hn => ?_) s
        rw [List.length_singleton]
        omega
      · exact hexEscape_does (Or.inr (Or.inl hu)) (Nat.succ_pos 3)
          (fun v n => length_u32toutf8_lt) s
      · exact hexEscape_does (Or.inr (Or.inr hU)) (Nat.succ_pos 7)
          (fun v n => length_u32toutf8_lt) s
      · have hne : c ≠ backslash := by
          rintro rfl
          exact absurd hsimple (by decide)
        exact ⟨by simp, Or.inr ⟨by simp [expands, hsimple, hc, h0, hx, hu, hU], rfl,
          by simpa using hne.symm⟩⟩

/-! ## 4. The whole text -/

theorem hasEscape_cons {c : UInt8} {s : List UInt8} :
    HasEscape (c :: s) ↔ (c = backslash ∧ expands s = true) ∨ HasEscape s := by
  constructor
  · rintro ⟨before, after, heq, hafter⟩
    cases before with
    | nil =>
      obtain ⟨rfl, rfl⟩ := List.cons.inj heq
      exact Or.inl ⟨rfl, hafter⟩
    | cons d before =>
      obtain ⟨-, rfl⟩ := List.cons.inj heq
      exact Or.inr ⟨before, after, rfl, hafter⟩
  · rintro (⟨rfl, hs⟩ | ⟨before, after, rfl, hafter⟩)
    · exact ⟨[], s, rfl, hs⟩
    · exact ⟨c :: before, after, rfl, hafter⟩

theorem not_hasEscape_nil : ¬ HasEscape [] := by
  rintro ⟨before, after, heq, -⟩
  simp at heq

instance instDecidablePredHasEscape : DecidablePred HasEscape
  | [] => isFalse not_hasEscape_nil
  | _ :: s =>
    have : Decidable (HasEscape s) := instDecidablePredHasEscape s
    decidable_of_iff _ hasEscape_cons.symm

theorem hasEscape_append_of_notMem : ∀ {t s : List UInt8}, backslash ∉ t →
    (HasEscape (t ++ s) ↔ HasEscape s)
  | [], _, _ => Iff.rfl
  | c :: t, s, h => by
    rw [List.mem_cons, not_or] at h
    rw [List.cons_append, hasEscape_cons, hasEscape_append_of_notMem h.2]
    exact or_iff_right fun hc => h.1 hc.1.symm

theorem ansicstr_drop : ∀ (n : Nat) (s : List UInt8), ansicstr n s = ansicstr 0 (s.drop n)
  | 0, _ => rfl
  | _ + 1, [] => rfl
  | n + 1, _ :: s => ansicstr_drop n s

theorem ansicstr_cons_of_ne {c : UInt8} (hc : c ≠ backslash) (s : List UInt8) :
    ansicstr 0 (c :: s) = (c :: (ansicstr 0 s).1, (ansicstr 0 s).2) := by
  rw [ansicstr, if_neg hc]

/-- At a backslash: an escape makes the text shorter, and what is no escape stays. -/
theorem ansicstr_backslash (s : List UInt8) :
    (expands s = true ∧ ∃ out rest, out.length + rest.length ≤ s.length ∧
      ((ansicstr 0 (backslash :: s)).1 = out ++ (ansicstr 0 rest).1 ∨
        (ansicstr 0 (backslash :: s)).1 = [])) ∨
      (expands s = false ∧ ∃ stays rest, s = stays ++ rest ∧ backslash ∉ stays ∧
        ansicstr 0 (backslash :: s)
          = (backslash :: stays ++ (ansicstr 0 rest).1, (ansicstr 0 rest).2)) := by
  have hdoes := escape_does s
  rw [ansicstr, if_pos rfl]
  cases hescape : escape s with
  | stop =>
    rw [hescape] at hdoes
    exact Or.inl ⟨hdoes, [], s, by simp, Or.inr rfl⟩
  | bytes out used =>
    rw [hescape] at hdoes
    dsimp only
    rw [ansicstr_drop used s]
    rcases hdoes with ⟨hused, ⟨hexp, hout⟩ | ⟨hexp, hout, hfree⟩⟩
    · refine Or.inl ⟨hexp, out, s.drop used, ?_, Or.inl rfl⟩
      rw [List.length_drop]
      omega
    · exact Or.inr ⟨hexp, s.take used, s.drop used, (List.take_append_drop used s).symm, hfree,
        by rw [hout]⟩

/-- **A text without an escape is printed as it is.** -/
theorem ansicstr_eq_self {s : List UInt8} (h : ¬ HasEscape s) : ansicstr 0 s = (s, false) := by
  induction hn : s.length using Nat.strongRecOn generalizing s with
  | _ n ih =>
    cases s with
    | nil => rfl
    | cons c s =>
      rw [List.length_cons] at hn
      rw [hasEscape_cons, not_or] at h
      by_cases hc : c = backslash
      · subst hc
        rcases ansicstr_backslash s with ⟨hexp, -⟩ | ⟨-, stays, rest, rfl, hfree, heq⟩
        · exact absurd ⟨rfl, hexp⟩ h.1
        · rw [hasEscape_append_of_notMem hfree] at h
          rw [List.length_append] at hn
          rw [heq, ih rest.length (by omega) h.2 rfl]
          rfl
      · rw [ansicstr_cons_of_ne hc, ih s.length (by omega) h.2 rfl]

/-- **A text with an escape comes out shorter**, and no text comes out longer. -/
theorem length_ansicstr (s : List UInt8) : (ansicstr 0 s).1.length ≤ s.length ∧
    (HasEscape s → (ansicstr 0 s).1.length < s.length) := by
  induction hn : s.length using Nat.strongRecOn generalizing s with
  | _ n ih =>
    cases s with
    | nil => exact ⟨Nat.zero_le _, fun h => absurd h not_hasEscape_nil⟩
    | cons c s =>
      rw [List.length_cons] at hn
      rw [hasEscape_cons]
      by_cases hc : c = backslash
      · subst hc
        rcases ansicstr_backslash s with ⟨-, out, rest, hle, hprinted⟩ |
          ⟨hexp, stays, rest, rfl, hfree, heq⟩
        · have hlt : (ansicstr 0 (backslash :: s)).1.length < n := by
            rcases hprinted with heq | heq
            · have hrest := (ih rest.length (by omega) rest rfl).1
              rw [heq, List.length_append]
              omega
            · rw [heq, List.length_nil]
              omega
          exact ⟨Nat.le_of_lt hlt, fun _ => hlt⟩
        · rw [List.length_append] at hn
          obtain ⟨hle, hlt⟩ := ih rest.length (by omega) rest rfl
          rw [heq, List.length_append, List.length_cons, hasEscape_append_of_notMem hfree, hexp]
          refine ⟨by omega, ?_⟩
          rintro (⟨-, hfalse⟩ | h)
          · exact absurd hfalse (by simp)
          · have hshort := hlt h
            omega
      · obtain ⟨hle, hlt⟩ := ih s.length (by omega) s rfl
        rw [ansicstr_cons_of_ne hc, List.length_cons]
        refine ⟨by omega, ?_⟩
        rintro (⟨hfalse, -⟩ | h)
        · exact absurd hfalse hc
        · have hshort := hlt h
          omega

/-- A quote after a text makes no difference. -/
theorem hasEscape_append_quote : ∀ s : List UInt8, HasEscape (s ++ [ch '"']) ↔ HasEscape s
  | [] => by
    rw [List.nil_append, hasEscape_cons]
    simp [ch, backslash, not_hasEscape_nil]
  | c :: s => by
    have hexp : expands (s ++ [ch '"']) = expands s := by
      cases s with
      | nil => rfl
      | cons d s => cases s <;> simp [expands, hexDigit, ch]
    rw [List.cons_append, hasEscape_cons, hasEscape_cons, hasEscape_append_quote s, hexp]

end Bash
end TinyPilotKvm
