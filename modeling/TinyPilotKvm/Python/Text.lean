/-
# Python texts: encodings, lines and blanks

What `os.fsencode` makes of a text for a command line, and what a program that has written bytes is
read as: strict UTF-8, with universal newlines.
-/
import Mathlib.Data.List.DropRight
import Mathlib.Tactic.SplitIfs
import TinyPilotKvm.Lines
import TinyPilotKvm.Python.Values

namespace TinyPilotKvm
namespace PyStr

/-! ## 1. Encodings -/

/-- A code point as a part of a command line; a surrogate that stands for a byte is that byte. -/
def fsencodeChar (c : Nat) : Option (List UInt8) :=
  if 0xDC80 ≤ c ∧ c ≤ 0xDCFF then some [(c - 0xDC00).toUInt8]
  else if c.isValidChar then some (String.utf8EncodeChar (Char.ofNat c))
  else none

/-- `os.fsencode`, which fails at a surrogate of another kind. -/
def fsencode : PyStr → Option (List UInt8)
  | [] => some []
  | c :: s => do return (← fsencodeChar c) ++ (← fsencode s)

def encodeUtf8 (chars : List Char) : List UInt8 := chars.flatMap String.utf8EncodeChar

/-- `bytes.decode('utf-8')`. -/
def decodeUtf8 (bytes : List UInt8) : Option PyStr :=
  bytes.toByteArray.utf8Decode?.map fun chars => chars.toList.map Char.toNat

def IsSurrogate (c : Nat) : Prop := 0xD800 ≤ c ∧ c ≤ 0xDFFF

instance (c : Nat) : Decidable (IsSurrogate c) := inferInstanceAs (Decidable (_ ∧ _))

theorem toByteArray_injective {bytes bytes' : List UInt8}
    (h : bytes.toByteArray = bytes'.toByteArray) : bytes = bytes' := by
  have hdata := congrArg (fun b => b.data.toList) h
  simpa using hdata

theorem decodeUtf8_encodeUtf8 (chars : List Char) :
    decodeUtf8 (encodeUtf8 chars) = some (chars.map Char.toNat) := by
  have hdecode := List.utf8Decode?_utf8Encode (l := chars)
  unfold decodeUtf8 encodeUtf8
  rw [List.utf8Encode] at hdecode
  rw [hdecode]
  rfl

theorem decodeUtf8_eq_some_iff {bytes : List UInt8} {s : PyStr} :
    decodeUtf8 bytes = some s ↔ ∃ chars, bytes = encodeUtf8 chars ∧ s = chars.map Char.toNat := by
  constructor
  · intro h
    obtain ⟨found, hfound, -⟩ := Option.map_eq_some_iff.mp h
    have hsome : bytes.toByteArray.utf8Decode?.isSome = true := by
      rw [hfound]
      rfl
    obtain ⟨chars, hchars⟩ := ByteArray.isSome_utf8Decode?_iff.mp hsome
    have hbytes : bytes = encodeUtf8 chars := toByteArray_injective hchars
    rw [hbytes, decodeUtf8_encodeUtf8] at h
    exact ⟨chars, hbytes, (Option.some.inj h).symm⟩
  · rintro ⟨chars, rfl, rfl⟩
    exact decodeUtf8_encodeUtf8 chars

theorem not_isSurrogate (c : Char) : ¬ IsSurrogate c.toNat := by
  have h : c.toNat.isValidChar := c.valid
  unfold IsSurrogate
  rcases h with h | ⟨h, -⟩ <;> omega

theorem fsencodeChar_toNat (c : Char) :
    fsencodeChar c.toNat = some (String.utf8EncodeChar c) := by
  have hs := not_isSurrogate c
  have hvalid : c.toNat.isValidChar := c.valid
  unfold IsSurrogate at hs
  unfold fsencodeChar
  rw [if_neg (by omega), if_pos hvalid, Char.ofNat_toNat]

theorem encodeUtf8_append (chars chars' : List Char) :
    encodeUtf8 (chars ++ chars') = encodeUtf8 chars ++ encodeUtf8 chars' := List.flatMap_append

/-- An ASCII byte stands for itself only. -/
theorem mem_utf8EncodeChar {c : Char} {b : UInt8} (h : b ∈ String.utf8EncodeChar c) :
    b.toNat = c.toNat ∨ 128 ≤ b.toNat := by
  have hlead (n m : Nat) (hn : n < m) (base : Nat) (hbase : 128 ≤ base) (hsum : base + m ≤ 256) :
      128 ≤ (UInt8.ofNat (n + base)).toNat := by
    rw [UInt8.toNat_ofNat']
    omega
  have htail (n : Nat) : 128 ≤ (UInt8.ofNat (n % 64 + 128)).toNat :=
    hlead _ 64 (Nat.mod_lt _ (by decide)) 128 (by decide) (by decide)
  unfold String.utf8EncodeChar at h
  dsimp only at h
  split_ifs at h with h1 h2 h3 <;> simp only [List.mem_cons, List.not_mem_nil, or_false] at h
  · left
    rw [h, UInt8.toNat_ofNat']
    exact Nat.mod_eq_of_lt (by omega)
  · right
    rcases h with rfl | rfl
    · exact hlead _ 32 (Nat.mod_lt _ (by decide)) 192 (by decide) (by decide)
    · exact htail _
  · right
    rcases h with rfl | rfl | rfl
    · exact hlead _ 16 (Nat.mod_lt _ (by decide)) 224 (by decide) (by decide)
    · exact htail _
    · exact htail _
  · right
    rcases h with rfl | rfl | rfl | rfl
    · exact hlead _ 8 (Nat.mod_lt _ (by decide)) 240 (by decide) (by decide)
    · exact htail _
    · exact htail _
    · exact htail _

theorem mem_encodeUtf8 {chars : List Char} {b : UInt8} (hb : b.toNat < 128)
    (h : b ∈ encodeUtf8 chars) : ∃ c ∈ chars, c.toNat = b.toNat := by
  obtain ⟨c, hc, hmem⟩ := List.mem_flatMap.mp h
  rcases mem_utf8EncodeChar hmem with heq | hge
  · exact ⟨c, hc, heq.symm⟩
  · omega

/-- Without surrogates it is UTF-8. -/
theorem fsencode_toNat : ∀ chars : List Char,
    fsencode (chars.map Char.toNat) = some (encodeUtf8 chars)
  | [] => rfl
  | c :: chars => by
    rw [List.map_cons, fsencode, fsencodeChar_toNat, fsencode_toNat chars]
    rfl

theorem toNat_ofNat {c : Nat} (h : c.isValidChar) : (Char.ofNat c).toNat = c := by
  rw [Char.ofNat, dif_pos h]
  rfl

/-- Without surrogates it consists of characters. -/
theorem exists_chars : ∀ {s : PyStr} {bytes : List UInt8}, fsencode s = some bytes →
    (∀ c ∈ s, ¬ IsSurrogate c) → ∃ chars : List Char, s = chars.map Char.toNat
  | [], _, _, _ => ⟨[], rfl⟩
  | c :: s, bytes, h, hs => by
    obtain ⟨hc, hs⟩ := List.forall_mem_cons.mp hs
    rw [fsencode] at h
    obtain ⟨first, hfirst, h⟩ := Option.bind_eq_some_iff.mp h
    obtain ⟨rest, hrest, -⟩ := Option.bind_eq_some_iff.mp h
    obtain ⟨chars, rfl⟩ := exists_chars hrest hs
    unfold fsencodeChar at hfirst
    unfold IsSurrogate at hc
    rw [if_neg (by omega)] at hfirst
    split at hfirst
    · rename_i hvalid
      exact ⟨Char.ofNat c :: chars, by rw [List.map_cons, toNat_ofNat hvalid]⟩
    · exact absurd hfirst (by simp)

/-- An ASCII byte of the encoding is a character of the text. -/
theorem notMem_of_fsencode {s : PyStr} {bytes : List UInt8} {b : UInt8}
    (h : fsencode s = some bytes) (hs : ∀ c ∈ s, ¬ IsSurrogate c) (hb : b.toNat < 128)
    (hmem : b.toNat ∉ s) : b ∉ bytes := by
  obtain ⟨chars, rfl⟩ := exists_chars h hs
  rw [fsencode_toNat] at h
  obtain rfl := Option.some.inj h
  intro hin
  obtain ⟨c, hc, heq⟩ := mem_encodeUtf8 hb hin
  exact hmem (heq ▸ List.mem_map_of_mem hc)

/-! ## 2. Lines -/

/-- Reading with `universal_newlines=True`. -/
def universalNewlines : PyStr → PyStr
  | [] => []
  | c :: s =>
    if c = 13 then
      -- of `\r\n` the `\n` stays
      if s.head? = some 10 then universalNewlines s else 10 :: universalNewlines s
    else c :: universalNewlines s

/-- The ends of a line for `splitlines`. -/
def IsLineBoundary (c : Nat) : Prop :=
  c ∈ [10, 11, 12, 13, 28, 29, 30, 0x85, 0x2028, 0x2029]

instance (c : Nat) : Decidable (IsLineBoundary c) := inferInstanceAs (Decidable (_ ∈ _))

/-- `splitlines`, after `line` has been read of the first. -/
def splitlines : PyStr → PyStr → List PyStr
  | [], line => if line = [] then [] else [line]
  | c :: s, line =>
    if IsLineBoundary c then
      if c = 13 ∧ s.head? = some 10 then splitlines s line else line :: splitlines s []
    else splitlines s (line ++ [c])

theorem universalNewlines_eq_self : ∀ {s : PyStr}, 13 ∉ s → universalNewlines s = s
  | [], _ => rfl
  | c :: s, h => by
    rw [List.mem_cons, not_or] at h
    rw [universalNewlines, if_neg (Ne.symm h.1), universalNewlines_eq_self h.2]

theorem exists_of_head? {s : PyStr} {c : Nat} (h : s.head? = some c) : ∃ t, s = c :: t :=
  ⟨s.tail, List.eq_cons_of_mem_head? h⟩

/-- The first character stays, or a newline comes in its place. -/
theorem universalNewlines_cons (c : Nat) (s : PyStr) :
    universalNewlines (c :: s) = c :: universalNewlines s ∨
      ∃ t, universalNewlines (c :: s) = 10 :: t ∧ t <:+ universalNewlines s := by
  rw [universalNewlines]
  split
  · split
    · rename_i hhead
      obtain ⟨s, rfl⟩ := exists_of_head? hhead
      rw [universalNewlines, if_neg (by decide)]
      exact Or.inr ⟨universalNewlines s, rfl, List.suffix_cons 10 _⟩
    · exact Or.inr ⟨universalNewlines s, rfl, List.suffix_rfl⟩
  · exact Or.inl rfl

/-- What has no newline was there before. -/
theorem prefix_of_universalNewlines : ∀ {s m : PyStr}, 10 ∉ m → m <+: universalNewlines s →
    m <+: s
  | _, [], _, _ => List.nil_prefix
  | [], _ :: _, _, h => h
  | c :: s, d :: m, hm, h => by
    rw [List.mem_cons, not_or] at hm
    rcases universalNewlines_cons c s with heq | ⟨t, heq, -⟩
    · rw [heq] at h
      obtain ⟨hd, hrest⟩ := List.cons_prefix_cons.mp h
      exact List.cons_prefix_cons.mpr ⟨hd, prefix_of_universalNewlines hm.2 hrest⟩
    · rw [heq] at h
      exact absurd (List.cons_prefix_cons.mp h).1.symm hm.1

theorem infix_of_universalNewlines : ∀ {s m : PyStr}, 10 ∉ m → m <:+: universalNewlines s →
    m <:+: s
  | [], _, _, h => h
  | c :: s, m, hm, h => by
    have hrest : m <:+: universalNewlines s → m <:+: c :: s := fun h =>
      (infix_of_universalNewlines hm h).trans (List.suffix_cons c s).isInfix
    have hfirst : m <+: universalNewlines (c :: s) → m <:+: c :: s := fun h =>
      (prefix_of_universalNewlines hm h).isInfix
    rcases universalNewlines_cons c s with heq | ⟨t, heq, ht⟩
    · rw [heq, List.infix_cons_iff, ← heq] at h
      exact h.elim hfirst hrest
    · rw [heq, List.infix_cons_iff, ← heq] at h
      exact h.elim hfirst fun h => hrest (h.trans ht.isInfix)

/-- A line has no boundary in it, and is a part of the text. -/
theorem mem_splitlines {s l : PyStr} : ∀ {line : PyStr}, (∀ c ∈ line, ¬ IsLineBoundary c) →
    l ∈ splitlines s line → (∀ c ∈ l, ¬ IsLineBoundary c) ∧ l <:+: line ++ s := by
  induction s with
  | nil =>
    intro line hline h
    rw [splitlines] at h
    split at h
    · exact absurd h List.not_mem_nil
    · rw [List.mem_singleton] at h
      rw [h, List.append_nil]
      exact ⟨hline, List.infix_rfl⟩
  | cons c s ih =>
    intro line hline h
    rw [splitlines] at h
    split at h
    · split at h
      · rename_i hcrlf
        obtain ⟨hl, hpart⟩ := ih hline h
        obtain ⟨t, rfl⟩ := exists_of_head? hcrlf.2
        have hnew : 10 ∉ l := fun hmem => hl 10 hmem (by decide)
        refine ⟨hl, ?_⟩
        rcases infix_append_cons hnew hpart with hpart | hpart
        · exact hpart.trans (List.prefix_append line _).isInfix
        · exact hpart.trans ⟨line ++ [c, 10], [], by simp⟩
      · rcases List.mem_cons.mp h with rfl | h
        · exact ⟨hline, (List.prefix_append l _).isInfix⟩
        · obtain ⟨hl, hpart⟩ := ih (by simp) h
          have hsuffix : s <:+ line ++ c :: s :=
            (List.suffix_cons c s).trans (List.suffix_append line _)
          exact ⟨hl, hpart.trans hsuffix.isInfix⟩
    · rename_i hc
      have hline' : ∀ d ∈ line ++ [c], ¬ IsLineBoundary d := by
        intro d hd
        rcases List.mem_append.mp hd with hd | hd
        · exact hline d hd
        · rw [List.mem_singleton] at hd
          rwa [hd]
      obtain ⟨hl, hpart⟩ := ih hline' h
      rw [List.append_assoc] at hpart
      exact ⟨hl, hpart⟩

theorem splitlines_append : ∀ {l : PyStr}, (∀ c ∈ l, ¬ IsLineBoundary c) → ∀ line s : PyStr,
    splitlines (l ++ 10 :: s) line = (line ++ l) :: splitlines s []
  | [], _, line, s => by
    rw [List.nil_append, splitlines, if_pos (by decide), if_neg (by simp), List.append_nil]
  | c :: l, h, line, s => by
    obtain ⟨hc, hl⟩ := List.forall_mem_cons.mp h
    rw [List.cons_append, splitlines, if_neg hc, splitlines_append hl, List.append_assoc]
    rfl

theorem splitlines_flatMap : ∀ {lines : List PyStr},
    (∀ l ∈ lines, ∀ c ∈ l, ¬ IsLineBoundary c) → splitlines (lines.flatMap (· ++ [10])) [] = lines
  | [], _ => rfl
  | l :: lines, h => by
    obtain ⟨hl, hlines⟩ := List.forall_mem_cons.mp h
    rw [List.flatMap_cons, List.append_assoc, List.singleton_append, splitlines_append hl,
      splitlines_flatMap hlines, List.nil_append]

/-! ## 3. Blanks -/

/-- `isspace` of a character. -/
def isSpace (c : Nat) : Bool :=
  (9 ≤ c && c ≤ 13) || (28 ≤ c && c ≤ 32) || (0x2000 ≤ c && c ≤ 0x200A) ||
    [0x85, 0xA0, 0x1680, 0x2028, 0x2029, 0x202F, 0x205F, 0x3000].contains c

/-- `strip`. -/
def strip (s : PyStr) : PyStr := (s.dropWhile isSpace).rdropWhile isSpace

theorem infix_strip (s : PyStr) : strip s <:+: s :=
  (List.rdropWhile_prefix _ _).isInfix.trans (List.dropWhile_suffix _).isInfix

end PyStr
end TinyPilotKvm
