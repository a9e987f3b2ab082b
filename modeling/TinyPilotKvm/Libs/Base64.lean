/-
# The Base 64 encoder (`libs/base64.c`)

`us_base64_encode` writes four characters for three octets, reading zeros behind the end of the
data, then writes the padding over the last of them, then a NUL.  The buffer is the caller's: it is
reallocated when there is none, or when the caller keeps its capacity and it is too small.

The buffer is checked memory.  Its two indices are `uint`s in the source and natural numbers here,
for data of less than 2 ^ 31 octets.  The cells that a reallocation adds read as zeros here; all of
them are written.
-/
import TinyPilotKvm.Formats.Base64
import TinyPilotKvm.Libs.Memory
import Mathlib.Algebra.Group.Nat.Even

namespace TinyPilotKvm

/-! ## 1. The code -/

/-- `_ENCODING_TABLE`. -/
def encodingTable : List Char := [
  'A', 'B', 'C', 'D', 'E', 'F', 'G', 'H',
  'I', 'J', 'K', 'L', 'M', 'N', 'O', 'P',
  'Q', 'R', 'S', 'T', 'U', 'V', 'W', 'X',
  'Y', 'Z', 'a', 'b', 'c', 'd', 'e', 'f',
  'g', 'h', 'i', 'j', 'k', 'l', 'm', 'n',
  'o', 'p', 'q', 'r', 's', 't', 'u', 'v',
  'w', 'x', 'y', 'z', '0', '1', '2', '3',
  '4', '5', '6', '7', '8', '9', '+', '/']

/-- `_MOD_TABLE`. -/
def modTable : List Nat := [0, 2, 1]

/-- `ENCODE`. -/
def encodeDigit (triple offset : Nat) : UInt8 :=
  (encodingTable.getD (triple >>> (offset * 6) &&& 0x3F) 'A').toUInt8

/-- `OCTET`: the octet, and the next index. -/
def octet (data : List UInt8) (dataIndex : Nat) : Nat × Nat :=
  if dataIndex < data.length then ((data.getD dataIndex 0).toNat, dataIndex + 1) else (0, dataIndex)

theorem le_octet (data : List UInt8) (dataIndex : Nat) : dataIndex ≤ (octet data dataIndex).2 := by
  unfold octet
  split
  · exact Nat.le_succ _
  · exact Nat.le_refl _

/-- The four `ENCODE`s of a triple. -/
def encodeTriple (encoded : List UInt8) (encodedIndex triple : Nat) : Option (List UInt8) := do
  let encoded ← store encoded encodedIndex (encodeDigit triple 3)
  let encoded ← store encoded (encodedIndex + 1) (encodeDigit triple 2)
  let encoded ← store encoded (encodedIndex + 2) (encodeDigit triple 1)
  store encoded (encodedIndex + 3) (encodeDigit triple 0)

/-- The loop of `us_base64_encode`.  `none`: a write outside the buffer. -/
def encodeLoop (data : List UInt8) (dataIndex encodedIndex : Nat) (encoded : List UInt8) :
    Option (List UInt8) :=
  if _h : dataIndex < data.length then do
    let octetA := octet data dataIndex
    let octetB := octet data octetA.2
    let octetC := octet data octetB.2
    let triple := (octetA.1 <<< 0x10) + (octetB.1 <<< 0x08) + octetC.1
    let encoded ← encodeTriple encoded encodedIndex triple
    encodeLoop data octetC.2 (encodedIndex + 4) encoded
  else some encoded
termination_by data.length - dataIndex
decreasing_by
  have hfirst : (octet data dataIndex).2 = dataIndex + 1 := by rw [octet, if_pos _h]
  have hsecond := le_octet data (octet data dataIndex).2
  have hthird := le_octet data (octet data (octet data dataIndex).2).2
  omega

/-- The loop over the padding. -/
def padLoop (encodedSize : Nat) (encoded : List UInt8) : List Nat → Option (List UInt8)
  | [] => some encoded
  | index :: indices => do
    let encoded ← store encoded (encodedSize - 2 - index) '='.toUInt8
    padLoop encodedSize encoded indices

/-- `US_REALLOC`. -/
def usRealloc (mem : List UInt8) (size : Nat) : List UInt8 :=
  mem.take size ++ List.replicate (size - mem.length) 0

/-- `us_base64_encode`: `encoded` is the buffer, `none` for the null pointer, `allocated` the
capacity that the caller keeps, if it does.  `none`: an access outside the buffer. -/
def usBase64Encode (data : List UInt8) (encoded : Option (List UInt8)) (allocated : Option Nat) :
    Option (List UInt8 × Option Nat) := do
  let encodedSize := 4 * ((data.length + 2) / 3) + 1
  let grow := encoded.isNone || allocated.any (· < encodedSize)
  let buffer := if grow then usRealloc (encoded.getD []) encodedSize else encoded.getD []
  let allocated := if grow then allocated.map fun _ => encodedSize else allocated
  let buffer ← encodeLoop data 0 0 buffer
  let buffer ← padLoop encodedSize buffer (List.range (modTable.getD (data.length % 3) 0))
  let buffer ← store buffer (encodedSize - 1) 0
  return (buffer, allocated)

/-! ## 2. The digits -/

theorem encodingTable_eq : ∀ value < 64,
    (encodingTable.getD value 'A').toUInt8 = base64Char value := by
  decide

theorem encodeDigit_eq (triple offset : Nat) :
    encodeDigit triple offset = base64Char (triple / 2 ^ (offset * 6) % 64) := by
  have hmask : triple >>> (offset * 6) &&& 0x3F = triple / 2 ^ (offset * 6) % 64 := by
    rw [Nat.shiftRight_eq_div_pow]
    exact Nat.and_two_pow_sub_one_eq_mod _ 6
  rw [encodeDigit, hmask, encodingTable_eq _ (Nat.mod_lt _ (by decide))]

/-- The four digits of a triple are the group of its octets. -/
theorem digits_eq_group (a b c : UInt8) :
    let triple := (a.toNat <<< 0x10) + (b.toNat <<< 0x08) + c.toNat
    [encodeDigit triple 3, encodeDigit triple 2, encodeDigit triple 1, encodeDigit triple 0]
      = base64Group a b c := by
  intro triple
  have ha := a.toNat_lt
  have hb := b.toNat_lt
  have hc := c.toNat_lt
  have htriple : triple = a.toNat * 65536 + b.toNat * 256 + c.toNat := by
    show (a.toNat <<< 0x10) + (b.toNat <<< 0x08) + c.toNat = _
    rw [Nat.shiftLeft_eq, Nat.shiftLeft_eq]
  have h3 : triple / 2 ^ (3 * 6) % 64 = a.toNat / 4 := by omega
  have h2 : triple / 2 ^ (2 * 6) % 64 = a.toNat % 4 * 16 + b.toNat / 16 := by omega
  have h1 : triple / 2 ^ (1 * 6) % 64 = b.toNat % 16 * 4 + c.toNat / 64 := by omega
  have h0 : triple / 2 ^ (0 * 6) % 64 = c.toNat % 64 := by omega
  rw [encodeDigit_eq, encodeDigit_eq, encodeDigit_eq, encodeDigit_eq, h3, h2, h1, h0, base64Group]

/-! ## 3. The buffer -/

section

variable {data mem pre : List UInt8}

/-- A write behind what has been written. -/
theorem exists_store (hpre : pre <+: mem) (hroom : pre.length < mem.length) (x : UInt8) :
    ∃ mem', store mem pre.length x = some mem' ∧ mem'.length = mem.length ∧ pre ++ [x] <+: mem' :=
  ⟨_, store_of_lt hroom x, List.length_set, prefix_store hpre (store_of_lt hroom x)⟩

theorem encodeTriple_spec (hpre : pre <+: mem) (hroom : pre.length + 4 ≤ mem.length)
    (a b c : UInt8) :
    ∃ mem', encodeTriple mem pre.length ((a.toNat <<< 0x10) + (b.toNat <<< 0x08) + c.toNat)
        = some mem' ∧ mem'.length = mem.length ∧ pre ++ base64Group a b c <+: mem' := by
  have hdigits := digits_eq_group a b c
  dsimp only at hdigits
  rw [← hdigits, encodeTriple]
  generalize (a.toNat <<< 0x10) + (b.toNat <<< 0x08) + c.toNat = triple
  obtain ⟨m1, h1, hl1, hp1⟩ := exists_store hpre (by omega) (encodeDigit triple 3)
  obtain ⟨m2, h2, hl2, hp2⟩ := exists_store hp1 (by simp; omega) (encodeDigit triple 2)
  obtain ⟨m3, h3, hl3, hp3⟩ := exists_store hp2 (by simp; omega) (encodeDigit triple 1)
  obtain ⟨m4, h4, hl4, hp4⟩ := exists_store hp3 (by simp; omega) (encodeDigit triple 0)
  simp only [List.length_append, List.length_singleton, Nat.add_assoc, Nat.reduceAdd]
    at h2 h3 h4
  refine ⟨m4, ?_, by omega, by simpa only [List.append_assoc, List.cons_append,
    List.nil_append] using hp4⟩
  simp only [bind, h1, h2, h3, h4, Option.bind_some]

theorem lt_of_drop {i : Nat} {x : UInt8} {rest : List UInt8} (h : data.drop i = x :: rest) :
    i < data.length := by
  by_contra hge
  rw [List.drop_of_length_le (by omega)] at h
  exact absurd h (by simp)

theorem octet_of_drop {i : Nat} {x : UInt8} {rest : List UInt8} (h : data.drop i = x :: rest) :
    octet data i = (x.toNat, i + 1) ∧ data.drop (i + 1) = rest := by
  have hlt := lt_of_drop h
  rw [List.drop_eq_getElem_cons hlt] at h
  obtain ⟨hx, hrest⟩ := List.cons.inj h
  refine ⟨?_, hrest⟩
  rw [octet, if_pos hlt, List.getD_eq_getElem _ _ hlt, hx]

theorem octet_of_end {i : Nat} (h : data.drop i = []) : octet data i = (UInt8.toNat 0, i) := by
  have hle := List.drop_eq_nil_iff.mp h
  exact if_neg (by omega)

theorem encodeLoop_end {i : Nat} (h : data.drop i = []) (k : Nat) (mem : List UInt8) :
    encodeLoop data i k mem = some mem := by
  have hle := List.drop_eq_nil_iff.mp h
  rw [encodeLoop, dif_neg (by omega)]

/-- One turn: three octets are read, and their group is written. -/
theorem encodeLoop_turn {i ia ib ic : Nat} {a b c x : UInt8} {rest : List UInt8}
    (hlt : data.drop i = x :: rest) (ha : octet data i = (a.toNat, ia))
    (hb : octet data ia = (b.toNat, ib)) (hc : octet data ib = (c.toNat, ic))
    (hpre : pre <+: mem) (hroom : pre.length + 4 ≤ mem.length) :
    ∃ mem', encodeLoop data i pre.length mem
        = encodeLoop data ic (pre ++ base64Group a b c).length mem' ∧
      mem'.length = mem.length ∧ pre ++ base64Group a b c <+: mem' := by
  obtain ⟨mem', hmem, hlen, hp⟩ := encodeTriple_spec hpre hroom a b c
  refine ⟨mem', ?_, hlen, hp⟩
  rw [encodeLoop, dif_pos (lt_of_drop hlt), List.length_append, length_base64Group]
  simp only [bind, ha, hb, hc, hmem, Option.bind_some]

/-- The loop writes the groups of what is left. -/
theorem encodeLoop_spec (rest : List UInt8) : ∀ {i : Nat} {pre mem : List UInt8},
    data.drop i = rest → pre <+: mem → pre.length + (base64Groups rest).length ≤ mem.length →
    ∃ mem', encodeLoop data i pre.length mem = some mem' ∧ mem'.length = mem.length ∧
      pre ++ base64Groups rest <+: mem' := by
  induction rest using base64Groups.induct with
  | case1 =>
    intro i pre mem hdata hpre hroom
    refine ⟨mem, encodeLoop_end hdata _ _, rfl, ?_⟩
    rwa [base64Groups, List.append_nil]
  | case2 a =>
    intro i pre mem hdata hpre hroom
    obtain ⟨ha, hend⟩ := octet_of_drop hdata
    have hz := octet_of_end hend
    obtain ⟨m, hm, hlen, hp⟩ := encodeLoop_turn hdata ha hz hz hpre hroom
    exact ⟨m, hm.trans (encodeLoop_end hend _ _), hlen, hp⟩
  | case3 a b =>
    intro i pre mem hdata hpre hroom
    obtain ⟨ha, hdata2⟩ := octet_of_drop hdata
    obtain ⟨hb, hend⟩ := octet_of_drop hdata2
    obtain ⟨m, hm, hlen, hp⟩ := encodeLoop_turn hdata ha hb (octet_of_end hend) hpre hroom
    exact ⟨m, hm.trans (encodeLoop_end hend _ _), hlen, hp⟩
  | case4 a b c rest ih =>
    intro i pre mem hdata hpre hroom
    obtain ⟨ha, hdata2⟩ := octet_of_drop hdata
    obtain ⟨hb, hdata3⟩ := octet_of_drop hdata2
    obtain ⟨hc, hrest⟩ := octet_of_drop hdata3
    rw [base64Groups, List.length_append, length_base64Group] at hroom
    obtain ⟨m, hm, hlen, hp⟩ := encodeLoop_turn hdata ha hb hc hpre (by omega)
    obtain ⟨m', hm', hlen', hp'⟩ := ih hrest hp (by simp; omega)
    refine ⟨m', hm.trans hm', hlen'.trans hlen, ?_⟩
    rwa [base64Groups, ← List.append_assoc]

/-! ## 4. The padding -/

/-- A write inside of what has been written. -/
theorem store_inside {i : Nat} (hpre : pre <+: mem) (hi : i < pre.length) (x : UInt8) :
    ∃ mem', store mem i x = some mem' ∧ mem'.length = mem.length ∧ pre.set i x <+: mem' := by
  have hle := hpre.length_le
  refine ⟨_, store_of_lt (by omega) x, List.length_set, ?_⟩
  obtain ⟨rest, rfl⟩ := hpre
  rw [List.set_append_left _ _ hi]
  exact List.prefix_append _ _

/-- `_MOD_TABLE` is the number of padding characters. -/
theorem modTable_eq (n : Nat) : modTable.getD (n % 3) 0 = base64Padding n := by
  have hsmall : ∀ r < 3, modTable.getD r 0 = (3 - r) % 3 := by decide
  exact hsmall _ (Nat.mod_lt _ (by decide))

theorem padLoop_append (size : Nat) (ys : List Nat) : ∀ (xs : List Nat) (mem : List UInt8),
    padLoop size mem (xs ++ ys) = (padLoop size mem xs).bind fun mem => padLoop size mem ys
  | [], _ => rfl
  | x :: xs, mem => by
    rw [List.cons_append, padLoop, padLoop]
    cases store mem (size - 2 - x) '='.toUInt8 with
    | none => rfl
    | some mem' => exact padLoop_append size ys xs mem'

/-- The last cell of a piece is overwritten. -/
theorem set_take_succ {n : Nat} (h : n < pre.length) (x : UInt8) :
    (pre.take (n + 1)).set n x = pre.take n ++ [x] := by
  have hlen : (pre.take (n + 1)).length = n + 1 := by
    rw [List.length_take]
    omega
  rw [List.set_eq_take_append_cons_drop, if_pos (by omega), List.take_take,
    Nat.min_eq_left (Nat.le_succ n), List.drop_of_length_le (Nat.le_of_eq hlen)]

/-- The loop over the padding overwrites the end of what has been written. -/
theorem padLoop_spec (hpre : pre <+: mem) : ∀ k ≤ pre.length,
    ∃ mem', padLoop (pre.length + 1) mem (List.range k) = some mem' ∧
      mem'.length = mem.length ∧
      pre.take (pre.length - k) ++ List.replicate k base64Pad <+: mem' := by
  intro k
  induction k with
  | zero =>
    intro _
    refine ⟨mem, rfl, rfl, ?_⟩
    rwa [Nat.sub_zero, List.take_length, List.replicate_zero, List.append_nil]
  | succ k ih =>
    intro hk
    obtain ⟨m, hm, hlen, hp⟩ := ih (by omega)
    obtain ⟨n, hn⟩ : ∃ n, pre.length - k = n + 1 := ⟨pre.length - k - 1, by omega⟩
    rw [hn] at hp
    have hshort : (pre.take (n + 1)).length = n + 1 := by
      rw [List.length_take]
      omega
    have hwhole : (pre.take (n + 1) ++ List.replicate k base64Pad).length = n + 1 + k := by
      rw [List.length_append, hshort, List.length_replicate]
    obtain ⟨m', hm', hlen', hp'⟩ := store_inside (i := n) hp (by omega) base64Pad
    refine ⟨m', ?_, hlen'.trans hlen, ?_⟩
    · have hplace : pre.length + 1 - 2 - k = n := by omega
      rw [List.range_succ, padLoop_append, hm, Option.bind_some, padLoop, hplace]
      exact congrArg (fun r => r.bind fun mem => padLoop (pre.length + 1) mem []) hm'
    · have hlast : pre.length - (k + 1) = n := by omega
      rw [List.set_append_left _ _ (by omega), set_take_succ (by omega), List.append_assoc] at hp'
      rwa [hlast, List.replicate_succ]

/-! ## 5. The encoder -/

theorem length_usRealloc (mem : List UInt8) (size : Nat) : (usRealloc mem size).length = size := by
  rw [usRealloc, List.length_append, List.length_take, List.length_replicate]
  omega

/-- The length of the encoding and its NUL. -/
theorem length_base64 (data : List UInt8) : (base64 data).length = 4 * ((data.length + 2) / 3) := by
  have hgroups := length_base64Groups data
  have hpad : base64Padding data.length ≤ (base64Groups data).length := by
    rw [hgroups, base64Padding]
    omega
  rw [base64_eq_groups, List.length_append, List.length_take, List.length_replicate]
  omega

/-- The three passes over a buffer of just the size. -/
theorem passes_spec (data : List UInt8) {buffer : List UInt8}
    (hsize : buffer.length = 4 * ((data.length + 2) / 3) + 1) :
    ∃ m1 m2, encodeLoop data 0 0 buffer = some m1 ∧
      padLoop (4 * ((data.length + 2) / 3) + 1) m1 (List.range (modTable.getD (data.length % 3) 0))
        = some m2 ∧
      store m2 (4 * ((data.length + 2) / 3)) 0 = some (base64 data ++ [0]) := by
  have hgroups := length_base64Groups data
  have hpad : base64Padding data.length ≤ (base64Groups data).length := by
    rw [hgroups, base64Padding]
    omega
  have hlength := length_base64 data
  obtain ⟨m1, h1, hl1, hp1⟩ : ∃ m1, encodeLoop data 0 0 buffer = some m1 ∧
      m1.length = buffer.length ∧ base64Groups data <+: m1 :=
    encodeLoop_spec data List.drop_zero List.nil_prefix (by rw [List.length_nil]; omega)
  obtain ⟨m2, h2, hl2, hp2⟩ := padLoop_spec hp1 _ hpad
  rw [← base64_eq_groups] at hp2
  obtain ⟨m3, h3, hl3, hp3⟩ := exists_store hp2 (by omega) 0
  have hwhole : base64 data ++ [0] = m3 := by
    refine hp3.eq_of_length ?_
    rw [List.length_append, List.length_singleton]
    omega
  rw [hgroups] at h2
  rw [hlength] at h3
  exact ⟨m1, m2, h1, by rwa [modTable_eq], hwhole ▸ h3⟩

/-! ### What lies behind

A pass over a block is one over any larger block that begins with it, and leaves the rest alone. -/

theorem encodeTriple_append {mem' : List UInt8} {k triple : Nat}
    (h : encodeTriple mem k triple = some mem') (rest : List UInt8) :
    encodeTriple (mem ++ rest) k triple = some (mem' ++ rest) := by
  rw [encodeTriple] at h
  obtain ⟨m1, h1, h⟩ := Option.bind_eq_some_iff.mp h
  obtain ⟨m2, h2, h⟩ := Option.bind_eq_some_iff.mp h
  obtain ⟨m3, h3, h4⟩ := Option.bind_eq_some_iff.mp h
  rw [encodeTriple, store_append h1]
  simp only [bind, Option.bind_some]
  rw [store_append h2, Option.bind_some, store_append h3, Option.bind_some, store_append h4]

theorem encodeLoop_append (data : List UInt8) (i k : Nat) (mem rest : List UInt8) :
    ∀ {mem' : List UInt8}, encodeLoop data i k mem = some mem' →
      encodeLoop data i k (mem ++ rest) = some (mem' ++ rest) := by
  fun_induction encodeLoop data i k mem with
  | case1 i k mem h octetA octetB octetC triple =>
    rename_i ih
    intro mem' hmem
    obtain ⟨m, hm, hmem⟩ := Option.bind_eq_some_iff.mp hmem
    rw [encodeLoop, dif_pos h]
    simp only [bind]
    rw [encodeTriple_append hm, Option.bind_some]
    exact ih m hmem
  | case2 i k mem h =>
    intro mem' hmem
    rw [encodeLoop, dif_neg h, Option.some.inj hmem]

theorem padLoop_append_block {size : Nat} : ∀ {indices : List Nat} {mem mem' : List UInt8},
    padLoop size mem indices = some mem' → ∀ rest : List UInt8,
      padLoop size (mem ++ rest) indices = some (mem' ++ rest)
  | [], mem, mem', h, rest => by
    rw [padLoop, Option.some.injEq] at h
    rw [padLoop, h]
  | index :: indices, mem, mem', h, rest => by
    rw [padLoop] at h
    obtain ⟨m, hm, h⟩ := Option.bind_eq_some_iff.mp h
    rw [padLoop, store_append hm]
    exact padLoop_append_block h rest

/-- The passes over a buffer that is large enough leave what is behind the encoding. -/
theorem passes_append (data : List UInt8) {buffer : List UInt8}
    (hroom : 4 * ((data.length + 2) / 3) + 1 ≤ buffer.length) :
    ∃ m1 m2, encodeLoop data 0 0 buffer = some m1 ∧
      padLoop (4 * ((data.length + 2) / 3) + 1) m1 (List.range (modTable.getD (data.length % 3) 0))
        = some m2 ∧
      store m2 (4 * ((data.length + 2) / 3)) 0
        = some (base64 data ++ [0] ++ buffer.drop (4 * ((data.length + 2) / 3) + 1)) := by
  obtain ⟨m1, m2, h1, h2, h3⟩ := passes_spec data (List.length_take_of_le hroom)
  have h1' := encodeLoop_append data 0 0 _ (buffer.drop (4 * ((data.length + 2) / 3) + 1)) h1
  rw [List.take_append_drop] at h1'
  exact ⟨_, _, h1', padLoop_append_block h2 _, store_append h3 _⟩

/-- The caller keeps the capacity of the buffer, if there is one. -/
def Recorded (encoded : Option (List UInt8)) (allocated : Option Nat) : Prop :=
  ∀ mem, encoded = some mem → allocated = some mem.length

/-- **The encoder.**  It leaves the encoding, a NUL and what was behind them, in the buffer or in a
larger one, and it never writes outside. -/
theorem usBase64Encode_eq (data : List UInt8) {encoded : Option (List UInt8)}
    {allocated : Option Nat} (hrecorded : Recorded encoded allocated) :
    ∃ mem, usBase64Encode data encoded allocated = some (mem, allocated.map fun _ => mem.length) ∧
      mem = base64 data ++ [0] ++ (encoded.getD []).drop (4 * ((data.length + 2) / 3) + 1) := by
  have hlength := length_base64 data
  unfold usBase64Encode
  dsimp only
  by_cases hgrow : (encoded.isNone || allocated.any (· < 4 * ((data.length + 2) / 3) + 1)) = true
  · have hold : (encoded.getD []).drop (4 * ((data.length + 2) / 3) + 1) = [] := by
      cases encoded with
      | none => rfl
      | some mem =>
        rw [hrecorded mem rfl] at hgrow
        have hlt : mem.length < 4 * ((data.length + 2) / 3) + 1 := by simpa using hgrow
        exact List.drop_eq_nil_of_le (Nat.le_of_lt hlt)
    obtain ⟨m1, m2, h1, h2, h3⟩ := passes_spec data
      (length_usRealloc (encoded.getD []) (4 * ((data.length + 2) / 3) + 1))
    rw [if_pos hgrow, if_pos hgrow, h1, Option.bind_eq_bind, Option.bind_some, h2,
      Option.bind_some, Nat.add_sub_cancel, h3, hold]
    have hsize : (base64 data ++ [0]).length = 4 * ((data.length + 2) / 3) + 1 := by
      rw [List.length_append, hlength, List.length_singleton]
    refine ⟨base64 data ++ [0], ?_, (List.append_nil _).symm⟩
    rw [hsize]
    rfl
  · obtain ⟨mem, rfl⟩ : ∃ mem, encoded = some mem := by
      cases encoded with
      | none => exact absurd rfl hgrow
      | some mem => exact ⟨mem, rfl⟩
    have hallocated := hrecorded mem rfl
    have hroom : 4 * ((data.length + 2) / 3) + 1 ≤ mem.length := by
      rw [hallocated] at hgrow
      simpa using hgrow
    obtain ⟨m1, m2, h1, h2, h3⟩ := passes_append data hroom
    rw [if_neg hgrow, if_neg hgrow, Option.getD_some, h1, Option.bind_eq_bind, Option.bind_some,
      h2, Option.bind_some, Nat.add_sub_cancel, h3, hallocated]
    have hsize : (base64 data ++ [0] ++ mem.drop (4 * ((data.length + 2) / 3) + 1)).length
        = mem.length := by
      rw [List.length_append, List.length_append, hlength, List.length_singleton, List.length_drop]
      omega
    refine ⟨_, ?_, rfl⟩
    rw [Option.map_some, hsize]
    rfl

/-- Without a buffer it makes one, and leaves the encoding in it as a C string. -/
theorem usBase64Encode_null (data : List UInt8) :
    ∃ r, usBase64Encode data none none = some r ∧ cStringAt r.1 = base64 data := by
  have hnothing : Recorded none none := fun mem h => nomatch h
  obtain ⟨mem, hmem, hwhole⟩ := usBase64Encode_eq data hnothing
  refine ⟨_, hmem, cStringAt_of_isPrefix (noNul_base64 data) ?_⟩
  exact hwhole ▸ List.prefix_append _ _

end

end TinyPilotKvm
