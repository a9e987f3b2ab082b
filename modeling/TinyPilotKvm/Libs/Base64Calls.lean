/-
# The Base 64 encoder, call after call (`libs/base64.c`, `dump/file.c`)

The two indices of `us_base64_encode` are `uint`s and the size is not.  Here they are what they are
in the source: `usBase64EncodeUint` is the encoder with indices that go round at 2 ^ 32, and for
data of less than 2 ^ 31 octets none of them does, so it is the encoder over natural numbers.

A caller as `us_output_file_write` calls it with the same buffer again and again, of which it keeps
the capacity; the calls are `usBase64Calls`.
-/
import TinyPilotKvm.Libs.Base64
import TinyPilotKvm.Libs.Tools

namespace TinyPilotKvm

/-! ## 1. The code -/

/-- `OCTET`. -/
def octetUint (data : List UInt8) (dataIndex : Nat) : Nat × Nat :=
  if dataIndex < data.length then ((data.getD dataIndex 0).toNat, toUint (dataIndex + 1))
  else (0, dataIndex)

/-- The four `ENCODE`s, and the index behind them. -/
def encodeTripleUint (encoded : List UInt8) (encodedIndex triple : Nat) :
    Option (List UInt8 × Nat) := do
  let encoded ← store encoded encodedIndex (encodeDigit triple 3)
  let encodedIndex := toUint (encodedIndex + 1)
  let encoded ← store encoded encodedIndex (encodeDigit triple 2)
  let encodedIndex := toUint (encodedIndex + 1)
  let encoded ← store encoded encodedIndex (encodeDigit triple 1)
  let encodedIndex := toUint (encodedIndex + 1)
  let encoded ← store encoded encodedIndex (encodeDigit triple 0)
  return (encoded, toUint (encodedIndex + 1))

/-- The loop of `us_base64_encode`.  `none`: a write outside the buffer, or more than so many
turns. -/
def encodeLoopUint (data : List UInt8) : Nat → Nat → Nat → List UInt8 → Option (List UInt8)
  | 0, _, _, _ => none
  | turns + 1, dataIndex, encodedIndex, encoded =>
    if dataIndex < data.length then do
      let octetA := octetUint data dataIndex
      let octetB := octetUint data octetA.2
      let octetC := octetUint data octetB.2
      let triple := toUint ((octetA.1 <<< 0x10) + (octetB.1 <<< 0x08) + octetC.1)
      let (encoded, encodedIndex) ← encodeTripleUint encoded encodedIndex triple
      encodeLoopUint data turns octetC.2 encodedIndex encoded
    else some encoded

/-- `us_base64_encode`. -/
def usBase64EncodeUint (data : List UInt8) (encoded : Option (List UInt8))
    (allocated : Option Nat) : Option (List UInt8 × Option Nat) := do
  let encodedSize := 4 * ((data.length + 2) / 3) + 1
  let grow := encoded.isNone || allocated.any (· < encodedSize)
  let buffer := if grow then usRealloc (encoded.getD []) encodedSize else encoded.getD []
  let allocated := if grow then allocated.map fun _ => encodedSize else allocated
  let buffer ← encodeLoopUint data (data.length + 1) 0 0 buffer
  let buffer ← padLoop encodedSize buffer (List.range (modTable.getD (data.length % 3) 0))
  let buffer ← store buffer (encodedSize - 1) 0
  return (buffer, allocated)

/-- One call after the other, with the buffer and the capacity that the last one left. -/
def usBase64Calls : List (List UInt8) → Option (List UInt8) → Option Nat →
    Option (Option (List UInt8) × Option Nat)
  | [], encoded, allocated => some (encoded, allocated)
  | data :: calls, encoded, allocated => do
    let (encoded, allocated) ← usBase64EncodeUint data encoded allocated
    usBase64Calls calls (some encoded) allocated

/-! ## 2. No index goes round -/

variable {data : List UInt8}

theorem octetUint_eq (hsmall : data.length < 2 ^ 31) (i : Nat) :
    octetUint data i = octet data i := by
  unfold octetUint octet
  split
  · rw [toUint_of_lt (by omega)]
  · rfl

theorem encodeTripleUint_eq {k : Nat} (hk : k + 4 < 4294967296) (encoded : List UInt8)
    (triple : Nat) :
    encodeTripleUint encoded k triple
      = (encodeTriple encoded k triple).map fun encoded => (encoded, k + 4) := by
  have h1 : toUint (k + 1) = k + 1 := toUint_of_lt (by omega)
  have h2 : toUint (k + 1 + 1) = k + 2 := toUint_of_lt (by omega)
  have h3 : toUint (k + 2 + 1) = k + 3 := toUint_of_lt (by omega)
  have h4 : toUint (k + 3 + 1) = k + 4 := toUint_of_lt (by omega)
  unfold encodeTripleUint encodeTriple
  simp only [h1, h2, h3, h4, bind, Option.map_eq_bind, Option.bind_assoc, Function.comp_def]
  rfl

/-- The octets of a triple are 24 bits. -/
theorem triple_lt (i j k : Nat) :
    ((octet data i).1 <<< 0x10) + ((octet data j).1 <<< 0x08) + (octet data k).1 < 4294967296 := by
  have hoctet : ∀ i, (octet data i).1 < 256 := by
    intro i
    unfold octet
    split
    · exact (data.getD i 0).toNat_lt
    · exact Nat.zero_lt_succ _
  have h1 := hoctet i
  have h2 := hoctet j
  have h3 := hoctet k
  rw [Nat.shiftLeft_eq, Nat.shiftLeft_eq]
  omega

/-- Where a turn leaves the first index: three octets on, or at the end. -/
theorem octet_octet_octet {i : Nat} (hi : i < data.length) :
    (octet data (octet data (octet data i).2).2).2 = i + 3 ∧ i + 3 ≤ data.length ∨
      (octet data (octet data (octet data i).2).2).2 = data.length := by
  have hfirst : (octet data i).2 = i + 1 := by rw [octet, if_pos hi]
  have hnext : ∀ j, (octet data j).2 = if j < data.length then j + 1 else j := by
    intro j
    unfold octet
    split
    · rfl
    · rfl
  rw [hfirst, hnext, hnext (i + 1)]
  split
  · split
    · left
      omega
    · right
      omega
  · right
    omega

/-- The loops agree: as long as octets are left there are four characters for three of them. -/
theorem encodeLoopUint_eq (hsmall : data.length < 2 ^ 31) : ∀ (turns : Nat) {i k : Nat}
    (encoded : List UInt8), i ≤ data.length → data.length - i < turns →
    (i < data.length → 3 * k = 4 * i) →
    encodeLoopUint data turns i k encoded = encodeLoop data i k encoded := by
  intro turns
  induction turns with
  | zero =>
    intro i k encoded _ hturns
    exact absurd hturns (Nat.not_lt_zero _)
  | succ turns ih =>
    intro i k encoded hi hturns hpace
    rw [encodeLoopUint, encodeLoop]
    by_cases hlt : i < data.length
    · have hk := hpace hlt
      have hnext := octet_octet_octet hlt
      rw [if_pos hlt, dif_pos hlt]
      simp only [octetUint_eq hsmall, toUint_of_lt (triple_lt _ _ _)]
      rw [encodeTripleUint_eq (by omega)]
      simp only [bind, Option.bind_map, Function.comp_def]
      congr 1
      funext encoded
      exact ih encoded (by omega) (by omega) (by omega)
    · rw [if_neg hlt, dif_neg hlt]

theorem usBase64EncodeUint_eq (hsmall : data.length < 2 ^ 31) (encoded : Option (List UInt8))
    (allocated : Option Nat) :
    usBase64EncodeUint data encoded allocated = usBase64Encode data encoded allocated := by
  unfold usBase64EncodeUint usBase64Encode
  have hloop : ∀ buffer, encodeLoopUint data (data.length + 1) 0 0 buffer
      = encodeLoop data 0 0 buffer := fun buffer =>
    encodeLoopUint_eq hsmall _ buffer (Nat.zero_le _) (by omega) fun _ => rfl
  simp only [hloop]

/-! ## 3. Calls -/

/-- **A call.**  The buffer holds the encoding, a NUL and what was behind them, and the caller has
its capacity. -/
theorem usBase64EncodeUint_spec (hsmall : data.length < 2 ^ 31) {encoded : Option (List UInt8)}
    {allocated : Option Nat} (hrecorded : Recorded encoded allocated) :
    ∃ mem, usBase64EncodeUint data encoded allocated
        = some (mem, allocated.map fun _ => mem.length) ∧
      mem = base64 data ++ [0] ++ (encoded.getD []).drop (4 * ((data.length + 2) / 3) + 1) := by
  rw [usBase64EncodeUint_eq hsmall]
  exact usBase64Encode_eq data hrecorded

/-- However often it is called, the caller has the capacity. -/
theorem usBase64Calls_spec : ∀ (calls : List (List UInt8)) {encoded : Option (List UInt8)}
    {allocated : Nat}, Recorded encoded (some allocated) → (∀ data ∈ calls, data.length < 2 ^ 31) →
    ∃ encoded' allocated', usBase64Calls calls encoded (some allocated)
        = some (encoded', some allocated') ∧ Recorded encoded' (some allocated')
  | [], encoded, allocated, hrecorded, _ => ⟨encoded, allocated, rfl, hrecorded⟩
  | data :: calls, encoded, allocated, hrecorded, hsmall => by
    obtain ⟨mem, hmem, -⟩ := usBase64EncodeUint_spec (hsmall data List.mem_cons_self) hrecorded
    have hnext : Recorded (some mem) (some mem.length) := by
      intro m hm
      rw [Option.some.inj hm]
    obtain ⟨encoded', allocated', hcalls, hrecorded'⟩ := usBase64Calls_spec calls hnext
      fun d hd => hsmall d (List.mem_cons_of_mem data hd)
    refine ⟨encoded', allocated', ?_, hrecorded'⟩
    rw [usBase64Calls, hmem]
    exact hcalls

/-- **The Base 64 encoder.**  After any calls with a buffer whose capacity is kept, a call neither
writes outside the buffer nor anything else in it than the encoding and a NUL, and the encoding
decodes to the data; so does the one in the buffer that is made for a caller without any. -/
theorem base64_encoder (earlier : List (List UInt8)) {encoded : Option (List UInt8)}
    {allocated : Nat} (hrecorded : Recorded encoded (some allocated))
    (hearlier : ∀ data ∈ earlier, data.length < 2 ^ 31) (data : List UInt8)
    (hsmall : data.length < 2 ^ 31) :
    (∃ encoded' allocated' mem,
      usBase64Calls earlier encoded (some allocated) = some (encoded', some allocated') ∧
        usBase64EncodeUint data encoded' (some allocated') = some (mem, some mem.length) ∧
        mem = base64 data ++ [0]
          ++ (encoded'.getD []).drop (4 * ((data.length + 2) / 3) + 1) ∧
        cStringAt mem = base64 data ∧ base64Decode (cStringAt mem) = some data) ∧
      usBase64EncodeUint data none none = some (base64 data ++ [0], none) := by
  constructor
  · obtain ⟨encoded', allocated', hcalls, hrecorded'⟩ :=
      usBase64Calls_spec earlier hrecorded hearlier
    obtain ⟨mem, hmem, hwhole⟩ := usBase64EncodeUint_spec hsmall hrecorded'
    have hstring : cStringAt mem = base64 data :=
      cStringAt_of_isPrefix (noNul_base64 data) (hwhole ▸ List.prefix_append _ _)
    refine ⟨encoded', allocated', mem, hcalls, hmem, hwhole, hstring, ?_⟩
    rw [hstring, base64Decode_base64]
  · have hnothing : Recorded none none := fun mem h => nomatch h
    obtain ⟨mem, hmem, hwhole⟩ := usBase64EncodeUint_spec hsmall hnothing
    rw [hmem, hwhole]
    rw [Option.getD_none, List.drop_nil, List.append_nil]
    rfl

/-- "Man" and "M", then "Ma" in the buffer that they leave. -/
theorem base64_encoder_three :
    ∃ encoded allocated mem,
      usBase64Calls [[77, 97, 110], [77]] none (some 0) = some (encoded, some allocated) ∧
        usBase64EncodeUint [77, 97] encoded (some allocated) = some (mem, some mem.length) ∧
        cStringAt mem = [84, 87, 69, 61] := by
  have hrecorded : Recorded none (some 0) := fun mem h => nomatch h
  obtain ⟨⟨encoded, allocated, mem, hcalls, hmem, -, hstring, -⟩, -⟩ :=
    base64_encoder [[77, 97, 110], [77]] hrecorded (by decide) [77, 97] (by decide)
  exact ⟨encoded, allocated, mem, hcalls, hmem, hstring.trans (by decide)⟩

end TinyPilotKvm
