/-
# JPEGs in the HW encoder (`ustreamer/encoders/hw/encoder.c`)

Some cameras leave the Huffman table out of their JPEGs.  The encoder copies a JPEG and inserts the
standard table before the SOF0 segment, unless there is a table.  It follows no lengths: it looks
for the two bytes of the markers at every offset.

* `_is_huffman` looks for the marker of a table (`FF C4`) up to the first `FF DA`, and gives up
  after offset 2048;
* `_copy_plus_huffman` inserts the table before the first `FF C0`.

So a pair of bytes in a payload, a length or a seam counts as a marker, and a table behind long
segments is not seen.  `huffman_insertion_iff` says for which JPEGs this is the same.
-/
import TinyPilotKvm.Formats.Jpeg
import TinyPilotKvm.Libs.Frame

namespace TinyPilotKvm

/-! ## 1. The code -/

/-- `US_HUFFMAN_TABLE`. -/
def usHuffmanTable : List UInt8 :=
  [
    0xFF, 0xC4, 0x01, 0xA2, 0x00, 0x00, 0x01, 0x05, 0x01, 0x01, 0x01, 0x01, 0x01, 0x01,
    0x00, 0x00, 0x00, 0x00, 0x00, 0x00, 0x00, 0x00, 0x01, 0x02, 0x03, 0x04, 0x05, 0x06,
    0x07, 0x08, 0x09, 0x0A, 0x0B, 0x01, 0x00, 0x03, 0x01, 0x01, 0x01, 0x01, 0x01, 0x01,
    0x01, 0x01, 0x01, 0x00, 0x00, 0x00, 0x00, 0x00, 0x00, 0x01, 0x02, 0x03, 0x04, 0x05,
    0x06, 0x07, 0x08, 0x09, 0x0A, 0x0B, 0x10, 0x00, 0x02, 0x01, 0x03, 0x03, 0x02, 0x04,
    0x03, 0x05, 0x05, 0x04, 0x04, 0x00, 0x00, 0x01, 0x7D, 0x01, 0x02, 0x03, 0x00, 0x04,
    0x11, 0x05, 0x12, 0x21, 0x31, 0x41, 0x06, 0x13, 0x51, 0x61, 0x07, 0x22, 0x71, 0x14,
    0x32, 0x81, 0x91, 0xA1, 0x08, 0x23, 0x42, 0xB1, 0xC1, 0x15, 0x52, 0xD1, 0xF0, 0x24,
    0x33, 0x62, 0x72, 0x82, 0x09, 0x0A, 0x16, 0x17, 0x18, 0x19, 0x1A, 0x25, 0x26, 0x27,
    0x28, 0x29, 0x2A, 0x34, 0x35, 0x36, 0x37, 0x38, 0x39, 0x3A, 0x43, 0x44, 0x45, 0x46,
    0x47, 0x48, 0x49, 0x4A, 0x53, 0x54, 0x55, 0x56, 0x57, 0x58, 0x59, 0x5A, 0x63, 0x64,
    0x65, 0x66, 0x67, 0x68, 0x69, 0x6A, 0x73, 0x74, 0x75, 0x76, 0x77, 0x78, 0x79, 0x7A,
    0x83, 0x84, 0x85, 0x86, 0x87, 0x88, 0x89, 0x8A, 0x92, 0x93, 0x94, 0x95, 0x96, 0x97,
    0x98, 0x99, 0x9A, 0xA2, 0xA3, 0xA4, 0xA5, 0xA6, 0xA7, 0xA8, 0xA9, 0xAA, 0xB2, 0xB3,
    0xB4, 0xB5, 0xB6, 0xB7, 0xB8, 0xB9, 0xBA, 0xC2, 0xC3, 0xC4, 0xC5, 0xC6, 0xC7, 0xC8,
    0xC9, 0xCA, 0xD2, 0xD3, 0xD4, 0xD5, 0xD6, 0xD7, 0xD8, 0xD9, 0xDA, 0xE1, 0xE2, 0xE3,
    0xE4, 0xE5, 0xE6, 0xE7, 0xE8, 0xE9, 0xEA, 0xF1, 0xF2, 0xF3, 0xF4, 0xF5, 0xF6, 0xF7,
    0xF8, 0xF9, 0xFA, 0x11, 0x00, 0x02, 0x01, 0x02, 0x04, 0x04, 0x03, 0x04, 0x07, 0x05,
    0x04, 0x04, 0x00, 0x01, 0x02, 0x77, 0x00, 0x01, 0x02, 0x03, 0x11, 0x04, 0x05, 0x21,
    0x31, 0x06, 0x12, 0x41, 0x51, 0x07, 0x61, 0x71, 0x13, 0x22, 0x32, 0x81, 0x08, 0x14,
    0x42, 0x91, 0xA1, 0xB1, 0xC1, 0x09, 0x23, 0x33, 0x52, 0xF0, 0x15, 0x62, 0x72, 0xD1,
    0x0A, 0x16, 0x24, 0x34, 0xE1, 0x25, 0xF1, 0x17, 0x18, 0x19, 0x1A, 0x26, 0x27, 0x28,
    0x29, 0x2A, 0x35, 0x36, 0x37, 0x38, 0x39, 0x3A, 0x43, 0x44, 0x45, 0x46, 0x47, 0x48,
    0x49, 0x4A, 0x53, 0x54, 0x55, 0x56, 0x57, 0x58, 0x59, 0x5A, 0x63, 0x64, 0x65, 0x66,
    0x67, 0x68, 0x69, 0x6A, 0x73, 0x74, 0x75, 0x76, 0x77, 0x78, 0x79, 0x7A, 0x82, 0x83,
    0x84, 0x85, 0x86, 0x87, 0x88, 0x89, 0x8A, 0x92, 0x93, 0x94, 0x95, 0x96, 0x97, 0x98,
    0x99, 0x9A, 0xA2, 0xA3, 0xA4, 0xA5, 0xA6, 0xA7, 0xA8, 0xA9, 0xAA, 0xB2, 0xB3, 0xB4,
    0xB5, 0xB6, 0xB7, 0xB8, 0xB9, 0xBA, 0xC2, 0xC3, 0xC4, 0xC5, 0xC6, 0xC7, 0xC8, 0xC9,
    0xCA, 0xD2, 0xD3, 0xD4, 0xD5, 0xD6, 0xD7, 0xD8, 0xD9, 0xDA, 0xE2, 0xE3, 0xE4, 0xE5,
    0xE6, 0xE7, 0xE8, 0xE9, 0xEA, 0xF2, 0xF3, 0xF4, 0xF5, 0xF6, 0xF7, 0xF8, 0xF9, 0xFA]

theorem usHuffmanTable_length : usHuffmanTable.length = 420 := by decide +kernel

/-- `(data[0] << 8) | data[1]`. -/
def markerWord (a b : UInt8) : Nat := a.toNat <<< 8 ||| b.toNat

/-- The loop of `_is_huffman` from an offset on.  `none`: it reads past the end of the memory. -/
def isHuffmanFrom : List UInt8 → Nat → Option Bool
  | a :: b :: rest, count =>
    if markerWord a b = 0xFFDA then some false
    else if count > 2048 then some false
    else if markerWord a b = 0xFFC4 then some true
    else isHuffmanFrom (b :: rest) (count + 1)
  | _, _ => none

/-- `_is_huffman`. -/
def isHuffman (data : List UInt8) : Option Bool := isHuffmanFrom data 0

/-- The loop of `_copy_plus_huffman`, which looks for the SOF0 from the offset `ptr` on; `none`: it
reads past the end of the memory. -/
def findSof0 (srcEnd : Nat) : List UInt8 → Nat → Option Nat
  | a :: b :: rest, ptr =>
    if markerWord a b ≠ 0xFFC0 ∧ ptr < srcEnd then findSof0 srcEnd (b :: rest) (ptr + 1)
    else some ptr
  | _, _ => none

/-- `_copy_plus_huffman`.  `none`: an assertion fails, or a read is out of bounds. -/
def copyPlusHuffman (src dest : UsFrame) (begins ends : ℚ) : Option UsFrame :=
  (usFrameEncodingBegin? src dest v4l2PixFmtJpeg begins).bind fun dest =>
    match isHuffman src.data with
    | none => none
    | some true => usFrameEncodingEnd (usFrameSetData dest src.data src.used) ends
    | some false =>
      match findSof0 src.used src.data 0 with
      | none => none
      | some paste =>
        -- The error: an empty frame, without its end of encoding.
        if paste ≥ src.used then some { dest with used := 0, used_le := dest.zero_le_length }
        else
          let dest := usFrameSetData dest src.data paste
          let dest := usFrameAppendData dest usHuffmanTable usHuffmanTable.length
          let dest := usFrameAppendData dest (src.data.drop paste) (src.used - paste)
          usFrameEncodingEnd dest ends

/-- `us_hw_encoder_compress`.  `none`: an assertion fails, or a read is out of bounds. -/
def usHwEncoderCompress (src dest : UsFrame) (begins ends : ℚ) : Option UsFrame :=
  if usIsJpeg src.format then copyPlusHuffman src dest begins ends else none

/-! ## 2. What it is for -/

/-- **The insertion law**: a JPEG with a table stays, another gets the standard table before its
SOF0. -/
def BaselineJpeg.withTable (j : BaselineJpeg) : List UInt8 :=
  if j.hasDht then j.bytes
  else j.head ++ (usHuffmanTable ++ (j.middle ++ (j.sos.bytes ++ j.scan)))

/-! ## 3. The searches -/

theorem markerWord_eq_iff (a b c : UInt8) :
    markerWord a b = 0xFF00 + c.toNat ↔ a = 0xFF ∧ b = c := by
  have ha := a.toNat_lt
  have hb := b.toNat_lt
  have hc := c.toNat_lt
  unfold markerWord
  rw [← Nat.shiftLeft_add_eq_or_of_lt hb, Nat.shiftLeft_eq, ← UInt8.toNat_inj, ← UInt8.toNat_inj]
  show _ ↔ a.toNat = 255 ∧ _
  omega

/-- A pair that says "table" comes early enough, and before any that says "scan". -/
def TableSeen (bytes : List UInt8) : Prop :=
  ∃ i ≤ 2048, PairAt jpegDht bytes i ∧ ∀ k < i, ¬ PairAt jpegSos bytes k

/-- The same from an offset on. -/
def TableSeenFrom (bytes : List UInt8) (count : Nat) : Prop :=
  ∃ i, count + i ≤ 2048 ∧ PairAt jpegDht bytes i ∧ ∀ k < i, ¬ PairAt jpegSos bytes k

theorem tableSeenFrom_cons {a : UInt8} {bytes : List UInt8} {count : Nat}
    (hsos : ¬ PairAt jpegSos (a :: bytes) 0) (hdht : ¬ PairAt jpegDht (a :: bytes) 0) :
    TableSeenFrom (a :: bytes) count ↔ TableSeenFrom bytes (count + 1) := by
  constructor
  · rintro ⟨i, hle, hpair, hbefore⟩
    cases i with
    | zero => exact absurd hpair hdht
    | succ i => exact ⟨i, by omega, hpair, fun k hk => hbefore (k + 1) (by omega)⟩
  · rintro ⟨i, hle, hpair, hbefore⟩
    refine ⟨i + 1, by omega, hpair, fun k hk => ?_⟩
    cases k with
    | zero => exact hsos
    | succ k => exact hbefore k (by omega)

theorem markerWord_sos {a b : UInt8} {rest : List UInt8} :
    markerWord a b = 0xFFDA ↔ PairAt jpegSos (a :: b :: rest) 0 :=
  (markerWord_eq_iff a b jpegSos).trans pairAt_zero.symm

theorem markerWord_dht {a b : UInt8} {rest : List UInt8} :
    markerWord a b = 0xFFC4 ↔ PairAt jpegDht (a :: b :: rest) 0 :=
  (markerWord_eq_iff a b jpegDht).trans pairAt_zero.symm

theorem markerWord_sof0 {a b : UInt8} {rest : List UInt8} :
    markerWord a b = 0xFFC0 ↔ PairAt jpegSof0 (a :: b :: rest) 0 :=
  (markerWord_eq_iff a b jpegSof0).trans pairAt_zero.symm

/-- **The first search**, if it ends, says whether a table is seen. -/
theorem isHuffmanFrom_seen : ∀ (data : List UInt8) (count : Nat) {seen : Bool},
    isHuffmanFrom data count = some seen → (seen = true ↔ TableSeenFrom data count)
  | [], _, _, h => absurd h.symm (Option.some_ne_none _)
  | [_], _, _, h => absurd h.symm (Option.some_ne_none _)
  | a :: b :: rest, count, seen, h => by
    unfold isHuffmanFrom at h
    by_cases h1 : markerWord a b = 0xFFDA
    · rw [if_pos h1] at h
      rw [← Option.some.inj h]
      refine iff_of_false Bool.false_ne_true ?_
      rintro ⟨i, -, hpair, hbefore⟩
      cases i with
      | zero =>
        have hboth := markerWord_dht.mpr hpair
        rw [h1] at hboth
        exact absurd hboth (by decide)
      | succ i => exact absurd (markerWord_sos.mp h1) (hbefore 0 (Nat.succ_pos i))
    · rw [if_neg h1] at h
      by_cases h2 : count > 2048
      · rw [if_pos h2] at h
        rw [← Option.some.inj h]
        refine iff_of_false Bool.false_ne_true ?_
        rintro ⟨i, hle, -⟩
        omega
      · rw [if_neg h2] at h
        by_cases h3 : markerWord a b = 0xFFC4
        · rw [if_pos h3] at h
          rw [← Option.some.inj h]
          exact iff_of_true rfl
            ⟨0, by omega, markerWord_dht.mp h3, fun k hk => absurd hk (Nat.not_lt_zero k)⟩
        · rw [if_neg h3] at h
          exact (isHuffmanFrom_seen (b :: rest) (count + 1) h).trans
            (tableSeenFrom_cons (fun hp => h1 (markerWord_sos.mpr hp))
              fun hp => h3 (markerWord_dht.mpr hp)).symm

theorem exists_pair_cons {b a : UInt8} {bytes : List UInt8}
    (h : ¬ PairAt b (a :: bytes) 0) : (∃ i, PairAt b (a :: bytes) i) ↔ ∃ i, PairAt b bytes i := by
  constructor
  · rintro ⟨i, hi⟩
    cases i with
    | zero => exact absurd hi h
    | succ i => exact ⟨i, hi⟩
  · rintro ⟨i, hi⟩
    exact ⟨i + 1, hi⟩

/-- It ends at a pair that says "scan" or "table", or because it gives up. -/
theorem isHuffmanFrom_isSome_iff : ∀ (data : List UInt8) (count : Nat), count ≤ 2049 →
    ((isHuffmanFrom data count).isSome ↔ (∃ i, PairAt jpegSos data i) ∨
      (∃ i, PairAt jpegDht data i) ∨ 2051 ≤ count + data.length)
  | [], count, hcount => by
    refine iff_of_false Bool.false_ne_true ?_
    rintro (⟨i, hi⟩ | ⟨i, hi⟩ | hlen)
    · exact absurd hi.lt_length (Nat.not_lt_zero _)
    · exact absurd hi.lt_length (Nat.not_lt_zero _)
    · rw [List.length_nil] at hlen
      omega
  | [a], count, hcount => by
    have hone : ∀ {b : UInt8} {i : Nat}, ¬ PairAt b [a] i := fun hi =>
      absurd (Nat.lt_of_succ_lt_succ hi.lt_length) (Nat.not_lt_zero _)
    refine iff_of_false Bool.false_ne_true ?_
    rintro (⟨i, hi⟩ | ⟨i, hi⟩ | hlen)
    · exact hone hi
    · exact hone hi
    · rw [List.length_singleton] at hlen
      omega
  | a :: b :: rest, count, hcount => by
    unfold isHuffmanFrom
    by_cases h1 : markerWord a b = 0xFFDA
    · rw [if_pos h1]
      exact iff_of_true rfl (.inl ⟨0, markerWord_sos.mp h1⟩)
    · rw [if_neg h1]
      by_cases h2 : count > 2048
      · rw [if_pos h2]
        refine iff_of_true rfl (.inr (.inr ?_))
        rw [List.length_cons, List.length_cons]
        omega
      · rw [if_neg h2]
        by_cases h3 : markerWord a b = 0xFFC4
        · rw [if_pos h3]
          exact iff_of_true rfl (.inr (.inl ⟨0, markerWord_dht.mp h3⟩))
        · rw [if_neg h3, isHuffmanFrom_isSome_iff (b :: rest) (count + 1) (by omega),
            exists_pair_cons fun hp => h1 (markerWord_sos.mpr hp),
            exists_pair_cons fun hp => h3 (markerWord_dht.mpr hp), List.length_cons,
            List.length_cons, List.length_cons, Nat.add_right_comm, Nat.add_assoc count]

/-- With a pair that says "scan" it ends. -/
theorem isHuffmanFrom_eq (data : List UInt8) {n : Nat} (h : PairAt jpegSos data n) :
    ∃ seen, isHuffmanFrom data 0 = some seen ∧ (seen = true ↔ TableSeenFrom data 0) := by
  have hends := (isHuffmanFrom_isSome_iff data 0 (Nat.zero_le _)).mpr (.inl ⟨n, h⟩)
  obtain ⟨seen, heq⟩ := Option.isSome_iff_exists.mp hends
  exact ⟨seen, heq, isHuffmanFrom_seen data 0 heq⟩

/-- **The second search** finds the first pair that says "SOF0". -/
theorem findSof0_eq : ∀ (srcEnd : Nat) (data : List UInt8) (ptr : Nat) {i : Nat},
    PairAt jpegSof0 data i → (∀ k < i, ¬ PairAt jpegSof0 data k) → ptr + i < srcEnd →
    findSof0 srcEnd data ptr = some (ptr + i)
  | _, [], _, _, h, _, _ => absurd h.lt_length (by simp)
  | _, [_], _, _, h, _, _ => absurd h.lt_length (by simp)
  | srcEnd, a :: b :: rest, ptr, i, h, hfirst, hlt => by
    unfold findSof0
    cases i with
    | zero => rw [if_neg fun hc => hc.1 (markerWord_sof0.mpr h), Nat.add_zero]
    | succ i =>
      have hne : markerWord a b ≠ 0xFFC0 :=
        fun he => hfirst 0 (Nat.succ_pos i) (markerWord_sof0.mp he)
      rw [if_pos ⟨hne, by omega⟩, findSof0_eq srcEnd (b :: rest) (ptr + 1) (i := i) h
        (fun k hk => hfirst (k + 1) (by omega)) (by omega)]
      congr 1
      omega

/-! ## 4. The encoder -/

section Encoder

variable {j : BaselineJpeg} {src : UsFrame}

/-- The frame's memory begins with the JPEG. -/
theorem data_eq_append (h : src.bytes = j.bytes) :
    src.data = j.bytes ++ src.data.drop src.used := by
  rw [← h]
  exact (List.take_append_drop _ _).symm

theorem used_eq_length (h : src.bytes = j.bytes) : src.used = j.bytes.length := by
  rw [← h, UsFrame.bytes, List.length_take, Nat.min_eq_left src.used_le]

/-- What is seen in the memory is in the JPEG: it ends the search itself. -/
theorem tableSeen_data (h : src.bytes = j.bytes) :
    TableSeenFrom src.data 0 ↔ TableSeen j.bytes := by
  have hdata := data_eq_append h
  have hsos := j.pairAt_sos
  have hlt := hsos.lt_length
  have hsame : ∀ b i, i ≤ (j.head ++ j.middle).length →
      (PairAt b src.data i ↔ PairAt b j.bytes i) := by
    intro b i hi
    rw [hdata]
    exact pairAt_append_left (by omega)
  constructor
  · rintro ⟨i, hle, hpair, hbefore⟩
    have hi : i ≤ (j.head ++ j.middle).length := by
      by_contra hgt
      exact hbefore _ (by omega) ((hsame jpegSos _ (Nat.le_refl _)).mpr hsos)
    refine ⟨i, by omega, (hsame _ i hi).mp hpair, fun k hk hk' => ?_⟩
    exact hbefore k hk ((hsame _ k (by omega)).mpr hk')
  · rintro ⟨i, hle, hpair, hbefore⟩
    have hi : i ≤ (j.head ++ j.middle).length := by
      by_contra hgt
      exact hbefore _ (by omega) hsos
    refine ⟨i, by omega, (hsame _ i hi).mpr hpair, fun k hk hk' => ?_⟩
    exact hbefore k hk ((hsame _ k (by omega)).mp hk')

/-- **What the encoder makes of a JPEG**: a copy if a table is seen, and else the table is before
the first pair that says "SOF0". -/
theorem usHwEncoderCompress_eq (hformat : usIsJpeg src.format = true) (h : src.bytes = j.bytes)
    (dest : UsFrame) (begins ends : ℚ) :
    ∃ out, usHwEncoderCompress src dest begins ends = some out ∧
      (TableSeen j.bytes → out.bytes = j.bytes) ∧
      (¬ TableSeen j.bytes → ∃ i ≤ j.head.length, PairAt jpegSof0 j.bytes i ∧
        (∀ k < i, ¬ PairAt jpegSof0 j.bytes k) ∧
        out.bytes = j.bytes.take i ++ (usHuffmanTable ++ j.bytes.drop i)) := by
  have hdata := data_eq_append h
  have hused := used_eq_length h
  have hpos : src.used ≠ 0 := by
    rw [hused]
    exact fun h0 => j.bytes_ne_nil (List.length_eq_zero_iff.mp h0)
  have hsos : PairAt jpegSos src.data (j.head ++ j.middle).length := by
    rw [hdata]
    exact (pairAt_append_left j.pairAt_sos.lt_length).mpr j.pairAt_sos
  obtain ⟨seen, hsearch, hseen⟩ := isHuffmanFrom_eq src.data hsos
  rw [tableSeen_data h] at hseen
  unfold usHwEncoderCompress copyPlusHuffman usFrameEncodingBegin? usFrameEncodingBegin isHuffman
  rw [if_pos hformat, if_neg hpos, Option.bind_some, hsearch]
  cases seen with
  | true =>
    obtain ⟨out, hout, hbytes⟩ := usFrameEncodingEnd_spec
      (usFrameSetData _ src.data src.used) hpos ends
    refine ⟨out, hout, fun _ => ?_, fun hno => absurd (hseen.mp rfl) hno⟩
    rw [hbytes, bytes_usFrameSetData, readBytes_data, h]
  | false =>
    have hno : ¬ TableSeen j.bytes := fun hyes => absurd (hseen.mpr hyes) (by simp)
    obtain ⟨i, hle, hpair, hfirst⟩ := exists_first_pair j.pairAt_sof0
    have hlt := hpair.lt_length
    have hsame : ∀ k ≤ i, (PairAt jpegSof0 src.data k ↔ PairAt jpegSof0 j.bytes k) := by
      intro k hk
      rw [hdata]
      exact pairAt_append_left (by omega)
    have hfind := findSof0_eq src.used src.data 0 ((hsame i (Nat.le_refl i)).mpr hpair)
      (fun k hk hk' => hfirst k hk ((hsame k (by omega)).mp hk')) (by omega)
    rw [Nat.zero_add] at hfind
    have hpaste : ¬ i ≥ src.used := by omega
    have hwhole : i + usHuffmanTable.length + (src.used - i) ≠ 0 := by omega
    simp only [hfind, if_neg hpaste]
    obtain ⟨out, hout, hbytes⟩ := usFrameEncodingEnd_spec (usFrameAppendData
      (usFrameAppendData (usFrameSetData _ src.data i) usHuffmanTable usHuffmanTable.length)
      (src.data.drop i) (src.used - i)) hwhole ends
    refine ⟨out, hout, fun hyes => absurd hyes hno, fun _ => ⟨i, hle, hpair, hfirst, ?_⟩⟩
    have hfront : readBytes src.data i = j.bytes.take i := by
      rw [readBytes_eq_take (by have := src.used_le; omega), ← h, UsFrame.bytes, List.take_take,
        Nat.min_eq_left (by omega)]
    have hback : readBytes (src.data.drop i) (src.used - i) = j.bytes.drop i := by
      rw [readBytes_eq_take (by have := src.used_le; rw [List.length_drop]; omega), ← h,
        UsFrame.bytes, List.drop_take]
    rw [hbytes, bytes_usFrameAppendData, bytes_usFrameAppendData, bytes_usFrameSetData, hfront,
      hback, readBytes_eq_take (Nat.le_refl _), List.take_length, List.append_assoc]

/-- An insertion before a pair that says "SOF0" can be told from one further back. -/
theorem insertion_ne {bytes : List UInt8} {i n : Nat} (hin : i < n) (hn : n ≤ bytes.length)
    (hpair : PairAt jpegSof0 bytes i) :
    bytes.take i ++ (usHuffmanTable ++ bytes.drop i)
      ≠ bytes.take n ++ (usHuffmanTable ++ bytes.drop n) := by
  intro heq
  have hlen : i + 1 < bytes.length := hpair.lt_length
  have hat := congrArg (·[i + 1]?) heq
  have hleft : (bytes.take i ++ (usHuffmanTable ++ bytes.drop i))[i + 1]? = some 0xC4 := by
    rw [List.getElem?_append_right (by rw [List.length_take]; omega), List.length_take,
      Nat.min_eq_left (by omega), Nat.add_sub_cancel_left]
    rfl
  change (bytes.take i ++ _)[i + 1]? = (bytes.take n ++ _)[i + 1]? at hat
  rw [hleft] at hat
  rcases Nat.lt_or_eq_of_le (Nat.succ_le_of_lt hin) with hlt | rfl
  · rw [List.getElem?_append_left (by rw [List.length_take]; omega),
      List.getElem?_take_of_lt hlt, hpair.2] at hat
    exact absurd hat (by decide)
  · rw [List.getElem?_append_right (by rw [List.length_take]; omega), List.length_take,
      Nat.min_eq_left (by omega), Nat.sub_self] at hat
    have hfirst : (usHuffmanTable ++ bytes.drop (i + 1))[0]? = some 0xFF := rfl
    rw [hfirst] at hat
    exact absurd hat (by decide)

theorem withTable_of_not_hasDht (h : j.hasDht = false) :
    j.withTable = j.bytes.take j.head.length ++ (usHuffmanTable ++ j.bytes.drop j.head.length) := by
  rw [BaselineJpeg.withTable, h, BaselineJpeg.bytes]
  simp

/-- **When the insertion law holds**: a table is seen just in case there is one, and if there is
none, no pair says "SOF0" before the SOF0. -/
theorem huffman_insertion_iff (hformat : usIsJpeg src.format = true) (h : src.bytes = j.bytes)
    (dest : UsFrame) (begins ends : ℚ) :
    (∃ out, usHwEncoderCompress src dest begins ends = some out ∧ out.bytes = j.withTable) ↔
      (TableSeen j.bytes ↔ j.hasDht = true) ∧
        (j.hasDht = false → ∀ i < j.head.length, ¬ PairAt jpegSof0 j.bytes i) := by
  obtain ⟨out, hout, hcopy, hinsert⟩ := usHwEncoderCompress_eq hformat h dest begins ends
  have hlaw : (∃ out, usHwEncoderCompress src dest begins ends = some out ∧
      out.bytes = j.withTable) ↔ out.bytes = j.withTable := by
    rw [hout]
    simp
  have hhead : j.head.length ≤ j.bytes.length :=
    Nat.le_of_lt (Nat.lt_of_succ_lt j.pairAt_sof0.lt_length)
  have hlonger : ∀ i ≤ j.bytes.length,
      j.bytes.take i ++ (usHuffmanTable ++ j.bytes.drop i) ≠ j.bytes := by
    intro i hi heq
    have hlen := congrArg List.length heq
    simp only [List.length_append, List.length_take, List.length_drop,
      usHuffmanTable_length] at hlen
    omega
  rw [hlaw]
  cases hdht : j.hasDht with
  | true =>
    have hsame : j.withTable = j.bytes := by rw [BaselineJpeg.withTable, hdht, if_pos rfl]
    rw [hsame]
    constructor
    · intro heq
      refine ⟨iff_of_true ?_ rfl, by simp⟩
      by_contra hno
      obtain ⟨i, hle, -, -, hbytes⟩ := hinsert hno
      exact hlonger i (hle.trans hhead) (hbytes.symm.trans heq)
    · exact fun hcond => hcopy (hcond.1.mpr rfl)
  | false =>
    have htable := withTable_of_not_hasDht hdht
    rw [htable]
    constructor
    · intro heq
      have hno : ¬ TableSeen j.bytes := fun hyes =>
        hlonger _ hhead (heq.symm.trans (hcopy hyes))
      obtain ⟨i, hle, hpair, hfirst, hbytes⟩ := hinsert hno
      refine ⟨iff_of_false hno (by simp), fun _ k hk => ?_⟩
      rcases Nat.lt_or_eq_of_le hle with hlt | rfl
      · exact absurd (hbytes.symm.trans heq) (insertion_ne hlt hhead hpair)
      · exact hfirst k hk
    · rintro ⟨hseen, hfirst⟩
      have hno : ¬ TableSeen j.bytes := fun hyes => absurd (hseen.mp hyes) (by simp)
      obtain ⟨i, hle, hpair, -, hbytes⟩ := hinsert hno
      rcases Nat.lt_or_eq_of_le hle with hlt | rfl
      · exact absurd hpair (hfirst rfl i hlt)
      · exact hbytes

end Encoder

/-- A grey JPEG of 8 by 8 pixels without a table, with a comment. -/
def commentJpeg (comment : List UInt8) (h : comment.length + 2 < 65536) : BaselineJpeg where
  before := [⟨0xFE, comment, h⟩]
  sof0 := ⟨jpegSof0, [8, 0, 8, 0, 8, 1, 1, 0x11, 0], by decide⟩
  after := []
  sos := ⟨jpegSos, [1, 1, 0, 0, 63, 0], by decide⟩
  scan := [0xFF, 0xD9]
  sof0_marker := rfl
  sos_marker := rfl
  others := by
    intro s hs
    obtain rfl := List.mem_singleton.mp hs
    exact ⟨(by decide : (0xFE : UInt8) ≠ jpegSof0), (by decide : (0xFE : UInt8) ≠ jpegSos)⟩

/-- It as a frame. -/
def jpegFrame (j : BaselineJpeg) : UsFrame :=
  UsFrame.ofBytes { FrameMeta.zero with format := v4l2PixFmtJpeg } j.bytes

theorem bytes_jpegFrame (j : BaselineJpeg) : (jpegFrame j).bytes = j.bytes :=
  List.take_length

theorem format_jpegFrame (j : BaselineJpeg) : usIsJpeg (jpegFrame j).format = true := by
  have h : usIsJpeg v4l2PixFmtJpeg = true := by decide
  exact h

/-- The comment "hi". -/
theorem comment_keeps_the_law : ∃ out,
    usHwEncoderCompress (jpegFrame (commentJpeg [104, 105] (by decide))) usFrameInit 0 0
      = some out ∧ out.bytes = (commentJpeg [104, 105] (by decide)).withTable := by
  have hnone : ∀ i < 33, ¬ PairAt jpegDht (commentJpeg [104, 105] (by decide)).bytes i := by
    decide +kernel
  refine (huffman_insertion_iff (format_jpegFrame _) (bytes_jpegFrame _) _ _ _).mpr
    ⟨iff_of_false ?_ (by decide), fun _ => by decide +kernel⟩
  rintro ⟨i, -, hpair, -⟩
  have hlt := hpair.lt_length
  have hlen : (commentJpeg [104, 105] (by decide)).bytes.length = 33 := by decide +kernel
  exact hnone i (by omega) hpair

/-- A comment of the two bytes `FF C4`: it is taken for a table, and none is inserted. -/
theorem comment_taken_for_table :
    (commentJpeg [0xFF, 0xC4] (by decide)).hasDht = false ∧
    (∃ out, usHwEncoderCompress (jpegFrame (commentJpeg [0xFF, 0xC4] (by decide))) usFrameInit 0 0
      = some out ∧ out.bytes = (commentJpeg [0xFF, 0xC4] (by decide)).bytes) ∧
    ¬ ∃ out, usHwEncoderCompress (jpegFrame (commentJpeg [0xFF, 0xC4] (by decide))) usFrameInit 0 0
      = some out ∧ out.bytes = (commentJpeg [0xFF, 0xC4] (by decide)).withTable := by
  have hseen : TableSeen (commentJpeg [0xFF, 0xC4] (by decide)).bytes :=
    ⟨6, by decide, by decide +kernel, by decide +kernel⟩
  obtain ⟨out, hout, hcopy, -⟩ := usHwEncoderCompress_eq (j := commentJpeg [0xFF, 0xC4] (by decide))
    (format_jpegFrame _) (bytes_jpegFrame _) usFrameInit 0 0
  refine ⟨by decide, ⟨out, hout, hcopy hseen⟩, ?_⟩
  rintro ⟨out', hout', hbytes⟩
  rw [hout] at hout'
  obtain rfl := Option.some.inj hout'
  rw [hcopy hseen] at hbytes
  exact absurd (congrArg List.length hbytes) (by decide +kernel)

end TinyPilotKvm
