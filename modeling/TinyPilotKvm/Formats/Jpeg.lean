/-
# JPEG files as marker segments

A baseline JPEG is a start marker, segments, and the scan.  Each segment says how long it is, so
whoever follows the lengths sees the markers and nothing else; whoever looks for the two bytes
of a marker (`PairAt`) also sees them inside the payloads, in the lengths, and across the seams.
-/
import Mathlib.Data.List.Basic
import Mathlib.Data.Nat.Find

namespace TinyPilotKvm

/-! ## 1. Segments -/

def jpegSof0 : UInt8 := 0xC0

def jpegDht : UInt8 := 0xC4

def jpegSos : UInt8 := 0xDA

/-- A marker segment; the length that it states counts its own two bytes. -/
structure JpegSegment where
  marker : UInt8
  payload : List UInt8
  length_lt : payload.length + 2 < 65536

/-- The marker, the length, and the payload. -/
def JpegSegment.bytes (s : JpegSegment) : List UInt8 :=
  [0xFF, s.marker, ((s.payload.length + 2) / 256).toUInt8, ((s.payload.length + 2) % 256).toUInt8]
    ++ s.payload

/-- A baseline JPEG: the segments before and after the one SOF0, the SOS, and all the rest. -/
structure BaselineJpeg where
  before : List JpegSegment
  sof0 : JpegSegment
  after : List JpegSegment
  sos : JpegSegment
  scan : List UInt8
  sof0_marker : sof0.marker = jpegSof0
  sos_marker : sos.marker = jpegSos
  others : ∀ s ∈ before ++ after, s.marker ≠ jpegSof0 ∧ s.marker ≠ jpegSos

namespace BaselineJpeg

variable (j : BaselineJpeg)

/-- What is before the SOF0. -/
def head : List UInt8 := [0xFF, 0xD8] ++ j.before.flatMap JpegSegment.bytes

/-- What is between the SOF0 marker and the SOS. -/
def middle : List UInt8 := j.sof0.bytes ++ j.after.flatMap JpegSegment.bytes

def bytes : List UInt8 := j.head ++ (j.middle ++ (j.sos.bytes ++ j.scan))

/-- There is a Huffman table before the SOS. -/
def hasDht : Bool := (j.before ++ j.after).any fun s => s.marker == jpegDht

end BaselineJpeg

/-! ## 2. Pairs of bytes -/

/-- The bytes of the marker `b`, at offset `i`. -/
def PairAt (b : UInt8) (bytes : List UInt8) (i : Nat) : Prop :=
  bytes[i]? = some 0xFF ∧ bytes[i + 1]? = some b

instance (b : UInt8) (bytes : List UInt8) (i : Nat) : Decidable (PairAt b bytes i) :=
  inferInstanceAs (Decidable (_ ∧ _))

@[simp] theorem pairAt_cons_succ {b a : UInt8} {bytes : List UInt8} {i : Nat} :
    PairAt b (a :: bytes) (i + 1) ↔ PairAt b bytes i := Iff.rfl

theorem pairAt_zero {b a c : UInt8} {bytes : List UInt8} :
    PairAt b (a :: c :: bytes) 0 ↔ a = 0xFF ∧ c = b := by
  simp [PairAt]

theorem PairAt.lt_length {b : UInt8} {bytes : List UInt8} {i : Nat} (h : PairAt b bytes i) :
    i + 1 < bytes.length := (List.getElem?_eq_some_iff.mp h.2).1

/-- What follows makes no difference. -/
theorem pairAt_append_left {b : UInt8} {bytes rest : List UInt8} {i : Nat}
    (h : i + 1 < bytes.length) : PairAt b (bytes ++ rest) i ↔ PairAt b bytes i := by
  unfold PairAt
  rw [List.getElem?_append_left h, List.getElem?_append_left (Nat.lt_of_succ_lt h)]

theorem pairAt_append_length {b : UInt8} {front rest : List UInt8} :
    PairAt b (front ++ rest) front.length ↔ PairAt b rest 0 := by
  unfold PairAt
  rw [List.getElem?_append_right (Nat.le_refl _), List.getElem?_append_right (Nat.le_succ _)]
  simp

theorem pairAt_segment (s : JpegSegment) (rest : List UInt8) :
    PairAt s.marker (s.bytes ++ rest) 0 := pairAt_zero.mpr ⟨rfl, rfl⟩

namespace BaselineJpeg

variable (j : BaselineJpeg)

/-- Where the SOF0 is. -/
theorem pairAt_sof0 : PairAt jpegSof0 j.bytes j.head.length := by
  rw [bytes, pairAt_append_length, middle, List.append_assoc, ← j.sof0_marker]
  exact pairAt_segment _ _

/-- Where the SOS is. -/
theorem pairAt_sos : PairAt jpegSos j.bytes (j.head ++ j.middle).length := by
  rw [bytes, ← List.append_assoc, pairAt_append_length, ← j.sos_marker]
  exact pairAt_segment _ _

theorem bytes_ne_nil : j.bytes ≠ [] := by
  intro h
  have hlt := j.pairAt_sof0.lt_length
  rw [h] at hlt
  exact absurd hlt (by simp)

end BaselineJpeg

/-- The first place of a pair. -/
theorem exists_first_pair {b : UInt8} {bytes : List UInt8} {n : Nat} (h : PairAt b bytes n) :
    ∃ i ≤ n, PairAt b bytes i ∧ ∀ k < i, ¬ PairAt b bytes k := by
  have hex : ∃ i, PairAt b bytes i := ⟨n, h⟩
  exact ⟨Nat.find hex, Nat.find_min' hex h, Nat.find_spec hex, fun k hk => Nat.find_min hex hk⟩

end TinyPilotKvm
