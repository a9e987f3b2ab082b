/-
# Frames (`libs/frame.h`, `libs/frame.c`)

A `us_frame_s` is a growing byte buffer with the metadata of one picture.  The buffer is the
memory at `frame->data`, `allocated` bytes of it, of which the first `used` are the picture:
`UsFrame` carries `used ≤ allocated` as a field, which is what `us_frame_realloc_data` is
called for before every write.

The same metadata travels through the shared-memory sinks, so it is a record of its own
(`FrameMeta`, the macro `US_FRAME_META_DECLARE`).  Timestamps are `long double` seconds in the
source and rationals here.
-/
import Mathlib.Algebra.Order.Ring.Rat
import Mathlib.Data.List.GetD

namespace TinyPilotKvm

/-! ## 1. Formats -/

/-- The kernel's `v4l2_fourcc`: four characters, lowest byte first. -/
def v4l2Fourcc (a b c d : Char) : Nat :=
  a.toNat + b.toNat * 2 ^ 8 + c.toNat * 2 ^ 16 + d.toNat * 2 ^ 24

def v4l2PixFmtH264 : Nat := v4l2Fourcc 'H' '2' '6' '4'

def v4l2PixFmtJpeg : Nat := v4l2Fourcc 'J' 'P' 'E' 'G'

def v4l2PixFmtMjpeg : Nat := v4l2Fourcc 'M' 'J' 'P' 'G'

def v4l2PixFmtYuyv : Nat := v4l2Fourcc 'Y' 'U' 'Y' 'V'

def v4l2PixFmtYvyu : Nat := v4l2Fourcc 'Y' 'V' 'Y' 'U'

def v4l2PixFmtUyvy : Nat := v4l2Fourcc 'U' 'Y' 'V' 'Y'

def v4l2PixFmtYuv420 : Nat := v4l2Fourcc 'Y' 'U' '1' '2'

def v4l2PixFmtYvu420 : Nat := v4l2Fourcc 'Y' 'V' '1' '2'

def v4l2PixFmtGrey : Nat := v4l2Fourcc 'G' 'R' 'E' 'Y'

def v4l2PixFmtRgb565 : Nat := v4l2Fourcc 'R' 'G' 'B' 'P'

def v4l2PixFmtRgb24 : Nat := v4l2Fourcc 'R' 'G' 'B' '3'

def v4l2PixFmtBgr24 : Nat := v4l2Fourcc 'B' 'G' 'R' '3'

/-- `us_is_jpeg`. -/
def usIsJpeg (format : Nat) : Bool :=
  format == v4l2PixFmtJpeg || format == v4l2PixFmtMjpeg

/-! ## 2. Frames -/

/-- `US_FRAME_META_DECLARE`. -/
structure FrameMeta where
  width : Nat
  height : Nat
  format : Nat
  stride : Nat
  online : Bool
  key : Bool
  gop : Nat
  grabTs : ℚ
  encodeBeginTs : ℚ
  encodeEndTs : ℚ
  deriving DecidableEq

/-- The metadata of `calloc`ed memory. -/
def FrameMeta.zero : FrameMeta :=
  ⟨0, 0, 0, 0, false, false, 0, 0, 0, 0⟩

/-- `us_frame_s`; `data` is all the memory allocated for it. -/
structure UsFrame extends FrameMeta where
  data : List UInt8
  used : Nat
  dmaFd : Int
  used_le : used ≤ data.length

/-- The bytes of the picture. -/
def UsFrame.bytes (frame : UsFrame) : List UInt8 := frame.data.take frame.used

theorem UsFrame.zero_le_length (frame : UsFrame) : 0 ≤ frame.data.length := Nat.zero_le _

/-- A frame that owns exactly the bytes it uses. -/
def UsFrame.ofBytes (info : FrameMeta) (bytes : List UInt8) : UsFrame :=
  { info with data := bytes, used := bytes.length, dmaFd := -1, used_le := Nat.le_refl _ }

/-- The first `n` bytes of a memory block, as `memcpy` reads them. -/
def readBytes (mem : List UInt8) (n : Nat) : List UInt8 :=
  (List.range n).map fun i => mem.getD i 0

@[simp] theorem readBytes_length (mem : List UInt8) (n : Nat) : (readBytes mem n).length = n := by
  simp [readBytes]

/-- Inside the block the bytes read are the block's. -/
theorem readBytes_eq_take {mem : List UInt8} {n : Nat} (h : n ≤ mem.length) :
    readBytes mem n = mem.take n := by
  refine List.ext_getElem (by simpa using h) fun i h1 h2 => ?_
  have hi : i < mem.length := by simp at h2; omega
  simp [readBytes, List.getElem?_eq_getElem hi]

theorem readBytes_data (frame : UsFrame) : readBytes frame.data frame.used = frame.bytes :=
  readBytes_eq_take frame.used_le

/-- What `memcpy(mem, bytes, n)` leaves in `mem`, growing it if it is shorter. -/
def writeBytes (mem bytes : List UInt8) : List UInt8 :=
  bytes ++ mem.drop bytes.length

theorem take_writeBytes (mem bytes : List UInt8) :
    (writeBytes mem bytes).take bytes.length = bytes := by
  simp [writeBytes]

/-- A write that fits does not move the end of the block. -/
theorem writeBytes_length {mem bytes : List UInt8} (h : bytes.length ≤ mem.length) :
    (writeBytes mem bytes).length = mem.length := by
  simp [writeBytes]
  omega

/-- `us_frame_init`: half a megabyte of memory, none of it used. -/
def usFrameInit : UsFrame :=
  { FrameMeta.zero with
    data := List.replicate (512 * 1024) 0
    used := 0
    dmaFd := -1
    used_le := Nat.zero_le _ }

/-- `us_frame_set_data`, with the reallocation of `us_frame_realloc_data`. -/
def usFrameSetData (frame : UsFrame) (data : List UInt8) (size : Nat) : UsFrame :=
  { frame with
    data := writeBytes frame.data (readBytes data size)
    used := size
    used_le := by simp [writeBytes] }

/-- `us_frame_append_data`. -/
def usFrameAppendData (frame : UsFrame) (data : List UInt8) (size : Nat) : UsFrame :=
  { frame with
    data := writeBytes frame.data (frame.bytes ++ readBytes data size)
    used := frame.used + size
    used_le := by simp [writeBytes, UsFrame.bytes, Nat.min_eq_left frame.used_le] }

/-- `US_FRAME_COPY_META`. -/
def UsFrame.copyMeta (dest : UsFrame) (src : FrameMeta) : UsFrame :=
  { dest with toFrameMeta := src }

/-- `us_frame_encoding_begin`, without its assertion. -/
def usFrameEncodingBegin (src dest : UsFrame) (format : Nat) (now : ℚ) : UsFrame :=
  { dest with
    toFrameMeta := { src.toFrameMeta with encodeBeginTs := now, format := format, stride := 0 }
    used := 0
    used_le := Nat.zero_le _ }

/-- `us_frame_encoding_begin`.  `none`: its assertion fails. -/
def usFrameEncodingBegin? (src dest : UsFrame) (format : Nat) (now : ℚ) : Option UsFrame :=
  if src.used = 0 then none else some (usFrameEncodingBegin src dest format now)

/-- `us_frame_encoding_end`.  `none`: its assertion fails. -/
def usFrameEncodingEnd (dest : UsFrame) (now : ℚ) : Option UsFrame :=
  if dest.used = 0 then none else some { dest with encodeEndTs := now }

/-- `US_FRAME_COMPARE_GEOMETRY`: the used size and the metadata less the times. -/
def usFrameCompareGeometry (usedA : Nat) (a : FrameMeta) (usedB : Nat) (b : FrameMeta) : Bool :=
  usedA == usedB && a.width == b.width && a.height == b.height && a.format == b.format
    && a.stride == b.stride && a.online == b.online && a.key == b.key && a.gop == b.gop

/-- The `switch` of `us_frame_get_padding`.  `none`: its assertion fails. -/
def bytesPerPixel (format : Nat) : Option Nat :=
  if format = v4l2PixFmtYuv420 ∨ format = v4l2PixFmtYvu420 ∨ format = v4l2PixFmtGrey then some 1
  else if format = v4l2PixFmtYuyv ∨ format = v4l2PixFmtYvyu ∨ format = v4l2PixFmtUyvy
      ∨ format = v4l2PixFmtRgb565 then some 2
  else if format = v4l2PixFmtBgr24 ∨ format = v4l2PixFmtRgb24 then some 3
  else if format = v4l2PixFmtMjpeg ∨ format = v4l2PixFmtJpeg then some 0
  else none

/-- `us_frame_get_padding`; the subtraction is one of `uint`s. -/
def usFrameGetPadding (frame : FrameMeta) : Option Nat :=
  (bytesPerPixel frame.format).map fun bytes =>
    if bytes > 0 ∧ frame.stride > frame.width then
      (frame.stride + 4294967296 - frame.width * bytes % 4294967296) % 4294967296
    else 0

@[simp] theorem used_usFrameSetData (frame : UsFrame) (data : List UInt8) (size : Nat) :
    (usFrameSetData frame data size).used = size := rfl

@[simp] theorem bytes_usFrameSetData (frame : UsFrame) (data : List UInt8) (size : Nat) :
    (usFrameSetData frame data size).bytes = readBytes data size := by
  have h := take_writeBytes frame.data (readBytes data size)
  rwa [readBytes_length] at h

/-- The end of an encoding changes no byte. -/
theorem usFrameEncodingEnd_spec (dest : UsFrame) (h : dest.used ≠ 0) (now : ℚ) :
    ∃ out, usFrameEncodingEnd dest now = some out ∧ out.bytes = dest.bytes :=
  ⟨{ dest with encodeEndTs := now }, by rw [usFrameEncodingEnd, if_neg h], rfl⟩

@[simp] theorem used_usFrameAppendData (frame : UsFrame) (data : List UInt8) (size : Nat) :
    (usFrameAppendData frame data size).used = frame.used + size := rfl

@[simp] theorem bytes_usFrameAppendData (frame : UsFrame) (data : List UInt8) (size : Nat) :
    (usFrameAppendData frame data size).bytes = frame.bytes ++ readBytes data size := by
  have h := take_writeBytes frame.data (frame.bytes ++ readBytes data size)
  have hlen : (frame.bytes ++ readBytes data size).length = frame.used + size := by
    simp [UsFrame.bytes, Nat.min_eq_left frame.used_le]
  rwa [hlen] at h

@[simp] theorem bytes_copyMeta (dest : UsFrame) (src : FrameMeta) :
    (dest.copyMeta src).bytes = dest.bytes := rfl

@[simp] theorem used_copyMeta (dest : UsFrame) (src : FrameMeta) :
    (dest.copyMeta src).used = dest.used := rfl

@[simp] theorem toFrameMeta_copyMeta (dest : UsFrame) (src : FrameMeta) :
    (dest.copyMeta src).toFrameMeta = src := rfl

end TinyPilotKvm
