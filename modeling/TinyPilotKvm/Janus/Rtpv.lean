/-
# The H.264 packetizer (`janus/src/rtpv.c`)

`us_rtpv_wrap` looks for the start codes of a frame and hands what stands between two of them to
`_rtpv_process_nalu`, which sends it in one datagram or in fragments.  Sending is calling
`callback` with the datagram buffer, so what has been sent is the list of the buffers it was
called with.

All reads of the frame and writes to the datagram are checked, and so are the subtractions of
unsigned sizes: what C leaves undefined, a failed assertion or a loop without end is a fault of
the model.  The two loops have a bound on their turns, `used + 1` for the start codes and the
number of bytes for the fragments.
-/
import TinyPilotKvm.Janus.Rtp
import TinyPilotKvm.Libs.Frame

namespace TinyPilotKvm

/-! ## 1. Data -/

/-- `us_rtpv_s`, with the datagrams its callback has been called with. -/
structure UsRtpv where
  rtp : UsRtp
  sent : List UsRtp

/-- `us_rtpv_init`. -/
def usRtpvInit (ssrc : UInt32) : UsRtpv :=
  ⟨UsRtp.init.assign usRtpH264Payload true ssrc, []⟩

inductive RtpvFault
  | notH264
  | readOutside
  | writeOutside
  | underflow
  | diverges
  deriving DecidableEq

/-- A checked operation, in a function that can fail. -/
def orFault {α : Type} (x : Option α) (fault : RtpvFault) : Except RtpvFault α :=
  match x with
  | none => .error fault
  | some a => .ok a

/-- `a - b` of unsigned sizes. -/
def subSize (a b : Nat) : Except RtpvFault Nat :=
  if b ≤ a then .ok (a - b) else .error .underflow

/-- `rtpv->callback(rtpv->rtp)`. -/
def UsRtpv.callback (rtpv : UsRtpv) (rtp : UsRtp) : UsRtpv :=
  { rtp := rtp, sent := rtpv.sent ++ [rtp] }

/-! ## 2. Start codes -/

/-- `_PRE`. -/
def annexbPre : Nat := 3

/-- The condition in the loop of `_find_annexb`, which reads no further than the first byte that
differs. -/
def startsAt (mem : List UInt8) (i : Nat) : Except RtpvFault Bool := do
  let b0 ← orFault mem[i]? .readOutside
  if b0 ≠ 0 then return false
  let b1 ← orFault mem[i + 1]? .readOutside
  if b1 ≠ 0 then return false
  let b2 ← orFault mem[i + 2]? .readOutside
  return b2 = 1

/-- The loop of `_find_annexb` from `index` on, `todo` turns of it. -/
def findAnnexbFrom (mem : List UInt8) (data : Nat) : Nat → Nat → Except RtpvFault (Option Nat)
  | 0, _ => .ok none
  | todo + 1, index => do
    if ← startsAt mem (data + index) then return some index
    findAnnexbFrom mem data todo (index + 1)

/-- `_find_annexb(mem + data, size)`; -1 is `none`. -/
def findAnnexb (mem : List UInt8) (data size : Nat) : Except RtpvFault (Option Nat) :=
  if annexbPre ≤ size then findAnnexbFrom mem data (size - annexbPre + 1) 0 else .ok none

/-! ## 3. One unit -/

/-- The overhead of a fragment. -/
def fuOverhead : Nat := usRtpHeaderSize + 2

/-- The `while` loop of `_rtpv_process_nalu`. -/
def rtpvFragments (mem : List UInt8) (refIdc type : UInt8) (pts : UInt32) (marked : Bool) :
    Nat → UsRtpv → Nat → Nat → Bool → Except RtpvFault UsRtpv
  | 0, rtpv, _, remaining, _ => if remaining = 0 then .ok rtpv else .error .diverges
  | turns + 1, rtpv, src, remaining, first =>
    if remaining = 0 then .ok rtpv
    else do
      let fragSize := usRtpDatagramSize - fuOverhead
      let last := decide (remaining ≤ fragSize)
      let fragSize := if last then remaining else fragSize
      let rtp := usRtpWriteHeader rtpv.rtp pts (marked && last)
      let rtp ← orFault (rtp.memcpy usRtpHeaderSize [(28 : UInt8) ||| (refIdc <<< 5)]) .writeOutside
      let fu := type
      let fu := if first then fu ||| 0x80 else fu
      let fu := if last then fu ||| 0x40 else fu
      let rtp ← orFault (rtp.memcpy (usRtpHeaderSize + 1) [fu]) .writeOutside
      let bytes ← orFault (loadAll mem src fragSize) .readOutside
      let rtp ← orFault (rtp.memcpy fuOverhead bytes) .writeOutside
      rtpvFragments mem refIdc type pts marked turns
        (rtpv.callback (rtp.setUsed (fuOverhead + fragSize)))
        (src + fragSize) (remaining - fragSize) false

/-- `_rtpv_process_nalu(rtpv, mem + data, size, pts, marked)`. -/
def rtpvProcessNalu (rtpv : UsRtpv) (mem : List UInt8) (data size : Nat) (pts : UInt32)
    (marked : Bool) : Except RtpvFault UsRtpv := do
  let header ← orFault mem[data]? .readOutside
  let refIdc := (header >>> 5) &&& 3
  let type := header &&& 0x1F
  if size + usRtpHeaderSize ≤ usRtpDatagramSize then
    let rtp := usRtpWriteHeader rtpv.rtp pts marked
    let bytes ← orFault (loadAll mem data size) .readOutside
    let rtp ← orFault (rtp.memcpy usRtpHeaderSize bytes) .writeOutside
    return rtpv.callback (rtp.setUsed (size + usRtpHeaderSize))
  else
    rtpvFragments mem refIdc type pts marked (size - 1) rtpv (data + 1) (size - 1) true

/-! ## 4. One frame -/

/-- "Check for extra 00": one before the next start code belongs to that start code. -/
def withoutExtraZero (mem : List UInt8) (data size : Nat) : Except RtpvFault Nat := do
  let last ← subSize size 1
  let lastByte ← orFault mem[data + last]? .readOutside
  if lastByte = 0 then subSize size 1 else return size

/-- The loop of `us_rtpv_wrap` and what follows it.  `lastOffset` is `none` for its first value
`-_PRE`. -/
def rtpvWrapFrom (frame : UsFrame) (pts : UInt32) : Nat → UsRtpv → Option Nat →
    Except RtpvFault UsRtpv
  | 0, _, _ => .error .diverges
  | turns + 1, rtpv, lastOffset => do
    let nextStart := match lastOffset with
      | none => 0
      | some lastOffset => lastOffset + annexbPre
    let rest ← subSize frame.used nextStart
    match ← findAnnexb frame.data nextStart rest with
    | none =>
      match lastOffset with
      | none => return rtpv
      | some lastOffset =>
        let size ← subSize frame.used (lastOffset + annexbPre)
        rtpvProcessNalu rtpv frame.data (lastOffset + annexbPre) size pts true
    | some offset =>
      let offset := offset + nextStart
      match lastOffset with
      | none => rtpvWrapFrom frame pts turns rtpv (some offset)
      | some lastOffset =>
        let data := lastOffset + annexbPre
        let size ← subSize offset data
        let size ← withoutExtraZero frame.data data size
        let rtpv ← rtpvProcessNalu rtpv frame.data data size pts false
        rtpvWrapFrom frame pts turns rtpv (some offset)

/-- `us_rtpv_wrap`; `now` is `us_get_now_monotonic_u64()`. -/
def usRtpvWrap (rtpv : UsRtpv) (frame : UsFrame) (zeroPlayoutDelay : Bool) (now : UInt64) :
    Except RtpvFault UsRtpv :=
  if frame.format ≠ v4l2PixFmtH264 then .error .notH264
  else
    let rtpv := { rtpv with rtp := { rtpv.rtp with zeroPlayoutDelay := zeroPlayoutDelay } }
    let pts := (now * 9 / 100).toUInt32
    rtpvWrapFrom frame pts (frame.used + 1) rtpv none

/-! ## 5. The assertion -/

section Assertion

variable {α β : Type} {mem : List UInt8} {data size : Nat}

/-- A computation none of whose parts ends in the failed assertion does not end in it. -/
theorem bind_ne_notH264 {x : Except RtpvFault α} {f : α → Except RtpvFault β}
    (hx : x ≠ .error .notH264) (hf : ∀ a, f a ≠ .error .notH264) :
    (x >>= f) ≠ .error .notH264 := by
  cases x with
  | error fault => exact fun h => hx (by rw [Except.error.inj h])
  | ok a => exact hf a

theorem pure_ne_notH264 (a : α) : (.ok a : Except RtpvFault α) ≠ .error .notH264 := by
  simp

theorem orFault_ne_notH264 (x : Option α) {fault : RtpvFault} (h : fault ≠ .notH264) :
    orFault x fault ≠ .error .notH264 := by
  cases x with
  | none => exact fun h0 => h (Except.error.inj h0)
  | some a => exact pure_ne_notH264 a

theorem subSize_ne_notH264 (a b : Nat) : subSize a b ≠ .error .notH264 := by
  unfold subSize
  split
  · exact pure_ne_notH264 _
  · simp

theorem startsAt_ne_notH264 (i : Nat) : startsAt mem i ≠ .error .notH264 := by
  unfold startsAt
  refine bind_ne_notH264 (orFault_ne_notH264 _ (by decide)) fun b0 => ?_
  split
  · exact pure_ne_notH264 _
  refine bind_ne_notH264 (orFault_ne_notH264 _ (by decide)) fun b1 => ?_
  split
  · exact pure_ne_notH264 _
  refine bind_ne_notH264 (orFault_ne_notH264 _ (by decide)) fun b2 => ?_
  exact pure_ne_notH264 _

theorem findAnnexbFrom_ne_notH264 (todo index : Nat) :
    findAnnexbFrom mem data todo index ≠ .error .notH264 := by
  induction todo generalizing index with
  | zero => exact pure_ne_notH264 _
  | succ todo ih =>
    refine bind_ne_notH264 (startsAt_ne_notH264 _) fun b => ?_
    split
    · exact pure_ne_notH264 _
    · exact ih (index + 1)

theorem findAnnexb_ne_notH264 : findAnnexb mem data size ≠ .error .notH264 := by
  unfold findAnnexb
  split
  · exact findAnnexbFrom_ne_notH264 _ _
  · exact pure_ne_notH264 _

theorem rtpvFragments_ne_notH264 (refIdc type : UInt8) (pts : UInt32) (marked : Bool)
    (turns : Nat) (rtpv : UsRtpv) (src remaining : Nat) (first : Bool) :
    rtpvFragments mem refIdc type pts marked turns rtpv src remaining first
      ≠ .error .notH264 := by
  induction turns generalizing rtpv src remaining first with
  | zero =>
    unfold rtpvFragments
    split
    · exact pure_ne_notH264 _
    · simp
  | succ turns ih =>
    unfold rtpvFragments
    split
    · exact pure_ne_notH264 _
    refine bind_ne_notH264 (orFault_ne_notH264 _ (by decide)) fun rtp1 => ?_
    refine bind_ne_notH264 (orFault_ne_notH264 _ (by decide)) fun rtp2 => ?_
    refine bind_ne_notH264 (orFault_ne_notH264 _ (by decide)) fun bytes => ?_
    refine bind_ne_notH264 (orFault_ne_notH264 _ (by decide)) fun rtp3 => ?_
    exact ih _ _ _ _

theorem rtpvProcessNalu_ne_notH264 (rtpv : UsRtpv) (pts : UInt32) (marked : Bool) :
    rtpvProcessNalu rtpv mem data size pts marked ≠ .error .notH264 := by
  unfold rtpvProcessNalu
  refine bind_ne_notH264 (orFault_ne_notH264 _ (by decide)) fun header => ?_
  dsimp only
  split
  · refine bind_ne_notH264 (orFault_ne_notH264 _ (by decide)) fun bytes => ?_
    refine bind_ne_notH264 (orFault_ne_notH264 _ (by decide)) fun rtp => ?_
    exact pure_ne_notH264 _
  · exact rtpvFragments_ne_notH264 _ _ _ _ _ _ _ _ _

theorem withoutExtraZero_ne_notH264 : withoutExtraZero mem data size ≠ .error .notH264 := by
  unfold withoutExtraZero
  refine bind_ne_notH264 (subSize_ne_notH264 _ _) fun last => ?_
  refine bind_ne_notH264 (orFault_ne_notH264 _ (by decide)) fun lastByte => ?_
  split
  · exact subSize_ne_notH264 _ _
  · exact pure_ne_notH264 _

theorem rtpvWrapFrom_ne_notH264 (frame : UsFrame) (pts : UInt32) (turns : Nat) (rtpv : UsRtpv)
    (lastOffset : Option Nat) :
    rtpvWrapFrom frame pts turns rtpv lastOffset ≠ .error .notH264 := by
  induction turns generalizing rtpv lastOffset with
  | zero => simp [rtpvWrapFrom]
  | succ turns ih =>
    unfold rtpvWrapFrom
    refine bind_ne_notH264 (subSize_ne_notH264 _ _) fun rest => ?_
    refine bind_ne_notH264 findAnnexb_ne_notH264 fun found => ?_
    cases found with
    | none =>
      cases lastOffset with
      | none => exact pure_ne_notH264 _
      | some lastOffset =>
        exact bind_ne_notH264 (subSize_ne_notH264 _ _) fun size =>
          rtpvProcessNalu_ne_notH264 _ _ _
    | some offset =>
      cases lastOffset with
      | none => exact ih _ _
      | some lastOffset =>
        refine bind_ne_notH264 (subSize_ne_notH264 _ _) fun size => ?_
        refine bind_ne_notH264 withoutExtraZero_ne_notH264 fun size => ?_
        exact bind_ne_notH264 (rtpvProcessNalu_ne_notH264 _ _ _) fun rtpv => ih _ _

/-- **The assertion of `us_rtpv_wrap` is on the format alone**: it fails exactly on a frame that
is not H.264. -/
theorem usRtpvWrap_eq_notH264_iff {rtpv : UsRtpv} {frame : UsFrame} {zeroPlayoutDelay : Bool}
    {now : UInt64} :
    usRtpvWrap rtpv frame zeroPlayoutDelay now = .error .notH264
      ↔ frame.format ≠ v4l2PixFmtH264 := by
  unfold usRtpvWrap
  split
  · rename_i h
    exact ⟨fun _ => h, fun _ => rfl⟩
  · rename_i h
    exact ⟨fun h0 => absurd h0 (rtpvWrapFrom_ne_notH264 _ _ _ _ _), fun h0 => absurd h0 h⟩

end Assertion

end TinyPilotKvm
