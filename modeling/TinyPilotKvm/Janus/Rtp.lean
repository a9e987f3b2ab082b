/-
# RTP datagrams (`janus/src/rtp.h`, `janus/src/rtp.c`)

An `us_rtp_s` is one datagram buffer, used again for every datagram, with the sequence number of the
next one.  The buffer has a fixed size, which `UsRtp` carries as a field.
-/
import Mathlib.Data.UInt
import TinyPilotKvm.Libs.Memory

namespace TinyPilotKvm

def usRtpDatagramSize : Nat := 1200
def usRtpHeaderSize : Nat := 12

/-- The room for a payload. -/
def usRtpPayloadSize : Nat := usRtpDatagramSize - usRtpHeaderSize

def usRtpH264Payload : UInt32 := 96

/-- `us_rtp_s`. -/
structure UsRtp where
  payload : UInt32
  video : Bool
  ssrc : UInt32
  seq : UInt16
  datagram : List UInt8
  used : Nat
  zeroPlayoutDelay : Bool
  length_datagram : datagram.length = usRtpDatagramSize

namespace UsRtp

/-- `us_rtp_init`. -/
def init : UsRtp where
  payload := 0
  video := false
  ssrc := 0
  seq := 0
  datagram := List.replicate usRtpDatagramSize 0
  used := 0
  zeroPlayoutDelay := false
  length_datagram := List.length_replicate

/-- `us_rtp_assign`; `ssrc` is its random number. -/
def assign (rtp : UsRtp) (payload : UInt32) (video : Bool) (ssrc : UInt32) : UsRtp :=
  { rtp with payload := payload, video := video, ssrc := ssrc }

/-- A write of bytes into the datagram, `none` if they do not fit. -/
def memcpy (rtp : UsRtp) (off : Nat) (bytes : List UInt8) : Option UsRtp :=
  match h : storeAll rtp.datagram off bytes with
  | none => none
  | some datagram => some { rtp with
      datagram := datagram
      length_datagram := (length_storeAll h).trans rtp.length_datagram }

def setUsed (rtp : UsRtp) (used : Nat) : UsRtp := { rtp with used := used }

/-- The bytes on the wire, after the header. -/
def payloadBytes (rtp : UsRtp) : List UInt8 := (rtp.datagram.take rtp.used).drop usRtpHeaderSize

theorem memcpy_eq_some_iff {rtp rtp' : UsRtp} {off : Nat} {bytes : List UInt8} :
    rtp.memcpy off bytes = some rtp' ↔
      ∃ datagram h, storeAll rtp.datagram off bytes = some datagram ∧
      rtp' = { rtp with datagram := datagram, length_datagram := h } := by
  unfold memcpy
  split
  · rename_i hs
    constructor
    · exact fun h => absurd h (by simp)
    · rintro ⟨_, _, h, _⟩
      exact absurd (hs.symm.trans h) (by simp)
  · rename_i datagram hs
    constructor
    · intro h
      exact ⟨datagram, _, hs, (Option.some.inj h).symm⟩
    · rintro ⟨datagram', h, hs', rfl⟩
      obtain rfl := Option.some.inj (hs.symm.trans hs')
      rfl

/-- Bytes that fit are written. -/
theorem memcpy_of_le (rtp : UsRtp) {off : Nat} (bytes : List UInt8)
    (h : off + bytes.length ≤ usRtpDatagramSize) : ∃ rtp', rtp.memcpy off bytes = some rtp' := by
  obtain ⟨datagram, hs⟩ : ∃ datagram, storeAll rtp.datagram off bytes = some datagram :=
    ⟨_, if_pos (by rw [rtp.length_datagram]; exact h)⟩
  exact ⟨_, memcpy_eq_some_iff.mpr
    ⟨datagram, (length_storeAll hs).trans rtp.length_datagram, hs, rfl⟩⟩

/-- Two writes, the second right after the first, are one. -/
theorem memcpy_append (rtp : UsRtp) (off : Nat) (xs ys : List UInt8) :
    (rtp.memcpy off xs).bind (fun r => r.memcpy (off + xs.length) ys)
      = rtp.memcpy off (xs ++ ys) := by
  have hs := storeAll_append rtp.datagram off xs ys
  refine Option.ext fun rtp' => ?_
  rw [Option.bind_eq_some_iff]
  constructor
  · rintro ⟨r, hr, hr'⟩
    obtain ⟨d1, h1, hs1, rfl⟩ := memcpy_eq_some_iff.mp hr
    obtain ⟨d2, h2, hs2, rfl⟩ := memcpy_eq_some_iff.mp hr'
    rw [hs1, Option.bind_some, hs2] at hs
    exact memcpy_eq_some_iff.mpr ⟨d2, h2, hs.symm, rfl⟩
  · intro h
    obtain ⟨d2, h2, hs2, rfl⟩ := memcpy_eq_some_iff.mp h
    rw [hs2, Option.bind_eq_some_iff] at hs
    obtain ⟨d1, hs1, hs1'⟩ := hs
    have hlen := (length_storeAll hs1).trans rtp.length_datagram
    exact ⟨{ rtp with datagram := d1, length_datagram := hlen },
      memcpy_eq_some_iff.mpr ⟨d1, hlen, hs1, rfl⟩, memcpy_eq_some_iff.mpr ⟨d2, h2, hs1', rfl⟩⟩

end UsRtp

/-- A `u32` in network byte order. -/
def beU32 (x : UInt32) : List UInt8 :=
  [(x >>> 24).toUInt8, (x >>> 16).toUInt8, (x >>> 8).toUInt8, x.toUInt8]

/-- The first word of the header. -/
def rtpWord0 (payload : UInt32) (seq : UInt16) (marked : Bool) : UInt32 :=
  let word0 : UInt32 := 0x80000000
  let word0 := if marked then word0 ||| ((1 : UInt32) <<< 23) else word0
  let word0 := word0 ||| ((payload &&& 0x7F) <<< 16)
  word0 ||| seq.toUInt32

/-- The header of a datagram. -/
def rtpHeader (payload : UInt32) (seq : UInt16) (pts ssrc : UInt32) (marked : Bool) : List UInt8 :=
  beU32 (rtpWord0 payload seq marked) ++ beU32 pts ++ beU32 ssrc

/-- `us_rtp_write_header`. -/
def usRtpWriteHeader (rtp : UsRtp) (pts : UInt32) (marked : Bool) : UsRtp :=
  { rtp with
    seq := rtp.seq + 1
    datagram := rtpHeader rtp.payload rtp.seq pts rtp.ssrc marked
      ++ rtp.datagram.drop usRtpHeaderSize
    length_datagram := by
      rw [List.length_append, List.length_drop, rtp.length_datagram]
      rfl }

end TinyPilotKvm
