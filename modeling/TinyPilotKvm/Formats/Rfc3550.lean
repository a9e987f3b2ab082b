/-
# RTP packets (RFC 3550)

The header of a packet is twelve bytes, big-endian.  `parse` reads one of version 2 without
padding, extension and contributing sources.

`numbered` is a source's packets, one sequence number after another.  Consecutive packets then
differ by one, also where the number wraps around (`isChain_numbered`).
-/
import Mathlib.Data.List.Chain
import Mathlib.Data.UInt

namespace TinyPilotKvm.Rfc3550

/-! ## 1. Reading a packet -/

structure Header where
  marker : Bool
  payloadType : UInt8
  seq : UInt16
  timestamp : UInt32
  ssrc : UInt32
  deriving DecidableEq

/-- A header and the payload. -/
abbrev Packet : Type := Header × List UInt8

def be16 (b1 b0 : UInt8) : UInt16 := b1.toUInt16 * 256 + b0.toUInt16

def be32 (b3 b2 b1 b0 : UInt8) : UInt32 :=
  b3.toUInt32 * 16777216 + b2.toUInt32 * 65536 + b1.toUInt32 * 256 + b0.toUInt32

def parse : List UInt8 → Option Packet
  | v :: m :: s1 :: s0 :: t3 :: t2 :: t1 :: t0 :: c3 :: c2 :: c1 :: c0 :: payload =>
    if v = 0x80 then
      some (⟨decide (0x80 ≤ m), m % 0x80, be16 s1 s0, be32 t3 t2 t1 t0, be32 c3 c2 c1 c0⟩, payload)
    else none
  | _ => none

theorem toNat_be32 (b3 b2 b1 b0 : UInt8) : (be32 b3 b2 b1 b0).toNat
    = b3.toNat * 2 ^ 24 + b2.toNat * 2 ^ 16 + b1.toNat * 2 ^ 8 + b0.toNat := by
  have h3 := b3.toNat_lt
  have h2 := b2.toNat_lt
  have h1 := b1.toNat_lt
  have h0 := b0.toNat_lt
  simp [be32]
  omega

/-- A word from its bytes. -/
theorem be32_bytes (x : UInt32) :
    be32 (x >>> 24).toUInt8 (x >>> 16).toUInt8 (x >>> 8).toUInt8 x.toUInt8 = x := by
  have hx := x.toNat_lt
  rw [← UInt32.toNat_inj, toNat_be32]
  simp [Nat.shiftRight_eq_div_pow]
  omega

/-! ## 2. The packets of a source -/

/-- What goes into one packet: the timestamp, the payload and the marker. -/
abbrev Content : Type := UInt32 × List UInt8 × Bool

def numbered (payloadType : UInt8) (ssrc : UInt32) : UInt16 → List Content → List Packet
  | _, [] => []
  | seq, (timestamp, payload, marker) :: contents =>
    (⟨marker, payloadType, seq, timestamp, ssrc⟩, payload)
      :: numbered payloadType ssrc (seq + 1) contents

section Numbered

variable (payloadType : UInt8) (ssrc : UInt32) (seq : UInt16)

theorem numbered_append (xs ys : List Content) :
    numbered payloadType ssrc seq (xs ++ ys) = numbered payloadType ssrc seq xs
      ++ numbered payloadType ssrc (seq + UInt16.ofNat xs.length) ys := by
  induction xs generalizing seq with
  | nil =>
    have hzero : seq + UInt16.ofNat 0 = seq := UInt16.add_zero seq
    rw [List.length_nil, hzero]
    rfl
  | cons x xs ih =>
    rw [List.cons_append, numbered, ih, numbered, List.cons_append, List.length_cons,
      UInt16.ofNat_add, UInt16.add_comm (UInt16.ofNat xs.length), ← UInt16.add_assoc]
    rfl

/-- A packet has the content it was made of. -/
theorem content_numbered (contents : List Content) :
    (numbered payloadType ssrc seq contents).map (fun p => (p.1.timestamp, p.2, p.1.marker))
      = contents := by
  induction contents generalizing seq with
  | nil => rfl
  | cons c contents ih => rw [numbered, List.map_cons, ih]

theorem length_numbered (contents : List Content) :
    (numbered payloadType ssrc seq contents).length = contents.length := by
  have hlength := congrArg List.length (content_numbered payloadType ssrc seq contents)
  rwa [List.length_map] at hlength

/-- **Consecutive packets have consecutive numbers.** -/
theorem isChain_numbered (contents : List Content) :
    List.IsChain (fun p q : Packet => q.1.seq = p.1.seq + 1)
      (numbered payloadType ssrc seq contents) := by
  induction contents generalizing seq with
  | nil => exact List.IsChain.nil
  | cons c contents ih =>
    cases contents with
    | nil => exact List.IsChain.singleton _
    | cons d contents => exact List.IsChain.cons_cons rfl (ih (seq + 1))

end Numbered

end TinyPilotKvm.Rfc3550
