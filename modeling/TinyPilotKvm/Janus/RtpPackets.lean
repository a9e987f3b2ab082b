/-
# Datagrams as packets

A receiver reads a datagram as a packet of RFC 3550 (`UsRtp.packet`).  What `us_rtp_write_header`
has written comes out again: the marker, the sequence number and the timestamp it was called with
(`parse_rtpHeader`). So the datagrams of one send after another are the packets of one source,
numbered without a gap (`packets_sendAll`).
-/
import TinyPilotKvm.Formats.Rfc3550
import TinyPilotKvm.Janus.RtpvSending

namespace TinyPilotKvm

/-! ## 1. The header -/

theorem or_eq_add {a b : Nat} (i : Nat) (h : b < 2 ^ i) : a * 2 ^ i ||| b = a * 2 ^ i + b := by
  rw [Nat.mul_comm, Nat.two_pow_add_eq_or_of_lt h]

/-- The fields of the first word do not overlap. -/
theorem toNat_rtpWord0 (payload : UInt32) (seq : UInt16) (marked : Bool) :
    (rtpWord0 payload seq marked).toNat
      = (2 ^ 8 + if marked then 1 else 0) * 2 ^ 23
        + (payload.toNat % 2 ^ 7 * 2 ^ 16 + seq.toNat) := by
  have hseq := seq.toNat_lt
  have hpayload : payload.toNat % 2 ^ 7 < 2 ^ 7 := Nat.mod_lt _ (by decide)
  have hand : payload.toNat &&& 127 = payload.toNat % 2 ^ 7 := Nat.and_two_pow_sub_one_eq_mod _ 7
  have hshift : (payload.toNat % 128) <<< 16 % 4294967296 = payload.toNat % 128 * 65536 := by
    rw [Nat.shiftLeft_eq]
    omega
  rw [← or_eq_add 23 (by omega), ← or_eq_add 16 hseq, ← Nat.or_assoc]
  cases marked with
  | false => simp [rtpWord0, hand, hshift]
  | true => simp [rtpWord0, hand, hshift]

/-- **A receiver reads what was written**, whatever the payload behind. -/
theorem parse_rtpHeader (payload : UInt32) (seq : UInt16) (pts ssrc : UInt32) (marked : Bool)
    (bytes : List UInt8) :
    Rfc3550.parse (rtpHeader payload seq pts ssrc marked ++ bytes)
      = some (⟨marked, payload.toUInt8 % 0x80, seq, pts, ssrc⟩, bytes) := by
  have hword := toNat_rtpWord0 payload seq marked
  have hseq := seq.toNat_lt
  have hpayload : payload.toNat % 2 ^ 7 < 2 ^ 7 := Nat.mod_lt _ (by decide)
  generalize hw : rtpWord0 payload seq marked = w at hword
  have hversion : (w >>> 24).toUInt8 = 0x80 := by
    rw [← UInt8.toNat_inj]
    simp [Nat.shiftRight_eq_div_pow]
    cases marked <;> simp at hword <;> omega
  have hmark : decide ((0x80 : UInt8) ≤ (w >>> 16).toUInt8) = marked := by
    rw [← Bool.coe_iff_coe, decide_eq_true_iff, UInt8.le_iff_toNat_le]
    simp [Nat.shiftRight_eq_div_pow]
    cases marked <;> simp at hword ⊢ <;> omega
  have htype : (w >>> 16).toUInt8 % 0x80 = payload.toUInt8 % 0x80 := by
    rw [← UInt8.toNat_inj]
    simp [Nat.shiftRight_eq_div_pow]
    cases marked <;> simp at hword <;> omega
  have hnumber : Rfc3550.be16 (w >>> 8).toUInt8 w.toUInt8 = seq := by
    rw [← UInt16.toNat_inj]
    simp [Rfc3550.be16, Nat.shiftRight_eq_div_pow]
    cases marked <;> simp at hword <;> omega
  have hpts := Rfc3550.be32_bytes pts
  have hssrc := Rfc3550.be32_bytes ssrc
  unfold rtpHeader
  rw [hw]
  simp only [beU32, List.cons_append, List.nil_append, Rfc3550.parse, hversion, hmark, htype,
    hnumber, hpts, hssrc, if_true]

/-! ## 2. Packets -/

/-- The datagram, as a receiver reads it. -/
def UsRtp.packet (rtp : UsRtp) : Option Rfc3550.Packet := Rfc3550.parse (rtp.datagram.take rtp.used)

namespace UsRtpv

/-- **What a send does**: the datagram is the header and the payload, and the next number is one
more. -/
theorem send_spec (rtpv : UsRtpv) (pts : UInt32) {payload : List UInt8 × Bool}
    (h : payload.1.length ≤ usRtpPayloadSize) :
    (rtpv.send pts payload).rtp.datagram.take (rtpv.send pts payload).rtp.used
        = rtpHeader rtpv.rtp.payload rtpv.rtp.seq pts rtpv.rtp.ssrc payload.2 ++ payload.1 ∧
      (rtpv.send pts payload).rtp.used = payload.1.length + usRtpHeaderSize ∧
      (rtpv.send pts payload).rtp.seq = rtpv.rtp.seq + 1 ∧
      (rtpv.send pts payload).rtp.payload = rtpv.rtp.payload ∧
      (rtpv.send pts payload).rtp.ssrc = rtpv.rtp.ssrc := by
  obtain ⟨rtp', hrtp⟩ := memcpy_of_payloadSize (usRtpWriteHeader rtpv.rtp pts payload.2) h
  have hsend := send_of_memcpy hrtp
  obtain ⟨datagram, _, hs, rfl⟩ := UsRtp.memcpy_eq_some_iff.mp hrtp
  obtain ⟨-, rfl⟩ := storeAll_eq_some_iff.mp hs
  have hlen : (rtpHeader rtpv.rtp.payload rtpv.rtp.seq pts rtpv.rtp.ssrc payload.2).length
      = usRtpHeaderSize := rfl
  have hhead : (usRtpWriteHeader rtpv.rtp pts payload.2).datagram.take usRtpHeaderSize
      = rtpHeader rtpv.rtp.payload rtpv.rtp.seq pts rtpv.rtp.ssrc payload.2 := List.take_left' hlen
  rw [hsend]
  refine ⟨?_, rfl, rfl, rfl, rfl⟩
  show (List.take _ _ ++ payload.1 ++ List.drop _ _).take (payload.1.length + usRtpHeaderSize) = _
  rw [hhead, List.take_left']
  rw [List.length_append, hlen, Nat.add_comm]

theorem packet_send (rtpv : UsRtpv) (pts : UInt32) {payload : List UInt8 × Bool}
    (h : payload.1.length ≤ usRtpPayloadSize) :
    (rtpv.send pts payload).rtp.packet
      = some (⟨payload.2, rtpv.rtp.payload.toUInt8 % 0x80, rtpv.rtp.seq, pts, rtpv.rtp.ssrc⟩,
          payload.1) := by
  rw [UsRtp.packet, (send_spec rtpv pts h).1, parse_rtpHeader]

/-- **The packets of one send after another.** -/
theorem packets_sendAll (rtpv : UsRtpv) (pts : UInt32) (payloads : List (List UInt8 × Bool))
    (h : ∀ payload ∈ payloads, payload.1.length ≤ usRtpPayloadSize) :
    ∃ datagrams, (rtpv.sendAll pts payloads).sent = rtpv.sent ++ datagrams ∧
      (∀ d ∈ datagrams, d.used ≤ usRtpDatagramSize) ∧
      datagrams.map UsRtp.packet = (Rfc3550.numbered (rtpv.rtp.payload.toUInt8 % 0x80) rtpv.rtp.ssrc
        rtpv.rtp.seq (payloads.map fun payload => (pts, payload))).map some ∧
      (rtpv.sendAll pts payloads).rtp.seq = rtpv.rtp.seq + UInt16.ofNat payloads.length ∧
      (rtpv.sendAll pts payloads).rtp.payload = rtpv.rtp.payload ∧
      (rtpv.sendAll pts payloads).rtp.ssrc = rtpv.rtp.ssrc := by
  induction payloads generalizing rtpv with
  | nil =>
    exact ⟨[], (List.append_nil _).symm, List.forall_mem_nil _, rfl, (UInt16.add_zero _).symm,
      rfl, rfl⟩
  | cons payload payloads ih =>
    obtain ⟨hpayload, hpayloads⟩ := List.forall_mem_cons.mp h
    obtain ⟨-, hused, hseq, htype, hssrc⟩ := send_spec rtpv pts hpayload
    obtain ⟨datagrams, hsent, hsize, hpackets, hseq', htype', hssrc'⟩ :=
      ih (rtpv.send pts payload) hpayloads
    rw [hseq, htype, hssrc] at hpackets
    refine ⟨(rtpv.send pts payload).rtp :: datagrams, ?_, ?_, ?_, ?_, htype'.trans htype,
      hssrc'.trans hssrc⟩
    · rw [sendAll_cons, hsent]
      show rtpv.sent ++ [_] ++ datagrams = _
      rw [List.append_assoc]
      rfl
    · refine List.forall_mem_cons.mpr ⟨?_, hsize⟩
      rw [hused]
      unfold usRtpPayloadSize usRtpDatagramSize usRtpHeaderSize at *
      omega
    · rw [List.map_cons, hpackets, packet_send rtpv pts hpayload]
      rfl
    · rw [sendAll_cons, hseq', hseq, List.length_cons, UInt16.ofNat_add,
        UInt16.add_comm (UInt16.ofNat payloads.length), ← UInt16.add_assoc]
      rfl

end UsRtpv

end TinyPilotKvm
