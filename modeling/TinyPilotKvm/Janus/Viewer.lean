/-
# What a viewer's decoder is handed

The packetizer sends the units of a frame in datagrams (`RtpvFraming`), the plugin hands every
datagram to every client, and a client's video lane relays it (`Client`).  Put together: as long as
no datagram is dropped on the way, the packets that a viewer has been sent are numbered without a
gap, and the units that its decoder makes of them are the first units of the frames, byte for byte
and in order; and all of them once nothing is on its way.
-/
import TinyPilotKvm.Janus.Client
import TinyPilotKvm.Janus.RtpvFraming
import TinyPilotKvm.Janus.RtpvRoundTrip

namespace TinyPilotKvm

/-! ## 1. The units of many frames -/

/-- A call of `us_rtpv_wrap` with a frame of NAL units. -/
structure NalCall where
  call : WrapCall
  nals : List (AnnexB.Prefix × NalUnit)
  units_eq : call.units = nals.map fun u => (u.1, u.2.bytes)

namespace NalCall

/-- The units as they stand in the frame. -/
def units (c : NalCall) : List (List UInt8) := c.nals.map fun u => u.2.bytes

/-- The payloads are those of the units. -/
theorem payloads_eq (c : NalCall) : c.call.payloads = framePayloads (c.nals.map Prod.snd) := by
  rw [WrapCall.payloads, WrapCall.sentUnits, c.units_eq, pieceUnits_streamOf, framePayloads,
    List.flatMap_map, List.flatMap_map]
  rfl

end NalCall

/-- **A receiver of all payloads has all units.** -/
theorem depacketize_contents (calls : List NalCall) :
    Rfc6184.depacketize none
        (((calls.map NalCall.call).flatMap WrapCall.contents).map fun content => content.2.1)
      = calls.flatMap NalCall.units := by
  have hpayloads : ((calls.map NalCall.call).flatMap WrapCall.contents).map
      (fun content => content.2.1)
        = framePayloads (calls.flatMap fun c => c.nals.map Prod.snd) := by
    induction calls with
    | nil => rfl
    | cons c calls ih =>
      have hc : c.call.contents.map (fun content => content.2.1)
          = framePayloads (c.nals.map Prod.snd) := by
        rw [WrapCall.contents, List.map_map, ← c.payloads_eq]
        exact map_fst_markLast true c.call.payloads
      rw [List.map_cons, List.flatMap_cons, List.map_append, hc, ih, List.flatMap_cons,
        framePayloads, framePayloads, framePayloads, List.flatMap_append]
  rw [hpayloads, depacketize_framePayloads, List.map_flatMap]
  refine List.flatMap_congr fun c _ => ?_
  rw [NalCall.units, List.map_map]
  rfl

/-! ## 2. A viewer -/

/-- The bytes on the wire. -/
def RelayedRtp.wire (packet : RelayedRtp) : List UInt8 := packet.buffer.take packet.length

/-- A viewer reads a packet as the datagram it was made of. -/
theorem parse_wire_relayedRtp (rtp : UsRtp) (videoOrient : UInt32) :
    Rfc3550.parse (relayedRtp rtp videoOrient).wire = rtp.packet := rfl

/-- **What a viewer gets.**  The plugin packetizes frames of NAL units and sends the datagrams to a
client, and nothing is dropped: the rings have room, and the flags are found set whenever they are
looked at.  The packets relayed to the peer are then numbered one after another; what a decoder
makes of them is a beginning of the frames' units; and it is all of them if nothing is on its way.
-/
theorem viewer_gets_units {size : Bool → Nat} {h : ∀ video, 0 < size video} (ssrc : UInt32)
    (calls : List NalCall) {rtpv : UsRtpv} {client : SendingClient}
    (hwrap : usRtpvWrapAll (usRtpvInit ssrc) (calls.map NalCall.call) = .ok rtpv)
    (hr : (sendingSystem size h).ReachVia DropsNothing client)
    (hcalled : (client.lane true).called = rtpv.sent) :
    ∃ packets : List Rfc3550.Packet,
      (client.lane true).relayed.map (fun r => Rfc3550.parse (relayedRtp r.1 r.2).wire)
          = packets.map some ∧
        List.IsChain (fun p q => q.1.seq = p.1.seq + 1) packets ∧
        Rfc6184.depacketize none (packets.map Prod.snd) <+: calls.flatMap NalCall.units ∧
        ((client.lane true).inFlight = [] →
          Rfc6184.depacketize none (packets.map Prod.snd) = calls.flatMap NalCall.units) := by
  obtain ⟨rtpv', datagrams, hrun, hsent, -, hpackets⟩ :=
    packets_usRtpvWrapAll (usRtpvInit ssrc) (calls.map NalCall.call)
  obtain rfl := Except.ok.inj (hrun.symm.trans hwrap)
  have hall := accepted_eq_called hr true
  have hdatagrams : rtpv'.sent = datagrams := by
    rw [hsent]
    rfl
  rw [hcalled, hdatagrams] at hall
  generalize hnumbered : Rfc3550.numbered ((usRtpvInit ssrc).rtp.payload.toUInt8 % 0x80)
    (usRtpvInit ssrc).rtp.ssrc (usRtpvInit ssrc).rtp.seq
    ((calls.map NalCall.call).flatMap WrapCall.contents) = numbered at hpackets
  have hchain : List.IsChain (fun p q : Rfc3550.Packet => q.1.seq = p.1.seq + 1) numbered :=
    hnumbered ▸ Rfc3550.isChain_numbered _ _ _ _
  have hunits : Rfc6184.depacketize none (numbered.map Prod.snd)
      = calls.flatMap NalCall.units := by
    rw [← depacketize_contents, ← Rfc3550.content_numbered _ _ _
      ((calls.map NalCall.call).flatMap WrapCall.contents), hnumbered, List.map_map]
    rfl
  -- the relayed datagrams are the first ones
  have hrelayed : (client.lane true).relayed.map Prod.fst
      = datagrams.take (client.lane true).relayed.length := by
    rw [← hall, List.take_left' (List.length_map _)]
  refine ⟨numbered.take (client.lane true).relayed.length, ?_, ?_, ?_, fun hempty => ?_⟩
  · rw [List.map_take, ← hpackets, ← List.map_take, ← hrelayed, List.map_map]
    exact List.map_congr_left fun r _ => parse_wire_relayedRtp r.1 r.2
  · exact hchain.prefix (List.take_prefix _ _)
  · rw [← hunits]
    exact Rfc6184.depacketize_prefix none ((List.take_prefix _ _).map _)
  · have hlength : numbered.length = (client.lane true).relayed.length := by
      rw [hempty, List.append_nil] at hall
      have hlen := congrArg List.length hpackets
      rw [List.length_map, List.length_map] at hlen
      rw [← hlen, ← hall, List.length_map]
    rw [← hlength, List.take_length, hunits]

/-- A frame of one unit. -/
theorem exists_oneNalCall : ∃ call : NalCall, call.units = [[0x65, 0x80]] ∧
    (match usRtpvWrapAll (usRtpvInit 7) [call.call] with
      | .ok rtpv => decide (rtpv.sent.length = 1) && rtpv.sent.all UsRtp.video
      | .error _ => false) = true := by
  refine ⟨⟨⟨UsFrame.ofBytes { FrameMeta.zero with format := v4l2PixFmtH264 }
    [0, 0, 0, 1, 0x65, 0x80], false, 0, [(.long, [0x65, 0x80])], rfl, rfl, by decide, by decide,
    by decide⟩, [(.long, ⟨0x65, [0x80], by decide, by decide, by decide, by decide⟩)], rfl⟩,
    rfl, ?_⟩
  decide +kernel

theorem viewer_gets_units_one : ∃ client : SendingClient,
    (client.lane true).relayed.length = 1 ∧ ∃ packets : List Rfc3550.Packet,
      (client.lane true).relayed.map (fun r => Rfc3550.parse (relayedRtp r.1 r.2).wire)
          = packets.map some ∧
        Rfc6184.depacketize none (packets.map Prod.snd) = [[0x65, 0x80]] := by
  obtain ⟨call, hunits, hone⟩ := exists_oneNalCall
  split at hone
  · rename_i rtpv hwrap
    simp only [Bool.and_eq_true, decide_eq_true_eq, List.all_eq_true] at hone
    obtain ⟨rtp, hsent⟩ := List.length_eq_one_iff.mp hone.1
    obtain ⟨client, hr, hcalled, hrelayed, hempty⟩ :=
      exists_relayed rtp (hone.2 rtp (hsent ▸ List.mem_singleton_self rtp))
    obtain ⟨packets, hpackets, -, -, hall⟩ :=
      viewer_gets_units 7 [call] hwrap hr (hcalled.trans hsent.symm)
    refine ⟨client, by rw [hrelayed]; rfl, packets, hpackets, (hall hempty).trans ?_⟩
    rw [List.flatMap_singleton, hunits]
  · exact absurd hone (by simp)

end TinyPilotKvm
