/-
# The packetizer's round trip

A frame is a stream of NAL units, each after a start code of three or four bytes.  `us_rtpv_wrap`
sends the payloads of these units, one unit after the other, with the marker on the last payload
(`usRtpvWrap_eq`); and a receiver gets the units back from them (`rtp_round_trip`).

Two facts about units carry it: a unit has no start code in it, so the pieces of the frame are its
units; and it does not end in zero, so a zero before the next start code is the start code's.
-/
import TinyPilotKvm.Janus.RtpvPieces

namespace TinyPilotKvm

/-! ## 1. Units and frames -/

/-- A NAL unit that can stand in a stream. -/
structure NalUnit where
  header : UInt8
  body : List UInt8
  valid : Rfc6184.ValidHeader header
  noZeros : ¬ [0, 0, 0] <:+: header :: body
  noStart : ¬ AnnexB.startCode <:+: header :: body
  last_ne : (header :: body).getLast (List.cons_ne_nil header body) ≠ 0

def NalUnit.bytes (unit : NalUnit) : List UInt8 := unit.header :: unit.body

theorem NalUnit.not_infix_bytes (unit : NalUnit) : ¬ AnnexB.startCode <:+: unit.bytes :=
  unit.noStart

theorem NalUnit.getLast_bytes_ne (unit : NalUnit) (h : unit.bytes ≠ []) :
    unit.bytes.getLast h ≠ 0 :=
  unit.last_ne

/-- The bytes of a frame. -/
def streamOf (units : List (AnnexB.Prefix × NalUnit)) : List UInt8 :=
  AnnexB.stream (units.map fun u => (u.1, u.2.bytes))

/-- The payloads of a frame. -/
def framePayloads (units : List NalUnit) : List (List UInt8) :=
  units.flatMap fun u => unitPayloads u.header u.body

/-- Every payload fits into a datagram. -/
theorem length_of_mem_framePayloads {units : List NalUnit} {p : List UInt8}
    (h : p ∈ framePayloads units) : p.length ≤ usRtpPayloadSize := by
  obtain ⟨unit, -, hp⟩ := List.mem_flatMap.mp h
  exact Rfc6184.length_of_mem_packetize fuPayloadSize_pos (by decide) unit.header unit.body p hp

/-! ## 2. The frame -/

/-- A unit does not end in zero, so none is lost. -/
theorem pieceUnits_streamOf (units : List (AnnexB.Prefix × NalUnit)) :
    AnnexB.pieceUnits (AnnexB.piecesOf (units.map fun u => (u.1, u.2.bytes)))
      = units.map fun u => u.2.bytes := by
  have hunits := AnnexB.pieceUnits_piecesOf (units.map fun u => (u.1, u.2.bytes))
  rw [List.forall₂_map_left_iff] at hunits
  have heq : List.Forall₂ Eq
      (AnnexB.pieceUnits (AnnexB.piecesOf (units.map fun u => (u.1, u.2.bytes))))
      (units.map fun u => u.2.bytes) := by
    rw [List.forall₂_map_right_iff]
    refine List.Forall₂.flip (hunits.imp fun u bytes h => h.resolve_right fun hzero => ?_)
    have hne : u.2.bytes ≠ [] := List.cons_ne_nil _ _
    have hlast := congrArg List.getLast? hzero
    rw [List.getLast?_concat, List.getLast?_eq_some_getLast hne] at hlast
    exact u.2.getLast_bytes_ne hne (Option.some.inj hlast).symm
  rwa [List.forall₂_eq_eq_eq] at heq

/-- **`us_rtpv_wrap` sends the payloads of all units**, the last of them with the marker. -/
theorem usRtpvWrap_eq (rtpv : UsRtpv) (frame : UsFrame) (zeroPlayoutDelay : Bool) (now : UInt64)
    (units : List (AnnexB.Prefix × NalUnit)) (hformat : frame.format = v4l2PixFmtH264)
    (hbytes : frame.bytes = streamOf units) :
    usRtpvWrap rtpv frame zeroPlayoutDelay now
      = .ok (UsRtpv.sendAll
          { rtpv with rtp := { rtpv.rtp with zeroPlayoutDelay := zeroPlayoutDelay } }
          (now * 9 / 100).toUInt32 (markLast true (framePayloads (units.map Prod.snd)))) := by
  have hpieceUnits := pieceUnits_streamOf units
  have hpayloads : (units.map fun u => u.2.bytes).flatMap bytesPayloads
      = framePayloads (units.map Prod.snd) := by
    rw [framePayloads, List.flatMap_map, List.flatMap_map]
    rfl
  obtain ⟨before, hstream, hbefore⟩ : ∃ before,
      streamOf units
          = before ++ AnnexB.joined (AnnexB.piecesOf (units.map fun u => (u.1, u.2.bytes))) ∧
        ¬ AnnexB.startCode <:+: before := by
    cases units with
    | nil => exact ⟨[], rfl, by decide⟩
    | cons u units =>
      exact ⟨u.1.pad, AnnexB.stream_eq_joined u.1 u.2.bytes _, by cases u.1 <;> decide⟩
  have hpieces : ∀ p ∈ AnnexB.piecesOf (units.map fun u => (u.1, u.2.bytes)),
      ¬ AnnexB.startCode <:+: p :=
    AnnexB.not_infix_of_mem_piecesOf (List.forall_mem_map.mpr fun u _ => u.2.not_infix_bytes)
  have hfull : [] ∉ AnnexB.piecesOf (units.map fun u => (u.1, u.2.bytes)) :=
    AnnexB.nil_not_mem_piecesOf (List.forall_mem_map.mpr fun u _ => List.cons_ne_nil _ _)
  rw [usRtpvWrap_eq_pieces rtpv frame zeroPlayoutDelay now hformat (hbytes.trans hstream)
    (List.forall_mem_cons.mpr ⟨hbefore, hpieces⟩) (Or.inl hfull), wrapPieces_eq_ok _ _ hfull,
    hpieceUnits, hpayloads]

/-- The units of the payloads of a frame. -/
theorem depacketize_framePayloads (pending : Option (List UInt8)) (units : List NalUnit) :
    Rfc6184.depacketize pending (framePayloads units) = units.map NalUnit.bytes := by
  induction units generalizing pending with
  | nil => rfl
  | cons unit units ih =>
    rw [framePayloads, List.flatMap_cons, unitPayloads, Rfc6184.depacketize_packetize unit.valid,
      List.map_cons]
    exact congrArg _ (ih none)

/-- **The round trip.**  The receiver gets the frame's units back, byte for byte and in order,
whatever it was collecting before. -/
theorem rtp_round_trip (rtpv : UsRtpv) (frame : UsFrame) (zeroPlayoutDelay : Bool) (now : UInt64)
    (units : List (AnnexB.Prefix × NalUnit)) (hformat : frame.format = v4l2PixFmtH264)
    (hbytes : frame.bytes = streamOf units) (pending : Option (List UInt8)) :
    ∃ rtpv' datagrams, usRtpvWrap rtpv frame zeroPlayoutDelay now = .ok rtpv' ∧
      rtpv'.sent = rtpv.sent ++ datagrams ∧
      Rfc6184.depacketize pending (datagrams.map UsRtp.payloadBytes)
        = units.map fun u => u.2.bytes := by
  have hsend := usRtpvWrap_eq rtpv frame zeroPlayoutDelay now units hformat hbytes
  have hsize : ∀ payload ∈ markLast true (framePayloads (units.map Prod.snd)),
      payload.1.length ≤ usRtpPayloadSize := by
    intro payload hp
    have hmem : payload.1 ∈ framePayloads (units.map Prod.snd) := by
      rw [← map_fst_markLast true (framePayloads (units.map Prod.snd))]
      exact List.mem_map_of_mem hp
    exact length_of_mem_framePayloads hmem
  obtain ⟨datagrams, hsent, hpayloads⟩ := UsRtpv.sent_sendAll
    { rtpv with rtp := { rtpv.rtp with zeroPlayoutDelay := zeroPlayoutDelay } }
    (now * 9 / 100).toUInt32 _ hsize
  refine ⟨_, datagrams, hsend, hsent, ?_⟩
  rw [hpayloads, map_fst_markLast, depacketize_framePayloads, List.map_map]
  rfl

/-- A unit of two bytes and one of three. -/
def twoUnits : List (AnnexB.Prefix × NalUnit) :=
  [(.long, ⟨0x67, [0x42], by decide, by decide, by decide, by decide⟩),
    (.short, ⟨0x65, [0x00, 0x80], by decide, by decide, by decide, by decide⟩)]

theorem rtp_round_trip_two :
    ∃ rtpv' datagrams, usRtpvWrap (usRtpvInit 7)
        (UsFrame.ofBytes { FrameMeta.zero with format := v4l2PixFmtH264 }
          (streamOf twoUnits)) false 0
        = .ok rtpv' ∧
      rtpv'.sent = datagrams ∧
      Rfc6184.depacketize none (datagrams.map UsRtp.payloadBytes)
        = [[0x67, 0x42], [0x65, 0x00, 0x80]] :=
  rtp_round_trip (usRtpvInit 7) (UsFrame.ofBytes _ (streamOf twoUnits)) false 0 twoUnits rfl
    (List.take_length (l := streamOf twoUnits)) none

end TinyPilotKvm
