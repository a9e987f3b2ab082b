/-
# The packetizer on malformed frames

`us_rtpv_wrap` takes the bytes between two start codes for a unit, however few they are.  It is
safe exactly on the frames whose start codes keep apart (`wrapsSafely_iff`).  On others

* a start code at the end of the frame has the header of a unit read behind the frame;
* a start code right behind another one has the last byte of an empty unit asked for;
* with one zero between them, that zero goes to the second start code, and a payload of no bytes
  is sent.
-/
import TinyPilotKvm.Janus.RtpvPieces

namespace TinyPilotKvm

/-! ## 1. Safety -/

/-- The frame in a memory of no more than its bytes, so that every read behind them is a fault. -/
def UsFrame.trimmed (frame : UsFrame) : UsFrame :=
  { frame with
    data := frame.bytes
    used_le := by rw [UsFrame.bytes, List.length_take, Nat.min_eq_left frame.used_le] }

theorem UsFrame.bytes_trimmed (frame : UsFrame) : frame.trimmed.bytes = frame.bytes :=
  List.take_of_length_le (List.length_take_le _ _)

/-- `us_rtpv_wrap` returns without a fault, also if there is no memory behind the frame's bytes,
and has then sent no payload without bytes. -/
def WrapsSafely (rtpv : UsRtpv) (frame : UsFrame) (zeroPlayoutDelay : Bool) (now : UInt64) : Prop :=
  ∃ rtpv' datagrams, usRtpvWrap rtpv frame zeroPlayoutDelay now = .ok rtpv' ∧
    usRtpvWrap rtpv frame.trimmed zeroPlayoutDelay now = .ok rtpv' ∧
    rtpv'.sent = rtpv.sent ++ datagrams ∧ ∀ d ∈ datagrams, d.payloadBytes ≠ []

/-! ## 2. Empty payloads -/

theorem nil_not_mem_unitPayloads (header : UInt8) (body : List UInt8) :
    [] ∉ unitPayloads header body := fun h =>
  Rfc6184.ne_nil_of_mem_packetize fuPayloadSize_pos header body _ h rfl

theorem nil_mem_bytesPayloads_iff {bytes : List UInt8} : [] ∈ bytesPayloads bytes ↔ bytes = [] := by
  cases bytes with
  | nil => exact iff_of_true (List.mem_singleton_self _) rfl
  | cons header body =>
    exact iff_of_false (nil_not_mem_unitPayloads header body) (List.cons_ne_nil _ _)

/-- Only a unit of no bytes has a payload of none. -/
theorem nil_mem_flatMap_iff {units : List (List UInt8)} :
    [] ∈ units.flatMap bytesPayloads ↔ [] ∈ units := by
  rw [List.mem_flatMap]
  constructor
  · rintro ⟨unit, hunit, hnil⟩
    exact nil_mem_bytesPayloads_iff.mp hnil ▸ hunit
  · exact fun h => ⟨[], h, List.mem_singleton_self _⟩

theorem nil_mem_pieceUnits {pieces : List (List UInt8)} (h : [] ∈ pieces) :
    [] ∈ AnnexB.pieceUnits pieces := by
  induction pieces with
  | nil => exact h
  | cons piece pieces ih =>
    cases pieces with
    | nil => exact h
    | cons next pieces =>
      rw [AnnexB.pieceUnits, List.mem_cons]
      rcases List.mem_cons.mp h with rfl | h
      · exact Or.inl rfl
      · exact Or.inr (ih h)

/-- **What is sent for the pieces of a frame**, if the loop does not fault: the payloads of its
units. -/
theorem sent_of_wrapPieces {pts : UInt32} {rtpv rtpv' : UsRtpv} {pieces : List (List UInt8)}
    (h : wrapPieces pts rtpv pieces = .ok rtpv') :
    ∃ datagrams, rtpv'.sent = rtpv.sent ++ datagrams ∧
      datagrams.map UsRtp.payloadBytes = (AnnexB.pieceUnits pieces).flatMap bytesPayloads := by
  have hfull : [] ∉ pieces := fun h0 => by
    obtain ⟨fault, hfault⟩ := wrapPieces_eq_error pts rtpv h0
    rw [hfault] at h
    exact absurd h (by simp)
  rw [wrapPieces_eq_ok pts rtpv hfull] at h
  obtain ⟨datagrams, hsent, hpayloads⟩ := UsRtpv.sent_sendAll rtpv pts
    (markLast true ((AnnexB.pieceUnits pieces).flatMap bytesPayloads)) fun p hp => by
      have hmem := List.mem_map_of_mem (f := Prod.fst) hp
      rw [map_fst_markLast] at hmem
      obtain ⟨unit, -, hunit⟩ := List.mem_flatMap.mp hmem
      exact length_of_mem_bytesPayloads hunit
  refine ⟨datagrams, ?_, hpayloads.trans (map_fst_markLast _ _)⟩
  rw [← Except.ok.inj h, hsent]

/-! ## 3. The condition -/

/-- **`us_rtpv_wrap` is safe exactly on the frames whose start codes keep apart**: none right behind
another one, or behind one zero more, and none at the end. -/
theorem wrapsSafely_iff (rtpv : UsRtpv) (frame : UsFrame) (zeroPlayoutDelay : Bool) (now : UInt64)
    (hformat : frame.format = v4l2PixFmtH264) :
    WrapsSafely rtpv frame zeroPlayoutDelay now ↔ AnnexB.Filled frame.bytes := by
  obtain ⟨before, pieces, hbytes, hfree⟩ := AnnexB.exists_joined frame.bytes
  have htrimmed := usRtpvWrap_eq_pieces rtpv frame.trimmed zeroPlayoutDelay now hformat
    (frame.bytes_trimmed.trans hbytes) hfree (Or.inr frame.bytes_trimmed.symm)
  rw [hbytes, AnnexB.filled_iff hfree]
  constructor
  · rintro ⟨rtpv', datagrams, -, hwrap, hsent, hpayloads⟩ hnil
    obtain ⟨datagrams', hsent', hpayloads'⟩ := sent_of_wrapPieces (htrimmed.symm.trans hwrap)
    obtain rfl := List.append_cancel_left (hsent.symm.trans hsent')
    have hmem := nil_mem_flatMap_iff.mpr hnil
    rw [← hpayloads', List.mem_map] at hmem
    obtain ⟨d, hd, hempty⟩ := hmem
    exact hpayloads d hd hempty
  · intro hunits
    have hfull : [] ∉ pieces := fun h0 => hunits (nil_mem_pieceUnits h0)
    have hframe := usRtpvWrap_eq_pieces rtpv frame zeroPlayoutDelay now hformat hbytes hfree
      (Or.inl hfull)
    have hwrap := wrapPieces_eq_ok (now * 9 / 100).toUInt32
      { rtpv with rtp := { rtpv.rtp with zeroPlayoutDelay := zeroPlayoutDelay } } hfull
    obtain ⟨datagrams, hsent, hpayloads⟩ := sent_of_wrapPieces hwrap
    refine ⟨_, datagrams, hframe.trans hwrap, htrimmed.trans hwrap, hsent, fun d hd hempty => ?_⟩
    have hmem := List.mem_map_of_mem (f := UsRtp.payloadBytes) hd
    rw [hpayloads, hempty, nil_mem_flatMap_iff] at hmem
    exact hunits hmem

/-- An H.264 frame of these bytes. -/
def h264Frame (bytes : List UInt8) : UsFrame :=
  UsFrame.ofBytes { FrameMeta.zero with format := v4l2PixFmtH264 } bytes

/-- Two units that keep apart, in bytes that do not begin with a start code. -/
theorem wrapsSafely_iff_two :
    WrapsSafely (usRtpvInit 7) (h264Frame [0xFF, 0, 0, 1, 0x67, 0x42, 0, 0, 0, 1, 0x65]) false 0 :=
  (wrapsSafely_iff (usRtpvInit 7) (h264Frame [0xFF, 0, 0, 1, 0x67, 0x42, 0, 0, 0, 1, 0x65]) false 0
    rfl).mpr (by decide)

/-- **A start code at the end** has a byte behind the frame read. -/
theorem start_code_at_the_end_reads_behind :
    usRtpvWrap (usRtpvInit 7) (h264Frame [0, 0, 1, 0x65, 0x88, 0, 0, 1]) false 0
      = .error .readOutside ∧
      ¬ WrapsSafely (usRtpvInit 7) (h264Frame [0, 0, 1, 0x65, 0x88, 0, 0, 1]) false 0 := by
  have hbytes : (h264Frame [0, 0, 1, 0x65, 0x88, 0, 0, 1]).bytes
      = [] ++ AnnexB.joined [[0x65, 0x88], []] := rfl
  have hwrap : usRtpvWrap (usRtpvInit 7) (h264Frame [0, 0, 1, 0x65, 0x88, 0, 0, 1]) false 0
      = .error .readOutside :=
    usRtpvWrap_eq_pieces (usRtpvInit 7) _ false 0 rfl hbytes (by decide) (Or.inr rfl)
  refine ⟨hwrap, ?_⟩
  rintro ⟨rtpv', datagrams, hok, -⟩
  rw [hwrap] at hok
  exact absurd hok (by simp)

end TinyPilotKvm
