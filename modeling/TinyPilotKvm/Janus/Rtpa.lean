/-
# The audio packetizer (`janus/src/rtpa.c`)

`us_rtpa_wrap` sends what the Opus encoder has made of 20 ms of sound in one datagram, if it fits.
`UsRtpa.Carries` says what has been sent so far: the packets are numbered from 0 on, and have these
contents.
-/
import TinyPilotKvm.Janus.RtpPackets

namespace TinyPilotKvm

/-! ## 1. The code -/

/-- `us_rtpa_s`, with the datagrams that its callback has been called with. -/
structure UsRtpa where
  rtp : UsRtp
  sent : List UsRtp

/-- `US_RTP_OPUS_PAYLOAD`, as a `uint`. -/
def usRtpOpusPayloadType : UInt32 := 111

/-- `us_rtpa_init`; `ssrc` is a random number. -/
def usRtpaInit (ssrc : UInt32) : UsRtpa := ⟨UsRtp.init.assign usRtpOpusPayloadType false ssrc, []⟩

/-- `us_rtpa_wrap(rtpa, data, data.length, pts)`; `none` is a write outside the datagram. -/
def usRtpaWrap (rtpa : UsRtpa) (data : List UInt8) (pts : UInt32) : Option UsRtpa :=
  if data.length + usRtpHeaderSize ≤ usRtpDatagramSize then
    ((usRtpWriteHeader rtpa.rtp pts false).memcpy usRtpHeaderSize data).map fun rtp =>
      let rtp := rtp.setUsed (data.length + usRtpHeaderSize)
      { rtp := rtp, sent := rtpa.sent ++ [rtp] }
  else some rtpa

/-! ## 2. What has been sent -/

namespace UsRtpa

/-- The datagrams sent are the packets with the contents `contents`, numbered from 0 on. -/
structure Carries (ssrc : UInt32) (rtpa : UsRtpa) (contents : List Rfc3550.Content) : Prop where
  payload : rtpa.rtp.payload = usRtpOpusPayloadType
  video : rtpa.rtp.video = false
  ssrc_eq : rtpa.rtp.ssrc = ssrc
  seq : rtpa.rtp.seq = UInt16.ofNat contents.length
  packets : rtpa.sent.map UsRtp.packet = (Rfc3550.numbered 111 ssrc 0 contents).map some
  audio : ∀ rtp ∈ rtpa.sent, rtp.video = false ∧ rtp.used ≤ usRtpDatagramSize

theorem carries_init (ssrc : UInt32) : Carries ssrc (usRtpaInit ssrc) [] where
  payload := rfl
  video := rfl
  ssrc_eq := rfl
  seq := rfl
  packets := rfl
  audio := List.forall_mem_nil _

/-- **A send.**  Data that fit are the next packet. -/
theorem Carries.wrap {ssrc : UInt32} {rtpa : UsRtpa} {contents : List Rfc3550.Content}
    (h : Carries ssrc rtpa contents) {data : List UInt8} (hdata : data.length ≤ usRtpPayloadSize)
    (pts : UInt32) :
    ∃ rtpa', usRtpaWrap rtpa data pts = some rtpa' ∧
      rtpa'.sent.length = rtpa.sent.length + 1 ∧
      Carries ssrc rtpa' (contents ++ [(pts, data, false)]) := by
  -- the datagram is the one that a packetizer for video makes of one payload
  let rtpv : UsRtpv := ⟨rtpa.rtp, rtpa.sent⟩
  obtain ⟨rtp, hrtp⟩ := UsRtpv.memcpy_of_payloadSize (usRtpWriteHeader rtpa.rtp pts false) hdata
  have hsend : rtpv.send pts (data, false)
      = rtpv.callback (rtp.setUsed (data.length + usRtpHeaderSize)) := UsRtpv.send_of_memcpy hrtp
  have hpayload : ((data, false) : List UInt8 × Bool).1.length ≤ usRtpPayloadSize := hdata
  have hpacket := UsRtpv.packet_send rtpv pts hpayload
  obtain ⟨-, hused, hseq, hpayload, hssrc⟩ := UsRtpv.send_spec rtpv pts hpayload
  have hvideo : rtp.video = rtpa.rtp.video := by
    obtain ⟨datagram, _, -, rfl⟩ := UsRtp.memcpy_eq_some_iff.mp hrtp
    rfl
  have hfits : data.length + usRtpHeaderSize ≤ usRtpDatagramSize := by
    unfold usRtpPayloadSize usRtpDatagramSize usRtpHeaderSize at *
    omega
  rw [hsend] at hpacket hused hseq hpayload hssrc
  refine ⟨_, by rw [usRtpaWrap, if_pos hfits, hrtp]; rfl, ?_, ?_⟩
  · exact List.length_append
  refine ⟨hpayload.trans h.payload, hvideo.trans h.video, hssrc.trans h.ssrc_eq, ?_, ?_, ?_⟩
  · show (rtpv.callback (rtp.setUsed _)).rtp.seq = _
    rw [hseq, List.length_append, UInt16.ofNat_add]
    exact congrArg (· + 1) h.seq
  · have htype : rtpa.rtp.payload.toUInt8 % 0x80 = 111 := by
      rw [h.payload]
      rfl
    have hcontent : (rtp.setUsed (data.length + usRtpHeaderSize)).packet
        = some (⟨false, 111, UInt16.ofNat contents.length, pts, ssrc⟩, data) := by
      rw [← h.seq, ← h.ssrc_eq, ← htype]
      exact hpacket
    have hnumber : 0 + UInt16.ofNat contents.length = UInt16.ofNat contents.length :=
      UInt16.zero_add _
    rw [List.map_append, h.packets, List.map_singleton, hcontent, Rfc3550.numbered_append,
      List.map_append, hnumber]
    rfl
  · have hlast : rtp.video = false := hvideo.trans h.video
    exact List.forall_mem_append.mpr ⟨h.audio, List.forall_mem_singleton.mpr ⟨hlast, hfits⟩⟩

end UsRtpa

end TinyPilotKvm
