/-
# RTP framing over runs of frames

The packetizer goes from frame to frame with one datagram buffer.  For frames that are streams of
units, of any sizes and with any bytes but start codes in them, `rtp_framing` says what a receiver
sees of a whole run:

* packets of at most 1200 bytes with consecutive sequence numbers, across the frames too;
* for each frame one timestamp, and the marker on its last packet alone;
* for each unit one packet, or fragments of which the first has the start bit and the last the end
  bit.
-/
import TinyPilotKvm.Janus.RtpPackets
import TinyPilotKvm.Janus.RtpvPieces

namespace TinyPilotKvm

/-! ## 1. Runs -/

/-- A call of `us_rtpv_wrap` with a frame of units.  A unit here is no more than bytes without a
start code. -/
structure WrapCall where
  frame : UsFrame
  zeroPlayoutDelay : Bool
  now : UInt64
  units : List (AnnexB.Prefix × List UInt8)
  format : frame.format = v4l2PixFmtH264
  bytes : frame.bytes = AnnexB.stream units
  units_ne : units ≠ []
  unit_ne : ∀ u ∈ units, u.2 ≠ []
  noStart : ∀ u ∈ units, ¬ AnnexB.startCode <:+: u.2

/-- Two units, the first with a zero at its end. -/
example : ∃ call : WrapCall, call.units = [(.long, [0x67, 0x42, 0]), (.short, [0x65])] :=
  ⟨⟨UsFrame.ofBytes { FrameMeta.zero with format := v4l2PixFmtH264 }
    [0, 0, 0, 1, 0x67, 0x42, 0, 0, 0, 1, 0x65], false, 0, _, rfl, rfl, by decide, by decide,
    by decide⟩, rfl⟩

/-- One frame after another. -/
def usRtpvWrapAll (rtpv : UsRtpv) : List WrapCall → Except RtpvFault UsRtpv
  | [] => .ok rtpv
  | call :: calls => do
    let rtpv ← usRtpvWrap rtpv call.frame call.zeroPlayoutDelay call.now
    usRtpvWrapAll rtpv calls

namespace WrapCall

/-- The frame's timestamp. -/
def pts (call : WrapCall) : UInt32 := (call.now * 9 / 100).toUInt32

/-- The units as they are sent. -/
def sentUnits (call : WrapCall) : List (List UInt8) :=
  AnnexB.pieceUnits (AnnexB.piecesOf call.units)

/-- The payloads of a frame. -/
def payloads (call : WrapCall) : List (List UInt8) := call.sentUnits.flatMap bytesPayloads

/-- What goes into the packets of a frame. -/
def contents (call : WrapCall) : List Rfc3550.Content :=
  (markLast true call.payloads).map fun payload => (call.pts, payload)

theorem forall₂_sentUnits (call : WrapCall) :
    List.Forall₂ (fun u bytes => bytes = u.2 ∨ bytes ++ [0] = u.2) call.units call.sentUnits :=
  AnnexB.pieceUnits_piecesOf call.units

theorem payloads_ne_nil (call : WrapCall) : call.payloads ≠ [] := by
  obtain ⟨bytes, hbytes⟩ : ∃ bytes, bytes ∈ call.sentUnits := by
    refine List.exists_mem_of_ne_nil _ fun h0 => call.units_ne ?_
    have hunits := call.forall₂_sentUnits
    rw [h0] at hunits
    exact List.forall₂_nil_right_iff.mp hunits
  obtain ⟨payload, hpayload⟩ := List.exists_mem_of_ne_nil _ (bytesPayloads_ne_nil bytes)
  exact List.ne_nil_of_mem (List.mem_flatMap.mpr ⟨bytes, hbytes, hpayload⟩)

/-- **One frame is sent** as the payloads of its units. -/
theorem usRtpvWrap_eq (call : WrapCall) (rtpv : UsRtpv) :
    usRtpvWrap rtpv call.frame call.zeroPlayoutDelay call.now
      = .ok (UsRtpv.sendAll
          { rtpv with rtp := { rtpv.rtp with zeroPlayoutDelay := call.zeroPlayoutDelay } }
          call.pts (markLast true call.payloads)) := by
  obtain ⟨p, unit, units, hunits⟩ : ∃ p unit units, call.units = (p, unit) :: units := by
    obtain ⟨u, units, hunits⟩ := List.exists_cons_of_ne_nil call.units_ne
    exact ⟨u.1, u.2, units, hunits⟩
  have hpad : ¬ AnnexB.startCode <:+: p.pad := by
    cases p <;> decide
  have hpieces := AnnexB.not_infix_of_mem_piecesOf call.noStart
  have hfull := AnnexB.nil_not_mem_piecesOf call.unit_ne
  have hbytes : call.frame.bytes = p.pad ++ AnnexB.joined (AnnexB.piecesOf call.units) := by
    rw [call.bytes, hunits]
    exact AnnexB.stream_eq_joined p unit units
  rw [usRtpvWrap_eq_pieces rtpv call.frame call.zeroPlayoutDelay call.now call.format hbytes
    (List.forall_mem_cons.mpr ⟨hpad, hpieces⟩) (Or.inl hfull), wrapPieces_eq_ok _ _ hfull]
  rfl

theorem length_of_mem_markLast (call : WrapCall) :
    ∀ payload ∈ markLast true call.payloads, payload.1.length ≤ usRtpPayloadSize := by
  intro payload hp
  have hmem := List.mem_map_of_mem (f := Prod.fst) hp
  rw [map_fst_markLast] at hmem
  obtain ⟨unit, -, hunit⟩ := List.mem_flatMap.mp hmem
  exact length_of_mem_bytesPayloads hunit

end WrapCall

/-- **The packets of a run** are numbered one after another. -/
theorem packets_usRtpvWrapAll (rtpv : UsRtpv) (calls : List WrapCall) :
    ∃ rtpv' datagrams, usRtpvWrapAll rtpv calls = .ok rtpv' ∧ rtpv'.sent = rtpv.sent ++ datagrams ∧
      (∀ d ∈ datagrams, d.used ≤ usRtpDatagramSize) ∧
      datagrams.map UsRtp.packet = (Rfc3550.numbered (rtpv.rtp.payload.toUInt8 % 0x80) rtpv.rtp.ssrc
        rtpv.rtp.seq (calls.flatMap WrapCall.contents)).map some := by
  induction calls generalizing rtpv with
  | nil => exact ⟨rtpv, [], rfl, (List.append_nil _).symm, List.forall_mem_nil _, rfl⟩
  | cons call calls ih =>
    obtain ⟨datagrams, hsent, hsize, hpackets, hseq, htype, hssrc⟩ := UsRtpv.packets_sendAll
      { rtpv with rtp := { rtpv.rtp with zeroPlayoutDelay := call.zeroPlayoutDelay } } call.pts
      (markLast true call.payloads) call.length_of_mem_markLast
    obtain ⟨rtpv', datagrams', hrun, hsent', hsize', hpackets'⟩ := ih
      (UsRtpv.sendAll
        { rtpv with rtp := { rtpv.rtp with zeroPlayoutDelay := call.zeroPlayoutDelay } }
        call.pts (markLast true call.payloads))
    rw [hseq, htype, hssrc] at hpackets'
    refine ⟨rtpv', datagrams ++ datagrams', ?_, ?_, ?_, ?_⟩
    · simp only [usRtpvWrapAll, bind, Except.bind, call.usRtpvWrap_eq rtpv]
      exact hrun
    · rw [hsent', hsent, List.append_assoc]
    · exact List.forall_mem_append.mpr ⟨hsize, hsize'⟩
    · rw [List.map_append, hpackets, hpackets', List.flatMap_cons, Rfc3550.numbered_append,
        List.map_append]
      unfold WrapCall.contents
      rw [List.length_map]

/-! ## 2. Framing -/

/-- A unit in the packets of a receiver: one, or fragments.  A zero at its end may have gone to
the next start code. -/
def UnitFramed (unit : List UInt8) (packets : List Rfc3550.Packet) : Prop :=
  ∃ bytes, (bytes = unit ∨ bytes ++ [0] = unit) ∧
    (packets.map Prod.snd = [bytes] ∨ Rfc6184.Fragmented bytes (packets.map Prod.snd))

/-- A frame in the packets of a receiver, by its units. -/
structure FrameFramed (pts : UInt32) (units : List (List UInt8))
    (groups : List (List Rfc3550.Packet)) : Prop where
  nonempty : groups.flatten ≠ []
  timestamp : ∀ p ∈ groups.flatten, p.1.timestamp = pts
  marker : ∀ i (hi : i < groups.flatten.length),
    groups.flatten[i].1.marker = true ↔ i + 1 = groups.flatten.length
  framed : List.Forall₂ UnitFramed units groups

/-- Cut a list as what it is mapped to. -/
theorem exists_flatten_of_map_eq {α β : Type} {f : α → β} {xs : List α} {yss : List (List β)}
    (h : xs.map f = yss.flatten) :
    ∃ xss : List (List α), xs = xss.flatten ∧
      List.Forall₂ (fun ys xs => xs.map f = ys) yss xss := by
  induction yss generalizing xs with
  | nil => exact ⟨[], List.map_eq_nil_iff.mp h, List.Forall₂.nil⟩
  | cons ys yss ih =>
    obtain ⟨xs1, xs2, rfl, h1, h2⟩ := List.map_eq_append_iff.mp h
    obtain ⟨xss, rfl, hxss⟩ := ih h2
    exact ⟨xs1 :: xss, rfl, List.Forall₂.cons h1 hxss⟩

theorem forall₂_trans {α β γ : Type} {R : α → β → Prop} {S : β → γ → Prop} {T : α → γ → Prop}
    (hT : ∀ a b c, R a b → S b c → T a c) {xs : List α} {ys : List β} {zs : List γ}
    (hxy : List.Forall₂ R xs ys) (hyz : List.Forall₂ S ys zs) : List.Forall₂ T xs zs := by
  induction hxy generalizing zs with
  | nil =>
    cases hyz with
    | nil => exact List.Forall₂.nil
  | cons hab _ ih =>
    cases hyz with
    | cons hbc hrest => exact List.Forall₂.cons (hT _ _ _ hab hbc) (ih hrest)

/-- A choice for each pair of two lists. -/
theorem exists_map_of_forall₂ {α β γ : Type} {f : γ → β} {R : α → β → Prop} {T : α → γ → Prop}
    (hT : ∀ a b, R a b → ∃ c, b = f c ∧ T a c) {xs : List α} {ys : List β}
    (h : List.Forall₂ R xs ys) : ∃ zs : List γ, ys = zs.map f ∧ List.Forall₂ T xs zs := by
  induction h with
  | nil => exact ⟨[], rfl, List.Forall₂.nil⟩
  | cons hab _ ih =>
    obtain ⟨c, rfl, hc⟩ := hT _ _ hab
    obtain ⟨zs, rfl, hzs⟩ := ih
    exact ⟨c :: zs, rfl, List.Forall₂.cons hc hzs⟩

theorem length_markLast {α : Type} (marked : Bool) (xs : List α) :
    (markLast marked xs).length = xs.length := by
  rw [← List.length_map (f := Prod.fst), map_fst_markLast]

/-- Only the last can have the mark. -/
theorem snd_getElem_markLast {α : Type} (marked : Bool) (xs : List α) (i : Nat)
    (hi : i < (markLast marked xs).length) :
    (markLast marked xs)[i].2 = (marked && decide (i + 1 = xs.length)) := by
  induction xs generalizing i with
  | nil => exact absurd hi (Nat.not_lt_zero i)
  | cons x xs ih =>
    cases xs with
    | nil =>
      obtain rfl : i = 0 := Nat.lt_one_iff.mp hi
      simp [markLast]
    | cons y xs =>
      cases i with
      | zero => simp [markLast]
      | succ i =>
        have hrec := ih i (Nat.lt_of_succ_lt_succ hi)
        simpa [markLast] using hrec

/-- The payloads of one unit, as a receiver tells them. -/
theorem framed_bytesPayloads (bytes : List UInt8) :
    bytesPayloads bytes = [bytes] ∨ Rfc6184.Fragmented bytes (bytesPayloads bytes) := by
  cases bytes with
  | nil => exact Or.inl rfl
  | cons header body =>
    show unitPayloads header body = _ ∨ Rfc6184.Fragmented _ (unitPayloads header body)
    unfold unitPayloads Rfc6184.packetize
    split
    · exact Or.inl rfl
    · rename_i hlong
      refine Or.inr (Rfc6184.fragmented_fragments fuPayloadSize_pos header ?_)
      have hroom : fuPayloadSize + 2 = usRtpPayloadSize := rfl
      omega

/-- **Packets with the contents of a frame frame it.** -/
theorem frameFramed_of_contents (call : WrapCall) {packets : List Rfc3550.Packet}
    (h : packets.map (fun p => (p.1.timestamp, p.2, p.1.marker)) = call.contents) :
    ∃ groups, packets = groups.flatten ∧
      FrameFramed call.pts (call.units.map Prod.snd) groups := by
  have hsnd : packets.map Prod.snd = (call.sentUnits.map bytesPayloads).flatten := by
    have hpayloads := congrArg (List.map fun c : Rfc3550.Content => c.2.1) h
    unfold WrapCall.contents at hpayloads
    rw [List.map_map, List.map_map] at hpayloads
    exact hpayloads.trans (map_fst_markLast true call.payloads)
  have hlen : packets.length = call.payloads.length := by
    rw [← length_markLast true call.payloads]
    simpa [WrapCall.contents] using congrArg List.length h
  obtain ⟨groups, rfl, hgroups⟩ := exists_flatten_of_map_eq hsnd
  refine ⟨groups, rfl, ?_, fun p hp => ?_, fun i hi => ?_, ?_⟩
  · intro h0
    rw [h0] at hlen
    exact call.payloads_ne_nil (List.length_eq_zero_iff.mp hlen.symm)
  · have hmem := List.mem_map_of_mem
      (f := fun p : Rfc3550.Packet => (p.1.timestamp, p.2, p.1.marker)) hp
    rw [h, WrapCall.contents, List.mem_map] at hmem
    obtain ⟨payload, -, hpayload⟩ := hmem
    exact (congrArg Prod.fst hpayload).symm
  · have hi' : i < (markLast true call.payloads).length := by
      rw [length_markLast]
      omega
    have hget : (markLast true call.payloads)[i].2 = groups.flatten[i].1.marker := by
      have hgot := congrArg (fun l => l[i]?) h
      simp only [WrapCall.contents, List.getElem?_map, List.getElem?_eq_getElem hi,
        List.getElem?_eq_getElem hi', Option.map_some, Option.some.injEq] at hgot
      exact (congrArg (fun c : Rfc3550.Content => c.2.2) hgot).symm
    rw [← hget, snd_getElem_markLast, Bool.true_and, decide_eq_true_iff, hlen]
  · rw [List.forall₂_map_left_iff] at hgroups ⊢
    refine forall₂_trans (fun u bytes group hbytes hgroup => ⟨bytes, hbytes, ?_⟩)
      call.forall₂_sentUnits hgroups
    rw [hgroup]
    exact framed_bytesPayloads bytes

/-- **RTP framing over a whole run.**  However many frames are sent, of whatever units, one after
another: the datagrams are no larger than they may be, their sequence numbers are consecutive, and
each frame is framed: one timestamp, the marker on its last packet, and the start and end bits on
the first and the last fragment of each unit that is cut. -/
theorem rtp_framing (rtpv : UsRtpv) (calls : List WrapCall) :
    ∃ (rtpv' : UsRtpv) (datagrams : List UsRtp) (frames : List (List (List Rfc3550.Packet))),
      usRtpvWrapAll rtpv calls = .ok rtpv' ∧ rtpv'.sent = rtpv.sent ++ datagrams ∧
      (∀ d ∈ datagrams, d.used ≤ usRtpDatagramSize) ∧
      datagrams.map UsRtp.packet = (frames.flatMap List.flatten).map some ∧
      List.IsChain (fun p q => q.1.seq = p.1.seq + 1) (frames.flatMap List.flatten) ∧
      List.Forall₂ (fun call groups => FrameFramed call.pts (call.units.map Prod.snd) groups)
        calls frames := by
  obtain ⟨rtpv', datagrams, hrun, hsent, hsize, hpackets⟩ := packets_usRtpvWrapAll rtpv calls
  have hcontents := Rfc3550.content_numbered (rtpv.rtp.payload.toUInt8 % 0x80) rtpv.rtp.ssrc
    rtpv.rtp.seq (calls.flatMap WrapCall.contents)
  have hchain := Rfc3550.isChain_numbered (rtpv.rtp.payload.toUInt8 % 0x80) rtpv.rtp.ssrc
    rtpv.rtp.seq (calls.flatMap WrapCall.contents)
  obtain ⟨pss, hpss, hframes⟩ := exists_flatten_of_map_eq hcontents
  rw [List.forall₂_map_left_iff] at hframes
  obtain ⟨frames, rfl, hframed⟩ := exists_map_of_forall₂
    (fun call packets h => frameFramed_of_contents call h) hframes
  rw [hpss] at hpackets hchain
  exact ⟨rtpv', datagrams, frames, hrun, hsent, hsize, hpackets, hchain, hframed⟩

end TinyPilotKvm
