/-
# The packetizer on any bytes

`us_rtpv_wrap` cuts a frame at its start codes.  `wrapPieces` is what it does with the pieces, and
`usRtpvWrap_eq_pieces` says that it does this with any frame, whatever its bytes:

* a piece between two start codes loses one zero at its end, and its unit is sent;
* the last piece is sent as it is, with the marker;
* a piece of no bytes is a fault: between two start codes the last of its bytes is asked for, and
  at the end of the frame the first.

The induction is on the pieces behind the start code the loop has found last.
-/
import TinyPilotKvm.Janus.RtpvSending

namespace TinyPilotKvm

/-! ## 1. Turns of the loop -/

section Turns

variable {frame : UsFrame} {pts : UInt32} {turns : Nat} {rtpv rtpv' : UsRtpv}

theorem subSize_of_eq {a b n : Nat} (h : a = b + n) : subSize a b = .ok n := by
  unfold subSize
  rw [if_pos (by omega)]
  congr 1
  omega

/-- The turn that finds the first start code. -/
theorem rtpvWrapFrom_first {offset : Nat}
    (hfind : findAnnexb frame.data 0 frame.used = .ok (some offset)) :
    rtpvWrapFrom frame pts (turns + 1) rtpv none
      = rtpvWrapFrom frame pts turns rtpv (some offset) := by
  have hsub : subSize frame.used 0 = .ok frame.used := subSize_of_eq (Nat.zero_add _).symm
  simp only [rtpvWrapFrom, bind, Except.bind, hsub, hfind, Nat.add_zero]

/-- The turn that finds none any more, and the last unit. -/
theorem rtpvWrapFrom_last {o size : Nat} (hsize : frame.used = o + annexbPre + size)
    (hfind : findAnnexb frame.data (o + annexbPre) size = .ok none)
    (hunit : rtpvProcessNalu rtpv frame.data (o + annexbPre) size pts true = .ok rtpv') :
    rtpvWrapFrom frame pts (turns + 1) rtpv (some o) = .ok rtpv' := by
  simp only [rtpvWrapFrom, bind, Except.bind, subSize_of_eq hsize, hfind, hunit]

/-- The turn that finds the next one.  `size` is that of the unit without the extra zero. -/
theorem rtpvWrapFrom_next {o rest found size : Nat}
    (hrest : frame.used = o + annexbPre + rest)
    (hfind : findAnnexb frame.data (o + annexbPre) rest = .ok (some found))
    (hsize : withoutExtraZero frame.data (o + annexbPre) found = .ok size)
    (hunit : rtpvProcessNalu rtpv frame.data (o + annexbPre) size pts false = .ok rtpv') :
    rtpvWrapFrom frame pts (turns + 1) rtpv (some o)
      = rtpvWrapFrom frame pts turns rtpv' (some (o + annexbPre + found)) := by
  have hfound : subSize (found + (o + annexbPre)) (o + annexbPre) = .ok found :=
    subSize_of_eq (Nat.add_comm _ _)
  simp only [rtpvWrapFrom, bind, Except.bind, subSize_of_eq hrest, hfind, hfound, hsize, hunit]
  rw [Nat.add_comm found]

end Turns

/-! ## 2. Units of any size -/

/-- The payloads of a unit's bytes, of which there may be none. -/
def bytesPayloads : List UInt8 → List (List UInt8)
  | [] => [[]]
  | header :: body => unitPayloads header body

theorem bytesPayloads_ne_nil (bytes : List UInt8) : bytesPayloads bytes ≠ [] := by
  cases bytes with
  | nil => exact List.cons_ne_nil _ _
  | cons header body => exact Rfc6184.packetize_ne_nil _ _ _ header body

/-- Every payload fits into a datagram. -/
theorem length_of_mem_bytesPayloads {bytes p : List UInt8} (h : p ∈ bytesPayloads bytes) :
    p.length ≤ usRtpPayloadSize := by
  cases bytes with
  | nil =>
    rw [List.mem_singleton.mp h]
    exact Nat.zero_le _
  | cons header body =>
    exact Rfc6184.length_of_mem_packetize fuPayloadSize_pos (by decide) header body p h

/-- `_rtpv_process_nalu` sends the payloads of the bytes, if there is a byte to read the header
from. -/
theorem rtpvProcessNalu_bytes {mem bytes tail : List UInt8} (rtpv : UsRtpv) {data : Nat}
    (h : mem.drop data = bytes ++ tail) (hin : data < mem.length) (pts : UInt32) (marked : Bool) :
    rtpvProcessNalu rtpv mem data bytes.length pts marked
      = .ok (rtpv.sendAll pts (markLast marked (bytesPayloads bytes))) := by
  cases bytes with
  | cons header body => exact rtpvProcessNalu_eq rtpv h pts marked
  | nil =>
    obtain ⟨rtp, hrtp⟩ :
        ∃ rtp, (usRtpWriteHeader rtpv.rtp pts marked).memcpy usRtpHeaderSize [] = some rtp :=
      UsRtp.memcpy_of_le _ _ (by decide)
    have hload : loadAll mem data 0 = some [] := loadAll_of_drop h (Nat.le_of_lt hin)
    have hheader : mem[data]? = some mem[data] := List.getElem?_eq_getElem hin
    have hfits : 0 + usRtpHeaderSize ≤ usRtpDatagramSize := by decide
    unfold rtpvProcessNalu
    simp only [hheader, orFault, bind, Except.bind, pure, Except.pure, List.length_nil,
      if_pos hfits, hload, hrtp, bytesPayloads, markLast, UsRtpv.sendAll_cons, UsRtpv.sendAll_nil,
      UsRtpv.send_of_memcpy hrtp]

/-- The size of the unit before the next start code. -/
theorem withoutExtraZero_eq {mem piece tail : List UInt8} {data : Nat}
    (h : mem.drop data = piece ++ tail) (hne : piece ≠ []) :
    withoutExtraZero mem data piece.length = .ok (AnnexB.withoutLastZero piece).length := by
  have hpos := List.length_pos_iff.mpr hne
  have hlast := getElem?_of_drop h (j := piece.length - 1) (by omega)
  rw [← List.getLast?_eq_getElem?, List.getLast?_eq_some_getLast hne] at hlast
  have hsub : subSize piece.length 1 = .ok (piece.length - 1) := if_pos hpos
  unfold withoutExtraZero AnnexB.withoutLastZero
  rw [hsub, List.getLast?_eq_some_getLast hne]
  simp only [bind, Except.bind, hlast, orFault, Option.some.injEq]
  split
  · rw [List.length_dropLast]
  · rfl

theorem withoutExtraZero_zero (mem : List UInt8) (data : Nat) :
    withoutExtraZero mem data 0 = .error .underflow := rfl

/-- The bytes without the zero stand where the piece begins. -/
theorem exists_eq_withoutLastZero_append (piece : List UInt8) :
    ∃ zero, piece = AnnexB.withoutLastZero piece ++ zero := by
  unfold AnnexB.withoutLastZero
  split
  · rename_i hlast
    exact ⟨[0], (List.dropLast_append_getLast? 0 hlast).symm⟩
  · exact ⟨[], (List.append_nil _).symm⟩

/-! ## 3. The pieces of a frame -/

/-- The loop of `us_rtpv_wrap` and what follows it, on the pieces behind the start codes. -/
def wrapPieces (pts : UInt32) : UsRtpv → List (List UInt8) → Except RtpvFault UsRtpv
  | rtpv, [] => .ok rtpv
  | rtpv, [piece] =>
    if piece = [] then .error .readOutside
    else .ok (rtpv.sendAll pts (markLast true (bytesPayloads piece)))
  | rtpv, piece :: next :: pieces =>
    if piece = [] then .error .underflow
    else wrapPieces pts
      (rtpv.sendAll pts (markLast false (bytesPayloads (AnnexB.withoutLastZero piece))))
        (next :: pieces)

theorem length_le_joined (pieces : List (List UInt8)) :
    pieces.length ≤ (AnnexB.joined pieces).length := by
  induction pieces with
  | nil => exact Nat.le_refl _
  | cons piece pieces ih =>
    rw [AnnexB.joined_cons, List.length_append, List.length_append, List.length_cons]
    simp only [AnnexB.startCode, List.length_cons, List.length_nil]
    omega

/-- **The loop from a start code on** does with the pieces what `wrapPieces` does.  Behind a frame
that ends in a start code nothing may be read; other frames may have any memory behind them. -/
theorem rtpvWrapFrom_eq {frame : UsFrame} (pts : UInt32) (pieces : List (List UInt8)) {turns : Nat}
    (rtpv : UsRtpv) {o : Nat} (piece : List UInt8) {tail : List UInt8}
    (hfree : ∀ p ∈ piece :: pieces, ¬ AnnexB.startCode <:+: p)
    (h : frame.data.drop (o + annexbPre) = (piece ++ AnnexB.joined pieces) ++ tail)
    (hused : frame.used = o + annexbPre + (piece ++ AnnexB.joined pieces).length)
    (hturns : pieces.length < turns)
    (htail : (piece :: pieces).getLast (List.cons_ne_nil _ _) ≠ [] ∨ tail = []) :
    rtpvWrapFrom frame pts turns rtpv (some o) = wrapPieces pts rtpv (piece :: pieces) := by
  induction pieces generalizing turns rtpv o piece with
  | nil =>
    obtain ⟨turns, rfl⟩ := Nat.exists_eq_succ_of_ne_zero (Nat.ne_zero_of_lt hturns)
    have hfind := findAnnexb_eq h
    rw [AnnexB.joined, List.flatMap_nil, List.append_nil] at h hused hfind
    rw [AnnexB.find_eq_none_iff.mpr (hfree piece List.mem_cons_self)] at hfind
    unfold wrapPieces
    split
    · -- the header of a unit behind the end of the frame
      rename_i hnil
      obtain rfl : tail = [] := htail.resolve_left fun h0 => h0 hnil
      subst hnil
      have hout : frame.data[o + annexbPre]? = none := by
        rw [← Nat.add_zero (o + annexbPre), ← List.getElem?_drop, h]
        rfl
      have hunit : rtpvProcessNalu rtpv frame.data (o + annexbPre) 0 pts true
          = .error .readOutside := by
        simp only [rtpvProcessNalu, hout, orFault, bind, Except.bind]
      have hsize : subSize frame.used (o + annexbPre) = .ok 0 := subSize_of_eq hused
      simp only [rtpvWrapFrom, bind, Except.bind, hsize, List.length_nil ▸ hfind, hunit]
    · rename_i hne
      have hpos := List.length_pos_iff.mpr hne
      have hin : o + annexbPre < frame.data.length := by
        have := frame.used_le
        omega
      exact rtpvWrapFrom_last hused hfind (rtpvProcessNalu_bytes rtpv h hin pts true)
  | cons next pieces ih =>
    obtain ⟨turns, rfl⟩ := Nat.exists_eq_succ_of_ne_zero (Nat.ne_zero_of_lt hturns)
    obtain ⟨hpiece, hnextFree⟩ := List.forall_mem_cons.mp hfree
    rw [AnnexB.joined_cons, ← List.append_assoc] at h hused
    have hfind := findAnnexb_eq h
    rw [AnnexB.find_append_startCode hpiece] at hfind
    have hbefore : frame.data.drop (o + annexbPre)
        = piece ++ (AnnexB.startCode ++ (next ++ AnnexB.joined pieces) ++ tail) := by
      rw [h]
      simp only [List.append_assoc]
    have hlen : (piece ++ AnnexB.startCode ++ (next ++ AnnexB.joined pieces)).length
        = piece.length + annexbPre + (next ++ AnnexB.joined pieces).length :=
      List.length_append.trans (congrArg (· + _) List.length_append)
    rw [wrapPieces]
    by_cases hne : piece = []
    · -- the last byte of a unit of none
      subst hne
      have hsub : ∀ n, subSize (0 + n) n = .ok 0 := fun n => subSize_of_eq (Nat.add_comm _ _)
      rw [if_pos rfl]
      simp only [rtpvWrapFrom, bind, Except.bind, subSize_of_eq hused, hfind, List.length_nil, hsub,
        withoutExtraZero_zero]
    · rw [if_neg hne]
      have hin : o + annexbPre < frame.data.length := by
        have hpos := List.length_pos_iff.mpr hne
        have := frame.used_le
        omega
      obtain ⟨zero, hzero⟩ := exists_eq_withoutLastZero_append piece
      have hbytes : frame.data.drop (o + annexbPre) = AnnexB.withoutLastZero piece
          ++ (zero ++ (AnnexB.startCode ++ (next ++ AnnexB.joined pieces) ++ tail)) := by
        rw [← List.append_assoc, ← hzero]
        exact hbefore
      have hunit := rtpvProcessNalu_bytes rtpv hbytes hin pts false
      -- behind the start code that has been found stands the next piece
      have hnext : frame.data.drop (o + annexbPre + piece.length + annexbPre)
          = (next ++ AnnexB.joined pieces) ++ tail := by
        rw [← List.drop_drop, ← List.drop_drop, hbefore, List.drop_left, List.append_assoc]
        rfl
      rw [rtpvWrapFrom_next hused hfind (withoutExtraZero_eq hbefore hne) hunit]
      refine ih _ next hnextFree hnext ?_ (Nat.lt_of_succ_lt_succ hturns) htail
      rw [hused, hlen]
      omega

/-- **`us_rtpv_wrap` does with any frame what `wrapPieces` does** with the pieces behind its start
codes. -/
theorem usRtpvWrap_eq_pieces (rtpv : UsRtpv) (frame : UsFrame) (zeroPlayoutDelay : Bool)
    (now : UInt64) (hformat : frame.format = v4l2PixFmtH264) {before : List UInt8}
    {pieces : List (List UInt8)} (hbytes : frame.bytes = before ++ AnnexB.joined pieces)
    (hfree : ∀ p ∈ before :: pieces, ¬ AnnexB.startCode <:+: p)
    (htail : [] ∉ pieces ∨ frame.data = frame.bytes) :
    usRtpvWrap rtpv frame zeroPlayoutDelay now
      = wrapPieces (now * 9 / 100).toUInt32
          { rtpv with rtp := { rtpv.rtp with zeroPlayoutDelay := zeroPlayoutDelay } } pieces := by
  obtain ⟨tail, hdata⟩ : ∃ tail, frame.data = frame.bytes ++ tail := by
    refine ⟨frame.data.drop frame.used, ?_⟩
    rw [UsFrame.bytes, List.take_append_drop]
  have hused : frame.used = frame.bytes.length := by
    rw [UsFrame.bytes, List.length_take, Nat.min_eq_left frame.used_le]
  have hfind := findAnnexb_eq ((List.drop_zero (l := frame.data)).trans hdata)
  unfold usRtpvWrap
  rw [if_neg (not_not.mpr hformat)]
  dsimp only
  obtain ⟨hbefore, hpieces⟩ := List.forall_mem_cons.mp hfree
  cases pieces with
  | nil =>
    have hsub : subSize frame.used 0 = .ok frame.used := subSize_of_eq (Nat.zero_add _).symm
    have hnone : ¬ AnnexB.startCode <:+: frame.bytes := by
      rw [hbytes, AnnexB.joined, List.flatMap_nil, List.append_nil]
      exact hbefore
    rw [← hused, AnnexB.find_eq_none_iff.mpr hnone] at hfind
    simp only [rtpvWrapFrom, bind, Except.bind, hsub, hfind]
    rfl
  | cons piece pieces =>
    have hsplit : frame.bytes = before ++ AnnexB.startCode ++ (piece ++ AnnexB.joined pieces) := by
      rw [hbytes, AnnexB.joined_cons, List.append_assoc]
    have hlen : frame.bytes.length
        = before.length + annexbPre + (piece ++ AnnexB.joined pieces).length := by
      rw [hsplit]
      exact List.length_append.trans (congrArg (· + _) List.length_append)
    have hfirst : AnnexB.find frame.bytes = some before.length := by
      rw [hsplit]
      exact AnnexB.find_append_startCode hbefore _
    have hrest : frame.data.drop (before.length + annexbPre)
        = (piece ++ AnnexB.joined pieces) ++ tail := by
      rw [← List.drop_drop, hdata, hsplit, List.append_assoc, List.append_assoc, List.drop_left]
      rfl
    have hturns := length_le_joined pieces
    rw [← hused, hfirst] at hfind
    rw [rtpvWrapFrom_first hfind]
    refine rtpvWrapFrom_eq _ pieces _ piece hpieces hrest (hused.trans hlen) ?_ ?_
    · rw [hused, hlen, List.length_append]
      unfold annexbPre
      omega
    · rcases htail with hfull | hexact
      · exact Or.inl fun h0 => hfull (h0 ▸ List.getLast_mem _)
      · exact Or.inr (List.append_right_eq_self.mp (hdata.symm.trans hexact))

/-- A frame of which every piece has a byte is sent. -/
theorem wrapPieces_eq_ok {pieces : List (List UInt8)} (pts : UInt32) (rtpv : UsRtpv)
    (h : [] ∉ pieces) :
    wrapPieces pts rtpv pieces
      = .ok (rtpv.sendAll pts
        (markLast true ((AnnexB.pieceUnits pieces).flatMap bytesPayloads))) := by
  induction pieces generalizing rtpv with
  | nil => rfl
  | cons piece pieces ih =>
    rw [List.mem_cons, not_or] at h
    obtain ⟨hne, hrest⟩ := h
    cases pieces with
    | nil =>
      rw [wrapPieces, if_neg (Ne.symm hne), AnnexB.pieceUnits, List.flatMap_singleton]
    | cons next pieces =>
      rw [wrapPieces, if_neg (Ne.symm hne), ih _ hrest, AnnexB.pieceUnits, List.flatMap_cons,
        markLast_append true, UsRtpv.sendAll_append]
      obtain ⟨unit, units, hunits⟩ :
          ∃ unit units, AnnexB.pieceUnits (next :: pieces) = unit :: units := by
        cases pieces with
        | nil => exact ⟨_, _, rfl⟩
        | cons _ _ => exact ⟨_, _, rfl⟩
      rw [hunits, List.flatMap_cons]
      exact List.append_ne_nil_of_left_ne_nil (bytesPayloads_ne_nil unit) _

/-- A frame of which some piece has none is not. -/
theorem wrapPieces_eq_error {pieces : List (List UInt8)} (pts : UInt32) (rtpv : UsRtpv)
    (h : [] ∈ pieces) : ∃ fault, wrapPieces pts rtpv pieces = .error fault := by
  induction pieces generalizing rtpv with
  | nil => exact absurd h List.not_mem_nil
  | cons piece pieces ih =>
    by_cases hne : piece = []
    · cases pieces with
      | nil => exact ⟨_, by rw [wrapPieces, if_pos hne]⟩
      | cons next pieces => exact ⟨_, by rw [wrapPieces, if_pos hne]⟩
    · have hrest := (List.mem_cons.mp h).resolve_left (Ne.symm hne)
      cases pieces with
      | nil => exact absurd hrest List.not_mem_nil
      | cons next pieces =>
        rw [wrapPieces, if_neg hne]
        exact ih _ hrest

end TinyPilotKvm
