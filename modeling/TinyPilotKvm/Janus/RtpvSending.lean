/-
# What the packetizer sends

Sending one payload is `UsRtpv.send`: a header, the payload behind it, and the callback.  This
module says what the two functions under `us_rtpv_wrap` do in these terms:

* `_find_annexb` is `AnnexB.find` of the bytes it is given (`findAnnexb_eq`);
* `_rtpv_process_nalu` sends the payloads of RFC 6184 for the unit, the last of them with the marker
  it was called with (`rtpvProcessNalu_eq`).

Neither has a fault when the bytes are inside the frame.
-/
import TinyPilotKvm.Formats.AnnexB
import TinyPilotKvm.Formats.Rfc6184
import TinyPilotKvm.Janus.Rtpv

namespace TinyPilotKvm

/-! ## 1. Sending -/

/-- Of a list, the last with the mark and the others without. -/
def markLast {α : Type} (marked : Bool) : List α → List (α × Bool)
  | [] => []
  | [x] => [(x, marked)]
  | x :: y :: xs => (x, false) :: markLast marked (y :: xs)

theorem markLast_append {α : Type} (marked : Bool) (xs : List α) {ys : List α} (hys : ys ≠ []) :
    markLast marked (xs ++ ys) = markLast false xs ++ markLast marked ys := by
  induction xs with
  | nil => rfl
  | cons x xs ih =>
    cases xs with
    | nil =>
      cases ys with
      | nil => exact absurd rfl hys
      | cons y ys => rfl
    | cons x' xs =>
      rw [List.cons_append, List.cons_append, markLast, ← List.cons_append, ih, markLast,
        List.cons_append]

theorem map_fst_markLast {α : Type} (marked : Bool) (xs : List α) :
    (markLast marked xs).map Prod.fst = xs := by
  induction xs with
  | nil => rfl
  | cons x xs ih =>
    cases xs with
    | nil => rfl
    | cons x' xs => rw [markLast, List.map_cons, ih]

/-- The room for the bytes of a fragment. -/
def fuPayloadSize : Nat := usRtpDatagramSize - fuOverhead

theorem fuPayloadSize_pos : 0 < fuPayloadSize := by decide

namespace UsRtpv

/-- One payload, with its marker. -/
def send (rtpv : UsRtpv) (pts : UInt32) (payload : List UInt8 × Bool) : UsRtpv :=
  let rtp := usRtpWriteHeader rtpv.rtp pts payload.2
  rtpv.callback (((rtp.memcpy usRtpHeaderSize payload.1).getD rtp).setUsed
    (payload.1.length + usRtpHeaderSize))

/-- The send of a payload that fits. -/
theorem send_of_memcpy {rtpv : UsRtpv} {pts : UInt32} {payload : List UInt8} {marked : Bool}
    {rtp : UsRtp}
    (h : (usRtpWriteHeader rtpv.rtp pts marked).memcpy usRtpHeaderSize payload = some rtp) :
    rtpv.send pts (payload, marked)
      = rtpv.callback (rtp.setUsed (payload.length + usRtpHeaderSize)) := by
  simp only [send, h, Option.getD_some]

/-- One payload after another. -/
def sendAll (rtpv : UsRtpv) (pts : UInt32) (payloads : List (List UInt8 × Bool)) : UsRtpv :=
  payloads.foldl (fun rtpv payload => rtpv.send pts payload) rtpv

theorem sendAll_nil (rtpv : UsRtpv) (pts : UInt32) : rtpv.sendAll pts [] = rtpv := rfl

theorem sendAll_cons (rtpv : UsRtpv) (pts : UInt32) (payload : List UInt8 × Bool)
    (payloads : List (List UInt8 × Bool)) :
    rtpv.sendAll pts (payload :: payloads) = (rtpv.send pts payload).sendAll pts payloads := rfl

theorem sendAll_append (rtpv : UsRtpv) (pts : UInt32) (xs ys : List (List UInt8 × Bool)) :
    rtpv.sendAll pts (xs ++ ys) = (rtpv.sendAll pts xs).sendAll pts ys :=
  List.foldl_append

/-- A payload that fits is copied behind the header. -/
theorem memcpy_of_payloadSize (rtp : UsRtp) {payload : List UInt8}
    (h : payload.length ≤ usRtpPayloadSize) :
    ∃ rtp', rtp.memcpy usRtpHeaderSize payload = some rtp' := by
  have hfits : usRtpHeaderSize + payload.length ≤ usRtpDatagramSize := by
    unfold usRtpPayloadSize usRtpDatagramSize usRtpHeaderSize at *
    omega
  exact UsRtp.memcpy_of_le rtp payload hfits

/-- A payload that fits is on the wire. -/
theorem payloadBytes_send (rtpv : UsRtpv) (pts : UInt32) {payload : List UInt8 × Bool}
    (h : payload.1.length ≤ usRtpPayloadSize) :
    (rtpv.send pts payload).rtp.payloadBytes = payload.1 := by
  obtain ⟨rtp', hrtp⟩ := memcpy_of_payloadSize (usRtpWriteHeader rtpv.rtp pts payload.2) h
  have hsend := send_of_memcpy hrtp
  obtain ⟨datagram, _, hs, rfl⟩ := UsRtp.memcpy_eq_some_iff.mp hrtp
  have hread := take_drop_storeAll hs
  rw [Nat.add_comm] at hread
  rw [hsend]
  exact hread

/-- **What is sent arrives**: the payloads on the wire are those that were sent, after what had been
sent before. -/
theorem sent_sendAll (rtpv : UsRtpv) (pts : UInt32) (payloads : List (List UInt8 × Bool))
    (h : ∀ payload ∈ payloads, payload.1.length ≤ usRtpPayloadSize) :
    ∃ datagrams, (rtpv.sendAll pts payloads).sent = rtpv.sent ++ datagrams ∧
      datagrams.map UsRtp.payloadBytes = payloads.map Prod.fst := by
  induction payloads generalizing rtpv with
  | nil => exact ⟨[], (List.append_nil _).symm, rfl⟩
  | cons payload payloads ih =>
    obtain ⟨datagrams, hsent, hbytes⟩ := ih (rtpv.send pts payload)
      fun p hp => h p (List.mem_cons_of_mem _ hp)
    refine ⟨(rtpv.send pts payload).rtp :: datagrams, ?_, ?_⟩
    · rw [sendAll_cons, hsent]
      show rtpv.sent ++ [_] ++ datagrams = _
      rw [List.append_assoc]
      rfl
    · rw [List.map_cons, List.map_cons, hbytes,
        payloadBytes_send rtpv pts (h payload List.mem_cons_self)]

end UsRtpv

/-! ## 2. Start codes -/

/-- A byte of the frame. -/
theorem getElem?_of_drop {mem xs tail : List UInt8} {i : Nat} (h : mem.drop i = xs ++ tail)
    {j : Nat} (hj : j < xs.length) : mem[i + j]? = xs[j]? := by
  rw [← List.getElem?_drop, h, List.getElem?_append_left hj]

theorem startsAt_eq {mem tail xs : List UInt8} {i : Nat} {a b c : UInt8}
    (h : mem.drop i = (a :: b :: c :: xs) ++ tail) :
    startsAt mem i = .ok (decide (AnnexB.startCode <+: a :: b :: c :: xs)) := by
  have h0 : mem[i]? = some a := getElem?_of_drop h (j := 0) (by simp)
  have h1 : mem[i + 1]? = some b := getElem?_of_drop h (j := 1) (by simp)
  have h2 : mem[i + 2]? = some c := getElem?_of_drop h (j := 2) (by simp)
  have hiff : AnnexB.startCode <+: a :: b :: c :: xs ↔ a = 0 ∧ b = 0 ∧ c = 1 := by
    constructor
    · rintro ⟨t, ht⟩
      simp only [AnnexB.startCode, List.cons_append, List.cons.injEq, List.nil_append] at ht
      exact ⟨ht.1.symm, ht.2.1.symm, ht.2.2.1.symm⟩
    · rintro ⟨rfl, rfl, rfl⟩
      exact ⟨xs, rfl⟩
  unfold startsAt
  rw [h0, h1, h2]
  by_cases ha : a = 0
  · by_cases hb : b = 0
    · simp only [ha, hb, decide_eq_decide.mpr (ha ▸ hb ▸ hiff)]
      simp [orFault, bind, Except.bind, pure, Except.pure]
    · have hno : ¬ AnnexB.startCode <+: a :: b :: c :: xs := fun hp => hb (hiff.mp hp).2.1
      rw [decide_eq_false hno]
      simp [orFault, bind, Except.bind, pure, Except.pure, ha, hb]
  · have hno : ¬ AnnexB.startCode <+: a :: b :: c :: xs := fun hp => ha (hiff.mp hp).1
    rw [decide_eq_false hno]
    simp [orFault, bind, Except.bind, pure, Except.pure, ha]

/-- The loop over the bytes `xs`: all of them but the last two are tried. -/
theorem findAnnexbFrom_eq {mem tail : List UInt8} (data index : Nat) {todo : Nat} {xs : List UInt8}
    (h : mem.drop (data + index) = xs ++ tail) (hlen : xs.length = todo + 2) :
    findAnnexbFrom mem data todo index = .ok ((AnnexB.find xs).map (· + index)) := by
  induction todo generalizing index xs with
  | zero =>
    have hnone : AnnexB.find xs = none := by
      rw [AnnexB.find_eq_none_iff]
      intro hpart
      have := hpart.length_le
      simp only [AnnexB.startCode, List.length_cons, List.length_nil] at this
      omega
    rw [hnone]
    rfl
  | succ todo ih =>
    obtain ⟨a, b, c, ys, rfl⟩ : ∃ a b c ys, xs = a :: b :: c :: ys := by
      obtain ⟨a, xs, rfl⟩ := List.exists_cons_of_length_eq_add_one hlen
      obtain ⟨b, xs, rfl⟩ := List.exists_cons_of_length_eq_add_one (Nat.succ.inj hlen)
      obtain ⟨c, xs, rfl⟩ :=
        List.exists_cons_of_length_eq_add_one (Nat.succ.inj (Nat.succ.inj hlen))
      exact ⟨a, b, c, xs, rfl⟩
    have hnext : mem.drop (data + (index + 1)) = (b :: c :: ys) ++ tail := by
      rw [← Nat.add_assoc, ← List.drop_drop, h]
      rfl
    rw [findAnnexbFrom, startsAt_eq h, AnnexB.find]
    by_cases hstart : AnnexB.startCode <+: a :: b :: c :: ys
    · rw [if_pos hstart, decide_eq_true hstart]
      simp [bind, Except.bind, pure, Except.pure]
    · rw [if_neg hstart, decide_eq_false hstart]
      have hrec := ih (index + 1) hnext (by simpa using hlen)
      simp only [bind, Except.bind, pure, Except.pure, Bool.false_eq_true, if_false, hrec,
        Option.map_map]
      congr 2
      funext n
      simp only [Function.comp_apply]
      omega

/-- **`_find_annexb` finds the first start code** of the bytes it is given, and reads no others. -/
theorem findAnnexb_eq {mem xs tail : List UInt8} {data : Nat} (h : mem.drop data = xs ++ tail) :
    findAnnexb mem data xs.length = .ok (AnnexB.find xs) := by
  unfold findAnnexb
  split
  · rename_i hle
    unfold annexbPre at hle ⊢
    rw [findAnnexbFrom_eq data 0 h (by omega)]
    simp
  · rename_i hlt
    have hnone : AnnexB.find xs = none := by
      rw [AnnexB.find_eq_none_iff]
      intro hpart
      have := hpart.length_le
      simp only [AnnexB.startCode, List.length_cons, List.length_nil] at this
      unfold annexbPre at hlt
      omega
    rw [hnone]

/-! ## 3. One unit -/

/-- The three writes of a fragment. -/
theorem memcpy_fragment (rtp : UsRtp) (header : UInt8) (first last : Bool) {bytes : List UInt8}
    (h : bytes.length ≤ fuPayloadSize) :
    ∃ rtp1 rtp2 rtp3, rtp.memcpy usRtpHeaderSize [Rfc6184.fuIndicator header] = some rtp1 ∧
      rtp1.memcpy (usRtpHeaderSize + 1) [Rfc6184.fuHeader header first last] = some rtp2 ∧
      rtp2.memcpy fuOverhead bytes = some rtp3 ∧
      rtp.memcpy usRtpHeaderSize (Rfc6184.fragment header first last bytes) = some rtp3 := by
  have hfits : usRtpHeaderSize + (Rfc6184.fragment header first last bytes).length
      ≤ usRtpDatagramSize := by
    simp only [Rfc6184.fragment, List.length_cons]
    unfold fuPayloadSize fuOverhead usRtpDatagramSize usRtpHeaderSize at *
    omega
  obtain ⟨rtp3, hall⟩ := UsRtp.memcpy_of_le rtp _ hfits
  have hsplit := UsRtp.memcpy_append rtp usRtpHeaderSize [Rfc6184.fuIndicator header]
    (Rfc6184.fuHeader header first last :: bytes)
  rw [List.singleton_append] at hsplit
  rw [Rfc6184.fragment, ← hsplit, Option.bind_eq_some_iff] at hall
  obtain ⟨rtp1, h1, hrest⟩ := hall
  have hsplit2 := UsRtp.memcpy_append rtp1 (usRtpHeaderSize + 1)
    [Rfc6184.fuHeader header first last] bytes
  rw [List.singleton_append] at hsplit2
  rw [List.length_singleton, ← hsplit2, Option.bind_eq_some_iff] at hrest
  obtain ⟨rtp2, h2, h3⟩ := hrest
  refine ⟨rtp1, rtp2, rtp3, h1, h2, h3, ?_⟩
  rw [Rfc6184.fragment, ← hsplit, h1, Option.bind_some, List.length_singleton, ← hsplit2, h2,
    Option.bind_some]
  exact h3

/-- The fragment's header, as the loop puts it together. -/
theorem fuHeader_eq (header : UInt8) (first last : Bool) :
    (if last then (if first then header &&& 0x1F ||| 0x80 else header &&& 0x1F) ||| 0x40
      else if first then header &&& 0x1F ||| 0x80 else header &&& 0x1F)
      = Rfc6184.fuHeader header first last := by
  cases first <;> cases last <;> simp [Rfc6184.fuHeader]

/-- **One turn of the fragmentation loop** sends one fragment. -/
theorem rtpvFragments_turn {mem bytes : List UInt8} (header : UInt8) (pts : UInt32) (marked : Bool)
    (turns : Nat) (rtpv : UsRtpv) {src : Nat} (remaining : Nat) (first : Bool) (hne : remaining ≠ 0)
    (hload : loadAll mem src bytes.length = some bytes)
    (hsize : bytes.length = if remaining ≤ fuPayloadSize then remaining else fuPayloadSize) :
    let last := decide (remaining ≤ fuPayloadSize)
    rtpvFragments mem ((header >>> 5) &&& 3) (header &&& 0x1F) pts marked (turns + 1) rtpv src
        remaining first
      = rtpvFragments mem ((header >>> 5) &&& 3) (header &&& 0x1F) pts marked turns
          (rtpv.send pts (Rfc6184.fragment header first last bytes, marked && last))
          (src + bytes.length) (remaining - bytes.length) false := by
  intro last
  have hfits : bytes.length ≤ fuPayloadSize := by
    rw [hsize]
    split <;> omega
  have hfrag : (if last then remaining else usRtpDatagramSize - fuOverhead) = bytes.length := by
    rw [hsize]
    exact if_congr decide_eq_true_iff rfl rfl
  obtain ⟨rtp1, rtp2, rtp3, h1, h2, h3, hall⟩ :=
    memcpy_fragment (usRtpWriteHeader rtpv.rtp pts (marked && last)) header first last hfits
  rw [← fuHeader_eq] at h2
  have hused : (Rfc6184.fragment header first last bytes).length + usRtpHeaderSize
      = fuOverhead + bytes.length := by
    simp only [Rfc6184.fragment, List.length_cons]
    unfold fuOverhead
    omega
  rw [rtpvFragments, if_neg hne, UsRtpv.send_of_memcpy hall, hused]
  show (orFault ((usRtpWriteHeader rtpv.rtp pts (marked && last)).memcpy usRtpHeaderSize
    [Rfc6184.fuIndicator header]) .writeOutside).bind _ = _
  rw [h1]
  show (orFault (rtp1.memcpy (usRtpHeaderSize + 1)
    [if last then (if first then header &&& 0x1F ||| 0x80 else header &&& 0x1F) ||| 0x40
      else if first then header &&& 0x1F ||| 0x80 else header &&& 0x1F]) .writeOutside).bind _ = _
  rw [h2]
  show (orFault (loadAll mem src (if last then remaining else usRtpDatagramSize - fuOverhead))
    .readOutside).bind _ = _
  rw [hfrag, hload]
  show (orFault (rtp2.memcpy fuOverhead bytes) .writeOutside).bind _ = _
  rw [h3]
  show rtpvFragments mem _ _ pts marked turns (rtpv.callback (rtp3.setUsed (fuOverhead
    + (if last then remaining else usRtpDatagramSize - fuOverhead))))
    (src + (if last then remaining else usRtpDatagramSize - fuOverhead))
    (remaining - (if last then remaining else usRtpDatagramSize - fuOverhead)) false = _
  rw [hfrag]

/-- **The fragmentation loop sends the fragments**: on the turns left it needs no more than one a
byte. -/
theorem rtpvFragments_eq {mem tail : List UInt8} (header : UInt8) (pts : UInt32) (marked : Bool)
    {turns : Nat} (rtpv : UsRtpv) {src : Nat} {body : List UInt8} (first : Bool)
    (h : mem.drop src = body ++ tail) (hne : body ≠ []) (hturns : body.length ≤ turns) :
    rtpvFragments mem ((header >>> 5) &&& 3) (header &&& 0x1F) pts marked turns rtpv src body.length
        first
      = .ok (rtpv.sendAll pts (markLast marked
          (Rfc6184.fragments fuPayloadSize fuPayloadSize_pos header first body))) := by
  induction turns generalizing rtpv src body first with
  | zero =>
    have hpos := List.length_pos_iff.mpr hne
    omega
  | succ turns ih =>
    have hpos := List.length_pos_iff.mpr hne
    have hsrc : src ≤ mem.length := by
      have := congrArg List.length h
      rw [List.length_drop, List.length_append] at this
      omega
    rw [Rfc6184.fragments]
    by_cases hle : body.length ≤ fuPayloadSize
    · have hturn := rtpvFragments_turn header pts marked turns rtpv body.length first (by omega)
        (loadAll_of_drop h hsrc) (if_pos hle).symm
      rw [hturn, dif_pos hle, decide_eq_true hle, Nat.sub_self, Bool.and_true]
      cases turns <;> rfl
    · -- a full fragment, and the rest of the body
      have hlen : (body.take fuPayloadSize).length = fuPayloadSize := by
        rw [List.length_take]
        omega
      have hsplit : mem.drop src
          = body.take fuPayloadSize ++ (body.drop fuPayloadSize ++ tail) := by
        rw [h, ← List.append_assoc, List.take_append_drop]
      have hrest : mem.drop (src + fuPayloadSize) = body.drop fuPayloadSize ++ tail := by
        rw [← List.drop_drop, hsplit, List.drop_left' hlen]
      have hne' : body.drop fuPayloadSize ≠ [] := by
        rw [← List.length_pos_iff, List.length_drop]
        omega
      have hpos' := fuPayloadSize_pos
      have hturn := rtpvFragments_turn header pts marked turns rtpv body.length first (by omega)
        (loadAll_of_drop hsplit hsrc)
        (by rw [hlen, if_neg hle])
      have hrec := ih (rtpv.send pts
        (Rfc6184.fragment header first false (body.take fuPayloadSize), false)) false hrest hne'
        (by rw [List.length_drop]; omega)
      rw [List.length_drop] at hrec
      rw [hturn, dif_neg hle, decide_eq_false hle, hlen, Bool.and_false, hrec]
      obtain ⟨f, fs, hfs⟩ := List.exists_cons_of_ne_nil
        (Rfc6184.fragments_ne_nil fuPayloadSize fuPayloadSize_pos header false
          (body.drop fuPayloadSize))
      rw [hfs, markLast, UsRtpv.sendAll_cons]

/-- The payloads of a unit. -/
def unitPayloads (header : UInt8) (body : List UInt8) : List (List UInt8) :=
  Rfc6184.packetize usRtpPayloadSize fuPayloadSize fuPayloadSize_pos header body

/-- **`_rtpv_process_nalu` sends the payloads of the unit**, and marks the last if it is told to. -/
theorem rtpvProcessNalu_eq {mem tail : List UInt8} (rtpv : UsRtpv) {data : Nat} {header : UInt8}
    {body : List UInt8} (h : mem.drop data = (header :: body) ++ tail) (pts : UInt32)
    (marked : Bool) :
    rtpvProcessNalu rtpv mem data (header :: body).length pts marked
      = .ok (rtpv.sendAll pts (markLast marked (unitPayloads header body))) := by
  have hdata : data ≤ mem.length := by
    have := congrArg List.length h
    rw [List.length_drop, List.length_append, List.length_cons] at this
    omega
  have hheader : mem[data]? = some header := getElem?_of_drop h (j := 0) (by simp)
  have hsingle : body.length + 1 ≤ usRtpPayloadSize ↔
      (header :: body).length + usRtpHeaderSize ≤ usRtpDatagramSize := by
    rw [List.length_cons]
    unfold usRtpPayloadSize usRtpDatagramSize usRtpHeaderSize
    omega
  unfold rtpvProcessNalu unitPayloads Rfc6184.packetize
  rw [hheader]
  by_cases hle : body.length + 1 ≤ usRtpPayloadSize
  · have hfits := hsingle.mp hle
    rw [Nat.add_comm] at hfits
    obtain ⟨rtp, hrtp⟩ :=
      UsRtp.memcpy_of_le (usRtpWriteHeader rtpv.rtp pts marked) (header :: body) hfits
    have hload := loadAll_of_drop h hdata
    simp only [orFault, bind, Except.bind, pure, Except.pure, if_pos hle, if_pos (hsingle.mp hle),
      hload, hrtp, markLast, UsRtpv.sendAll_cons, UsRtpv.sendAll_nil, UsRtpv.send_of_memcpy hrtp]
  · have hbody : mem.drop (data + 1) = body ++ tail := by
      rw [← List.drop_drop, h]
      rfl
    have hne : body ≠ [] := by
      rintro rfl
      exact hle (by decide)
    have hfrag := rtpvFragments_eq header pts marked rtpv true hbody hne (Nat.le_refl _)
    have hlong : ¬ body.length + 1 + usRtpHeaderSize ≤ usRtpDatagramSize := fun hc =>
      hle (hsingle.mpr hc)
    simp only [orFault, bind, Except.bind, List.length_cons, if_neg hle, if_neg hlong,
      Nat.add_sub_cancel, hfrag]

end TinyPilotKvm
