/-
# What the HW encoder reads (`ustreamer/encoders/hw/encoder.c`)

Both searches look at two bytes and only then whether they are still in the frame: `_is_huffman`
does not know how long the frame is, and `_copy_plus_huffman` compares its pointer after it has
read through it.  What is behind the frame in the memory is what the driver or the last frame has
left there.

So the encoder is a function of the frame's bytes exactly if both searches end on their own
(`reads_used_only_iff`): the first at a pair that says "scan" or "table" or by giving up, and the
second at a pair that says "SOF0".  If there is no such pair, the result is an empty frame
(`usHwEncoderCompress_cases`).
-/
import TinyPilotKvm.Ustreamer.Encoders.Hw

namespace TinyPilotKvm

/-! ## 1. More memory -/

/-- A search that ends is not changed by what is behind. -/
theorem isHuffmanFrom_append : ∀ (data rest : List UInt8) (count : Nat) {seen : Bool},
    isHuffmanFrom data count = some seen → isHuffmanFrom (data ++ rest) count = some seen
  | [], _, _, _, h => absurd h.symm (Option.some_ne_none _)
  | [_], _, _, _, h => absurd h.symm (Option.some_ne_none _)
  | a :: b :: data, rest, count, seen, h => by
    rw [List.cons_append, List.cons_append]
    unfold isHuffmanFrom at h ⊢
    by_cases h1 : markerWord a b = 0xFFDA
    · rw [if_pos h1] at h ⊢
      exact h
    · rw [if_neg h1] at h ⊢
      by_cases h2 : count > 2048
      · rw [if_pos h2] at h ⊢
        exact h
      · rw [if_neg h2] at h ⊢
        by_cases h3 : markerWord a b = 0xFFC4
        · rw [if_pos h3] at h ⊢
          exact h
        · rw [if_neg h3] at h ⊢
          exact isHuffmanFrom_append (b :: data) rest (count + 1) h

theorem findSof0_append : ∀ (srcEnd : Nat) (data rest : List UInt8) (ptr : Nat) {paste : Nat},
    findSof0 srcEnd data ptr = some paste → findSof0 srcEnd (data ++ rest) ptr = some paste
  | _, [], _, _, _, h => absurd h.symm (Option.some_ne_none _)
  | _, [_], _, _, _, h => absurd h.symm (Option.some_ne_none _)
  | srcEnd, a :: b :: data, rest, ptr, paste, h => by
    rw [List.cons_append, List.cons_append]
    unfold findSof0 at h ⊢
    by_cases hgo : markerWord a b ≠ 0xFFC0 ∧ ptr < srcEnd
    · rw [if_pos hgo] at h ⊢
      exact findSof0_append srcEnd (b :: data) rest (ptr + 1) h
    · rw [if_neg hgo] at h ⊢
      exact h

/-- The second search ends at its pair, or where the frame does. -/
theorem findSof0_spec : ∀ (srcEnd : Nat) (data : List UInt8) (ptr : Nat) {paste : Nat},
    findSof0 srcEnd data ptr = some paste →
    ∃ i, paste = ptr + i ∧ i + 1 < data.length ∧ (PairAt jpegSof0 data i ∨ srcEnd ≤ paste)
  | _, [], _, _, h => absurd h.symm (Option.some_ne_none _)
  | _, [_], _, _, h => absurd h.symm (Option.some_ne_none _)
  | srcEnd, a :: b :: data, ptr, paste, h => by
    unfold findSof0 at h
    by_cases hgo : markerWord a b ≠ 0xFFC0 ∧ ptr < srcEnd
    · rw [if_pos hgo] at h
      obtain ⟨i, heq, hlt, hends⟩ := findSof0_spec srcEnd (b :: data) (ptr + 1) h
      refine ⟨i + 1, ?_, Nat.succ_lt_succ hlt, hends⟩
      rw [heq, Nat.add_right_comm, Nat.add_assoc]
    · rw [if_neg hgo] at h
      obtain rfl := Option.some.inj h
      refine ⟨0, rfl, Nat.succ_lt_succ (Nat.succ_pos _), ?_⟩
      by_cases hsof : markerWord a b = 0xFFC0
      · exact .inl (markerWord_sof0.mp hsof)
      · exact .inr (Nat.not_lt.mp fun hlt => hgo ⟨hsof, hlt⟩)

/-! ## 2. When there is an image -/

/-- **The searches end**: there is a pair that says "scan" or "table" in the memory, or there are
2051 bytes; and a table is seen, or a pair in the frame says "SOF0". -/
structure SearchesEnd (data : List UInt8) (used : Nat) : Prop where
  first : (∃ i, PairAt jpegSos data i) ∨ (∃ i, PairAt jpegDht data i) ∨ 2051 ≤ data.length
  second : TableSeen data ∨ ∃ i < used, PairAt jpegSof0 data i

theorem tableSeenFrom_zero {bytes : List UInt8} : TableSeenFrom bytes 0 ↔ TableSeen bytes := by
  unfold TableSeenFrom TableSeen
  simp only [Nat.zero_add]

/-- The end of an encoding that has written something. -/
theorem usFrameEncodingEnd_used (dest : UsFrame) (h : dest.used ≠ 0) (now : ℚ) :
    ∃ out, usFrameEncodingEnd dest now = some out ∧ out.used ≠ 0 :=
  ⟨{ dest with encodeEndTs := now }, by rw [usFrameEncodingEnd, if_neg h], h⟩

/-- **What becomes of a frame**: there is an image if the searches end; if not, the result is empty,
and two bytes behind the frame have been read, or the encoder has left its memory. -/
theorem usHwEncoderCompress_cases {src : UsFrame} (hformat : usIsJpeg src.format = true)
    (hused : src.used ≠ 0) (dest : UsFrame) (begins ends : ℚ) :
    SearchesEnd src.data src.used ∧
        (∃ out, usHwEncoderCompress src dest begins ends = some out ∧ out.used ≠ 0) ∨
      ¬ SearchesEnd src.data src.used ∧
        ((∃ out, usHwEncoderCompress src dest begins ends = some out ∧ out.used = 0 ∧
            src.used + 1 < src.data.length) ∨
          usHwEncoderCompress src dest begins ends = none) := by
  have hends := isHuffmanFrom_isSome_iff src.data 0 (Nat.zero_le _)
  rw [Nat.zero_add] at hends
  unfold usHwEncoderCompress copyPlusHuffman usFrameEncodingBegin? usFrameEncodingBegin isHuffman
  rw [if_pos hformat, if_neg hused, Option.bind_some]
  cases hfirst : isHuffmanFrom src.data 0 with
  | none =>
    refine .inr ⟨fun h => ?_, .inr rfl⟩
    have hsome := hends.mpr h.first
    rw [hfirst] at hsome
    exact Bool.false_ne_true hsome
  | some seen =>
    have hseen := (isHuffmanFrom_seen src.data 0 hfirst).trans tableSeenFrom_zero
    rw [hfirst] at hends
    cases seen with
    | true =>
      dsimp only
      refine .inl ⟨⟨hends.mp rfl, .inl (hseen.mp rfl)⟩, usFrameEncodingEnd_used _ ?_ ends⟩
      exact hused
    | false =>
      have hno : ¬ TableSeen src.data := fun h => Bool.false_ne_true (hseen.mpr h)
      dsimp only
      -- a pair in the frame is found
      have hfound : ∀ n < src.used, PairAt jpegSof0 src.data n →
          ∃ i < src.used, findSof0 src.used src.data 0 = some i := by
        intro n hlt hpair
        obtain ⟨i, hle, hpair, hbefore⟩ := exists_first_pair hpair
        have heq := findSof0_eq src.used src.data 0 hpair hbefore (by omega)
        rw [Nat.zero_add] at heq
        exact ⟨i, by omega, heq⟩
      cases hsecond : findSof0 src.used src.data 0 with
      | none =>
        refine .inr ⟨fun h => ?_, .inr rfl⟩
        rcases h.second with htable | ⟨n, hlt, hpair⟩
        · exact hno htable
        · obtain ⟨i, -, heq⟩ := hfound n hlt hpair
          exact Option.some_ne_none i (heq.symm.trans hsecond)
      | some paste =>
        obtain ⟨i, heq, hlt, hstop⟩ := findSof0_spec src.used src.data 0 hsecond
        rw [Nat.zero_add] at heq
        subst heq
        dsimp only
        by_cases hend : paste ≥ src.used
        · rw [if_pos hend]
          refine .inr ⟨fun h => ?_, .inl ⟨_, rfl, rfl, by omega⟩⟩
          rcases h.second with htable | ⟨n, hn, hpair⟩
          · exact hno htable
          · obtain ⟨i, hi, heq⟩ := hfound n hn hpair
            have hsame := Option.some.inj (hsecond.symm.trans heq)
            omega
        · rw [if_neg hend]
          have hpair : PairAt jpegSof0 src.data paste := hstop.resolve_right hend
          refine .inl ⟨⟨hends.mp rfl, .inr ⟨paste, by omega, hpair⟩⟩,
            usFrameEncodingEnd_used _ ?_ ends⟩
          rw [used_usFrameAppendData, usHuffmanTable_length]
          omega

/-! ## 3. The frame alone -/

theorem usFrameSetData_congr {data data' : List UInt8} {size : Nat}
    (h : readBytes data size = readBytes data' size) (frame : UsFrame) :
    usFrameSetData frame data size = usFrameSetData frame data' size := by
  simp only [usFrameSetData, h]

theorem usFrameAppendData_congr {data data' : List UInt8} {size : Nat}
    (h : readBytes data size = readBytes data' size) (frame : UsFrame) :
    usFrameAppendData frame data size = usFrameAppendData frame data' size := by
  simp only [usFrameAppendData, h]

namespace UsFrame

/-- The frame in a memory that ends with it. -/
def alone (src : UsFrame) : UsFrame := ofBytes src.toFrameMeta src.bytes

variable (src : UsFrame)

@[simp] theorem toFrameMeta_alone : src.alone.toFrameMeta = src.toFrameMeta := rfl

@[simp] theorem data_alone : src.alone.data = src.bytes := rfl

theorem length_bytes : src.bytes.length = src.used := by
  rw [bytes, List.length_take, Nat.min_eq_left src.used_le]

@[simp] theorem used_alone : src.alone.used = src.used := src.length_bytes

theorem data_eq_bytes_append : src.data = src.bytes ++ src.data.drop src.used :=
  (List.take_append_drop _ _).symm

/-- In the frame, the memory is the frame. -/
theorem readBytes_alone {offset size : Nat} (h : offset + size ≤ src.used) :
    readBytes (src.bytes.drop offset) size = readBytes (src.data.drop offset) size := by
  have hused := src.used_le
  have hlen := src.length_bytes
  have htake : (src.bytes.drop offset).take size = (src.data.drop offset).take size := by
    rw [bytes, List.drop_take, List.take_take, Nat.min_eq_left (by omega)]
  rw [readBytes_eq_take (by rw [List.length_drop]; omega),
    readBytes_eq_take (by rw [List.length_drop]; omega), htake]

end UsFrame

section

variable {src : UsFrame} (dest : UsFrame) (begins ends : ℚ)

/-- **What ends in the frame alone** ends in the same way in any memory. -/
theorem usHwEncoderCompress_of_alone {out : UsFrame}
    (h : usHwEncoderCompress src.alone dest begins ends = some out) :
    usHwEncoderCompress src dest begins ends = some out := by
  unfold usHwEncoderCompress copyPlusHuffman usFrameEncodingBegin? usFrameEncodingBegin isHuffman
    at h ⊢
  rw [UsFrame.used_alone, UsFrame.toFrameMeta_alone, UsFrame.data_alone] at h
  by_cases hformat : usIsJpeg src.format
  · rw [if_pos hformat] at h ⊢
    by_cases hempty : src.used = 0
    · rw [if_pos hempty, Option.bind_none] at h
      exact absurd h.symm (Option.some_ne_none out)
    · rw [if_neg hempty, Option.bind_some] at h ⊢
      have hwhole := src.readBytes_alone (Nat.le_of_eq (Nat.zero_add src.used))
      rw [List.drop_zero, List.drop_zero] at hwhole
      cases hfirst : isHuffmanFrom src.bytes 0 with
      | none =>
        rw [hfirst] at h
        exact absurd h.symm (Option.some_ne_none out)
      | some seen =>
        have hfirst' := isHuffmanFrom_append src.bytes (src.data.drop src.used) 0 hfirst
        rw [← src.data_eq_bytes_append] at hfirst'
        rw [hfirst] at h
        rw [hfirst']
        cases seen with
        | true =>
          dsimp only at h ⊢
          rwa [usFrameSetData_congr hwhole] at h
        | false =>
          cases hsecond : findSof0 src.used src.bytes 0 with
          | none =>
            rw [hsecond] at h
            exact absurd h.symm (Option.some_ne_none out)
          | some paste =>
            have hsecond' := findSof0_append src.used src.bytes (src.data.drop src.used) 0 hsecond
            rw [← src.data_eq_bytes_append] at hsecond'
            rw [hsecond] at h
            rw [hsecond']
            dsimp only at h ⊢
            by_cases hend : paste ≥ src.used
            · rw [if_pos hend] at h ⊢
              exact h
            · rw [if_neg hend] at h ⊢
              have hfront := src.readBytes_alone (show 0 + paste ≤ src.used by omega)
              have hback := src.readBytes_alone
                (show paste + (src.used - paste) ≤ src.used by omega)
              rw [List.drop_zero, List.drop_zero] at hfront
              rwa [usFrameSetData_congr hfront, usFrameAppendData_congr hback] at h
  · rw [if_neg hformat] at h
    exact absurd h.symm (Option.some_ne_none out)

/-- In the frame alone there is an image, or the encoder leaves the memory. -/
theorem usHwEncoderCompress_alone (hformat : usIsJpeg src.format = true) (hused : src.used ≠ 0) :
    SearchesEnd src.bytes src.used ∧
        (∃ out, usHwEncoderCompress src.alone dest begins ends = some out) ∨
      ¬ SearchesEnd src.bytes src.used ∧
        usHwEncoderCompress src.alone dest begins ends = none := by
  have hlen := src.length_bytes
  have halone : src.alone.used ≠ 0 := by rwa [UsFrame.used_alone]
  have hcases := usHwEncoderCompress_cases (show usIsJpeg src.alone.format = true from hformat)
    halone dest begins ends
  rw [UsFrame.used_alone, UsFrame.data_alone] at hcases
  rcases hcases with ⟨hcond, out, hout, -⟩ | ⟨hno, ⟨out, -, -, hbehind⟩ | hnone⟩
  · exact .inl ⟨hcond, out, hout⟩
  · rw [hlen] at hbehind
    omega
  · exact .inr ⟨hno, hnone⟩

end

/-! ## 4. The condition -/

/-- The HW encoder makes the same of every frame that has the same bytes, whatever is behind them,
and reads nothing behind them: in a memory without more bytes it comes to an end as well. -/
def ReadsUsedOnly (src : UsFrame) : Prop :=
  ∀ src' : UsFrame, src'.toFrameMeta = src.toFrameMeta → src'.bytes = src.bytes →
    ∀ dest begins ends,
      usHwEncoderCompress src' dest begins ends = usHwEncoderCompress src dest begins ends ∧
        usHwEncoderCompress src' dest begins ends ≠ none

/-- **When the HW encoder depends on the frame alone.** -/
theorem reads_used_only_iff (src : UsFrame) (hformat : usIsJpeg src.format = true)
    (hused : 1 ≤ src.used) : ReadsUsedOnly src ↔ SearchesEnd src.bytes src.used := by
  have hne : src.used ≠ 0 := Nat.pos_iff_ne_zero.mp hused
  constructor
  · intro h
    have hbytes : src.alone.bytes = src.bytes := by
      rw [UsFrame.bytes, UsFrame.data_alone, UsFrame.used_alone, ← src.length_bytes,
        List.take_length]
    obtain ⟨-, hends⟩ := h src.alone rfl hbytes usFrameInit 0 0
    rcases usHwEncoderCompress_alone usFrameInit 0 0 hformat hne with ⟨hcond, -⟩ | ⟨-, hnone⟩
    · exact hcond
    · exact absurd hnone hends
  · intro hcond src' hmeta hbytes dest begins ends
    have halone : src'.alone = src.alone := by
      rw [UsFrame.alone, UsFrame.alone, hmeta, hbytes]
    rcases usHwEncoderCompress_alone dest begins ends hformat hne with ⟨-, out, hout⟩ | ⟨hno, -⟩
    · have hsame := usHwEncoderCompress_of_alone dest begins ends hout
      rw [← halone] at hout
      have hother := usHwEncoderCompress_of_alone dest begins ends hout
      rw [hsame, hother]
      exact ⟨rfl, Option.some_ne_none out⟩
    · exact absurd hcond hno

/-- The start of a JPEG, its SOF0 marker and an end marker, and zeros between: there is no scan in
it. -/
def scanlessBytes : List UInt8 :=
  [0xFF, 0xD8, 0xFF, 0xC0] ++ (List.replicate 122 0 ++ [0xFF, 0xD9])

theorem scanlessBytes_le (behind : List UInt8) : 128 ≤ (scanlessBytes ++ behind).length := by
  rw [List.length_append]
  exact Nat.le_add_right 128 behind.length

/-- It as a frame, and what the memory holds behind it. -/
def scanlessFrame (behind : List UInt8) : UsFrame where
  toFrameMeta := { FrameMeta.zero with format := v4l2PixFmtJpeg }
  data := scanlessBytes ++ behind
  used := 128
  dmaFd := -1
  used_le := scanlessBytes_le behind

/-- A JPEG with a scan depends on nothing else. -/
theorem reads_used_only_comment : ReadsUsedOnly (jpegFrame (commentJpeg [104, 105] (by decide))) ↔
    SearchesEnd (jpegFrame (commentJpeg [104, 105] (by decide))).bytes 33 :=
  reads_used_only_iff _ (format_jpegFrame _) (by decide +kernel)

/-- **Without a scan the memory behind decides**: with a pair there that says "scan" a table is
inserted, with one that says "table" none is, and with nothing there the search goes on. -/
theorem scanless_reads_behind :
    (usHwEncoderCompress (scanlessFrame [0xFF, 0xDA]) (scanlessFrame []) 0 0).map UsFrame.used
        = some 548 ∧
      (usHwEncoderCompress (scanlessFrame [0xFF, 0xC4]) (scanlessFrame []) 0 0).map UsFrame.used
        = some 128 ∧
      usHwEncoderCompress (scanlessFrame []) (scanlessFrame []) 0 0 = none ∧
      ¬ ReadsUsedOnly (scanlessFrame []) := by
  have hnone : (usHwEncoderCompress (scanlessFrame []) (scanlessFrame []) 0 0).map UsFrame.used
      = none := by decide +kernel
  have hstuck := Option.map_eq_none_iff.mp hnone
  refine ⟨by decide +kernel, by decide +kernel, hstuck, fun h => ?_⟩
  exact (h (scanlessFrame []) rfl rfl (scanlessFrame []) 0 0).2 hstuck

end TinyPilotKvm
