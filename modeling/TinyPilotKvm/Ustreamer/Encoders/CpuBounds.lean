/-
# The arithmetic of the CPU encoder

The capture layer checks the resolution and a minimal length (`CpuAccepted`); the stride and the
length are otherwise what the driver says, and the encoder computes with them as they are:

* `us_frame_get_padding` subtracts `width * bytes_per_pixel` wherever the stride is greater than the
  WIDTH;
* a planar frame is taken to be longer than its luma plane by two chroma planes, and the length
  of such a plane is a divisor;
* how long a frame has to be for the pixels read is not asked.

`cpu_in_range_iff` is the condition under which this is all right.
-/
import TinyPilotKvm.Libs.Capture.Open
import TinyPilotKvm.Ustreamer.Encoders.CpuScanlines

namespace TinyPilotKvm

/-! ## 1. Frames that are accepted -/

/-- A format that has its own planes for the chroma. -/
def IsPlanar (format : Nat) : Prop := format = v4l2PixFmtYuv420 ∨ format = v4l2PixFmtYvu420

/-- A frame of a format of the CPU encoder, as the capture layer hands it over: the resolution has
been applied and `_capture_is_buffer_valid` accepts the buffer.  The stride and `bytesused` are
32-bit numbers. -/
structure CpuAccepted (cap : UsCapture) (frame : UsFrame) : Prop where
  format : (∃ f : PackedFormat, frame.format = f.fourcc) ∨ IsPlanar frame.format
  resolution : ∃ cap' hz, (captureApplyResolution cap' frame.width frame.height hz).1 = 0
  minFrameSize_pos : 1 ≤ cap.minFrameSize
  valid : captureIsBufferValid cap ⟨0, frame.used, [], 0, 0⟩ frame.data = true
  stride_lt : frame.stride < 4294967296
  used_lt : frame.used < 4294967296

/-- **The arithmetic is in range**: no unsigned subtraction goes below zero, no divisor is zero, and
nothing is read at or behind `used`. -/
structure CpuInRange (extensions : Bool) (frame : UsFrame) : Prop where
  padding : ∀ bytes, bytesPerPixel frame.format = some bytes → bytes > 0 →
    frame.stride > frame.width → frame.width * bytes ≤ frame.stride
  planar : IsPlanar frame.format →
    planarImageSize frame ≤ frame.used ∧ planarChromaArraySize frame ≠ 0
  reads : (cpuScanlines extensions frame).isSome

/-! ## 2. The condition -/

/-- What the padding adds to a row, if it is not below zero. -/
def paddingOf (bytes : Nat) (frame : UsFrame) : Nat :=
  if frame.stride > frame.width then frame.stride - frame.width * bytes else 0

/-- The last byte that is read in a row. -/
def PackedFormat.lastOffset (f : PackedFormat) (width : Nat) : Nat :=
  match f with
  | yuyv | yvyu => 4 * ((width - 1) / 2) + 3
  | uyvy => 4 * ((width - 1) / 2) + 2 + (width - 1) % 2
  | rgb565 => 2 * width - 1
  | rgb24 | bgr24 => 3 * width - 1
  | grey => width - 1

/-- A packed frame: the stride is no more than the width, or holds the pixels; and the last byte of
the last row is in the frame. -/
structure PackedFits (f : PackedFormat) (frame : UsFrame) : Prop where
  stride : frame.stride ≤ frame.width ∨ frame.width * f.bytes ≤ frame.stride
  last : (frame.height - 1) * (f.rowBytes frame.width + paddingOf f.bytes frame)
    + f.lastOffset frame.width < frame.used

/-- The length of a chroma plane, by the encoder. -/
def chromaLength (frame : UsFrame) : Nat := (frame.used - frame.width * frame.height) / 2

/-- Rows and columns per chroma sample, by the encoder. -/
def chromaOrder (frame : UsFrame) : Nat :=
  if frame.width * frame.height / chromaLength frame = 16 then 4 else 2

/-- A planar frame: there are two bytes of chroma, and the last byte of the luma and that of the
second chroma plane are in the frame. -/
structure PlanarFits (frame : UsFrame) : Prop where
  chroma : frame.width * frame.height + 2 ≤ frame.used
  lastLuma : (frame.height - 1) * (frame.width + paddingOf 1 frame) + (frame.width - 1) < frame.used
  lastChroma : frame.width * frame.height + chromaLength frame
    + (frame.height - 1 - 1) / chromaOrder frame
      * ((frame.width + paddingOf 1 frame) / chromaOrder frame)
    + (frame.width - 1) / chromaOrder frame < frame.used

/-- **The frame fits** its format. -/
structure CpuFits (frame : UsFrame) : Prop where
  packed : ∀ f : PackedFormat, frame.format = f.fourcc → PackedFits f frame
  planar : IsPlanar frame.format → PlanarFits frame

/-! ## 3. What is accepted -/

section

variable {cap : UsCapture} {frame : UsFrame}

theorem CpuAccepted.sizes (h : CpuAccepted cap frame) : 0 < frame.width ∧ frame.width ≤ 15360 ∧
    0 < frame.height ∧ frame.height ≤ 8640 ∧ 0 < frame.used := by
  obtain ⟨cap', hz, happly⟩ := h.resolution
  have hused : 0 < frame.used := by
    by_contra hzero
    have hmin := h.minFrameSize_pos
    have hvalid := h.valid
    rw [captureIsBufferValid, if_pos (show frame.used < cap.minFrameSize by omega)] at hvalid
    exact Bool.false_ne_true hvalid
  unfold captureApplyResolution usVideoMaxWidth usVideoMaxHeight at happly
  split at happly
  · exact absurd (show (-1 : Int) = 0 from happly) (by decide)
  · omega

/-- Where the subtraction does not go below zero, the padding is what it is meant to be. -/
theorem usFrameGetPadding_eq {bytes : Nat} (hbytes : bytesPerPixel frame.format = some bytes)
    (hpos : 0 < bytes) (hlt : frame.stride < 4294967296)
    (hfits : frame.stride ≤ frame.width ∨ frame.width * bytes ≤ frame.stride) :
    usFrameGetPadding frame.toFrameMeta = some (paddingOf bytes frame) := by
  rw [usFrameGetPadding, hbytes, Option.map_some, paddingOf]
  congr 1
  by_cases hgt : frame.stride > frame.width
  · have hle := hfits.resolve_left (Nat.not_le.mpr hgt)
    rw [if_pos ⟨hpos, hgt⟩, if_pos hgt]
    omega
  · rw [if_neg (fun h => hgt h.2), if_neg hgt]

/-! ## 4. Packed formats -/

theorem PackedFormat.fourcc_injective {f g : PackedFormat} (h : f.fourcc = g.fourcc) : f = g := by
  cases f <;> cases g <;> first | rfl | exact absurd h (by decide)

theorem PackedFormat.not_isPlanar (f : PackedFormat) : ¬ IsPlanar f.fourcc := by
  unfold IsPlanar
  cases f <;> decide

/-- The last byte of a row is read, and none behind it. -/
theorem PackedFormat.offsets_le (f : PackedFormat) (extensions : Bool) {x width : Nat}
    (hx : x < width) : ∀ o ∈ f.offsets extensions x, o ≤ f.lastOffset width := by
  have hmono : x / 2 ≤ (width - 1) / 2 := by omega
  cases f with
  | bgr24 =>
    cases extensions <;>
    · simp only [offsets, lastOffset, List.forall_mem_cons, List.not_mem_nil, false_imp_iff,
        implies_true, and_true, if_true, Bool.false_eq_true, if_false]
      omega
  | _ =>
    simp only [offsets, lastOffset, List.forall_mem_cons, List.not_mem_nil, false_imp_iff,
      implies_true, and_true]
    omega

theorem PackedFormat.lastOffset_mem (f : PackedFormat) (extensions : Bool) {width : Nat}
    (hwidth : 0 < width) : ∃ x < width, f.lastOffset width ∈ f.offsets extensions x := by
  refine ⟨width - 1, by omega, ?_⟩
  cases f with
  | bgr24 =>
    cases extensions <;>
    · simp only [offsets, lastOffset, List.mem_cons, List.not_mem_nil, or_false, if_true,
        Bool.false_eq_true, if_false]
      omega
  | yuyv => exact List.mem_cons_of_mem _ (List.mem_cons_of_mem _ List.mem_cons_self)
  | yvyu => exact List.mem_cons_of_mem _ List.mem_cons_self
  | grey => exact List.mem_cons_self
  | _ =>
    simp only [offsets, lastOffset, List.mem_cons, List.not_mem_nil, or_false]
    omega

theorem PackedFormat.pixel_isSome_iff (f : PackedFormat) (extensions : Bool) (start x : Nat) :
    (f.pixel extensions frame start x).isSome
      ↔ ∀ o ∈ f.offsets extensions x, start + o < frame.used := by
  rw [pixel, Option.isSome_map, readAll_isSome_iff]
  exact List.forall_mem_map

/-- **The reads of a packed frame**: all are in it if the last one is. -/
theorem packed_reads_iff (f : PackedFormat) (extensions : Bool) (hwidth : 0 < frame.width)
    (hheight : 0 < frame.height) (row : Nat) :
    (∀ y < frame.height, ∀ x < frame.width,
        (f.pixel extensions frame (y * row) x).isSome) ↔
      (frame.height - 1) * row + f.lastOffset frame.width < frame.used := by
  constructor
  · intro h
    obtain ⟨x, hx, hmem⟩ := f.lastOffset_mem extensions hwidth
    have hlast := h (frame.height - 1) (by omega) x hx
    exact (f.pixel_isSome_iff extensions _ x).mp hlast _ hmem
  · intro h y hy x hx
    refine (f.pixel_isSome_iff extensions _ x).mpr fun o ho => ?_
    have hle := f.offsets_le extensions hx o ho
    have hrows : y * row ≤ (frame.height - 1) * row := Nat.mul_le_mul_right row (by omega)
    omega

theorem packed_in_range_iff (h : CpuAccepted cap frame) (extensions : Bool) {f : PackedFormat}
    (hformat : frame.format = f.fourcc) : CpuInRange extensions frame ↔ PackedFits f frame := by
  obtain ⟨hwidth, hwidth', hheight, hheight', -⟩ := h.sizes
  have hlt := h.stride_lt
  have hbytes : bytesPerPixel frame.format = some f.bytes := by
    rw [hformat]
    exact f.bytesPerPixel_fourcc
  have hpos : 0 < f.bytes := by cases f <;> decide
  have hrowBytes : f.rowBytes frame.width ≤ frame.width * f.bytes := by
    cases f <;> simp only [PackedFormat.rowBytes, PackedFormat.bytes] <;> omega
  have hsmall : frame.width * f.bytes ≤ 15360 * 3 :=
    Nat.mul_le_mul hwidth' (by cases f <;> decide)
  -- the scanlines, once the padding is right
  have hscan : frame.stride ≤ frame.width ∨ frame.width * f.bytes ≤ frame.stride →
      ((cpuScanlines extensions frame).isSome ↔
        (frame.height - 1) * (f.rowBytes frame.width + paddingOf f.bytes frame)
          + f.lastOffset frame.width < frame.used) := by
    intro hfits
    have hrow : f.rowBytes frame.width + paddingOf f.bytes frame < 4294967296 := by
      unfold paddingOf
      split
      · omega
      · omega
    rw [cpuScanlines_packed f extensions hformat (usFrameGetPadding_eq hbytes hpos hlt hfits) hrow,
      Raster.raster_isSome_iff]
    exact packed_reads_iff f extensions hwidth hheight _
  constructor
  · intro hin
    have hfits : frame.stride ≤ frame.width ∨ frame.width * f.bytes ≤ frame.stride := by
      rcases Nat.lt_or_ge frame.width frame.stride with hgt | hle
      · exact .inr (hin.padding f.bytes hbytes hpos hgt)
      · exact .inl hle
    exact ⟨hfits, (hscan hfits).mp hin.reads⟩
  · intro hfits
    refine ⟨fun bytes hbytes' _ hgt => ?_, fun hplanar => ?_, (hscan hfits.stride).mpr hfits.last⟩
    · obtain rfl : f.bytes = bytes := Option.some.inj (hbytes.symm.trans hbytes')
      exact hfits.stride.resolve_left (Nat.not_le.mpr hgt)
    · rw [hformat] at hplanar
      exact absurd hplanar f.not_isPlanar

/-! ## 5. Planar formats -/

/-- The pointers before scanline `y`, with rows of `row` bytes. -/
def planarAt (frame : UsFrame) (order row y : Nat) : PlanarPos where
  data := y * row
  chroma1 := planarImageSize frame + (y - 1) / order * (row / order)
  chroma2 := planarImageSize frame + planarChromaArraySize frame + (y - 1) / order * (row / order)

theorem planarNext_planarAt {padding order row : Nat} (horder : order = 4 ∨ order = 2)
    (hrow : toUint (frame.width + padding) = row) (y : Nat) :
    planarNext frame padding order y (planarAt frame order row y)
      = planarAt frame order row (y + 1) := by
  unfold planarNext planarAt
  rw [hrow, Nat.add_sub_cancel, Nat.succ_mul]
  by_cases hnext : y > 0 ∧ y % order = 0
  · have hchroma : y / order = (y - 1) / order + 1 := by
      rcases horder with rfl | rfl <;> omega
    rw [if_pos hnext, hchroma, Nat.succ_mul]
    simp only [Nat.add_assoc]
  · have hchroma : y / order = (y - 1) / order := by
      rcases horder with rfl | rfl <;> omega
    rw [if_neg hnext, hchroma]

/-- **The loop over a planar frame** is a raster. -/
theorem jpegReadScanlinesYuvPlanar_eq {padding row : Nat}
    (hpadding : usFrameGetPadding frame.toFrameMeta = some padding)
    (hrow : toUint (frame.width + padding) = row) (hchroma : planarChromaArraySize frame ≠ 0) :
    jpegReadScanlinesYuvPlanar frame
      = Raster.raster (fun x y => planarComponents frame (planarChromaMatrixOrder frame)
          (planarAt frame (planarChromaMatrixOrder frame) row y) x) frame.width frame.height := by
  have horder : planarChromaMatrixOrder frame = 4 ∨ planarChromaMatrixOrder frame = 2 := by
    unfold planarChromaMatrixOrder
    split
    · exact .inl rfl
    · exact .inr rfl
  have hstart : planarAt frame (planarChromaMatrixOrder frame) row 0
      = ⟨0, planarImageSize frame, planarImageSize frame + planarChromaArraySize frame⟩ := by
    unfold planarAt
    rw [Nat.zero_mul, Nat.zero_sub, Nat.zero_div, Nat.zero_mul, Nat.add_zero, Nat.add_zero]
  rw [jpegReadScanlinesYuvPlanar, hpadding, Option.bind_some, if_neg hchroma, ← hstart]
  refine Raster.turns_raster (planarAt frame (planarChromaMatrixOrder frame) row) fun y => ?_
  rw [planarNext_planarAt horder hrow]

theorem planarComponents_isSome_iff (hformat : IsPlanar frame.format) (order : Nat)
    (pos : PlanarPos) (x : Nat) : (planarComponents frame order pos x).isSome ↔
      pos.data + x < frame.used ∧ pos.chroma1 + x / order < frame.used ∧
        pos.chroma2 + x / order < frame.used := by
  unfold planarComponents
  rcases hformat with h | h
  · rw [if_pos h, readAll_isSome_iff]
    simp only [List.forall_mem_cons, List.not_mem_nil, false_imp_iff, implies_true, and_true]
  · rw [h, if_neg (by decide), if_pos rfl, readAll_isSome_iff]
    simp only [List.forall_mem_cons, List.not_mem_nil, false_imp_iff, implies_true, and_true]
    exact and_congr_right fun _ => and_comm

/-- **The reads of a planar frame**: all are in it if the last one of the luma is, and the last one
of the second chroma plane. -/
theorem planar_reads_iff (hformat : IsPlanar frame.format) {order row : Nat}
    (hwidth : 0 < frame.width) (hheight : 0 < frame.height) :
    (∀ y < frame.height, ∀ x < frame.width,
        (planarComponents frame order (planarAt frame order row y) x).isSome) ↔
      (frame.height - 1) * row + (frame.width - 1) < frame.used ∧
        planarImageSize frame + planarChromaArraySize frame
          + (frame.height - 1 - 1) / order * (row / order) + (frame.width - 1) / order
            < frame.used := by
  constructor
  · intro h
    have hlast := h (frame.height - 1) (by omega) (frame.width - 1) (by omega)
    obtain ⟨hluma, -, hchroma⟩ := (planarComponents_isSome_iff hformat _ _ _).mp hlast
    exact ⟨hluma, hchroma⟩
  · rintro ⟨hluma, hchroma⟩ y hy x hx
    have hrows : y * row ≤ (frame.height - 1) * row := Nat.mul_le_mul_right row (by omega)
    have hplane : (y - 1) / order * (row / order)
        ≤ (frame.height - 1 - 1) / order * (row / order) :=
      Nat.mul_le_mul_right _ (Nat.div_le_div_right (by omega))
    have hcolumn : x / order ≤ (frame.width - 1) / order := Nat.div_le_div_right (by omega)
    refine (planarComponents_isSome_iff hformat _ _ _).mpr ⟨?_, ?_, ?_⟩
    · unfold planarAt
      dsimp only
      omega
    · unfold planarAt
      dsimp only
      omega
    · unfold planarAt
      dsimp only
      omega

theorem planarImageSize_eq (h : CpuAccepted cap frame) :
    planarImageSize frame = frame.width * frame.height := by
  obtain ⟨-, hwidth, -, hheight, -⟩ := h.sizes
  have hle : frame.width * frame.height ≤ 15360 * 8640 := Nat.mul_le_mul hwidth hheight
  exact toUint_of_lt (by omega)

theorem planarChromaArraySize_eq (h : CpuAccepted cap frame) :
    planarChromaArraySize frame = chromaLength frame := by
  have hlt := h.used_lt
  rw [planarChromaArraySize, planarImageSize_eq h]
  exact toUint_of_lt (by omega)

theorem planar_in_range_iff (h : CpuAccepted cap frame) (extensions : Bool)
    (hformat : IsPlanar frame.format) : CpuInRange extensions frame ↔ PlanarFits frame := by
  obtain ⟨hwidth, hwidth', hheight, -, -⟩ := h.sizes
  have hlt := h.stride_lt
  have hbytes : bytesPerPixel frame.format = some 1 := by
    rcases hformat with hf | hf
    · rw [hf]
      decide
    · rw [hf]
      decide
  have hfits : frame.stride ≤ frame.width ∨ frame.width * 1 ≤ frame.stride := by omega
  have hpadding := usFrameGetPadding_eq hbytes Nat.one_pos hlt hfits
  have hrow : toUint (frame.width + paddingOf 1 frame) = frame.width + paddingOf 1 frame := by
    refine toUint_of_lt ?_
    unfold paddingOf
    split
    · omega
    · omega
  have hscan : cpuScanlines extensions frame = jpegReadScanlinesYuvPlanar frame := by
    unfold cpuScanlines
    rcases hformat with hf | hf
    · rw [hf, if_neg (by decide), if_pos (by decide)]
    · rw [hf, if_neg (by decide), if_pos (by decide)]
  have himage := planarImageSize_eq h
  have hchroma := planarChromaArraySize_eq h
  have horder : planarChromaMatrixOrder frame = chromaOrder frame := by
    rw [planarChromaMatrixOrder, himage, hchroma, chromaOrder]
  -- the scanlines, once the divisor is not zero
  have hreads : chromaLength frame ≠ 0 → ((cpuScanlines extensions frame).isSome ↔
      (frame.height - 1) * (frame.width + paddingOf 1 frame) + (frame.width - 1) < frame.used ∧
        frame.width * frame.height + chromaLength frame
          + (frame.height - 1 - 1) / chromaOrder frame
            * ((frame.width + paddingOf 1 frame) / chromaOrder frame)
          + (frame.width - 1) / chromaOrder frame < frame.used) := by
    intro hne
    rw [hscan, jpegReadScanlinesYuvPlanar_eq hpadding hrow (hchroma.symm ▸ hne),
      Raster.raster_isSome_iff, planar_reads_iff hformat hwidth hheight, horder, himage, hchroma]
  have hlength : chromaLength frame ≠ 0 ↔ frame.width * frame.height + 2 ≤ frame.used := by
    unfold chromaLength
    omega
  constructor
  · intro hin
    obtain ⟨-, hne⟩ := hin.planar hformat
    rw [hchroma] at hne
    obtain ⟨hluma, hlast⟩ := (hreads hne).mp hin.reads
    exact ⟨hlength.mp hne, hluma, hlast⟩
  · intro hfit
    have hne := hlength.mpr hfit.chroma
    refine ⟨fun bytes hbytes' _ hgt => ?_, fun _ => ⟨?_, ?_⟩,
      (hreads hne).mpr ⟨hfit.lastLuma, hfit.lastChroma⟩⟩
    · obtain rfl : 1 = bytes := Option.some.inj (hbytes.symm.trans hbytes')
      omega
    · have hle := hfit.chroma
      rw [himage]
      omega
    · rw [hchroma]
      exact hne

/-! ## 6. The result -/

/-- **When the arithmetic is in range**, for every frame that is accepted. -/
theorem cpu_in_range_iff (h : CpuAccepted cap frame) (extensions : Bool) :
    CpuInRange extensions frame ↔ CpuFits frame := by
  rcases h.format with ⟨f, hformat⟩ | hplanar
  · rw [packed_in_range_iff h extensions hformat]
    constructor
    · intro hfits
      refine ⟨fun g hg => ?_, fun hplanar => ?_⟩
      · rw [← PackedFormat.fourcc_injective (hformat.symm.trans hg)]
        exact hfits
      · rw [hformat] at hplanar
        exact absurd hplanar f.not_isPlanar
    · intro hfits
      exact hfits.packed f hformat
  · rw [planar_in_range_iff h extensions hplanar]
    constructor
    · intro hfits
      refine ⟨fun f hformat => ?_, fun _ => hfits⟩
      rw [hformat] at hplanar
      exact absurd hplanar f.not_isPlanar
    · intro hfits
      exact hfits.planar hplanar

end

/-- A capture device without a check of its own. -/
def anyCapture (format : Nat) : UsCapture where
  width := 2
  height := 2
  format := format
  formatSwapRgb := false
  standard := 0
  ioMethod := .mmap
  dvTimings := false
  persistent := false
  nBufs := 1
  dmaExport := false
  dmaRequired := false
  minFrameSize := 1
  allowTruncatedFrames := false
  run :=
    { fd := 3
      width := 2
      height := 2
      format := format
      stride := 0
      hz := 0
      rawSize := 16
      nBufs := 1
      bufs := [UsCaptureHwbuf.zero]
      dma := false
      captureMplane := false
      streamon := true }

/-- A picture of 2 by 2 pixels, of a format, with a stride, and of so many zero bytes. -/
def squareFrame (format stride length : Nat) : UsFrame :=
  UsFrame.ofBytes { FrameMeta.zero with
    width := 2, height := 2, format := format, stride := stride } (List.replicate length 0)

theorem squareFrame_accepted {format stride length : Nat}
    (hformat : (∃ f : PackedFormat, format = f.fourcc) ∨ IsPlanar format)
    (hjpeg : usIsJpeg format = false) (hlength : 1 ≤ length) (hstride : stride < 4294967296)
    (hlt : length < 4294967296) :
    CpuAccepted (anyCapture format) (squareFrame format stride length) := by
  have hused : (squareFrame format stride length).used = length := List.length_replicate
  have hforbidden :
      ¬ ((2 : Nat) = 0 ∨ 2 > usVideoMaxWidth ∨ (2 : Nat) = 0 ∨ 2 > usVideoMaxHeight) := by
    decide
  refine ⟨hformat, ⟨anyCapture format, 0, congrArg Prod.fst (if_neg hforbidden)⟩,
    Nat.le_refl 1, ?_, hstride, ?_⟩
  · have hshort : ¬ length < (anyCapture format).minFrameSize := Nat.not_lt.mpr hlength
    have hraw : ¬ usIsJpeg (anyCapture format).run.format = true := by
      rw [show (anyCapture format).run.format = format from rfl, hjpeg]
      decide
    unfold captureIsBufferValid
    dsimp only
    rw [hused, if_neg hshort, if_neg hraw]
  · rw [hused]
    exact hlt

theorem cpu_in_range_square :
    CpuInRange false (squareFrame v4l2PixFmtYuv420 2 6) ↔
      CpuFits (squareFrame v4l2PixFmtYuv420 2 6) :=
  cpu_in_range_iff (squareFrame_accepted (.inr (.inl rfl)) (by decide) (by decide) (by decide)
    (by decide)) false

/-- **Where it is not in range**: a YUYV stride of one pixel and a half, a planar frame without
chroma, one that ends in its luma plane, and a grey frame that is a byte short. -/
theorem cpu_out_of_range :
    (CpuAccepted (anyCapture v4l2PixFmtYuyv) (squareFrame v4l2PixFmtYuyv 3 16) ∧
        ¬ CpuInRange false (squareFrame v4l2PixFmtYuyv 3 16)) ∧
      (CpuAccepted (anyCapture v4l2PixFmtYuv420) (squareFrame v4l2PixFmtYuv420 2 4) ∧
        planarChromaArraySize (squareFrame v4l2PixFmtYuv420 2 4) = 0 ∧
        ¬ CpuInRange false (squareFrame v4l2PixFmtYuv420 2 4)) ∧
      (CpuAccepted (anyCapture v4l2PixFmtYuv420) (squareFrame v4l2PixFmtYuv420 2 3) ∧
        ¬ CpuInRange false (squareFrame v4l2PixFmtYuv420 2 3)) ∧
      (CpuAccepted (anyCapture v4l2PixFmtGrey) (squareFrame v4l2PixFmtGrey 2 3) ∧
        ¬ CpuInRange false (squareFrame v4l2PixFmtGrey 2 3)) := by
  have hplanar : ∀ length, 1 ≤ length → length < 4294967296 →
      CpuAccepted (anyCapture v4l2PixFmtYuv420) (squareFrame v4l2PixFmtYuv420 2 length) :=
    fun length hpos hlt =>
      squareFrame_accepted (.inr (.inl rfl)) (by decide) hpos (by decide) hlt
  refine ⟨⟨?_, fun h => ?_⟩, ⟨hplanar 4 (by decide) (by decide), by decide, fun h => ?_⟩,
    ⟨hplanar 3 (by decide) (by decide), fun h => ?_⟩, ?_, fun h => ?_⟩
  · exact squareFrame_accepted (.inl ⟨.yuyv, rfl⟩) (by decide) (by decide) (by decide) (by decide)
  · exact absurd (h.padding 2 (by decide) (by decide) (by decide)) (by decide)
  · exact (h.planar (.inl rfl)).2 (by decide)
  · exact absurd (h.planar (.inl rfl)).1 (by decide)
  · exact squareFrame_accepted (.inl ⟨.grey, rfl⟩) (by decide) (by decide) (by decide) (by decide)
  · exact absurd h.reads (by decide +kernel)

end TinyPilotKvm
