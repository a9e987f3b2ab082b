/-
# Planar pictures in the CPU encoder (`ustreamer/encoders/cpu/encoder.c`)

`_jpeg_write_scanlines_yuv_planar` feeds a YUV420 or YVU420 picture to libjpeg, three bytes for each
pixel.  It walks three pointers, one for each plane.  Two things are wrong with the two for the
chroma planes:

* they start at `width * height`, the end of the luma plane only if its rows are not padded;
* they go on to the next row after a scanline `y > 0` with `y` even, so one scanline late: the
  scanlines 2, 4, 6, .. still get the chroma row before theirs.

`planar_samples_right_iff` says what is left: pictures of two rows, and contents for which it makes
no difference.
-/
import Mathlib.Algebra.Group.Nat.Even
import Mathlib.Tactic.Ring
import TinyPilotKvm.Libs.Frame
import TinyPilotKvm.Libs.Tools

namespace TinyPilotKvm

/-! ## 1. The code -/

/-- A pixel as it is written to `line_buf`. -/
structure YuvPixel where
  y : UInt8
  u : UInt8
  v : UInt8
  deriving DecidableEq

/-- `data`, `chroma1_data` and `chroma2_data`, as offsets from `frame->data`. -/
structure PlanarPos where
  data : Nat
  chroma1 : Nat
  chroma2 : Nat

/-- The body of the loop over a scanline.  `none`: the assertion on the format fails. -/
def planarPixel (frame : UsFrame) (order : Nat) (pos : PlanarPos) (x : Nat) : Option YuvPixel :=
  let y := frame.data.getD (pos.data + x) 0
  let chroma1 := frame.data.getD (pos.chroma1 + x / order) 0
  let chroma2 := frame.data.getD (pos.chroma2 + x / order) 0
  if frame.format = v4l2PixFmtYuv420 then some ⟨y, chroma1, chroma2⟩
  else if frame.format = v4l2PixFmtYvu420 then some ⟨y, chroma2, chroma1⟩
  else none

/-- The pointers after a scanline, before libjpeg counts it. -/
def planarNext (frame : UsFrame) (padding order nextScanline : Nat) (pos : PlanarPos) :
    PlanarPos :=
  let rowSize := toUint (frame.width + padding)
  let pos := { pos with data := pos.data + rowSize }
  if nextScanline > 0 ∧ nextScanline % order = 0 then
    { pos with
      chroma1 := pos.chroma1 + rowSize / order
      chroma2 := pos.chroma2 + rowSize / order }
  else pos

/-- The loop over `left` scanlines, from `nextScanline` on. -/
def planarLoop (frame : UsFrame) (padding order : Nat) :
    Nat → Nat → PlanarPos → List (List (Option YuvPixel))
  | 0, _, _ => []
  | left + 1, nextScanline, pos =>
    (List.range frame.width).map (planarPixel frame order pos)
      :: planarLoop frame padding order left (nextScanline + 1)
          (planarNext frame padding order nextScanline pos)

def planarImageSize (frame : UsFrame) : Nat := toUint (frame.width * frame.height)

/-- Where `used` is less than the luma plane the difference of the source wraps.  Here it is zero,
and the picture ends in the division by it; `CpuInRange` has that case by itself. -/
def planarChromaArraySize (frame : UsFrame) : Nat :=
  toUint ((frame.used - planarImageSize frame) / 2)

def planarChromaMatrixOrder (frame : UsFrame) : Nat :=
  if planarImageSize frame / planarChromaArraySize frame = 16 then 4 else 2

/-- `_jpeg_write_scanlines_yuv_planar`: the scanlines that libjpeg is given.  `none`: an assertion
fails, or the process is killed by a division by zero. -/
def jpegWriteScanlinesYuvPlanar (frame : UsFrame) : Option (List (List (Option YuvPixel))) :=
  match usFrameGetPadding frame.toFrameMeta with
  | none => none
  | some padding =>
    if planarChromaArraySize frame = 0 then none
    else some (planarLoop frame padding (planarChromaMatrixOrder frame) frame.height 0
      ⟨0, planarImageSize frame, planarImageSize frame + planarChromaArraySize frame⟩)

/-- The triple that libjpeg gets for a pixel. -/
def fedPixel (frame : UsFrame) (x y : Nat) : Option YuvPixel :=
  (jpegWriteScanlinesYuvPlanar frame).bind fun rows =>
    rows[y]?.bind fun row => row[x]?.bind id

/-! ## 2. The layout -/

/-- The sizes of planar pictures; they are `uint`s. -/
structure PlanarGeometry (info : FrameMeta) : Prop where
  format : info.format = v4l2PixFmtYuv420 ∨ info.format = v4l2PixFmtYvu420
  width_even : 2 ∣ info.width
  height_even : 2 ∣ info.height
  stride_even : 2 ∣ info.stride
  width_le : info.width ≤ info.stride
  stride_lt : info.stride < 4294967296
  height_lt : info.height < 4294967296

/-- A planar picture in the layout of V4L2, of any content. -/
structure PlanarLayout (frame : UsFrame) : Prop extends PlanarGeometry frame.toFrameMeta where
  used_eq : frame.used
    = frame.stride * frame.height + 2 * (frame.stride / 2 * (frame.height / 2))

/-- The byte of a chroma plane that belongs to a pixel; the planes are numbered 0 and 1. -/
def chromaByte (frame : UsFrame) (plane x y : Nat) : UInt8 :=
  frame.data.getD (frame.stride * frame.height + plane * (frame.stride / 2 * (frame.height / 2))
    + y / 2 * (frame.stride / 2) + x / 2) 0

/-- **The pixel** at column `x` and row `y`. -/
def planarPicture (frame : UsFrame) (x y : Nat) : YuvPixel :=
  let luma := frame.data.getD (y * frame.stride + x) 0
  if frame.format = v4l2PixFmtYuv420 then
    ⟨luma, chromaByte frame 0 x y, chromaByte frame 1 x y⟩
  else ⟨luma, chromaByte frame 1 x y, chromaByte frame 0 x y⟩

/-- libjpeg gets the picture. -/
def SamplesRight (frame : UsFrame) : Prop :=
  ∀ x y, x < frame.width → y < frame.height →
    fedPixel frame x y = some (planarPicture frame x y)

/-! ## 3. What is fed -/

/-- The chroma byte that is fed instead: the plane begins elsewhere, and the row is late. -/
def lateChromaByte (frame : UsFrame) (plane x y : Nat) : UInt8 :=
  frame.data.getD (frame.width * frame.height
    + plane * ((frame.used - frame.width * frame.height) / 2)
    + (y - 1) / 2 * (frame.stride / 2) + x / 2) 0

/-- The pointers before scanline `y`, if a chroma sample is for two rows. -/
def planarPos (frame : UsFrame) (y : Nat) : PlanarPos where
  data := y * frame.stride
  chroma1 := planarImageSize frame + (y - 1) / 2 * (frame.stride / 2)
  chroma2 := planarImageSize frame + planarChromaArraySize frame
    + (y - 1) / 2 * (frame.stride / 2)

theorem planarNext_planarPos {frame : UsFrame} {padding : Nat}
    (hrow : toUint (frame.width + padding) = frame.stride) (y : Nat) :
    planarNext frame padding 2 y (planarPos frame y) = planarPos frame (y + 1) := by
  unfold planarNext planarPos
  rw [hrow]
  have hdata : y * frame.stride + frame.stride = (y + 1) * frame.stride := by ring
  rcases Nat.even_or_odd' y with ⟨k, rfl | rfl⟩
  · rcases Nat.eq_zero_or_pos k with rfl | hk
    · simp
    · have hlate : (2 * k - 1) / 2 = k - 1 := by omega
      have hnext : (2 * k + 1 - 1) / 2 = k := by omega
      obtain ⟨j, rfl⟩ : ∃ j, k = j + 1 := ⟨k - 1, by omega⟩
      rw [if_pos ⟨by omega, by omega⟩, hlate, hnext]
      simp only [hdata, PlanarPos.mk.injEq, true_and, Nat.add_sub_cancel]
      constructor <;> ring
  · have hlate : (2 * k + 1 - 1) / 2 = k := by omega
    have hnext : (2 * k + 1 + 1 - 1) / 2 = k := by omega
    rw [if_neg (by omega), hlate, hnext, hdata]

/-- **The loop**, row by row. -/
theorem planarLoop_getElem? {frame : UsFrame} {padding : Nat}
    (hrow : toUint (frame.width + padding) = frame.stride) : ∀ (left y i : Nat), i < left →
    (planarLoop frame padding 2 left y (planarPos frame y))[i]? =
      some ((List.range frame.width).map (planarPixel frame 2 (planarPos frame (y + i))))
  | left + 1, y, 0, _ => by
    rw [planarLoop]
    rfl
  | left + 1, y, i + 1, hi => by
    rw [planarLoop, planarNext_planarPos hrow, List.getElem?_cons_succ,
      planarLoop_getElem? hrow left (y + 1) i (by omega), Nat.add_right_comm, Nat.add_assoc]

theorem rowSize_eq {frame : UsFrame} (h : PlanarLayout frame) :
    ∃ padding, usFrameGetPadding frame.toFrameMeta = some padding ∧
      toUint (frame.width + padding) = frame.stride := by
  have hbytes : bytesPerPixel frame.format = some 1 := by
    unfold bytesPerPixel
    rcases h.format with hf | hf
    · exact if_pos (Or.inl hf)
    · exact if_pos (Or.inr (Or.inl hf))
  have hle := h.width_le
  have hlt := h.stride_lt
  rw [usFrameGetPadding, hbytes, Option.map_some]
  refine ⟨_, rfl, ?_⟩
  unfold toUint
  split <;> omega

/-- The sizes of the planes in terms of the halves of the three lengths. -/
theorem planarSizes {frame : UsFrame} (h : PlanarLayout frame) :
    ∃ luma shown, frame.stride * frame.height = 4 * luma ∧ frame.width * frame.height = 4 * shown ∧
      frame.stride / 2 * (frame.height / 2) = luma ∧ frame.used = 6 * luma ∧ shown ≤ luma := by
  obtain ⟨c, hc⟩ := h.width_even
  obtain ⟨b, hb⟩ := h.height_even
  obtain ⟨a, ha⟩ := h.stride_even
  have hle := h.width_le
  have hplane : frame.stride / 2 * (frame.height / 2) = a * b := by
    rw [ha, hb, Nat.mul_div_cancel_left _ Nat.two_pos, Nat.mul_div_cancel_left _ Nat.two_pos]
  have hluma : frame.stride * frame.height = 4 * (a * b) := by
    rw [ha, hb]
    ring
  refine ⟨a * b, c * b, hluma, ?_, hplane, ?_, ?_⟩
  · rw [hc, hb]
    ring
  · rw [h.used_eq, hplane, hluma]
    ring
  · exact Nat.mul_le_mul_right b (by omega)

/-- A chroma sample is taken for four pixels. -/
theorem planarChromaMatrixOrder_eq {frame : UsFrame} (h : PlanarLayout frame)
    (himage : frame.width * frame.height < 4294967296)
    (hchroma : (frame.used - frame.width * frame.height) / 2 < 4294967296) :
    planarChromaMatrixOrder frame = 2 := by
  obtain ⟨luma, shown, -, hshown, -, hused, hle⟩ := planarSizes h
  unfold planarChromaMatrixOrder planarChromaArraySize planarImageSize toUint
  rw [Nat.mod_eq_of_lt himage, Nat.mod_eq_of_lt hchroma, hused, hshown]
  refine if_neg fun heq => ?_
  have hdiv := Nat.div_mul_le_self (4 * shown) ((6 * luma - 4 * shown) / 2)
  have hpos : 0 < (6 * luma - 4 * shown) / 2 := by
    rcases Nat.eq_zero_or_pos ((6 * luma - 4 * shown) / 2) with hz | hpos
    · rw [hz, Nat.div_zero] at heq
      omega
    · exact hpos
  rw [heq] at hdiv
  omega

/-- **What is fed**, if no product is too large for a `uint`. -/
theorem fedPixel_eq {frame : UsFrame} (h : PlanarLayout frame)
    (himage : frame.width * frame.height < 4294967296)
    (hchroma : (frame.used - frame.width * frame.height) / 2 < 4294967296) {x y : Nat}
    (hx : x < frame.width) (hy : y < frame.height) :
    fedPixel frame x y = planarPixel frame 2 (planarPos frame y) x := by
  obtain ⟨padding, hpadding, hrow⟩ := rowSize_eq h
  obtain ⟨luma, shown, -, hshown, -, hused, hle⟩ := planarSizes h
  have hpos : 0 < frame.width * frame.height := Nat.mul_pos (by omega) (by omega)
  have hne : planarChromaArraySize frame ≠ 0 := by
    unfold planarChromaArraySize planarImageSize toUint
    rw [Nat.mod_eq_of_lt himage, Nat.mod_eq_of_lt hchroma]
    omega
  have hstart : (⟨0, planarImageSize frame, planarImageSize frame + planarChromaArraySize frame⟩ :
      PlanarPos) = planarPos frame 0 := by
    simp [planarPos]
  unfold fedPixel jpegWriteScanlinesYuvPlanar
  simp only [hpadding, if_neg hne, planarChromaMatrixOrder_eq h himage hchroma, hstart,
    Option.bind_some, planarLoop_getElem? hrow frame.height 0 y hy, Nat.zero_add]
  rw [List.getElem?_map, List.getElem?_range hx]
  rfl

/-- The pixel is right exactly if its two chroma bytes are. -/
theorem fedPixel_eq_picture_iff {frame : UsFrame} (h : PlanarLayout frame)
    (himage : frame.width * frame.height < 4294967296)
    (hchroma : (frame.used - frame.width * frame.height) / 2 < 4294967296) {x y : Nat}
    (hx : x < frame.width) (hy : y < frame.height) :
    fedPixel frame x y = some (planarPicture frame x y) ↔
      lateChromaByte frame 0 x y = chromaByte frame 0 x y ∧
        lateChromaByte frame 1 x y = chromaByte frame 1 x y := by
  have hsize : planarImageSize frame = frame.width * frame.height := Nat.mod_eq_of_lt himage
  have harray : planarChromaArraySize frame = (frame.used - frame.width * frame.height) / 2 := by
    rw [planarChromaArraySize, hsize]
    exact Nat.mod_eq_of_lt hchroma
  have h0 : frame.data.getD ((planarPos frame y).chroma1 + x / 2) 0
      = lateChromaByte frame 0 x y := by
    rw [lateChromaByte, planarPos, hsize, Nat.zero_mul, Nat.add_zero]
  have h1 : frame.data.getD ((planarPos frame y).chroma2 + x / 2) 0
      = lateChromaByte frame 1 x y := by
    rw [lateChromaByte, planarPos, hsize, harray, Nat.one_mul]
  rw [fedPixel_eq h himage hchroma hx hy]
  unfold planarPixel planarPicture
  simp only [h0, h1]
  rcases h.format with hf | hf
  · rw [if_pos hf, if_pos hf, Option.some.injEq, YuvPixel.mk.injEq]
    exact and_iff_right rfl
  · have hne : frame.format ≠ v4l2PixFmtYuv420 := by
      rw [hf]
      decide
    rw [if_neg hne, if_pos hf, if_neg hne, Option.some.injEq, YuvPixel.mk.injEq]
    exact (and_iff_right rfl).trans and_comm

/-! ## 4. Which pictures come out right -/

/-- Where nothing is late and the planes begin where they are taken to. -/
theorem lateChromaByte_eq {frame : UsFrame} (h : PlanarLayout frame)
    (hstride : frame.stride = frame.width) (hheight : frame.height = 2) {plane x y : Nat}
    (hy : y < frame.height) :
    lateChromaByte frame plane x y = chromaByte frame plane x y := by
  obtain ⟨luma, shown, hluma, hshown, hchroma, hused, -⟩ := planarSizes h
  have heq : luma = shown := by
    rw [hstride] at hluma
    omega
  have hrow : (y - 1) / 2 = y / 2 := by omega
  unfold lateChromaByte chromaByte
  rw [hrow, hchroma, hluma, hused, hshown, ← heq]
  congr 5
  omega

/-- A picture of zeros with a one at `i`. -/
def dotBytes (size i : Nat) : List UInt8 := (List.replicate size 0).set i 1

theorem getD_dotBytes {size i : Nat} (hi : i < size) (j : Nat) :
    (dotBytes size i).getD j 0 = if j = i then 1 else 0 := by
  unfold dotBytes
  rw [List.getD_eq_getElem?_getD]
  by_cases hj : j = i
  · rw [hj, if_pos rfl, List.getElem?_set_self (by simpa using hi)]
    rfl
  · rw [if_neg hj, List.getElem?_set_ne (Ne.symm hj), List.getElem?_replicate]
    split <;> rfl

/-- That picture, with any sizes. -/
def dotFrame (info : FrameMeta) (i : Nat) : UsFrame :=
  UsFrame.ofBytes info (dotBytes
    (info.stride * info.height + 2 * (info.stride / 2 * (info.height / 2))) i)

theorem dotFrame_layout {info : FrameMeta} (h : PlanarGeometry info) (i : Nat) :
    PlanarLayout (dotFrame info i) where
  toPlanarGeometry := h
  used_eq := by simp [dotFrame, UsFrame.ofBytes, dotBytes]

/-- The first chroma byte of the picture at row `y`. -/
theorem chromaByte_dotFrame {info : FrameMeta} {y : Nat}
    (hi : info.stride * info.height + y / 2 * (info.stride / 2)
      < info.stride * info.height + 2 * (info.stride / 2 * (info.height / 2))) :
    chromaByte (dotFrame info (info.stride * info.height + y / 2 * (info.stride / 2))) 0 0 y
      = 1 := by
  unfold chromaByte
  show (dotBytes _ _).getD (info.stride * info.height + 0 * _ + y / 2 * (info.stride / 2) + 0 / 2) 0
    = 1
  rw [getD_dotBytes hi]
  simp

/-- The pixel in the corner, whatever its sizes. -/
theorem fedPixel_first {frame : UsFrame} {p : YuvPixel} (hw : 0 < frame.width)
    (hh : 0 < frame.height) (h : fedPixel frame 0 0 = some p) :
    ∃ order chroma2, planarPixel frame order ⟨0, planarImageSize frame, chroma2⟩ 0 = some p := by
  obtain ⟨rows, hrows, hpixel⟩ := Option.bind_eq_some_iff.mp h
  unfold jpegWriteScanlinesYuvPlanar at hrows
  split at hrows
  · exact absurd hrows (by simp)
  · split at hrows
    · exact absurd hrows (by simp)
    · obtain rfl := Option.some.inj hrows
      obtain ⟨n, hn⟩ := Nat.exists_eq_succ_of_ne_zero (Nat.ne_of_gt hh)
      rw [hn, planarLoop, List.getElem?_cons_zero, Option.bind_some, List.getElem?_map,
        List.getElem?_range hw] at hpixel
      exact ⟨_, _, hpixel⟩

/-- A pixel whose first chroma byte is wrong. -/
theorem planarPixel_ne_picture {frame : UsFrame} (h : PlanarLayout frame) {order x y : Nat}
    {pos : PlanarPos}
    (hne : frame.data.getD (pos.chroma1 + x / order) 0 ≠ chromaByte frame 0 x y) :
    planarPixel frame order pos x ≠ some (planarPicture frame x y) := by
  unfold planarPixel planarPicture
  intro heq
  rcases h.format with hf | hf
  · rw [if_pos hf, if_pos hf, Option.some.injEq, YuvPixel.mk.injEq] at heq
    exact hne heq.2.1
  · have hne' : frame.format ≠ v4l2PixFmtYuv420 := by
      rw [hf]
      decide
    rw [if_neg hne', if_pos hf, if_neg hne', Option.some.injEq, YuvPixel.mk.injEq] at heq
    exact hne heq.2.2

/-- **The first pixel** is wrong where the first chroma plane is not at `width * height`. -/
theorem fedPixel_first_ne {info : FrameMeta} (h : PlanarGeometry info) (hw : 0 < info.width)
    (hh : 0 < info.height) (hbase : toUint (info.width * info.height) ≠ info.stride * info.height) :
    ¬ SamplesRight (dotFrame info (info.stride * info.height + 0 / 2 * (info.stride / 2))) := by
  have hlayout := dotFrame_layout h (info.stride * info.height + 0 / 2 * (info.stride / 2))
  have hstride : 0 < info.stride / 2 := by
    have := h.width_le
    have := h.width_even
    omega
  have hheight : 0 < info.height / 2 := by
    have := h.height_even
    omega
  have hroom := Nat.mul_pos hstride hheight
  have hdot : chromaByte (dotFrame info _) 0 0 0 = 1 := chromaByte_dotFrame (by omega)
  intro hright
  obtain ⟨order, chroma2, hpixel⟩ := fedPixel_first hw hh (hright 0 0 hw hh)
  refine planarPixel_ne_picture hlayout ?_ hpixel
  rw [hdot]
  show (dotBytes _ _).getD (toUint (info.width * info.height) + 0 / order) 0 ≠ 1
  rw [getD_dotBytes (by omega), if_neg (by simpa using hbase)]
  decide

/-- **The third row** still has the chroma of the first. -/
theorem fedPixel_third_row_ne {info : FrameMeta} (h : PlanarGeometry info) (hw : 0 < info.width)
    (hstride : info.stride = info.width) (hh : 2 < info.height)
    (hsize : info.width * info.height < 4294967296) :
    ¬ SamplesRight (dotFrame info (info.stride * info.height + 2 / 2 * (info.stride / 2))) := by
  have hlayout := dotFrame_layout h (info.stride * info.height + 2 / 2 * (info.stride / 2))
  obtain ⟨luma, shown, hluma, hshown, hchroma, hused, hle⟩ := planarSizes hlayout
  have heq : shown = luma := by
    have hsame : info.stride * info.height = info.width * info.height := by rw [hstride]
    have h1 : info.stride * info.height = 4 * luma := hluma
    have h2 : info.width * info.height = 4 * shown := hshown
    omega
  have hhalf : 0 < info.stride / 2 := by
    have := h.width_even
    omega
  have hroom : info.stride / 2 < info.stride / 2 * (info.height / 2) := by
    have hrows : 1 < info.height / 2 := by
      have := h.height_even
      omega
    exact (Nat.lt_mul_iff_one_lt_right hhalf).mpr hrows
  have hdot : chromaByte (dotFrame info _) 0 0 2 = 1 := chromaByte_dotFrame (by omega)
  intro hright
  have hpixel := (fedPixel_eq_picture_iff hlayout hsize (by
    have h2 : info.width * info.height = 4 * shown := hshown
    rw [hused, hshown]
    omega) hw hh).mp (hright 0 2 hw hh)
  have hlate := hpixel.1
  rw [hdot] at hlate
  unfold lateChromaByte at hlate
  change (dotBytes _ _).getD (info.width * info.height + 0 * _ + (2 - 1) / 2 * _ + 0 / 2) 0 = 1
    at hlate
  rw [getD_dotBytes (by omega), if_neg] at hlate
  · exact absurd hlate (by decide)
  · rw [← hstride]
    omega

/-- **When the picture is right**: for every content if there are no pixels, or no padding and just
two rows (and their luma fits a `uint`); and of the other pictures just the contents for which
the chroma bytes that are taken are the ones that belong there. -/
theorem planar_samples_right_iff {info : FrameMeta} (h : PlanarGeometry info) :
    ((∀ frame : UsFrame, frame.toFrameMeta = info → PlanarLayout frame → SamplesRight frame) ↔
      info.width = 0 ∨ info.height = 0 ∨
        (info.stride = info.width ∧ info.height = 2 ∧ info.width * 2 < 4294967296)) ∧
    ∀ frame : UsFrame, frame.toFrameMeta = info → PlanarLayout frame → frame.used < 4294967296 →
      (SamplesRight frame ↔ ∀ x y, x < info.width → y < info.height →
        lateChromaByte frame 0 x y = chromaByte frame 0 x y ∧
          lateChromaByte frame 1 x y = chromaByte frame 1 x y) := by
  refine ⟨⟨fun hall => ?_, ?_⟩, ?_⟩
  · by_contra hcond
    rw [not_or, not_or] at hcond
    obtain ⟨hw, hh, hcond⟩ := hcond
    have hw' : 0 < info.width := Nat.pos_of_ne_zero hw
    have hh' : 0 < info.height := Nat.pos_of_ne_zero hh
    by_cases hbase : toUint (info.width * info.height) = info.stride * info.height
    · have hle := Nat.mul_le_mul_right info.height h.width_le
      have hmod := Nat.mod_le (info.width * info.height) 4294967296
      have hlt := Nat.mod_lt (info.width * info.height) (show 0 < 4294967296 by decide)
      unfold toUint at hbase
      have hsame : info.width * info.height = info.stride * info.height := by omega
      have hstride := (Nat.eq_of_mul_eq_mul_right hh' hsame).symm
      have htwo : info.height ≠ 2 := by
        intro htwo
        rw [htwo] at hsame hbase hlt
        exact hcond ⟨hstride, htwo, by omega⟩
      have heven := h.height_even
      exact fedPixel_third_row_ne h hw' hstride (by omega) (by omega)
        (hall _ rfl (dotFrame_layout h _))
    · exact fedPixel_first_ne h hw' hh' hbase (hall _ rfl (dotFrame_layout h _))
  · rintro (hw | hh | ⟨hstride, hh, hsize⟩) frame rfl hlayout x y hx hy
    · omega
    · omega
    · obtain ⟨luma, shown, hluma, hshown, hchroma, hused, hle⟩ := planarSizes hlayout
      have himage : frame.width * frame.height < 4294967296 := by
        rw [hh]
        exact hsize
      have heq : luma = shown := by
        rw [hstride] at hluma
        omega
      exact (fedPixel_eq_picture_iff hlayout himage (by omega) hx hy).mpr
        ⟨lateChromaByte_eq hlayout hstride hh hy, lateChromaByte_eq hlayout hstride hh hy⟩
  · rintro frame rfl hlayout hused
    obtain ⟨luma, shown, hluma, hshown, hchroma, hsize, hle⟩ := planarSizes hlayout
    unfold SamplesRight
    refine forall_congr' fun x => forall_congr' fun y => forall_congr' fun hx =>
      forall_congr' fun hy => fedPixel_eq_picture_iff hlayout (by omega) (by omega) hx hy

/-- A picture of two columns without padding. -/
def narrowInfo (height : Nat) : FrameMeta :=
  { FrameMeta.zero with width := 2, height := height, format := v4l2PixFmtYuv420, stride := 2 }

theorem narrowInfo_geometry {height : Nat} (heven : 2 ∣ height) (hlt : height < 4294967296) :
    PlanarGeometry (narrowInfo height) :=
  ⟨Or.inl rfl, Nat.dvd_refl 2, heven, Nat.dvd_refl 2, Nat.le_refl 2,
    (by decide : 2 < 4294967296), hlt⟩

/-- Two rows: the chroma planes have one byte each. -/
def twoRows : UsFrame := UsFrame.ofBytes (narrowInfo 2) [0, 0, 0, 0, 10, 30]

theorem two_rows_are_right : PlanarLayout twoRows ∧ SamplesRight twoRows := by
  have hlayout : PlanarLayout twoRows := ⟨narrowInfo_geometry (by decide) (by decide), rfl⟩
  exact ⟨hlayout, (planar_samples_right_iff (narrowInfo_geometry (by decide) (by decide))).1.mpr
    (Or.inr (Or.inr (by decide))) twoRows rfl hlayout⟩

/-- Four rows: the chroma planes have two bytes each, one for every two rows. -/
def fourRows : UsFrame :=
  UsFrame.ofBytes (narrowInfo 4) [0, 0, 0, 0, 0, 0, 0, 0, 10, 20, 30, 40]

/-- The third row gets the chroma of the first two. -/
theorem third_row_is_late : PlanarLayout fourRows ∧
    fedPixel fourRows 0 2 = some ⟨0, 10, 30⟩ ∧ planarPicture fourRows 0 2 = ⟨0, 20, 40⟩ ∧
    ¬ SamplesRight fourRows := by
  have hfed : fedPixel fourRows 0 2 = some ⟨0, 10, 30⟩ := by decide +kernel
  have hpicture : planarPicture fourRows 0 2 = ⟨0, 20, 40⟩ := by decide +kernel
  refine ⟨⟨narrowInfo_geometry (by decide) (by decide), by decide⟩, hfed, hpicture, fun h => ?_⟩
  have hright := h 0 2 (by decide) (by decide)
  rw [hfed, hpicture] at hright
  exact absurd hright (by decide)

end TinyPilotKvm
