/-
# Scanlines of the CPU encoder (`ustreamer/encoders/cpu/encoder.c`)

Each of the functions `_jpeg_write_scanlines_*` walks a pointer over the frame, pixel by pixel and
row by row, and feeds libjpeg with the components that it reads there.  The formats differ in what
is read at the pointer, in how far it moves after a pixel, and in how far after a row.

A read at or behind `used` is no read here (`readAt`), whatever the memory holds.  So a result of
a function says that it stays in the frame, and by `cpuScanlines_packed` it is a raster: the
pixel at a column and a row is decoded from bytes at fixed offsets.
-/
import TinyPilotKvm.Raster
import TinyPilotKvm.Ustreamer.Encoders.Cpu

namespace TinyPilotKvm

/-! ## 1. The code -/

namespace UsFrame

/-- `frame->data[offset]`.  `none`: the offset is not below `used`. -/
def readAt (frame : UsFrame) (offset : Nat) : Option UInt8 := frame.bytes[offset]?

def readAll (frame : UsFrame) (offsets : List Nat) : Option (List UInt8) :=
  offsets.mapM frame.readAt

end UsFrame

/-- A row: `count` pixels, of which `pixel x data` is the one at the pointer; `step x` is added
after a pixel, and `skip` after the row. -/
def writeLine (count : Nat) (pixel : Nat → Nat → Option (List UInt8)) (step : Nat → Nat)
    (skip data : Nat) : Option (List (List UInt8) × Nat) :=
  (Raster.turns (fun x data => (pixel x data).map fun p => (p, data + step x)) count 0 data).map
    fun (row, data) => (row, data + skip)

/-- The loops of the functions for packed formats; `skip` is what the padding makes the pointer skip
after a row. -/
def writeScanlines (frame : UsFrame) (count : Nat) (pixel : Nat → Nat → Option (List UInt8))
    (step skip : Nat → Nat) : Option (List (List (List UInt8))) :=
  (usFrameGetPadding frame.toFrameMeta).bind fun padding =>
    (Raster.turns (fun _ data => writeLine count pixel step (skip padding) data) frame.height 0
      0).map Prod.fst

/-- The body of the loop of `_jpeg_write_scanlines_yuv`.  `none` is also a failed assertion on the
format. -/
def yuvPixel (frame : UsFrame) (x data : Nat) : Option (List UInt8) :=
  let isOddPixel := x % 2 = 1
  if frame.format = v4l2PixFmtYuyv then
    frame.readAll [data + if isOddPixel then 2 else 0, data + 1, data + 3]
  else if frame.format = v4l2PixFmtYvyu then
    frame.readAll [data + if isOddPixel then 2 else 0, data + 3, data + 1]
  else if frame.format = v4l2PixFmtUyvy then
    frame.readAll [data + if isOddPixel then 3 else 1, data, data + 2]
  else none

/-- `_jpeg_write_scanlines_yuv`. -/
def jpegWriteScanlinesYuv (frame : UsFrame) : Option (List (List (List UInt8))) :=
  writeScanlines frame frame.width (yuvPixel frame) (fun x => if x % 2 = 1 then 4 else 0)
    fun padding => padding

/-- `_jpeg_write_scanlines_grey`. -/
def jpegWriteScanlinesGrey (frame : UsFrame) : Option (List (List (List UInt8))) :=
  writeScanlines frame frame.width (fun x data => frame.readAll [data + x]) (fun _ => 0)
    fun padding => toUint (frame.width + padding)

/-- What `_jpeg_write_scanlines_rgb565` makes of two bytes. -/
def rgb565Components : List UInt8 → List UInt8
  | [data0, data1] =>
    let twoByte := data1.toNat <<< 8 + data0.toNat
    [data1 &&& 248, ((twoByte &&& 2016) >>> 3).toUInt8, (data0 &&& 31) * 8]
  | bytes => bytes

/-- `_jpeg_write_scanlines_rgb565`. -/
def jpegWriteScanlinesRgb565 (frame : UsFrame) : Option (List (List (List UInt8))) :=
  writeScanlines frame frame.width
    (fun _ data => (frame.readAll [data, data + 1]).map rgb565Components) (fun _ => 2)
    fun padding => padding

/-- `_jpeg_write_scanlines_rgb24`.  libjpeg gets the pointer and reads three bytes for a pixel. -/
def jpegWriteScanlinesRgb24 (frame : UsFrame) : Option (List (List (List UInt8))) :=
  writeScanlines frame frame.width
    (fun x data => frame.readAll [data + 3 * x, data + (3 * x + 1), data + (3 * x + 2)])
    (fun _ => 0) fun padding => toUint (toUint (frame.width * 3) + padding)

/-- `_jpeg_write_scanlines_bgr24`.  Its `x` goes up to `width * 3` by threes. -/
def jpegWriteScanlinesBgr24 (frame : UsFrame) : Option (List (List (List UInt8))) :=
  writeScanlines frame ((toUint (frame.width * 3) + 2) / 3)
    (fun x data => frame.readAll [data + (3 * x + 2), data + (3 * x + 1), data + 3 * x])
    (fun _ => 0) fun padding => toUint (toUint (frame.width * 3) + padding)

/-- A pixel of `_jpeg_write_scanlines_yuv_planar`.  `none` is also a failed assertion on the
format. -/
def planarComponents (frame : UsFrame) (order : Nat) (pos : PlanarPos) (x : Nat) :
    Option (List UInt8) :=
  if frame.format = v4l2PixFmtYuv420 then
    frame.readAll [pos.data + x, pos.chroma1 + x / order, pos.chroma2 + x / order]
  else if frame.format = v4l2PixFmtYvu420 then
    frame.readAll [pos.data + x, pos.chroma2 + x / order, pos.chroma1 + x / order]
  else none

/-- `_jpeg_write_scanlines_yuv_planar`, as `jpegWriteScanlinesYuvPlanar`, but without the memory
behind the frame. -/
def jpegReadScanlinesYuvPlanar (frame : UsFrame) : Option (List (List (List UInt8))) :=
  (usFrameGetPadding frame.toFrameMeta).bind fun padding =>
    if planarChromaArraySize frame = 0 then none
    else
      let order := planarChromaMatrixOrder frame
      (Raster.turns (fun y pos =>
        ((List.range' 0 frame.width).mapM (planarComponents frame order pos)).map fun row =>
          (row, planarNext frame padding order y pos)) frame.height 0
        ⟨0, planarImageSize frame, planarImageSize frame + planarChromaArraySize frame⟩).map
      Prod.fst

/-- The `switch` of `us_cpu_encoder_compress`; `extensions` is `JCS_EXTENSIONS`.  `none` is also the
assertion on the format. -/
def cpuScanlines (extensions : Bool) (frame : UsFrame) : Option (List (List (List UInt8))) :=
  if frame.format = v4l2PixFmtYuyv ∨ frame.format = v4l2PixFmtYvyu ∨ frame.format = v4l2PixFmtUyvy
    then jpegWriteScanlinesYuv frame
  else if frame.format = v4l2PixFmtYuv420 ∨ frame.format = v4l2PixFmtYvu420 then
    jpegReadScanlinesYuvPlanar frame
  else if frame.format = v4l2PixFmtGrey then jpegWriteScanlinesGrey frame
  else if frame.format = v4l2PixFmtRgb565 then jpegWriteScanlinesRgb565 frame
  else if frame.format = v4l2PixFmtRgb24 then jpegWriteScanlinesRgb24 frame
  else if frame.format = v4l2PixFmtBgr24 then
    if extensions then jpegWriteScanlinesRgb24 frame else jpegWriteScanlinesBgr24 frame
  else none

/-! ## 2. Reads -/

section

variable {frame : UsFrame}

theorem readAt_isSome_iff {offset : Nat} :
    (frame.readAt offset).isSome ↔ offset < frame.used := by
  have hlen : frame.bytes.length = frame.used := by
    rw [UsFrame.bytes, List.length_take, Nat.min_eq_left frame.used_le]
  rw [UsFrame.readAt, isSome_getElem?, hlen]

theorem readAll_isSome_iff {offsets : List Nat} :
    (frame.readAll offsets).isSome ↔ ∀ o ∈ offsets, o < frame.used := by
  rw [UsFrame.readAll, Raster.mapM_isSome_iff]
  exact forall₂_congr fun o _ => readAt_isSome_iff

/-- A read in the frame is one of its memory. -/
theorem readAt_of_lt {offset : Nat} (h : offset < frame.used) :
    frame.readAt offset = some (frame.data.getD offset 0) := by
  have hle := frame.used_le
  rw [UsFrame.readAt, UsFrame.bytes, List.getElem?_take_of_lt h, List.getD_eq_getElem?_getD,
    List.getElem?_eq_getElem (show offset < frame.data.length by omega), Option.getD_some]

theorem readAll_of_lt {offsets : List Nat} (h : ∀ o ∈ offsets, o < frame.used) :
    frame.readAll offsets = some (offsets.map fun o => frame.data.getD o 0) := by
  induction offsets with
  | nil => rfl
  | cons o offsets ih =>
    obtain ⟨ho, hrest⟩ := List.forall_mem_cons.mp h
    have hread := ih hrest
    rw [UsFrame.readAll] at hread ⊢
    rw [List.mapM_cons, readAt_of_lt ho, hread]
    rfl

/-- A pixel of a planar picture from its components. -/
def yuvOfComponents : List UInt8 → Option YuvPixel
  | [y, u, v] => some ⟨y, u, v⟩
  | _ => none

theorem planarPixel_of_components {order x : Nat} {pos : PlanarPos} {c : List UInt8}
    (h : planarComponents frame order pos x = some c) :
    planarPixel frame order pos x = yuvOfComponents c := by
  have hread : ∀ {offsets : List Nat}, frame.readAll offsets = some c →
      c = offsets.map fun o => frame.data.getD o 0 := by
    intro offsets hsome
    have hlt := readAll_isSome_iff.mp (Option.isSome_of_eq_some hsome)
    exact (Option.some.inj ((readAll_of_lt hlt).symm.trans hsome)).symm
  unfold planarComponents at h
  unfold planarPixel
  by_cases hyuv : frame.format = v4l2PixFmtYuv420
  · rw [if_pos hyuv] at h ⊢
    rw [hread h]
    rfl
  · rw [if_neg hyuv] at h ⊢
    by_cases hyvu : frame.format = v4l2PixFmtYvu420
    · rw [if_pos hyvu] at h ⊢
      rw [hread h]
      rfl
    · rw [if_neg hyvu] at h
      exact absurd h.symm (Option.some_ne_none c)

theorem planarRow_of_components {order : Nat} {pos : PlanarPos} {xs : List Nat}
    {row : List (List UInt8)} (h : xs.mapM (planarComponents frame order pos) = some row) :
    xs.map (planarPixel frame order pos) = row.map yuvOfComponents := by
  obtain ⟨hlen, hget⟩ := Raster.mapM_getElem? h
  refine List.ext_getElem? fun i => ?_
  rw [List.getElem?_map, List.getElem?_map]
  have hi := hget i
  cases hx : xs[i]? with
  | none =>
    rw [hx, Option.bind_none] at hi
    rw [hi]
    rfl
  | some x =>
    rw [hx, Option.bind_some] at hi
    cases hc : planarComponents frame order pos x with
    | none =>
      rw [hc, List.getElem?_eq_none_iff] at hi
      have hlt := (List.getElem?_eq_some_iff.mp hx).1
      omega
    | some c =>
      rw [hi, hc, Option.map_some, Option.map_some, planarPixel_of_components hc]

/-- **A planar frame that is not left** gets the same scanlines whatever is behind it. -/
theorem planarLoop_of_turns {padding order : Nat} (left y : Nat) {pos last : PlanarPos}
    {rows : List (List (List UInt8))}
    (h : Raster.turns (fun y pos =>
        ((List.range' 0 frame.width).mapM (planarComponents frame order pos)).map fun row =>
          (row, planarNext frame padding order y pos)) left y pos = some (rows, last)) :
    planarLoop frame padding order left y pos = rows.map fun row => row.map yuvOfComponents := by
  induction left generalizing y pos rows with
  | zero =>
    obtain ⟨rfl, -⟩ := Prod.mk.inj (Option.some.inj h)
    rfl
  | succ left ih =>
    rw [Raster.turns] at h
    obtain ⟨⟨row, next⟩, hrow, hrest⟩ := Option.bind_eq_some_iff.mp h
    obtain ⟨row', hread, heq⟩ := Option.map_eq_some_iff.mp hrow
    obtain ⟨rfl, rfl⟩ := Prod.mk.inj heq
    obtain ⟨⟨rest, last'⟩, hturns, heq⟩ := Option.map_eq_some_iff.mp hrest
    obtain ⟨rfl, rfl⟩ := Prod.mk.inj heq
    rw [planarLoop, ih (y + 1) hturns, List.map_cons, List.range_eq_range',
      planarRow_of_components hread]

theorem jpegWriteScanlinesYuvPlanar_of_read {rows : List (List (List UInt8))}
    (h : jpegReadScanlinesYuvPlanar frame = some rows) :
    jpegWriteScanlinesYuvPlanar frame = some (rows.map fun row => row.map yuvOfComponents) := by
  unfold jpegReadScanlinesYuvPlanar at h
  unfold jpegWriteScanlinesYuvPlanar
  obtain ⟨padding, hpadding, h⟩ := Option.bind_eq_some_iff.mp h
  rw [hpadding]
  dsimp only
  by_cases hchroma : planarChromaArraySize frame = 0
  · rw [if_pos hchroma] at h
    exact absurd h.symm (Option.some_ne_none rows)
  · rw [if_neg hchroma] at h ⊢
    obtain ⟨⟨rows', last⟩, hturns, rfl⟩ := Option.map_eq_some_iff.mp h
    rw [planarLoop_of_turns _ _ hturns]

/-! ## 3. Packed formats as rasters -/

/-- A row whose pointers are known: `offset x` is how far the pointer has moved before the pixel
`x`. -/
theorem writeLine_eq {pixel : Nat → Nat → Option (List UInt8)} {step offset : Nat → Nat}
    (hzero : offset 0 = 0) (hstep : ∀ x, offset (x + 1) = offset x + step x)
    (count skip data : Nat) :
    writeLine count pixel step skip data
      = ((List.range' 0 count).mapM fun x => pixel x (data + offset x)).map
          fun row => (row, data + (offset count + skip)) := by
  have hturn : ∀ x, (pixel x (data + offset x)).map (fun p => (p, data + offset x + step x))
      = (pixel x (data + offset x)).map fun p => (p, data + offset (x + 1)) := by
    intro x
    rw [hstep, Nat.add_assoc]
  have hturns : Raster.turns (fun x data => (pixel x data).map fun p => (p, data + step x)) count 0
        (data + offset 0)
      = ((List.range' 0 count).mapM fun x => pixel x (data + offset x)).map
        fun row => (row, data + offset (0 + count)) :=
    Raster.turns_eq (fun x => data + offset x) _ hturn count 0
  rw [hzero, Nat.add_zero, Nat.zero_add] at hturns
  rw [writeLine, hturns, Option.map_map, ← Nat.add_assoc]
  rfl

/-- **The loops of a packed format** make a raster: a row is as far from the next as the pointer
moves in it. -/
theorem writeScanlines_eq (offset : Nat → Nat) {count padding : Nat}
    {pixel : Nat → Nat → Option (List UInt8)} {step skip : Nat → Nat}
    (hpadding : usFrameGetPadding frame.toFrameMeta = some padding)
    (hzero : offset 0 = 0) (hstep : ∀ x, offset (x + 1) = offset x + step x) :
    writeScanlines frame count pixel step skip
      = Raster.raster (fun x y => pixel x (y * (offset count + skip padding) + offset x)) count
          frame.height := by
  have hline : ∀ y, writeLine count pixel step (skip padding) (y * (offset count + skip padding))
      = ((List.range' 0 count).mapM fun x =>
          pixel x (y * (offset count + skip padding) + offset x)).map
        fun row => (row, (y + 1) * (offset count + skip padding)) := by
    intro y
    rw [writeLine_eq hzero hstep, Nat.succ_mul]
  have hraster : (Raster.turns (fun _ data => writeLine count pixel step (skip padding) data)
        frame.height 0 (0 * (offset count + skip padding))).map Prod.fst
      = Raster.raster (fun x y => pixel x (y * (offset count + skip padding) + offset x)) count
          frame.height :=
    Raster.turns_raster (fun y => y * (offset count + skip padding)) hline
  rw [Nat.zero_mul] at hraster
  rw [writeScanlines, hpadding, Option.bind_some]
  exact hraster

end

/-! ## 4. The packed formats -/

/-- The packed formats of the encoder. -/
inductive PackedFormat
  | yuyv
  | yvyu
  | uyvy
  | rgb565
  | rgb24
  | bgr24
  | grey
  deriving DecidableEq

namespace PackedFormat

def fourcc : PackedFormat → Nat
  | yuyv => v4l2PixFmtYuyv
  | yvyu => v4l2PixFmtYvyu
  | uyvy => v4l2PixFmtUyvy
  | rgb565 => v4l2PixFmtRgb565
  | rgb24 => v4l2PixFmtRgb24
  | bgr24 => v4l2PixFmtBgr24
  | grey => v4l2PixFmtGrey

/-- Bytes per pixel. -/
def bytes : PackedFormat → Nat
  | yuyv | yvyu | uyvy | rgb565 => 2
  | rgb24 | bgr24 => 3
  | grey => 1

/-- How far the pointer moves over a row, less the padding. -/
def rowBytes (f : PackedFormat) (width : Nat) : Nat :=
  match f with
  | yuyv | yvyu | uyvy => 4 * (width / 2)
  | rgb565 => 2 * width
  | rgb24 | bgr24 => 3 * width
  | grey => width

/-- What is read for the pixel `x`, from the beginning of its row. -/
def offsets (f : PackedFormat) (extensions : Bool) (x : Nat) : List Nat :=
  match f with
  | yuyv => [4 * (x / 2) + 2 * (x % 2), 4 * (x / 2) + 1, 4 * (x / 2) + 3]
  | yvyu => [4 * (x / 2) + 2 * (x % 2), 4 * (x / 2) + 3, 4 * (x / 2) + 1]
  | uyvy => [4 * (x / 2) + 2 * (x % 2) + 1, 4 * (x / 2), 4 * (x / 2) + 2]
  | rgb565 => [2 * x, 2 * x + 1]
  | rgb24 => [3 * x, 3 * x + 1, 3 * x + 2]
  | bgr24 =>
    if extensions then [3 * x, 3 * x + 1, 3 * x + 2] else [3 * x + 2, 3 * x + 1, 3 * x]
  | grey => [x]

/-- What is made of the bytes. -/
def components (f : PackedFormat) (bytes : List UInt8) : List UInt8 :=
  match f with
  | rgb565 => rgb565Components bytes
  | _ => bytes

/-- The pixel whose row begins at `start`. -/
def pixel (f : PackedFormat) (extensions : Bool) (frame : UsFrame) (start x : Nat) :
    Option (List UInt8) :=
  (frame.readAll ((f.offsets extensions x).map (start + ·))).map f.components

theorem bytesPerPixel_fourcc (f : PackedFormat) : bytesPerPixel f.fourcc = some f.bytes := by
  cases f <;> decide

/-- Only RGB565 is computed with. -/
theorem pixel_eq_readAll {f : PackedFormat} (h : f ≠ rgb565) (extensions : Bool) (frame : UsFrame)
    (start x : Nat) : f.pixel extensions frame start x
      = frame.readAll ((f.offsets extensions x).map (start + ·)) := by
  have hid : f.components = id := by
    funext bytes
    cases f with
    | rgb565 => exact absurd rfl h
    | _ => rfl
  rw [pixel, hid, Option.map_id_fun, id]

/-- The function that the `switch` chooses. -/
def writer (f : PackedFormat) (extensions : Bool) :
    UsFrame → Option (List (List (List UInt8))) :=
  match f with
  | yuyv | yvyu | uyvy => jpegWriteScanlinesYuv
  | rgb565 => jpegWriteScanlinesRgb565
  | rgb24 => jpegWriteScanlinesRgb24
  | bgr24 => if extensions then jpegWriteScanlinesRgb24 else jpegWriteScanlinesBgr24
  | grey => jpegWriteScanlinesGrey

end PackedFormat

section

variable {frame : UsFrame} {padding : Nat}

/-- The pointer in a row of 4:2:2 pixels. -/
theorem yuvOffset_succ (x : Nat) :
    4 * ((x + 1) / 2) = 4 * (x / 2) + if x % 2 = 1 then 4 else 0 := by
  split
  · omega
  · omega

theorem jpegWriteScanlinesYuv_eq (hpadding : usFrameGetPadding frame.toFrameMeta = some padding) :
    jpegWriteScanlinesYuv frame
      = Raster.raster (fun x y => yuvPixel frame x
          (y * (4 * (frame.width / 2) + padding) + 4 * (x / 2))) frame.width frame.height :=
  writeScanlines_eq (fun x => 4 * (x / 2)) hpadding rfl yuvOffset_succ

/-- A 4:2:2 pixel. -/
theorem yuvPixel_eq {f : PackedFormat} (hf : f = .yuyv ∨ f = .yvyu ∨ f = .uyvy)
    (hformat : frame.format = f.fourcc) (extensions : Bool) (x start : Nat) :
    yuvPixel frame x (start + 4 * (x / 2)) = f.pixel extensions frame start x := by
  have heven : (if x % 2 = 1 then 2 else 0) = 2 * (x % 2) := by
    split
    · omega
    · omega
  have hodd : (if x % 2 = 1 then 3 else 1) = 2 * (x % 2) + 1 := by
    split
    · omega
    · omega
  unfold yuvPixel
  dsimp only
  rw [heven, hodd, hformat]
  rcases hf with rfl | rfl | rfl
  · rw [if_pos (by decide), PackedFormat.pixel_eq_readAll (by decide), Nat.add_assoc]
    rfl
  · rw [if_neg (by decide), if_pos (by decide), PackedFormat.pixel_eq_readAll (by decide),
      Nat.add_assoc]
    rfl
  · rw [if_neg (by decide), if_neg (by decide), if_pos (by decide),
      PackedFormat.pixel_eq_readAll (by decide), Nat.add_assoc]
    rfl

theorem cpuScanlines_writer {f : PackedFormat} (hformat : frame.format = f.fourcc)
    (extensions : Bool) : cpuScanlines extensions frame = f.writer extensions frame := by
  unfold cpuScanlines
  rw [hformat]
  cases f with
  | yuyv => rw [if_pos (by decide)]; rfl
  | yvyu => rw [if_pos (by decide)]; rfl
  | uyvy => rw [if_pos (by decide)]; rfl
  | grey => rw [if_neg (by decide), if_neg (by decide), if_pos (by decide)]; rfl
  | rgb565 =>
    rw [if_neg (by decide), if_neg (by decide), if_neg (by decide), if_pos (by decide)]
    rfl
  | rgb24 =>
    rw [if_neg (by decide), if_neg (by decide), if_neg (by decide), if_neg (by decide),
      if_pos (by decide)]
    rfl
  | bgr24 =>
    rw [if_neg (by decide), if_neg (by decide), if_neg (by decide), if_neg (by decide),
      if_neg (by decide), if_pos (by decide)]
    cases extensions <;> rfl

/-- A function that leaves the pointer where it is until the end of the row. -/
theorem writeScanlines_still {count rowBytes : Nat} {pixel : Nat → Nat → Option (List UInt8)}
    (hpadding : usFrameGetPadding frame.toFrameMeta = some padding)
    (hskip : toUint (rowBytes + padding) = rowBytes + padding) :
    writeScanlines frame count pixel (fun _ => 0) (fun padding => toUint (rowBytes + padding))
      = Raster.raster (fun x y => pixel x (y * (rowBytes + padding))) count frame.height := by
  have heq : writeScanlines frame count pixel (fun _ => 0)
        (fun padding => toUint (rowBytes + padding))
      = Raster.raster (fun x y => pixel x (y * (0 + toUint (rowBytes + padding)) + 0)) count
          frame.height :=
    writeScanlines_eq (fun _ => 0) hpadding rfl fun _ => rfl
  rw [heq, hskip, Nat.zero_add]
  rfl

theorem jpegWriteScanlinesGrey_eq
    (hpadding : usFrameGetPadding frame.toFrameMeta = some padding)
    (hrow : frame.width + padding < 4294967296) :
    jpegWriteScanlinesGrey frame
      = Raster.raster (fun x y => frame.readAll [y * (frame.width + padding) + x]) frame.width
          frame.height :=
  writeScanlines_still hpadding (toUint_of_lt hrow)

theorem jpegWriteScanlinesRgb565_eq
    (hpadding : usFrameGetPadding frame.toFrameMeta = some padding) :
    jpegWriteScanlinesRgb565 frame
      = Raster.raster (fun x y => (frame.readAll [y * (2 * frame.width + padding) + 2 * x,
          y * (2 * frame.width + padding) + (2 * x + 1)]).map rgb565Components)
          frame.width frame.height :=
  writeScanlines_eq (fun x => 2 * x) hpadding rfl fun _ => rfl

theorem jpegWriteScanlinesRgb24_eq
    (hpadding : usFrameGetPadding frame.toFrameMeta = some padding)
    (hrow : 3 * frame.width + padding < 4294967296) :
    jpegWriteScanlinesRgb24 frame
      = Raster.raster (fun x y => frame.readAll
          [y * (3 * frame.width + padding) + 3 * x, y * (3 * frame.width + padding) + (3 * x + 1),
            y * (3 * frame.width + padding) + (3 * x + 2)]) frame.width frame.height := by
  have hbytes : toUint (frame.width * 3) = 3 * frame.width := by
    rw [Nat.mul_comm]
    exact toUint_of_lt (by omega)
  rw [jpegWriteScanlinesRgb24, hbytes]
  exact writeScanlines_still hpadding (toUint_of_lt hrow)

theorem jpegWriteScanlinesBgr24_eq
    (hpadding : usFrameGetPadding frame.toFrameMeta = some padding)
    (hrow : 3 * frame.width + padding < 4294967296) :
    jpegWriteScanlinesBgr24 frame
      = Raster.raster (fun x y => frame.readAll
          [y * (3 * frame.width + padding) + (3 * x + 2),
            y * (3 * frame.width + padding) + (3 * x + 1),
            y * (3 * frame.width + padding) + 3 * x]) frame.width frame.height := by
  have hbytes : toUint (frame.width * 3) = 3 * frame.width := by
    rw [Nat.mul_comm]
    exact toUint_of_lt (by omega)
  have hcount : (3 * frame.width + 2) / 3 = frame.width := by omega
  rw [jpegWriteScanlinesBgr24, hbytes, hcount]
  exact writeScanlines_still hpadding (toUint_of_lt hrow)

/-- **Packed formats**: the pixel at a column and a row is decoded from bytes at fixed offsets in
its row. -/
theorem cpuScanlines_packed (f : PackedFormat) (extensions : Bool)
    (hformat : frame.format = f.fourcc)
    (hpadding : usFrameGetPadding frame.toFrameMeta = some padding)
    (hrow : f.rowBytes frame.width + padding < 4294967296) :
    cpuScanlines extensions frame
      = Raster.raster (fun x y => f.pixel extensions frame
          (y * (f.rowBytes frame.width + padding)) x) frame.width frame.height := by
  rw [cpuScanlines_writer hformat]
  have hyuv : f = .yuyv ∨ f = .yvyu ∨ f = .uyvy → jpegWriteScanlinesYuv frame
      = Raster.raster (fun x y => f.pixel extensions frame
          (y * (4 * (frame.width / 2) + padding)) x) frame.width frame.height := by
    intro hf
    rw [jpegWriteScanlinesYuv_eq hpadding]
    simp only [yuvPixel_eq hf hformat extensions]
  cases f with
  | yuyv => exact hyuv (.inl rfl)
  | yvyu => exact hyuv (.inr (.inl rfl))
  | uyvy => exact hyuv (.inr (.inr rfl))
  | rgb565 => exact jpegWriteScanlinesRgb565_eq hpadding
  | rgb24 =>
    simp only [PackedFormat.pixel_eq_readAll (show PackedFormat.rgb24 ≠ .rgb565 by decide)]
    exact jpegWriteScanlinesRgb24_eq hpadding hrow
  | bgr24 =>
    simp only [PackedFormat.pixel_eq_readAll (show PackedFormat.bgr24 ≠ .rgb565 by decide)]
    cases extensions with
    | true => exact jpegWriteScanlinesRgb24_eq hpadding hrow
    | false => exact jpegWriteScanlinesBgr24_eq hpadding hrow
  | grey =>
    simp only [PackedFormat.pixel_eq_readAll (show PackedFormat.grey ≠ .rgb565 by decide)]
    exact jpegWriteScanlinesGrey_eq hpadding hrow

end

end TinyPilotKvm
