/-
# Packed pictures in the CPU encoder

A packed picture has its rows one after the other, `stride` bytes each, and the pixels of a row one
after the other (`PackedPicture`).  The encoder unpacks it, whatever its sizes (`packed_pixels`):
the padding is what is left of a row, so the pointer is at the beginning of every row, and in a
4:2:2 row of an even width it has moved by four bytes for every two pixels.
-/
import TinyPilotKvm.Formats.Ascii
import TinyPilotKvm.Ustreamer.Encoders.CpuScanlines

namespace TinyPilotKvm

/-! ## 1. Pictures -/

namespace PackedFormat

/-- Two pixels share their chroma. -/
def shared (f : PackedFormat) : Prop := f = yuyv ∨ f = yvyu ∨ f = uyvy

/-- **The pixel** at column `x` and row `y`, by what the format means. -/
def unpack (f : PackedFormat) (frame : UsFrame) (x y : Nat) : List UInt8 :=
  let byte i := frame.data.getD (y * frame.stride + i) 0
  match f with
  | yuyv => [byte (2 * x), byte (4 * (x / 2) + 1), byte (4 * (x / 2) + 3)]
  | yvyu => [byte (2 * x), byte (4 * (x / 2) + 3), byte (4 * (x / 2) + 1)]
  | uyvy => [byte (2 * x + 1), byte (4 * (x / 2)), byte (4 * (x / 2) + 2)]
  | rgb565 =>
    let word := (byte (2 * x)).toNat + 256 * (byte (2 * x + 1)).toNat
    [(8 * (word / 2048)).toUInt8, (4 * (word / 32 % 64)).toUInt8, (8 * (word % 32)).toUInt8]
  | rgb24 => [byte (3 * x), byte (3 * x + 1), byte (3 * x + 2)]
  | bgr24 => [byte (3 * x + 2), byte (3 * x + 1), byte (3 * x)]
  | grey => [byte x]

end PackedFormat

/-- A picture in a packed format, of any content. -/
structure PackedPicture (f : PackedFormat) (frame : UsFrame) : Prop where
  format : frame.format = f.fourcc
  width_even : f.shared → 2 ∣ frame.width
  stride_lt : frame.stride < 4294967296
  row_le : frame.width * f.bytes ≤ frame.stride
  used_eq : frame.used = frame.stride * frame.height

/-! ## 2. One pixel -/

section

variable {f : PackedFormat} {frame : UsFrame}

/-- The red of a word is its upper byte less three bits. -/
theorem rgb565_red (hi : UInt8) : (hi &&& 248).toNat = 8 * (hi.toNat / 8) :=
  forall_byte (p := fun hi => (hi &&& 248).toNat = 8 * (hi.toNat / 8)) (by decide +kernel) hi

theorem rgb565_blue (lo : UInt8) : ((lo &&& 31) * 8).toNat = 8 * (lo.toNat % 32) :=
  forall_byte (p := fun lo => ((lo &&& 31) * 8).toNat = 8 * (lo.toNat % 32)) (by decide +kernel) lo

/-- Six bits in the middle. -/
theorem rgb565_green (n : Nat) : (n &&& 2016) >>> 3 = 4 * (n / 32 % 64) := by
  have hshift : (n &&& 2016) >>> 3 = n >>> 3 &&& 252 := Nat.shiftRight_and_distrib
  have hquot : (n >>> 3 &&& 252) / 4 = n / 32 % 64 := by
    have hdiv : (n >>> 3 &&& 252) / 4 = n >>> 3 / 4 &&& 63 := Nat.and_div_two_pow (n := 2)
    have hmod : n / 32 &&& 63 = n / 32 % 64 := Nat.and_two_pow_sub_one_eq_mod (n / 32) 6
    have hnum : n >>> 3 / 4 = n / 32 := by
      have hshift3 : n >>> 3 = n / 8 := Nat.shiftRight_eq_div_pow n 3
      rw [hshift3, Nat.div_div_eq_div_mul]
    rw [hdiv, hnum, hmod]
  have hrest : (n >>> 3 &&& 252) % 4 = 0 := by
    have hmod : (n >>> 3 &&& 252) % 4 = n >>> 3 % 4 &&& 0 := Nat.and_mod_two_pow (n := 2)
    rw [hmod, Nat.and_zero]
  omega

theorem rgb565Components_eq (lo hi : UInt8) :
    rgb565Components [lo, hi]
      = [(8 * ((lo.toNat + 256 * hi.toNat) / 2048)).toUInt8,
        (4 * ((lo.toNat + 256 * hi.toNat) / 32 % 64)).toUInt8,
        (8 * ((lo.toNat + 256 * hi.toNat) % 32)).toUInt8] := by
  have hlo := lo.toNat_lt
  have hhi := hi.toNat_lt
  have hword : hi.toNat <<< 8 + lo.toNat = lo.toNat + 256 * hi.toNat := by
    rw [Nat.shiftLeft_eq]
    omega
  have hred : hi &&& 248 = (8 * ((lo.toNat + 256 * hi.toNat) / 2048)).toUInt8 := by
    have hvalue : 8 * ((lo.toNat + 256 * hi.toNat) / 2048) = 8 * (hi.toNat / 8) := by omega
    rw [hvalue, ← rgb565_red]
    exact UInt8.ofNat_toNat.symm
  have hblue : (lo &&& 31) * 8 = (8 * ((lo.toNat + 256 * hi.toNat) % 32)).toUInt8 := by
    have hvalue : 8 * ((lo.toNat + 256 * hi.toNat) % 32) = 8 * (lo.toNat % 32) := by omega
    rw [hvalue, ← rgb565_blue]
    exact UInt8.ofNat_toNat.symm
  unfold rgb565Components
  dsimp only
  rw [hword, rgb565_green, ← hred, ← hblue]

/-- What is read for a pixel is in its row. -/
theorem offsets_lt {x : Nat} (hx : x < frame.width) (heven : f.shared → 2 ∣ frame.width)
    (extensions : Bool) : ∀ o ∈ f.offsets extensions x, o < frame.width * f.bytes := by
  have hyuv : f.shared → 4 * (x / 2) + 3 < frame.width * 2 := by
    intro hf
    have h := heven hf
    omega
  cases f with
  | yuyv | yvyu | uyvy =>
    have h := hyuv (by simp [PackedFormat.shared])
    simp only [PackedFormat.offsets, PackedFormat.bytes, List.forall_mem_cons, List.not_mem_nil,
      false_imp_iff, implies_true, and_true]
    omega
  | bgr24 =>
    cases extensions <;>
    · simp only [PackedFormat.offsets, PackedFormat.bytes, List.forall_mem_cons, List.not_mem_nil,
        false_imp_iff, implies_true, and_true, if_true, Bool.false_eq_true, if_false]
      omega
  | _ =>
    simp only [PackedFormat.offsets, PackedFormat.bytes, List.forall_mem_cons, List.not_mem_nil,
      false_imp_iff, implies_true, and_true]
    omega

/-- What is read is the pixel. -/
theorem components_offsets (f : PackedFormat) {extensions : Bool} (frame : UsFrame)
    (hswap : f = .bgr24 → extensions = false) (x y : Nat) :
    f.components ((f.offsets extensions x).map fun o =>
      frame.data.getD (y * frame.stride + o) 0) = f.unpack frame x y := by
  have hluma : 4 * (x / 2) + 2 * (x % 2) = 2 * x := by omega
  cases f with
  | yuyv =>
    simp only [PackedFormat.offsets, PackedFormat.components, PackedFormat.unpack, hluma,
      List.map_cons, List.map_nil]
  | yvyu =>
    simp only [PackedFormat.offsets, PackedFormat.components, PackedFormat.unpack, hluma,
      List.map_cons, List.map_nil]
  | uyvy =>
    simp only [PackedFormat.offsets, PackedFormat.components, PackedFormat.unpack, hluma,
      List.map_cons, List.map_nil]
  | rgb565 => exact rgb565Components_eq _ _
  | rgb24 => rfl
  | bgr24 =>
    rw [hswap rfl]
    rfl
  | grey => rfl

/-! ## 3. The picture -/

/-- A row and its padding are the stride. -/
theorem PackedPicture.row_eq (h : PackedPicture f frame) :
    ∃ padding, usFrameGetPadding frame.toFrameMeta = some padding ∧
      f.rowBytes frame.width + padding = frame.stride := by
  have hlt := h.stride_lt
  have hrow := h.row_le
  have hbytes : f.rowBytes frame.width = frame.width * f.bytes := by
    have hyuv : f.shared → 4 * (frame.width / 2) = frame.width * 2 := by
      intro hf
      have heven := h.width_even hf
      omega
    cases f with
    | yuyv => exact hyuv (.inl rfl)
    | yvyu => exact hyuv (.inr (.inl rfl))
    | uyvy => exact hyuv (.inr (.inr rfl))
    | rgb565 => exact Nat.mul_comm _ _
    | rgb24 => exact Nat.mul_comm _ _
    | bgr24 => exact Nat.mul_comm _ _
    | grey => exact (Nat.mul_one _).symm
  have hpos : 0 < f.bytes := by cases f <;> decide
  have hle : frame.width ≤ frame.width * f.bytes := Nat.le_mul_of_pos_right _ hpos
  rw [usFrameGetPadding, h.format, PackedFormat.bytesPerPixel_fourcc, Option.map_some, hbytes]
  refine ⟨_, rfl, ?_⟩
  split
  · omega
  · omega

/-- **A pixel** of the picture. -/
theorem PackedPicture.pixel_eq (h : PackedPicture f frame) {extensions : Bool}
    (hswap : f = .bgr24 → extensions = false) {x y : Nat} (hx : x < frame.width)
    (hy : y < frame.height) :
    f.pixel extensions frame (y * frame.stride) x = some (f.unpack frame x y) := by
  have hreads : ∀ o ∈ (f.offsets extensions x).map (y * frame.stride + ·), o < frame.used := by
    intro o ho
    obtain ⟨p, hp, rfl⟩ := List.mem_map.mp ho
    have hlt := offsets_lt hx h.width_even extensions p hp
    have hrow := h.row_le
    calc y * frame.stride + p
        < y * frame.stride + frame.stride := by omega
      _ = (y + 1) * frame.stride := (Nat.succ_mul _ _).symm
      _ ≤ frame.height * frame.stride := Nat.mul_le_mul_right _ hy
      _ = frame.used := by rw [h.used_eq, Nat.mul_comm]
  rw [PackedFormat.pixel, readAll_of_lt hreads, Option.map_some, List.map_map,
    ← components_offsets f frame hswap]
  rfl

/-- **Packed pictures are unpacked.**  Nothing outside of the picture is read, libjpeg gets a
scanline for every row, and each pixel of it is the one of the picture.  `extensions` is where
libjpeg takes BGR24 as it is. -/
theorem packed_pixels (h : PackedPicture f frame) {extensions : Bool}
    (hswap : f = .bgr24 → extensions = false) :
    ∃ rows, cpuScanlines extensions frame = some rows ∧ rows.length = frame.height ∧
      ∀ y < frame.height, ∃ row, rows[y]? = some row ∧ row.length = frame.width ∧
        ∀ x < frame.width, row[x]? = some (f.unpack frame x y) := by
  obtain ⟨padding, hpadding, hrow⟩ := h.row_eq
  have hscan := cpuScanlines_packed f extensions h.format hpadding (hrow.symm ▸ h.stride_lt)
  rw [hrow] at hscan
  have hsome : (cpuScanlines extensions frame).isSome := by
    rw [hscan, Raster.raster_isSome_iff]
    intro y hy x hx
    rw [h.pixel_eq hswap hx hy]
    rfl
  obtain ⟨rows, hrows⟩ := Option.isSome_iff_exists.mp hsome
  obtain ⟨hlen, hget⟩ := Raster.raster_getElem? (hscan.symm.trans hrows)
  refine ⟨rows, hrows, hlen, fun y hy => ?_⟩
  obtain ⟨row, hat, hwidth, hpixels⟩ := hget y hy
  refine ⟨row, hat, hwidth, fun x hx => ?_⟩
  rw [hpixels x hx, h.pixel_eq hswap hx hy]

end

/-- Two rows of two pixels and two bytes of padding. -/
def paddedFrame : UsFrame :=
  UsFrame.ofBytes { FrameMeta.zero with
    width := 2, height := 2, stride := 6, format := v4l2PixFmtUyvy }
    [1, 2, 3, 4, 0, 0, 5, 6, 7, 8, 0, 0]

theorem packed_pixels_uyvy :
    PackedPicture .uyvy paddedFrame ∧
      ∃ rows, cpuScanlines false paddedFrame = some rows ∧ rows.length = 2 ∧
        ∀ y < 2, ∃ row, rows[y]? = some row ∧ row.length = 2 ∧
          ∀ x < 2, row[x]? = some (PackedFormat.uyvy.unpack paddedFrame x y) := by
  have h : PackedPicture .uyvy paddedFrame :=
    ⟨rfl, fun _ => ⟨1, rfl⟩, by decide, by decide, rfl⟩
  exact ⟨h, packed_pixels h (by decide)⟩

end TinyPilotKvm
