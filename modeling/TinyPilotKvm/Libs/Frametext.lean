/-
# The text of the stub picture (`libs/frametext.c`)

`us_frametext_draw` blanks an RGB picture and draws a text on it, in the middle.  A first pass over
the lines finds the size of the text, in pixels of the font; the scales of the font are computed
from it in floating point; a second pass draws the lines.  All the arithmetic is that of `uint`s.

A division by zero, an access outside of the font, of the line or of the used bytes of the picture,
and a loop that does not end are faults of the program.  A text is the list of its bytes before the
zero.
-/
import TinyPilotKvm.Libs.Frame
import TinyPilotKvm.Libs.FrametextFont
import TinyPilotKvm.Libs.Tools
import TinyPilotKvm.Programs

namespace TinyPilotKvm.Frametext

open Program

/-! ## 1. The code -/

/-- `us_frametext_s`. -/
structure UsFrametext where
  text : Option (List UInt8)
  frame : UsFrame

inductive DrawFault
  | assertion
  | divisionByZero
  | fontIndex
  | lineIndex
  | outsideFrame
  | endless
  deriving DecidableEq

/-- Drawing calls nothing that answers. -/
abbrev Draw (α : Type) : Type := Program UsFrametext Empty DrawFault α

def newline : UInt8 := 10

/-- `strtok_r` with the delimiter "\n": the next line that is not empty, and what is after it. -/
def strtokR (rest : List UInt8) : Option (List UInt8 × List UInt8) :=
  let str := rest.dropWhile (· == newline)
  if str = [] then none
  else some (str.takeWhile (· != newline), (str.dropWhile (· != newline)).drop 1)

def divide (a b : Nat) : Draw Nat := do
  require (b ≠ 0) .divisionByZero
  pure (a / b)

/-- A character of the line, or the zero after it. -/
def charAt (line : List UInt8) (i : Nat) : Draw UInt8 := do
  require (i ≤ line.length) .lineIndex
  pure (line.getD i 0)

/-- `US_FRAMETEXT_FONT[ch][ch_byte]`. -/
def fontByte (ch chByte : Nat) : Draw Nat := do
  require (ch < usFrametextFont.length ∧ chByte < 8) .fontIndex
  pure ((usFrametextFont.getD ch []).getD chByte 0)

/-- `sizeof(US_FRAMETEXT_FONT)`. -/
def sizeofFont : Nat := usFrametextFont.length * 8

def UsFrametext.setByte (offset : Nat) (value : UInt8) (ft : UsFrametext) : UsFrametext :=
  { ft with
    frame :=
      { ft.frame with
        data := ft.frame.data.set offset value
        used_le := by
          rw [List.length_set]
          exact ft.frame.used_le } }

/-- A byte of the picture. -/
def store (offset : Nat) (value : UInt8) : Draw Unit := do
  let ft ← current
  require (offset < ft.frame.used) .outsideFrame
  update (UsFrametext.setByte offset value)

/-- A pixel of a character. -/
def drawPixel (line : List UInt8) (scaleX scaleY chX chY offset : Nat) : Draw Unit := do
  let char ← charAt line (← divide (chX / 8) scaleX)
  let ch := min char.toNat (sizeofFont / 8 - 1)
  let chByte := (← divide chY scaleY) % 8
  let chBit := (← divide chX scaleX) % 8
  let row ← fontByte ch chByte
  let value : UInt8 := if row.testBit chBit then 0x65 else 0
  store offset value
  store (offset + 1) value
  store (offset + 2) value

/-- A turn of the inner loop of `_frametext_draw_line`; it is left at the right edge. -/
def drawColumn (line : List UInt8) (scaleX scaleY startX canvasY chY chX : Nat) : Draw Bool := do
  let ft ← current
  if toUint (startX + chX) ≥ ft.frame.width then pure false
  else
    let canvasX := toUint (toUint (startX + chX) * 3)
    let offset := toUint (canvasY * ft.frame.stride + canvasX)
    if offset ≥ ft.frame.used then pure false
    else do
      drawPixel line scaleX scaleY chX chY offset
      pure true

/-- `_frametext_draw_line`; the bound of the inner loop is a `size_t`. -/
def frametextDrawLine (line : List UInt8) (scaleX scaleY startX startY : Nat) : Draw Unit :=
  loop (List.range (toUint (8 * scaleY))) fun chY => do
    let canvasY := toUint (startY + chY)
    loop (List.range (8 * line.length * scaleX % 18446744073709551616))
      (drawColumn line scaleX scaleY startX canvasY chY)
    pure true

/-- The first pass over the lines: the width and the height of the text. -/
def measureLines (str : List UInt8) : Nat → List UInt8 → Nat → Nat → Draw (Nat × Nat)
  | 0, _, _, _ => fault .endless
  | turns + 1, rest, blockWidth, blockHeight =>
    match strtokR (if blockHeight = 0 then str else rest) with
    | none => pure (blockWidth, blockHeight)
    | some (line, rest) =>
      measureLines str turns rest (toUint (max (line.length * 8) blockWidth))
        (toUint (blockHeight + 8))

/-- The second pass. -/
def drawLines (str : List UInt8) (width scaleX scaleY startY : Nat) :
    Nat → List UInt8 → Nat → Draw Unit
  | 0, _, _ => fault .endless
  | turns + 1, rest, nLine =>
    match strtokR (if nLine = 0 then str else rest) with
    | none => pure ()
    | some (line, rest) => do
      let lineWidth := toUint (line.length * 8 * scaleX)
      let startX := if width ≥ lineWidth then (width - lineWidth) / 2 else 0
      frametextDrawLine line scaleX scaleY startX (toUint (startY + nLine * 8 * scaleY))
      drawLines str width scaleX scaleY startY turns rest (toUint (nLine + 1))

/-- The scales that are computed in floating point, from `100 / block_width * 2`,
`70 / block_height * 2`, `frame->width / block_width` and `frame->height / block_height`. -/
abbrev Scales : Type := Nat → Nat → Nat → Nat → Nat × Nat

/-- The picture before the text is drawn: black. -/
def blank (text : List UInt8) (width height : Nat) (ft : UsFrametext) : UsFrametext where
  text := some text
  frame :=
    { ft.frame with
      width := width
      height := height
      format := v4l2PixFmtRgb24
      stride := toUint (width * 3)
      used := toUint (width * height * 3)
      data := writeBytes ft.frame.data (List.replicate (toUint (width * height * 3)) 0)
      used_le := by simp [writeBytes] }

/-- `us_frametext_draw`, after the picture is blanked. -/
def drawText (scales : Scales) (text : List UInt8) (width height : Nat) : Draw Unit := do
  let (blockWidth, blockHeight) ← measureLines text (text.length + 1) [] 0 0
  if blockWidth = 0 ∨ blockHeight = 0 then pure ()
  else do
    let divX ← divide 100 blockWidth
    let divY ← divide 70 blockHeight
    let ratioX ← divide width blockWidth
    let ratioY ← divide height blockHeight
    let (scaleX, scaleY) := scales (divX * 2) (divY * 2) ratioX ratioY
    let textHeight := toUint (blockHeight * scaleY)
    let startY := if height ≥ textHeight then (height - textHeight) / 2 else 0
    drawLines text width scaleX scaleY startY (text.length + 1) [] 0

/-- `us_frametext_draw`. -/
def usFrametextDraw (scales : Scales) (text : List UInt8) (width height : Nat) : Draw Unit := do
  require (width > 0) .assertion
  require (height > 0) .assertion
  let ft ← current
  if ft.frame.width = width ∧ ft.frame.height = height ∧ ft.text = some text then pure ()
  else do
    update (blank text width height)
    if width = 0 ∨ height = 0 then pure ()
    else drawText scales text width height

/-- The computation of the scales, in exact numbers. -/
def exactScales : Scales := fun divX divY ratioX ratioY =>
  let divX : ℚ := max (min divX 2) (3 / 2)
  let divY : ℚ := max (min divY 2) (3 / 2)
  let scaleX := toUint (truncated (ratioX / divX)).toNat
  let scaleY := toUint (truncated (ratioY / divY)).toNat
  if (scaleX : ℚ) < scaleY / (3 / 2) then (scaleX, toUint (truncated (scaleX * (3 / 2))).toNat)
  else if (scaleY : ℚ) < scaleX * (3 / 2) then
    (toUint (truncated (scaleY / (3 / 2))).toNat, scaleY)
  else (scaleX, scaleY)

/-! ## 2. The lines -/

/-- The lines that `strtok_r` finds. -/
inductive Lines : List UInt8 → List (List UInt8) → Prop
  | none {rest : List UInt8} : strtokR rest = none → Lines rest []
  | some {rest line rest' : List UInt8} {lines : List (List UInt8)} :
    strtokR rest = some (line, rest') → Lines rest' lines → Lines rest (line :: lines)

theorem strtokR_length {rest line rest' : List UInt8} (h : strtokR rest = some (line, rest')) :
    0 < line.length ∧ line.length + rest'.length ≤ rest.length := by
  unfold strtokR at h
  dsimp only at h
  split at h
  · exact absurd h (by simp)
  · rename_i hne
    obtain ⟨rfl, rfl⟩ := Prod.mk.inj (Option.some.inj h)
    have hsuffix : (rest.dropWhile (· == newline)).length ≤ rest.length :=
      (List.dropWhile_suffix _).length_le
    have hsplit := congrArg List.length
      (List.takeWhile_append_dropWhile (p := (· != newline))
        (l := rest.dropWhile (· == newline)))
    rw [List.length_append] at hsplit
    constructor
    · obtain ⟨byte, bytes, hcons⟩ := List.exists_cons_of_ne_nil hne
      have hbyte := List.head?_dropWhile_not (p := (· == newline)) rest
      rw [hcons] at hbyte ⊢
      have hother : (byte != newline) = true := by simpa using hbyte
      rw [List.takeWhile_cons, if_pos hother, List.length_cons]
      exact Nat.succ_pos _
    · rw [List.length_drop]
      omega

/-- A text has lines, and they are no more than its bytes. -/
theorem exists_lines (text : List UInt8) :
    ∃ lines, Lines text lines ∧ lines.length ≤ text.length ∧
      ∀ line ∈ lines, line.length ≤ text.length := by
  induction hlen : text.length using Nat.strongRecOn generalizing text with
  | ind n ih =>
    cases htok : strtokR text with
    | none => exact ⟨[], .none htok, Nat.zero_le _, fun line h => absurd h List.not_mem_nil⟩
    | some found =>
      obtain ⟨line, rest⟩ := found
      obtain ⟨hpos, hle⟩ := strtokR_length htok
      obtain ⟨lines, hlines, hcount, hbound⟩ := ih rest.length (by omega) rest rfl
      refine ⟨line :: lines, .some htok hlines, ?_, ?_⟩
      · rw [List.length_cons]
        omega
      · refine List.forall_mem_cons.mpr ⟨by omega, fun other hother => ?_⟩
        have := hbound other hother
        omega

/-- **The first pass** ends with a width that no line exceeds, and with the height of all of
them. -/
theorem measureLines_spec {str rest : List UInt8} {lines : List (List UInt8)}
    (h : Lines rest lines) {w : World UsFrametext Empty} :
    ∀ (turns : Nat) (after : List UInt8) (blockWidth blockHeight : Nat),
      lines.length < turns → rest = (if blockHeight = 0 then str else after) →
      blockWidth < 4294967296 → blockHeight + 8 * lines.length < 4294967296 →
      (∀ line ∈ lines, 8 * line.length < 4294967296) →
      wp (measureLines str turns after blockWidth blockHeight)
        (fun block w' => w' = w ∧ block.2 = blockHeight + 8 * lines.length ∧
          blockWidth ≤ block.1 ∧ ∀ line ∈ lines, 8 * line.length ≤ block.1)
        (fun _ => False) (fun _ _ => False) w := by
  induction h with
  | none htok =>
    intro turns after blockWidth blockHeight hturns hrest hwidth hheight hbound
    obtain ⟨turns, rfl⟩ := Nat.exists_eq_succ_of_ne_zero (Nat.ne_of_gt hturns)
    subst hrest
    rw [Nat.succ_eq_add_one, measureLines, htok]
    exact ⟨rfl, rfl, Nat.le_refl _, fun line hline => absurd hline List.not_mem_nil⟩
  | @some rest line rest' lines htok hlines ih =>
    intro turns after blockWidth blockHeight hturns hrest hwidth hheight hbound
    obtain ⟨turns, rfl⟩ := Nat.exists_eq_succ_of_ne_zero (Nat.ne_of_gt (by omega : 0 < turns))
    subst hrest
    rw [List.length_cons] at hturns hheight
    obtain ⟨hline, hothers⟩ := List.forall_mem_cons.mp hbound
    have hmax : max (line.length * 8) blockWidth < 4294967296 := by omega
    have hnext : blockHeight + 8 < 4294967296 := by omega
    rw [Nat.succ_eq_add_one, measureLines, htok]
    dsimp only
    rw [toUint_of_lt hmax, toUint_of_lt hnext]
    refine wp_post (fun block w' hblock => ?_)
      (ih turns rest' _ (blockHeight + 8) (by omega) (by rw [if_neg (by omega)]) hmax (by omega)
        hothers)
    obtain ⟨hw, hheight', hwidth', hlines'⟩ := hblock
    refine ⟨hw, ?_, by omega, List.forall_mem_cons.mpr ⟨by omega, hlines'⟩⟩
    rw [hheight', List.length_cons]
    omega

/-! ## 3. The pixels -/

/-- The picture has its size. -/
structure Sized (width height : Nat) (w : World UsFrametext Empty) : Prop where
  width_eq : w.state.frame.width = width
  stride_eq : w.state.frame.stride = width * 3
  used_eq : w.state.frame.used = width * height * 3

section

variable {width height : Nat} {w : World UsFrametext Empty}

theorem store_safe {offset : Nat} (h : offset < width * height * 3) (value : UInt8) :
    Safe (Sized width height) (store offset value) := by
  intro w hw
  rw [store, wp_bind, wp_current, wp_bind, wp_require_of_pos (by rwa [hw.used_eq]), wp_update]
  exact ⟨hw.width_eq, hw.stride_eq, hw.used_eq⟩

theorem wp_divide {a b : Nat} (hb : b ≠ 0) {Q : Nat → World UsFrametext Empty → Prop}
    {E : World UsFrametext Empty → Prop} {F : DrawFault → World UsFrametext Empty → Prop} :
    wp (divide a b) Q E F w ↔ Q (a / b) w := by
  rw [divide, wp_bind, wp_require_of_pos hb, wp_pure]

theorem min_sizeofFont_lt (n : Nat) : min n (sizeofFont / 8 - 1) < usFrametextFont.length := by
  have hsize : sizeofFont / 8 - 1 = 127 := by rw [sizeofFont, length_usFrametextFont]
  rw [hsize, length_usFrametextFont]
  omega

/-- **A pixel** whose three bytes are in the picture is drawn. -/
theorem drawPixel_safe {line : List UInt8} {scaleX scaleY chX chY offset : Nat}
    (hscaleX : scaleX ≠ 0) (hscaleY : scaleY ≠ 0) (hchX : chX < 8 * line.length * scaleX)
    (hoffset : offset + 2 < width * height * 3) :
    Safe (Sized width height) (drawPixel line scaleX scaleY chX chY offset) := by
  intro w hw
  have hcolumn : chX / 8 / scaleX ≤ line.length := by
    rw [Nat.div_div_eq_div_mul]
    refine Nat.div_le_of_le_mul (Nat.le_of_lt (hchX.trans_eq ?_))
    ring
  have hbyte : chY / scaleY % 8 < 8 := Nat.mod_lt _ (by decide)
  rw [drawPixel, wp_bind, wp_divide hscaleX, wp_bind, charAt, wp_bind, wp_require_of_pos hcolumn,
    wp_pure]
  dsimp only
  rw [wp_bind, wp_divide hscaleY, wp_bind, wp_divide hscaleX, wp_bind, fontByte, wp_bind,
    wp_require_of_pos ⟨min_sizeofFont_lt _, hbyte⟩, wp_pure]
  refine Safe.bind (store_safe (by omega) _) (fun _ => ?_) w hw
  exact Safe.bind (store_safe (by omega) _) fun _ => store_safe hoffset _

/-- The bytes of a pixel in the picture. -/
theorem pixel_lt {x y : Nat} (hx : x < width) (hy : y < height) :
    y * (width * 3) + x * 3 + 2 < width * height * 3 := by
  have hrow : (y + 1) * width ≤ height * width := Nat.mul_le_mul_right width hy
  have hrow' : (y + 1) * width = y * width + width := by ring
  have hleft : y * (width * 3) = y * width * 3 := by ring
  have hright : width * height * 3 = height * width * 3 := by ring
  omega

theorem drawColumn_safe {line : List UInt8} {scaleX scaleY startX canvasY chX chY : Nat}
    (hused : width * height * 3 < 4294967296) (hscaleX : scaleX ≠ 0) (hscaleY : scaleY ≠ 0)
    (hchX : chX < 8 * line.length * scaleX) (hx : startX + chX < width) (hy : canvasY < height) :
    Safe (Sized width height) (drawColumn line scaleX scaleY startX canvasY chY chX) := by
  intro w hw
  have hpixel := pixel_lt hx hy
  have hcanvasX : toUint (startX + chX) = startX + chX := toUint_of_lt (by omega)
  have hbyteX : toUint ((startX + chX) * 3) = (startX + chX) * 3 := toUint_of_lt (by omega)
  have hoffset : toUint (canvasY * (width * 3) + (startX + chX) * 3)
      = canvasY * (width * 3) + (startX + chX) * 3 := toUint_of_lt (by omega)
  rw [drawColumn, wp_bind, wp_current]
  dsimp only
  rw [hw.width_eq, hw.stride_eq, hw.used_eq, hcanvasX, hbyteX, hoffset, if_neg (by omega),
    if_neg (by omega)]
  exact Safe.bind (drawPixel_safe hscaleX hscaleY hchX hpixel) (fun _ => Safe.pure true) w hw

/-- **A line** that fits is drawn. -/
theorem frametextDrawLine_safe {line : List UInt8} {scaleX scaleY startX startY : Nat}
    (hused : width * height * 3 < 4294967296) (hheight : height < 4294967296)
    (hwidth : width < 4294967296)
    (hx : startX + 8 * line.length * scaleX ≤ width) (hy : startY + 8 * scaleY ≤ height) :
    Safe (Sized width height) (frametextDrawLine line scaleX scaleY startX startY) := by
  rw [frametextDrawLine]
  refine Safe.loop fun chY hchY => ?_
  rw [List.mem_range, toUint_of_lt (by omega)] at hchY
  have hscaleY : scaleY ≠ 0 := by omega
  refine Safe.bind (Safe.loop fun chX hchX => ?_) fun _ => Safe.pure true
  rw [List.mem_range, Nat.mod_eq_of_lt (by omega)] at hchX
  have hscaleX : scaleX ≠ 0 := by
    rintro rfl
    omega
  rw [toUint_of_lt (by omega)]
  exact drawColumn_safe hused hscaleX hscaleY hchX (by omega) (by omega)

end

/-! ## 4. The text -/

section

variable {width height : Nat}

/-- **The second pass** draws the lines that are left, if they and those before fit. -/
theorem drawLines_safe {str rest : List UInt8} {lines : List (List UInt8)} (h : Lines rest lines)
    {scaleX scaleY startY : Nat} (hused : width * height * 3 < 4294967296)
    (hheight : height < 4294967296) (hwidth : width < 4294967296)
    (hlines : ∀ line ∈ lines, 8 * line.length * scaleX ≤ width) :
    ∀ (turns : Nat) (after : List UInt8) (nLine : Nat),
      lines.length < turns → rest = (if nLine = 0 then str else after) →
      nLine + lines.length < 4294967296 →
      startY + 8 * (nLine + lines.length) * scaleY ≤ height →
      Safe (Sized width height) (drawLines str width scaleX scaleY startY turns after nLine) := by
  induction h with
  | none htok =>
    intro turns after nLine hturns hrest hcount hy
    obtain ⟨turns, rfl⟩ := Nat.exists_eq_succ_of_ne_zero (Nat.ne_of_gt hturns)
    subst hrest
    rw [Nat.succ_eq_add_one, drawLines, htok]
    exact Safe.pure ()
  | @some rest line rest' lines htok _ ih =>
    intro turns after nLine hturns hrest hcount hy
    obtain ⟨turns, rfl⟩ := Nat.exists_eq_succ_of_ne_zero (Nat.ne_of_gt (by omega : 0 < turns))
    subst hrest
    rw [List.length_cons] at hturns hcount hy
    obtain ⟨hline, hothers⟩ := List.forall_mem_cons.mp hlines
    have hlater : 8 * (nLine + 1 + lines.length) * scaleY
        = nLine * 8 * scaleY + 8 * scaleY + 8 * lines.length * scaleY := by ring
    rw [show nLine + (lines.length + 1) = nLine + 1 + lines.length by omega] at hy hcount
    rw [hlater] at hy
    have hlineWidth : line.length * 8 * scaleX = 8 * line.length * scaleX := by ring
    rw [Nat.succ_eq_add_one, drawLines, htok]
    dsimp only
    rw [hlineWidth, toUint_of_lt (by omega), if_pos hline, toUint_of_lt (by omega),
      toUint_of_lt (by omega)]
    refine Safe.bind (frametextDrawLine_safe hused hheight hwidth (by omega) (by omega)) fun _ => ?_
    refine ih hothers turns rest' (nLine + 1) (by omega) (by rw [if_neg (by omega)]) hcount ?_
    rw [hlater]
    exact hy

/-- The scales keep the text within the picture, whatever the size of the text. -/
def ScalesFit (scales : Scales) (width height : Nat) : Prop :=
  ∀ blockWidth blockHeight : Nat, 0 < blockWidth → 0 < blockHeight →
    (scales (100 / blockWidth * 2) (70 / blockHeight * 2) (width / blockWidth)
      (height / blockHeight)).1 * blockWidth ≤ width ∧
    (scales (100 / blockWidth * 2) (70 / blockHeight * 2) (width / blockWidth)
      (height / blockHeight)).2 * blockHeight ≤ height

theorem drawText_safe {scales : Scales} (hscales : ScalesFit scales width height)
    {text : List UInt8} (htext : text.length < 2 ^ 20) (hused : width * height * 3 < 4294967296)
    (hheight : height < 4294967296) (hwidth : width < 4294967296) :
    Safe (Sized width height) (drawText scales text width height) := by
  intro w hw
  obtain ⟨lines, hlines, hcount, hbound⟩ := exists_lines text
  rw [drawText, wp_bind]
  refine wp_post ?_ (measureLines_spec hlines (text.length + 1) [] 0 0 (by omega) rfl (by omega)
    (by omega) fun line hline => ?_)
  · rintro ⟨blockWidth, blockHeight⟩ w' ⟨rfl, hblockHeight, -, hblockWidth⟩
    dsimp only at hblockHeight hblockWidth ⊢
    rw [wp_ite]
    refine ⟨fun _ => hw, fun hblock => ?_⟩
    have hblockX : 0 < blockWidth := by omega
    have hblockY : 0 < blockHeight := by omega
    rw [wp_bind, wp_divide (by omega), wp_bind, wp_divide (by omega), wp_bind,
      wp_divide (by omega), wp_bind, wp_divide (by omega)]
    obtain ⟨hfitX, hfitY⟩ := hscales blockWidth blockHeight hblockX hblockY
    generalize scales (100 / blockWidth * 2) (70 / blockHeight * 2) (width / blockWidth)
      (height / blockHeight) = scale at hfitX hfitY ⊢
    obtain ⟨scaleX, scaleY⟩ := scale
    dsimp only at hfitX hfitY ⊢
    have htextHeight : blockHeight * scaleY = scaleY * blockHeight := Nat.mul_comm _ _
    rw [htextHeight, toUint_of_lt (by omega), if_pos hfitY]
    refine drawLines_safe hlines hused hheight hwidth (fun line hline => ?_) (text.length + 1) []
      0 (by omega) rfl (by omega) ?_ w' hw
    · calc 8 * line.length * scaleX ≤ blockWidth * scaleX :=
            Nat.mul_le_mul_right scaleX (hblockWidth line hline)
        _ = scaleX * blockWidth := Nat.mul_comm _ _
        _ ≤ width := hfitX
    · have hrows : 8 * (0 + lines.length) * scaleY = scaleY * blockHeight := by
        rw [hblockHeight]
        ring
      omega
  · have := hbound line hline
    omega

/-- **The text stays inside of the picture**: nothing is divided by zero, and no access is outside
of the font or of the used bytes. -/
theorem usFrametextDraw_safe (scales : Scales) (ft : UsFrametext) (text : List UInt8)
    (width height : Nat) (htext : text.length < 2 ^ 20) (hwidth : 1 ≤ width ∧ width ≤ 15360)
    (hheight : 1 ≤ height ∧ height ≤ 8640) (hscales : ScalesFit scales width height) :
    ∃ w, usFrametextDraw scales text width height ⟨ft, []⟩ = .ok () w := by
  have hused : width * height * 3 < 4294967296 := by
    have := Nat.mul_le_mul hwidth.2 hheight.2
    omega
  suffices h : Safe (fun _ => True) (usFrametextDraw scales text width height) by
    obtain ⟨_, w, hw, -⟩ := h.returns (w := ⟨ft, []⟩) trivial
    exact ⟨w, hw⟩
  have hwidth' : width > 0 := hwidth.1
  have hheight' : height > 0 := hheight.1
  intro w _
  rw [usFrametextDraw, wp_bind, wp_require_of_pos hwidth', wp_bind, wp_require_of_pos hheight',
    wp_bind, wp_current, wp_ite]
  refine ⟨fun _ => trivial, fun _ => ?_⟩
  rw [wp_bind, wp_update, if_neg (by omega)]
  refine wp_post (fun _ _ _ => trivial)
    (drawText_safe hscales htext hused (by omega) (by omega) _ ⟨rfl, ?_, ?_⟩)
  · exact toUint_of_lt (by omega)
  · exact toUint_of_lt hused

/-- What a number in floating point is cut down to is no more than it. -/
theorem toUint_truncated_le {x : ℚ} (h : 0 ≤ x) : ((toUint (truncated x).toNat : ℕ) : ℚ) ≤ x := by
  have hfloor : (((truncated x).toNat : ℕ) : ℤ) = ⌊x⌋ := toUll_of_nonneg h
  calc ((toUint (truncated x).toNat : ℕ) : ℚ) ≤ ((truncated x).toNat : ℕ) :=
        Nat.cast_le.mpr (Nat.mod_le _ _)
    _ = ((⌊x⌋ : ℤ) : ℚ) := by rw [← hfloor, Int.cast_natCast]
    _ ≤ x := Int.floor_le x

/-- A ratio divided by at least one. -/
theorem toUint_ratio_le (div : ℚ) (ratio : Nat) :
    toUint (truncated (ratio / max (min div 2) (3 / 2))).toNat ≤ ratio := by
  have hdiv : (1 : ℚ) ≤ max (min div 2) (3 / 2) := le_max_of_le_right (by norm_num)
  have hratio : (0 : ℚ) ≤ ratio := Nat.cast_nonneg ratio
  have h := toUint_truncated_le (div_nonneg hratio (zero_le_one.trans hdiv))
  exact_mod_cast h.trans (div_le_self hratio hdiv)

/-- **The computation of the source**, in exact numbers, keeps the text within the picture. -/
theorem exactScales_fit (width height : Nat) : ScalesFit exactScales width height := by
  intro blockWidth blockHeight hblockWidth hblockHeight
  suffices h : ∀ divX divY ratioX ratioY : Nat,
      (exactScales divX divY ratioX ratioY).1 ≤ ratioX ∧
      (exactScales divX divY ratioX ratioY).2 ≤ ratioY by
    obtain ⟨hx, hy⟩ := h (100 / blockWidth * 2) (70 / blockHeight * 2) (width / blockWidth)
      (height / blockHeight)
    exact ⟨(Nat.le_div_iff_mul_le hblockWidth).mp hx, (Nat.le_div_iff_mul_le hblockHeight).mp hy⟩
  intro divX divY ratioX ratioY
  have hx := toUint_ratio_le divX ratioX
  have hy := toUint_ratio_le divY ratioY
  rw [exactScales]
  generalize toUint (truncated (ratioX / max (min (divX : ℚ) 2) (3 / 2))).toNat = scaleX at hx ⊢
  generalize toUint (truncated (ratioY / max (min (divY : ℚ) 2) (3 / 2))).toNat = scaleY at hy ⊢
  have hposX : (0 : ℚ) ≤ scaleX := Nat.cast_nonneg scaleX
  have hposY : (0 : ℚ) ≤ scaleY := Nat.cast_nonneg scaleY
  split
  · -- the height is made smaller
    rename_i hlower
    refine ⟨hx, le_trans ?_ hy⟩
    have h := toUint_truncated_le (mul_nonneg hposX (by norm_num : (0 : ℚ) ≤ 3 / 2))
    rw [lt_div_iff₀ (by norm_num)] at hlower
    exact_mod_cast h.trans hlower.le
  · split
    · rename_i hlower
      refine ⟨le_trans ?_ hx, hy⟩
      have h := toUint_truncated_le (div_nonneg hposY (by norm_num : (0 : ℚ) ≤ 3 / 2))
      rw [← div_lt_iff₀ (by norm_num)] at hlower
      exact_mod_cast h.trans hlower.le
    · exact ⟨hx, hy⟩

/-- `NO SIGNAL` and a second line, on a picture of 640x480. -/
theorem usFrametextDraw_safe_stub :
    ∃ w, usFrametextDraw exactScales [78, 79, 32, 83, 73, 71, 78, 65, 76, 10, 10, 200] 640 480
      ⟨⟨none, usFrameInit⟩, []⟩ = .ok () w :=
  usFrametextDraw_safe exactScales ⟨none, usFrameInit⟩ _ 640 480 (by decide) (by decide)
    (by decide) (exactScales_fit 640 480)

end

end TinyPilotKvm.Frametext
