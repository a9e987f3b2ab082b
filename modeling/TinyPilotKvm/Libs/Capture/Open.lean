/-
# Opening and closing the capture device (`libs/capture.c`)

`us_capture_open` negotiates with the device, allocates the buffers by one of two I/O methods,
queues them, may export them to DMA and starts streaming; wherever it fails it closes
everything.  The answers of the device are the fields of `OpenAnswers`, one for each system call.
`hw_fps`, the JPEG quality and the image controls are left out: nothing that
follows reads what they leave behind, and none of them fails.

`Device` is the other side: the indices queued in the driver, the account of descriptors, and
which descriptor was exported for which buffer since the buffers were allocated.
-/
import TinyPilotKvm.Libs.Capture.Ownership
import TinyPilotKvm.Libs.Fds

namespace TinyPilotKvm

/-! ## 1. What the device answers -/

/-- `struct v4l2_bt_timings`, as far as it is read; `frameWidth` and `frameHeight` are the
kernel's `V4L2_DV_BT_FRAME_WIDTH` and `_HEIGHT`. -/
structure DvTimings where
  isBt : Bool
  width : Nat
  height : Nat
  frameWidth : Nat
  frameHeight : Nat
  interlaced : Bool
  pixelclock : Nat

/-- `VIDIOC_QUERY_DV_TIMINGS`. -/
inductive QueryDv
  | ok (dv : DvTimings)
  | enolink
  | enolck
  | failed

/-- The ioctls of `_capture_open_dv_timings`. -/
structure DvAnswers where
  queryDv : QueryDv
  setDv : Bool
  queryStd : Option Nat
  setStd : Bool
  subscribe : Bool

/-- The ioctls of `_capture_open_check_cap`; the three flags are those of `VIDIOC_QUERYCAP`. -/
structure CapAnswers where
  querycap : Option (Bool × Bool × Bool)
  setInput : Bool
  setStd : Bool

/-- `VIDIOC_S_FMT`; `sameType`: the driver has not changed the type. -/
structure FmtAnswer where
  sameType : Bool
  width : Nat
  height : Nat
  pixelformat : Nat
  bytesperline : Nat
  sizeimage : Nat

/-- All the system calls of one `us_capture_open`, in the order of the source.  `none` and
`false` are failures. -/
structure OpenAnswers where
  access : Bool
  openFd : Option Nat
  power : Option Int
  probe : DvAnswers
  checkCap : CapAnswers
  apply : DvAnswers
  fmt : Bool → Option FmtAnswer
  lanes : Option Int
  reqbufs : Option Nat
  querybuf : Nat → Option Nat
  mmap : Nat → Bool
  qbuf : Nat → Bool
  expbuf : Nat → Option Nat
  streamon : Bool

/-- The driver's queue, the descriptors, and what was exported for which buffer. -/
structure Device where
  queued : Finset Nat
  fds : Fds
  exports : List (Nat × Int)

/-! ## 2. Negotiation -/

def usVideoMaxWidth : Nat := 15360
def usVideoMaxHeight : Nat := 8640

/-- `us_align_size`, to a power of two. -/
def usAlignSize (size align : Nat) : Nat := (size + (align - 1)) / align * align

/-- `_FORMATS`. -/
def captureFormats : List Nat :=
  [v4l2PixFmtYuyv, v4l2PixFmtYvyu, v4l2PixFmtUyvy, v4l2PixFmtYuv420, v4l2PixFmtYvu420,
    v4l2PixFmtGrey, v4l2PixFmtRgb565, v4l2PixFmtRgb24, v4l2PixFmtBgr24, v4l2PixFmtMjpeg,
    v4l2PixFmtJpeg]

/-- `_capture_apply_resolution`. -/
def captureApplyResolution (cap : UsCapture) (width height : Nat) (hz : ℚ) : Int × UsCapture :=
  if width = 0 ∨ width > usVideoMaxWidth ∨ height = 0 ∨ height > usVideoMaxHeight then (-1, cap)
  else (0, { cap with run := { cap.run with width := width, height := height, hz := hz } })

/-- The refresh rate of `_capture_open_dv_timings`, through a whole number of hundredths. -/
def dvHz (dv : DvTimings) : ℚ :=
  if dv.isBt then
    let htot := dv.frameWidth
    let vtot := dv.frameHeight / (if dv.interlaced then 2 else 1)
    let fps := if htot * vtot > 0 then 100 * dv.pixelclock / (htot * vtot) else 0
    ((fps / 100 : Nat) : ℚ) + ((fps % 100 : Nat) : ℚ) / 100
  else 0

/-- `_capture_open_dv_timings`. -/
def captureOpenDvTimings (cap : UsCapture) (apply : Bool) (a : DvAnswers) : Int × UsCapture :=
  let subscribe (cap : UsCapture) : Int × UsCapture := if a.subscribe then (0, cap) else (-1, cap)
  match a.queryDv with
  | .enolink => (usErrorNoSignal, cap)
  | .enolck => (usErrorNoSync, cap)
  | .ok dv =>
    if !apply then (0, cap)
    else if !a.setDv then (-1, cap)
    else
      let r := captureApplyResolution cap dv.width dv.height (dvHz dv)
      if r.1 < 0 then (-1, r.2) else subscribe r.2
  | .failed =>
    match a.queryStd with
    | none => (-1, cap)
    | some std =>
      let cap := { cap with standard := std }
      if !apply then (0, cap)
      else if !a.setStd then (-1, cap)
      else subscribe cap

/-- `_capture_open_check_cap`; `V4L2_STD_UNKNOWN` is 0. -/
def captureOpenCheckCap (cap : UsCapture) (a : CapAnswers) : Int × UsCapture :=
  match a.querycap with
  | none => (-1, cap)
  | some (capture, mplane, streaming) =>
    if !capture && !mplane then (-1, cap)
    else
      let cap := { cap with run := { cap.run with captureMplane := !capture } }
      if !streaming then (-1, cap)
      else if !cap.run.captureMplane && !a.setInput then (-1, cap)
      else if cap.standard ≠ 0 ∧ !a.setStd then (-1, cap)
      else (0, cap)

/-- `_capture_open_format` with `first` false, or true and `again` for the second try. -/
def captureOpenFormatWith (answer : Option FmtAnswer) (again : Option (UsCapture → Int × UsCapture))
    (cap : UsCapture) : Int × UsCapture :=
  match answer with
  | none => (-1, cap)
  | some a =>
    if !a.sameType then (-1, cap)
    else
      let retry := decide (a.width ≠ cap.run.width ∨ a.height ≠ cap.run.height)
      let r := captureApplyResolution cap a.width a.height cap.run.hz
      if r.1 < 0 then (-1, r.2)
      else match again, retry with
        | some next, true => next r.2
        | _, _ =>
          if a.pixelformat ≠ cap.format ∧ a.pixelformat ∉ captureFormats then (-1, r.2)
          else
            let format :=
              if cap.formatSwapRgb ∧ a.pixelformat = v4l2PixFmtRgb24 then v4l2PixFmtBgr24
              else if cap.formatSwapRgb ∧ a.pixelformat = v4l2PixFmtBgr24 then v4l2PixFmtRgb24
              else a.pixelformat
            (0, { r.2 with run := { r.2.run with
              format := format, stride := a.bytesperline, rawSize := a.sizeimage } })

/-- `_capture_open_format`. -/
def captureOpenFormat (cap : UsCapture) (answers : Bool → Option FmtAnswer) : Int × UsCapture :=
  captureOpenFormatWith (answers true) (some (captureOpenFormatWith (answers false) none)) cap

/-- `if (step < 0) goto error;`, and on. -/
def orError (step : Int × UsCapture) (next : UsCapture → Int × UsCapture) : Int × UsCapture :=
  if step.1 < 0 then (-1, step.2) else next step.2

/-- The probe that a persistent device with DV timings is opened with: it may tell what is wrong. -/
def captureOpenProbe (cap : UsCapture) (power : Option Int) (probe : DvAnswers) : Int × UsCapture :=
  if power = some 0 then (usErrorNoCable, cap)
  else
    let r := captureOpenDvTimings cap false probe
    if r.1 = 0 ∨ r.1 = usErrorNoSignal ∨ r.1 = usErrorNoSync then r else (-1, r.2)

/-- The steps of `us_capture_open` from `_capture_open_check_cap` to the test of the lanes. -/
def captureOpenSetup (watched : Bool) (a : OpenAnswers) (cap : UsCapture) : Int × UsCapture :=
  orError (captureOpenCheckCap cap a.checkCap) fun cap =>
  orError (captureApplyResolution cap cap.width cap.height cap.run.hz) fun cap =>
  orError (if cap.dvTimings then captureOpenDvTimings cap true a.apply else (0, cap)) fun cap =>
  orError (captureOpenFormat cap a.fmt) fun cap =>
  if watched && a.lanes = some 0 then (usErrorNoLanes, cap) else (0, cap)

/-- `us_capture_open` between `open` and `_capture_open_io_method`: the code to fail with, or 0. -/
def captureOpenNegotiate (cap : UsCapture) (a : OpenAnswers) : Int × UsCapture :=
  let watched := cap.dvTimings && cap.persistent
  let r := if watched then captureOpenProbe cap a.power a.probe else (0, cap)
  if r.1 ≠ 0 then r else captureOpenSetup watched a r.2

/-! ## 3. Buffers -/

/-- The loop over the slots that both I/O methods have: `slot` fills one, or fails. -/
def captureSlots (slot : Nat → UsCaptureHwbuf → Option UsCaptureHwbuf) :
    Nat → UsCaptureRuntime → Int × UsCaptureRuntime
  | 0, run => (0, run)
  | todo + 1, run =>
    match slot run.nBufs (run.hw run.nBufs) with
    | none => (-1, run)
    | some hw =>
      captureSlots slot todo { run.modifyHw run.nBufs (fun _ => hw) with nBufs := run.nBufs + 1 }

/-- The request for buffers that both I/O methods begin with, and the loop. -/
def captureOpenSlots (run : UsCaptureRuntime) (reqbufs : Option Nat)
    (slot : Nat → UsCaptureHwbuf → Option UsCaptureHwbuf) : Int × UsCaptureRuntime :=
  match reqbufs with
  | none => (-1, run)
  | some count =>
    if count < 1 then (-1, run)
    else captureSlots slot count
      { run with bufs := List.replicate count UsCaptureHwbuf.zero, nBufs := 0 }

/-- A slot of `_capture_open_io_method_mmap`. -/
def mmapSlot (a : OpenAnswers) (i : Nat) (hw : UsCaptureHwbuf) : Option UsCaptureHwbuf :=
  (a.querybuf i).bind fun size =>
    if a.mmap i then
      some { hw with refs := 0, raw := { hw.raw with data := List.replicate size 0 }, dmaFd := -1 }
    else none

/-- A slot of `_capture_open_io_method_userptr`: it cannot fail, and sets no `dma_fd`. -/
def userptrSlot (bufSize : Nat) (_ : Nat) (hw : UsCaptureHwbuf) : Option UsCaptureHwbuf :=
  some { hw with raw := { hw.raw with data := List.replicate bufSize 0 } }

/-- `_capture_open_io_method_mmap`. -/
def captureOpenIoMethodMmap (run : UsCaptureRuntime) (a : OpenAnswers) : Int × UsCaptureRuntime :=
  captureOpenSlots run a.reqbufs (mmapSlot a)

/-- `_capture_open_io_method_userptr`, with pages of 4096 bytes. -/
def captureOpenIoMethodUserptr (run : UsCaptureRuntime) (a : OpenAnswers) :
    Int × UsCaptureRuntime :=
  captureOpenSlots run a.reqbufs (userptrSlot (usAlignSize run.rawSize 4096))

/-- `_capture_open_io_method`. -/
def captureOpenIoMethod (cap : UsCapture) (a : OpenAnswers) : Int × UsCaptureRuntime :=
  match cap.ioMethod with
  | .mmap => captureOpenIoMethodMmap cap.run a
  | .userptr => captureOpenIoMethodUserptr cap.run a

/-- `_capture_open_queue_buffers` from `index` on: the driver's queue after it. -/
def captureOpenQueueBuffers (a : OpenAnswers) (index : Nat) : Nat → Finset Nat → Int × Finset Nat
  | 0, queued => (0, queued)
  | todo + 1, queued =>
    if a.qbuf index then captureOpenQueueBuffers a (index + 1) todo (insert index queued)
    else (-1, queued)

/-- The loop of `_capture_open_export_to_dma` from `index` on; `false`: to its `error` label. -/
def captureExports (a : OpenAnswers) (index : Nat) :
    Nat → UsCaptureRuntime → Device → Bool × UsCaptureRuntime × Device
  | 0, run, dev => (true, run, dev)
  | todo + 1, run, dev =>
    match a.expbuf index with
    | none => (false, run, dev)
    | some fd =>
      captureExports a (index + 1) todo (run.modifyHw index fun hw => { hw with dmaFd := fd })
        { dev with fds := dev.fds.opened fd, exports := (index, (fd : Int)) :: dev.exports }

/-- `dma_fd` of the first `m` buffers. -/
def dmaFds (run : UsCaptureRuntime) (m : Nat) : List Int :=
  (List.range m).map fun i => (run.hw i).dmaFd

/-- `US_CLOSE_FD` on a variable: what it holds afterwards. -/
def closedVar (x : Int) : Int := if 0 ≤ x then -1 else x

/-- `_capture_open_export_to_dma`. -/
def captureOpenExportToDma (a : OpenAnswers) (run : UsCaptureRuntime) (dev : Device) :
    Int × UsCaptureRuntime × Device :=
  let r := captureExports a 0 run.nBufs run dev
  if r.1 then (0, r.2)
  else
    (-1,
      { r.2.1 with bufs := r.2.1.bufs.mapIdx fun i hw =>
          if i < r.2.1.nBufs then { hw with dmaFd := closedVar hw.dmaFd } else hw },
      { r.2.2 with fds := r.2.2.fds.closeAll (dmaFds r.2.1 r.2.1.nBufs) })

/-! ## 4. Open and close -/

/-- `us_capture_close`. -/
def usCaptureClose (cap : UsCapture) (dev : Device) : UsCapture × Device :=
  let run := cap.run
  let closed := { run with streamon := false, fd := closedVar run.fd }
  if run.bufs = [] then
    ({ cap with run := closed }, { dev with queued := ∅, fds := dev.fds.closeVar run.fd })
  else
    ({ cap with run := { closed with bufs := [], nBufs := 0 } },
      { dev with
        queued := ∅
        fds := (dev.fds.closeAll (dmaFds run run.nBufs)).closeVar run.fd })

/-- What `us_capture_open` leaves behind. -/
structure OpenResult where
  ret : Int
  cap : UsCapture
  dev : Device

/-- The error labels of `us_capture_open`: close, and return the code. -/
def captureOpenError (ret : Int) (cap : UsCapture) (dev : Device) : OpenResult :=
  ⟨ret, (usCaptureClose cap dev).1, (usCaptureClose cap dev).2⟩

/-- `us_capture_open` from `VIDIOC_STREAMON` on. -/
def captureOpenStream (a : OpenAnswers) (cap : UsCapture) (dev : Device) : OpenResult :=
  if !a.streamon then captureOpenError (-1) cap dev
  else ⟨0, { cap with run := { cap.run with streamon := true } }, dev⟩

/-- `us_capture_open` once the buffers are queued. -/
def captureOpenExport (a : OpenAnswers) (cap : UsCapture) (dev : Device) : OpenResult :=
  if cap.dmaExport && !usIsJpeg cap.run.format then
    let r := captureOpenExportToDma a cap.run dev
    let dma := decide (r.1 = 0)
    let cap := { cap with run := { r.2.1 with dma := dma } }
    if !dma && cap.dmaRequired then captureOpenError (-1) cap r.2.2
    else captureOpenStream a cap r.2.2
  else captureOpenStream a cap dev

/-- `us_capture_open` once the format is negotiated. -/
def captureOpenBuffers (a : OpenAnswers) (cap : UsCapture) (dev : Device) : OpenResult :=
  let r := captureOpenIoMethod cap a
  let cap := { cap with run := r.2 }
  let dev := { dev with queued := ∅, exports := [] }
  if r.1 < 0 then captureOpenError (-1) cap dev
  else
    let q := captureOpenQueueBuffers a 0 cap.run.nBufs dev.queued
    let dev := { dev with queued := q.2 }
    if q.1 < 0 then captureOpenError (-1) cap dev
    else captureOpenExport a cap dev

/-- `us_capture_open`. -/
def usCaptureOpen (cap : UsCapture) (dev : Device) (a : OpenAnswers) : OpenResult :=
  if !a.access then captureOpenError usErrorNoDevice cap dev
  else match a.openFd with
    | none => captureOpenError (-1) { cap with run := { cap.run with fd := -1 } } dev
    | some fd =>
      let dev := { dev with fds := dev.fds.opened fd }
      let r := captureOpenNegotiate { cap with run := { cap.run with fd := fd } } a
      if r.1 ≠ 0 then captureOpenError r.1 r.2 dev
      else captureOpenBuffers a r.2 dev

end TinyPilotKvm
