/-
# Capture buffers and the driver's queue (`libs/capture.c`)

A V4L2 driver owns the hardware buffers that are queued in it; `VIDIOC_DQBUF` gives one to the
process and `VIDIOC_QBUF` gives it back.  The process marks what it has with `grabbed`.  Here is
the data of both sides, and the two functions that move buffers between them:

* `us_capture_hwbuf_grab` drains the driver, keeps the newest valid frame and requeues the rest;
* `us_capture_hwbuf_release` gives a frame back.

The driver is the finite set `queued` of the indices queued in it.  What an ioctl answers is the
environment's choice: each `Dequeued` is one successful `VIDIOC_DQBUF` together with how the
`VIDIOC_QBUF` of the same turn of the loop ends, if the turn makes one (no turn makes two).
-/
import Mathlib.Data.Finset.Basic
import Mathlib.Data.List.Basic
import TinyPilotKvm.Libs.Frame
import TinyPilotKvm.Libs.Tools

namespace TinyPilotKvm

/-! ## 1. The device's data -/

/-- `cap->io_method`: the two that `_IO_METHODS` has. -/
inductive V4l2Memory
  | mmap
  | userptr
  deriving DecidableEq

/-- `struct v4l2_buffer`, as far as it is read: `planes` has the `bytesused` of each plane. -/
structure V4l2Buffer where
  index : Nat
  bytesused : Nat
  planes : List Nat
  tvSec : Nat
  tvUsec : Nat
  deriving DecidableEq

/-- `hw->raw`.  The driver writes behind `data`, so nothing bounds `used`. -/
structure RawFrame extends FrameMeta where
  data : List UInt8
  used : Nat
  dmaFd : Int
  deriving DecidableEq

/-- `us_capture_hwbuf_s`. -/
structure UsCaptureHwbuf where
  raw : RawFrame
  buf : V4l2Buffer
  dmaFd : Int
  grabbed : Bool
  refs : Int
  deriving DecidableEq

/-- A slot as `US_CALLOC` leaves it. -/
def UsCaptureHwbuf.zero : UsCaptureHwbuf where
  raw := { FrameMeta.zero with data := [], used := 0, dmaFd := 0 }
  buf := ⟨0, 0, [], 0, 0⟩
  dmaFd := 0
  grabbed := false
  refs := 0

/-- `us_capture_runtime_s`; the null pointer `bufs` is the empty list. -/
structure UsCaptureRuntime where
  fd : Int
  width : Nat
  height : Nat
  format : Nat
  stride : Nat
  hz : ℚ
  rawSize : Nat
  nBufs : Nat
  bufs : List UsCaptureHwbuf
  dma : Bool
  captureMplane : Bool
  streamon : Bool

/-- `us_capture_s`: what the command line sets, and `run`. -/
structure UsCapture where
  width : Nat
  height : Nat
  format : Nat
  formatSwapRgb : Bool
  standard : Nat
  ioMethod : V4l2Memory
  dvTimings : Bool
  persistent : Bool
  nBufs : Nat
  dmaExport : Bool
  dmaRequired : Bool
  minFrameSize : Nat
  allowTruncatedFrames : Bool
  run : UsCaptureRuntime

namespace UsCaptureRuntime

/-- `run->bufs[i]`. -/
def hw (run : UsCaptureRuntime) (i : Nat) : UsCaptureHwbuf :=
  run.bufs.getD i UsCaptureHwbuf.zero

/-- A write to `run->bufs[i]`. -/
def modifyHw (run : UsCaptureRuntime) (i : Nat) (f : UsCaptureHwbuf → UsCaptureHwbuf) :
    UsCaptureRuntime :=
  { run with bufs := run.bufs.modify i f }

/-- A write that keeps a field of the buffer keeps it everywhere. -/
theorem hw_modifyHw_field {β : Type} (field : UsCaptureHwbuf → β) (run : UsCaptureRuntime) (i : Nat)
    (f : UsCaptureHwbuf → UsCaptureHwbuf) (hf : ∀ h, field (f h) = field h) (j : Nat) :
    field ((run.modifyHw i f).hw j) = field (run.hw j) := by
  simp only [hw, modifyHw, List.getD_eq_getElem?_getD, List.getElem?_modify]
  by_cases hij : i = j
  · cases hb : run.bufs[j]? with
    | none => simp [hij]
    | some h => simp [hij, hf]
  · simp [hij]

/-- A write inside the array. -/
theorem hw_modifyHw_self {run : UsCaptureRuntime} {i : Nat} (f : UsCaptureHwbuf → UsCaptureHwbuf)
    (h : i < run.bufs.length) : (run.modifyHw i f).hw i = f (run.hw i) := by
  simp [hw, modifyHw, h]

theorem hw_modifyHw_of_ne {run : UsCaptureRuntime} {i j : Nat}
    (f : UsCaptureHwbuf → UsCaptureHwbuf) (h : i ≠ j) : (run.modifyHw i f).hw j = run.hw j := by
  simp [hw, modifyHw, h]

@[simp] theorem length_bufs_modifyHw (run : UsCaptureRuntime) (i : Nat)
    (f : UsCaptureHwbuf → UsCaptureHwbuf) :
    (run.modifyHw i f).bufs.length = run.bufs.length := by
  simp [modifyHw]

end UsCaptureRuntime

/-! ## 2. Grabbing -/

/-- `_capture_is_buffer_valid`. -/
def captureIsBufferValid (cap : UsCapture) (buf : V4l2Buffer) (data : List UInt8) : Bool :=
  if buf.bytesused < cap.minFrameSize then false
  else if usIsJpeg cap.run.format then
    if buf.bytesused < 125 then false
    else
      let eoiMarker := (data.getD (buf.bytesused - 2) 0).toNat * 256
        + (data.getD (buf.bytesused - 1) 0).toNat
      if eoiMarker ≠ 0xFFD9 ∧ eoiMarker ≠ 0xD900 ∧ eoiMarker ≠ 0x0000 then
        cap.allowTruncatedFrames
      else true
  else true

/-- The event that `VIDIOC_DQEVENT` delivers. -/
inductive V4l2Event
  | sourceChange
  | eos
  | other

/-- `_capture_consume_event`; `none`: the ioctl fails. -/
def captureConsumeEvent : Option V4l2Event → Int
  | none => -1
  | some .sourceChange => -1
  | some .eos => -1
  | some .other => 0

/-- What `select` reports, and the event waiting. -/
structure Selected where
  selected : Int
  hasError : Bool
  event : Option V4l2Event

/-- `_capture_wait_buffer`. -/
def captureWaitBuffer (sel : Selected) : Int :=
  if sel.selected < 0 then -1
  else if sel.selected = 0 then -1
  else if sel.hasError ∧ captureConsumeEvent sel.event < 0 then -1
  else 0

/-- A successful `VIDIOC_DQBUF`: the buffer, what its memory holds by then, and whether the
`VIDIOC_QBUF` of the same turn succeeds. -/
structure Dequeued where
  buf : V4l2Buffer
  data : List UInt8
  qbufOk : Bool

/-- How the `VIDIOC_DQBUF` that ends the loop fails. -/
inductive DqErrno
  | again
  | other
  deriving DecidableEq

/-- The variables of the loop, and the device: `buf` is `some` once `buf_got` is set. -/
structure GrabLoop where
  run : UsCaptureRuntime
  queued : Finset Nat
  buf : Option V4l2Buffer
  broken : Bool

/-- How a turn of the loop ends: `return -1`, or on to the next turn. -/
inductive GrabTurn
  | fail (s : GrabLoop)
  | next (s : GrabLoop)

def GrabTurn.state : GrabTurn → GrabLoop
  | .fail s => s
  | .next s => s

/-- `new`, once its `bytesused` is that of the first plane in the multi-planar case. -/
def Dequeued.new (d : Dequeued) (captureMplane : Bool) : V4l2Buffer :=
  if captureMplane then { d.buf with bytesused := d.buf.planes.getD 0 0 } else d.buf

/-- What `_capture_is_buffer_valid` answers for this buffer. -/
def Dequeued.valid (d : Dequeued) (cap : UsCapture) : Bool :=
  captureIsBufferValid cap (d.new cap.run.captureMplane) d.data

/-- A turn of the `do` loop whose `VIDIOC_DQBUF` succeeds. -/
def grabTurn (cap : UsCapture) (s : GrabLoop) (d : Dequeued) : GrabTurn :=
  let s := { s with queued := s.queued.erase d.buf.index }
  if d.buf.index ≥ s.run.nBufs then .fail s
  else if (s.run.hw d.buf.index).grabbed then .fail s
  else
    let s := { s with run := s.run.modifyHw d.buf.index fun hw =>
      { hw with grabbed := true, raw := { hw.raw with data := d.data } } }
    let new := d.new cap.run.captureMplane
    if !captureIsBufferValid cap new d.data then
      if !d.qbufOk then .fail { s with broken := true }
      else .next { s with
        broken := true
        queued := insert new.index s.queued
        run := s.run.modifyHw new.index fun hw => { hw with grabbed := false } }
    else match s.buf with
      | none => .next { s with broken := false, buf := some new }
      | some buf =>
        if !d.qbufOk then .fail { s with broken := false }
        else .next { s with
          broken := false
          queued := insert buf.index s.queued
          run := s.run.modifyHw buf.index fun hw => { hw with grabbed := false }
          buf := some new }

/-- What a grab leaves behind. -/
structure GrabResult where
  ret : Int
  run : UsCaptureRuntime
  queued : Finset Nat

/-- The end of the grab: the fields of `*hw`. -/
def handOver (run : UsCaptureRuntime) (buf : V4l2Buffer) : UsCaptureRuntime :=
  run.modifyHw buf.index fun hw =>
    { hw with
      refs := 0
      buf := buf
      raw := { hw.raw with
        dmaFd := hw.dmaFd
        used := buf.bytesused
        width := run.width
        height := run.height
        format := run.format
        stride := run.stride
        online := true
        grabTs := ((buf.tvSec * 1000 + buf.tvUsec / 1000 : Nat) : ℚ) / 1000 } }

/-- The turn whose `VIDIOC_DQBUF` fails, and what follows the loop. -/
def grabEnd (s : GrabLoop) (errno : DqErrno) : GrabResult :=
  match errno, s.buf, s.broken with
  | .again, some buf, _ => ⟨buf.index, handOver s.run buf, s.queued⟩
  | .again, none, true => ⟨usErrorNoData, s.run, s.queued⟩
  | _, _, _ => ⟨-1, s.run, s.queued⟩

/-- The `do` loop, over the buffers the driver delivers before `VIDIOC_DQBUF` fails. -/
def grabLoop (cap : UsCapture) (errno : DqErrno) : List Dequeued → GrabLoop → GrabResult
  | [], s => grabEnd s errno
  | d :: ds, s =>
    match grabTurn cap s d with
    | .fail s => ⟨-1, s.run, s.queued⟩
    | .next s => grabLoop cap errno ds s

/-- The variables before the loop. -/
def grabStart (cap : UsCapture) (queued : Finset Nat) : GrabLoop :=
  { run := cap.run, queued := queued, buf := none, broken := false }

/-- `us_capture_hwbuf_grab`. -/
def usCaptureHwbufGrab (cap : UsCapture) (queued : Finset Nat) (sel : Selected)
    (ds : List Dequeued) (errno : DqErrno) : GrabResult :=
  if captureWaitBuffer sel < 0 then ⟨-1, cap.run, queued⟩
  else grabLoop cap errno ds (grabStart cap queued)

/-! ## 3. Releasing and counting -/

/-- `us_capture_hwbuf_release` of `run->bufs[i]`.  `none`: its assertion fails. -/
def usCaptureHwbufRelease (run : UsCaptureRuntime) (queued : Finset Nat) (i : Nat)
    (qbufOk : Bool) : Option GrabResult :=
  if (run.hw i).refs ≠ 0 then none
  else if !qbufOk then some ⟨-1, run, queued⟩
  else some ⟨0, run.modifyHw i fun hw => { hw with grabbed := false },
    insert (run.hw i).buf.index queued⟩

/-- `us_capture_hwbuf_incref`. -/
def usCaptureHwbufIncref (run : UsCaptureRuntime) (i : Nat) : UsCaptureRuntime :=
  run.modifyHw i fun hw => { hw with refs := hw.refs + 1 }

/-- `us_capture_hwbuf_decref`. -/
def usCaptureHwbufDecref (run : UsCaptureRuntime) (i : Nat) : UsCaptureRuntime :=
  run.modifyHw i fun hw => { hw with refs := hw.refs - 1 }

end TinyPilotKvm
