/-
# The DRM thread (`_drm_thread` of `ustreamer/stream.c`)

The thread shows the captured buffers on a display.  It takes a buffer from its queue, exposes it,
and holds it until the next vsync, when the picture before it is off the screen.  So it has up to
two buffers at a time: `prevHw`, which is on the screen, and the one it has just taken.

A step is one atomic action of the thread, or one of its environment: a stop request, or a buffer
that the stream loop puts into the queue.  `log` records what the thread does with the buffers.
An assertion that fails ends the process (`aborted`).
-/
import TinyPilotKvm.Libs.Drm
import TinyPilotKvm.Ustreamer.LatestHw

namespace TinyPilotKvm

/-! ## 1. State -/

/-- Who calls `_get_latest_hw`: the inner loop, or `SLOWDOWN` at its end or after `close`. -/
inductive DrmCaller
  | live
  | slowInner
  | slowOuter
  deriving DecidableEq

/-- Where the thread is.  `fetch`, `check`, `drop` and `reget` are `_get_latest_hw`. -/
inductive DrmPc
  /-- Before the first `us_drm_close`. -/
  | start
  /-- At `!stop` of the outer loop. -/
  | top
  | opening
  /-- At `!stop` of the inner loop. -/
  | innerTop
  | waiting
  /-- At `US_DELETE(prev_hw)` after the wait. -/
  | release
  | fetch (c : DrmCaller)
  | check (c : DrmCaller) (hw : Nat)
  | drop (c : DrmCaller) (hw : Nat)
  | reget (c : DrmCaller)
  /-- At `opened == 0`. -/
  | holding (hw : Nat)
  | exposeDma (hw : Nat)
  | exposeStub (hw : Nat)
  /-- Before the `decref` of a buffer that was not exposed. -/
  | giveBack (c : DrmCaller) (hw : Nat)
  /-- At the condition of `SLOWDOWN`. -/
  | slowdown (c : DrmCaller)
  | close
  /-- At `US_DELETE(prev_hw)` after `us_drm_close`. -/
  | closeRelease
  | done
  /-- An assertion has failed. -/
  | aborted
  deriving DecidableEq

/-- What happens to the buffers. -/
inductive DrmEvent
  | taken (hw : Nat)
  | decref (hw : Nat)
  | exposed (hw : Nat)
  /-- A buffer could not be exposed. -/
  | exposeFailed (hw : Nat)
  | vsync
  | closed
  deriving DecidableEq

structure DrmState where
  drm : DrmRuntime
  run : UsCaptureRuntime
  queue : Queue Nat
  stop : Bool
  pc : DrmPc
  prevHw : Option Nat
  log : List DrmEvent

/-! ## 2. Steps -/

namespace DrmState

def decref (s : DrmState) (hw : Nat) : DrmState :=
  { s with run := usCaptureHwbufDecref s.run hw, log := s.log ++ [.decref hw] }

/-- `US_DELETE(prev_hw, us_capture_hwbuf_decref)`. -/
def deletePrev (s : DrmState) : DrmState :=
  match s.prevHw with
  | none => s
  | some hw => { s.decref hw with prevHw := none }

end DrmState

/-- Where `_get_latest_hw` returns to with a buffer. -/
def DrmCaller.gotHw (c : DrmCaller) (hw : Nat) : DrmPc :=
  match c with
  | .live => .holding hw
  | .slowInner | .slowOuter => .giveBack c hw

/-- And with the null pointer. -/
def DrmCaller.gotNull : DrmCaller → DrmPc
  | .live => .innerTop
  | c => .slowdown c

/-- Where `SLOWDOWN` goes on. -/
def DrmCaller.afterSlowdown : DrmCaller → DrmPc
  | .slowOuter => .top
  | _ => .innerTop

inductive DrmAct
  /-- A step of the thread in which the environment decides nothing. -/
  | go
  /-- `us_drm_wait_for_vsync` or `us_drm_close`. -/
  | device (status : DrmStatus) (wait : VsyncWait)
  | openDev (opening : DrmOpening)
  /-- The timed get of `_get_latest_hw` runs out. -/
  | timeout
  | get
  /-- A `us_drm_expose_*`; `flip` is what `drmModePageFlip` returns. -/
  | expose (status : DrmStatus) (flip : Int)
  /-- The clock in `SLOWDOWN`; `late`: the second is over. -/
  | clock (late : Bool)
  | stopRequest
  /-- `QUEUE_HW(drm_ctx)` of the stream loop. -/
  | queueHw (hw : Nat)

/-- The steps in which the environment decides nothing. -/
def drmGo (s : DrmState) : Option DrmState :=
  match s.pc with
  | .top => some { s with pc := if s.stop then .done else .opening }
  | .innerTop => some { s with pc := if s.stop then .close else .waiting }
  | .release => some { s.deletePrev with pc := .fetch .live }
  | .check c hw => some { s with pc := if s.queue.isEmpty then c.gotHw hw else .drop c hw }
  | .drop c hw => some { s.decref hw with pc := .reget c }
  | .reget c =>
    match s.queue.get with
    | none => some { s with pc := .aborted }
    | some (hw, queue) =>
      some { s with queue := queue, pc := .check c hw, log := s.log ++ [.taken hw] }
  | .holding hw => some { s with pc := if s.drm.opened = 0 then .exposeDma hw else .exposeStub hw }
  | .giveBack c hw => some { s.decref hw with pc := .slowdown c }
  | .closeRelease => some { s.deletePrev with pc := .slowdown .slowOuter }
  | _ => none

/-- `us_drm_close` at the beginning and at `close`, and `us_drm_wait_for_vsync`. -/
def drmDevice (s : DrmState) (status : DrmStatus) (wait : VsyncWait) : Option DrmState :=
  match s.pc with
  | .start =>
    match usDrmClose s.drm status wait with
    | none => some { s with pc := .aborted }
    | some drm => some { s with drm := drm, pc := .top, log := s.log ++ [.closed] }
  | .close =>
    match usDrmClose s.drm status wait with
    | none => some { s with pc := .aborted }
    | some drm => some { s with drm := drm, pc := .closeRelease, log := s.log ++ [.closed] }
  | .waiting =>
    match usDrmWaitForVsync s.drm status wait with
    | none => some { s with pc := .aborted }
    | some (drm, ret) =>
      if ret < 0 then some { s with drm := drm, pc := .close }
      else some { s with drm := drm, pc := .release, log := s.log ++ [.vsync] }
  | _ => none

/-- `CHECK(us_drm_open(stream->drm, ctx->stream->cap))`. -/
def drmOpening (s : DrmState) (opening : DrmOpening) : Option DrmState :=
  match s.pc with
  | .opening =>
    match usDrmOpen s.drm opening with
    | none => some { s with pc := .aborted }
    | some (drm, ret) => some { s with drm := drm, pc := if ret < 0 then .close else .innerTop }
  | _ => none

def drmTimeout (s : DrmState) : Option DrmState :=
  match s.pc with
  | .fetch c => some { s with pc := c.gotNull }
  | _ => none

/-- The first get of `_get_latest_hw`. -/
def drmGet (s : DrmState) : Option DrmState :=
  match s.pc, s.queue.get with
  | .fetch c, some (hw, queue) =>
    some { s with queue := queue, pc := .check c hw, log := s.log ++ [.taken hw] }
  | _, _ => none

/-- `CHECK(us_drm_expose_dma(..))` and what follows, and `CHECK(us_drm_expose_stub(..))`. -/
def drmExpose (s : DrmState) (status : DrmStatus) (flip : Int) : Option DrmState :=
  match s.pc with
  | .exposeDma hw =>
    match usDrmExposeDma s.drm (s.run.hw hw).dmaFd status flip with
    | none => some { s with pc := .aborted }
    | some (drm, ret) =>
      if ret < 0 then some { s with drm := drm, pc := .close, log := s.log ++ [.exposeFailed hw] }
      else
        some { s with
          drm := drm, prevHw := some hw, pc := .innerTop, log := s.log ++ [.exposed hw] }
  | .exposeStub hw =>
    match usDrmExposeStub s.drm status flip with
    | none => some { s with pc := .aborted }
    | some (drm, ret) =>
      if ret < 0 then some { s with drm := drm, pc := .close, log := s.log ++ [.exposeFailed hw] }
      else some { s with drm := drm, pc := .giveBack .slowInner hw }
  | _ => none

/-- The condition of `SLOWDOWN`. -/
def drmClock (s : DrmState) (late : Bool) : Option DrmState :=
  match s.pc with
  | .slowdown c => some { s with pc := if s.stop || late then c.afterSlowdown else .fetch c }
  | _ => none

def drmStep (s : DrmState) : DrmAct → Option DrmState
  | .go => drmGo s
  | .device status wait => drmDevice s status wait
  | .openDev opening => drmOpening s opening
  | .timeout => drmTimeout s
  | .get => drmGet s
  | .expose status flip => drmExpose s status flip
  | .clock late => drmClock s late
  | .stopRequest => some { s with stop := true }
  | .queueHw hw =>
    some { s with run := usCaptureHwbufIncref s.run hw, queue := putIgnored s.queue hw }

/-- The thread when it is created: the display may be open for a stub, and the queue is empty. -/
def drmSystem : System DrmState DrmAct where
  start s := s.drm.Sound ∧ s.queue.toList = [] ∧ s.pc = .start ∧ s.prevHw = none ∧ s.log = []
  step := drmStep

end TinyPilotKvm
