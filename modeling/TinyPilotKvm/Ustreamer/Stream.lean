/-
# The stream loop and its threads (`ustreamer/stream.c`)

Between one opening of the device and the next close, these run at the same time:

* the loop of `us_stream_loop`: it grabs a buffer, hands a pointer to it to the queue of every
  worker (`QUEUE_HW`: first `us_capture_hwbuf_incref`, then `us_queue_put` without waiting, whose
  result it does not look at), and plans its release;
* the workers `_jpeg_thread`, `_raw_thread` and `_h264_thread`, fed from their queues through
  `_get_latest_hw`; the JPEG thread attaches the buffer to a job of the encoder's pool;
* the encoder's workers, which finish the jobs;
* one `_releaser_thread` for each buffer, which waits until nobody refers to the buffer and
  gives it back to the driver.

A step is one atomic action of one thread: a test of a flag, one operation on a queue, one
increment or decrement, one ioctl.  What a worker does with the picture (encoding it, putting it
into a sink, or neither) does not touch the counts, so it is the choice between `pass` and
`assign` here.  The release has two steps, the ioctl and the clearing of `grabbed`; the mutex
between the releasers orders only releases of different buffers and is left out, and so is
the DRM worker, which is not compiled in.
-/
import Mathlib.Logic.Function.Basic
import TinyPilotKvm.Libs.Capture.Ownership
import TinyPilotKvm.Libs.Queue

namespace TinyPilotKvm

/-! ## 1. The threads -/

/-- The workers in the order of `QUEUE_HW`. -/
inductive WorkerKind
  | jpeg
  | raw
  | h264
  deriving DecidableEq

/-- Where a worker is.  `wait` and `collect` are the JPEG thread's only: before
`us_workers_pool_wait`, and where it finds a finished job.  `fetch`, `check`, `drop` and `reget` are
`_get_latest_hw`. -/
inductive WorkerPc
  | top
  | wait
  | collect
  | fetch
  | check (hw : Nat)
  | drop (hw : Nat)
  | reget
  | holding (hw : Nat)
  | exited
  deriving DecidableEq

/-- `_worker_context_s`, and the thread's variables: `wr` is the encoder's worker that the JPEG
thread has waited for. -/
structure WorkerCtx where
  queue : Queue Nat
  pc : WorkerPc
  wr : Nat

/-- A worker of the encoder's pool: its `has_job`, and `hw` of its job. -/
structure PoolWorker where
  hw : Option Nat
  hasJob : Bool
  deriving DecidableEq

/-- Where a releaser is; `release` is before the ioctl, `clear` after it. -/
inductive ReleaserPc
  | top
  | get
  | hold (hw : Nat)
  | release (hw : Nat)
  | clear (hw : Nat)
  | done
  deriving DecidableEq

/-- `_releaser_context_s`. -/
structure Releaser where
  queue : Queue Nat
  pc : ReleaserPc

/-- Where the loop is: `queueHw hw todo` has `QUEUE_HW` to do for the workers `todo`, and `putHw` is
inside one, after the `incref`. -/
inductive LoopPc
  | top
  | grab
  | queueHw (hw : Nat) (todo : List WorkerKind)
  | putHw (hw : Nat) (k : WorkerKind) (todo : List WorkerKind)
  | closing
  deriving DecidableEq

/-- The stream while the device is open.  A worker that is not created is `none`, the null pointer
of `CREATE_WORKER`. -/
structure StreamState where
  cap : UsCapture
  queued : Finset Nat
  pc : LoopPc
  ctx : WorkerKind → Option WorkerCtx
  pool : List PoolWorker
  releasers : Nat → Releaser
  threadsStop : Bool
  runStop : Bool

/-! ## 2. Starting -/

/-- The capacities that `CREATE_WORKER` is given. -/
def workerCapacity (nBufs : Nat) : WorkerKind → Nat
  | .jpeg => nBufs
  | .raw => 2
  | .h264 => nBufs

theorem workerCapacity_pos {nBufs : Nat} (h : 0 < nBufs) (k : WorkerKind) :
    0 < workerCapacity nBufs k := by
  cases k <;> simp only [workerCapacity] <;> omega

/-- The stream once all the threads of `us_stream_loop` are created. -/
def streamInit (cap : UsCapture) (queued : Finset Nat) (enabled : WorkerKind → Bool)
    (nWorkers : Nat) (h : 0 < cap.run.nBufs) : StreamState where
  cap := cap
  queued := queued
  pc := .top
  ctx k := if enabled k then
      some ⟨Queue.init (workerCapacity cap.run.nBufs k) (workerCapacity_pos h k), .top, 0⟩
    else none
  pool := List.replicate nWorkers ⟨none, false⟩
  releasers _ := ⟨Queue.init 1 (by decide), .top⟩
  threadsStop := false
  runStop := false

/-! ## 3. Steps -/

namespace StreamState

def setRun (s : StreamState) (run : UsCaptureRuntime) : StreamState :=
  { s with cap := { s.cap with run := run } }

def decref (s : StreamState) (hw : Nat) : StreamState :=
  s.setRun (usCaptureHwbufDecref s.cap.run hw)

def setCtx (s : StreamState) (k : WorkerKind) (c : WorkerCtx) : StreamState :=
  { s with ctx := Function.update s.ctx k (some c) }

def setReleaser (s : StreamState) (b : Nat) (r : Releaser) : StreamState :=
  { s with releasers := Function.update s.releasers b r }

/-- The workers that were created, in the order of `QUEUE_HW`. -/
def workers (s : StreamState) : List WorkerKind :=
  [.jpeg, .raw, .h264].filter fun k => (s.ctx k).isSome

end StreamState

/-- `us_queue_put(queue, hw, 0)` where nobody looks at the result. -/
def putIgnored (queue : Queue Nat) (hw : Nat) : Queue Nat := (queue.put hw).getD queue

inductive StreamAct
  | loopBreak
  | loopCheck
  | grab (sel : Selected) (ds : List Dequeued) (errno : DqErrno)
  | incref
  | put
  | plan
  | enter (k : WorkerKind)
  | wait (w : Nat)
  | collect
  | timeout (k : WorkerKind)
  | get (k : WorkerKind)
  | check (k : WorkerKind)
  | drop (k : WorkerKind)
  | reget (k : WorkerKind)
  | pass (k : WorkerKind)
  | assign
  | finish (w : Nat)
  | relEnter (b : Nat)
  | relTimeout (b : Nat)
  | relGet (b : Nat)
  | relPoll (b : Nat)
  | relQbuf (b : Nat) (qbufOk : Bool)
  | relClear (b : Nat)

/-- The loop's test of both flags. -/
def loopCheck (s : StreamState) : Option StreamState :=
  match s.pc with
  | .top =>
    if s.runStop || s.threadsStop then some { s with pc := .closing, threadsStop := true }
    else some { s with pc := .grab }
  | _ => none

/-- The loop's grab, and its `switch`. -/
def loopGrab (s : StreamState) (sel : Selected) (ds : List Dequeued) (errno : DqErrno) :
    Option StreamState :=
  match s.pc with
  | .grab =>
    let r := usCaptureHwbufGrab s.cap s.queued sel ds errno
    let s' := { s.setRun r.run with queued := r.queued }
    if 0 ≤ r.ret then some { s' with pc := .queueHw r.ret.toNat s.workers }
    else if r.ret = usErrorNoData then some { s' with pc := .top }
    else some { s' with pc := .closing, threadsStop := true }
  | _ => none

/-- The first half of `QUEUE_HW`. -/
def loopIncref (s : StreamState) : Option StreamState :=
  match s.pc with
  | .queueHw hw (k :: todo) =>
    some { s.setRun (usCaptureHwbufIncref s.cap.run hw) with pc := .putHw hw k todo }
  | _ => none

/-- The second half of `QUEUE_HW`. -/
def loopPut (s : StreamState) : Option StreamState :=
  match s.pc with
  | .putHw hw k todo =>
    (s.ctx k).map fun c =>
      { s.setCtx k { c with queue := putIgnored c.queue hw } with pc := .queueHw hw todo }
  | _ => none

/-- "Plan to release". -/
def loopPlan (s : StreamState) : Option StreamState :=
  match s.pc with
  | .queueHw hw [] =>
    let index := (s.cap.run.hw hw).buf.index
    let r := s.releasers index
    some { s.setReleaser index { r with queue := putIgnored r.queue hw } with pc := .top }
  | _ => none

/-- A worker's test of the flag. -/
def workerEnter (s : StreamState) (k : WorkerKind) (c : WorkerCtx) : Option StreamState :=
  match c.pc with
  | .top =>
    if s.threadsStop then some (s.setCtx k { c with pc := .exited })
    else some (s.setCtx k { c with pc := if k = .jpeg then .wait else .fetch })
  | _ => none

/-- `us_workers_pool_wait` of the JPEG thread, which returns a worker without a job. -/
def jpegWait (s : StreamState) (c : WorkerCtx) (w : Nat) : Option StreamState :=
  match c.pc, s.pool[w]? with
  | .wait, some ⟨hw, false⟩ =>
    some (s.setCtx .jpeg { c with wr := w, pc := if hw.isSome then .collect else .fetch })
  | _, _ => none

/-- The JPEG thread takes the buffer off a finished job. -/
def jpegCollect (s : StreamState) (c : WorkerCtx) : Option StreamState :=
  match c.pc, s.pool[c.wr]? with
  | .collect, some ⟨some hw, hasJob⟩ =>
    some { (s.decref hw).setCtx .jpeg { c with pc := .fetch } with
      pool := s.pool.set c.wr ⟨none, hasJob⟩ }
  | _, _ => none

/-- The timed get of `_get_latest_hw` runs out. -/
def workerTimeout (s : StreamState) (k : WorkerKind) (c : WorkerCtx) : Option StreamState :=
  match c.pc with
  | .fetch => some (s.setCtx k { c with pc := .top })
  | _ => none

/-- The first get of `_get_latest_hw`. -/
def workerGet (s : StreamState) (k : WorkerKind) (c : WorkerCtx) : Option StreamState :=
  match c.pc, c.queue.get with
  | .fetch, some (hw, q) => some (s.setCtx k { c with queue := q, pc := .check hw })
  | _, _ => none

/-- The condition of the loop of `_get_latest_hw`. -/
def workerCheck (s : StreamState) (k : WorkerKind) (c : WorkerCtx) : Option StreamState :=
  match c.pc with
  | .check hw =>
    some (s.setCtx k { c with pc := if c.queue.isEmpty then .holding hw else .drop hw })
  | _ => none

/-- The body of that loop: the older buffer goes. -/
def workerDrop (s : StreamState) (k : WorkerKind) (c : WorkerCtx) : Option StreamState :=
  match c.pc with
  | .drop hw => some ((s.decref hw).setCtx k { c with pc := .reget })
  | _ => none

/-- And a newer one comes; `none` on an empty queue: the assertion fails. -/
def workerReget (s : StreamState) (k : WorkerKind) (c : WorkerCtx) : Option StreamState :=
  match c.pc, c.queue.get with
  | .reget, some (hw, q) => some (s.setCtx k { c with queue := q, pc := .check hw })
  | _, _ => none

/-- The worker is done with the buffer: published, encoded, or passed over. -/
def workerPass (s : StreamState) (k : WorkerKind) (c : WorkerCtx) : Option StreamState :=
  match c.pc with
  | .holding hw => some ((s.decref hw).setCtx k { c with pc := .top })
  | _ => none

/-- The JPEG thread attaches the buffer to the job and assigns it. -/
def jpegAssign (s : StreamState) (c : WorkerCtx) : Option StreamState :=
  match c.pc with
  | .holding hw =>
    some { s.setCtx .jpeg { c with pc := .top } with pool := s.pool.set c.wr ⟨some hw, true⟩ }
  | _ => none

/-- A worker of the encoder's pool has run its job. -/
def poolFinish (s : StreamState) (w : Nat) : Option StreamState :=
  match s.pool[w]? with
  | some ⟨hw, true⟩ => some { s with pool := s.pool.set w ⟨hw, false⟩ }
  | _ => none

/-- A releaser's test of the flag. -/
def releaserEnter (s : StreamState) (b : Nat) (r : Releaser) : Option StreamState :=
  match r.pc with
  | .top =>
    if s.threadsStop then some (s.setReleaser b { r with pc := .done })
    else some (s.setReleaser b { r with pc := .get })
  | _ => none

def releaserTimeout (s : StreamState) (b : Nat) (r : Releaser) : Option StreamState :=
  match r.pc with
  | .get => some (s.setReleaser b { r with pc := .top })
  | _ => none

def releaserGet (s : StreamState) (b : Nat) (r : Releaser) : Option StreamState :=
  match r.pc, r.queue.get with
  | .get, some (hw, q) => some (s.setReleaser b ⟨q, .hold hw⟩)
  | _, _ => none

/-- One turn of the loop that waits for the count to come down. -/
def releaserPoll (s : StreamState) (b : Nat) (r : Releaser) : Option StreamState :=
  match r.pc with
  | .hold hw =>
    if (s.cap.run.hw hw).refs > 0 then
      if s.threadsStop then some (s.setReleaser b { r with pc := .done }) else some s
    else some (s.setReleaser b { r with pc := .release hw })
  | _ => none

/-- `us_capture_hwbuf_release` up to its ioctl.  `none`: its assertion fails. -/
def releaserQbuf (s : StreamState) (b : Nat) (r : Releaser) (qbufOk : Bool) : Option StreamState :=
  match r.pc with
  | .release hw =>
    if (s.cap.run.hw hw).refs ≠ 0 then none
    else if !qbufOk then
      some { s.setReleaser b { r with pc := .done } with threadsStop := true }
    else
      some { s.setReleaser b { r with pc := .clear hw } with
        queued := insert (s.cap.run.hw hw).buf.index s.queued }
  | _ => none

/-- The rest of `us_capture_hwbuf_release`. -/
def releaserClear (s : StreamState) (b : Nat) (r : Releaser) : Option StreamState :=
  match r.pc with
  | .clear hw =>
    some ((s.setRun (s.cap.run.modifyHw hw fun h => { h with grabbed := false })).setReleaser b
      { r with pc := .top })
  | _ => none

/-- The thread of a worker that was created. -/
def onWorker (s : StreamState) (k : WorkerKind) (f : WorkerCtx → Option StreamState) :
    Option StreamState :=
  (s.ctx k).bind f

/-- The thread of a releaser: there is one for each buffer. -/
def onReleaser (s : StreamState) (b : Nat) (f : Releaser → Option StreamState) :
    Option StreamState :=
  if b < s.cap.run.nBufs then f (s.releasers b) else none

def streamStep (s : StreamState) : StreamAct → Option StreamState
  | .loopBreak => some { s with runStop := true }
  | .loopCheck => loopCheck s
  | .grab sel ds errno => loopGrab s sel ds errno
  | .incref => loopIncref s
  | .put => loopPut s
  | .plan => loopPlan s
  | .enter k => onWorker s k (workerEnter s k)
  | .wait w => onWorker s .jpeg fun c => jpegWait s c w
  | .collect => onWorker s .jpeg (jpegCollect s)
  | .timeout k => onWorker s k (workerTimeout s k)
  | .get k => onWorker s k (workerGet s k)
  | .check k => onWorker s k (workerCheck s k)
  | .drop k => onWorker s k (workerDrop s k)
  | .reget k => onWorker s k (workerReget s k)
  | .pass k => onWorker s k (workerPass s k)
  | .assign => onWorker s .jpeg (jpegAssign s)
  | .finish w => poolFinish s w
  | .relEnter b => onReleaser s b (releaserEnter s b)
  | .relTimeout b => onReleaser s b (releaserTimeout s b)
  | .relGet b => onReleaser s b (releaserGet s b)
  | .relPoll b => onReleaser s b (releaserPoll s b)
  | .relQbuf b qbufOk => onReleaser s b fun r => releaserQbuf s b r qbufOk
  | .relClear b => onReleaser s b (releaserClear s b)

/-- The stream over a device as `us_capture_open` leaves it, with any of its workers and any number
of encoder workers. -/
def streamSystem : System StreamState StreamAct where
  start s := ∃ cap enabled nWorkers, ∃ h : 0 < cap.run.nBufs,
    cap.run.bufs.length = cap.run.nBufs ∧
      (∀ i < cap.run.nBufs, (cap.run.hw i).grabbed = false ∧ (cap.run.hw i).refs = 0) ∧
      s = streamInit cap (Finset.range cap.run.nBufs) enabled nWorkers h
  step := streamStep

/-- A device with `nBufs` fresh buffers. -/
def freshCapture (nBufs : Nat) : UsCapture :=
  { width := 640, height := 480, format := v4l2PixFmtYuyv, formatSwapRgb := false,
    standard := 0, ioMethod := .mmap, dvTimings := false, persistent := false,
    nBufs := nBufs, dmaExport := false, dmaRequired := false, minFrameSize := 128,
    allowTruncatedFrames := false
    run :=
      { fd := 3, width := 640, height := 480, format := v4l2PixFmtYuyv, stride := 1280, hz := 0,
        rawSize := 614400, nBufs := nBufs, bufs := List.replicate nBufs .zero, dma := false,
        captureMplane := false, streamon := true } }

end TinyPilotKvm
