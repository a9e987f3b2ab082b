/-
# Grabbing and releasing, step by step

`us_capture_hwbuf_grab` and `us_capture_hwbuf_release` run in different threads: the loop of the
stream grabs, and the releaser of a buffer gives it back.  They share the flag `grabbed` of the
buffer, without a lock.  Here both are taken apart into the steps between which another thread can
get in: each `VIDIOC_DQBUF`, each `VIDIOC_QBUF`, each test of a flag and each write to one.

The driver delivers only what is queued in it.  What it delivers and when an ioctl fails is
otherwise the environment's choice, and so are the counts `refs`, which belong to the workers: the
releaser waits for its buffer's count to be zero, however it comes to be so.
-/
import TinyPilotKvm.Ustreamer.StreamRefs

namespace TinyPilotKvm

deriving instance DecidableEq for Dequeued

/-- Where the loop is, with the local variables of the grab: `buf` is `some` once `buf_got` is
set. -/
inductive RacePc
  /-- Before the grab. -/
  | top
  /-- Before `VIDIOC_DQBUF`. -/
  | dqbuf (buf : Option V4l2Buffer) (broken : Bool)
  /-- Before `if (GRABBED(new))`. -/
  | test (d : Dequeued) (buf : Option V4l2Buffer)
  /-- Before `GRABBED(new) = true`. -/
  | mark (d : Dequeued) (buf : Option V4l2Buffer)
  /-- Before `_capture_is_buffer_valid`. -/
  | judge (d : Dequeued) (buf : Option V4l2Buffer)
  /-- Before the `VIDIOC_QBUF` of a broken frame. -/
  | requeueBroken (new : V4l2Buffer) (buf : Option V4l2Buffer)
  /-- Before `GRABBED(new) = false`. -/
  | clearBroken (new : V4l2Buffer) (buf : Option V4l2Buffer)
  /-- Before the `VIDIOC_QBUF` of a skipped frame. -/
  | requeueOld (new old : V4l2Buffer)
  /-- Before `GRABBED(buf) = false`. -/
  | clearOld (new old : V4l2Buffer)
  /-- The grab has returned the buffer, and its release is not planned yet. -/
  | holding (hw : Nat)
  /-- The exit "grabbed HW buffer is already used". -/
  | used (i : Nat)
  /-- Any other exit that closes the device. -/
  | closing
  deriving DecidableEq

/-- The loop and the releasers over an open device. -/
structure RaceState where
  cap : UsCapture
  queued : Finset Nat
  pc : RacePc
  releasers : Nat → Releaser
  threadsStop : Bool

namespace RaceState

def setRun (s : RaceState) (run : UsCaptureRuntime) : RaceState :=
  { s with cap := { s.cap with run := run } }

/-- A write to `run->bufs[i].grabbed`. -/
def setGrabbed (s : RaceState) (i : Nat) (grabbed : Bool) : RaceState :=
  s.setRun (s.cap.run.modifyHw i fun hw => { hw with grabbed := grabbed })

def setReleaser (s : RaceState) (b : Nat) (r : Releaser) : RaceState :=
  { s with releasers := Function.update s.releasers b r }

/-- `run->bufs[i].grabbed`. -/
def grabbed (s : RaceState) (i : Nat) : Bool := (s.cap.run.hw i).grabbed

end RaceState

inductive RaceAct
  | waitBuffer (sel : Selected)
  | dqbuf (d : Dequeued)
  | dqbufFails (errno : DqErrno)
  | test
  | mark
  | judge
  | requeue (qbufOk : Bool)
  | clear
  | plan
  | stop
  | refs (hw : Nat) (n : Int)
  | relEnter (b : Nat)
  | relTimeout (b : Nat)
  | relGet (b : Nat)
  | relPoll (b : Nat)
  | relQbuf (b : Nat) (qbufOk : Bool)
  | relClear (b : Nat)

/-- `_capture_wait_buffer`. -/
def raceWaitBuffer (s : RaceState) (sel : Selected) : Option RaceState :=
  match s.pc with
  | .top =>
    if captureWaitBuffer sel < 0 then some { s with pc := .closing }
    else some { s with pc := .dqbuf none false }
  | _ => none

/-- A `VIDIOC_DQBUF` that succeeds, and the test of the index. -/
def raceDqbuf (s : RaceState) (d : Dequeued) : Option RaceState :=
  match s.pc with
  | .dqbuf buf _ =>
    if d.buf.index ∈ s.queued then
      let s := { s with queued := s.queued.erase d.buf.index }
      if d.buf.index ≥ s.cap.run.nBufs then some { s with pc := .closing }
      else some { s with pc := .test d buf }
    else none
  | _ => none

/-- The `VIDIOC_DQBUF` that ends the loop, and what follows. -/
def raceDqbufFails (s : RaceState) (errno : DqErrno) : Option RaceState :=
  match s.pc with
  | .dqbuf buf broken =>
    match errno, buf, broken with
    | .again, some buf, _ =>
      some { s.setRun (handOver s.cap.run buf) with pc := .holding buf.index }
    | .again, none, true => some { s with pc := .top }
    | _, _, _ => some { s with pc := .closing }
  | _ => none

/-- `if (GRABBED(new))`. -/
def raceTest (s : RaceState) : Option RaceState :=
  match s.pc with
  | .test d buf =>
    if s.grabbed d.buf.index then some { s with pc := .used d.buf.index }
    else some { s with pc := .mark d buf }
  | _ => none

/-- `GRABBED(new) = true`. -/
def raceMark (s : RaceState) : Option RaceState :=
  match s.pc with
  | .mark d buf => some { s.setGrabbed d.buf.index true with pc := .judge d buf }
  | _ => none

/-- The choice between the frames. -/
def raceJudge (s : RaceState) : Option RaceState :=
  match s.pc with
  | .judge d buf =>
    let new := d.new s.cap.run.captureMplane
    if !d.valid s.cap then some { s with pc := .requeueBroken new buf }
    else match buf with
      | none => some { s with pc := .dqbuf (some new) false }
      | some old => some { s with pc := .requeueOld new old }
  | _ => none

/-- The `VIDIOC_QBUF` of the grab. -/
def raceRequeue (s : RaceState) (qbufOk : Bool) : Option RaceState :=
  match s.pc with
  | .requeueBroken new buf =>
    if !qbufOk then some { s with pc := .closing }
    else some { s with queued := insert new.index s.queued, pc := .clearBroken new buf }
  | .requeueOld new old =>
    if !qbufOk then some { s with pc := .closing }
    else some { s with queued := insert old.index s.queued, pc := .clearOld new old }
  | _ => none

/-- `GRABBED(..) = false` of the grab. -/
def raceClear (s : RaceState) : Option RaceState :=
  match s.pc with
  | .clearBroken new buf => some { s.setGrabbed new.index false with pc := .dqbuf buf true }
  | .clearOld new old => some { s.setGrabbed old.index false with pc := .dqbuf (some new) false }
  | _ => none

/-- "Plan to release". -/
def racePlan (s : RaceState) : Option RaceState :=
  match s.pc with
  | .holding hw =>
    let index := (s.cap.run.hw hw).buf.index
    let r := s.releasers index
    some { s.setReleaser index { r with queue := putIgnored r.queue hw } with pc := .top }
  | _ => none

/-- The releaser's test of the flag `stop`. -/
def raceRelEnter (s : RaceState) (b : Nat) (r : Releaser) : Option RaceState :=
  match r.pc with
  | .top => some (s.setReleaser b { r with pc := if s.threadsStop then .done else .get })
  | _ => none

/-- Its timed get runs out. -/
def raceRelTimeout (s : RaceState) (b : Nat) (r : Releaser) : Option RaceState :=
  match r.pc with
  | .get => some (s.setReleaser b { r with pc := .top })
  | _ => none

/-- Its get. -/
def raceRelGet (s : RaceState) (b : Nat) (r : Releaser) : Option RaceState :=
  match r.pc, r.queue.get with
  | .get, some (hw, q) => some (s.setReleaser b ⟨q, .hold hw⟩)
  | _, _ => none

/-- One turn of its wait for the count. -/
def raceRelPoll (s : RaceState) (b : Nat) (r : Releaser) : Option RaceState :=
  match r.pc with
  | .hold hw =>
    if (s.cap.run.hw hw).refs > 0 then
      if s.threadsStop then some (s.setReleaser b { r with pc := .done }) else some s
    else some (s.setReleaser b { r with pc := .release hw })
  | _ => none

/-- `us_capture_hwbuf_release` up to its ioctl.  `none`: its assertion fails. -/
def raceRelQbuf (s : RaceState) (b : Nat) (r : Releaser) (qbufOk : Bool) : Option RaceState :=
  match r.pc with
  | .release hw =>
    if (s.cap.run.hw hw).refs ≠ 0 then none
    else if !qbufOk then
      some { s.setReleaser b { r with pc := .done } with threadsStop := true }
    else
      some { s.setReleaser b { r with pc := .clear hw } with
        queued := insert (s.cap.run.hw hw).buf.index s.queued }
  | _ => none

/-- `hw->grabbed = false`, and back to the top. -/
def raceRelClear (s : RaceState) (b : Nat) (r : Releaser) : Option RaceState :=
  match r.pc with
  | .clear hw => some ((s.setGrabbed hw false).setReleaser b { r with pc := .top })
  | _ => none

/-- The thread of a releaser: there is one for each buffer. -/
def onRaceReleaser (s : RaceState) (b : Nat) (f : Releaser → Option RaceState) : Option RaceState :=
  if b < s.cap.run.nBufs then f (s.releasers b) else none

def raceStep (s : RaceState) : RaceAct → Option RaceState
  | .waitBuffer sel => raceWaitBuffer s sel
  | .dqbuf d => raceDqbuf s d
  | .dqbufFails errno => raceDqbufFails s errno
  | .test => raceTest s
  | .mark => raceMark s
  | .judge => raceJudge s
  | .requeue qbufOk => raceRequeue s qbufOk
  | .clear => raceClear s
  | .plan => racePlan s
  | .stop => some { s with threadsStop := true }
  | .refs hw n => some (s.setRun (s.cap.run.modifyHw hw fun h => { h with refs := n }))
  | .relEnter b => onRaceReleaser s b (raceRelEnter s b)
  | .relTimeout b => onRaceReleaser s b (raceRelTimeout s b)
  | .relGet b => onRaceReleaser s b (raceRelGet s b)
  | .relPoll b => onRaceReleaser s b (raceRelPoll s b)
  | .relQbuf b qbufOk => onRaceReleaser s b fun r => raceRelQbuf s b r qbufOk
  | .relClear b => onRaceReleaser s b (raceRelClear s b)

/-- The loop before its first grab, over a device as `us_capture_open` leaves it. -/
def raceInit (cap : UsCapture) : RaceState where
  cap := cap
  queued := Finset.range cap.run.nBufs
  pc := .top
  releasers _ := ⟨Queue.init 1 Nat.one_pos, .top⟩
  threadsStop := false

def raceSystem : System RaceState RaceAct where
  start s := ∃ cap, cap.run.bufs.length = cap.run.nBufs ∧
    (∀ i < cap.run.nBufs, (cap.run.hw i).grabbed = false) ∧ s = raceInit cap
  step := raceStep

end TinyPilotKvm
