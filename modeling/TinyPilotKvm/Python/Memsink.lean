/-
# The Python binding's client of a sink (`python/src/ustreamer.c`)

`_wait_frame` polls like the Janus client, but writes `last_client_ts` in every turn that finds
the region initialised.  With `drop_same_frames` set, a new frame that equals the last one is
passed over for that long: its id is noted and the loop goes on.

`_MemsinkObject_wait_frame` reads the frame that `_wait_frame` has found, still under the lock.
-/
import TinyPilotKvm.Libs.Memsink

namespace TinyPilotKvm

/-- `_MemsinkObject`, less the file descriptor and the timeouts. -/
structure MemsinkObject where
  dropSameFrames : ℚ
  frameId : UInt64
  frameTs : ℚ
  frame : UsFrame

/-- How one turn of the loop of `_wait_frame` ends. -/
inductive PyTurn
  /-- Return 0, with the lock taken. -/
  | found
  /-- Return -1 with a Python exception. -/
  | osError
  /-- The label `retry`: unlock, sleep and go on, unless the deadline has passed. -/
  | retry
  deriving DecidableEq

/-- What a turn of `_wait_frame` leaves behind. -/
structure PyTurnResult where
  turn : PyTurn
  self : MemsinkObject
  mem : UsMemsinkShared

/-- The label `retry`: `flock(LOCK_UN)` and `usleep`, either of which may fail. -/
def pyRetry (unlocked slept : Bool) : PyTurn :=
  if unlocked && slept then .retry else .osError

/-- `_wait_frame` drops the frame in the region as equal to the last one. -/
def pySameFrame (self : MemsinkObject) (mem : UsMemsinkShared) (now : ℚ) : Bool :=
  decide (self.dropSameFrames > 0)
    && usFrameCompareGeometry mem.used mem.toFrameMeta self.frame.used self.frame.toFrameMeta
    && decide (self.frameTs + self.dropSameFrames > now)
    && decide (readBytes self.frame.data mem.used = readBytes mem.data mem.used)

/-- One turn of `_wait_frame`. -/
def pyWaitFrameTurn (self : MemsinkObject) (mem : UsMemsinkShared) (lock : Flock)
    (unlocked slept : Bool) (now : ℚ) : PyTurnResult :=
  match lock with
  | .wouldBlock => ⟨pyRetry true slept, self, mem⟩
  | .failed => ⟨.osError, self, mem⟩
  | .taken =>
    if mem.magic ≠ usMemsinkMagic ∨ mem.version ≠ usMemsinkVersion then
      ⟨pyRetry unlocked slept, self, mem⟩
    else
      let mem1 := { mem with lastClientTs := now }
      if mem1.id = self.frameId then ⟨pyRetry unlocked slept, self, mem1⟩
      else if pySameFrame self mem1 now then
        ⟨pyRetry unlocked slept, { self with frameId := mem1.id }, mem1⟩
      else ⟨.found, self, mem1⟩

/-- `_MemsinkObject_wait_frame` after `_wait_frame` has returned 0, up to the unlock. -/
def pyReadFrame (self : MemsinkObject) (mem : UsMemsinkShared) (keyRequired : Bool) (now : ℚ) :
    MemsinkObject × UsMemsinkShared :=
  ({ self with
      frame := (usFrameSetData self.frame mem.data mem.used).copyMeta mem.toFrameMeta
      frameId := mem.id
      frameTs := now },
    { mem with keyRequested := mem.keyRequested || keyRequired })

end TinyPilotKvm
