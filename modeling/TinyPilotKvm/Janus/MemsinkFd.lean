/-
# The Janus plugin's client of a sink (`janus/src/memsinkfd.c`)

The plugin has its own client.  `us_memsink_fd_wait_frame` takes the lock again and again until
the region holds a frame with a new id, and returns with the lock TAKEN; the caller then
calls `us_memsink_fd_get_frame`, which reads the frame and unlocks.

Two departures from the library's client matter later:

* a turn of the wait that finds no new frame leaves the region alone; `last_client_ts` is
  written by `us_memsink_fd_get_frame` only;
* `us_memsink_fd_get_frame` keeps its result in a `bool`, so its `retval = -1` is returned as 1
  (`ret_usMemsinkFdGetFrame`).
-/
import TinyPilotKvm.Libs.Memsink

namespace TinyPilotKvm

/-- How one turn of the loop of `us_memsink_fd_wait_frame` ends. -/
inductive WaitTurn
  /-- Return 0, with the lock taken. -/
  | found
  /-- Return -1. -/
  | failed
  /-- Sleep a millisecond and go on, unless the deadline has passed. -/
  | again
  deriving DecidableEq

/-- One turn of `us_memsink_fd_wait_frame`. -/
def usMemsinkFdWaitTurn (mem : UsMemsinkShared) (lastId : UInt64) (lock : Flock)
    (unlocked : Bool) : WaitTurn :=
  match lock with
  | .failed => .failed
  | .wouldBlock => .again
  | .taken =>
    if mem.magic = usMemsinkMagic ∧ mem.version = usMemsinkVersion ∧ mem.id ≠ lastId then .found
    else if unlocked then .again
    else .failed

/-- What `us_memsink_fd_get_frame` leaves behind. -/
structure FdGetResult where
  ret : Int
  mem : UsMemsinkShared
  frame : UsFrame
  frameId : UInt64

/-- `us_memsink_fd_get_frame`.  The local `retval` is a `bool`, as in the source. -/
def usMemsinkFdGetFrame (mem : UsMemsinkShared) (frame : UsFrame) (keyRequired unlocked : Bool)
    (now : ℚ) : FdGetResult :=
  let frame' := (usFrameSetData frame mem.data mem.used).copyMeta mem.toFrameMeta
  let mem' := { mem with
    lastClientTs := now
    keyRequested := mem.keyRequested || keyRequired }
  let retval := cBool 0
  let retval := if frame'.format ≠ v4l2PixFmtH264 then cBool (-1) else retval
  let retval := if ¬ unlocked then cBool (-1) else retval
  ⟨cInt retval, mem', frame', mem.id⟩

/-- **The return value.**  0 when the frame is H.264 and the unlock succeeds, and 1, not
-1, otherwise. -/
theorem ret_usMemsinkFdGetFrame (mem : UsMemsinkShared) (frame : UsFrame)
    (keyRequired unlocked : Bool) (now : ℚ) :
    (usMemsinkFdGetFrame mem frame keyRequired unlocked now).ret
      = if mem.format = v4l2PixFmtH264 ∧ unlocked then 0 else 1 := by
  by_cases hf : mem.format = v4l2PixFmtH264 <;> cases unlocked <;>
    simp [usMemsinkFdGetFrame, UsFrame.copyMeta, hf, cBool, cInt]

@[simp] theorem format_usMemsinkFdGetFrame (mem : UsMemsinkShared) (frame : UsFrame)
    (keyRequired unlocked : Bool) (now : ℚ) :
    (usMemsinkFdGetFrame mem frame keyRequired unlocked now).frame.format = mem.format := rfl

end TinyPilotKvm
