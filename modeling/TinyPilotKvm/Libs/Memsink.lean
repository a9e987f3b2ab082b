/-
# Shared-memory sinks: the server and the library's client (`libs/memsink.c`)

A sink is a region of shared memory with one server and any number of clients.  The region is a
header, `us_memsink_shared_s`, followed by `data_size` bytes for the picture.  Every access to the
region but one is made under an exclusive `flock`, so each function below is one critical
section; the exception is the first half of `us_memsink_server_check`, which reads
`last_client_ts` without the lock.

A lock or unlock is the environment's choice, as is the clock: they are the arguments `lock`,
`unlocked` and `now`.
-/
import TinyPilotKvm.Libs.Frame
import TinyPilotKvm.Libs.Tools

namespace TinyPilotKvm

/-! ## 1. The region -/

def usMemsinkMagic : UInt64 := 0xCAFEBABECAFEBABE
def usMemsinkVersion : UInt32 := 7

/-- `us_memsink_shared_s` and the bytes behind it (`us_memsink_get_data`). -/
structure UsMemsinkShared extends FrameMeta where
  magic : UInt64
  version : UInt32
  id : UInt64
  used : Nat
  lastClientTs : ℚ
  keyRequested : Bool
  data : List UInt8

/-- The region has been written by a server of this version. -/
def UsMemsinkShared.Initialised (mem : UsMemsinkShared) : Prop :=
  mem.magic = usMemsinkMagic ∧ mem.version = usMemsinkVersion

instance (mem : UsMemsinkShared) : Decidable mem.Initialised :=
  inferInstanceAs (Decidable (_ ∧ _))

/-- The picture in the region. -/
def UsMemsinkShared.bytes (mem : UsMemsinkShared) : List UInt8 := mem.data.take mem.used

/-- `us_memsink_s`, of a server or of a client. -/
structure UsMemsink where
  dataSize : Nat
  clientTtl : Nat
  lastReadedId : UInt64
  hasClients : Bool
  unsafeLastClientTs : ℚ

/-! ## 2. The server -/

/-- `us_memsink_server_check`: does the server have a client, or reason to write anyway? -/
def usMemsinkServerCheck (sink : UsMemsink) (mem : UsMemsinkShared) (frame : Option UsFrame)
    (lock : Flock) (unlocked : Bool) (now : ℚ) : Bool × UsMemsink :=
  if ¬ mem.Initialised then (true, sink)
  else if mem.lastClientTs ≠ sink.unsafeLastClientTs then
    (true, { sink with unsafeLastClientTs := mem.lastClientTs, hasClients := true })
  else match lock with
    | .wouldBlock => (true, { sink with hasClients := true })
    | .failed => (false, sink)
    | .taken =>
      let hasClients := decide (mem.lastClientTs + sink.clientTtl > now)
      let sink := { sink with hasClients := hasClients }
      if !unlocked then (false, sink)
      else if hasClients then (true, sink)
      else match frame with
        | none => (false, sink)
        | some f => (!usFrameCompareGeometry mem.used mem.toFrameMeta f.used f.toFrameMeta, sink)

/-- What `us_memsink_server_put` leaves behind; `keyRequested` is what it stores through the
pointer of that name, if it gets so far. -/
structure PutResult where
  ret : Int
  sink : UsMemsink
  mem : UsMemsinkShared
  keyRequested : Option Bool

/-- `us_memsink_server_put`; `id` is the value of `us_get_now_id()`. -/
def usMemsinkServerPut (sink : UsMemsink) (mem : UsMemsinkShared) (frame : UsFrame)
    (lock : Flock) (unlocked : Bool) (id : UInt64) (now : ℚ) : PutResult :=
  if frame.used > sink.dataSize then ⟨0, sink, mem, none⟩
  else match lock with
    | .wouldBlock => ⟨0, sink, mem, none⟩
    | .failed => ⟨-1, sink, mem, none⟩
    | .taken =>
      let keyRequested := mem.keyRequested && !(mem.keyRequested && frame.key)
      let mem' : UsMemsinkShared :=
        { frame.toFrameMeta with
          magic := usMemsinkMagic
          version := usMemsinkVersion
          id := id
          used := frame.used
          lastClientTs := mem.lastClientTs
          keyRequested := keyRequested
          data := writeBytes mem.data (readBytes frame.data frame.used) }
      let sink := { sink with
        hasClients := decide (mem.lastClientTs + sink.clientTtl > now) }
      ⟨if unlocked then 0 else -1, sink, mem', some keyRequested⟩

/-! ## 3. The library's client -/

/-- What `us_memsink_client_get` leaves behind. -/
structure GetResult where
  ret : Int
  sink : UsMemsink
  mem : UsMemsinkShared
  frame : UsFrame
  keyRequested : Option Bool

/-- `us_memsink_client_get`. -/
def usMemsinkClientGet (sink : UsMemsink) (mem : UsMemsinkShared) (frame : UsFrame)
    (keyRequired : Bool) (lock : Flock) (unlocked : Bool) (now : ℚ) : GetResult :=
  match lock with
  | .wouldBlock => ⟨usErrorNoData, sink, mem, frame, none⟩
  | .failed => ⟨-1, sink, mem, frame, none⟩
  | .taken =>
    -- `done`: a failed unlock overrides whatever was to be returned
    let done (retval : Int) : Int := if unlocked then retval else -1
    if mem.magic ≠ usMemsinkMagic then ⟨done usErrorNoData, sink, mem, frame, none⟩
    else if mem.version ≠ usMemsinkVersion then ⟨done (-1), sink, mem, frame, none⟩
    else
      let mem1 := { mem with lastClientTs := now }
      if mem1.id = sink.lastReadedId then ⟨done usErrorNoData, sink, mem1, frame, none⟩
      else
        ⟨done 0, { sink with lastReadedId := mem1.id },
          { mem1 with keyRequested := mem1.keyRequested || keyRequired },
          (usFrameSetData frame mem1.data mem1.used).copyMeta mem1.toFrameMeta,
          some mem1.keyRequested⟩

end TinyPilotKvm
