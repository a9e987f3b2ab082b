/-
# One sink, its server and all its clients

`sinkSystem` is the protocol: one shared region, the server that puts frames and checks for
clients, and any number of clients of the three kinds the repository has (the library's,
the Janus plugin's, the Python binding's).  A step is one critical section, or one check of
the server; between the steps anything may happen in any order, at any later time.

The clock is part of the state only so that it cannot go back.  A poll of a client is one
attempt to take the lock and what the client does with it.
-/
import TinyPilotKvm.Janus.MemsinkFd
import TinyPilotKvm.Python.Memsink
import TinyPilotKvm.Transition

namespace TinyPilotKvm

/-! ## 1. Parties, events and steps -/

/-- A client of the sink, with what it keeps between two polls. -/
inductive SinkClient
  | libs (sink : UsMemsink) (frame : UsFrame)
  | janus (frameId : UInt64) (frame : UsFrame)
  | python (self : MemsinkObject)

structure SinkState where
  mem : UsMemsinkShared
  server : UsMemsink
  clients : Nat → SinkClient
  clock : ℚ

inductive SinkAct
  | serverPut (frame : UsFrame) (lock : Flock) (unlocked : Bool) (id : UInt64)
  | serverCheck (frame : Option UsFrame) (lock : Flock) (unlocked : Bool)
  | poll (c : Nat) (keyRequired : Bool) (lock : Flock) (unlocked slept : Bool)

/-- An event at a moment of the clock. -/
structure SinkEvent where
  now : ℚ
  act : SinkAct

/-- One poll of a client: the client and the region after it. -/
def pollClient (client : SinkClient) (mem : UsMemsinkShared) (keyRequired : Bool) (lock : Flock)
    (unlocked slept : Bool) (now : ℚ) : SinkClient × UsMemsinkShared :=
  match client with
  | .libs sink frame =>
    let r := usMemsinkClientGet sink mem frame keyRequired lock unlocked now
    (.libs r.sink r.frame, r.mem)
  | .janus frameId frame =>
    match usMemsinkFdWaitTurn mem frameId lock unlocked with
    | .found =>
      let r := usMemsinkFdGetFrame mem frame keyRequired unlocked now
      (.janus r.frameId r.frame, r.mem)
    | .failed | .again => (.janus frameId frame, mem)
  | .python self =>
    let r := pyWaitFrameTurn self mem lock unlocked slept now
    match r.turn with
    | .found =>
      let (self', mem') := pyReadFrame r.self r.mem keyRequired now
      (.python self', mem')
    | .osError | .retry => (.python r.self, r.mem)

/-- What an event does. -/
def sinkAct (s : SinkState) (now : ℚ) : SinkAct → SinkState
  | .serverPut frame lock unlocked id =>
    let r := usMemsinkServerPut s.server s.mem frame lock unlocked id now
    { s with mem := r.mem, server := r.sink }
  | .serverCheck frame lock unlocked =>
    { s with server := (usMemsinkServerCheck s.server s.mem frame lock unlocked now).2 }
  | .poll c keyRequired lock unlocked slept =>
    let r := pollClient (s.clients c) s.mem keyRequired lock unlocked slept now
    { s with mem := r.2, clients := Function.update s.clients c r.1 }

/-- The state after an event. -/
def sinkAfter (s : SinkState) (e : SinkEvent) : SinkState :=
  { sinkAct s e.now e.act with clock := e.now }

/-- Events happen at a moment that is not before the last one. -/
def sinkStep (s : SinkState) (e : SinkEvent) : Option SinkState :=
  if s.clock ≤ e.now then some (sinkAfter s e) else none

/-- The sink from any content of the region and of its users' memories. -/
def sinkSystem : System SinkState SinkEvent where
  start _ := True
  step := sinkStep

@[simp] theorem mem_sinkAfter (s : SinkState) (e : SinkEvent) :
    (sinkAfter s e).mem = (sinkAct s e.now e.act).mem := rfl

@[simp] theorem server_sinkAfter (s : SinkState) (e : SinkEvent) :
    (sinkAfter s e).server = (sinkAct s e.now e.act).server := rfl

@[simp] theorem clients_sinkAfter (s : SinkState) (e : SinkEvent) :
    (sinkAfter s e).clients = (sinkAct s e.now e.act).clients := rfl

@[simp] theorem clock_sinkAfter (s : SinkState) (e : SinkEvent) :
    (sinkAfter s e).clock = e.now := rfl

/-- A step is an event at a moment that is not before the clock. -/
theorem sinkStep_eq_some {s s' : SinkState} {e : SinkEvent} :
    sinkStep s e = some s' ↔ s.clock ≤ e.now ∧ sinkAfter s e = s' := by
  unfold sinkStep
  split <;> simp_all

/-! ## 2. What an event can do to the region

Every later fact about the region goes through these: a refused put and a check leave it
alone, a stored put rewrites it, and a poll touches `last_client_ts` and `key_requested` only. -/

/-- The put gets as far as writing: the frame fits and the lock is taken. -/
def PutStores (sink : UsMemsink) (frame : UsFrame) (lock : Flock) : Prop :=
  frame.used ≤ sink.dataSize ∧ lock = .taken

instance (sink : UsMemsink) (frame : UsFrame) (lock : Flock) :
    Decidable (PutStores sink frame lock) := inferInstanceAs (Decidable (_ ∧ _))

/-- **A refused put** (frame too big, or no lock) **leaves the region unchanged.** -/
theorem put_refused {sink : UsMemsink} {mem : UsMemsinkShared} {frame : UsFrame} {lock : Flock}
    {unlocked : Bool} {id : UInt64} {now : ℚ} (h : ¬ PutStores sink frame lock) :
    (usMemsinkServerPut sink mem frame lock unlocked id now).mem = mem := by
  unfold usMemsinkServerPut
  split
  · rfl
  · rename_i hsize
    cases lock with
    | wouldBlock => rfl
    | failed => rfl
    | taken => exact absurd ⟨by omega, rfl⟩ h

/-- A stored put, field by field. -/
theorem put_stored {sink : UsMemsink} {frame : UsFrame} {lock : Flock}
    (h : PutStores sink frame lock) (mem : UsMemsinkShared) (unlocked : Bool) (id : UInt64)
    (now : ℚ) :
    let mem' := (usMemsinkServerPut sink mem frame lock unlocked id now).mem
    mem'.Initialised ∧ mem'.id = id ∧ mem'.used = frame.used ∧
      mem'.toFrameMeta = frame.toFrameMeta ∧ mem'.lastClientTs = mem.lastClientTs ∧
      mem'.data = writeBytes mem.data frame.bytes := by
  obtain ⟨hsize, rfl⟩ := h
  unfold usMemsinkServerPut
  rw [if_neg (by omega), ← readBytes_data frame]
  exact ⟨⟨rfl, rfl⟩, rfl, rfl, rfl, rfl, rfl⟩

/-- The parts of the region that no client writes. -/
structure SamePicture (mem mem' : UsMemsinkShared) : Prop where
  magic : mem'.magic = mem.magic
  version : mem'.version = mem.version
  id : mem'.id = mem.id
  used : mem'.used = mem.used
  info : mem'.toFrameMeta = mem.toFrameMeta
  data : mem'.data = mem.data

theorem SamePicture.refl (mem : UsMemsinkShared) : SamePicture mem mem :=
  ⟨rfl, rfl, rfl, rfl, rfl, rfl⟩

theorem SamePicture.initialised {mem mem' : UsMemsinkShared} (h : SamePicture mem mem') :
    mem'.Initialised ↔ mem.Initialised := by
  simp only [UsMemsinkShared.Initialised, h.magic, h.version]

/-- The library's client leaves the picture alone. -/
theorem clientGet_samePicture (sink : UsMemsink) (mem : UsMemsinkShared) (frame : UsFrame)
    (keyRequired : Bool) (lock : Flock) (unlocked : Bool) (now : ℚ) :
    SamePicture mem (usMemsinkClientGet sink mem frame keyRequired lock unlocked now).mem := by
  unfold usMemsinkClientGet
  cases lock with
  | wouldBlock => exact .refl _
  | failed => exact .refl _
  | taken =>
    dsimp only
    split
    · exact .refl _
    · split
      · exact .refl _
      · split <;> exact ⟨rfl, rfl, rfl, rfl, rfl, rfl⟩

/-- So does the Python client. -/
theorem pyWaitFrameTurn_samePicture (self : MemsinkObject) (mem : UsMemsinkShared) (lock : Flock)
    (unlocked slept : Bool) (now : ℚ) :
    SamePicture mem (pyWaitFrameTurn self mem lock unlocked slept now).mem := by
  unfold pyWaitFrameTurn
  cases lock with
  | wouldBlock => exact .refl _
  | failed => exact .refl _
  | taken =>
    dsimp only
    split
    · exact .refl _
    · split
      · exact ⟨rfl, rfl, rfl, rfl, rfl, rfl⟩
      · split <;> exact ⟨rfl, rfl, rfl, rfl, rfl, rfl⟩

/-- **No poll touches the picture**, whatever kind of client polls. -/
theorem poll_samePicture (client : SinkClient) (mem : UsMemsinkShared) (keyRequired : Bool)
    (lock : Flock) (unlocked slept : Bool) (now : ℚ) :
    SamePicture mem (pollClient client mem keyRequired lock unlocked slept now).2 := by
  cases client with
  | libs sink frame => exact clientGet_samePicture sink mem frame keyRequired lock unlocked now
  | janus frameId frame =>
    simp only [pollClient]
    split
    · exact ⟨rfl, rfl, rfl, rfl, rfl, rfl⟩
    · exact .refl _
    · exact .refl _
  | python self =>
    have h := pyWaitFrameTurn_samePicture self mem lock unlocked slept now
    simp only [pollClient]
    split
    · exact ⟨h.magic, h.version, h.id, h.used, h.info, h.data⟩
    · exact h
    · exact h

/-- Once written, a region stays initialised. -/
theorem sinkAct_initialised {s : SinkState} (h : s.mem.Initialised) (now : ℚ) (a : SinkAct) :
    (sinkAct s now a).mem.Initialised := by
  cases a with
  | serverPut frame lock unlocked id =>
    by_cases hst : PutStores s.server frame lock
    · exact (put_stored hst s.mem unlocked id now).1
    · simp only [sinkAct, put_refused hst]
      exact h
  | serverCheck frame lock unlocked => exact h
  | poll c keyRequired lock unlocked slept =>
    exact (poll_samePicture
      (s.clients c) s.mem keyRequired lock unlocked slept now).initialised.mpr h

end TinyPilotKvm
