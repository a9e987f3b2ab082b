/-
# The video threads of the Janus plugin (`janus/src/plugin.c`)

Two threads share a ring of frames.  `_video_sink_thread` fetches frames from a shared-memory sink
into slots of the ring; `_video_rtp_thread` takes them out and has them packetized.  The message
handler of the plugin talks to the first one through `_g_key_required`, an atomic flag.

The sink thread's program counter has a value for every access to something shared, so the flag is
read, the frame fetched, the slot published and the flag cleared in four separate steps.  The
sink's region is under an exclusive lock from the end of the wait to the end of the fetch
(`locked`), and whoever else has the region mapped may write to it whenever it is not.

A failed assertion ends the process: after `aborted` or `fault` no thread takes a step.
-/
import TinyPilotKvm.Janus.MemsinkFd
import TinyPilotKvm.Janus.Rtpv
import TinyPilotKvm.Libs.Ring

namespace TinyPilotKvm

/-! ## 1. State -/

inductive VideoThread
  | sink
  | rtp
  deriving DecidableEq

/-- Where `_video_sink_thread` is.  `ri` is `none` for the -1 of a full ring. -/
inductive VideoSinkPc
  /-- At `!_STOP` of the outer loop. -/
  | top
  /-- At `!_HAS_WATCHERS`. -/
  | idle
  /-- Before the region is opened and mapped. -/
  | opening
  /-- At `!_STOP` of the inner loop. -/
  | inner
  /-- At `_HAS_WATCHERS` of the inner loop. -/
  | watched
  /-- In `us_memsink_fd_wait_frame`. -/
  | waiting
  /-- Before `us_ring_producer_acquire`. -/
  | acquire
  /-- Before `atomic_load(&_g_key_required)`. -/
  | readKey (ri : Option Nat)
  /-- Before `us_memsink_fd_get_frame`. -/
  | get (ri : Option Nat) (keyRequired : Bool)
  /-- Before `us_ring_producer_release`. -/
  | publish (ri : Option Nat) (got : Int)
  /-- Before the two tests after it. -/
  | check (ri : Option Nat) (got : Int)
  /-- Before `atomic_store(&_g_key_required, false)`. -/
  | clear
  /-- At `close_memsink`. -/
  | close
  | done
  deriving DecidableEq

/-- The slot that the sink thread has acquired and not released. -/
def VideoSinkPc.slot : VideoSinkPc → Option Nat
  | .readKey ri | .get ri _ | .publish ri _ => ri
  | _ => none

/-- Where `_video_rtp_thread` is. -/
inductive VideoRtpPc
  /-- At `!_STOP`. -/
  | top
  /-- Before `us_ring_consumer_acquire`. -/
  | acquire
  /-- Before `us_rtpv_wrap`. -/
  | wrap (ri : Nat)
  /-- Before `us_ring_consumer_release`. -/
  | release (ri : Nat)
  | done
  deriving DecidableEq

/-- The slot that the RTP thread has acquired and not released. -/
def VideoRtpPc.slot : VideoRtpPc → Option Nat
  | .wrap ri | .release ri => some ri
  | _ => none

structure VideoState where
  /-- `_g_video_ring` and who holds its slots. -/
  ring : RingState VideoThread
  /-- `_g_video_ring->items`. -/
  items : Nat → UsFrame
  drop : UsFrame
  frameId : UInt64
  /-- The region of the sink. -/
  mem : UsMemsinkShared
  /-- The sink thread has the lock of the region. -/
  locked : Bool
  keyRequired : Bool
  hasWatchers : Bool
  stop : Bool
  sink : VideoSinkPc
  rtp : VideoRtpPc
  rtpv : UsRtpv
  /-- The frames that `us_rtpv_wrap` has been called with. -/
  wrapped : List UsFrame
  /-- How `us_rtpv_wrap` has ended the process. -/
  fault : Option RtpvFault

/-- The frame that `ri` stands for, `drop` when the ring was full. -/
def VideoState.frame (s : VideoState) : Option Nat → UsFrame
  | none => s.drop
  | some i => s.items i

/-- A new content for that frame. -/
def VideoState.setFrame (s : VideoState) (ri : Option Nat) (frame : UsFrame) : VideoState :=
  match ri with
  | none => { s with drop := frame }
  | some i => { s with items := Function.update s.items i frame }

/-! ## 2. Steps -/

/-- A step of the sink thread, with what the environment decides in it. -/
inductive VideoSinkAct
  /-- A step in which it decides nothing. -/
  | go
  | openMemsink (ok : Bool)
  /-- A turn of the wait; `late`: the deadline has passed. -/
  | waitTurn (lock : Flock) (unlocked late : Bool)
  | acquire (timedOut : Bool)
  | get (unlocked : Bool) (now : ℚ)

/-- A step of the RTP thread. -/
inductive VideoRtpAct
  | go
  | acquire (timedOut : Bool)
  | wrap (now : UInt64)

inductive VideoAct
  | sink (a : VideoSinkAct)
  | rtp (a : VideoRtpAct)
  /-- The handler of a `key_required` message. -/
  | keyRequiredMessage
  /-- A change of `_g_has_watchers`. -/
  | watchers (b : Bool)
  | stop
  /-- Another process writes to the region. -/
  | write (mem : UsMemsinkShared)

/-- `_video_sink_thread` after a turn of `us_memsink_fd_wait_frame`. -/
def afterWaitTurn (turn : WaitTurn) (late : Bool) : VideoSinkPc :=
  match turn with
  | .found => .acquire
  | .failed => .close
  | .again => if late then .inner else .waiting

/-- Has the thread the lock after a turn of the wait? -/
def lockedAfter (s : VideoState) (turn : WaitTurn) (lock : Flock) (unlocked : Bool) : Bool :=
  match lock with
  | .taken => turn == .found || !unlocked
  | _ => s.locked

/-- `us_ring_producer_acquire(_g_video_ring, 0)`. -/
def videoSinkAcquire (s : VideoState) (timedOut : Bool) : Option VideoState :=
  if timedOut then some { s with sink := .readKey none }
  else match usRingProducerAcquire s.ring.ring with
    | none => some { s with sink := .readKey none }
    | some (ri, _) => (ringStep s.ring (.producerAcquire .sink false)).map fun ring =>
        { s with ring := ring, sink := .readKey (some ri) }

/-- The call of `us_memsink_fd_get_frame`. -/
def videoSinkGet (s : VideoState) (ri : Option Nat) (keyRequired unlocked : Bool) (now : ℚ) :
    VideoState :=
  let r := usMemsinkFdGetFrame s.mem (s.frame ri) keyRequired unlocked now
  { s.setFrame ri r.frame with
    mem := r.mem
    frameId := r.frameId
    locked := !unlocked
    sink := .publish ri r.ret }

/-- `us_ring_producer_release`, if there is a slot. -/
def videoSinkPublish (s : VideoState) (ri : Option Nat) (got : Int) : Option VideoState :=
  match ri with
  | none => some { s with sink := .check none got }
  | some i => (ringStep s.ring (.producerRelease .sink i)).map fun ring =>
      { s with ring := ring, sink := .check (some i) got }

/-- The tests of `got` and of `frame->key`. -/
def videoSinkCheck (s : VideoState) (ri : Option Nat) (got : Int) : VideoSinkPc :=
  if got < 0 then .close
  else if ri.isSome ∧ (s.frame ri).key then .clear
  else .inner

/-- `_video_sink_thread`. -/
def videoSinkStep (s : VideoState) (a : VideoSinkAct) : Option VideoState :=
  match s.sink, a with
  | .top, .go => some { s with sink := if s.stop then .done else .idle }
  | .idle, .go => some { s with sink := if s.hasWatchers then .opening else .top }
  | .opening, .openMemsink ok => some { s with sink := if ok then .inner else .close }
  | .inner, .go => some { s with sink := if s.stop then .close else .watched }
  | .watched, .go => some { s with sink := if s.hasWatchers then .waiting else .close }
  | .waiting, .waitTurn lock unlocked late =>
    let turn := usMemsinkFdWaitTurn s.mem s.frameId lock unlocked
    some { s with
      sink := afterWaitTurn turn late
      locked := lockedAfter s turn lock unlocked }
  | .acquire, .acquire timedOut => videoSinkAcquire s timedOut
  | .readKey ri, .go => some { s with sink := .get ri s.keyRequired }
  | .get ri keyRequired, .get unlocked now => some (videoSinkGet s ri keyRequired unlocked now)
  | .publish ri got, .go => videoSinkPublish s ri got
  | .check ri got, .go => some { s with sink := videoSinkCheck s ri got }
  | .clear, .go => some { s with keyRequired := false, sink := .inner }
  -- closing the descriptor drops the lock, if a failed unlock has left it there
  | .close, .go => some { s with locked := false, sink := .top }
  | _, _ => none

/-- `us_ring_consumer_acquire(_g_video_ring, 0.1)`. -/
def videoRtpAcquire (s : VideoState) (timedOut : Bool) : Option VideoState :=
  if timedOut then some { s with rtp := .top }
  else match usRingConsumerAcquire s.ring.ring with
    | none => some { s with rtp := .top }
    | some (ri, _) => (ringStep s.ring (.consumerAcquire .rtp false)).map fun ring =>
        { s with ring := ring, rtp := .wrap ri }

/-- The call of `us_rtpv_wrap`. -/
def videoRtpWrap (s : VideoState) (ri : Nat) (now : UInt64) : VideoState :=
  let frame := s.items ri
  let s := { s with wrapped := s.wrapped ++ [frame] }
  match usRtpvWrap s.rtpv frame (frame.gop == 0) now with
  | .error fault => { s with fault := some fault }
  | .ok rtpv => { s with rtpv := rtpv, rtp := .release ri }

/-- `_video_rtp_thread`. -/
def videoRtpStep (s : VideoState) (a : VideoRtpAct) : Option VideoState :=
  match s.rtp, a with
  | .top, .go => some { s with rtp := if s.stop then .done else .acquire }
  | .acquire, .acquire timedOut => videoRtpAcquire s timedOut
  | .wrap ri, .wrap now => some (videoRtpWrap s ri now)
  | .release ri, .go => (ringStep s.ring (.consumerRelease .rtp ri)).map fun ring =>
      { s with ring := ring, rtp := .top }
  | _, _ => none

/-- One step of one party. -/
def videoStep (s : VideoState) (a : VideoAct) : Option VideoState :=
  if s.ring.aborted ∨ s.fault.isSome then none
  else match a with
    | .sink a => videoSinkStep s a
    | .rtp a => videoRtpStep s a
    | .keyRequiredMessage => some { s with keyRequired := true }
    | .watchers b => some { s with hasWatchers := b }
    | .stop => some { s with stop := true }
    | .write mem => if s.locked then none else some { s with mem := mem }

/-- The plugin after `_plugin_init` with a ring of `n` frames (64 in the source), over whatever
the region holds. -/
def videoInit (ring : UsRing) (mem : UsMemsinkShared) (ssrc : UInt32) : VideoState where
  ring := RingState.fresh ring
  items := fun _ => usFrameInit
  drop := usFrameInit
  frameId := 0
  mem := mem
  locked := false
  keyRequired := false
  hasWatchers := false
  stop := false
  sink := .top
  rtp := .top
  rtpv := usRtpvInit ssrc
  wrapped := []
  fault := none

def videoSystem (n : Nat) (h : 0 < n) : System VideoState VideoAct where
  start s := ∃ ring mem ssrc, usRingInit n h = some ring ∧ s = videoInit ring mem ssrc
  step := videoStep

/-! ## 3. What the steps do to the ring -/

/-- A step that leaves the ring and its frames alone. -/
structure RingUntouched (s s' : VideoState) : Prop where
  ring : s'.ring = s.ring
  items : s'.items = s.items
  wrapped : s'.wrapped = s.wrapped
  fault : s'.fault = s.fault

/-- A slot that the sink thread has after a step it had before, and is not about to publish. -/
def SlotKept (s s' : VideoState) : Prop :=
  ∀ i, s'.sink.slot = some i → s.sink.slot = some i ∧ ∀ got, s'.sink ≠ .publish (some i) got

/-- What a step of the sink thread does. -/
inductive VideoSinkMove (s : VideoState) : VideoState → Prop
  | quiet {s' : VideoState} : RingUntouched s s' → s'.rtp = s.rtp → SlotKept s s' →
      VideoSinkMove s s'
  | acquired (i : Nat) {ring : RingState VideoThread} :
      ringStep s.ring (.producerAcquire .sink false) = some ring →
      (VideoThread.sink, i) ∈ ring.producing →
      VideoSinkMove s { s with ring := ring, sink := .readKey (some i) }
  | got (i : Nat) (keyRequired unlocked : Bool) (now : ℚ) : s.sink = .get (some i) keyRequired →
      VideoSinkMove s (videoSinkGet s (some i) keyRequired unlocked now)
  | published (i : Nat) (got : Int) {ring : RingState VideoThread} :
      s.sink = .publish (some i) got → ringStep s.ring (.producerRelease .sink i) = some ring →
      VideoSinkMove s { s with ring := ring, sink := .check (some i) got }

/-- A step that leaves the thread without a slot keeps no slot. -/
theorem slotKept_of_none {s s' : VideoState} (h : s'.sink.slot = none) : SlotKept s s' := by
  intro i hi
  rw [h] at hi
  exact absurd hi (by simp)

theorem videoSinkAcquire_move {s s' : VideoState} {timedOut : Bool}
    (hs : videoSinkAcquire s timedOut = some s') : VideoSinkMove s s' := by
  have hnone : VideoSinkMove s { s with sink := .readKey none } :=
    .quiet ⟨rfl, rfl, rfl, rfl⟩ rfl (slotKept_of_none rfl)
  unfold videoSinkAcquire at hs
  split at hs
  · exact Option.some.inj hs ▸ hnone
  · split at hs
    · exact Option.some.inj hs ▸ hnone
    · rename_i ri r ha
      obtain ⟨ring, hring, rfl⟩ := Option.map_eq_some_iff.mp hs
      exact .acquired ri hring (mem_producing_of_acquire ha hring)

theorem videoSinkPublish_move {s s' : VideoState} {ri : Option Nat} {got : Int}
    (hpc : s.sink = .publish ri got) (hs : videoSinkPublish s ri got = some s') :
    VideoSinkMove s s' := by
  cases ri with
  | none =>
    obtain rfl := Option.some.inj hs
    exact .quiet ⟨rfl, rfl, rfl, rfl⟩ rfl (slotKept_of_none rfl)
  | some i =>
    obtain ⟨ring, hring, rfl⟩ := Option.map_eq_some_iff.mp hs
    exact .published i got hpc hring

/-- The steps of the sink thread, one case for each place it can be at. -/
theorem videoSinkStep_move {s s' : VideoState} {a : VideoSinkAct}
    (hs : videoSinkStep s a = some s') : VideoSinkMove s s' := by
  unfold videoSinkStep at hs
  split at hs
  case h_7 hpc => exact videoSinkAcquire_move hs
  case h_8 ri hpc =>
    obtain rfl := Option.some.inj hs
    refine .quiet ⟨rfl, rfl, rfl, rfl⟩ rfl fun i hi => ⟨?_, fun got => by simp⟩
    rw [hpc]
    exact hi
  case h_9 ri keyRequired unlocked now hpc =>
    obtain rfl := Option.some.inj hs
    cases ri with
    | none => exact .quiet ⟨rfl, rfl, rfl, rfl⟩ rfl (slotKept_of_none rfl)
    | some i => exact .got i keyRequired unlocked now hpc
  case h_10 ri got hpc => exact videoSinkPublish_move hpc hs
  case h_14 => exact absurd hs (by simp)
  all_goals
    obtain rfl := Option.some.inj hs
    refine .quiet ⟨rfl, rfl, rfl, rfl⟩ rfl (slotKept_of_none ?_)
    try dsimp only [afterWaitTurn, videoSinkCheck]
    repeat' split
    all_goals rfl

/-- What a step of the RTP thread does. -/
inductive VideoRtpMove (s : VideoState) : VideoState → Prop
  | quiet {s' : VideoState} : RingUntouched s s' → s'.sink = s.sink → s'.rtp.slot = none →
      VideoRtpMove s s'
  | acquired (i : Nat) {r : UsRing} {ring : RingState VideoThread} :
      usRingConsumerAcquire s.ring.ring = some (i, r) →
      ringStep s.ring (.consumerAcquire .rtp false) = some ring →
      VideoRtpMove s { s with ring := ring, rtp := .wrap i }
  | wrapped (i : Nat) (now : UInt64) : s.rtp = .wrap i → VideoRtpMove s (videoRtpWrap s i now)
  | released (i : Nat) {ring : RingState VideoThread} :
      s.rtp = .release i → ringStep s.ring (.consumerRelease .rtp i) = some ring →
      VideoRtpMove s { s with ring := ring, rtp := .top }

theorem videoRtpStep_move {s s' : VideoState} {a : VideoRtpAct}
    (hs : videoRtpStep s a = some s') : VideoRtpMove s s' := by
  unfold videoRtpStep at hs
  split at hs
  case h_1 hpc =>
    obtain rfl := Option.some.inj hs
    refine .quiet ⟨rfl, rfl, rfl, rfl⟩ rfl ?_
    dsimp only
    split
    · rfl
    · rfl
  case h_2 timedOut hpc =>
    have hnone : VideoRtpMove s { s with rtp := .top } := .quiet ⟨rfl, rfl, rfl, rfl⟩ rfl rfl
    unfold videoRtpAcquire at hs
    split at hs
    · exact Option.some.inj hs ▸ hnone
    · split at hs
      · exact Option.some.inj hs ▸ hnone
      · rename_i ri r ha
        obtain ⟨ring, hring, rfl⟩ := Option.map_eq_some_iff.mp hs
        exact .acquired ri ha hring
  case h_3 i now hpc => exact Option.some.inj hs ▸ .wrapped i now hpc
  case h_4 i hpc =>
    obtain ⟨ring, hring, rfl⟩ := Option.map_eq_some_iff.mp hs
    exact .released i hpc hring
  case h_5 => exact absurd hs (by simp)

end TinyPilotKvm
