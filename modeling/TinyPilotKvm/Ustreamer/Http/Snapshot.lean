/-
# Snapshots (`ustreamer/http/server.c`, `_stream_expose_jpeg` in `ustreamer/stream.c`)

A request for a snapshot raises `snapshot_requested` and waits in a list; the JPEG thread lowers
the counter after each JPEG it exposes; the HTTP thread's refresher takes one frame out of the
ring, copies it to `ex->frame`, and answers every waiting request once it reads a zero.

The counter tells how many JPEGs have been exposed, not which of them the refresher has: a
frame may still be in the ring when the counter is zero, and a request may come between the
exposure of a frame and the decrement for it.  `AnswersInTime` is the condition under which the
zero means what `has_fresh_snapshot` says.

A step is one access to something shared.  Requests and ticks of the refresher are callbacks of one
thread, so none comes in the middle of another.  The history is the JPEGs in the order in
which they are published to the ring (`exposures`), how many there were when a request came
(`arrival`), and the answers.  The counter is a natural number: 2 ^ 32 requests do not wait at once.
-/
import TinyPilotKvm.Libs.Frame
import TinyPilotKvm.Libs.Ring

namespace TinyPilotKvm

/-! ## 1. Data -/

/-- `us_frame_copy`. -/
def usFrameCopy (src dest : UsFrame) : UsFrame :=
  (usFrameSetData dest src.data src.used).copyMeta src.toFrameMeta

/-- `us_frame_compare`; every frame has memory allocated. -/
def usFrameCompare (a b : UsFrame) : Bool :=
  usFrameCompareGeometry a.used a.toFrameMeta b.used b.toFrameMeta
    && decide (readBytes a.data b.used = readBytes b.data b.used)

theorem bytes_usFrameCopy (src dest : UsFrame) : (usFrameCopy src dest).bytes = src.bytes := by
  unfold usFrameCopy
  rw [bytes_copyMeta, bytes_usFrameSetData, readBytes_data]

theorem used_usFrameCopy (src dest : UsFrame) : (usFrameCopy src dest).used = src.used := rfl

/-- Frames that compare as the same have the same picture. -/
theorem bytes_of_usFrameCompare {a b : UsFrame} (h : usFrameCompare a b = true) :
    a.bytes = b.bytes := by
  simp only [usFrameCompare, usFrameCompareGeometry, Bool.and_eq_true, beq_iff_eq,
    decide_eq_true_eq] at h
  obtain ⟨⟨⟨⟨⟨⟨⟨⟨hused, -⟩, -⟩, -⟩, -⟩, -⟩, -⟩, -⟩, hbytes⟩ := h
  rw [← readBytes_data a, ← readBytes_data b, hused]
  exact hbytes

inductive SnapThread
  | stream
  | http
  deriving DecidableEq

/-- Where the thread is that exposes JPEGs; `counted` are those of the JPEG thread, the others are
blanks. -/
inductive ExposePc
  | idle
  /-- In the loop of `_stream_expose_jpeg`. -/
  | acquire (frame : UsFrame) (counted : Bool)
  /-- Before `us_frame_copy`. -/
  | copy (ri : Nat) (frame : UsFrame) (counted : Bool)
  /-- Before `us_ring_producer_release`. -/
  | release (ri : Nat) (counted : Bool)
  /-- Before `atomic_load(&snapshot_requested)`. -/
  | load
  /-- Before `atomic_fetch_sub`. -/
  | sub

/-- `us_snapshot_client_s`. -/
structure SnapshotClient where
  requestTs : ℚ
  arrival : Nat
  deriving DecidableEq

/-- Where the HTTP thread is. -/
inductive RefresherPc
  | idle
  /-- Before `atomic_fetch_add`. -/
  | request (client : SnapshotClient)
  /-- Before `_expose_frame`. -/
  | expose (ri : Nat)
  /-- Before `us_ring_consumer_release`. -/
  | release (ri : Nat)
  /-- Before `us_fpsi_get`. -/
  | captured
  /-- In the loop of `_http_send_snapshot`. -/
  | send (todo : List SnapshotClient) (online : Bool)

/-- The slot that the stream's thread has acquired and not released. -/
def ExposePc.slot : ExposePc → Option Nat
  | .copy ri _ _ | .release ri _ => some ri
  | _ => none

/-- The same for the HTTP thread. -/
def RefresherPc.slot : RefresherPc → Option Nat
  | .expose ri | .release ri => some ri
  | _ => none

/-- An answer: `fresh` is `has_fresh_snapshot`. -/
structure SnapshotAnswer where
  client : SnapshotClient
  frame : UsFrame
  fresh : Bool
  online : Bool

/-- What the two threads share, and what they do not: `frame` and `dropped` are of
`us_server_exposed_s`. -/
structure SnapshotState where
  ring : RingState SnapThread
  items : Nat → UsFrame
  snapshotRequested : Nat
  capturedOnline : Bool
  stop : Bool
  frame : UsFrame
  dropped : Nat
  dropSameFrames : Nat
  errorDelay : Nat
  snapshotClients : List SnapshotClient
  stream : ExposePc
  http : RefresherPc
  exposures : List UsFrame
  answers : List SnapshotAnswer

/-! ## 2. Steps -/

/-- A step of the stream's thread; `giveUp` is the way out of the loop. -/
inductive ExposeAct
  | start (frame : UsFrame) (counted : Bool)
  | acquire (timedOut : Bool)
  | giveUp
  | copy
  | release
  | load
  | sub

/-- A step of the HTTP thread. -/
inductive RefresherAct
  | request (now : ℚ)
  | add
  | acquire (timedOut : Bool)
  | expose
  | release
  | captured
  | answer (now : ℚ) (blank : UsFrame)
  | finish

inductive SnapshotAct
  | stream (a : ExposeAct)
  | http (a : RefresherAct)
  | online (b : Bool)
  | stop

/-- Where the thread goes after `_stream_expose_jpeg`. -/
def afterExpose (counted : Bool) : ExposePc := if counted then .load else .idle

/-- `_stream_expose_jpeg`, and the counting that follows it in `_jpeg_thread`. -/
def exposeStep (s : SnapshotState) (a : ExposeAct) : Option SnapshotState :=
  match s.stream, a with
  | .idle, .start frame counted => some { s with stream := .acquire frame counted }
  | .acquire frame counted, .acquire timedOut =>
    if timedOut then some s
    else
      match usRingProducerAcquire s.ring.ring with
      | none => some s
      | some (ri, _) => (ringStep s.ring (.producerAcquire .stream false)).map fun ring =>
          { s with ring := ring, stream := .copy ri frame counted }
  | .acquire _ counted, .giveUp =>
    if s.stop then some { s with stream := afterExpose counted } else none
  | .copy ri frame counted, .copy =>
    some { s with
      items := Function.update s.items ri (usFrameCopy frame (s.items ri))
      stream := .release ri counted }
  | .release ri counted, .release =>
    (ringStep s.ring (.producerRelease .stream ri)).map fun ring =>
      { s with
        ring := ring, exposures := s.exposures ++ [s.items ri], stream := afterExpose counted }
  | .load, .load => some { s with stream := if 0 < s.snapshotRequested then .sub else .idle }
  | .sub, .sub => some { s with snapshotRequested := s.snapshotRequested - 1, stream := .idle }
  | _, _ => none

/-- `_expose_frame`. -/
def exposeFrame (s : SnapshotState) (frame : UsFrame) : SnapshotState :=
  if 0 < s.dropSameFrames ∧ frame.online = true ∧ s.dropped < s.dropSameFrames ∧
      usFrameCompare s.frame frame = true then
    { s with dropped := s.dropped + 1 }
  else if frame.used = 0 then
    { s with frame := { s.frame with online := frame.online }, dropped := 0 }
  else { s with frame := usFrameCopy frame s.frame, dropped := 0 }

/-- One turn of the loop of `_http_send_snapshot`. -/
def sendSnapshot (s : SnapshotState) (client : SnapshotClient) (todo : List SnapshotClient)
    (online : Bool) (now : ℚ) (blank : UsFrame) : SnapshotState :=
  let hasFreshSnapshot := decide (s.snapshotRequested = 0)
  let timedOut := decide (client.requestTs + max 1 (s.errorDelay * 3 : Nat) < now)
  if hasFreshSnapshot || timedOut then
    { s with
      answers := s.answers ++
        [⟨client, if online then s.frame else blank, hasFreshSnapshot, online⟩]
      snapshotClients := s.snapshotClients.erase client
      http := .send todo online }
  else { s with http := .send todo online }

/-- `_http_callback_snapshot` and `_http_refresher`. -/
def refresherStep (s : SnapshotState) (a : RefresherAct) : Option SnapshotState :=
  match s.http, a with
  | .idle, .request now => some { s with http := .request ⟨now, s.exposures.length⟩ }
  | .request client, .add =>
    some { s with
      snapshotRequested := s.snapshotRequested + 1
      snapshotClients := s.snapshotClients ++ [client]
      http := .idle }
  | .idle, .acquire timedOut =>
    if timedOut then some { s with http := .captured }
    else
      match usRingConsumerAcquire s.ring.ring with
      | none => some { s with http := .captured }
      | some (ri, _) => (ringStep s.ring (.consumerAcquire .http false)).map fun ring =>
          { s with ring := ring, http := .expose ri }
  | .expose ri, .expose => some { exposeFrame s (s.items ri) with http := .release ri }
  | .release ri, .release =>
    (ringStep s.ring (.consumerRelease .http ri)).map fun ring =>
      { s with ring := ring, http := .captured }
  | .captured, .captured => some { s with http := .send s.snapshotClients s.capturedOnline }
  | .send (client :: todo) online, .answer now blank =>
    some (sendSnapshot s client todo online now blank)
  | .send [] _, .finish => some { s with http := .idle }
  | _, _ => none

def snapshotStep (s : SnapshotState) : SnapshotAct → Option SnapshotState
  | .stream a => exposeStep s a
  | .http a => refresherStep s a
  | .online b => some { s with capturedOnline := b }
  | .stop => some { s with stop := true }

/-- The stream and the server once both are running; `blank` is the JPEG that `us_server_listen`
starts with. -/
def snapshotInit (ring : UsRing) (blank : UsFrame) (dropSameFrames errorDelay : Nat) :
    SnapshotState where
  ring := RingState.fresh ring
  items := fun _ => usFrameInit
  snapshotRequested := 0
  capturedOnline := false
  stop := false
  frame := usFrameCopy blank usFrameInit
  dropped := 0
  dropSameFrames := dropSameFrames
  errorDelay := errorDelay
  snapshotClients := []
  stream := .idle
  http := .idle
  exposures := []
  answers := []

/-- With a ring of `n` frames; in the source there are 4. -/
def snapshotSystem (n : Nat) (h : 0 < n) : System SnapshotState SnapshotAct where
  start s := ∃ ring blank dropSameFrames errorDelay, usRingInit n h = some ring ∧
    s = snapshotInit ring blank dropSameFrames errorDelay
  step := snapshotStep

/-! ## 3. The condition -/

namespace SnapshotState

/-- How many frames the refresher has taken out of the ring and dealt with. -/
def taken (s : SnapshotState) : Nat :=
  match s.http with
  | .expose _ => s.ring.handed.length - 1
  | _ => s.ring.handed.length

/-- A picture exposed since `arrival` is not in the ring any more. -/
def TookSince (s : SnapshotState) (arrival : Nat) : Prop :=
  ∃ i frame, arrival ≤ i ∧ i < s.taken ∧ s.exposures[i]? = some frame ∧ 0 < frame.used

/-- The picture that `_http_send_snapshot` sends is one of the first `k` exposed, and no picture was
exposed among these after it. -/
def Shows (s : SnapshotState) (k : Nat) : Prop :=
  ∀ i < k, ∀ frame, s.exposures[i]? = some frame → 0 < frame.used →
    ∃ j shown, i ≤ j ∧ j < k ∧ s.exposures[j]? = some shown ∧ s.frame.bytes = shown.bytes

end SnapshotState

/-- **The condition**: a request that is answered because of the counter, with the capture online,
is answered when a picture exposed since it came is out of the ring. -/
def AnswersInTime (s : SnapshotState) (a : SnapshotAct) : Prop :=
  match s.http, a with
  | .send (client :: _) true, .http (.answer _ _) =>
    s.snapshotRequested = 0 → s.TookSince client.arrival
  | _, _ => True

/-- The picture of this answer was exposed after its request came. -/
def SnapshotAnswer.Fresh (ans : SnapshotAnswer) (exposures : List UsFrame) : Prop :=
  ∃ i frame, ans.client.arrival ≤ i ∧ exposures[i]? = some frame ∧ ans.frame.bytes = frame.bytes

theorem SnapshotAnswer.Fresh.mono {ans : SnapshotAnswer} {frames more : List UsFrame}
    (h : ans.Fresh frames) : ans.Fresh (frames ++ more) := by
  obtain ⟨i, frame, harrival, hi, hbytes⟩ := h
  have hlt : i < frames.length := (List.getElem?_eq_some_iff.mp hi).1
  exact ⟨i, frame, harrival, (List.getElem?_append_left hlt).trans hi, hbytes⟩

end TinyPilotKvm
