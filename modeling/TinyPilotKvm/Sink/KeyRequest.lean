/-
# Requests for a key frame (`_stream_encode_expose_h264` in `ustreamer/stream.c`)

A client that needs a key frame sets `key_requested` in the region, the server copies it into the
producer's `h264_key_requested` whenever it puts a frame, and the producer uses that up before it
compresses the next one.  So a request is in the region, or with the producer, or in both, and
the producer's copy may be used up in vain: the compression may fail, its frame may be too big,
or the region may be locked.

What holds all the same: the region's flag goes only when a key frame is stored
(`keyRequested_until`), a stored frame that is not one leaves the copy set, and what the copy
asks for is asked for until a compression succeeds (`KeyWaiting`), since an encoder that fails
forgets its source and forces a key frame by itself.
-/
import TinyPilotKvm.Sink.System
import TinyPilotKvm.Ustreamer.M2m

namespace TinyPilotKvm

/-! ## 1. The producer and its sink -/

/-- The sink, and the part of `us_stream_runtime_s` that feeds it; `putting` is set between
`us_m2m_encoder_compress` and `us_memsink_server_put`. -/
structure H264State where
  sink : SinkState
  h264Enc : UsM2mEncoder
  encRun : UsM2mEncoderRuntime
  h264Dest : UsFrame
  h264KeyRequested : Bool
  putting : Bool

/-- `encode` is `_stream_encode_expose_h264` up to the put; `unjpeg` is the frame that `us_unjpeg`
makes of a JPEG.  The other steps are the sink's. -/
inductive H264Act
  | encode (frame : UsFrame) (forceKey : Bool) (unjpeg : Option UsFrame) (env : M2mEnv)
  | put (lock : Flock) (unlocked : Bool) (id : UInt64) (now : ℚ)
  | check (frame : Option UsFrame) (lock : Flock) (unlocked : Bool) (now : ℚ)
  | poll (c : Nat) (keyRequired : Bool) (lock : Flock) (unlocked slept : Bool) (now : ℚ)

/-- The frame that is compressed. -/
def h264Source (frame : UsFrame) (unjpeg : Option UsFrame) : Option UsFrame :=
  if usIsJpeg frame.format then unjpeg else some frame

/-- `_stream_encode_expose_h264` up to the put. -/
def streamEncodeH264 (s : H264State) (frame : UsFrame) (forceKey : Bool)
    (unjpeg : Option UsFrame) (env : M2mEnv) : H264State :=
  match h264Source frame unjpeg with
  | none => s
  | some src =>
    let forceKey := if s.h264KeyRequested then true else forceKey
    let r := usM2mEncoderCompress s.h264Enc s.encRun src s.h264Dest forceKey env
    { s with
      encRun := r.run, h264Dest := r.dest, h264KeyRequested := false
      putting := decide (r.ret = 0) }

/-- And its put. -/
def streamPutH264 (s : H264State) (lock : Flock) (unlocked : Bool) (id : UInt64) (now : ℚ) :
    Option H264State :=
  (sinkStep s.sink ⟨now, .serverPut s.h264Dest lock unlocked id⟩).map fun sink =>
    let r := usMemsinkServerPut s.sink.server s.sink.mem s.h264Dest lock unlocked id now
    { s with
      sink := sink, putting := false
      h264KeyRequested := r.keyRequested.getD s.h264KeyRequested }

def h264Step (s : H264State) : H264Act → Option H264State
  | .encode frame forceKey unjpeg env =>
    if s.putting then none else some (streamEncodeH264 s frame forceKey unjpeg env)
  | .put lock unlocked id now => if s.putting then streamPutH264 s lock unlocked id now else none
  | .check frame lock unlocked now =>
    (sinkStep s.sink ⟨now, .serverCheck frame lock unlocked⟩).map fun sink =>
      { s with sink := sink }
  | .poll c keyRequired lock unlocked slept now =>
    (sinkStep s.sink ⟨now, .poll c keyRequired lock unlocked slept⟩).map fun sink =>
      { s with sink := sink }

/-- A producer that starts, on a sink with any content. -/
def h264System : System H264State H264Act where
  start s := s.h264Enc.outputFormat = v4l2PixFmtH264 ∧ s.encRun = m2mEncoderRuntimeInit ∧
    s.h264KeyRequested = false ∧ s.putting = false
  step := h264Step

namespace H264State

/-- This step stores a frame in the region. -/
def Puts (s : H264State) (key : Bool) : H264Act → Prop
  | .put lock _ _ _ =>
    s.putting = true ∧ PutStores s.sink.server s.h264Dest lock ∧ s.h264Dest.key = key
  | _ => False

/-- The `force_key` that reaches the device, if this step compresses a frame. -/
def forces (s : H264State) : H264Act → Option Bool
  | .encode frame forceKey unjpeg env => (h264Source frame unjpeg).map fun src =>
    (m2mEncoderForceKey s.h264Enc s.encRun src
      (if s.h264KeyRequested then true else forceKey) env.now).2
  | _ => none

/-- This step compresses a frame. -/
def Compresses (s : H264State) (a : H264Act) : Prop :=
  ∃ s', h264Step s a = some s' ∧ s.putting = false ∧ s'.putting = true

end H264State

/-! ## 2. The flag in the region -/

/-- **A client sets the flag or leaves it.** -/
theorem keyRequested_poll {mem : UsMemsinkShared} (h : mem.keyRequested = true)
    (client : SinkClient) (keyRequired : Bool) (lock : Flock) (unlocked slept : Bool) (now : ℚ) :
    (pollClient client mem keyRequired lock unlocked slept now).2.keyRequested = true := by
  cases client with
  | libs sink frame =>
    simp only [pollClient, usMemsinkClientGet]
    rcases lock with _ | _ | _
    · dsimp only
      split
      · exact h
      · split
        · exact h
        · split
          · exact h
          · simp [h]
    · exact h
    · exact h
  | janus frameId frame =>
    simp only [pollClient]
    split
    · simp [usMemsinkFdGetFrame, h]
    · exact h
    · exact h
  | python self =>
    have hturn : (pyWaitFrameTurn self mem lock unlocked slept now).mem.keyRequested = true := by
      unfold pyWaitFrameTurn
      rcases lock with _ | _ | _
      · dsimp only
        split
        · exact h
        · split
          · exact h
          · split <;> exact h
      · exact h
      · exact h
    simp only [pollClient]
    split
    · simp [pyReadFrame, hturn]
    · exact hturn
    · exact hturn

/-- What a stored put does to the flag, and what it tells the producer. -/
theorem keyRequested_put {sink : UsMemsink} {mem : UsMemsinkShared} {frame : UsFrame}
    {lock : Flock} (hst : PutStores sink frame lock) (unlocked : Bool) (id : UInt64) (now : ℚ) :
    let r := usMemsinkServerPut sink mem frame lock unlocked id now
    r.mem.keyRequested = (mem.keyRequested && !frame.key) ∧
      r.keyRequested = some (mem.keyRequested && !frame.key) := by
  obtain ⟨hsize, rfl⟩ := hst
  unfold usMemsinkServerPut
  rw [if_neg (by omega)]
  cases mem.keyRequested <;> exact ⟨rfl, rfl⟩

variable {s s' : H264State}

/-! ## 3. What a step can do -/

theorem encode_cases {frame : UsFrame} {forceKey : Bool} {unjpeg : Option UsFrame} {env : M2mEnv}
    (hst : h264Step s (.encode frame forceKey unjpeg env) = some s') :
    s.putting = false ∧ s' = streamEncodeH264 s frame forceKey unjpeg env := by
  simp only [h264Step] at hst
  split at hst
  · contradiction
  · rename_i hputting
    exact ⟨Bool.not_eq_true _ ▸ hputting, (Option.some.inj hst).symm⟩

theorem put_cases {lock : Flock} {unlocked : Bool} {id : UInt64} {now : ℚ}
    (hst : h264Step s (.put lock unlocked id now) = some s') :
    s.putting = true ∧ ∃ sink,
      sink.mem = (usMemsinkServerPut s.sink.server s.sink.mem s.h264Dest lock unlocked id now).mem ∧
      s' = { s with
        sink := sink, putting := false
        h264KeyRequested := (usMemsinkServerPut s.sink.server s.sink.mem s.h264Dest lock unlocked id
          now).keyRequested.getD s.h264KeyRequested } := by
  simp only [h264Step] at hst
  split at hst
  · rename_i hputting
    obtain ⟨sink, hsink, rfl⟩ := Option.map_eq_some_iff.mp hst
    obtain ⟨-, rfl⟩ := sinkStep_eq_some.mp hsink
    exact ⟨hputting, _, rfl, rfl⟩
  · contradiction

/-- A step of the sink alone. -/
theorem sink_cases {e : SinkEvent}
    (hst : (sinkStep s.sink e).map (fun sink => { s with sink := sink }) = some s') :
    s' = { s with sink := sinkAfter s.sink e } := by
  obtain ⟨sink, hsink, rfl⟩ := Option.map_eq_some_iff.mp hst
  obtain ⟨-, rfl⟩ := sinkStep_eq_some.mp hsink
  rfl

/-- **The flag stays set until a key frame is stored.** -/
theorem keyRequested_until : h264System.Preserves (fun s a => ¬ s.Puts true a)
    fun s => s.sink.mem.keyRequested = true := by
  rintro s s' (_ | _ | _ | _) hset hnot hst
  case encode frame forceKey unjpeg env =>
    obtain ⟨-, rfl⟩ := encode_cases hst
    unfold streamEncodeH264
    split <;> exact hset
  case put lock unlocked id now =>
    obtain ⟨hputting, sink, hmem, rfl⟩ := put_cases hst
    dsimp only
    rw [hmem]
    by_cases hstores : PutStores s.sink.server s.h264Dest lock
    · have hkey : s.h264Dest.key = false := by
        rw [← Bool.not_eq_true]
        exact fun hkey => hnot ⟨hputting, hstores, hkey⟩
      rw [(keyRequested_put hstores unlocked id now).1, hset, hkey]
      rfl
    · rw [put_refused hstores]
      exact hset
  case check frame lock unlocked now =>
    obtain rfl := sink_cases hst
    exact hset
  case poll c keyRequired lock unlocked slept now =>
    obtain rfl := sink_cases hst
    exact keyRequested_poll hset _ keyRequired lock unlocked slept now

/-! ## 4. The producer's copy -/

/-- The encoder is an H.264 encoder, and forgets its source when it fails. -/
structure ProducerInv (s : H264State) : Prop where
  format : s.h264Enc.outputFormat = v4l2PixFmtH264
  forgetful : s.encRun.Forgetful

/-- A request waits for the next frame that is compressed. -/
structure KeyWaiting (s : H264State) : Prop where
  notPutting : s.putting = false
  asked : s.h264KeyRequested = true ∨ s.encRun.lastOnline = none

/-- Whoever compresses keeps the encoder in order. -/
theorem ProducerInv.encode (h : ProducerInv s) (frame : UsFrame) (forceKey : Bool)
    (unjpeg : Option UsFrame) (env : M2mEnv) :
    ProducerInv (streamEncodeH264 s frame forceKey unjpeg env) := by
  unfold streamEncodeH264
  split
  · exact h
  · exact ⟨h.format, forgetful_compress h.forgetful⟩

theorem ProducerInv.step (h : ProducerInv s) {a : H264Act} (hst : h264Step s a = some s') :
    ProducerInv s' := by
  rcases a with _ | _ | _ | _
  case encode frame forceKey unjpeg env =>
    obtain ⟨-, rfl⟩ := encode_cases hst
    exact h.encode frame forceKey unjpeg env
  case put lock unlocked id now =>
    obtain ⟨-, sink, -, rfl⟩ := put_cases hst
    exact ⟨h.format, h.forgetful⟩
  case check frame lock unlocked now =>
    obtain rfl := sink_cases hst
    exact ⟨h.format, h.forgetful⟩
  case poll c keyRequired lock unlocked slept now =>
    obtain rfl := sink_cases hst
    exact ⟨h.format, h.forgetful⟩

theorem ProducerInv.of_reach (hr : h264System.Reach s) : ProducerInv s := by
  refine System.ReachVia.inv ?_ (fun s s' a h _ hst => h.step hst) hr
  rintro s ⟨hformat, hrun, -, -⟩
  exact ⟨hformat, hrun ▸ fun _ => rfl⟩

/-- **A request waits until a frame is compressed**: what fails leaves it waiting. -/
theorem KeyWaiting.step (h : KeyWaiting s) (hinv : ProducerInv s) {a : H264Act}
    (hnot : ¬ s.Compresses a) (hst : h264Step s a = some s') : KeyWaiting s' := by
  rcases a with _ | _ | _ | _
  case encode frame forceKey unjpeg env =>
    have hputting : s'.putting = false := by
      rw [← Bool.not_eq_true]
      exact fun hputting => hnot ⟨s', hst, h.notPutting, hputting⟩
    obtain ⟨-, rfl⟩ := encode_cases hst
    refine ⟨hputting, ?_⟩
    unfold streamEncodeH264 at hputting ⊢
    split at hputting
    · exact h.asked
    · exact .inr (lastOnline_of_compress_failed hinv.forgetful (of_decide_eq_false hputting))
  case put lock unlocked id now =>
    obtain ⟨hputting, -⟩ := put_cases hst
    exact absurd (h.notPutting.symm.trans hputting) Bool.false_ne_true
  case check frame lock unlocked now =>
    obtain rfl := sink_cases hst
    exact ⟨h.notPutting, h.asked⟩
  case poll c keyRequired lock unlocked slept now =>
    obtain rfl := sink_cases hst
    exact ⟨h.notPutting, h.asked⟩

/-- And the next compression forces a key frame. -/
theorem KeyWaiting.forces (h : KeyWaiting s) (hinv : ProducerInv s) {a : H264Act} {forced : Bool}
    (hforces : s.forces a = some forced) : forced = true := by
  cases a with
  | encode frame forceKey unjpeg env =>
    obtain ⟨src, -, rfl⟩ := Option.map_eq_some_iff.mp hforces
    refine forceKey_h264 hinv.format ?_ env.now
    rcases h.asked with hasked | hrun
    · exact .inl (if_pos hasked)
    · exact .inr hrun
  | put lock unlocked id now => contradiction
  | check frame lock unlocked now => contradiction
  | poll c keyRequired lock unlocked slept now => contradiction

/-- Storing another frame than a key frame tells the producer of the request. -/
theorem waiting_of_put (hset : s.sink.mem.keyRequested = true) {a : H264Act}
    (hputs : s.Puts false a) (hst : h264Step s a = some s') :
    s'.h264KeyRequested = true ∧ KeyWaiting s' := by
  cases a with
  | put lock unlocked id now =>
    obtain ⟨-, hstores, hkey⟩ := hputs
    obtain ⟨-, sink, -, rfl⟩ := put_cases hst
    have htold := (@keyRequested_put _ s.sink.mem _ _ hstores unlocked id now).2
    rw [hset, hkey] at htold
    have hasked : (usMemsinkServerPut s.sink.server s.sink.mem s.h264Dest lock unlocked id
        now).keyRequested.getD s.h264KeyRequested = true := by
      rw [htold]
      rfl
    exact ⟨hasked, rfl, .inl hasked⟩
  | encode frame forceKey unjpeg env => contradiction
  | check frame lock unlocked now => contradiction
  | poll c keyRequired lock unlocked slept now => contradiction

/-! ## 5. No request is lost -/

/-- **A request for a key frame is never lost.**  Once the flag is set in the region, by whichever
client, it is set until a key frame is stored.  Whatever other frame is stored meanwhile leaves
`h264_key_requested` set, and from there on every compression forces a key frame until one
succeeds. -/
theorem key_request_kept (hr : h264System.Reach s) (hset : s.sink.mem.keyRequested = true) :
    (∀ t, h264System.Leads (fun s a => ¬ s.Puts true a) s t → t.sink.mem.keyRequested = true) ∧
      ∀ a s', s.Puts false a → h264Step s a = some s' →
        s'.h264KeyRequested = true ∧
          ∀ t, h264System.Leads (fun s a => ¬ s.Compresses a) s' t →
            ∀ b forced, t.forces b = some forced → forced = true := by
  refine ⟨fun t ht => ht.inv keyRequested_until hset, fun a s' hputs hst => ?_⟩
  obtain ⟨hasked, hwaiting⟩ := waiting_of_put hset hputs hst
  refine ⟨hasked, fun t ht b forced hforces => ?_⟩
  have hkept : h264System.Preserves (fun s a => ¬ s.Compresses a)
      fun s => ProducerInv s ∧ KeyWaiting s :=
    fun s s' a h hnot hst => ⟨h.1.step hst, h.2.step h.1 hnot hst⟩
  obtain ⟨hinv, hwaiting⟩ := ht.inv hkept ⟨(ProducerInv.of_reach hr).step hst, hwaiting⟩
  exact hwaiting.forces hinv hforces

/-- A producer on a region of two bytes that has one client. -/
def freshProducer : H264State where
  sink :=
    { mem := { FrameMeta.zero with
        magic := 0, version := 0, id := 0, used := 0,
        lastClientTs := 0, keyRequested := false, data := [0, 0] }
      server := ⟨2, 10, 0, false, 0⟩
      clients := fun _ => .libs ⟨2, 10, 0, false, 0⟩ (.ofBytes FrameMeta.zero [])
      clock := 0 }
  h264Enc := usM2mH264EncoderInit "H264" none 30
  encRun := m2mEncoderRuntimeInit
  h264Dest := .ofBytes FrameMeta.zero []
  h264KeyRequested := false
  putting := false

/-- A frame that the device makes no key frame of. -/
def encodeOther : H264Act :=
  .encode (.ofBytes { FrameMeta.zero with width := 2, height := 1 } [1, 2]) false none
    ⟨0, 0, 0, true, fun _ => some ⟨[3, 4], false⟩⟩

/-- The request of a client between two frames reaches the producer with the second. -/
theorem key_request_kept_once : ∃ s s', h264System.Reach s ∧ s.sink.mem.keyRequested = true ∧
    h264Step s (.put .taken true 8 0) = some s' ∧ s'.h264KeyRequested = true := by
  have hrun : ((h264System.exec freshProducer [encodeOther, .put .taken true 7 0,
      .poll 0 true .taken true true 0, encodeOther]).any fun s =>
        decide (s.sink.mem.keyRequested = true ∧ s.putting = true ∧ s.h264Dest.used ≤
          s.sink.server.dataSize ∧ s.h264Dest.key = false) &&
        (h264Step s (.put .taken true 8 0)).isSome) = true := by decide +kernel
  obtain ⟨s, hexec, hs⟩ := (Option.any_eq_true _ _).mp hrun
  obtain ⟨hs, hput⟩ := Bool.and_eq_true_iff.mp hs
  obtain ⟨hset, hputting, hused, hkey⟩ := of_decide_eq_true hs
  obtain ⟨s', hst⟩ := Option.isSome_iff_exists.mp hput
  have hr := System.Reach.exec (M := h264System) _ (.start ⟨rfl, rfl, rfl, rfl⟩) hexec
  have hputs : s.Puts false (.put .taken true 8 0) := ⟨hputting, ⟨hused, rfl⟩, hkey⟩
  exact ⟨s, s', hr, hset, hst, ((key_request_kept hr hset).2 _ s' hputs hst).1⟩

end TinyPilotKvm
