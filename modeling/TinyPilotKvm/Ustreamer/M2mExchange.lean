/-
# One frame in, its output out (`_m2m_encoder_compress_raw` in `ustreamer/m2m.c`)

A compression that succeeds has sent the frame with a timestamp and has taken the output with the
same timestamp, after any number of outputs with others.  Every output buffer that the device gave
has been queued again, and so has the input buffer: without DMA it is given back by being sent, and
with DMA it is dequeued once, before the first output.
-/
import TinyPilotKvm.Ustreamer.M2mSafety

namespace TinyPilotKvm.M2m

open Program

/-! ## 1. Reading a list of calls -/

/-- An output buffer that the device has given. -/
def Call.fetched : Call → Option V4l2Buffer
  | .dequeue .output buf => buf
  | _ => none

/-- An output buffer that the device has got back. -/
def Call.returned : Call → Option V4l2Buffer
  | .queue .output buf _ true => some buf
  | _ => none

/-- The queueing or the dequeueing of an input buffer. -/
def Call.onInput : Call → Bool
  | .dequeue .input _ => true
  | .queue .input _ _ _ => true
  | _ => false

/-! ## 2. The loop -/

/-- The frame holds the bytes of a mapped output buffer, and what the buffer says about them;
`dest` is the frame before. -/
def Holds (enc : DeviceEncoder) (dest : UsFrame) (mem : Memory) (output : V4l2Buffer) : Prop :=
  ∃ buf, mem.run.outputBufs.bind (·[output.index]?) = some buf ∧
    output.bytesused ≤ buf.allocated ∧
    mem.dest =
      { usFrameSetData dest buf.data output.bytesused with
        key := output.keyframe, gop := enc.gop } ∧
    mem.dest.bytes = buf.data.take output.bytesused

/-- The calls `es` of the loop: `stale` outputs, and then the one that answers the frame. -/
structure Received (enc : DeviceEncoder) (a : CompressAnswers) (sent : V4l2Buffer)
    (released : Bool) (w w' : World Memory Call) (es : List Call) (stale : List V4l2Buffer)
    (output : V4l2Buffer) : Prop where
  calls : w'.calls = w.calls ++ es
  onInput : es.filter Call.onInput = if released then [] else [.dequeue .input a.released]
  released : released = false → a.released.isSome = true
  fetched : es.filterMap Call.fetched = stale ++ [output]
  returned : es.filterMap Call.returned = stale ++ [output]
  stale : ∀ buf ∈ stale, ¬SameStamp sent buf
  same : SameStamp sent output
  inputBufs : w'.state.run.inputBufs = w.state.run.inputBufs
  holds : Holds enc w.state.dest w'.state output

section

variable {enc : DeviceEncoder} {a : CompressAnswers} {sent output : V4l2Buffer}
  {released released' : Bool} {w w1 w' : World Memory Call} {es : List Call}
  {stale : List V4l2Buffer}

/-- A turn before: the calls `es1`, with the outputs `stale1` that were queued again. -/
theorem Received.before (h : Received enc a sent released' w1 w' es stale output)
    (es1 : List Call) (stale1 : List V4l2Buffer) (hcalls : w1.calls = w.calls ++ es1)
    (hinput : w1.state.run.inputBufs = w.state.run.inputBufs)
    (hdest : w1.state.dest = w.state.dest)
    (honInput : es1.filter Call.onInput ++ (if released' then [] else [.dequeue .input a.released])
      = if released then [] else [.dequeue .input a.released])
    (hreleased : released = false → released' = true → a.released.isSome = true)
    (hfetched : es1.filterMap Call.fetched = stale1)
    (hreturned : es1.filterMap Call.returned = stale1)
    (hstale : ∀ buf ∈ stale1, ¬SameStamp sent buf) :
    Received enc a sent released w w' (es1 ++ es) (stale1 ++ stale) output where
  calls := by rw [h.calls, hcalls, List.append_assoc]
  onInput := by rw [List.filter_append, h.onInput, honInput]
  released := by
    intro hnot
    cases hlater : released' with
    | false => exact h.released hlater
    | true => exact hreleased hnot hlater
  fetched := by rw [List.filterMap_append, h.fetched, hfetched, List.append_assoc]
  returned := by rw [List.filterMap_append, h.returned, hreturned, List.append_assoc]
  stale := by
    intro buf hbuf
    rcases List.mem_append.mp hbuf with hbuf | hbuf
    · exact hstale buf hbuf
    · exact h.stale buf hbuf
  same := h.same
  inputBufs := h.inputBufs.trans hinput
  holds := hdest ▸ h.holds

end

/-- What the loop does where it succeeds. -/
def Receives (enc : DeviceEncoder) (a : CompressAnswers) (sent : V4l2Buffer) (released : Bool)
    (w w' : World Memory Call) : Prop :=
  ∃ es stale output, Received enc a sent released w w' es stale output

theorem takeOutput_holds (enc : DeviceEncoder) (output : V4l2Buffer) (w : World Memory Call) :
    wp (takeOutput enc output)
      (fun _ w' => Holds enc w.state.dest w'.state output ∧ w'.state.run = w.state.run ∧
        w'.calls = w.calls)
      (fun _ => True) (fun _ _ => True) w := by
  rw [takeOutput, wp_bind, wp_current]
  split
  · trivial
  · rename_i buf hbuf
    rw [wp_bind, wp_require, wp_updateDest]
    refine ⟨fun hle => ⟨⟨buf, hbuf, hle, rfl, ?_⟩, rfl, rfl⟩, fun _ => trivial⟩
    have hbytes := bytes_usFrameSetData w.state.dest buf.data output.bytesused
    rw [readBytes_eq_take (by rw [buf.mapped]; exact hle)] at hbytes
    exact hbytes

/-- The rest of a turn, from the dequeueing of an output on. -/
theorem fetch_receives {enc : DeviceEncoder} {a : CompressAnswers} {sent : V4l2Buffer}
    (round : Round) {rounds : List Round}
    (ih : ∀ w, wp (awaitOutput enc a sent true rounds) (fun _ => Receives enc a sent true w)
      (fun _ => True) (fun _ _ => True) w) (w : World Memory Call) :
    wp (fetchOutput round.fetched >>= fun output =>
        if SameStamp sent output.toV4l2Buffer then do
          takeOutput enc output.toV4l2Buffer
          call (.queue .output output.toV4l2Buffer none) round.requeued
        else do
          call (.queue .output output.toV4l2Buffer none) round.requeued
          awaitOutput enc a sent true rounds)
      (fun _ => Receives enc a sent true w) (fun _ => True) (fun _ _ => True) w := by
  rw [wp_bind, wp_fetchOutput]
  refine ⟨fun fetched hfetched => ?_, fun _ => trivial⟩
  rw [wp_ite]
  refine ⟨fun hsame => ?_, fun hother => ?_⟩
  · rw [wp_bind]
    refine wp_post ?_ (takeOutput_holds enc _ _)
    rintro - w1 ⟨hholds, hrun, hcalls⟩
    rw [wp_call]
    refine ⟨fun hrequeued => ?_, fun _ => trivial⟩
    refine ⟨[.dequeue .output (some fetched.toV4l2Buffer),
      .queue .output fetched.toV4l2Buffer none true], [], fetched.toV4l2Buffer, ?_⟩
    refine ⟨?_, rfl, by simp, rfl, rfl, by simp, hsame, ?_, hholds⟩
    · rw [World.calls_after, hcalls, hfetched, hrequeued]
      exact List.append_assoc _ _ _
    · rw [World.state_after, hrun]
      rfl
  · rw [wp_bind, wp_call]
    refine ⟨fun hrequeued => ?_, fun _ => trivial⟩
    refine wp_post ?_ (ih _)
    rintro - w' ⟨es, stale, output, h⟩
    refine ⟨_, _, _, h.before [.dequeue .output (some fetched.toV4l2Buffer),
      .queue .output fetched.toV4l2Buffer none true] [fetched.toV4l2Buffer] ?_ rfl rfl rfl ?_
      rfl rfl ?_⟩
    · rw [hfetched, hrequeued]
      exact List.append_assoc _ _ _
    · exact fun h0 => absurd h0 (by simp)
    · intro buf hbuf
      rw [List.mem_singleton.mp hbuf]
      exact hother

theorem awaitOutput_receives (enc : DeviceEncoder) (a : CompressAnswers) (sent : V4l2Buffer) :
    ∀ (rounds : List Round) (released : Bool) (w : World Memory Call),
      wp (awaitOutput enc a sent released rounds) (fun _ => Receives enc a sent released w)
        (fun _ => True) (fun _ _ => True) w := by
  intro rounds
  induction rounds with
  | nil =>
    intro released w
    rw [awaitOutput, wp_fail]
    trivial
  | cons round rounds ih =>
    intro released w
    rw [awaitOutput, wp_bind, wp_check]
    refine ⟨fun _ => ?_, fun _ => trivial⟩
    rw [wp_bind, wp_say, wp_bind, wp_check]
    refine ⟨fun _ => ?_, fun _ => trivial⟩
    rw [wp_ite]
    refine ⟨fun _ => ?_, fun _ => ?_⟩
    · rw [wp_bind, wp_releaseInput]
      refine ⟨fun hrel => ?_, fun hrel => ⟨fun hsome => ?_, fun _ => trivial⟩⟩
      · refine wp_post ?_ (fetch_receives round (ih true) _)
        rintro - w' ⟨es, stale, output, h⟩
        refine ⟨_, _, _, h.before [.poll round.poll] [] rfl rfl rfl ?_ ?_ rfl rfl ?_⟩
        · rw [hrel]
          rfl
        · exact fun h0 => absurd (hrel.symm.trans h0) (by simp)
        · exact fun buf hbuf => absurd hbuf List.not_mem_nil
      · refine wp_post ?_ (fetch_receives round (ih true) _)
        rintro - w' ⟨es, stale, output, h⟩
        refine ⟨_, _, _, h.before [.poll round.poll, .dequeue .input a.released] [] ?_ rfl rfl ?_
          ?_ rfl rfl ?_⟩
        · exact List.append_assoc _ _ _
        · rw [hrel]
          rfl
        · exact fun _ _ => hsome
        · exact fun buf hbuf => absurd hbuf List.not_mem_nil
    · refine wp_post ?_ (ih released _)
      rintro - w' ⟨es, stale, output, h⟩
      refine ⟨_, _, _, h.before [.poll round.poll] [] rfl rfl rfl rfl ?_ rfl rfl ?_⟩
      · exact fun h0 h1 => absurd (h0.symm.trans h1) (by simp)
      · exact fun buf hbuf => absurd hbuf List.not_mem_nil

/-! ## 3. The input -/

/-- The calls `es` by which a frame is sent, as the buffer `sent`. -/
structure Submitted (src : UsFrame) (a : CompressAnswers) (w w' : World Memory Call)
    (sent : V4l2Buffer) (es : List Call) : Prop where
  calls : w'.calls = w.calls ++ es
  dest : w'.state.dest = w.state.dest
  onInput : es.filter Call.onInput =
    if w.state.run.pDma then [.queue .input sent (some src.dmaFd) true]
    else [.dequeue .input a.grabbed, .queue .input sent none true]
  fetched : es.filterMap Call.fetched = []
  returned : es.filterMap Call.returned = []
  bytesused : sent.bytesused = src.used % 4294967296
  stamp : sent.tvSec = (a.nowTs / 1000000 : Nat) ∧ sent.tvUsec = (a.nowTs % 1000000 : Nat)
  grabbed : w.state.run.pDma = false →
    ∃ buf, a.grabbed = some buf ∧ sent.index = buf.index ∧ buf.index < w.state.run.nInputBufs
  copied : w.state.run.pDma = false →
    ∃ buf, w'.state.run.inputBufs.bind (·[sent.index]?) = some buf ∧ src.used ≤ buf.allocated ∧
      buf.data.take src.used = src.bytes

/-- The calls that ask for a key frame are no calls on a buffer. -/
theorem forceKeyFrame_calls (forceKey : Bool) (a : CompressAnswers) (w : World Memory Call) :
    wp (forceKeyFrame forceKey a) (fun _ w' => w'.state = w.state ∧ ∃ es, w'.calls = w.calls ++ es ∧
        es.filter Call.onInput = [] ∧ es.filterMap Call.fetched = [] ∧
        es.filterMap Call.returned = [])
      (fun _ => True) (fun _ _ => True) w := by
  rw [wp_forceKeyFrame]
  refine ⟨fun _ => ⟨fun _ => ?_, fun _ => trivial⟩, fun _ => ?_⟩
  · exact ⟨rfl, [.setControl .mpegVideoForceKeyFrame 1 a.keyForced], rfl, rfl, rfl, rfl⟩
  · exact ⟨rfl, [], (List.append_nil _).symm, rfl, rfl, rfl⟩

theorem take_bytes_fill (src : UsFrame) {buf : UsM2mBuffer} (h : src.used ≤ buf.allocated) :
    (buf.fill src.bytes).data.take src.used = src.bytes := by
  have hlength : src.bytes.length = src.used := by
    simp [UsFrame.bytes, Nat.min_eq_left src.used_le]
  have hfill : (overwrite buf.data src.bytes).take src.bytes.length = src.bytes := by
    refine take_overwrite ?_
    rw [hlength, buf.mapped]
    exact h
  rwa [hlength] at hfill

theorem sendInput_submits (src : UsFrame) (forceKey : Bool) (a : CompressAnswers)
    (w : World Memory Call) :
    wp (sendInput src forceKey a) (fun sent w' => ∃ es, Submitted src a w w' sent es)
      (fun _ => True) (fun _ _ => True) w := by
  rw [sendInput, wp_bind, wp_current, wp_bind, wp_require]
  refine ⟨fun _ => ?_, fun _ => trivial⟩
  rw [wp_bind]
  refine wp_post ?_ (forceKeyFrame_calls forceKey a w)
  rintro - w1 ⟨hstate, es, hcalls, honInput, hfetched, hreturned⟩
  rw [wp_bind, grabInput, wp_bind, wp_current, wp_ite, hstate]
  refine ⟨fun hdma => ?_, fun hdma => ?_⟩
  · rw [wp_pure, wp_bind, copyInput, wp_bind, wp_current, hstate, if_pos hdma, wp_pure, queueInput,
      wp_bind, wp_call]
    refine ⟨fun hsent => ?_, fun _ => trivial⟩
    refine ⟨es ++ [.queue .input (sentBuffer src a.nowTs ⟨0, 0, 0, 0, 0⟩) (some src.dmaFd) true],
      ?_, congrArg Memory.dest hstate, ?_, ?_, ?_, rfl, ⟨rfl, rfl⟩, ?_, ?_⟩
    · rw [World.calls_after, hcalls, hsent, inputDma, if_pos hdma, List.append_assoc]
    · rw [List.filter_append, honInput, if_pos hdma]
      rfl
    · rw [List.filterMap_append, hfetched]
      rfl
    · rw [List.filterMap_append, hreturned]
      rfl
    · exact fun h => absurd (hdma.symm.trans h) (by simp)
    · exact fun h => absurd (hdma.symm.trans h) (by simp)
  · rw [wp_bind, wp_ask]
    refine ⟨fun grabbed hgrabbed => ?_, fun _ => trivial⟩
    rw [wp_bind, wp_check]
    refine ⟨fun hindex => ?_, fun _ => trivial⟩
    rw [wp_pure, wp_bind, copyInput, wp_bind, wp_current, World.state_after, hstate, if_neg hdma]
    split
    · trivial
    · rename_i buf hbuf
      rw [wp_bind, wp_require]
      refine ⟨fun hle => ?_, fun _ => trivial⟩
      rw [wp_updateRun, queueInput, wp_bind, wp_call]
      refine ⟨fun hsent => ?_, fun _ => trivial⟩
      refine ⟨es ++ [.dequeue .input (some grabbed),
        .queue .input (sentBuffer src a.nowTs grabbed) none true],
        ?_, ?_, ?_, ?_, ?_, rfl, ⟨rfl, rfl⟩, ?_, ?_⟩
      · rw [World.calls_after, calls_withRun, World.calls_after, hcalls, hsent, inputDma,
          if_neg hdma, hgrabbed, List.append_assoc, List.append_assoc]
        rfl
      · rw [World.state_after, dest_withRun, World.state_after, hstate]
      · rw [List.filter_append, honInput, if_neg hdma, hgrabbed]
        rfl
      · rw [List.filterMap_append, hfetched]
        rfl
      · rw [List.filterMap_append, hreturned]
        rfl
      · exact fun _ => ⟨grabbed, hgrabbed, rfl, hindex⟩
      · refine fun _ => ⟨buf.fill src.bytes, ?_, hle, take_bytes_fill src hle⟩
        obtain ⟨bufs, hbufs, hget⟩ := Option.bind_eq_some_iff.mp hbuf
        rw [World.state_after, run_withRun, World.state_after, hstate, hbufs]
        exact List.getElem?_set_self (List.getElem?_eq_some_iff.mp hget).1

/-! ## 4. The exchange -/

/-- A successful compression with the calls `es`: `sent` is the frame, `output` is what answers it,
and `stale` are the outputs before. -/
structure Exchanged (enc : DeviceEncoder) (src : UsFrame) (a : CompressAnswers)
    (w w' : World Memory Call) (es : List Call) (sent : V4l2Buffer) (stale : List V4l2Buffer)
    (output : V4l2Buffer) : Prop where
  calls : w'.calls = w.calls ++ es
  /-- The input buffer is given back, in both modes. -/
  onInput : es.filter Call.onInput =
    if w.state.run.pDma then
      [.queue .input sent (some src.dmaFd) true, .dequeue .input a.released]
    else [.dequeue .input a.grabbed, .queue .input sent none true]
  released : w.state.run.pDma = true → a.released.isSome = true
  grabbed : w.state.run.pDma = false →
    ∃ buf, a.grabbed = some buf ∧ sent.index = buf.index ∧ buf.index < w.state.run.nInputBufs
  /-- The frame is sent with its size and a timestamp. -/
  bytesused : sent.bytesused = src.used % 4294967296
  stamp : sent.tvSec = (a.nowTs / 1000000 : Nat) ∧ sent.tvUsec = (a.nowTs % 1000000 : Nat)
  copied : w.state.run.pDma = false →
    ∃ buf, w'.state.run.inputBufs.bind (·[sent.index]?) = some buf ∧ src.used ≤ buf.allocated ∧
      buf.data.take src.used = src.bytes
  /-- Every output buffer of the device is queued again. -/
  fetched : es.filterMap Call.fetched = stale ++ [output]
  returned : es.filterMap Call.returned = stale ++ [output]
  /-- The output taken has the frame's timestamp. -/
  stale : ∀ buf ∈ stale, ¬SameStamp sent buf
  same : SameStamp sent output
  holds : Holds enc w.state.dest w'.state output

theorem Submitted.exchanged {enc : DeviceEncoder} {src : UsFrame} {a : CompressAnswers}
    {w w1 w' : World Memory Call} {sent output : V4l2Buffer} {es es' : List Call}
    {stale : List V4l2Buffer} (h : Submitted src a w w1 sent es)
    (hreceived : Received enc a sent (!w.state.run.pDma) w1 w' es' stale output) :
    Exchanged enc src a w w' (es ++ es') sent stale output where
  calls := by rw [hreceived.calls, h.calls, List.append_assoc]
  onInput := by
    rw [List.filter_append, h.onInput, hreceived.onInput]
    cases w.state.run.pDma with
    | true => rfl
    | false => rfl
  released := fun hdma => hreceived.released (by rw [hdma]; rfl)
  grabbed := h.grabbed
  bytesused := h.bytesused
  stamp := h.stamp
  copied := by
    rw [hreceived.inputBufs]
    exact h.copied
  fetched := by rw [List.filterMap_append, h.fetched, hreceived.fetched, List.nil_append]
  returned := by rw [List.filterMap_append, h.returned, hreceived.returned, List.nil_append]
  stale := hreceived.stale
  same := hreceived.same
  holds := h.dest ▸ hreceived.holds

theorem compressRaw_exchanges (enc : DeviceEncoder) (src : UsFrame) (forceKey : Bool)
    (a : CompressAnswers) (w : World Memory Call) :
    wp (encoderCompressRaw enc src forceKey a)
      (fun _ w' => ∃ es sent stale output, Exchanged enc src a w w' es sent stale output)
      (fun _ => True) (fun _ _ => True) w := by
  rw [encoderCompressRaw, wp_bind]
  have hsend := wp_and (sendInput_submits src forceKey a w) (working_sendInput src forceKey a w)
  refine wp_mono ?_ (fun _ _ => trivial) (fun _ _ _ => trivial) hsend
  rintro sent w1 ⟨⟨es, hsubmitted⟩, hworking⟩
  rw [wp_bind, wp_current, hworking.base]
  refine wp_post ?_ (awaitOutput_receives enc a sent a.rounds _ w1)
  rintro - w2 ⟨es', stale, output, hreceived⟩
  exact ⟨es ++ es', sent, stale, output, hsubmitted.exchanged hreceived⟩

/-- **The output belongs to the frame that was sent, and every buffer is given back.** -/
theorem output_of_submitted (enc : DeviceEncoder) (src : UsFrame) (forceKey : Bool)
    (a : CompressAnswers) {w w' : World Memory Call}
    (h : encoderCompressRaw enc src forceKey a w = .ok () w') :
    ∃ es sent stale output, Exchanged enc src a w w' es sent stale output :=
  wp_ok (compressRaw_exchanges enc src forceKey a w) h

/-- The world in which the sample encoder is ready for the small frame. -/
def readyWorld : World Memory Call :=
  ⟨⟨Session.runtime ⟨7, 1, some [64], [64]⟩ smallFrame
      (caching sampleEncoder smallFrame (closed DeviceRuntime.init)),
    .ofBytes FrameMeta.zero []⟩, []⟩

/-- A device that gives an output of another frame first. -/
def lateReply : CompressAnswers :=
  { silent with rounds :=
      [⟨5, .revents true, some ⟨⟨0, 4, 0, 2, 0⟩, [1, 2]⟩, true⟩,
        ⟨5, .interrupted, none, false⟩,
        ⟨5, .revents true, some ⟨⟨0, 5, 0, 3, 8⟩, [7, 8, 9]⟩, true⟩] }

theorem output_of_submitted_late :
    ∃ w' es sent stale output, Exchanged sampleEncoder smallFrame lateReply readyWorld w' es sent
      stale output := by
  have hok : (match encoderCompressRaw sampleEncoder smallFrame true lateReply readyWorld with
      | .ok _ _ => true
      | .error _ _ => false) = true := by
    decide +kernel
  split at hok
  · rename_i hrun
    exact ⟨_, output_of_submitted sampleEncoder smallFrame true lateReply hrun⟩
  · exact absurd hok (by simp)

/-! ## 5. The encoder behind one answer

`M2m.lean` gives the encoder one answer for the preparation and one for the frame.  What a call does
here, it does there for answers that this device has led to. -/

/-- The answers to the encoder of `M2m.lean`. -/
def summary (enc : DeviceEncoder) (c : DeviceCall) (device : Option M2mOutput) : M2mEnv where
  now := c.env.now
  encodeBeginTs := c.env.encodeBeginTs
  encodeEndTs := c.env.encodeEndTs
  prepared := (session enc c.src c.env.prepare).isSome
  device _ := device

theorem ensured_base {enc : DeviceEncoder} {c : DeviceCall} {run : DeviceRuntime}
    {w1 : World Memory Call}
    (h : Ensured enc c.src c.env.prepare (begun enc c.src c.forceKey c.env (c.world run)) w1) :
    m2mEncoderEnsure enc.toUsM2mEncoder run.toUsM2mEncoderRuntime c.src
        (session enc c.src c.env.prepare).isSome = w1.state.run.toUsM2mEncoderRuntime := by
  have hcases := h.cases
  simp only [run_begun, run_world] at hcases
  unfold m2mEncoderEnsure
  rcases hcases with ⟨hcached, rfl⟩ | ⟨hchanged, ⟨s, hsession, hrun⟩ | ⟨hnone, limit, hrun⟩⟩
  · exact if_pos hcached
  · rw [hsession, hrun]
    exact if_neg hchanged
  · rw [hnone, hrun]
    exact if_neg hchanged

theorem ensured_dest {enc : DeviceEncoder} {c : DeviceCall} {run : DeviceRuntime}
    {w1 : World Memory Call}
    (h : Ensured enc c.src c.env.prepare (begun enc c.src c.forceKey c.env (c.world run)) w1) :
    w1.state.dest = (begun enc c.src c.forceKey c.env (c.world run)).state.dest := by
  by_cases hcached : Cached enc run.toUsM2mEncoderRuntime c.src
  · rw [h.cached hcached]
  · exact (h.changed hcached).dest

theorem usFrameSetData_take (dest : UsFrame) {data : List UInt8} {size : Nat}
    (h : size ≤ data.length) :
    usFrameSetData dest (data.take size) size = usFrameSetData dest data size := by
  have hread : readBytes (data.take size) size = readBytes data size := by
    rw [readBytes_eq_take h, readBytes_eq_take (by simp [h]), List.take_take, Nat.min_self]
  simp only [usFrameSetData, hread]

/-- What is taken from the device is an output of the encoder of `M2m.lean`. -/
theorem Holds.output {enc : DeviceEncoder} {dest : UsFrame} {mem : Memory} {output : V4l2Buffer}
    (h : Holds enc dest mem output) :
    ∃ out, mem.dest = m2mEncoderCompressRaw enc.toUsM2mEncoder dest out := by
  obtain ⟨buf, -, hle, hdest, -⟩ := h
  rw [← buf.mapped] at hle
  refine ⟨⟨buf.data.take output.bytesused, output.keyframe⟩, ?_⟩
  rw [hdest, m2mEncoderCompressRaw, List.length_take_of_le hle, usFrameSetData_take dest hle]

/-- The end of a call on a ready device, as `M2m.lean` has it. -/
def EndsAs (enc : DeviceEncoder) (src : UsFrame) (env : DeviceEnv) (w w' : World Memory Call)
    (ret : Int) (device : Option M2mOutput) : Prop :=
  match device with
  | none => ret = -1 ∧
      w'.state.run.toUsM2mEncoderRuntime = m2mEncoderCleanup w.state.run.toUsM2mEncoderRuntime
  | some out => ret = 0 ∧
      w'.state.run.toUsM2mEncoderRuntime =
        { w.state.run.toUsM2mEncoderRuntime with
          lastOnline := some src.online, lastEncodeTs := env.encodeEndTs } ∧
      w'.state.dest =
        { m2mEncoderCompressRaw enc.toUsM2mEncoder w.state.dest out with
          encodeEndTs := env.encodeEndTs }

theorem encodeFrame_ends (enc : DeviceEncoder) (src : UsFrame) (forceKey : Bool) (env : DeviceEnv)
    (w : World Memory Call) :
    wp (encodeFrame enc src forceKey env)
      (fun ret w' => ∃ device, EndsAs enc src env w w' ret device) (fun _ => True)
      (fun _ _ => True) w := by
  rw [encodeFrame, wp_bind, wp_attempt]
  refine wp_mono ?_ ?_ (fun _ _ _ => trivial)
    (wp_and (compressRaw_exchanges enc src forceKey env.compress w)
      (working_compressRaw enc src forceKey env.compress w))
  · rintro - w1 ⟨⟨es, sent, stale, output, hexchanged⟩, hworking⟩
    rw [if_pos rfl, wp_bind, wp_current, wp_bind, wp_require]
    refine ⟨fun _ => ?_, fun _ => trivial⟩
    obtain ⟨out, hout⟩ := hexchanged.holds.output
    refine ⟨some out, rfl, ?_, ?_⟩
    · rw [← hworking.base]
      rfl
    · rw [← hout]
      rfl
  · rintro w1 ⟨-, hworking⟩
    rw [if_neg (by simp), wp_bind, wp_encoderCleanup]
    refine ⟨none, rfl, ?_⟩
    rw [← hworking.base]
    rfl

/-- A call has the same result there as here. -/
structure Agrees (r : CompressResult) (value : Int) (w' : World Memory Call) : Prop where
  ret : r.ret = value
  run : r.run = w'.state.run.toUsM2mEncoderRuntime
  dest : value = 0 → r.dest = w'.state.dest

/-- **What a call does with its device, the encoder of `M2m.lean` does with a summary of the
answers.** -/
theorem compress_summary (enc : DeviceEncoder) (run : DeviceRuntime) (c : DeviceCall) {ret : Int}
    {w' : World Memory Call} (h : c.program enc (c.world run) = .ok ret w') :
    ∃ device, Agrees (usM2mEncoderCompress enc.toUsM2mEncoder run.toUsM2mEncoderRuntime c.src c.dest
      c.forceKey (summary enc c device)) ret w' := by
  obtain ⟨_, w1, hw1, hensured⟩ := exists_ok_of_wp
    (ensure_spec enc c.src c.env.prepare (begun enc c.src c.forceKey c.env (c.world run)))
  have hends : wp (c.program enc) (fun r w => r = ret ∧ w = w') (fun _ => False) (fun _ _ => False)
      (c.world run) := (wp_of_ok h).mpr ⟨rfl, rfl⟩
  rw [wp_program hw1, wp_ite] at hends
  have hbase := ensured_base hensured
  have hdest := ensured_dest hensured
  cases hready : w1.state.run.ready with
  | false =>
    obtain ⟨rfl, rfl⟩ := hends.1 hready
    refine ⟨none, ?_⟩
    unfold usM2mEncoderCompress
    dsimp only [summary]
    rw [hbase, hready]
    exact ⟨rfl, rfl, fun h => absurd h (by simp)⟩
  | true =>
    obtain ⟨r, w2, hrun, rfl, rfl⟩ := exists_ok_of_wp (hends.2 (by simp [hready]))
    obtain ⟨device, hdevice⟩ := wp_ok (encodeFrame_ends enc c.src _ c.env w1) hrun
    refine ⟨device, ?_⟩
    unfold usM2mEncoderCompress
    dsimp only [summary]
    rw [hbase, if_neg (by simp [hready])]
    cases device with
    | none =>
      obtain ⟨rfl, hrun2⟩ := hdevice
      exact ⟨rfl, hrun2.symm, fun h => absurd h (by simp)⟩
    | some out =>
      obtain ⟨rfl, hrun2, hdest2⟩ := hdevice
      refine ⟨rfl, ?_, fun _ => ?_⟩
      · rw [hrun2]
      · rw [hdest2, hdest]
        rfl

end TinyPilotKvm.M2m
