/-
# What the JPEG thread publishes with the HW encoder

Three layers have three ways to say that a frame could not be encoded.  The HW encoder leaves an
empty frame (`dest->used = 0`), `_worker_run_job` returns `false`, and the JPEG thread passes
over a worker with `job_failed`.  The first is not turned into the second: with the HW encoder
`_worker_run_job` always returns `true`, so an empty frame is exposed like any other.

The pool and the JPEG thread are those of `JpegExposure`; what is added is the frames: the buffer
of each worker's job, the frame that it is encoded to, and what the thread has put into the ring
and into the sink.
-/
import TinyPilotKvm.Libs.Capture.Hwbuf
import TinyPilotKvm.Ustreamer.Encoders.HwUsed
import TinyPilotKvm.Ustreamer.Http.Snapshot
import TinyPilotKvm.Ustreamer.JpegExposure

namespace TinyPilotKvm

/-! ## 1. The frames of the JPEG thread -/

/-- A buffer of a JPEG format that `_capture_is_buffer_valid` accepts.  Of the `v4l2_buffer` only
`bytesused` is read there. -/
def captured (cap : UsCapture) (src : UsFrame) : Bool :=
  usIsJpeg cap.run.format && src.format == cap.run.format
    && captureIsBufferValid cap ⟨0, src.used, [], 0, 0⟩ src.data

/-- `_worker_run_job` with the HW encoder: what it returns, and the job's frame.  `none`: the
encoder leaves its memory, or an assertion fails. -/
def runHwJob (src dest : UsFrame) (begins ends : ℚ) : Option (Bool × UsFrame) :=
  (usHwEncoderCompress src dest begins ends).map fun dest => (true, dest)

/-- The JPEG thread with its frames: `src` is `job->hw->raw` and `dest` is `job->dest`, by the
workers' numbers, `ring` what has been copied to the JPEG ring, and `sink` what has been given to
the memory sink. -/
structure HwStreamState where
  jpeg : JpegState
  src : Nat → UsFrame
  dest : Nat → UsFrame
  ring : List UsFrame
  sink : List UsFrame

/-- `collect` has the item of the ring that is written; `none`: the stream stops. -/
inductive HwStreamAct
  | collect (item : Option UsFrame)
  | assign (src : UsFrame)
  | finish (i : Nat) (begins ends startTs endTs : ℚ)
  | other (a : JpegAct)

/-- The steps that move no frame. -/
def JpegAct.plain : JpegAct → Bool
  | .collect _ => false
  | .assign => false
  | .worker _ (.finish _ _ _) => false
  | _ => true

/-- `_stream_expose_jpeg`, once an item of the ring has been acquired. -/
def HwStreamState.exposeJpeg (s : HwStreamState) (jpegSink : Bool) (frame item : UsFrame) :
    HwStreamState :=
  let dest := usFrameCopy frame item
  { s with ring := s.ring ++ [dest], sink := if jpegSink then s.sink ++ [dest] else s.sink }

/-- One step; `jpegSink` says whether there is a JPEG sink. -/
def hwStreamStep (jpegSink : Bool) (s : HwStreamState) : HwStreamAct → Option HwStreamState
  | .collect item =>
    match s.jpeg.pool.pc with
    | .hold wr =>
      (jpegStep s.jpeg (.collect item.isSome)).map fun jpeg =>
        let s' := { s with jpeg := jpeg }
        if s.jpeg.hw wr && !(s.jpeg.pool.worker wr).jobFailed
            && (s.jpeg.pool.worker wr).jobTimely then
          match item with
          | some item => s'.exposeJpeg jpegSink (s.dest wr) item
          | none => s'
        else s'
    | _ => none
  | .assign src =>
    match s.jpeg.pool.pc with
    | .hold wr => (jpegStep s.jpeg .assign).map fun jpeg =>
        { s with jpeg := jpeg, src := Function.update s.src wr src }
    | _ => none
  | .finish i begins ends startTs endTs =>
    (runHwJob (s.src i) (s.dest i) begins ends).bind fun (ok, dest) =>
      (jpegStep s.jpeg (.worker i (.finish (!ok) startTs endTs))).map fun jpeg =>
        { s with jpeg := jpeg, dest := Function.update s.dest i dest }
  | .other a =>
    if a.plain then (jpegStep s.jpeg a).map fun jpeg => { s with jpeg := jpeg } else none

def hwStreamSystem (jpegSink : Bool) : System HwStreamState HwStreamAct where
  start s := ∃ nWorkers src dest, 1 ≤ nWorkers ∧ s = ⟨jpegInit nWorkers, src, dest, [], []⟩
  step := hwStreamStep jpegSink

/-! ## 2. One job -/

/-- The worker makes an image, or reports the job as failed. -/
def MadeOrReported (src dest : UsFrame) (begins ends : ℚ) : Prop :=
  ∃ ok out, runHwJob src dest begins ends = some (ok, out) ∧ (ok = true → out.used ≠ 0)

section

variable {cap : UsCapture} {src : UsFrame}

/-- An accepted buffer is not empty. -/
theorem captured_spec (h : captured cap src = true) :
    usIsJpeg src.format = true ∧ src.used ≠ 0 := by
  unfold captured at h
  rw [Bool.and_eq_true, Bool.and_eq_true, beq_iff_eq] at h
  obtain ⟨⟨hjpeg, hformat⟩, hvalid⟩ := h
  refine ⟨hformat ▸ hjpeg, fun hempty => ?_⟩
  unfold captureIsBufferValid at hvalid
  rw [hempty, hjpeg] at hvalid
  split at hvalid
  · exact Bool.false_ne_true hvalid
  · exact Bool.false_ne_true hvalid

/-- **One job**: a worker that cannot make an image does not report it. -/
theorem madeOrReported_iff (h : captured cap src = true) (dest : UsFrame) (begins ends : ℚ) :
    MadeOrReported src dest begins ends ↔ SearchesEnd src.data src.used := by
  obtain ⟨hformat, hused⟩ := captured_spec h
  rcases usHwEncoderCompress_cases hformat hused dest begins ends with
    ⟨hcond, out, hout, hne⟩ | ⟨hno, ⟨out, hout, hempty, -⟩ | hnone⟩
  · refine iff_of_true ⟨true, out, ?_, fun _ => hne⟩ hcond
    rw [runHwJob, hout, Option.map_some]
  · refine iff_of_false ?_ hno
    rintro ⟨ok, out', hrun, hmade⟩
    rw [runHwJob, hout, Option.map_some] at hrun
    obtain ⟨rfl, rfl⟩ := Prod.mk.inj (Option.some.inj hrun)
    exact hmade rfl hempty
  · refine iff_of_false ?_ hno
    rintro ⟨ok, out', hrun, -⟩
    rw [runHwJob, hnone, Option.map_none] at hrun
    exact Option.some_ne_none _ hrun.symm

end

/-! ## 3. Runs -/

/-- The buffers assigned are accepted, and the searches end in them. -/
def HwStreamAct.Encodable (cap : UsCapture) (a : HwStreamAct) : Prop :=
  ∀ src, a = .assign src → captured cap src = true ∧ SearchesEnd src.data src.used

structure HwStreamInv (cap : UsCapture) (s : HwStreamState) : Prop where
  jpeg : JpegInv s.jpeg
  /-- The buffer of a job. -/
  src : ∀ i, s.jpeg.hw i = true →
    captured cap (s.src i) = true ∧ SearchesEnd (s.src i).data (s.src i).used
  /-- The result of a job that has been run. -/
  dest : ∀ i, s.jpeg.hw i = true → (s.jpeg.pool.worker i).hasJob = false →
    (s.jpeg.pool.worker i).jobFailed = false → (s.dest i).used ≠ 0
  ring : ∀ f ∈ s.ring, f.used ≠ 0
  sink : ∀ f ∈ s.sink, f.used ≠ 0

/-- Choosing a worker leaves what the workers say of their jobs. -/
theorem poolStep_choose {p p' : PoolState} (hst : p.poolStep .choose = some p') (i : Nat) :
    (p'.worker i).hasJob = (p.worker i).hasJob ∧
      (p'.worker i).jobFailed = (p.worker i).jobFailed := by
  unfold PoolState.poolStep at hst
  split at hst <;> try contradiction
  · obtain rfl := Option.some.inj hst
    exact ⟨rfl, rfl⟩
  · obtain rfl := Option.some.inj hst
    obtain ⟨hjob, hfailed, -⟩ := JpegInv.chooseWorker_worker p _ i
    exact ⟨hjob, hfailed⟩

/-- The plain steps leave `job->hw` and what the workers say of their jobs. -/
theorem jpegStep_plain {s s' : JpegState} {a : JpegAct} (ha : a.plain = true)
    (hst : jpegStep s a = some s') : s'.hw = s.hw ∧
      ∀ i, (s'.pool.worker i).hasJob = (s.pool.worker i).hasJob ∧
        (s'.pool.worker i).jobFailed = (s.pool.worker i).jobFailed := by
  have hpool : ∀ {a : PoolAct}, a ≠ .choose → a ≠ .assign →
      (s.pool.poolStep a).map s.setPool = some s' → s'.hw = s.hw ∧
        ∀ i, (s'.pool.worker i).hasJob = (s.pool.worker i).hasJob ∧
          (s'.pool.worker i).jobFailed = (s.pool.worker i).jobFailed := by
    intro a hchoose hassign hmap
    obtain ⟨p, hp, rfl⟩ := Option.map_eq_some_iff.mp hmap
    obtain ⟨hsame, -⟩ := PoolState.sameJobs_poolStep hp hchoose hassign
    exact ⟨rfl, fun i => ⟨hsame.hasJob i, hsame.jobFailed i⟩⟩
  unfold jpegStep at hst
  split at hst
  · exact hpool PoolAct.noConfusion PoolAct.noConfusion hst
  · exact hpool PoolAct.noConfusion PoolAct.noConfusion hst
  · obtain ⟨p, hp, rfl⟩ := Option.map_eq_some_iff.mp hst
    exact ⟨rfl, poolStep_choose hp⟩
  · obtain ⟨p, hp, rfl⟩ := Option.map_eq_some_iff.mp hst
    exact ⟨rfl, poolStep_choose hp⟩
  · exact absurd ha Bool.false_ne_true
  · split at hst
    · exact hpool PoolAct.noConfusion PoolAct.noConfusion hst
    · contradiction
  · exact absurd ha Bool.false_ne_true
  · exact hpool PoolAct.noConfusion PoolAct.noConfusion hst
  · rename_i i a
    obtain ⟨p, hp, rfl⟩ := Option.map_eq_some_iff.mp hst
    rcases PoolState.workerStep_sorts hp with ⟨failed, startTs, endTs, rfl, -, -⟩ | ⟨hne, hsame, -⟩
    · exact absurd ha Bool.false_ne_true
    · cases a with
      | finish failed startTs endTs => exact absurd rfl (hne failed startTs endTs)
      | wake => exact ⟨rfl, fun i => ⟨hsame.hasJob i, hsame.jobFailed i⟩⟩
      | count => exact ⟨rfl, fun i => ⟨hsame.hasJob i, hsame.jobFailed i⟩⟩
  · contradiction

/-- What collecting changes in the JPEG thread. -/
theorem jpegStep_collect {s s' : JpegState} {wr : Nat} {published : Bool}
    (hpc : s.pool.pc = .hold wr) (hst : jpegStep s (.collect published) = some s') :
    s.collected = false ∧ s'.pool = s.pool ∧ ∀ i, s'.hw i = true → s.hw i = true := by
  unfold jpegStep at hst
  rw [hpc] at hst
  dsimp only at hst
  split at hst
  · contradiction
  · rename_i hcollected
    obtain rfl := Option.some.inj hst
    refine ⟨Bool.not_eq_true _ ▸ hcollected, ?_, fun i hi => ?_⟩
    · unfold JpegState.collect
      dsimp only
      split
      · split
        · rfl
        · split <;> rfl
      · rfl
    · unfold JpegState.collect at hi
      dsimp only at hi
      split at hi
      · have hupdate : Function.update s.hw wr false i = true := by
          split at hi
          · exact hi
          · split at hi <;> exact hi
        rcases eq_or_ne i wr with rfl | hne
        · rw [Function.update_self] at hupdate
          exact absurd hupdate Bool.false_ne_true
        · rwa [Function.update_of_ne hne] at hupdate
      · exact hi

/-- What assigning changes in it. -/
theorem jpegStep_assign {s s' : JpegState} {wr : Nat} (hpc : s.pool.pc = .hold wr)
    (hst : jpegStep s .assign = some s') :
    s'.hw = Function.update s.hw wr true ∧ (s'.pool.worker wr).hasJob = true ∧
      ∀ i, i ≠ wr → s'.pool.worker i = s.pool.worker i := by
  unfold jpegStep at hst
  rw [hpc] at hst
  dsimp only at hst
  split at hst
  · simp only [PoolState.poolStep, hpc, Option.map_some, Option.some.injEq] at hst
    subst hst
    refine ⟨rfl, ?_, fun i hi => ?_⟩
    · simp only [JpegState.assign, PoolState.setWorker, Function.update_self]
    · simp only [JpegState.assign, PoolState.setWorker, Function.update_of_ne hi]
  · contradiction

/-- What the end of a job changes in it. -/
theorem jpegStep_finish {s s' : JpegState} {i : Nat} {failed : Bool} {startTs endTs : ℚ}
    (hst : jpegStep s (.worker i (.finish failed startTs endTs)) = some s') :
    s'.hw = s.hw ∧ (s'.pool.worker i).jobFailed = failed ∧
      ∀ j, j ≠ i → s'.pool.worker j = s.pool.worker j := by
  unfold jpegStep at hst
  dsimp only at hst
  obtain ⟨p, hp, rfl⟩ := Option.map_eq_some_iff.mp hst
  rcases PoolState.workerStep_sorts hp with ⟨failed', startTs', endTs', heq, -, rfl⟩ | ⟨hne, -, -⟩
  · cases heq
    refine ⟨rfl, ?_, fun j hj => ?_⟩
    · simp only [JpegState.worker, PoolState.setWorker, Function.update_self, PoolState.finished]
    · simp only [JpegState.worker, PoolState.setWorker, Function.update_of_ne hj]
  · exact absurd rfl (hne failed startTs endTs)

namespace HwStreamInv

variable {cap : UsCapture} {jpegSink : Bool} {s s' : HwStreamState}

/-- What is exposed is in the ring, and in the sink if there is one. -/
theorem exposeJpeg (jpegSink : Bool) (hring : ∀ f ∈ s.ring, f.used ≠ 0)
    (hsink : ∀ f ∈ s.sink, f.used ≠ 0) {frame : UsFrame} (hframe : frame.used ≠ 0)
    (item : UsFrame) :
    (∀ f ∈ (s.exposeJpeg jpegSink frame item).ring, f.used ≠ 0) ∧
      ∀ f ∈ (s.exposeJpeg jpegSink frame item).sink, f.used ≠ 0 := by
  have hnew : ∀ frames : List UsFrame, (∀ f ∈ frames, f.used ≠ 0) →
      ∀ f ∈ frames ++ [usFrameCopy frame item], f.used ≠ 0 := by
    intro frames hframes f hf
    rcases List.mem_append.mp hf with hold | hlast
    · exact hframes f hold
    · rw [List.mem_singleton.mp hlast, used_usFrameCopy]
      exact hframe
  refine ⟨hnew s.ring hring, ?_⟩
  unfold HwStreamState.exposeJpeg
  cases jpegSink with
  | true => exact hnew s.sink hsink
  | false => exact hsink

theorem collect (h : HwStreamInv cap s) {item : Option UsFrame}
    (hst : hwStreamStep jpegSink s (.collect item) = some s') : HwStreamInv cap s' := by
  unfold hwStreamStep at hst
  dsimp only at hst
  split at hst
  · rename_i wr hpc
    obtain ⟨jpeg, hjpeg, rfl⟩ := Option.map_eq_some_iff.mp hst
    obtain ⟨hcollected, hpool, hhw⟩ := jpegStep_collect hpc hjpeg
    have hplain : HwStreamInv cap { s with jpeg := jpeg } := by
      refine ⟨h.jpeg.step hjpeg, fun i hi => h.src i (hhw i hi), ?_, h.ring, h.sink⟩
      intro i hi hjob hfailed
      rw [hpool] at hjob hfailed
      exact h.dest i (hhw i hi) hjob hfailed
    split
    · rename_i hexposed
      cases item with
      | none => exact hplain
      | some item =>
        rw [Bool.and_eq_true, Bool.and_eq_true, Bool.not_eq_true'] at hexposed
        obtain ⟨⟨hset, hfailed⟩, -⟩ := hexposed
        -- the job of the worker that is held has been seen, so it has been run
        have hjob : (s.jpeg.pool.worker wr).hasJob = false := by
          by_contra hrun
          obtain ⟨-, hnone⟩ := h.jpeg.running wr (Bool.not_eq_false _ ▸ hrun)
          obtain ⟨js, hseen, -⟩ := h.jpeg.held wr ⟨hpc, hcollected⟩ hset
          refine h.jpeg.known _ ?_ hnone
          rw [hseen]
          exact List.mem_append_right js (List.mem_singleton_self _)
        obtain ⟨hring, hsink⟩ := exposeJpeg jpegSink hplain.ring hplain.sink
          (h.dest wr hset hjob hfailed) item
        exact ⟨hplain.jpeg, hplain.src, hplain.dest, hring, hsink⟩
    · exact hplain
  · contradiction

theorem assign (h : HwStreamInv cap s) {src : UsFrame}
    (hsrc : captured cap src = true ∧ SearchesEnd src.data src.used)
    (hst : hwStreamStep jpegSink s (.assign src) = some s') : HwStreamInv cap s' := by
  unfold hwStreamStep at hst
  dsimp only at hst
  split at hst
  · rename_i wr hpc
    obtain ⟨jpeg, hjpeg, rfl⟩ := Option.map_eq_some_iff.mp hst
    obtain ⟨hhw, hrun, hothers⟩ := jpegStep_assign hpc hjpeg
    refine ⟨h.jpeg.step hjpeg, fun i hi => ?_, fun i hi hjob hfailed => ?_, h.ring, h.sink⟩
    · dsimp only at hi ⊢
      rcases eq_or_ne i wr with rfl | hne
      · rw [Function.update_self]
        exact hsrc
      · rw [hhw, Function.update_of_ne hne] at hi
        rw [Function.update_of_ne hne]
        exact h.src i hi
    · dsimp only at hi hjob hfailed ⊢
      rcases eq_or_ne i wr with rfl | hne
      · exact absurd (hjob.symm.trans hrun) Bool.false_ne_true
      · rw [hhw, Function.update_of_ne hne] at hi
        rw [hothers i hne] at hjob hfailed
        exact h.dest i hi hjob hfailed
  · contradiction

theorem finish (h : HwStreamInv cap s) {i : Nat} {begins ends startTs endTs : ℚ}
    (hst : hwStreamStep jpegSink s (.finish i begins ends startTs endTs) = some s') :
    HwStreamInv cap s' := by
  unfold hwStreamStep at hst
  dsimp only at hst
  obtain ⟨⟨ok, dest⟩, hjob, hrest⟩ := Option.bind_eq_some_iff.mp hst
  obtain ⟨jpeg, hjpeg, rfl⟩ := Option.map_eq_some_iff.mp hrest
  obtain ⟨hhw, hfailed, hothers⟩ := jpegStep_finish hjpeg
  refine ⟨h.jpeg.step hjpeg, fun j hj => ?_, fun j hj hdone hok => ?_, h.ring, h.sink⟩
  · dsimp only at hj
    rw [hhw] at hj
    exact h.src j hj
  · dsimp only at hj hdone hok ⊢
    rw [hhw] at hj
    rcases eq_or_ne j i with rfl | hne
    · obtain ⟨hcaptured, hsearches⟩ := h.src j hj
      obtain ⟨ok', out, hrun, hmade⟩ :=
        (madeOrReported_iff hcaptured (s.dest j) begins ends).mpr hsearches
      obtain ⟨rfl, rfl⟩ := Prod.mk.inj (Option.some.inj (hjob.symm.trans hrun))
      rw [hfailed, Bool.not_eq_false'] at hok
      rw [Function.update_self]
      exact hmade hok
    · rw [hothers j hne] at hdone hok
      rw [Function.update_of_ne hne]
      exact h.dest j hj hdone hok

theorem other (h : HwStreamInv cap s) {a : JpegAct}
    (hst : hwStreamStep jpegSink s (.other a) = some s') : HwStreamInv cap s' := by
  unfold hwStreamStep at hst
  dsimp only at hst
  split at hst
  · rename_i hplain
    obtain ⟨jpeg, hjpeg, rfl⟩ := Option.map_eq_some_iff.mp hst
    obtain ⟨hhw, hsame⟩ := jpegStep_plain hplain hjpeg
    refine ⟨h.jpeg.step hjpeg, fun i hi => ?_, fun i hi hjob hfailed => ?_, h.ring, h.sink⟩
    · dsimp only at hi
      rw [hhw] at hi
      exact h.src i hi
    · dsimp only at hi hjob hfailed
      rw [hhw] at hi
      rw [(hsame i).1] at hjob
      rw [(hsame i).2] at hfailed
      exact h.dest i hi hjob hfailed
  · contradiction

/-- **The invariant holds in every state of every run** whose buffers can be encoded. -/
theorem of_reach (hr : (hwStreamSystem jpegSink).ReachVia (fun _ a => a.Encodable cap) s) :
    HwStreamInv cap s := by
  refine System.ReachVia.inv ?_ ?_ hr
  · rintro s ⟨n, src, dest, -, rfl⟩
    refine ⟨JpegInv.init n, ?_, ?_, List.forall_mem_nil _, List.forall_mem_nil _⟩
    · exact fun i hi => absurd hi Bool.false_ne_true
    · exact fun i hi => absurd hi Bool.false_ne_true
  · intro s s' a h hok hst
    change hwStreamStep jpegSink s a = some s' at hst
    cases a with
    | collect item => exact h.collect hst
    | assign src => exact h.assign (hok src rfl) hst
    | finish i begins ends startTs endTs => exact h.finish hst
    | other a => exact h.other hst

end HwStreamInv

/-- **When a failure is not published.**  A worker makes an image of an accepted buffer, or reports
the job as failed, just in case the encoder's searches end in it; and where all the buffers are so,
nothing empty is ever exposed. -/
theorem failed_not_published_iff (cap : UsCapture) (jpegSink : Bool) :
    (∀ src, captured cap src = true → ∀ dest begins ends,
      (MadeOrReported src dest begins ends ↔ SearchesEnd src.data src.used)) ∧
    ∀ s, (hwStreamSystem jpegSink).ReachVia (fun _ a => a.Encodable cap) s →
      ∀ f ∈ s.ring ++ s.sink, f.used ≠ 0 := by
  refine ⟨fun src h dest begins ends => madeOrReported_iff h dest begins ends, ?_⟩
  intro s hr f hf
  have h := HwStreamInv.of_reach hr
  rcases List.mem_append.mp hf with hring | hsink
  · exact h.ring f hring
  · exact h.sink f hsink

/-- A camera that delivers JPEGs. -/
def jpegCapture : UsCapture where
  width := 0
  height := 0
  format := v4l2PixFmtJpeg
  formatSwapRgb := false
  standard := 0
  ioMethod := .mmap
  dvTimings := false
  persistent := false
  nBufs := 1
  dmaExport := false
  dmaRequired := false
  minFrameSize := 128
  allowTruncatedFrames := false
  run :=
    { fd := 3
      width := 0
      height := 0
      format := v4l2PixFmtJpeg
      stride := 0
      hz := 0
      rawSize := 256
      nBufs := 1
      bufs := [UsCaptureHwbuf.zero]
      dma := false
      captureMplane := false
      streamon := true }

/-- A JPEG of 130 bytes with a scan, in a buffer of 132: zeros, but for the start, the marker `sof`
of its first segment, the scan's marker and the end marker. -/
def smallJpeg (sof : UInt8) : List UInt8 :=
  [0xFF, 0xD8, 0xFF, sof] ++ (List.replicate 122 0 ++ [0xFF, 0xDA, 0xFF, 0xD9, 0, 0])

theorem smallJpeg_le (sof : UInt8) : 130 ≤ (smallJpeg sof).length := Nat.le_add_right 130 2

/-- It as a frame. -/
def smallFrame (sof : UInt8) : UsFrame where
  toFrameMeta := { FrameMeta.zero with format := v4l2PixFmtJpeg }
  data := smallJpeg sof
  used := 130
  dmaFd := -1
  used_le := smallJpeg_le sof

/-- One worker: it is given the buffer, runs its job, and is dealt with. -/
def oneJpeg (sof : UInt8) : List HwStreamAct :=
  [.other .wait, .other .load, .other .choose, .collect none, .assign (smallFrame sof),
    .other .takeOff, .other (.worker 0 .wake), .finish 0 0 0 1 2, .other (.worker 0 .count),
    .other .wait, .other .load, .other .choose, .collect (some (smallFrame sof))]

/-- Where the run of `oneJpeg` begins. -/
def oneJpegState (sof : UInt8) : HwStreamState :=
  ⟨jpegInit 1, fun _ => smallFrame sof, fun _ => smallFrame sof, [], []⟩

theorem accepted_oneJpeg {ok : UsFrame → Prop} {sof : UInt8} (h : ok (smallFrame sof)) :
    ∀ a ∈ oneJpeg sof, ∀ _ : HwStreamState, ∀ src, a = HwStreamAct.assign src → ok src := by
  intro a ha _ src heq
  subst heq
  unfold oneJpeg at ha
  simp only [List.mem_cons, reduceCtorEq, HwStreamAct.assign.injEq, List.not_mem_nil, or_false,
    false_or] at ha
  rw [ha]
  exact h

/-- The length of what is published by the run of `oneJpeg`. -/
theorem oneJpeg_reaches (ok : UsFrame → Prop) (sof : UInt8) (h : ok (smallFrame sof)) {n : Nat}
    (hrun : ((hwStreamSystem true).exec (oneJpegState sof) (oneJpeg sof)).map (fun s =>
      (s.ring.map UsFrame.used, s.sink.map UsFrame.used)) = some ([n], [n])) :
    ∃ s, (hwStreamSystem true).ReachVia (fun _ a => ∀ src, a = .assign src → ok src) s ∧
      s.ring.map UsFrame.used = [n] ∧ s.sink.map UsFrame.used = [n] := by
  obtain ⟨s, hexec, heq⟩ := Option.map_eq_some_iff.mp hrun
  obtain ⟨hring, hsink⟩ := Prod.mk.inj heq
  refine ⟨s, System.ReachVia.exec _ (accepted_oneJpeg h) ?_ hexec, hring, hsink⟩
  exact .start ⟨1, _, _, Nat.le_refl 1, rfl⟩

/-- A baseline JPEG is published with a table. -/
theorem failed_not_published_baseline : ∃ s : HwStreamState,
    s.ring.map UsFrame.used = [550] ∧ ∀ f ∈ s.ring ++ s.sink, f.used ≠ 0 := by
  have hsearches : SearchesEnd (smallFrame jpegSof0).data (smallFrame jpegSof0).used :=
    ⟨.inl ⟨126, by decide +kernel⟩, .inr ⟨2, by decide, by decide +kernel⟩⟩
  obtain ⟨s, hr, hring, -⟩ := oneJpeg_reaches
    (fun src => captured jpegCapture src = true ∧ SearchesEnd src.data src.used) jpegSof0
    ⟨by decide +kernel, hsearches⟩ (n := 550) (by decide +kernel)
  exact ⟨s, hring, (failed_not_published_iff jpegCapture true).2 s hr⟩

/-- **A progressive JPEG without a table**: it is accepted, the encoder fails, and what the worker
reports as made is empty; it goes to the ring and to the sink. -/
theorem failed_published_progressive :
    captured jpegCapture (smallFrame 0xC2) = true ∧
      ¬ MadeOrReported (smallFrame 0xC2) (smallFrame 0xC2) 0 0 ∧
      ∃ s, (hwStreamSystem true).ReachVia
          (fun _ a => ∀ src, a = .assign src → captured jpegCapture src = true) s ∧
        s.ring.map UsFrame.used = [0] ∧ s.sink.map UsFrame.used = [0] := by
  have hcaptured : captured jpegCapture (smallFrame 0xC2) = true := by decide +kernel
  refine ⟨hcaptured, ?_, oneJpeg_reaches _ 0xC2 hcaptured (by decide +kernel)⟩
  rintro ⟨ok, out, hrun, hmade⟩
  have hout : (runHwJob (smallFrame 0xC2) (smallFrame 0xC2) 0 0).map (fun (ok, out) =>
      (ok, out.used)) = some (true, 0) := by decide +kernel
  rw [hrun, Option.map_some] at hout
  obtain ⟨rfl, hempty⟩ := Prod.mk.inj (Option.some.inj hout)
  exact hmade rfl hempty

end TinyPilotKvm
