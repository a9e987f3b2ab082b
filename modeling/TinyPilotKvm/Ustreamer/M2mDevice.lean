/-
# The M2M encoder and its codec device (`ustreamer/m2m.c`)

`M2m.lean` has the encoder with the device behind one answer a frame.  Here is the device itself:
the handle, the buffers mapped from it, and the ioctls, each of which may be refused.  What comes
back from the device is not trusted: the indices, the lengths, the timestamps and the byte counts
are whatever the answers say, and an access outside of an array or of a mapping, and an assertion
that fails, is a fault of the program.

The device's INPUT takes frames (`V4L2_BUF_TYPE_VIDEO_OUTPUT_MPLANE`), and its OUTPUT gives what
they are coded to (`V4L2_BUF_TYPE_VIDEO_CAPTURE_MPLANE`).  In DMA mode the frame's own memory is
queued at the input, and no input buffer is mapped.

Memory is always granted by the allocator, and a mapping is never at address zero.  The answers to
`STREAMOFF`, `munmap` and `close` decide about a line of the log only, and are left out.
-/
import TinyPilotKvm.Programs
import TinyPilotKvm.Ustreamer.M2m

namespace TinyPilotKvm.M2m

/-! ## 1. Data -/

/-- `us_m2m_buffer_s`; `data` is the memory that is mapped, empty if none is. -/
structure UsM2mBuffer where
  data : List UInt8
  allocated : Nat
  mapped : data.length = allocated

/-- A buffer of `calloc`ed memory. -/
def UsM2mBuffer.null : UsM2mBuffer := ⟨[], 0, rfl⟩

/-- A buffer just mapped. -/
def UsM2mBuffer.ofLength (length : Nat) : UsM2mBuffer :=
  ⟨List.replicate length 0, length, List.length_replicate⟩

/-- The memory after `bytes` are written at its beginning, as far as they fit. -/
def overwrite (mem bytes : List UInt8) : List UInt8 :=
  bytes.take mem.length ++ mem.drop bytes.length

theorem length_overwrite (mem bytes : List UInt8) : (overwrite mem bytes).length = mem.length := by
  simp [overwrite]
  omega

theorem take_overwrite {mem bytes : List UInt8} (h : bytes.length ≤ mem.length) :
    (overwrite mem bytes).take bytes.length = bytes := by
  simp [overwrite, List.take_of_length_le h]

def UsM2mBuffer.fill (buf : UsM2mBuffer) (bytes : List UInt8) : UsM2mBuffer where
  data := overwrite buf.data bytes
  allocated := buf.allocated
  mapped := (length_overwrite buf.data bytes).trans buf.mapped

/-- `us_m2m_encoder_runtime_s`: a `fd` of -1 is a closed device. -/
structure DeviceRuntime extends UsM2mEncoderRuntime where
  fd : Int
  fpsLimit : Nat
  inputBufs : Option (List UsM2mBuffer)
  nInputBufs : Nat
  outputBufs : Option (List UsM2mBuffer)
  nOutputBufs : Nat

/-- The runtime that `_m2m_encoder_init` makes. -/
def DeviceRuntime.init : DeviceRuntime where
  toUsM2mEncoderRuntime := m2mEncoderRuntimeInit
  fd := -1
  fpsLimit := 0
  inputBufs := none
  nInputBufs := 0
  outputBufs := none
  nOutputBufs := 0

/-- `us_m2m_encoder_s`. -/
structure DeviceEncoder extends UsM2mEncoder where
  bitrate : Nat

/-- `us_m2m_h264_encoder_init`; the bitrate comes in Kbps. -/
def h264EncoderInit (name : String) (path : Option String) (bitrate gop : Nat) :
    DeviceEncoder where
  toUsM2mEncoder := usM2mH264EncoderInit name path gop
  bitrate := bitrate * 1000 % 4294967296

inductive BufType
  | input
  | output
  deriving DecidableEq

/-- The controls set by the encoder, after their `V4L2_CID`s. -/
inductive Control
  | mpegVideoBitrate
  | mpegVideoH264IPeriod
  | mpegVideoH264Profile
  | mpegVideoH264Level
  | mpegVideoRepeatSeqHeader
  | mpegVideoH264MinQp
  | mpegVideoH264MaxQp
  | jpegCompressionQuality
  | mpegVideoForceKeyFrame
  deriving DecidableEq

/-- The kernel's numbers of the profile and of the two levels. -/
def h264ProfileConstrainedBaseline : Nat := 1

def h264Level40 : Nat := 11

def h264Level51 : Nat := 15

/-- What a `v4l2_buffer` of one plane carries: its number, its timestamp, its size and its
flags. -/
structure V4l2Buffer where
  index : Nat
  tvSec : Int
  tvUsec : Int
  bytesused : Nat
  flags : Nat
  deriving DecidableEq

/-- `V4L2_BUF_FLAG_KEYFRAME`. -/
def V4l2Buffer.keyframe (buf : V4l2Buffer) : Bool := buf.flags &&& 8 != 0

inductive PollAnswer
  | failed
  | interrupted
  | revents (pollin : Bool)
  deriving DecidableEq

/-- The calls of the device, each with its answer. -/
inductive Call
  | openDevice (path : String) (fd : Option Nat)
  | setControl (id : Control) (value : Nat) (ok : Bool)
  | setFormat (type : BufType) (width height pixelformat sizeimage : Nat) (granted : Option Nat)
  | setParm (denominator : Nat) (ok : Bool)
  | requestBuffers (type : BufType) (dma : Bool) (count : Option Nat)
  | queryBuffer (type : BufType) (index : Nat) (length : Option Nat)
  | mmap (type : BufType) (index length : Nat) (ok : Bool)
  | queue (type : BufType) (buf : V4l2Buffer) (dmaFd : Option Int) (ok : Bool)
  | dequeue (type : BufType) (buf : Option V4l2Buffer)
  | streamOn (type : BufType) (ok : Bool)
  | poll (answer : PollAnswer)
  | streamOff (type : BufType)
  | munmap (length : Nat)
  | closeDevice
  deriving DecidableEq

inductive Fault
  | assertion
  | inputIndex (index : Nat)
  | inputCopy (size : Nat)
  | outputIndex (index : Nat)
  | outputCopy (size : Nat)
  deriving DecidableEq

/-- What a compression writes: the runtime and the frame that its caller wants filled. -/
structure Memory where
  run : DeviceRuntime
  dest : UsFrame

abbrev Driver (α : Type) : Type := Program Memory Call Fault α

def updateRun (f : DeviceRuntime → DeviceRuntime) : Driver Unit :=
  Program.update fun mem => { mem with run := f mem.run }

def updateDest (f : UsFrame → UsFrame) : Driver Unit :=
  Program.update fun mem => { mem with dest := f mem.dest }

/-! ## 2. The answers of the device -/

/-- The answers about one buffer: its length, whether it is mapped, and whether it is queued. -/
structure SlotAnswers where
  length : Option Nat
  mapped : Bool
  queued : Bool

structure BufferAnswers where
  count : Option Nat
  slot : Nat → SlotAnswers

/-- The answers while the device is opened and configured. -/
structure PrepareAnswers where
  fd : Option Nat
  control : Control → Bool
  inputFormat : Option Nat
  outputFormat : Option Nat
  parm : Bool
  input : BufferAnswers
  output : BufferAnswers
  inputOn : Bool
  outputOn : Bool

/-- An output buffer that is dequeued, and what the device has written into it. -/
structure Fetched extends V4l2Buffer where
  written : List UInt8

/-- A turn of the loop that waits for the output. -/
structure Round where
  now : ℚ
  poll : PollAnswer
  fetched : Option Fetched
  requeued : Bool

/-- The answers while a frame is coded.  Time goes on, so a call has finitely many `rounds`: the
turn after the last of them finds that the deadline has passed. -/
structure CompressAnswers where
  keyForced : Bool
  grabbed : Option V4l2Buffer
  nowTs : Nat
  sent : Bool
  startTs : ℚ
  rounds : List Round
  released : Option V4l2Buffer

/-- The environment of one call of `us_m2m_encoder_compress`. -/
structure DeviceEnv where
  now : ℚ
  encodeBeginTs : ℚ
  encodeEndTs : ℚ
  prepare : PrepareAnswers
  compress : CompressAnswers

/-! ## 3. Closing -/

/-- `DELETE_BUFFERS`, the calls of it. -/
def unmapped (bufs : Option (List UsM2mBuffer)) (n : Nat) : List Call :=
  (((bufs.getD []).take n).filter fun buf => 0 < buf.allocated).map fun buf =>
    .munmap buf.allocated

/-- The calls of `_m2m_encoder_cleanup`. -/
def cleanupCalls (run : DeviceRuntime) : List Call :=
  (if run.ready then [.streamOff .output, .streamOff .input] else []) ++
    unmapped run.outputBufs run.nOutputBufs ++ unmapped run.inputBufs run.nInputBufs ++
    if 0 ≤ run.fd then [.closeDevice] else []

/-- What `_m2m_encoder_cleanup` leaves of the runtime. -/
def closed (run : DeviceRuntime) : DeviceRuntime where
  toUsM2mEncoderRuntime := m2mEncoderCleanup run.toUsM2mEncoderRuntime
  fd := -1
  fpsLimit := run.fpsLimit
  inputBufs := none
  nInputBufs := 0
  outputBufs := none
  nOutputBufs := 0

/-- `_m2m_encoder_cleanup`. -/
def encoderCleanup : Driver Unit := do
  let mem ← Program.current
  Program.say (cleanupCalls mem.run)
  updateRun closed

/-! ## 4. Configuring -/

def setBufs (type : BufType) (bufs : Option (List UsM2mBuffer)) (run : DeviceRuntime) :
    DeviceRuntime :=
  match type with
  | .input => { run with inputBufs := bufs }
  | .output => { run with outputBufs := bufs }

def setNBufs (type : BufType) (n : Nat) (run : DeviceRuntime) : DeviceRuntime :=
  match type with
  | .input => { run with nInputBufs := n }
  | .output => { run with nOutputBufs := n }

/-- The loop of `_m2m_encoder_init_buffers` over the buffers from `index` on, `todo` of them. -/
def initBuffersLoop (type : BufType) (slot : Nat → SlotAnswers) :
    Nat → Nat → List UsM2mBuffer → Driver Unit
  | 0, _, _ => pure ()
  | todo + 1, index, bufs => do
    let length ← Program.ask (.queryBuffer type index) (slot index).length
    Program.call (.mmap type index length) (slot index).mapped
    let bufs := bufs.set index (UsM2mBuffer.ofLength length)
    updateRun (setBufs type (some bufs))
    Program.call (.queue type ⟨index, 0, 0, 0, 0⟩ none) (slot index).queued
    updateRun (setNBufs type (index + 1))
    initBuffersLoop type slot todo (index + 1) bufs

/-- `_m2m_encoder_init_buffers`. -/
def encoderInitBuffers (type : BufType) (dma : Bool) (a : BufferAnswers) : Driver Unit := do
  let count ← Program.ask (.requestBuffers type dma) a.count
  Program.check (1 ≤ count)
  if dma then updateRun (setNBufs type count)
  else do
    let bufs := List.replicate count UsM2mBuffer.null
    updateRun fun run => setNBufs type 0 (setBufs type (some bufs) run)
    initBuffersLoop type a.slot count 0 bufs

/-- A product of two `uint`s. -/
def area (width height : Nat) : Nat := width * height % 4294967296

/-- The options of `_m2m_encoder_ensure` for an output format. -/
def encoderOptions (enc : DeviceEncoder) (frame : UsFrame) : List (Control × Nat) :=
  if enc.outputFormat = v4l2PixFmtH264 then
    [(.mpegVideoBitrate, enc.bitrate),
     (.mpegVideoH264IPeriod, enc.gop),
     (.mpegVideoH264Profile, h264ProfileConstrainedBaseline),
     (.mpegVideoH264Level,
       if area frame.width frame.height ≤ 1920 * 1080 then h264Level40 else h264Level51),
     (.mpegVideoRepeatSeqHeader, 1),
     (.mpegVideoH264MinQp, 16),
     (.mpegVideoH264MaxQp, 32)]
  else if enc.outputFormat = v4l2PixFmtMjpeg then [(.mpegVideoBitrate, enc.bitrate)]
  else if enc.outputFormat = v4l2PixFmtJpeg then [(.jpegCompressionQuality, enc.quality)]
  else []

/-- `SET_OPTION`, one after the other. -/
def setOptions (answer : Control → Bool) : List (Control × Nat) → Driver Unit
  | [] => pure ()
  | (id, value) :: options => do
    Program.call (.setControl id value) (answer id)
    setOptions answer options

/-- `_m2m_encoder_ensure`: the device is opened, and its options are set. -/
def encoderOpen (enc : DeviceEncoder) (frame : UsFrame) (a : PrepareAnswers) : Driver Unit := do
  let fd ← Program.ask (.openDevice enc.path) a.fd
  updateRun fun run => { run with fd := fd }
  setOptions a.control (encoderOptions enc frame)

def fpsLimit (frame : UsFrame) : Nat :=
  if area frame.width frame.height ≤ 1280 * 720 then 60 else 30

/-- `_m2m_encoder_ensure`: the two formats and the rate. -/
def encoderSetFormats (enc : DeviceEncoder) (frame : UsFrame) (a : PrepareAnswers) :
    Driver Unit := do
  let _ ← Program.ask (.setFormat .input frame.width frame.height frame.format 0) a.inputFormat
  let granted ← Program.ask
    (.setFormat .output frame.width frame.height enc.outputFormat
      (if enc.outputFormat = v4l2PixFmtH264 then 1572864 else 0)) a.outputFormat
  Program.check (granted = enc.outputFormat)
  updateRun fun run => { run with fpsLimit := fpsLimit frame }
  Program.call (.setParm (fpsLimit frame)) a.parm

/-- `_m2m_encoder_ensure`: the buffers, and the start of the streams. -/
def encoderStart (dma : Bool) (a : PrepareAnswers) : Driver Unit := do
  encoderInitBuffers .input dma a.input
  encoderInitBuffers .output false a.output
  Program.call (.streamOn .input) a.inputOn
  Program.call (.streamOn .output) a.outputOn
  updateRun fun run => { run with ready := true }

/-- The part of `_m2m_encoder_ensure` that may fail. -/
def encoderPrepare (enc : DeviceEncoder) (frame : UsFrame) (dma : Bool) (a : PrepareAnswers) :
    Driver Unit := do
  encoderOpen enc frame a
  encoderSetFormats enc frame a
  encoderStart dma a

/-- The `dma` of `_m2m_encoder_ensure`. -/
def frameDma (enc : DeviceEncoder) (frame : UsFrame) : Bool :=
  enc.allowDma && decide (0 ≤ frame.dmaFd)

/-- "Configured already": the parameters kept from the last time are those of the frame. -/
def Cached (enc : DeviceEncoder) (run : UsM2mEncoderRuntime) (frame : UsFrame) : Prop :=
  run.pWidth = frame.width ∧ run.pHeight = frame.height ∧ run.pInputFormat = frame.format ∧
    run.pStride = frame.stride ∧ run.pDma = frameDma enc frame

instance (enc : DeviceEncoder) (run : UsM2mEncoderRuntime) (frame : UsFrame) :
    Decidable (Cached enc run frame) :=
  inferInstanceAs (Decidable (_ ∧ _ ∧ _ ∧ _ ∧ _))

/-- The runtime with the parameters of a frame. -/
def caching (enc : DeviceEncoder) (frame : UsFrame) (run : DeviceRuntime) : DeviceRuntime :=
  { run with
    pWidth := frame.width, pHeight := frame.height, pInputFormat := frame.format,
    pStride := frame.stride, pDma := frameDma enc frame }

/-- `_m2m_encoder_ensure`. -/
def encoderEnsure (enc : DeviceEncoder) (frame : UsFrame) (a : PrepareAnswers) : Driver Unit := do
  let mem ← Program.current
  if Cached enc mem.run.toUsM2mEncoderRuntime frame then pure ()
  else do
    encoderCleanup
    updateRun (caching enc frame)
    let ok ← Program.attempt (encoderPrepare enc frame (frameDma enc frame) a)
    if ok then pure () else encoderCleanup

/-! ## 5. Coding a frame -/

/-- The timestamp a frame is sent with. -/
def stamped (nowTs : Nat) (buf : V4l2Buffer) : V4l2Buffer :=
  { buf with tvSec := (nowTs / 1000000 : Nat), tvUsec := (nowTs % 1000000 : Nat) }

/-- Whether two buffers have the same timestamp. -/
def SameStamp (buf buf' : V4l2Buffer) : Prop := buf.tvSec = buf'.tvSec ∧ buf.tvUsec = buf'.tvUsec

instance (buf buf' : V4l2Buffer) : Decidable (SameStamp buf buf') :=
  inferInstanceAs (Decidable (_ ∧ _))

/-- The input buffer that is filled: in DMA mode it is the frame's memory, else one that the
device has to give. -/
def grabInput (a : CompressAnswers) : Driver V4l2Buffer := do
  let mem ← Program.current
  if mem.run.pDma then pure ⟨0, 0, 0, 0, 0⟩
  else do
    let buf ← Program.ask (.dequeue .input) a.grabbed
    Program.check (buf.index < mem.run.nInputBufs)
    pure buf

/-- `memcpy` into an input buffer. -/
def copyInput (src : UsFrame) (index : Nat) : Driver Unit := do
  let mem ← Program.current
  if mem.run.pDma then pure ()
  else
    match mem.run.inputBufs.bind (·[index]?) with
    | none => Program.fault (.inputIndex index)
    | some buf => do
      Program.require (src.used ≤ buf.allocated) (.inputCopy src.used)
      updateRun fun run =>
        { run with inputBufs := run.inputBufs.map (·.set index (buf.fill src.bytes)) }

/-- The buffer of a frame that is sent. -/
def sentBuffer (src : UsFrame) (nowTs : Nat) (grabbed : V4l2Buffer) : V4l2Buffer :=
  { stamped nowTs grabbed with bytesused := src.used % 4294967296 }

/-- The control that asks for a key frame. -/
def forceKeyFrame (forceKey : Bool) (a : CompressAnswers) : Driver Unit :=
  if forceKey then Program.call (.setControl .mpegVideoForceKeyFrame 1) a.keyForced else pure ()

/-- The queueing of a frame. -/
def queueInput (sent : V4l2Buffer) (dmaFd : Option Int) (a : CompressAnswers) :
    Driver V4l2Buffer := do
  Program.call (.queue .input sent dmaFd) a.sent
  pure sent

/-- The memory that is queued in DMA mode: the frame's own. -/
def inputDma (run : DeviceRuntime) (src : UsFrame) : Option Int :=
  if run.pDma then some src.dmaFd else none

/-- The first half of `_m2m_encoder_compress_raw`: the frame is sent, `sent` is its buffer. -/
def sendInput (src : UsFrame) (forceKey : Bool) (a : CompressAnswers) : Driver V4l2Buffer := do
  let mem ← Program.current
  Program.require (mem.run.ready = true) .assertion
  forceKeyFrame forceKey a
  let grabbed ← grabInput a
  copyInput src grabbed.index
  queueInput (sentBuffer src a.nowTs grabbed) (inputDma mem.run src) a

/-- `DQBUF` of an output buffer, into which the device has written. -/
def fetchOutput (answer : Option Fetched) : Driver Fetched := do
  let fetched ← Program.ask
    (fun o : Option Fetched => .dequeue .output (o.map Fetched.toV4l2Buffer)) answer
  updateRun fun run =>
    { run with outputBufs := run.outputBufs.map (·.modify fetched.index (·.fill fetched.written)) }
  pure fetched

/-- What is done with the output of the frame. -/
def takeOutput (enc : DeviceEncoder) (output : V4l2Buffer) : Driver Unit := do
  let mem ← Program.current
  match mem.run.outputBufs.bind (·[output.index]?) with
  | none => Program.fault (.outputIndex output.index)
  | some buf => do
    Program.require (output.bytesused ≤ buf.allocated) (.outputCopy output.bytesused)
    updateDest fun dest =>
      { usFrameSetData dest buf.data output.bytesused with key := output.keyframe, gop := enc.gop }

/-- `DQBUF` of the input, unless it is released already. -/
def releaseInput (inputReleased : Bool) (a : CompressAnswers) : Driver Unit :=
  if inputReleased then pure ()
  else do
    let _ ← Program.ask (.dequeue .input) a.released
    pure ()

/-- The loop of `_m2m_encoder_compress_raw`. -/
def awaitOutput (enc : DeviceEncoder) (a : CompressAnswers) (sent : V4l2Buffer) :
    Bool → List Round → Driver Unit
  -- "Waiting for the encoder is too long"
  | _, [] => Program.fail
  | inputReleased, round :: rounds => do
    Program.check (round.now ≤ a.startTs + 1)
    Program.say [.poll round.poll]
    Program.check (round.poll ≠ .failed)
    if round.poll = .revents true then do
      releaseInput inputReleased a
      let output ← fetchOutput round.fetched
      if SameStamp sent output.toV4l2Buffer then do
        takeOutput enc output.toV4l2Buffer
        Program.call (.queue .output output.toV4l2Buffer none) round.requeued
      else do
        Program.call (.queue .output output.toV4l2Buffer none) round.requeued
        awaitOutput enc a sent true rounds
    else awaitOutput enc a sent inputReleased rounds

/-- `_m2m_encoder_compress_raw`. -/
def encoderCompressRaw (enc : DeviceEncoder) (src : UsFrame) (forceKey : Bool)
    (a : CompressAnswers) : Driver Unit := do
  let sent ← sendInput src forceKey a
  let mem ← Program.current
  awaitOutput enc a sent (!mem.run.pDma) a.rounds

/-- The end of `us_m2m_encoder_compress`, on a device that is ready. -/
def encodeFrame (enc : DeviceEncoder) (src : UsFrame) (forceKey : Bool) (env : DeviceEnv) :
    Driver Int := do
  let ok ← Program.attempt (encoderCompressRaw enc src forceKey env.compress)
  if ok then do
    let mem ← Program.current
    Program.require (0 < mem.dest.used) .assertion
    updateDest fun dest => { dest with encodeEndTs := env.encodeEndTs }
    updateRun fun run =>
      { run with lastOnline := some src.online, lastEncodeTs := env.encodeEndTs }
    pure 0
  else do
    encoderCleanup
    pure (-1)

/-- `us_m2m_encoder_compress`. -/
def encoderCompress (enc : DeviceEncoder) (src : UsFrame) (forceKey : Bool) (env : DeviceEnv) :
    Driver Int := do
  let mem ← Program.current
  let chosen :=
    m2mEncoderForceKey enc.toUsM2mEncoder mem.run.toUsM2mEncoderRuntime src forceKey env.now
  Program.require (0 < src.used) .assertion
  updateDest fun dest => usFrameEncodingBegin src dest chosen.1 env.encodeBeginTs
  encoderEnsure enc src env.prepare
  let mem ← Program.current
  if mem.run.ready = false then pure (-1) else encodeFrame enc src chosen.2 env

end TinyPilotKvm.M2m
