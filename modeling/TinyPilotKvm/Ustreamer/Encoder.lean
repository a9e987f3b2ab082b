/-
# The JPEG encoder (`ustreamer/encoder.c`)

`us_encoder_open` chooses the type of the encoder and the number of its workers from what the
capture device has granted.  For the M2M types every worker has an M2M encoder of its own, and
these outlive `us_encoder_close`: the array `m2ms` is allocated once, by the first open that needs
it, and later opens continue filling it where the last one stopped.

The array is checked memory here, so that a store outside of it is a fault of the model
(`EncoderFault.storeOutside`), and so are the assertions.  Of an M2M encoder only what
`_m2m_encoder_init` sets is modelled, without the bitrate, a floating-point logarithm of the
quality.
-/
import Mathlib.Algebra.Order.Ring.Rat
import Mathlib.Data.List.Basic
import TinyPilotKvm.Libs.Frame
import TinyPilotKvm.Libs.Memory

namespace TinyPilotKvm

/-! ## 1. Data -/

/-- `us_encoder_type_e`. -/
inductive UsEncoderType
  | cpu
  | hw
  | m2mVideo
  | m2mImage
  deriving DecidableEq

/-- `us_m2m_encoder_s`. -/
structure UsM2mEncoder where
  name : String
  path : String
  outputFormat : Nat
  gop : Nat
  quality : Nat
  allowDma : Bool
  deriving DecidableEq

/-- `us_workers_pool_s`: the workers have the numbers below `nWorkers`. -/
structure UsWorkersPool where
  nWorkers : Nat
  desiredInterval : ℚ
  deriving DecidableEq

/-- `us_encoder_runtime_s`; the null pointers are `none`. -/
structure UsEncoderRuntime where
  type : UsEncoderType
  quality : Nat
  nM2ms : Nat
  m2ms : Option (List (Option UsM2mEncoder))
  pool : Option UsWorkersPool
  deriving DecidableEq

/-- `us_encoder_s`. -/
structure UsEncoder where
  type : UsEncoderType
  nWorkers : Nat
  m2mPath : Option String
  run : UsEncoderRuntime
  deriving DecidableEq

/-- What `us_encoder_open` reads of the capture device: `jpegQuality` and `desiredFps` are
set by the user, the others are of `cap->run`. -/
structure EncoderSource where
  jpegQuality : Nat
  desiredFps : Nat
  format : Nat
  nBufs : Nat
  runJpegQuality : Nat
  hwFps : ℚ

inductive EncoderFault
  | poolExists
  | noPool
  | storeOutside (index : Nat)
  | noEncoder (number : Nat)
  deriving DecidableEq

/-! ## 2. Opening and closing -/

/-- `_m2m_encoder_init`, without the bitrate. -/
def m2mEncoderInit (name : String) (path : Option String) (outputFormat gop quality : Nat)
    (allowDma : Bool) : UsM2mEncoder where
  name := name
  path := path.getD (if outputFormat = v4l2PixFmtJpeg then "/dev/video31" else "/dev/video11")
  outputFormat := outputFormat
  gop := gop
  quality := quality
  allowDma := allowDma

def usM2mMjpegEncoderInit (name : String) (path : Option String) (_quality : Nat) : UsM2mEncoder :=
  m2mEncoderInit name path v4l2PixFmtMjpeg 0 0 true

def usM2mJpegEncoderInit (name : String) (path : Option String) (quality : Nat) : UsM2mEncoder :=
  m2mEncoderInit name path v4l2PixFmtJpeg 0 quality false

/-- `us_encoder_init`, on a machine with `cores` cores. -/
def usEncoderInit (cores : Nat) : UsEncoder where
  type := .cpu
  nWorkers := cores
  m2mPath := none
  run := ⟨.cpu, 80, 0, none, none⟩

/-- The loop that fills the array from `nM2ms` on, `todo` turns of it. -/
def fillM2ms (new : Nat → UsM2mEncoder) : Nat → Nat → List (Option UsM2mEncoder) →
    Except EncoderFault (Nat × List (Option UsM2mEncoder))
  | 0, nM2ms, m2ms => .ok (nM2ms, m2ms)
  | todo + 1, nM2ms, m2ms =>
    match store m2ms nM2ms (some (new nM2ms)) with
    | none => .error (.storeOutside nM2ms)
    | some m2ms => fillM2ms new todo (nM2ms + 1) m2ms

/-- The M2M branch of `us_encoder_open`. -/
def prepareM2ms (run : UsEncoderRuntime) (new : Nat → UsM2mEncoder) (nWorkers : Nat) :
    Except EncoderFault UsEncoderRuntime :=
  let m2ms := run.m2ms.getD (List.replicate nWorkers none)
  match fillM2ms new (nWorkers - run.nM2ms) run.nM2ms m2ms with
  | .error fault => .error fault
  | .ok (nM2ms, m2ms) => .ok { run with nM2ms := nM2ms, m2ms := some m2ms }

/-- The end of `us_encoder_open`. -/
def openPool (enc : UsEncoder) (run : UsEncoderRuntime) (type : UsEncoderType)
    (quality nWorkers : Nat) (cap : EncoderSource) : UsEncoder :=
  { enc with
    run := { run with
      type := type
      quality := quality
      pool := some
        { nWorkers := nWorkers
          desiredInterval :=
            if 0 < cap.desiredFps ∧ ((cap.desiredFps : ℚ) < cap.hwFps ∨ cap.hwFps = 0) then
              1 / (cap.desiredFps : ℚ)
            else 0 } } }

/-- `us_encoder_open`. -/
def usEncoderOpen (enc : UsEncoder) (cap : EncoderSource) : Except EncoderFault UsEncoder :=
  if enc.run.pool.isSome then .error .poolExists
  else
    let nWorkers := min enc.nWorkers cap.nBufs
    let type := if usIsJpeg cap.format && enc.type != .hw then .hw else enc.type
    match type with
    | .cpu => .ok (openPool enc enc.run .cpu cap.jpegQuality nWorkers cap)
    | .hw =>
      if usIsJpeg cap.format then .ok (openPool enc enc.run .hw cap.runJpegQuality 1 cap)
      else .ok (openPool enc enc.run .cpu cap.jpegQuality nWorkers cap)
    | .m2mVideo =>
      (prepareM2ms enc.run (fun n => usM2mMjpegEncoderInit ("JPEG-" ++ toString n) enc.m2mPath
        cap.jpegQuality) nWorkers).map fun run =>
          openPool enc run .m2mVideo cap.jpegQuality nWorkers cap
    | .m2mImage =>
      (prepareM2ms enc.run (fun n => usM2mJpegEncoderInit ("JPEG-" ++ toString n) enc.m2mPath
        cap.jpegQuality) nWorkers).map fun run =>
          openPool enc run .m2mImage cap.jpegQuality nWorkers cap

/-- `us_encoder_close`. -/
def usEncoderClose (enc : UsEncoder) : Except EncoderFault UsEncoder :=
  if enc.run.pool.isNone then .error .noPool
  else .ok { enc with run := { enc.run with pool := none } }

/-- `us_encoder_destroy`: the M2M encoders it destroys, where `US_DELETE` skips a null pointer.
`none`: it reads outside the array. -/
def usEncoderDestroy (enc : UsEncoder) : Option (List UsM2mEncoder) :=
  match enc.run.m2ms with
  | none => some []
  | some m2ms =>
    if enc.run.nM2ms ≤ m2ms.length then some ((m2ms.take enc.run.nM2ms).filterMap id) else none

/-- The encoder that `_worker_run_job` uses. -/
inductive Compressor
  | cpu (quality : Nat)
  | hw
  | m2m (encoder : UsM2mEncoder)
  deriving DecidableEq

/-- The choice of `_worker_run_job`, in the worker with this number. -/
def workerRunJob (run : UsEncoderRuntime) (number : Nat) : Except EncoderFault Compressor :=
  match run.type with
  | .cpu => .ok (.cpu run.quality)
  | .hw => .ok .hw
  | .m2mVideo | .m2mImage =>
    match (run.m2ms.getD [])[number]? with
    | some (some encoder) => .ok (.m2m encoder)
    | _ => .error (.noEncoder number)

end TinyPilotKvm
