/-
# The M2M encoder at work (`us_m2m_encoder_compress` in `ustreamer/m2m.c`)

The encoder keeps the geometry it is configured for, and reopens its device when a frame comes
with another one.  An H.264 encoder is told to make a key frame when its caller wants one, when
the source has gone on or off line, and half a second after the last frame; closing the device
forgets whether the source was online, so the first frame after a failure is a key frame as well.

The device's ioctls and the clock are the environment's.  Its handle, its buffers and `fps_limit`
are left out, and so are the two assertions that the frames are not empty.
-/
import TinyPilotKvm.Ustreamer.Encoder

namespace TinyPilotKvm

/-! ## 1. The encoder -/

/-- `us_m2m_encoder_runtime_s`; a `last_online` of -1 is `none`. -/
structure UsM2mEncoderRuntime where
  pWidth : Nat
  pHeight : Nat
  pInputFormat : Nat
  pStride : Nat
  pDma : Bool
  ready : Bool
  lastOnline : Option Bool
  lastEncodeTs : ℚ
  deriving DecidableEq

/-- The memory that `_m2m_encoder_init` allocates. -/
def m2mEncoderRuntimeInit : UsM2mEncoderRuntime := ⟨0, 0, 0, 0, false, false, none, 0⟩

/-- `us_m2m_h264_encoder_init`, without the bitrate. -/
def usM2mH264EncoderInit (name : String) (path : Option String) (gop : Nat) : UsM2mEncoder :=
  m2mEncoderInit name path v4l2PixFmtH264 gop 0 true

/-- The frame that the device gives. -/
structure M2mOutput where
  data : List UInt8
  key : Bool

/-- The environment of one call: the readings of the clock, whether the device can be configured,
and what it makes of the frame, with the key-frame control and without. -/
structure M2mEnv where
  now : ℚ
  encodeBeginTs : ℚ
  encodeEndTs : ℚ
  prepared : Bool
  device : Bool → Option M2mOutput

/-- `_m2m_encoder_cleanup`. -/
def m2mEncoderCleanup (run : UsM2mEncoderRuntime) : UsM2mEncoderRuntime :=
  { run with lastOnline := none, ready := false }

/-- `_m2m_encoder_ensure`. -/
def m2mEncoderEnsure (enc : UsM2mEncoder) (run : UsM2mEncoderRuntime) (frame : UsFrame)
    (prepared : Bool) : UsM2mEncoderRuntime :=
  let dma := enc.allowDma && decide (0 ≤ frame.dmaFd)
  if run.pWidth = frame.width ∧ run.pHeight = frame.height ∧ run.pInputFormat = frame.format ∧
      run.pStride = frame.stride ∧ run.pDma = dma then run
  else
    let run := { m2mEncoderCleanup run with
      pWidth := frame.width, pHeight := frame.height, pInputFormat := frame.format,
      pStride := frame.stride, pDma := dma }
    if prepared then { run with ready := true } else m2mEncoderCleanup run

/-- The `switch` at the beginning of `us_m2m_encoder_compress`: the format of the output, and
whether a key frame is forced. -/
def m2mEncoderForceKey (enc : UsM2mEncoder) (run : UsM2mEncoderRuntime) (src : UsFrame)
    (forceKey : Bool) (now : ℚ) : Nat × Bool :=
  if enc.outputFormat = v4l2PixFmtJpeg then (v4l2PixFmtJpeg, false)
  else if enc.outputFormat = v4l2PixFmtMjpeg then (v4l2PixFmtJpeg, forceKey)
  else if enc.outputFormat = v4l2PixFmtH264 then
    (enc.outputFormat, forceKey || decide (run.lastOnline ≠ some src.online) ||
      decide (run.lastEncodeTs + 1 / 2 < now))
  else (enc.outputFormat, forceKey)

/-- What `_m2m_encoder_compress_raw` writes into `dest`. -/
def m2mEncoderCompressRaw (enc : UsM2mEncoder) (dest : UsFrame) (output : M2mOutput) : UsFrame :=
  { usFrameSetData dest output.data output.data.length with key := output.key, gop := enc.gop }

/-- What `us_m2m_encoder_compress` leaves behind. -/
structure CompressResult where
  ret : Int
  run : UsM2mEncoderRuntime
  dest : UsFrame

/-- `us_m2m_encoder_compress`. -/
def usM2mEncoderCompress (enc : UsM2mEncoder) (run : UsM2mEncoderRuntime) (src dest : UsFrame)
    (forceKey : Bool) (env : M2mEnv) : CompressResult :=
  let (destFormat, forceKey) := m2mEncoderForceKey enc run src forceKey env.now
  let dest := usFrameEncodingBegin src dest destFormat env.encodeBeginTs
  let run := m2mEncoderEnsure enc run src env.prepared
  if !run.ready then ⟨-1, run, dest⟩
  else
    match env.device forceKey with
    | none => ⟨-1, m2mEncoderCleanup run, dest⟩
    | some output =>
      let dest := { m2mEncoderCompressRaw enc dest output with encodeEndTs := env.encodeEndTs }
      ⟨0, { run with lastOnline := some src.online, lastEncodeTs := dest.encodeEndTs }, dest⟩

/-! ## 2. What a failure leaves behind -/

namespace UsM2mEncoderRuntime

/-- An encoder that is not ready does not know whether its source was online. -/
def Forgetful (run : UsM2mEncoderRuntime) : Prop := run.ready = false → run.lastOnline = none

end UsM2mEncoderRuntime

section

variable {enc : UsM2mEncoder} {run : UsM2mEncoderRuntime} {src dest : UsFrame} {forceKey : Bool}
  {env : M2mEnv}

theorem forgetful_cleanup (run : UsM2mEncoderRuntime) : (m2mEncoderCleanup run).Forgetful :=
  fun _ => rfl

theorem forgetful_ensure (h : run.Forgetful) (prepared : Bool) :
    (m2mEncoderEnsure enc run src prepared).Forgetful := by
  unfold m2mEncoderEnsure
  dsimp only
  split
  · exact h
  · split
    · exact fun _ => rfl
    · exact forgetful_cleanup _

theorem forgetful_compress (h : run.Forgetful) :
    (usM2mEncoderCompress enc run src dest forceKey env).run.Forgetful := by
  have hensure : (m2mEncoderEnsure enc run src env.prepared).Forgetful :=
    forgetful_ensure h env.prepared
  unfold usM2mEncoderCompress
  dsimp only
  split
  · exact hensure
  · rename_i hready
    split
    · exact forgetful_cleanup _
    · exact fun hnot => absurd hnot (by simpa using hready)

/-- **After a failure the encoder does not know whether its source was online.** -/
theorem lastOnline_of_compress_failed (h : run.Forgetful)
    (hret : (usM2mEncoderCompress enc run src dest forceKey env).ret ≠ 0) :
    (usM2mEncoderCompress enc run src dest forceKey env).run.lastOnline = none := by
  have hensure : (m2mEncoderEnsure enc run src env.prepared).Forgetful :=
    forgetful_ensure h env.prepared
  unfold usM2mEncoderCompress at hret ⊢
  dsimp only at hret ⊢
  split
  · rename_i hready
    exact hensure (by simpa using hready)
  · rename_i hready
    rw [if_neg hready] at hret
    split
    · rfl
    · rename_i output houtput
      rw [houtput] at hret
      exact absurd rfl hret

/-- An H.264 encoder forces a key frame that its caller wants, and one after a failure. -/
theorem forceKey_h264 (hformat : enc.outputFormat = v4l2PixFmtH264)
    (h : forceKey = true ∨ run.lastOnline = none) (now : ℚ) :
    (m2mEncoderForceKey enc run src forceKey now).2 = true := by
  have hjpeg : v4l2PixFmtH264 ≠ v4l2PixFmtJpeg := by decide
  have hmjpeg : v4l2PixFmtH264 ≠ v4l2PixFmtMjpeg := by decide
  unfold m2mEncoderForceKey
  rw [hformat, if_neg hjpeg, if_neg hmjpeg, if_pos rfl]
  rcases h with h | h
  · simp [h]
  · simp [h]

end

end TinyPilotKvm
