/-
# The host's audio (`janus/src/acap.c`, `_acap_thread` of `janus/src/plugin.c`)

Three threads pass sound along.  `_pcm_thread` reads 20 ms at a time from the sound card into a
ring; `_encoder_thread` makes an Opus packet of each and puts it, with its timestamp, into a second
ring; and the plugin's `_acap_thread` takes the packets out and has them sent.  A full ring drops
what was to go into it, and the encoder may fail.

**The encoder counts the time**: `pts` grows by the 960 frames of a packet whenever a packet is
made.  So the time of sound that is dropped before the encoder passes without a trace, while a
packet that is dropped behind it leaves a gap in the timestamps.

The sound card, the encoder and the resampler before it are the environment's: their results are
part of the actions.  `captured` and `encodes` are what they have been asked and have answered since
the card was opened; the code does not keep them.
-/
import TinyPilotKvm.Janus.Au
import TinyPilotKvm.Janus.Rtpa
import TinyPilotKvm.Libs.RingItems

namespace TinyPilotKvm

/-! ## 1. State -/

inductive AcapThread
  | pcm
  | enc
  | plugin
  deriving DecidableEq

/-- `us_au_encoded_s` with its timestamp. -/
structure AcapEncoded where
  data : List UInt8
  used : Nat
  pts : UInt64

/-- `us_au_encoded_init`. -/
def usAuEncodedInit : AcapEncoded := ⟨List.replicate usRtpPayloadSize 0, 0, 0⟩

/-- Where `_pcm_thread` is; a chunk are the bytes of 20 ms of sound. -/
inductive PcmPc
  /-- At `!atomic_load(&acap->stop)`. -/
  | top
  /-- Before `snd_pcm_readi`. -/
  | read
  /-- Before `us_ring_producer_acquire`. -/
  | acquire (chunk : List UInt8)
  /-- Before the `memcpy`. -/
  | copy (chunk : List UInt8) (ri : Nat)
  /-- Before `us_ring_producer_release`. -/
  | release (ri : Nat)
  /-- Before `atomic_store(&acap->stop, true)`. -/
  | leave
  | exited
  deriving DecidableEq

/-- Where `_encoder_thread` is.  `ri` is the chunk's slot and `ro` the packet's. -/
inductive EncPc
  /-- At `!atomic_load(&acap->stop)`. -/
  | top
  /-- Before `us_ring_consumer_acquire`. -/
  | acquire
  /-- Before `us_ring_producer_acquire`. -/
  | acquireOut (ri : Nat)
  /-- Before `us_ring_consumer_release`, when the second ring is full. -/
  | skip (ri : Nat)
  /-- Before `opus_encode`. -/
  | encode (ri ro : Nat)
  /-- Before `us_ring_consumer_release`; the encoder has answered. -/
  | releaseIn (ri ro : Nat) (chunk : List UInt8) (packet : Option (List UInt8))
  /-- Before `used` and `pts` are written. -/
  | write (ro : Nat) (chunk : List UInt8) (packet : Option (List UInt8))
  /-- Before `us_ring_producer_release`. -/
  | releaseOut (ro : Nat)
  /-- Before `atomic_store(&acap->stop, true)`. -/
  | leave
  | exited
  deriving DecidableEq

/-- Where `_acap_thread` is. -/
inductive GetPc
  /-- Without an open card. -/
  | idle
  /-- At the tests of the inner loop. -/
  | top
  /-- Before `atomic_load(&acap->stop)` of `us_acap_get_encoded`. -/
  | stopped
  /-- Before `us_ring_consumer_acquire`. -/
  | acquire
  /-- Before the tests of the packet and the `memcpy`. -/
  | read (ri : Nat)
  /-- Before `us_ring_consumer_release`. -/
  | release (ri : Nat) (got : Option (List UInt8 × UInt64))
  /-- Before `us_rtpa_wrap`. -/
  | wrap (data : List UInt8) (pts : UInt64)
  /-- Before `atomic_store(&acap->stop, true)` of `us_acap_destroy`. -/
  | destroy
  /-- At the joins. -/
  | join
  deriving DecidableEq

/-- `us_acap_s` with its two threads. -/
structure UsAcap where
  stop : Bool
  pts : UInt32
  pcmRing : RingItems AcapThread (List UInt8)
  encRing : RingItems AcapThread AcapEncoded
  pcm : PcmPc
  enc : EncPc
  captured : List (List UInt8)
  encodes : List (List UInt8 × Option (List UInt8))

/-- The plugin's audio; `sentBefore` datagrams had been sent when the card was opened. -/
structure AcapState where
  acap : Option UsAcap
  plugin : GetPc
  rtpa : UsRtpa
  sentBefore : Nat
  /-- `us_rtpa_wrap` has written outside its datagram. -/
  fault : Bool

/-! ## 2. Steps -/

/-- The items of each ring. -/
def acapRingSize : Nat := 8

theorem acapRingSize_pos : 0 < acapRingSize := by decide

/-- `US_AU_HZ_TO_FRAMES(US_RTP_OPUS_HZ)`. -/
def opusFrames : UInt32 := UInt32.ofNat (usAuHzToFrames usRtpOpusHz)

/-- `us_acap_init`, when the card, the resampler and the encoder are there. -/
def usAcapInit : Option UsAcap := do
  let pcmRing ← usRingInit acapRingSize acapRingSize_pos
  let encRing ← usRingInit acapRingSize acapRingSize_pos
  return { stop := false, pts := 0
           pcmRing := RingItems.init pcmRing [], encRing := RingItems.init encRing usAuEncodedInit
           pcm := .top, enc := .top, captured := [], encodes := [] }

namespace UsAcap

/-- `_pcm_thread`.  `read` is what `snd_pcm_readi` has read, `none` for an error or too little. -/
def pcmStep (a : UsAcap) (read : Option (List UInt8)) : Option UsAcap :=
  match a.pcm with
  | .top => some { a with pcm := if a.stop then .leave else .read }
  | .read =>
    match read with
    | none => some { a with pcm := .leave }
    | some chunk => some { a with pcm := .acquire chunk, captured := a.captured ++ [chunk] }
  | .acquire chunk =>
    match a.pcmRing.producerAcquire .pcm with
    | none => some { a with pcm := .top }
    | some (ri, ring) => some { a with pcmRing := ring, pcm := .copy chunk ri }
  | .copy chunk ri => some { a with pcmRing := a.pcmRing.fill ri chunk, pcm := .release ri }
  | .release ri => (a.pcmRing.producerRelease .pcm ri).map fun ring =>
      { a with pcmRing := ring, pcm := .top }
  | .leave => some { a with stop := true, pcm := .exited }
  | .exited => none

/-- What the encoder can answer: no packet, or one with at least one byte and no more than it has
room for. -/
def opusAnswers : Option (List UInt8) → Bool
  | none => true
  | some packet => decide (0 < packet.length ∧ packet.length ≤ usRtpPayloadSize)

/-- The end of a turn of `_encoder_thread`: the item gets its size and its timestamp. -/
def writeEncoded (a : UsAcap) (ro : Nat) (chunk : List UInt8) (packet : Option (List UInt8)) :
    UsAcap :=
  let out := a.encRing.items ro
  match packet with
  | some bytes =>
    { a with
      encRing := a.encRing.fill ro { out with used := bytes.length, pts := a.pts.toUInt64 }
      pts := a.pts + opusFrames
      encodes := a.encodes ++ [(chunk, some bytes)]
      enc := .releaseOut ro }
  | none =>
    { a with
      encRing := a.encRing.fill ro { out with used := 0 }
      encodes := a.encodes ++ [(chunk, none)]
      enc := .releaseOut ro }

/-- `_encoder_thread`.  `opus` is what `opus_encode` answers, `none` for a size that is not
positive. -/
def encStep (a : UsAcap) (timedOut : Bool) (opus : Option (List UInt8)) : Option UsAcap :=
  match a.enc with
  | .top => some { a with enc := if a.stop then .leave else .acquire }
  | .acquire =>
    if timedOut then some { a with enc := .top }
    else match a.pcmRing.consumerAcquire .enc with
      | none => some { a with enc := .top }
      | some (ri, ring) => some { a with pcmRing := ring, enc := .acquireOut ri }
  | .acquireOut ri =>
    match a.encRing.producerAcquire .enc with
    | none => some { a with enc := .skip ri }
    | some (ro, ring) => some { a with encRing := ring, enc := .encode ri ro }
  | .skip ri => (a.pcmRing.consumerRelease .enc ri).map fun ring =>
      { a with pcmRing := ring, enc := .top }
  | .encode ri ro =>
    if opusAnswers opus then
      let out := a.encRing.items ro
      let out := { out with data := writeBytes out.data (opus.getD []) }
      some { a with
        encRing := a.encRing.fill ro out
        enc := .releaseIn ri ro (a.pcmRing.items ri) opus }
    else none
  | .releaseIn ri ro chunk packet => (a.pcmRing.consumerRelease .enc ri).map fun ring =>
      { a with pcmRing := ring, enc := .write ro chunk packet }
  | .write ro chunk packet => some (a.writeEncoded ro chunk packet)
  | .releaseOut ro => (a.encRing.producerRelease .enc ro).map fun ring =>
      { a with encRing := ring, enc := .top }
  | .leave => some { a with stop := true, enc := .exited }
  | .exited => none

end UsAcap

/-- The tests of `us_acap_get_encoded`, with the room that `_acap_thread` gives it. -/
def AcapEncoded.fetched (buf : AcapEncoded) : Option (List UInt8 × UInt64) :=
  if buf.used = 0 ∨ usRtpPayloadSize < buf.used then none
  else some (buf.data.take buf.used, buf.pts)

/-- `_acap_thread` with an open card.  `go`: the flags and the state of the video chip let the inner
loop go on. -/
def acapGetStep (s : AcapState) (a : UsAcap) (go timedOut : Bool) : Option AcapState :=
  match s.plugin with
  | .idle => none
  | .top => some { s with plugin := if go then .stopped else .destroy }
  | .stopped => some { s with plugin := if a.stop then .destroy else .acquire }
  | .acquire =>
    if timedOut then some { s with plugin := .top }
    else match a.encRing.consumerAcquire .plugin with
      | none => some { s with plugin := .top }
      | some (ri, ring) =>
        some { s with acap := some { a with encRing := ring }, plugin := .read ri }
  | .read ri => some { s with plugin := .release ri (a.encRing.items ri).fetched }
  | .release ri got => (a.encRing.consumerRelease .plugin ri).map fun ring =>
      { s with
        acap := some { a with encRing := ring }
        plugin := got.elim .top fun (data, pts) => .wrap data pts }
  | .wrap data pts =>
    match usRtpaWrap s.rtpa data pts.toUInt32 with
    | none => some { s with fault := true, plugin := .top }
    | some rtpa => some { s with rtpa := rtpa, plugin := .top }
  | .destroy => some { s with acap := some { a with stop := true }, plugin := .join }
  | .join =>
    if a.pcm = .exited ∧ a.enc = .exited then some { s with acap := none, plugin := .idle }
    else none

inductive AcapAct
  /-- `us_acap_init` succeeds. -/
  | open
  | pcm (read : Option (List UInt8))
  | enc (timedOut : Bool) (opus : Option (List UInt8))
  | get (go timedOut : Bool)

/-- One step of one thread. -/
def acapStep (s : AcapState) : AcapAct → Option AcapState
  | .open =>
    match s.plugin with
    | .idle => usAcapInit.map fun a =>
        { s with acap := some a, plugin := .top, sentBefore := s.rtpa.sent.length }
    | _ => none
  | .pcm read => s.acap.bind fun a => (a.pcmStep read).map fun a => { s with acap := some a }
  | .enc timedOut opus => s.acap.bind fun a =>
      (a.encStep timedOut opus).map fun a => { s with acap := some a }
  | .get go timedOut => s.acap.bind fun a => acapGetStep s a go timedOut

/-- The plugin's audio from `_plugin_init` on. -/
def acapSystem (ssrc : UInt32) : System AcapState AcapAct where
  start s := s = { acap := none, plugin := .idle, rtpa := usRtpaInit ssrc, sentBefore := 0,
                   fault := false }
  step := acapStep

end TinyPilotKvm
