/-
# The microphone's packets (`janus/src/client.c`)

`us_janus_client_recv` puts the payload of an audio packet into the ring of its client's playback
thread, and expects the number behind it next.  Numbers have 16 bits and wrap around.  A packet that
comes late, at most 50 before the expected one, is dropped; but the two numbers are compared as
`int`s, and so a late packet from before the wrap has the larger number and is taken for one in
order.  It is queued, and the expected number goes back with it.

`aplaySystem` is one client with its ring: packets as they come, the two flags that the plugin sets,
and the playback thread that empties the ring.  `janus_rtp_payload` is a parameter.
-/
import TinyPilotKvm.Formats.Rfc3550
import TinyPilotKvm.Janus.Rtp
import TinyPilotKvm.Libs.Frame
import TinyPilotKvm.Libs.Ring

namespace TinyPilotKvm

/-! ## 1. The code -/

/-- `janus_plugin_rtp`, as far as it is read. -/
structure JanusPluginRtp where
  video : Bool
  buffer : List UInt8

/-- `sizeof(janus_rtp_header)`. -/
def janusRtpHeaderSize : Nat := 12

/-- `header->type`. -/
def JanusPluginRtp.payloadType (packet : JanusPluginRtp) : UInt8 := packet.buffer.getD 1 0 % 0x80

/-- `ntohs(header->seq_number)`. -/
def JanusPluginRtp.seq (packet : JanusPluginRtp) : UInt16 :=
  Rfc3550.be16 (packet.buffer.getD 2 0) (packet.buffer.getD 3 0)

/-- `US_RTP_OPUS_PAYLOAD`. -/
def usRtpOpusPayload : UInt8 := 111

/-- `us_au_encoded_s`; `data` has `US_RTP_PAYLOAD_SIZE` bytes. -/
structure UsAuEncoded where
  data : List UInt8
  used : Nat

/-- The two threads at the ring: the plugin's, which receives, and the client's, which plays. -/
inductive AplayThread
  | recv
  | aplay
  deriving DecidableEq

/-- `us_janus_client_s`, as far as it receives; `accepted`, which the code has not, says whether a
packet has been accepted. -/
structure AplayClient where
  transmit : Bool
  transmitAplay : Bool
  aplaySeqNext : UInt16
  ring : RingState AplayThread
  items : Nat → UsAuEncoded
  accepted : Bool

/-- What is written into an item of the ring. -/
def UsAuEncoded.fill (enc : UsAuEncoded) (data : List UInt8) : UsAuEncoded :=
  if data.length < usRtpPayloadSize then
    { data := writeBytes enc.data data, used := data.length }
  else { enc with used := 0 }

/-- The last part of `us_janus_client_recv`: an item is acquired, filled and released. -/
def queuePayload (client : AplayClient) (data : List UInt8) : AplayClient :=
  match usRingProducerAcquire client.ring.ring with
  | none => client
  | some (ri, ring) =>
    let items := Function.update client.items ri ((client.items ri).fill data)
    match usRingProducerRelease ring ri with
    | none => { client with items := items, ring := { client.ring with aborted := true } }
    | some ring =>
      { client with
        items := items
        ring := { client.ring with ring := ring, released := client.ring.released ++ [ri] } }

/-- The test on the sequence number, of `int`s. -/
def inSequence (next seq : UInt16) : Bool :=
  decide (next.toNat ≤ seq.toNat) || decide ((next.toNat : Int) - seq.toNat > 50)

/-- The first checks of `us_janus_client_recv`: the packet is for this ring. -/
def isAudio (client : AplayClient) (packet : JanusPluginRtp) : Bool :=
  !(packet.video || decide (packet.buffer.length < janusRtpHeaderSize) || !client.transmit
    || !client.transmitAplay) && packet.payloadType == usRtpOpusPayload

/-- `us_janus_client_recv`; `rtpPayload` is `janus_rtp_payload`. -/
def usJanusClientRecv (rtpPayload : List UInt8 → Option (List UInt8)) (client : AplayClient)
    (packet : JanusPluginRtp) : AplayClient :=
  if isAudio client packet && inSequence client.aplaySeqNext packet.seq then
    let client := { client with aplaySeqNext := packet.seq + 1, accepted := true }
    match rtpPayload packet.buffer with
    | none => client
    | some data => if data.length = 0 then client else queuePayload client data
  else client

/-! ## 2. A client and its packets -/

/-- What happens to a client: a packet comes, the plugin sets its flags, and its playback thread
takes an item and gives it back. -/
inductive AplayAct
  | recv (packet : JanusPluginRtp)
  | flags (transmit transmitAplay : Bool)
  | take
  | giveBack (index : Nat)

def aplayStep (rtpPayload : List UInt8 → Option (List UInt8)) (client : AplayClient) :
    AplayAct → Option AplayClient
  | .recv packet => some (usJanusClientRecv rtpPayload client packet)
  | .flags transmit transmitAplay =>
    some { client with transmit := transmit, transmitAplay := transmitAplay }
  | .take => (ringStep client.ring (.consumerAcquire .aplay false)).map fun ring =>
      { client with ring := ring }
  | .giveBack index => (ringStep client.ring (.consumerRelease .aplay index)).map fun ring =>
      { client with ring := ring }

/-- `us_janus_client_init`. -/
def usJanusClientStart (ring : UsRing) : AplayClient where
  transmit := false
  transmitAplay := false
  aplaySeqNext := 0
  ring := RingState.fresh ring
  items _ := ⟨List.replicate usRtpPayloadSize 0, 0⟩
  accepted := false

/-- `aplay_enc_ring` has 64 items. -/
def aplayEncCapacity : Nat := 64

def aplaySystem (rtpPayload : List UInt8 → Option (List UInt8)) :
    System AplayClient AplayAct where
  start client := ∃ ring, usRingInit aplayEncCapacity (by decide) = some ring ∧
    client = usJanusClientStart ring
  step := aplayStep rtpPayload

/-! ## 3. The ring -/

section

variable {client client' : AplayClient} {data : List UInt8}

/-- The ring has an item for the producer. -/
def FreeSlot (client : AplayClient) : Prop := client.ring.ring.producer.toList ≠ []

instance (client : AplayClient) : Decidable (FreeSlot client) :=
  inferInstanceAs (Decidable (_ ≠ _))

/-- The payload is in an item, and the item has been put into the ring behind the others. -/
def Queued (client client' : AplayClient) (data : List UInt8) : Prop :=
  ∃ ri, client'.ring.released = client.ring.released ++ [ri] ∧
    client'.ring.ring.consumer.toList = client.ring.ring.consumer.toList ++ [ri] ∧
    (client'.items ri).used = data.length ∧ (client'.items ri).data.take data.length = data

/-- Nothing has been put into the ring, and no item has changed. -/
def NotQueued (client client' : AplayClient) : Prop :=
  client'.ring = client.ring ∧ client'.items = client.items

theorem Queued.not_notQueued (h : Queued client client' data) : ¬NotQueued client client' := by
  rintro ⟨hring, -⟩
  obtain ⟨ri, hreleased, -⟩ := h
  rw [hring] at hreleased
  have hlength := congrArg List.length hreleased
  rw [List.length_append, List.length_singleton] at hlength
  omega

theorem queuePayload_of_full (h : ¬FreeSlot client) (data : List UInt8) :
    queuePayload client data = client := by
  have hnone : usRingProducerAcquire client.ring.ring = none := by
    rw [usRingProducerAcquire, ringAcquire, Queue.get_eq_none_iff.mpr (not_not.mp h)]
    rfl
  rw [queuePayload, hnone]

/-- An item that is free is acquired, and its release finds room: the two operations are two steps
of the ring. -/
theorem queuePayload_of_free (hI : RingInv aplayEncCapacity client.ring) (h : FreeSlot client)
    (data : List UInt8) :
    ∃ ri ring, queuePayload client data =
        { client with
          items := Function.update client.items ri ((client.items ri).fill data)
          ring := { client.ring with ring := ring, released := client.ring.released ++ [ri] } } ∧
      ring.consumer.toList = client.ring.ring.consumer.toList ++ [ri] ∧
      RingInv aplayEncCapacity
        { client.ring with ring := ring, released := client.ring.released ++ [ri] } := by
  cases hget : client.ring.ring.producer.get with
  | none => exact absurd (Queue.get_eq_none_iff.mp hget) h
  | some r =>
    obtain ⟨place, q⟩ := r
    obtain ⟨ri, ring, hacquire⟩ : ∃ ri ring, usRingProducerAcquire client.ring.ring
        = some (ri, ring) := ⟨_, _, by rw [usRingProducerAcquire, ringAcquire, hget]; rfl⟩
    have hfirst : ringStep client.ring (.producerAcquire .recv false)
        = some { client.ring with
            ring := ring, producing := (.recv, ri) :: client.ring.producing } := by
      simp only [ringStep, hacquire, Option.map_some]
    have hheld := mem_producing_of_acquire hacquire hfirst
    have hI1 := hI.producerAcquire hfirst
    obtain ⟨-, hconsumer⟩ := producerAcquire_frame hfirst
    obtain ⟨q', hput⟩ := hI1.producerRelease_some hheld
    have hsecond : ringStep { client.ring with
          ring := ring, producing := (.recv, ri) :: client.ring.producing }
        (.producerRelease .recv ri)
        = some { client.ring with
            ring := { ring with consumer := q' }, released := client.ring.released ++ [ri] } := by
      simp only [ringStep, if_pos hheld, usRingProducerRelease, ringRelease, hput, Option.map_some,
        List.erase_cons_head]
    obtain ⟨-, -, hlist⟩ := hI1.producerRelease_lists hheld hsecond
    refine ⟨ri, { ring with consumer := q' }, ?_, ?_, hI1.producerRelease hsecond⟩
    · simp only [queuePayload, hacquire, usRingProducerRelease, ringRelease, hput, Option.map_some]
    · rw [hlist]
      exact congrArg (fun q => q.toList ++ [ri]) hconsumer

theorem fill_fits (enc : UsAuEncoded) (h : data.length < usRtpPayloadSize) :
    (enc.fill data).used = data.length ∧ (enc.fill data).data.take data.length = data := by
  rw [UsAuEncoded.fill, if_pos h]
  exact ⟨rfl, take_writeBytes _ _⟩

theorem queued_of_free (hI : RingInv aplayEncCapacity client.ring) (h : FreeSlot client)
    (hfits : data.length < usRtpPayloadSize) : Queued client (queuePayload client data) data := by
  obtain ⟨ri, ring, heq, hconsumer, -⟩ := queuePayload_of_free hI h data
  rw [heq]
  refine ⟨ri, rfl, hconsumer, ?_⟩
  dsimp only
  rw [Function.update_self]
  exact fill_fits _ hfits

/-- **The ring's invariant** survives whatever happens to the client. -/
theorem ringInv_queuePayload (hI : RingInv aplayEncCapacity client.ring) (data : List UInt8) :
    RingInv aplayEncCapacity (queuePayload client data).ring := by
  by_cases h : FreeSlot client
  · obtain ⟨ri, ring, heq, -, hI'⟩ := queuePayload_of_free hI h data
    rw [heq]
    exact hI'
  · rw [queuePayload_of_full h]
    exact hI

variable {rtpPayload : List UInt8 → Option (List UInt8)}

theorem ringInv_recv (hI : RingInv aplayEncCapacity client.ring) (packet : JanusPluginRtp) :
    RingInv aplayEncCapacity (usJanusClientRecv rtpPayload client packet).ring := by
  unfold usJanusClientRecv
  split
  · dsimp only
    split
    · exact hI
    · split
      · exact hI
      · exact ringInv_queuePayload
          (show RingInv aplayEncCapacity { client with
            aplaySeqNext := packet.seq + 1, accepted := true }.ring from hI) _
  · exact hI

theorem aplayRing_of_reach (hr : (aplaySystem rtpPayload).Reach client) :
    RingInv aplayEncCapacity client.ring := by
  refine System.ReachVia.inv (I := fun c => RingInv aplayEncCapacity c.ring) ?_ ?_ hr
  · rintro _ ⟨ring, hring, rfl⟩
    exact ringInv_fresh _ hring
  · intro c c' act hI _ hst
    cases act with
    | recv packet => exact Option.some.inj hst ▸ ringInv_recv hI packet
    | flags transmit transmitAplay => exact Option.some.inj hst ▸ hI
    | take =>
      obtain ⟨ring, hring, rfl⟩ := Option.map_eq_some_iff.mp hst
      exact hI.consumerAcquire hring
    | giveBack index =>
      obtain ⟨ring, hring, rfl⟩ := Option.map_eq_some_iff.mp hst
      exact hI.consumerRelease hring

end

/-! ## 4. Late packets -/

/-- The number is 1 to 50 before the expected one, modulo 2 ^ 16. -/
def Late (next seq : UInt16) : Prop := 1 ≤ (next - seq).toNat ∧ (next - seq).toNat ≤ 50

instance (next seq : UInt16) : Decidable (Late next seq) := inferInstanceAs (Decidable (_ ∧ _))

theorem toNat_sub_seq (next seq : UInt16) :
    (next - seq).toNat = (65536 - seq.toNat + next.toNat) % 65536 := UInt16.toNat_sub next seq

/-- A packet that is not late passes the test. -/
theorem inSequence_of_not_late {next seq : UInt16} (h : ¬Late next seq) :
    inSequence next seq = true := by
  have hnext := next.toNat_lt
  have hseq := seq.toNat_lt
  rw [Late, toNat_sub_seq] at h
  rw [inSequence, Bool.or_eq_true, decide_eq_true_iff, decide_eq_true_iff]
  omega

/-- A late packet passes it just if its number is the larger one, from before the wrap. -/
theorem inSequence_of_late {next seq : UInt16} (h : Late next seq) :
    inSequence next seq = decide (next.toNat < seq.toNat) := by
  have hnext := next.toNat_lt
  have hseq := seq.toNat_lt
  rw [Late, toNat_sub_seq] at h
  rw [inSequence, Bool.eq_iff_iff, Bool.or_eq_true, decide_eq_true_iff, decide_eq_true_iff,
    decide_eq_true_iff]
  omega

section

variable (rtpPayload : List UInt8 → Option (List UInt8))

/-- An audio packet for this client, with a payload that fits into an item. -/
structure Incoming (client : AplayClient) (packet : JanusPluginRtp) (data : List UInt8) :
    Prop where
  audio : isAudio client packet = true
  payload : rtpPayload packet.buffer = some data
  nonempty : data ≠ []
  fits : data.length < usRtpPayloadSize

/-- Once a packet has been accepted, late ones are not queued and all others are, if there is
room. -/
def LateDropped (client : AplayClient) : AplayAct → Prop
  | .recv packet => client.accepted = true → ∀ data, Incoming rtpPayload client packet data →
      (Late client.aplaySeqNext packet.seq →
        NotQueued client (usJanusClientRecv rtpPayload client packet)) ∧
      (¬Late client.aplaySeqNext packet.seq → FreeSlot client →
        Queued client (usJanusClientRecv rtpPayload client packet) data)
  | .flags _ _ => True
  | .take => True
  | .giveBack _ => True

/-- No late packet comes with a number above the expected one while there is room. -/
def NoneOverWrap (client : AplayClient) : AplayAct → Prop
  | .recv packet => client.accepted = true → ∀ data, Incoming rtpPayload client packet data →
      FreeSlot client → Late client.aplaySeqNext packet.seq →
        packet.seq.toNat < client.aplaySeqNext.toNat
  | .flags _ _ => True
  | .take => True
  | .giveBack _ => True

variable {rtpPayload} {client : AplayClient} {packet : JanusPluginRtp} {data : List UInt8}

theorem recv_of_dropped (h : inSequence client.aplaySeqNext packet.seq = false) :
    usJanusClientRecv rtpPayload client packet = client := by
  rw [usJanusClientRecv, h, Bool.and_false]
  rfl

/-- What comes of a packet that passes the test. -/
theorem Incoming.recv_of_accepted (h : Incoming rtpPayload client packet data)
    (hseq : inSequence client.aplaySeqNext packet.seq = true) :
    usJanusClientRecv rtpPayload client packet
      = queuePayload { client with aplaySeqNext := packet.seq + 1, accepted := true } data := by
  have hlength : data.length ≠ 0 := fun h0 => h.nonempty (List.length_eq_zero_iff.mp h0)
  rw [usJanusClientRecv, h.audio, hseq, Bool.and_true, if_pos rfl]
  simp only [h.payload, if_neg hlength]

theorem Incoming.queued (h : Incoming rtpPayload client packet data)
    (hI : RingInv aplayEncCapacity client.ring)
    (hseq : inSequence client.aplaySeqNext packet.seq = true) (hfree : FreeSlot client) :
    Queued client (usJanusClientRecv rtpPayload client packet) data := by
  have hfree' : FreeSlot { client with aplaySeqNext := packet.seq + 1, accepted := true } := hfree
  rw [h.recv_of_accepted hseq]
  exact queued_of_free hI hfree' h.fits

theorem Incoming.notQueued_of_full (h : Incoming rtpPayload client packet data)
    (hfull : ¬FreeSlot client) : NotQueued client (usJanusClientRecv rtpPayload client packet) := by
  cases hseq : inSequence client.aplaySeqNext packet.seq with
  | false =>
    rw [recv_of_dropped hseq]
    exact ⟨rfl, rfl⟩
  | true =>
    have hsame := queuePayload_of_full (show ¬FreeSlot { client with
      aplaySeqNext := packet.seq + 1, accepted := true } from hfull) data
    rw [h.recv_of_accepted hseq, hsame]
    exact ⟨rfl, rfl⟩

/-- **One packet.** -/
theorem lateDropped_iff (hI : RingInv aplayEncCapacity client.ring) (act : AplayAct) :
    LateDropped rtpPayload client act ↔ NoneOverWrap rtpPayload client act := by
  cases act with
  | flags transmit transmitAplay => exact Iff.rfl
  | take => exact Iff.rfl
  | giveBack index => exact Iff.rfl
  | recv packet =>
    constructor
    · intro h haccepted data hin hfree hlate
      by_contra hnot
      have hnext := client.aplaySeqNext.toNat_lt
      have hne : client.aplaySeqNext.toNat ≠ packet.seq.toNat := by
        intro heq
        rw [Late, toNat_sub_seq] at hlate
        omega
      have hseq : inSequence client.aplaySeqNext packet.seq = true := by
        rw [inSequence_of_late hlate, decide_eq_true_iff]
        omega
      exact (hin.queued hI hseq hfree).not_notQueued ((h haccepted data hin).1 hlate)
    · intro h haccepted data hin
      refine ⟨fun hlate => ?_, fun hnot hfree =>
        hin.queued hI (inSequence_of_not_late hnot) hfree⟩
      by_cases hfree : FreeSlot client
      · have hlt := h haccepted data hin hfree hlate
        rw [recv_of_dropped]
        · exact ⟨rfl, rfl⟩
        · rw [inSequence_of_late hlate, decide_eq_false_iff_not]
          omega
      · exact hin.notQueued_of_full hfree

end

/-- **Late packets.**  In a run from the start late packets are never queued, and all others are
whenever there is room, exactly if none comes late over the wrap while there is room. -/
theorem late_packets_dropped_iff (rtpPayload : List UInt8 → Option (List UInt8))
    {client : AplayClient} (hs : (aplaySystem rtpPayload).start client) (acts : List AplayAct) :
    (aplaySystem rtpPayload).Along (fun _ => True) (LateDropped rtpPayload) client acts ↔
      (aplaySystem rtpPayload).Along (fun _ => True) (NoneOverWrap rtpPayload) client acts :=
  System.along_congr (fun _ _ => ⟨trivial, trivial⟩)
    (fun _ act hr => lateDropped_iff (aplayRing_of_reach hr) act) acts (.start hs)

/-- The client before any packet. -/
def aplayClient : AplayClient :=
  usJanusClientStart ((usRingInit aplayEncCapacity (by decide)).get (by decide))

/-- A packet of one byte of Opus, with this number. -/
def opusPacket (high low : UInt8) : JanusPluginRtp where
  video := false
  buffer := [0x80, 111, high, low, 0, 0, 0, 0, 0, 0, 0, 0, 7]

/-- The payload behind a header without extensions. -/
def behindHeader (buffer : List UInt8) : Option (List UInt8) := some (buffer.drop 12)

theorem aplayClient_start (rtpPayload : List UInt8 → Option (List UInt8)) :
    (aplaySystem rtpPayload).start aplayClient :=
  ⟨(usRingInit aplayEncCapacity (by decide)).get (by decide), (Option.some_get _).symm, rfl⟩

/-- Packet 1 and then packet 0, which is late and dropped. -/
theorem late_packets_dropped_iff_two :
    (aplaySystem behindHeader).start aplayClient ∧
      (aplaySystem behindHeader).Along (fun _ => True) (LateDropped behindHeader) aplayClient
        [.flags true true, .recv (opusPacket 0 1), .recv (opusPacket 0 0)] := by
  refine ⟨aplayClient_start _, ?_⟩
  refine (late_packets_dropped_iff behindHeader (aplayClient_start _) _).mpr ?_
  refine ⟨trivial, trivial, fun _ hflags => ?_⟩
  obtain rfl := Option.some.inj hflags
  refine ⟨trivial, fun haccepted => absurd haccepted (by decide), fun _ hrecv => ?_⟩
  obtain rfl := Option.some.inj hrecv
  refine ⟨trivial, fun _ _ _ _ _ => by decide, fun _ _ => trivial⟩

/-- Number 1 is accepted, so 2 is expected; then 65535 comes, which is late, and is queued. -/
def lateOverWrap : List AplayAct :=
  [.flags true true, .recv (opusPacket 0 1), .recv (opusPacket 0xFF 0xFF)]

/-- Packet 65535 comes behind packet 1, and is queued. -/
theorem late_packet_queued :
    (aplaySystem behindHeader).start aplayClient ∧
      ¬(aplaySystem behindHeader).Along (fun _ => True) (LateDropped behindHeader) aplayClient
        lateOverWrap := by
  refine ⟨aplayClient_start _, fun h => ?_⟩
  obtain ⟨-, -, h⟩ := h
  obtain ⟨-, -, h⟩ := h _ rfl
  obtain ⟨-, h, -⟩ := h _ rfl
  have hin : Incoming behindHeader (usJanusClientRecv behindHeader
      { aplayClient with transmit := true, transmitAplay := true } (opusPacket 0 1))
      (opusPacket 0xFF 0xFF) [7] := ⟨by decide, rfl, by decide, by decide⟩
  have hsame := (h (by decide) _ hin).1 (by decide)
  exact absurd (congrArg (fun ring => ring.released.length) hsame.1) (by decide)

end TinyPilotKvm
