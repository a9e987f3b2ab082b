/-
# A ring with its items is a channel

`RingState` says who holds which slot of a ring.  Here the slots have contents as well: a producer
fills the slot that it has acquired before it releases it, and a consumer reads the slot that it
has acquired.

What the threads make of a ring is a first-in first-out channel: `queued` are the messages that
have been released by a producer and not yet acquired by a consumer.  One lemma for each operation
says what it does to them, and these lemmas are all that the users of a ring need.  They rest on
`RingInv.exclusive`: whoever fills a slot has it alone, so no message changes on its way.

`channelSystem` is a ring in the hands of any number of threads, and `ring_is_channel` what they
see of it.
-/
import TinyPilotKvm.Libs.Ring

namespace TinyPilotKvm

/-! ## 1. The operations -/

/-- A ring, its holders, and what its items hold. -/
structure RingItems (τ β : Type) where
  ring : RingState τ
  items : Nat → β

namespace RingItems

variable {τ β : Type} [DecidableEq τ] {n : Nat} {s s' : RingItems τ β} {t : τ} {i : Nat}

omit [DecidableEq τ] in
/-- The messages on their way, the oldest first. -/
def queued (s : RingItems τ β) : List β := s.ring.ring.consumer.toList.map s.items

/-- A fresh ring; `item` is what the items are made as. -/
def init (ring : UsRing) (item : β) : RingItems τ β := ⟨RingState.fresh ring, fun _ => item⟩

/-- `us_ring_producer_acquire` of the thread `t`; `none` is the -1 of a ring without a free slot. -/
def producerAcquire (s : RingItems τ β) (t : τ) : Option (Nat × RingItems τ β) :=
  (usRingProducerAcquire s.ring.ring).map fun (i, r) =>
    (i, { s with ring := { s.ring with ring := r, producing := (t, i) :: s.ring.producing } })

/-- A write to the item of a slot. -/
def fill (s : RingItems τ β) (i : Nat) (message : β) : RingItems τ β :=
  { s with items := Function.update s.items i message }

/-- `us_ring_producer_release` of a slot that `t` holds. -/
def producerRelease (s : RingItems τ β) (t : τ) (i : Nat) : Option (RingItems τ β) :=
  (ringStep s.ring (.producerRelease t i)).map fun ring => { s with ring := ring }

/-- `us_ring_consumer_acquire` of the thread `t`; `none` is the -1 of an empty ring. -/
def consumerAcquire (s : RingItems τ β) (t : τ) : Option (Nat × RingItems τ β) :=
  (usRingConsumerAcquire s.ring.ring).map fun (i, r) =>
    (i, { s with ring := { s.ring with
      ring := r
      consuming := (t, i) :: s.ring.consuming
      handed := s.ring.handed ++ [i] } })

/-- `us_ring_consumer_release` of a slot that `t` holds. -/
def consumerRelease (s : RingItems τ β) (t : τ) (i : Nat) : Option (RingItems τ β) :=
  (ringStep s.ring (.consumerRelease t i)).map fun ring => { s with ring := ring }

/-! ## 2. What they do -/

/-- What holds of a ring of `n` items, as far as its slots go. -/
abbrev Inv (n : Nat) (s : RingItems τ β) : Prop := RingInv n s.ring

omit [DecidableEq τ] in
theorem inv_init (h : 0 < n) {ring : UsRing} (hring : usRingInit n h = some ring) (item : β) :
    (init ring item : RingItems τ β).Inv n := ringInv_fresh h hring

omit [DecidableEq τ] in
theorem queued_init (h : 0 < n) {ring : UsRing} (hring : usRingInit n h = some ring) (item : β) :
    (init ring item : RingItems τ β).queued = [] := by
  obtain ⟨r, hr, -, -, -, hconsumer⟩ := usRingInit_spec h
  obtain rfl : r = ring := Option.some.inj (hr.symm.trans hring)
  simp [queued, init, RingState.fresh, hconsumer]

/-- The acquire is the step of the ring, and the slot is the one it gives out. -/
theorem ringStep_of_producerAcquire (hs : s.producerAcquire t = some (i, s')) :
    ringStep s.ring (.producerAcquire t false) = some s'.ring ∧ s'.items = s.items ∧
      s'.ring.producing = (t, i) :: s.ring.producing := by
  obtain ⟨⟨j, r⟩, hacq, he⟩ := Option.map_eq_some_iff.mp hs
  obtain ⟨rfl, rfl⟩ := Prod.mk.inj he
  refine ⟨?_, rfl, rfl⟩
  simp only [ringStep, hacq, Option.map_some]

theorem ringStep_of_consumerAcquire (hs : s.consumerAcquire t = some (i, s')) :
    ringStep s.ring (.consumerAcquire t false) = some s'.ring ∧ s'.items = s.items ∧
      s'.ring.consuming = (t, i) :: s.ring.consuming ∧ s'.ring.producing = s.ring.producing := by
  obtain ⟨⟨j, r⟩, hacq, he⟩ := Option.map_eq_some_iff.mp hs
  obtain ⟨rfl, rfl⟩ := Prod.mk.inj he
  refine ⟨?_, rfl, rfl, rfl⟩
  simp only [ringStep, hacq, Option.map_some]

namespace Inv

/-- **A producer acquires**: a slot is its own, and nothing else changes. -/
theorem producerAcquire (h : s.Inv n) (hs : s.producerAcquire t = some (i, s')) :
    s'.Inv n ∧ s'.queued = s.queued ∧ s'.items = s.items ∧
      s'.ring.producing = (t, i) :: s.ring.producing ∧ s'.ring.consuming = s.ring.consuming := by
  obtain ⟨hstep, hitems, hproducing⟩ := ringStep_of_producerAcquire hs
  obtain ⟨hconsuming, hconsumer⟩ := producerAcquire_frame hstep
  refine ⟨h.step hstep, ?_, hitems, hproducing, hconsuming⟩
  rw [queued, queued, hconsumer, hitems]

omit [DecidableEq τ] in
/-- **A producer fills its slot**: no message on its way and none that is read changes. -/
theorem fill (h : s.Inv n) (hi : (t, i) ∈ s.ring.producing) (message : β) :
    (s.fill i message).queued = s.queued ∧ (s.fill i message).items i = message ∧
      ∀ u j, (u, j) ∈ s.ring.consuming → (s.fill i message).items j = s.items j := by
  obtain ⟨hqueue, hconsuming⟩ := h.exclusive hi
  refine ⟨List.map_congr_left fun j hj => ?_, Function.update_self .., fun u j hj => ?_⟩
  · have hne : j ≠ i := fun hji => hqueue (hji ▸ hj)
    exact Function.update_of_ne hne ..
  · have hne : j ≠ i := fun hji => hconsuming u (hji ▸ hj)
    exact Function.update_of_ne hne ..

/-- **A producer releases**: its message is the last of the queue. -/
theorem producerRelease (h : s.Inv n) (hi : (t, i) ∈ s.ring.producing) :
    ∃ s', s.producerRelease t i = some s' ∧ s'.Inv n ∧ s'.queued = s.queued ++ [s.items i] ∧
      s'.items = s.items ∧ s'.ring.producing = s.ring.producing.erase (t, i) ∧
      s'.ring.consuming = s.ring.consuming := by
  obtain ⟨q, hq⟩ := h.producerRelease_some hi
  let ring : RingState τ := { s.ring with
    ring := { s.ring.ring with consumer := q }
    producing := s.ring.producing.erase (t, i)
    released := s.ring.released ++ [i] }
  have hstep : ringStep s.ring (.producerRelease t i) = some ring := by
    simp only [ringStep, if_pos hi, usRingProducerRelease, ringRelease, hq, Option.map_some, ring]
  refine ⟨{ s with ring := ring }, ?_, h.step hstep, ?_, rfl, rfl, rfl⟩
  · rw [RingItems.producerRelease, hstep, Option.map_some]
  · simp only [queued, ring, Queue.toList_put hq, List.map_append, List.map_cons, List.map_nil]

/-- **A consumer acquires**: it is handed the first message of the queue. -/
theorem consumerAcquire (h : s.Inv n) (hs : s.consumerAcquire t = some (i, s')) :
    s'.Inv n ∧ s.queued = s.items i :: s'.queued ∧ s'.items = s.items ∧
      s'.ring.producing = s.ring.producing ∧ s'.ring.consuming = (t, i) :: s.ring.consuming := by
  obtain ⟨hstep, hitems, hconsuming, hproducing⟩ := ringStep_of_consumerAcquire hs
  obtain ⟨⟨j, r⟩, hacq, he⟩ := Option.map_eq_some_iff.mp hs
  obtain ⟨rfl, -⟩ := Prod.mk.inj he
  obtain ⟨-, -, hqueue⟩ := RingInv.consumerAcquire_lists h hacq hstep
  refine ⟨h.step hstep, ?_, hitems, hproducing, hconsuming⟩
  rw [queued, hqueue, queued, hitems, List.map_cons]

/-- A consumer releases its slot. -/
theorem consumerRelease (h : s.Inv n) (hi : (t, i) ∈ s.ring.consuming) :
    ∃ s', s.consumerRelease t i = some s' ∧ s'.Inv n ∧ s'.queued = s.queued ∧
      s'.items = s.items ∧ s'.ring.producing = s.ring.producing ∧
      s'.ring.consuming = s.ring.consuming.erase (t, i) := by
  obtain ⟨q, hq⟩ := h.consumerRelease_some hi
  let ring : RingState τ := { s.ring with
    ring := { s.ring.ring with producer := q }
    consuming := s.ring.consuming.erase (t, i) }
  have hstep : ringStep s.ring (.consumerRelease t i) = some ring := by
    simp only [ringStep, if_pos hi, usRingConsumerRelease, ringRelease, hq, Option.map_some, ring]
  refine ⟨{ s with ring := ring }, ?_, h.step hstep, rfl, rfl, rfl, rfl⟩
  rw [RingItems.consumerRelease, hstep, Option.map_some]

end Inv

omit [DecidableEq τ] in
/-- A consumer is handed something exactly when there is something. -/
theorem consumerAcquire_eq_none_iff : s.consumerAcquire t = none ↔ s.queued = [] := by
  simp only [consumerAcquire, usRingConsumerAcquire, ringAcquire, Option.map_eq_none_iff,
    Queue.get_eq_none_iff, queued, List.map_eq_nil_iff]

omit [DecidableEq τ] in
/-- The slots in use, and those that are not. -/
theorem Inv.length_slots (h : s.Inv n) : s.ring.ring.producer.toList.length + s.queued.length
    + s.ring.producing.length + s.ring.consuming.length = n := by
  have hlength := h.slots_perm.length_eq
  simp only [RingState.slots, RingState.heldByProducers, RingState.heldByConsumers,
    List.length_append, List.length_map, List.length_range] at hlength
  simpa only [queued, List.length_map] using hlength

omit [DecidableEq τ] in
/-- A producer is refused exactly when all slots are in use. -/
theorem Inv.producerAcquire_eq_none_iff (h : s.Inv n) : s.producerAcquire t = none ↔
    s.queued.length + s.ring.producing.length + s.ring.consuming.length = n := by
  have hlength := h.length_slots
  simp only [RingItems.producerAcquire, usRingProducerAcquire, ringAcquire, Option.map_eq_none_iff,
    Queue.get_eq_none_iff, ← List.length_eq_zero_iff]
  omega

end RingItems

/-! ## 3. Any number of threads -/

/-- What a thread that reads a slot has been handed. -/
structure Reading (τ β : Type) where
  thread : τ
  slot : Nat
  message : β

/-- A ring, and what has gone through it: the messages as they were released, and as they were
handed out. -/
structure ChannelState (τ β : Type) where
  ring : RingItems τ β
  sent : List β
  received : List β
  reading : List (Reading τ β)

inductive ChannelAct (τ β : Type)
  | producerAcquire (t : τ)
  | fill (t : τ) (i : Nat) (message : β)
  | producerRelease (t : τ) (i : Nat)
  | consumerAcquire (t : τ)
  | consumerRelease (t : τ) (i : Nat)

section Channel

variable {τ β : Type} [DecidableEq τ]

/-- One operation of one thread.  A thread fills and releases only what it holds. -/
def channelStep (s : ChannelState τ β) : ChannelAct τ β → Option (ChannelState τ β)
  | .producerAcquire t => (s.ring.producerAcquire t).map fun (_, ring) => { s with ring := ring }
  | .fill t i message =>
    if s.ring.ring.producing.contains (t, i) then
      some { s with ring := s.ring.fill i message }
    else none
  | .producerRelease t i => (s.ring.producerRelease t i).map fun ring =>
      { s with ring := ring, sent := s.sent ++ [s.ring.items i] }
  | .consumerAcquire t => (s.ring.consumerAcquire t).map fun (i, ring) =>
      { s with
        ring := ring
        received := s.received ++ [s.ring.items i]
        reading := ⟨t, i, s.ring.items i⟩ :: s.reading }
  | .consumerRelease t i => (s.ring.consumerRelease t i).map fun ring =>
      { s with
        ring := ring
        reading := s.reading.eraseP fun r => r.thread = t ∧ r.slot = i }

def channelSystem (τ : Type) [DecidableEq τ] (n : Nat) (h : 0 < n) (item : β) :
    System (ChannelState τ β) (ChannelAct τ β) where
  start s := ∃ ring, usRingInit n h = some ring ∧
    s = { ring := RingItems.init ring item, sent := [], received := [], reading := [] }
  step := channelStep

/-- What holds of a channel whatever its threads do. -/
structure ChannelInv (n : Nat) (s : ChannelState τ β) : Prop where
  ring : s.ring.Inv n
  /-- Nothing is lost, doubled, changed or overtaken. -/
  sent_eq : s.sent = s.received ++ s.ring.queued
  reading_eq : s.reading.map (fun r => (r.thread, r.slot)) = s.ring.ring.consuming
  /-- A slot holds its message for as long as it is read. -/
  message_eq : ∀ r ∈ s.reading, s.ring.items r.slot = r.message

namespace ChannelInv

variable {n : Nat} {s s' : ChannelState τ β}

omit [DecidableEq τ] in
/-- What a producer does that leaves the messages alone. -/
theorem of_frame (h : ChannelInv n s) {ring : RingItems τ β} (hring : ring.Inv n)
    (hqueued : ring.queued = s.ring.queued)
    (hconsuming : ring.ring.consuming = s.ring.ring.consuming)
    (hitems : ∀ u j, (u, j) ∈ s.ring.ring.consuming → ring.items j = s.ring.items j) :
    ChannelInv n { s with ring := ring } := by
  refine ⟨hring, ?_, h.reading_eq.trans hconsuming.symm, fun r hr => ?_⟩
  · rw [hqueued]
    exact h.sent_eq
  · have hheld : (r.thread, r.slot) ∈ s.ring.ring.consuming := by
      rw [← h.reading_eq]
      exact List.mem_map_of_mem hr
    exact (hitems r.thread r.slot hheld).trans (h.message_eq r hr)

omit [DecidableEq τ] in
/-- Taking the first of the readings of a slot takes the first of its holders. -/
theorem map_eraseP_reading [DecidableEq τ] (t : τ) (i : Nat) (reading : List (Reading τ β)) :
    (reading.eraseP fun r => r.thread = t ∧ r.slot = i).map (fun r => (r.thread, r.slot))
      = (reading.map fun r => (r.thread, r.slot)).erase (t, i) := by
  induction reading with
  | nil => rfl
  | cons r reading ih =>
    by_cases hr : r.thread = t ∧ r.slot = i
    · obtain ⟨rfl, rfl⟩ := hr
      simp
    · have hne : (r.thread, r.slot) ≠ (t, i) := by
        simpa only [ne_eq, Prod.mk.injEq] using hr
      rw [List.eraseP_cons_of_neg (by simpa using hr), List.map_cons, List.map_cons,
        List.erase_cons_tail (by simpa using hne), ih]

/-- **The step.** -/
theorem step (h : ChannelInv n s) {a : ChannelAct τ β} (hs : channelStep s a = some s') :
    ChannelInv n s' := by
  cases a with
  | producerAcquire t =>
    obtain ⟨⟨i, ring⟩, hring, rfl⟩ := Option.map_eq_some_iff.mp hs
    obtain ⟨hinv, hqueued, hitems, -, hconsuming⟩ := h.ring.producerAcquire hring
    exact h.of_frame hinv hqueued hconsuming fun u j _ => congrFun hitems j
  | fill t i message =>
    dsimp only [channelStep] at hs
    split at hs
    · rename_i hheld
      obtain rfl := Option.some.inj hs
      obtain ⟨hqueued, -, hitems⟩ := h.ring.fill (List.contains_iff_mem.mp hheld) message
      exact h.of_frame h.ring hqueued rfl hitems
    · exact absurd hs (by simp)
  | producerRelease t i =>
    obtain ⟨ring, hring, rfl⟩ := Option.map_eq_some_iff.mp hs
    have hheld : (t, i) ∈ s.ring.ring.producing := by
      by_contra hheld
      simp [RingItems.producerRelease, ringStep, hheld] at hring
    obtain ⟨ring', hring', hinv, hqueued, hitems, -, hconsuming⟩ := h.ring.producerRelease hheld
    obtain rfl := Option.some.inj (hring'.symm.trans hring)
    refine ⟨hinv, ?_, h.reading_eq.trans hconsuming.symm, fun r hr => ?_⟩
    · show s.sent ++ [s.ring.items i] = s.received ++ ring'.queued
      rw [hqueued, h.sent_eq, List.append_assoc]
    · show ring'.items r.slot = r.message
      rw [hitems]
      exact h.message_eq r hr
  | consumerAcquire t =>
    obtain ⟨⟨i, ring⟩, hring, rfl⟩ := Option.map_eq_some_iff.mp hs
    obtain ⟨hinv, hqueued, hitems, -, hconsuming⟩ := h.ring.consumerAcquire hring
    refine ⟨hinv, ?_, ?_, fun r hr => ?_⟩
    · show s.sent = s.received ++ [s.ring.items i] ++ ring.queued
      rw [h.sent_eq, hqueued, List.append_assoc, List.singleton_append]
    · show (t, i) :: s.reading.map (fun r => (r.thread, r.slot)) = ring.ring.consuming
      rw [h.reading_eq, hconsuming]
    · show ring.items r.slot = r.message
      rw [hitems]
      rcases List.mem_cons.mp hr with rfl | hr
      · rfl
      · exact h.message_eq r hr
  | consumerRelease t i =>
    obtain ⟨ring, hring, rfl⟩ := Option.map_eq_some_iff.mp hs
    have hheld : (t, i) ∈ s.ring.ring.consuming := by
      by_contra hheld
      simp [RingItems.consumerRelease, ringStep, hheld] at hring
    obtain ⟨ring', hring', hinv, hqueued, hitems, -, hconsuming⟩ := h.ring.consumerRelease hheld
    obtain rfl := Option.some.inj (hring'.symm.trans hring)
    refine ⟨hinv, ?_, ?_, fun r hr => ?_⟩
    · show s.sent = s.received ++ ring'.queued
      rw [hqueued]
      exact h.sent_eq
    · show List.map _ (s.reading.eraseP _) = ring'.ring.consuming
      rw [map_eraseP_reading, h.reading_eq, hconsuming]
    · show ring'.items r.slot = r.message
      rw [hitems]
      exact h.message_eq r (List.mem_of_mem_eraseP hr)

theorem of_reach {h : 0 < n} {item : β} (hr : (channelSystem τ n h item).Reach s) :
    ChannelInv n s := by
  refine System.ReachVia.inv ?_ ?_ hr
  · rintro s ⟨ring, hring, rfl⟩
    exact ⟨RingItems.inv_init h hring item, (RingItems.queued_init h hring item).symm, rfl,
      List.forall_mem_nil _⟩
  · intro s s' a hI _ hst
    exact hI.step hst

end ChannelInv

/-- **A ring is a channel.**  Whatever its threads do, what has been received and what is on its way
are what was sent, in order; a slot that is read holds the message that was handed out until it is
given back; no assertion of the releases fails; a consumer is turned away only if everything sent
has been received, and a producer only if all `n` slots are in use. -/
theorem ring_is_channel {n : Nat} (h : 0 < n) (item : β) {s : ChannelState τ β}
    (hr : (channelSystem τ n h item).Reach s) :
    s.sent = s.received ++ s.ring.queued ∧
      (∀ r ∈ s.reading, s.ring.items r.slot = r.message) ∧ s.ring.ring.aborted = false ∧
      (∀ t, s.ring.consumerAcquire t = none ↔ s.sent = s.received) ∧
      ∀ t, s.ring.producerAcquire t = none ↔
        s.ring.queued.length + s.ring.ring.producing.length + s.reading.length = n := by
  have hI := ChannelInv.of_reach hr
  refine ⟨hI.sent_eq, hI.message_eq, hI.ring.not_aborted, fun t => ?_, fun t => ?_⟩
  · rw [RingItems.consumerAcquire_eq_none_iff, hI.sent_eq, List.append_right_eq_self]
  · have hlength : s.reading.length = s.ring.ring.consuming.length := by
      rw [← hI.reading_eq, List.length_map]
    rw [hI.ring.producerAcquire_eq_none_iff, hlength]

/-- Two messages through a ring of one item; the thread 1 reads the second. -/
theorem ring_is_channel_two : ∃ s : ChannelState Nat Nat, s.sent = [7, 8] ∧ s.received = [7, 8] ∧
    s.reading.length = 1 ∧ (∀ r ∈ s.reading, s.ring.items r.slot = r.message) ∧
    s.ring.producerAcquire 0 = none := by
  have hrun : (((channelSystem Nat 1 Nat.one_pos 0).exec
      { ring := RingItems.init ((usRingInit 1 Nat.one_pos).get (by decide)) 0
        sent := [], received := [], reading := [] }
      [.producerAcquire 0, .fill 0 0 7, .producerRelease 0 0, .consumerAcquire 1,
        .consumerRelease 1 0, .producerAcquire 2, .fill 2 0 8, .producerRelease 2 0,
        .consumerAcquire 1]).any fun s => decide (s.sent = [7, 8] ∧ s.received = [7, 8] ∧
          s.reading.length = 1 ∧ s.ring.ring.producing.length = 0)) = true := by decide +kernel
  obtain ⟨s, hexec, hs⟩ := (Option.any_eq_true _ _).mp hrun
  obtain ⟨hsent, hreceived, hreading, hproducing⟩ := of_decide_eq_true hs
  have hr : (channelSystem Nat 1 Nat.one_pos 0).Reach s :=
    System.Reach.exec _ (.start ⟨_, (Option.some_get _).symm, rfl⟩) hexec
  obtain ⟨hfifo, hmessages, -, -, hfull⟩ := ring_is_channel Nat.one_pos 0 hr
  refine ⟨s, hsent, hreceived, hreading, hmessages, (hfull 0).mpr ?_⟩
  rw [hsent, hreceived, List.self_eq_append_right] at hfifo
  rw [hfifo, hproducing, hreading]
  rfl

end Channel

end TinyPilotKvm
