/-
# The ring of `libs/ring.c`: who holds which slot

A `us_ring_s` hands out the slot indices `0..capacity-1` through two queues: producers take an
index from `producer`, fill the slot and put the index into `consumer`; consumers take it from
there and put it back into `producer`.  Both releases are `assert(!us_queue_put(.., 0))`, so they
abort the process if the queue is ever full.

`ringSystem` is the ring in the hands of any number of threads.  Its state adds to the ring
what the code does not store: which thread has acquired which index on which side and not yet
released it, the order of the producers' releases and of the consumers' acquires, and
whether an assertion has failed.  A thread releases only what it holds, which is the ring's
whole contract.

The invariant is conservation (`RingInv.slots_perm`): the two queues and the two sets of
holders together are a permutation of `0..n-1`.  Everything else follows from it: a release
finds room because the released index was not in the queue (`release_room`), and the order of the
consumers is that of the consumer queue (`RingInv.released_eq`).
-/
import Mathlib.Data.List.Nodup
import Mathlib.Data.List.Perm.Basic
import TinyPilotKvm.Transition
import TinyPilotKvm.Libs.Queue

namespace TinyPilotKvm

/-! ## 1. The code -/

/-- `us_ring_s`, less the items, which the ring never looks at.  A pointer into `places` is the
index of the cell it points to. -/
structure UsRing where
  capacity : Nat
  places : List Nat
  producer : Queue Nat
  consumer : Queue Nat

/-- The loop of `us_ring_init` from `index` on, `todo` cells left.  `none`: its assertion fails. -/
def usRingInitFrom (index : Nat) : Nat → UsRing → Option UsRing
  | 0, ring => some ring
  | todo + 1, ring =>
    (ring.producer.put index).bind fun q =>
      usRingInitFrom (index + 1) todo
        { ring with places := ring.places.set index index, producer := q }

/-- `us_ring_init`. -/
def usRingInit (capacity : Nat) (h : 0 < capacity) : Option UsRing :=
  usRingInitFrom 0 capacity
    { capacity := capacity
      places := List.replicate capacity 0
      producer := Queue.init capacity h
      consumer := Queue.init capacity h }

/-- `_acquire`: the index in the cell that the queue points to, and the rest of the queue.
`none` is the -1 of an empty queue. -/
def ringAcquire (ring : UsRing) (queue : Queue Nat) : Option (Nat × Queue Nat) :=
  queue.get.map fun (place, queue') => (ring.places.getD place 0, queue')

/-- `_release`.  `none`: the assertion on the put fails. -/
def ringRelease (queue : Queue Nat) (index : Nat) : Option (Queue Nat) :=
  queue.put index

/-- `us_ring_producer_acquire`. -/
def usRingProducerAcquire (ring : UsRing) : Option (Nat × UsRing) :=
  (ringAcquire ring ring.producer).map fun (i, q) => (i, { ring with producer := q })

/-- `us_ring_producer_release`. -/
def usRingProducerRelease (ring : UsRing) (index : Nat) : Option UsRing :=
  (ringRelease ring.consumer index).map fun q => { ring with consumer := q }

/-- `us_ring_consumer_acquire`. -/
def usRingConsumerAcquire (ring : UsRing) : Option (Nat × UsRing) :=
  (ringAcquire ring ring.consumer).map fun (i, q) => (i, { ring with consumer := q })

/-- `us_ring_consumer_release`. -/
def usRingConsumerRelease (ring : UsRing) (index : Nat) : Option UsRing :=
  (ringRelease ring.producer index).map fun q => { ring with producer := q }

/-! ## 2. The ring in the hands of its threads -/

/-- A ring, its holders, and the history of its consumer side. -/
structure RingState (τ : Type) where
  ring : UsRing
  /-- The indices acquired on the producer side and not released since, with their threads. -/
  producing : List (τ × Nat)
  /-- The same on the consumer side. -/
  consuming : List (τ × Nat)
  /-- The indices released by producers, in order. -/
  released : List Nat
  /-- The indices handed to consumers, in order. -/
  handed : List Nat
  /-- An assertion has failed. -/
  aborted : Bool

/-- What a thread can do to a ring.  An acquire gets the mutex before its timeout or it does
not; a release waits for nothing. -/
inductive RingAct (τ : Type)
  | producerAcquire (t : τ) (timedOut : Bool)
  | producerRelease (t : τ) (index : Nat)
  | consumerAcquire (t : τ) (timedOut : Bool)
  | consumerRelease (t : τ) (index : Nat)

variable {τ : Type} [DecidableEq τ]

/-- One operation of one thread.  A thread releases only what it holds on that side. -/
def ringStep (s : RingState τ) : RingAct τ → Option (RingState τ)
  | .producerAcquire _ true => some s
  | .producerAcquire t false =>
    (usRingProducerAcquire s.ring).map fun (i, r) =>
      { s with ring := r, producing := (t, i) :: s.producing }
  | .producerRelease t i =>
    if (t, i) ∈ s.producing then
      match usRingProducerRelease s.ring i with
      | none => some { s with aborted := true }
      | some r => some { s with
          ring := r
          producing := s.producing.erase (t, i)
          released := s.released ++ [i] }
    else none
  | .consumerAcquire _ true => some s
  | .consumerAcquire t false =>
    (usRingConsumerAcquire s.ring).map fun (i, r) =>
      { s with ring := r, consuming := (t, i) :: s.consuming, handed := s.handed ++ [i] }
  | .consumerRelease t i =>
    if (t, i) ∈ s.consuming then
      match usRingConsumerRelease s.ring i with
      | none => some { s with aborted := true }
      | some r => some { s with ring := r, consuming := s.consuming.erase (t, i) }
    else none

/-- A fresh ring that nobody has touched. -/
def RingState.fresh (ring : UsRing) : RingState τ where
  ring := ring
  producing := []
  consuming := []
  released := []
  handed := []
  aborted := false

/-- The ring of capacity `n` and all interleavings of its threads. -/
def ringSystem (τ : Type) [DecidableEq τ] (n : Nat) (h : 0 < n) :
    System (RingState τ) (RingAct τ) where
  start s := ∃ ring, usRingInit n h = some ring ∧ s = RingState.fresh ring
  step := ringStep

/-! ## 3. The invariant -/

namespace RingState

/-- The indices held by producers. -/
def heldByProducers (s : RingState τ) : List Nat := s.producing.map Prod.snd

/-- The indices held by consumers. -/
def heldByConsumers (s : RingState τ) : List Nat := s.consuming.map Prod.snd

/-- Every index of the state, place by place. -/
def slots (s : RingState τ) : List Nat :=
  s.ring.producer.toList ++ s.ring.consumer.toList ++ s.heldByProducers ++ s.heldByConsumers

end RingState

/-- What holds of a ring of capacity `n` whatever its threads do. -/
structure RingInv (n : Nat) (s : RingState τ) : Prop where
  /-- **Conservation.**  The four places share out the indices. -/
  slots_perm : s.slots.Perm (List.range n)
  places_eq : s.ring.places = List.range n
  producer_capacity : s.ring.producer.capacity = n
  consumer_capacity : s.ring.consumer.capacity = n
  /-- The consumers are served in the producers' order. -/
  released_eq : s.released = s.handed ++ s.ring.consumer.toList
  not_aborted : s.aborted = false

/-- The loop of `us_ring_init` fills the producer queue and never finds it full. -/
theorem usRingInitFrom_spec {n : Nat} : ∀ (todo index : Nat) (ring : UsRing),
    index + todo = n → ring.producer.capacity = n → ring.producer.toList = List.range index →
    ring.places = List.range index ++ List.replicate todo 0 →
    ∃ ring', usRingInitFrom index todo ring = some ring' ∧
      ring'.producer.toList = List.range n ∧ ring'.places = List.range n ∧
      ring'.producer.capacity = n ∧ ring'.consumer = ring.consumer
  | 0, index, ring, hn, hcap, hlist, hpl => by
    have hi : index = n := by omega
    subst hi
    exact ⟨ring, rfl, hlist, by simpa using hpl, hcap, rfl⟩
  | todo + 1, index, ring, hn, hcap, hlist, hpl => by
    obtain ⟨q, hq⟩ := Queue.put_of_lt (q := ring.producer)
      (by rw [hlist, hcap, List.length_range]; omega) index
    have hset : (ring.places.set index index)
        = List.range (index + 1) ++ List.replicate todo 0 := by
      rw [hpl, List.set_append_right _ _ (by simp), List.range_succ]
      simp [List.replicate_succ]
    obtain ⟨ring', h1, h2, h3, h4, h5⟩ := usRingInitFrom_spec todo (index + 1)
      { ring with places := ring.places.set index index, producer := q } (by omega)
      ((Queue.capacity_put hq).trans hcap)
      (by rw [Queue.toList_put hq, hlist, List.range_succ]) hset
    exact ⟨ring', by simp only [usRingInitFrom, hq, Option.bind_some]; exact h1, h2, h3, h4, h5⟩

/-- `us_ring_init` passes its assertions and yields a ring with every index free. -/
theorem usRingInit_spec {n : Nat} (h : 0 < n) :
    ∃ ring, usRingInit n h = some ring ∧ ring.producer.toList = List.range n ∧
      ring.places = List.range n ∧ ring.producer.capacity = n ∧
      ring.consumer = Queue.init n h :=
  usRingInitFrom_spec n 0 _ (Nat.zero_add n) (Queue.capacity_init h)
    (Queue.toList_init h) (by simp)

omit [DecidableEq τ] in
theorem ringInv_fresh {n : Nat} (h : 0 < n) {ring : UsRing} (hr : usRingInit n h = some ring) :
    RingInv n (RingState.fresh ring : RingState τ) := by
  obtain ⟨r, hr', hp, hpl, hcp, hcc⟩ := usRingInit_spec h
  obtain rfl : r = ring := Option.some.inj (hr'.symm.trans hr)
  refine ⟨?_, hpl, hcp, ?_, ?_, rfl⟩
  · simp [RingState.slots, RingState.heldByProducers, RingState.heldByConsumers,
      RingState.fresh, hp, hcc]
  · simp [RingState.fresh, hcc]
  · simp [RingState.fresh, hcc]

/-- Under conservation an index that a thread holds is missing from a queue of capacity `n`, so
the queue has room for it. -/
theorem release_room {n : Nat} (held queue rest : List Nat) {i : Nat} (hi : i ∈ held)
    (h : (held ++ queue ++ rest).Perm (List.range n)) : queue.length < n := by
  have hlen := h.length_eq
  have hpos : 0 < held.length := List.length_pos_of_mem hi
  simp only [List.length_append, List.length_range] at hlen
  omega

theorem capacity_ringAcquire {ring : UsRing} {queue queue' : Queue Nat} {i : Nat}
    (h : ringAcquire ring queue = some (i, queue')) : queue'.capacity = queue.capacity := by
  unfold ringAcquire at h
  obtain ⟨⟨p, q⟩, hg, he⟩ := Option.map_eq_some_iff.mp h
  simp only [Prod.mk.injEq] at he
  exact he.2 ▸ Queue.capacity_get hg

omit [DecidableEq τ] in
/-- An index that comes out of a queue of cells is the index of the cell. -/
theorem ringAcquire_eq_some {n : Nat} {s : RingState τ} (hpl : s.ring.places = List.range n)
    {queue queue' : Queue Nat} (hlt : ∀ i ∈ queue.toList, i < n) {i : Nat}
    (h : ringAcquire s.ring queue = some (i, queue')) : queue.toList = i :: queue'.toList := by
  unfold ringAcquire at h
  obtain ⟨⟨p, q⟩, hg, he⟩ := Option.map_eq_some_iff.mp h
  simp only [Prod.mk.injEq] at he
  obtain ⟨hi, rfl⟩ := he
  have hcons := Queue.toList_get hg
  have hp : p < n := hlt p (by rw [hcons]; exact List.mem_cons_self)
  rw [hpl, List.getD_eq_getElem _ _ (by simpa using hp), List.getElem_range] at hi
  rw [hcons, hi]

namespace RingInv

variable {n : Nat} {s s' : RingState τ}

omit [DecidableEq τ] in
theorem mem_lt (h : RingInv n s) {i : Nat} (hi : i ∈ s.slots) : i < n :=
  List.mem_range.mp (h.slots_perm.mem_iff.mp hi)

omit [DecidableEq τ] in
theorem producer_lt (h : RingInv n s) : ∀ i ∈ s.ring.producer.toList, i < n := fun i hi =>
  h.mem_lt (by simp [RingState.slots, hi])

omit [DecidableEq τ] in
theorem consumer_lt (h : RingInv n s) : ∀ i ∈ s.ring.consumer.toList, i < n := fun i hi =>
  h.mem_lt (by simp [RingState.slots, hi])

omit [DecidableEq τ] in
/-- Every index is in one place, counted over the four of them. -/
theorem count_slots (h : RingInv n s) {i : Nat} (hi : i < n) : s.slots.count i = 1 := by
  rw [h.slots_perm.count_eq i]
  exact List.count_eq_one_of_mem List.nodup_range (List.mem_range.mpr hi)

/-- A producer takes an index from the producer queue. -/
theorem producerAcquire (h : RingInv n s) {t : τ}
    (hs : ringStep s (.producerAcquire t false) = some s') : RingInv n s' := by
  simp only [ringStep, usRingProducerAcquire, Option.map_map, Option.map_eq_some_iff,
    Prod.exists, Function.comp_apply] at hs
  obtain ⟨i, q, hacq, rfl⟩ := hs
  have hcons := ringAcquire_eq_some h.places_eq h.producer_lt hacq
  refine ⟨?_, h.places_eq, ?_, h.consumer_capacity, h.released_eq, h.not_aborted⟩
  · refine List.Perm.trans ?_ h.slots_perm
    rw [List.perm_iff_count]
    intro j
    simp only [RingState.slots, RingState.heldByProducers, RingState.heldByConsumers, hcons,
      List.map_cons, List.count_append, List.count_cons]
    omega
  · exact (capacity_ringAcquire hacq).trans h.producer_capacity

/-- A consumer takes an index from the consumer queue. -/
theorem consumerAcquire (h : RingInv n s) {t : τ}
    (hs : ringStep s (.consumerAcquire t false) = some s') : RingInv n s' := by
  simp only [ringStep, usRingConsumerAcquire, Option.map_map, Option.map_eq_some_iff,
    Prod.exists, Function.comp_apply] at hs
  obtain ⟨i, q, hacq, rfl⟩ := hs
  have hcons := ringAcquire_eq_some h.places_eq h.consumer_lt hacq
  refine ⟨?_, h.places_eq, h.producer_capacity, ?_, ?_, h.not_aborted⟩
  · refine List.Perm.trans ?_ h.slots_perm
    rw [List.perm_iff_count]
    intro j
    simp only [RingState.slots, RingState.heldByProducers, RingState.heldByConsumers, hcons,
      List.map_cons, List.count_append, List.count_cons]
    omega
  · exact (capacity_ringAcquire hacq).trans h.consumer_capacity
  · rw [h.released_eq, hcons]
    simp

omit [DecidableEq τ] in
/-- The put of a producer's release finds room in the consumer queue. -/
theorem producerRelease_some (h : RingInv n s) {t : τ} {i : Nat} (hi : (t, i) ∈ s.producing) :
    ∃ q, s.ring.consumer.put i = some q := by
  refine Queue.put_of_lt ?_ i
  rw [h.consumer_capacity]
  refine release_room s.heldByProducers _ (s.ring.producer.toList ++ s.heldByConsumers)
    (List.mem_map.mpr ⟨(t, i), hi, rfl⟩) (List.Perm.trans ?_ h.slots_perm)
  rw [List.perm_iff_count]
  intro j
  simp only [RingState.slots, List.count_append]
  omega

omit [DecidableEq τ] in
/-- The put of a consumer's release finds room in the producer queue. -/
theorem consumerRelease_some (h : RingInv n s) {t : τ} {i : Nat} (hi : (t, i) ∈ s.consuming) :
    ∃ q, s.ring.producer.put i = some q := by
  refine Queue.put_of_lt ?_ i
  rw [h.producer_capacity]
  refine release_room s.heldByConsumers _ (s.ring.consumer.toList ++ s.heldByProducers)
    (List.mem_map.mpr ⟨(t, i), hi, rfl⟩) (List.Perm.trans ?_ h.slots_perm)
  rw [List.perm_iff_count]
  intro j
  simp only [RingState.slots, List.count_append]
  omega

/-- Giving back one of a side's indices takes it out of that side's holders. -/
theorem count_erase {held : List (τ × Nat)} {t : τ} {i : Nat} (hi : (t, i) ∈ held) (j : Nat) :
    (held.map Prod.snd).count j
      = ((held.erase (t, i)).map Prod.snd).count j + if i = j then 1 else 0 := by
  rw [((List.perm_cons_erase hi).map Prod.snd).count_eq j, List.map_cons, List.count_cons]
  simp

theorem producerRelease (h : RingInv n s) {t : τ} {i : Nat}
    (hs : ringStep s (.producerRelease t i) = some s') : RingInv n s' := by
  simp only [ringStep] at hs
  split at hs
  · rename_i hi
    obtain ⟨q, hq⟩ := h.producerRelease_some hi
    simp only [usRingProducerRelease, ringRelease, hq, Option.map_some, Option.some.injEq] at hs
    subst hs
    refine ⟨?_, h.places_eq, h.producer_capacity, (Queue.capacity_put hq).trans
      h.consumer_capacity, ?_, h.not_aborted⟩
    · refine List.Perm.trans ?_ h.slots_perm
      rw [List.perm_iff_count]
      intro j
      simp only [RingState.slots, RingState.heldByProducers, RingState.heldByConsumers,
        Queue.toList_put hq, List.count_append, List.count_singleton, count_erase hi j, beq_iff_eq]
      omega
    · rw [h.released_eq, Queue.toList_put hq, List.append_assoc]
  · exact absurd hs (by simp)

theorem consumerRelease (h : RingInv n s) {t : τ} {i : Nat}
    (hs : ringStep s (.consumerRelease t i) = some s') : RingInv n s' := by
  simp only [ringStep] at hs
  split at hs
  · rename_i hi
    obtain ⟨q, hq⟩ := h.consumerRelease_some hi
    simp only [usRingConsumerRelease, ringRelease, hq, Option.map_some, Option.some.injEq] at hs
    subst hs
    refine ⟨?_, h.places_eq, (Queue.capacity_put hq).trans h.producer_capacity,
      h.consumer_capacity, h.released_eq, h.not_aborted⟩
    refine List.Perm.trans ?_ h.slots_perm
    rw [List.perm_iff_count]
    intro j
    simp only [RingState.slots, RingState.heldByProducers, RingState.heldByConsumers,
      Queue.toList_put hq, List.count_append, List.count_singleton, count_erase hi j, beq_iff_eq]
    omega
  · exact absurd hs (by simp)

/-- **The step.**  No operation of any thread breaks the invariant. -/
theorem step (h : RingInv n s) {a : RingAct τ} (hs : ringStep s a = some s') :
    RingInv n s' := by
  cases a with
  | producerAcquire t timedOut =>
    cases timedOut with
    | false => exact h.producerAcquire hs
    | true => exact Option.some.inj hs ▸ h
  | producerRelease t i => exact h.producerRelease hs
  | consumerAcquire t timedOut =>
    cases timedOut with
    | false => exact h.consumerAcquire hs
    | true => exact Option.some.inj hs ▸ h
  | consumerRelease t i => exact h.consumerRelease hs

end RingInv

/-- The invariant holds in every state any interleaving reaches. -/
theorem ringInv_of_reach {n : Nat} (h : 0 < n) {s : RingState τ}
    (hr : (ringSystem τ n h).Reach s) : RingInv n s := by
  refine System.ReachVia.inv ?_ ?_ hr
  · rintro s ⟨ring, hring, rfl⟩
    exact ringInv_fresh h hring
  · intro s s' a hI _ hst
    exact hI.step hst

/-! ## 4. What a step leaves alone -/

section Frame

variable {n : Nat} {s s' : RingState τ} {t : τ} {i : Nat}

/-- The index that an acquire gives to a producer is the thread's. -/
theorem mem_producing_of_acquire {r : UsRing} (ha : usRingProducerAcquire s.ring = some (i, r))
    (hs : ringStep s (.producerAcquire t false) = some s') : (t, i) ∈ s'.producing := by
  simp only [ringStep, ha, Option.map_some, Option.some.injEq] at hs
  subst hs
  exact List.mem_cons_self

theorem producerAcquire_frame (hs : ringStep s (.producerAcquire t false) = some s') :
    s'.consuming = s.consuming ∧ s'.ring.consumer = s.ring.consumer := by
  simp only [ringStep, usRingProducerAcquire, Option.map_map, Option.map_eq_some_iff,
    Prod.exists, Function.comp_apply] at hs
  obtain ⟨i, q, -, rfl⟩ := hs
  exact ⟨rfl, rfl⟩

/-- A producer's release adds its index to the consumers' queue. -/
theorem producerRelease_frame (hs : ringStep s (.producerRelease t i) = some s') :
    s'.consuming = s.consuming ∧
      ∀ j ∈ s'.ring.consumer.toList, j ∈ s.ring.consumer.toList ∨ j = i := by
  simp only [ringStep] at hs
  split at hs
  · split at hs
    · obtain rfl := Option.some.inj hs
      exact ⟨rfl, fun j hj => Or.inl hj⟩
    · rename_i hput
      obtain rfl := Option.some.inj hs
      obtain ⟨q, hq, rfl⟩ := Option.map_eq_some_iff.mp hput
      refine ⟨rfl, fun j hj => ?_⟩
      simpa [Queue.toList_put hq] using hj
  · exact absurd hs (by simp)

/-- A consumer's acquire takes its index from the consumers' queue. -/
theorem RingInv.consumerAcquire_frame (h : RingInv n s) {r : UsRing}
    (ha : usRingConsumerAcquire s.ring = some (i, r))
    (hs : ringStep s (.consumerAcquire t false) = some s') :
    s'.producing = s.producing ∧ (t, i) ∈ s'.consuming ∧ i ∈ s.ring.consumer.toList ∧
      ∀ j ∈ s'.ring.consumer.toList, j ∈ s.ring.consumer.toList := by
  simp only [ringStep, ha, Option.map_some, Option.some.injEq] at hs
  subst hs
  obtain ⟨⟨p, q⟩, hacq, he⟩ := Option.map_eq_some_iff.mp ha
  simp only [Prod.mk.injEq] at he
  obtain ⟨rfl, rfl⟩ := he
  have hcons := ringAcquire_eq_some h.places_eq h.consumer_lt hacq
  refine ⟨rfl, List.mem_cons_self, ?_, fun j hj => ?_⟩
  · rw [hcons]
    exact List.mem_cons_self
  · rw [hcons]
    exact List.mem_cons_of_mem _ hj

theorem consumerRelease_frame (hs : ringStep s (.consumerRelease t i) = some s') :
    s'.producing = s.producing ∧ s'.ring.consumer = s.ring.consumer := by
  simp only [ringStep] at hs
  split at hs
  · split at hs
    · obtain rfl := Option.some.inj hs
      exact ⟨rfl, rfl⟩
    · rename_i hput
      obtain rfl := Option.some.inj hs
      obtain ⟨q, -, rfl⟩ := Option.map_eq_some_iff.mp hput
      exact ⟨rfl, rfl⟩
  · exact absurd hs (by simp)

/-- A producer's release puts its index at the end of the consumers' queue. -/
theorem RingInv.producerRelease_lists (h : RingInv n s) (hi : (t, i) ∈ s.producing)
    (hs : ringStep s (.producerRelease t i) = some s') : s'.released = s.released ++ [i] ∧
      s'.handed = s.handed ∧ s'.ring.consumer.toList = s.ring.consumer.toList ++ [i] := by
  obtain ⟨q, hq⟩ := h.producerRelease_some hi
  simp only [ringStep, if_pos hi, usRingProducerRelease, ringRelease, hq, Option.map_some,
    Option.some.injEq] at hs
  obtain rfl := hs
  exact ⟨rfl, rfl, Queue.toList_put hq⟩

/-- A consumer's acquire takes the first index of the consumers' queue. -/
theorem RingInv.consumerAcquire_lists (h : RingInv n s) {r : UsRing}
    (ha : usRingConsumerAcquire s.ring = some (i, r))
    (hs : ringStep s (.consumerAcquire t false) = some s') : s'.released = s.released ∧
      s'.handed = s.handed ++ [i] ∧ s.ring.consumer.toList = i :: s'.ring.consumer.toList := by
  simp only [ringStep, ha, Option.map_some, Option.some.injEq] at hs
  obtain rfl := hs
  obtain ⟨⟨j, q⟩, hacq, he⟩ := Option.map_eq_some_iff.mp ha
  obtain ⟨rfl, rfl⟩ := Prod.mk.inj he
  exact ⟨rfl, rfl, ringAcquire_eq_some h.places_eq h.consumer_lt hacq⟩

/-- What an acquire of a producer and a release of a consumer leave of the consumers' side. -/
theorem producerAcquire_lists (hs : ringStep s (.producerAcquire t false) = some s') :
    s'.released = s.released ∧ s'.handed = s.handed := by
  simp only [ringStep, usRingProducerAcquire, Option.map_map, Option.map_eq_some_iff,
    Prod.exists, Function.comp_apply] at hs
  obtain ⟨i, q, -, rfl⟩ := hs
  exact ⟨rfl, rfl⟩

theorem consumerRelease_lists (hs : ringStep s (.consumerRelease t i) = some s') :
    s'.released = s.released ∧ s'.handed = s.handed := by
  simp only [ringStep] at hs
  split at hs
  · split at hs <;> obtain rfl := Option.some.inj hs <;> exact ⟨rfl, rfl⟩
  · contradiction

omit [DecidableEq τ] in
/-- **A producer has its slot to itself**: it is not in the consumers' queue, and no consumer has
it. -/
theorem RingInv.exclusive (h : RingInv n s) (hi : (t, i) ∈ s.producing) :
    i ∉ s.ring.consumer.toList ∧ ∀ u, (u, i) ∉ s.consuming := by
  have hheld : i ∈ s.heldByProducers := List.mem_map.mpr ⟨(t, i), hi, rfl⟩
  have hpos := List.count_pos_iff.mpr hheld
  have hone := h.count_slots (h.mem_lt (i := i) (by simp [RingState.slots, hheld]))
  simp only [RingState.slots, List.count_append] at hone
  refine ⟨fun hq => ?_, fun u hu => ?_⟩
  · have := List.count_pos_iff.mpr hq
    omega
  · have hmem : i ∈ s.heldByConsumers := List.mem_map.mpr ⟨(u, i), hu, rfl⟩
    have := List.count_pos_iff.mpr hmem
    omega

end Frame

/-! ## 5. Ownership -/

/-- The index `i` is in exactly one of the four places, and only once there. -/
def RingState.PlacedOnce (s : RingState τ) (i : Nat) : Prop :=
  s.ring.producer.toList.count i + s.ring.consumer.toList.count i
    + s.heldByProducers.count i + s.heldByConsumers.count i = 1

/-- **Ring slot ownership.**  `us_ring_init` passes its assertions, and then, whatever the
threads do: every index is in one of the four places and in no other, no release finds its
queue full, and the consumers get the indices in the order in which the producers released
them. -/
theorem ring_slot_ownership {n : Nat} (h : 0 < n) :
    (usRingInit n h).isSome ∧
      ∀ s : RingState τ, (ringSystem τ n h).Reach s →
        (∀ i < n, s.PlacedOnce i) ∧ s.aborted = false ∧ s.handed <+: s.released := by
  obtain ⟨ring, hring, -⟩ := usRingInit_spec h
  refine ⟨by rw [hring]; rfl, fun s hr => ?_⟩
  have hI := ringInv_of_reach h hr
  refine ⟨fun i hi => ?_, hI.not_aborted, ⟨_, hI.released_eq.symm⟩⟩
  have := hI.count_slots hi
  simp only [RingState.slots, List.count_append] at this
  exact this

/-- Thread 0 passes the slot 0 of a ring of two to thread 1, which still holds it. -/
theorem ring_slot_ownership_two :
    ∃ s : RingState Nat, (ringSystem Nat 2 Nat.two_pos).Reach s ∧ s.handed = [0] ∧
      s.heldByConsumers = [0] ∧ s.PlacedOnce 0 ∧ s.PlacedOnce 1 ∧ s.aborted = false := by
  have hr : (ringSystem Nat 2 Nat.two_pos).Reach
      (((ringSystem Nat 2 Nat.two_pos).exec
        (RingState.fresh ((usRingInit 2 Nat.two_pos).get (by decide)))
        [.producerAcquire 0 false, .producerRelease 0 0, .consumerAcquire 1 true,
          .consumerAcquire 1 false]).get (by decide)) :=
    System.Reach.exec _ (.start ⟨_, (Option.some_get _).symm, rfl⟩) (Option.some_get _).symm
  obtain ⟨hplaced, hab, -⟩ := (ring_slot_ownership Nat.two_pos).2 _ hr
  exact ⟨_, hr, by decide, by decide, hplaced 0 (by decide), hplaced 1 (by decide), hab⟩

end TinyPilotKvm
