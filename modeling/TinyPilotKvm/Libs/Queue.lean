/-
# The bounded queue of `libs/queue.c`

`us_queue_s` is a circular buffer of pointers behind one mutex.  Each of its operations is one
critical section, so each is one step here; the mutex and the two condition variables have no
other trace in the model.

* `UsQueue` and `usQueueInit`, `usQueuePut`, `usQueueGet`, `usQueueIsEmpty` are the fields and
  the functions of the source.
* `UsQueue.contents` reads the buffer as the list of items put and not yet got.
* `UsQueue.Wf` is the shape of the buffer, and `Queue` is a buffer that has it.  The rest of the
  development holds `Queue`s and never looks at an index again: `Queue.put_eq_none_iff`,
  `Queue.toList_put`, `Queue.get_eq_none_iff` and `Queue.toList_get` say all there is to know,
  namely that a `Queue` is a bounded first-in first-out list.

**The name `us_queue_is_empty` is misleading.**  The function returns
`(bool)(capacity - size)`, which is true of every queue that is not FULL.  `isEmpty_eq_true_iff`
records it; the callers have to be read with that meaning.
-/
import Mathlib.Data.List.GetD
import Mathlib.Data.Nat.ModEq

namespace TinyPilotKvm

variable {α : Type} [Inhabited α]

/-! ## 1. The code -/

/-- `us_queue_s`, less the mutex and the condition variables. -/
structure UsQueue (α : Type) where
  items : List α
  size : Nat
  capacity : Nat
  inPos : Nat
  outPos : Nat

/-- `us_queue_init`: the item array is `calloc`ed. -/
def usQueueInit (capacity : Nat) : UsQueue α where
  items := List.replicate capacity default
  size := 0
  capacity := capacity
  inPos := 0
  outPos := 0

/-- `us_queue_put` when it gets the mutex.  `none`: the queue is full, so a call with timeout 0
returns -1, and one with a timeout waits on `full_cond`. -/
def usQueuePut (q : UsQueue α) (item : α) : Option (UsQueue α) :=
  if q.size = q.capacity then none
  else some { q with
    items := q.items.set q.inPos item
    size := q.size + 1
    inPos := (q.inPos + 1) % q.capacity }

/-- `us_queue_get` when it gets the mutex.  `none`: the queue is empty, so the call waits on
`empty_cond` and returns -1 if its timeout passes first. -/
def usQueueGet (q : UsQueue α) : Option (α × UsQueue α) :=
  if q.size = 0 then none
  else some (q.items.getD q.outPos default, { q with
    size := q.size - 1
    outPos := (q.outPos + 1) % q.capacity })

/-- `us_queue_is_empty`, as written: `(bool)(queue->capacity - size)`. -/
def usQueueIsEmpty (q : UsQueue α) : Bool :=
  decide ((q.capacity : Int) - q.size ≠ 0)

/-! ## 2. The buffer as a list -/

namespace UsQueue

/-- The items put and not yet got, oldest first. -/
def contents (q : UsQueue α) : List α :=
  (List.range q.size).map fun i => q.items.getD ((q.outPos + i) % q.capacity) default

/-- The shape every queue of the program has. -/
structure Wf (q : UsQueue α) : Prop where
  items_length : q.items.length = q.capacity
  size_le : q.size ≤ q.capacity
  outPos_lt : q.outPos < q.capacity
  inPos_eq : q.inPos = (q.outPos + q.size) % q.capacity

@[simp] theorem contents_length (q : UsQueue α) : q.contents.length = q.size := by
  simp [contents]

theorem wf_init {capacity : Nat} (h : 0 < capacity) :
    (usQueueInit capacity : UsQueue α).Wf where
  items_length := by simp [usQueueInit]
  size_le := Nat.zero_le _
  outPos_lt := h
  inPos_eq := by simp [usQueueInit]

omit [Inhabited α] in
theorem wf_put {q q' : UsQueue α} {x : α} (h : q.Wf) (hp : usQueuePut q x = some q') :
    q'.Wf := by
  unfold usQueuePut at hp
  split at hp
  · exact absurd hp (by simp)
  · rename_i hfull
    obtain rfl := Option.some.inj hp
    have hle := h.size_le
    refine ⟨by simpa using h.items_length, by show q.size + 1 ≤ q.capacity; omega,
      h.outPos_lt, ?_⟩
    show (q.inPos + 1) % q.capacity = (q.outPos + (q.size + 1)) % q.capacity
    rw [h.inPos_eq, Nat.mod_add_mod, Nat.add_assoc]

theorem wf_get {q q' : UsQueue α} {x : α} (h : q.Wf) (hg : usQueueGet q = some (x, q')) :
    q'.Wf := by
  unfold usQueueGet at hg
  split at hg
  · exact absurd hg (by simp)
  · rename_i hne
    simp only [Option.some.injEq, Prod.mk.injEq] at hg
    obtain ⟨-, rfl⟩ := hg
    have hle := h.size_le
    have hcap : 0 < q.capacity := Nat.lt_of_le_of_lt (Nat.zero_le _) h.outPos_lt
    refine ⟨h.items_length, by show q.size - 1 ≤ q.capacity; omega, Nat.mod_lt _ hcap, ?_⟩
    show q.inPos = ((q.outPos + 1) % q.capacity + (q.size - 1)) % q.capacity
    rw [h.inPos_eq, Nat.mod_add_mod]
    congr 1
    omega

omit [Inhabited α] in
/-- The slots of the pending items and the slot of the next put are all different. -/
theorem slot_ne_inPos {q : UsQueue α} (h : q.Wf) (hroom : q.size < q.capacity) {i : Nat}
    (hi : i < q.size) : q.inPos ≠ (q.outPos + i) % q.capacity := by
  rw [h.inPos_eq]
  intro he
  have hmod : q.size ≡ i [MOD q.capacity] := Nat.ModEq.add_left_cancel' _ he
  have : q.size = i := Nat.ModEq.eq_of_lt_of_lt hmod hroom (by omega)
  omega

/-- **A put appends.** -/
theorem contents_put {q q' : UsQueue α} {x : α} (h : q.Wf) (hp : usQueuePut q x = some q') :
    q'.contents = q.contents ++ [x] := by
  unfold usQueuePut at hp
  split at hp
  · exact absurd hp (by simp)
  · rename_i hfull
    obtain rfl := Option.some.inj hp
    have hroom : q.size < q.capacity := Nat.lt_of_le_of_ne h.size_le hfull
    have hin : q.inPos < q.items.length := by
      rw [h.items_length, h.inPos_eq]
      exact Nat.mod_lt _ (by omega)
    simp only [contents, List.range_succ, List.map_append, List.map_cons, List.map_nil]
    congr 1
    · refine List.map_congr_left fun i hi => ?_
      have hne := slot_ne_inPos h hroom (List.mem_range.mp hi)
      simp [List.getD_eq_getElem?_getD, List.getElem?_set_ne hne]
    · rw [← h.inPos_eq]
      simp [List.getD_eq_getElem?_getD, List.getElem?_set_self hin]

/-- **A get takes the oldest item.** -/
theorem contents_get {q q' : UsQueue α} {x : α} (hg : usQueueGet q = some (x, q')) (h : q.Wf) :
    q.contents = x :: q'.contents := by
  unfold usQueueGet at hg
  split at hg
  · exact absurd hg (by simp)
  · rename_i hne
    simp only [Option.some.injEq, Prod.mk.injEq] at hg
    obtain ⟨rfl, rfl⟩ := hg
    obtain ⟨n, hn⟩ := Nat.exists_eq_succ_of_ne_zero hne
    simp only [contents, hn, List.range_succ_eq_map, List.map_cons, List.map_map,
      Nat.succ_eq_add_one, Nat.add_sub_cancel, Nat.add_zero, Nat.mod_eq_of_lt h.outPos_lt,
      List.cons.injEq, true_and]
    refine List.map_congr_left fun i _ => ?_
    simp only [Function.comp_apply, Nat.mod_add_mod]
    congr 2
    omega

end UsQueue

/-! ## 3. Queues of the program

A `Queue` is a buffer together with its shape, so the operations need no side condition. -/

/-- A `us_queue_s` as `us_queue_init` and the operations leave it. -/
def Queue (α : Type) [Inhabited α] : Type := { q : UsQueue α // q.Wf }

namespace Queue

/-- `us_queue_init` with a positive capacity, as every caller has it. -/
def init (capacity : Nat) (h : 0 < capacity) : Queue α :=
  ⟨usQueueInit capacity, UsQueue.wf_init h⟩

def put (q : Queue α) (x : α) : Option (Queue α) :=
  match h : usQueuePut q.1 x with
  | none => none
  | some q' => some ⟨q', UsQueue.wf_put q.2 h⟩

def get (q : Queue α) : Option (α × Queue α) :=
  match h : usQueueGet q.1 with
  | none => none
  | some (x, q') => some (x, ⟨q', UsQueue.wf_get q.2 h⟩)

def isEmpty (q : Queue α) : Bool := usQueueIsEmpty q.1

def capacity (q : Queue α) : Nat := q.1.capacity

def toList (q : Queue α) : List α := q.1.contents

theorem put_eq_some {q q' : Queue α} {x : α} (h : q.put x = some q') :
    usQueuePut q.1 x = some q'.1 := by
  unfold put at h
  split at h
  · exact absurd h (by simp)
  · rename_i q1 h1
    obtain rfl := Option.some.inj h
    exact h1

theorem get_eq_some {q q' : Queue α} {x : α} (h : q.get = some (x, q')) :
    usQueueGet q.1 = some (x, q'.1) := by
  unfold get at h
  split at h
  · exact absurd h (by simp)
  · rename_i x1 q1 h1
    cases h
    exact h1

@[simp] theorem toList_init {n : Nat} (h : 0 < n) : (init n h : Queue α).toList = [] := rfl

@[simp] theorem capacity_init {n : Nat} (h : 0 < n) : (init n h : Queue α).capacity = n := rfl

/-- A put fails exactly on a full queue. -/
theorem put_eq_none_iff {q : Queue α} {x : α} :
    q.put x = none ↔ q.toList.length = q.capacity := by
  unfold put toList capacity
  split
  · rename_i h
    unfold usQueuePut at h
    split at h
    · rename_i he; simpa using he
    · exact absurd h (by simp)
  · rename_i q1 h
    unfold usQueuePut at h
    split at h
    · exact absurd h (by simp)
    · rename_i he; simpa using he

theorem toList_put {q q' : Queue α} {x : α} (h : q.put x = some q') :
    q'.toList = q.toList ++ [x] :=
  UsQueue.contents_put q.2 (put_eq_some h)

theorem capacity_put {q q' : Queue α} {x : α} (h : q.put x = some q') :
    q'.capacity = q.capacity := by
  have h1 := put_eq_some h
  unfold usQueuePut at h1
  split at h1
  · exact absurd h1 (by simp)
  · exact (congrArg UsQueue.capacity (Option.some.inj h1)).symm

/-- With room in the queue the put goes through. -/
theorem put_of_lt {q : Queue α} (h : q.toList.length < q.capacity) (x : α) :
    ∃ q', q.put x = some q' := by
  cases hp : q.put x with
  | none => have := put_eq_none_iff.mp hp; omega
  | some q' => exact ⟨q', rfl⟩

/-- A get fails exactly on an empty queue. -/
theorem get_eq_none_iff {q : Queue α} : q.get = none ↔ q.toList = [] := by
  unfold get toList
  rw [← List.length_eq_zero_iff, UsQueue.contents_length]
  split
  · rename_i h
    unfold usQueueGet at h
    split at h
    · rename_i he; simpa using he
    · exact absurd h (by simp)
  · rename_i x q1 h
    unfold usQueueGet at h
    split at h
    · exact absurd h (by simp)
    · rename_i he; simpa using he

theorem toList_get {q q' : Queue α} {x : α} (h : q.get = some (x, q')) :
    q.toList = x :: q'.toList :=
  UsQueue.contents_get (get_eq_some h) q.2

theorem capacity_get {q q' : Queue α} {x : α} (h : q.get = some (x, q')) :
    q'.capacity = q.capacity := by
  have h1 := get_eq_some h
  unfold usQueueGet at h1
  split at h1
  · exact absurd h1 (by simp)
  · simp only [Option.some.injEq, Prod.mk.injEq] at h1
    exact (congrArg UsQueue.capacity h1.2).symm

/-- **`us_queue_is_empty` says "not full".** -/
theorem isEmpty_eq_true_iff {q : Queue α} :
    q.isEmpty = true ↔ q.toList.length < q.capacity := by
  have hle := q.2.size_le
  simp only [isEmpty, usQueueIsEmpty, toList, capacity, UsQueue.contents_length,
    decide_eq_true_eq]
  omega

end Queue

end TinyPilotKvm
