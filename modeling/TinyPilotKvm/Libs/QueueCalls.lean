/-
# Calls of `us_queue_put` and `us_queue_get`, and the bounded first-in first-out list

A call takes the mutex and looks at the size of the queue.  Either it does its work and returns 0,
or it waits on a condition variable, which gives the mutex up.  When it has the mutex again it looks
again, also after a spurious wakeup; but **after a timeout it returns -1 without another look**.

Any number of threads call, and a step is what one of them does while it has the mutex.

* `Fifo` is a list with a capacity, with what an attempt to put or to get does to it.
* `us_queue_refines_fifo`: in every run the attempts are a run of a `Fifo` that ends at the contents
  of the queue, and what a call returns is the answer to its last attempt.
-/
import Mathlib.Data.List.Basic
import Mathlib.Logic.Function.Basic
import TinyPilotKvm.Libs.Queue
import TinyPilotKvm.Transition

namespace TinyPilotKvm

/-! ## 1. Bounded lists -/

/-- A call, with the item to put, and whether its timeout is 0. -/
inductive QueueCall (α : Type)
  | put (item : α) (timeoutIsZero : Bool)
  | get

/-- -1, or 0 with the item that a `get` has taken. -/
inductive QueueAnswer (α : Type)
  | failed
  | done (item : Option α)

namespace Fifo

variable {α : Type} {capacity : Nat}

/-- What an attempt with its answer does to a list of at most `capacity` items. -/
inductive Step (capacity : Nat) : List α → QueueCall α × QueueAnswer α → List α → Prop
  | put {l : List α} {item : α} {timeoutIsZero : Bool} : l.length < capacity →
      Step capacity l (.put item timeoutIsZero, .done none) (l ++ [item])
  | full {l : List α} {item : α} {timeoutIsZero : Bool} : l.length = capacity →
      Step capacity l (.put item timeoutIsZero, .failed) l
  | get {l : List α} {item : α} : Step capacity (item :: l) (.get, .done (some item)) l
  | empty : Step capacity [] (.get, .failed) []

/-- The attempts of a list, first to last. -/
inductive Run (capacity : Nat) : List α → List (QueueCall α × QueueAnswer α) → List α → Prop
  | nil (l : List α) : Run capacity l [] l
  | snoc {l l' l'' : List α} {attempts : List (QueueCall α × QueueAnswer α)}
      {attempt : QueueCall α × QueueAnswer α} : Run capacity l attempts l' →
      Step capacity l' attempt l'' → Run capacity l (attempts ++ [attempt]) l''

/-- The item of a `put` that is done. -/
def itemPut : QueueCall α × QueueAnswer α → Option α
  | (.put item _, .done _) => some item
  | _ => none

/-- The item of a `get` that is done. -/
def itemGot : QueueCall α × QueueAnswer α → Option α
  | (.get, .done item) => item
  | _ => none

theorem Step.conserves {l l' : List α} {attempt : QueueCall α × QueueAnswer α}
    (h : Step capacity l attempt l') :
    l ++ (itemPut attempt).toList = (itemGot attempt).toList ++ l' := by
  cases h <;> simp [itemPut, itemGot]

/-- **The items put and not yet got are there, in order.** -/
theorem Run.conserves {l l' : List α} {attempts : List (QueueCall α × QueueAnswer α)}
    (h : Run capacity l attempts l') :
    l ++ attempts.filterMap itemPut = attempts.filterMap itemGot ++ l' := by
  induction h with
  | nil => simp
  | @snoc l' l'' attempts attempt _ hstep ih =>
    have hsingle (f : QueueCall α × QueueAnswer α → Option α) :
        [attempt].filterMap f = (f attempt).toList := by
      cases hf : f attempt <;> simp [hf]
    calc l ++ (attempts ++ [attempt]).filterMap itemPut
        = (l ++ attempts.filterMap itemPut) ++ (itemPut attempt).toList := by
          rw [List.filterMap_append, hsingle, List.append_assoc]
      _ = attempts.filterMap itemGot ++ (l' ++ (itemPut attempt).toList) := by
          rw [ih, List.append_assoc]
      _ = attempts.filterMap itemGot ++ ((itemGot attempt).toList ++ l'') := by
          rw [hstep.conserves]
      _ = (attempts ++ [attempt]).filterMap itemGot ++ l'' := by
          rw [List.filterMap_append, hsingle, List.append_assoc]

/-- The last attempt of a run. -/
theorem Run.last {l l'' : List α} {attempts : List (QueueCall α × QueueAnswer α)}
    {attempt : QueueCall α × QueueAnswer α} (h : Run capacity l (attempts ++ [attempt]) l'') :
    ∃ l', Run capacity l attempts l' ∧ Step capacity l' attempt l'' := by
  generalize hall : attempts ++ [attempt] = all at h
  cases h with
  | nil => exact absurd hall (by simp)
  | snoc hrun hstep =>
    obtain ⟨rfl, hlast⟩ := List.append_inj' hall rfl
    obtain rfl := List.singleton_inj.mp hlast
    exact ⟨_, hrun, hstep⟩

/-- A failed attempt finds the list full, or empty, and leaves it so. -/
theorem Step.of_failed {l l' : List α} {call : QueueCall α}
    (h : Step capacity l (call, .failed) l') : l' = l := by
  cases h <;> rfl

end Fifo

/-! ## 2. The calls -/

variable {α : Type} [Inhabited α]

/-- What a thread does while it has the mutex: at the start of a call, when its wait is over, or
when its wait has timed out. -/
inductive QueueSection (α : Type)
  | enter (thread : Nat) (call : QueueCall α)
  | wake (thread : Nat)
  | expire (thread : Nat)

/-- What has happened to a call. -/
inductive QueueEntry (α : Type)
  | attempt (thread : Nat) (call : QueueCall α) (answer : QueueAnswer α)
  | returned (thread : Nat) (call : QueueCall α) (answer : QueueAnswer α)

/-- The queue, the calls that wait, and what has happened, which the code does not record. -/
structure QueueCallers (α : Type) where
  queue : UsQueue α
  waiting : Nat → Option (QueueCall α)
  history : List (QueueEntry α)

/-- The work of a call, if the size is right. -/
def usQueueAttempt (q : UsQueue α) : QueueCall α → Option (Option α × UsQueue α)
  | .put item _ => (usQueuePut q item).map fun q' => (none, q')
  | .get => (usQueueGet q).map fun r => (some r.1, r.2)

/-- A `put` with timeout 0 does not wait. -/
def QueueCall.waits : QueueCall α → Bool
  | put _ timeoutIsZero => !timeoutIsZero
  | get => true

/-- A look at the size, and what follows from it. -/
def QueueCallers.look (s : QueueCallers α) (thread : Nat) (call : QueueCall α) : QueueCallers α :=
  match usQueueAttempt s.queue call with
  | some (item, queue) =>
    { queue := queue
      waiting := Function.update s.waiting thread none
      history := s.history ++
        [QueueEntry.attempt thread call (.done item), .returned thread call (.done item)] }
  | none =>
    if call.waits then
      { s with
        waiting := Function.update s.waiting thread (some call)
        history := s.history ++ [QueueEntry.attempt thread call .failed] }
    else
      { s with
        waiting := Function.update s.waiting thread none
        history := s.history ++
          [QueueEntry.attempt thread call .failed, .returned thread call .failed] }

/-- `_WAIT_OR_UNLOCK` after a timeout. -/
def QueueCallers.giveUp (s : QueueCallers α) (thread : Nat) (call : QueueCall α) :
    QueueCallers α :=
  { s with
    waiting := Function.update s.waiting thread none
    history := s.history ++ [QueueEntry.returned thread call .failed] }

/-- `us_queue_put` and `us_queue_get`, by any threads, on a queue of `us_queue_init`. -/
def queueCalls (capacity : Nat) : System (QueueCallers α) (QueueSection α) where
  start s := s = ⟨usQueueInit capacity, fun _ => none, []⟩
  step s
    | .enter thread call => if (s.waiting thread).isNone then some (s.look thread call) else none
    | .wake thread => (s.waiting thread).map (s.look thread)
    | .expire thread => (s.waiting thread).map (s.giveUp thread)

def QueueEntry.thread : QueueEntry α → Nat
  | attempt thread _ _ | returned thread _ _ => thread

/-- The attempts of a history. -/
def QueueEntry.attempt? : QueueEntry α → Option (QueueCall α × QueueAnswer α)
  | attempt _ call answer => some (call, answer)
  | returned _ _ _ => none

/-- The last entry about a thread. -/
def lastOf (thread : Nat) (history : List (QueueEntry α)) : Option (QueueEntry α) :=
  (history.filter (·.thread = thread)).getLast?

/-- Every return gives the answer to the last attempt of its thread. -/
inductive Answered : List (QueueEntry α) → Prop
  | nil : Answered []
  | attempt {history : List (QueueEntry α)} (thread : Nat) (call : QueueCall α)
      (answer : QueueAnswer α) : Answered history →
      Answered (history ++ [.attempt thread call answer])
  | returned {history : List (QueueEntry α)} {thread : Nat} {call : QueueCall α}
      {answer : QueueAnswer α} : Answered history →
      lastOf thread history = some (.attempt thread call answer) →
      Answered (history ++ [.returned thread call answer])

/-! ## 3. An attempt -/

omit [Inhabited α] in
theorem usQueuePut_eq_some {q q' : UsQueue α} {item : α} (h : usQueuePut q item = some q') :
    q.size ≠ q.capacity ∧ q'.capacity = q.capacity := by
  unfold usQueuePut at h
  split at h
  · cases h
  · rename_i hsize
    obtain rfl := Option.some.inj h
    exact ⟨hsize, rfl⟩

theorem usQueueGet_eq_some {q q' : UsQueue α} {item : α} (h : usQueueGet q = some (item, q')) :
    q'.capacity = q.capacity := by
  unfold usQueueGet at h
  split at h
  · cases h
  · cases h
    rfl

/-- An attempt that succeeds is a step of the bounded list. -/
theorem usQueueAttempt_some {q q' : UsQueue α} {call : QueueCall α} {item : Option α} (hq : q.Wf)
    (h : usQueueAttempt q call = some (item, q')) :
    q'.Wf ∧ q'.capacity = q.capacity ∧
      Fifo.Step q.capacity q.contents (call, .done item) q'.contents := by
  cases call with
  | put x timeoutIsZero =>
    obtain ⟨q1, hput, heq⟩ := Option.map_eq_some_iff.mp h
    obtain ⟨rfl, rfl⟩ := Prod.mk.inj heq
    obtain ⟨hsize, hcapacity⟩ := usQueuePut_eq_some hput
    have hroom : q.contents.length < q.capacity := by
      rw [UsQueue.contents_length]
      exact Nat.lt_of_le_of_ne hq.size_le hsize
    refine ⟨UsQueue.wf_put hq hput, hcapacity, ?_⟩
    rw [UsQueue.contents_put hq hput]
    exact Fifo.Step.put hroom
  | get =>
    obtain ⟨⟨x, q1⟩, hget, heq⟩ := Option.map_eq_some_iff.mp h
    obtain ⟨rfl, rfl⟩ := Prod.mk.inj heq
    refine ⟨UsQueue.wf_get hq hget, usQueueGet_eq_some hget, ?_⟩
    rw [UsQueue.contents_get hget hq]
    exact Fifo.Step.get

/-- **An attempt fails only if the queue is full, or empty.** -/
theorem usQueueAttempt_none {q : UsQueue α} {call : QueueCall α}
    (h : usQueueAttempt q call = none) :
    Fifo.Step q.capacity q.contents (call, .failed) q.contents := by
  cases call with
  | put x timeoutIsZero =>
    have hput : usQueuePut q x = none := Option.map_eq_none_iff.mp h
    unfold usQueuePut at hput
    split at hput
    · rename_i hfull
      exact Fifo.Step.full (by rw [UsQueue.contents_length, hfull])
    · cases hput
  | get =>
    have hget : usQueueGet q = none := Option.map_eq_none_iff.mp h
    unfold usQueueGet at hget
    split at hget
    · rename_i hempty
      have hnil : q.contents = [] := by
        rw [← List.length_eq_zero_iff, UsQueue.contents_length, hempty]
      rw [hnil]
      exact Fifo.Step.empty
    · cases hget

/-! ## 4. The history -/

omit [Inhabited α] in
theorem lastOf_attempt (thread : Nat) (call : QueueCall α) (answer : QueueAnswer α)
    (history : List (QueueEntry α)) :
    lastOf thread (history ++ [.attempt thread call answer])
      = some (.attempt thread call answer) := by
  simp [lastOf, QueueEntry.thread]

/-- What holds between the sections. -/
structure QueueInv (capacity : Nat) (s : QueueCallers α) : Prop where
  wf : s.queue.Wf
  capacity_eq : s.queue.capacity = capacity
  fifo : Fifo.Run capacity [] (s.history.filterMap QueueEntry.attempt?) s.queue.contents
  answered : Answered s.history
  /-- The last attempt of a call that waits has failed. -/
  waiting : ∀ thread call, s.waiting thread = some call →
    lastOf thread s.history = some (.attempt thread call .failed)

theorem QueueInv.start {capacity : Nat} (h : 1 ≤ capacity) {s : QueueCallers α}
    (hs : (queueCalls capacity).start s) : QueueInv capacity s := by
  obtain rfl : s = ⟨usQueueInit capacity, fun _ => none, []⟩ := hs
  refine ⟨UsQueue.wf_init h, rfl, Fifo.Run.nil [], Answered.nil, ?_⟩
  intro thread call hwaiting
  cases hwaiting

omit [Inhabited α] in
/-- An attempt with its answer, and the return. -/
theorem Answered.attempt_returned {history : List (QueueEntry α)} (h : Answered history)
    (thread : Nat) (call : QueueCall α) (answer : QueueAnswer α) :
    Answered (history ++
      [QueueEntry.attempt thread call answer, .returned thread call answer]) := by
  have hattempt := h.attempt thread call answer
  have hreturned := hattempt.returned (lastOf_attempt thread call answer history)
  rwa [List.append_assoc] at hreturned

omit [Inhabited α] in
/-- The entries of one thread leave the calls of the others as they were. -/
theorem waiting_other {s : QueueCallers α} {thread : Nat} {waits : Option (QueueCall α)}
    (hinv : ∀ other call, s.waiting other = some call →
      lastOf other s.history = some (.attempt other call .failed))
    {entries : List (QueueEntry α)} (hentries : ∀ entry ∈ entries, entry.thread = thread)
    (hown : ∀ call, waits = some call →
      lastOf thread (s.history ++ entries) = some (.attempt thread call .failed)) :
    ∀ other call, Function.update s.waiting thread waits other = some call →
      lastOf other (s.history ++ entries) = some (.attempt other call .failed) := by
  intro other call hwaiting
  by_cases hother : other = thread
  · subst hother
    rw [Function.update_self] at hwaiting
    exact hown call hwaiting
  · rw [Function.update_of_ne hother] at hwaiting
    have hsame : (s.history ++ entries).filter (·.thread = other)
        = s.history.filter (·.thread = other) := by
      have hnone : entries.filter (·.thread = other) = [] := by
        rw [List.filter_eq_nil_iff]
        intro entry hentry
        rw [hentries entry hentry]
        simpa using Ne.symm hother
      rw [List.filter_append, hnone, List.append_nil]
    unfold lastOf
    rw [hsame]
    exact hinv other call hwaiting

/-- A look keeps what holds. -/
theorem QueueInv.look {capacity : Nat} {s : QueueCallers α} (h : QueueInv capacity s)
    (thread : Nat) (call : QueueCall α) : QueueInv capacity (s.look thread call) := by
  unfold QueueCallers.look
  split
  · rename_i item queue hattempt
    obtain ⟨hwf, hcapacity, hstep⟩ := usQueueAttempt_some h.wf hattempt
    rw [h.capacity_eq] at hcapacity hstep
    refine ⟨hwf, hcapacity, ?_, h.answered.attempt_returned thread call _, ?_⟩
    · rw [List.filterMap_append]
      exact h.fifo.snoc hstep
    · refine waiting_other h.waiting ?_ ?_
      · simp [QueueEntry.thread]
      · intro call' hcall
        cases hcall
  · rename_i hattempt
    have hstep := usQueueAttempt_none hattempt
    rw [h.capacity_eq] at hstep
    split
    · refine ⟨h.wf, h.capacity_eq, ?_, h.answered.attempt thread call _, ?_⟩
      · rw [List.filterMap_append]
        exact h.fifo.snoc hstep
      · refine waiting_other h.waiting ?_ ?_
        · simp [QueueEntry.thread]
        · intro call' hcall
          cases hcall
          exact lastOf_attempt thread call .failed s.history
    · refine ⟨h.wf, h.capacity_eq, ?_, h.answered.attempt_returned thread call _, ?_⟩
      · rw [List.filterMap_append]
        exact h.fifo.snoc hstep
      · refine waiting_other h.waiting ?_ ?_
        · simp [QueueEntry.thread]
        · intro call' hcall
          cases hcall

/-- A timeout keeps what holds. -/
theorem QueueInv.giveUp {capacity : Nat} {s : QueueCallers α} (h : QueueInv capacity s)
    {thread : Nat} {call : QueueCall α} (hwaiting : s.waiting thread = some call) :
    QueueInv capacity (s.giveUp thread call) := by
  refine ⟨h.wf, h.capacity_eq, ?_, h.answered.returned (h.waiting thread call hwaiting), ?_⟩
  · show Fifo.Run capacity [] ((s.history ++ [QueueEntry.returned thread call .failed]).filterMap
      QueueEntry.attempt?) s.queue.contents
    rw [List.filterMap_append]
    exact (List.append_nil _).symm ▸ h.fifo
  · refine waiting_other h.waiting ?_ ?_
    · simp [QueueEntry.thread]
    · intro call' hcall
      cases hcall

theorem QueueInv.step {capacity : Nat} {s s' : QueueCallers α} {a : QueueSection α}
    (h : QueueInv capacity s) (hstep : (queueCalls capacity).step s a = some s') :
    QueueInv capacity s' := by
  cases a with
  | enter thread call =>
    obtain ⟨-, rfl⟩ : (s.waiting thread).isNone ∧ s.look thread call = s' := by
      simpa [queueCalls] using hstep
    exact h.look thread call
  | wake thread =>
    obtain ⟨call, -, rfl⟩ := Option.map_eq_some_iff.mp hstep
    exact h.look thread call
  | expire thread =>
    obtain ⟨call, hwaiting, rfl⟩ := Option.map_eq_some_iff.mp hstep
    exact h.giveUp hwaiting

theorem QueueInv.of_reach {capacity : Nat} (h : 1 ≤ capacity) {s : QueueCallers α}
    (hr : (queueCalls capacity).Reach s) : QueueInv capacity s :=
  hr.inv (fun _ hs => QueueInv.start h hs) fun _ _ _ hinv _ hstep => hinv.step hstep

/-- A call that has failed at its attempt, and no other since, leaves the queue full, or empty. -/
theorem QueueInv.in_turn {capacity : Nat} {s : QueueCallers α} (h : QueueInv capacity s)
    {thread : Nat} {call : QueueCall α}
    (hlast : s.history.getLast? = some (.attempt thread call .failed)) :
    Fifo.Step capacity s.queue.contents (call, .failed) s.queue.contents := by
  have hfifo := h.fifo
  rw [← List.dropLast_append_getLast? _ hlast, List.filterMap_append] at hfifo
  have hrun : Fifo.Run capacity [] (_ ++ [(call, QueueAnswer.failed)]) s.queue.contents := hfifo
  obtain ⟨l, -, hstep⟩ := hrun.last
  obtain rfl := hstep.of_failed
  exact hstep

/-! ## 5. The refinement -/

/-- A queue with its calls is a bounded list with its attempts. -/
structure RefinesFifo (capacity : Nat) (s : QueueCallers α) : Prop where
  fifo : Fifo.Run capacity [] (s.history.filterMap QueueEntry.attempt?) s.queue.contents
  /-- All items put are those got and then those in the queue. -/
  conserves : (s.history.filterMap QueueEntry.attempt?).filterMap Fifo.itemPut
    = (s.history.filterMap QueueEntry.attempt?).filterMap Fifo.itemGot ++ s.queue.contents
  answered : Answered s.history
  length_eq : s.queue.contents.length = s.queue.size
  inPos_eq : s.queue.inPos = (s.queue.outPos + s.queue.size) % capacity
  size_le : s.queue.size ≤ capacity
  /-- Calls in turn: a `put` that has waited in vain leaves the queue full, a `get` empty. -/
  in_turn : ∀ thread call, s.history.getLast? = some (.attempt thread call .failed) →
    Fifo.Step capacity s.queue.contents (call, .failed) s.queue.contents
  /-- The queue changes only where a call succeeds. -/
  unchanged : ∀ a s', (queueCalls capacity).step s a = some s' → s'.queue = s.queue ∨
    ∃ thread call item, s'.history = s.history ++
      [QueueEntry.attempt thread call (.done item), .returned thread call (.done item)]

theorem QueueCallers.look_queue (s : QueueCallers α) (thread : Nat) (call : QueueCall α) :
    (s.look thread call).queue = s.queue ∨ ∃ item, (s.look thread call).history = s.history ++
      [QueueEntry.attempt thread call (.done item), .returned thread call (.done item)] := by
  unfold QueueCallers.look
  split
  · exact Or.inr ⟨_, rfl⟩
  · split <;> exact Or.inl rfl

theorem queueCalls_unchanged {capacity : Nat} {s s' : QueueCallers α} {a : QueueSection α}
    (hstep : (queueCalls capacity).step s a = some s') : s'.queue = s.queue ∨
      ∃ thread call item, s'.history = s.history ++
        [QueueEntry.attempt thread call (.done item), .returned thread call (.done item)] := by
  have hlook (thread : Nat) (call : QueueCall α) (hs : s.look thread call = s') :
      s'.queue = s.queue ∨ ∃ thread call item, s'.history = s.history ++
        [QueueEntry.attempt thread call (.done item), .returned thread call (.done item)] := by
    subst hs
    rcases s.look_queue thread call with h | ⟨item, h⟩
    · exact Or.inl h
    · exact Or.inr ⟨thread, call, item, h⟩
  cases a with
  | enter thread call =>
    obtain ⟨-, hs⟩ : (s.waiting thread).isNone ∧ s.look thread call = s' := by
      simpa [queueCalls] using hstep
    exact hlook thread call hs
  | wake thread =>
    obtain ⟨call, -, hs⟩ := Option.map_eq_some_iff.mp hstep
    exact hlook thread call hs
  | expire thread =>
    obtain ⟨call, -, rfl⟩ := Option.map_eq_some_iff.mp hstep
    exact Or.inl rfl

/-- **`us_queue` is a bounded first-in first-out list**, in every run of calls by any threads. -/
theorem us_queue_refines_fifo {capacity : Nat} (h : 1 ≤ capacity) {s : QueueCallers α}
    (hr : (queueCalls capacity).Reach s) : RefinesFifo capacity s := by
  have hinv := QueueInv.of_reach h hr
  refine ⟨hinv.fifo, ?_, hinv.answered, UsQueue.contents_length _, ?_, ?_, ?_, ?_⟩
  · simpa using hinv.fifo.conserves
  · rw [← hinv.capacity_eq]
    exact hinv.wf.inPos_eq
  · rw [← hinv.capacity_eq]
    exact hinv.wf.size_le
  · intro thread call hlast
    exact hinv.in_turn hlast
  · intro a s' hstep
    exact queueCalls_unchanged hstep

/-- Two puts into a queue of one item: the second waits in vain. -/
theorem us_queue_refines_fifo_timeout :
    ∃ s : QueueCallers Nat, (queueCalls 1).exec ⟨usQueueInit 1, fun _ => none, []⟩
        [.enter 0 (.put 7 true), .enter 1 (.put 8 false), .wake 1, .expire 1] = some s ∧
      s.queue.contents = [7] ∧ RefinesFifo 1 s :=
  ⟨_, rfl, rfl, us_queue_refines_fifo (le_refl 1) (System.Reach.exec
    [.enter 0 (.put 7 true), .enter 1 (.put 8 false), .wake 1, .expire 1] (.start rfl) rfl)⟩

end TinyPilotKvm
