/-
# The newest buffer (`_get_latest_hw` of `ustreamer/stream.c`)

A worker takes its next buffer with `_get_latest_hw`: one timed get, then a loop that is to drain
the queue ("take only the freshest frame") and to drop every older buffer on the way.  The loop runs
while `!us_queue_is_empty(queue)`, and `us_queue_is_empty` is true of every queue that is not FULL.
After the first get the queue is not full, so by itself the loop never turns:

* `getLatestHw_cons`: the function returns the OLDEST buffer and leaves the others in the queue;
* `newestWins_iff`: it is what it is for on the queues with at most one buffer;
* `reget_succeeds`: its assertion holds in every run of the stream, also when the stream loop puts
  buffers between its gets.
-/
import TinyPilotKvm.Ustreamer.StreamRefs

namespace TinyPilotKvm

/-! ## 1. The function -/

/-- What `_get_latest_hw` returns, `none` for the null pointer, and what it leaves. -/
structure LatestHw where
  hw : Option Nat
  queue : Queue Nat
  run : UsCaptureRuntime

/-- The loop of `_get_latest_hw`.  `none`: the assertion fails. -/
def drainToLatest (hw : Nat) (queue : Queue Nat) (run : UsCaptureRuntime) : Option LatestHw :=
  if queue.isEmpty then some ⟨some hw, queue, run⟩
  else
    match _h : queue.get with
    | none => none
    | some (hw', queue') => drainToLatest hw' queue' (usCaptureHwbufDecref run hw)
termination_by queue.toList.length
decreasing_by
  rw [Queue.toList_get _h]
  exact Nat.lt_succ_self _

/-- `_get_latest_hw` on the queue at the end of its wait: it is empty only if nothing has come in
0.1 s. -/
def getLatestHw (queue : Queue Nat) (run : UsCaptureRuntime) : Option LatestHw :=
  match queue.get with
  | none => some ⟨none, queue, run⟩
  | some (hw, queue') => drainToLatest hw queue' run

/-- The loop ends at once on a queue that is not full. -/
theorem drainToLatest_of_lt {hw : Nat} {queue : Queue Nat} {run : UsCaptureRuntime}
    (h : queue.toList.length < queue.capacity) :
    drainToLatest hw queue run = some ⟨some hw, queue, run⟩ := by
  rw [drainToLatest, if_pos (Queue.isEmpty_eq_true_iff.mpr h)]

/-- A queue that something has been taken from is not full. -/
theorem Queue.length_lt_of_get {α : Type} [Inhabited α] {q q' : Queue α} {x : α}
    (h : q.get = some (x, q')) : q'.toList.length < q'.capacity := by
  have hle : q.toList.length ≤ q.capacity := by
    rw [Queue.toList, UsQueue.contents_length]
    exact q.2.size_le
  rw [Queue.capacity_get h]
  rw [Queue.toList_get h, List.length_cons] at hle
  omega

/-- When nothing arrives, nothing happens. -/
theorem getLatestHw_nil {queue : Queue Nat} (h : queue.toList = []) (run : UsCaptureRuntime) :
    getLatestHw queue run = some ⟨none, queue, run⟩ := by
  rw [getLatestHw, Queue.get_eq_none_iff.mpr h]

/-- **What it does**: one get. -/
theorem getLatestHw_cons {queue : Queue Nat} {oldest : Nat} {rest : List Nat}
    (h : queue.toList = oldest :: rest) (run : UsCaptureRuntime) :
    ∃ queue', queue'.toList = rest ∧
      getLatestHw queue run = some ⟨some oldest, queue', run⟩ := by
  cases hget : queue.get with
  | none =>
    rw [Queue.get_eq_none_iff.mp hget] at h
    exact absurd h (by simp)
  | some r =>
    obtain ⟨hw, queue'⟩ := r
    have hlist := Queue.toList_get hget
    rw [h] at hlist
    obtain ⟨rfl, rfl⟩ := List.cons.inj hlist
    refine ⟨queue', rfl, ?_⟩
    rw [getLatestHw, hget]
    exact drainToLatest_of_lt (Queue.length_lt_of_get hget)

/-! ## 2. What it is for -/

/-- **The newest buffer wins.**  On an empty queue the null pointer comes back and no count changes.
Else the assertion holds, the last buffer that was put comes back, the queue is empty, and each
other buffer has lost one reference for its place in the queue. -/
def NewestWins (queue : Queue Nat) (run : UsCaptureRuntime) : Prop :=
  (queue.toList = [] → ∃ r, getLatestHw queue run = some r ∧ r.hw = none ∧ r.run = run) ∧
  ∀ older newest, queue.toList = older ++ [newest] →
    ∃ r, getLatestHw queue run = some r ∧ r.hw = some newest ∧ r.queue.toList = [] ∧
      ∀ b, (r.run.hw b).refs = (run.hw b).refs - older.count b

theorem newestWins_iff {queue : Queue Nat} {run : UsCaptureRuntime} :
    NewestWins queue run ↔ queue.toList.length ≤ 1 := by
  constructor
  · intro h
    cases hq : queue.toList with
    | nil => simp
    | cons oldest rest =>
      obtain ⟨queue', hrest, hcall⟩ := getLatestHw_cons hq run
      have hsplit := List.dropLast_append_getLast (List.cons_ne_nil oldest rest)
      obtain ⟨r, hr, -, hempty, -⟩ := h.2 _ _ (hq.trans hsplit.symm)
      rw [hcall] at hr
      obtain rfl := Option.some.inj hr
      have hnil : rest = [] := hrest.symm.trans hempty
      rw [hnil]
      exact le_refl _
  · intro h
    refine ⟨fun hnil => ⟨_, getLatestHw_nil hnil run, rfl, rfl⟩, fun older newest hq => ?_⟩
    have holder : older = [] := by
      rw [hq, List.length_append, List.length_singleton] at h
      exact List.length_eq_zero_iff.mp (by omega)
    rw [holder] at hq
    obtain ⟨queue', hrest, hcall⟩ := getLatestHw_cons hq run
    exact ⟨_, hcall, rfl, hrest, fun b => by simp [holder]⟩

/-- Two buffers in the queue of a JPEG worker, 0 before 1: the worker gets 0, and 1 stays. -/
theorem newest_buffer_stays_behind : ∃ queue : Queue Nat,
    ((Queue.init 5 (by decide)).put 0).bind (fun q => q.put 1) = some queue ∧
      (∃ queue', getLatestHw queue (freshCapture 5).run
        = some ⟨some 0, queue', (freshCapture 5).run⟩ ∧ queue'.toList = [1]) ∧
      ¬ NewestWins queue (freshCapture 5).run := by
  obtain ⟨queue, hput⟩ := Option.isSome_iff_exists.mp
    (show (((Queue.init 5 (by decide)).put 0).bind fun q => q.put 1).isSome = true by decide)
  obtain ⟨q, hq, hqueue⟩ := Option.bind_eq_some_iff.mp hput
  have hlist : queue.toList = [0, 1] := by
    rw [Queue.toList_put hqueue, Queue.toList_put hq, Queue.toList_init]
    rfl
  obtain ⟨queue', hrest, hcall⟩ := getLatestHw_cons hlist (freshCapture 5).run
  refine ⟨queue, hput, ⟨queue', hcall, hrest⟩, fun h => ?_⟩
  obtain ⟨r, hr, hnewest, -⟩ := h.2 [0] 1 hlist
  rw [hcall] at hr
  obtain rfl := Option.some.inj hr
  exact absurd hnewest (by simp)

/-! ## 3. In the stream -/

/-- Inside the loop of `_get_latest_hw`, before its get. -/
def WorkerPc.draining : WorkerPc → Bool
  | .drop _ | .reget => true
  | _ => false

/-- A worker inside the loop has something to get. -/
def WorkerCtx.DrainOk (c : WorkerCtx) : Prop := c.pc.draining = true → c.queue.toList ≠ []

/-- All workers. -/
def DrainOk (s : StreamState) : Prop := ∀ k c, s.ctx k = some c → c.DrainOk

section Steps

variable {s s' : StreamState} {k : WorkerKind} {c : WorkerCtx}

/-- A step of another thread. -/
theorem DrainOk.of_ctx (h : DrainOk s) (hctx : s'.ctx = s.ctx) : DrainOk s' := by
  intro k c hc
  rw [hctx] at hc
  exact h k c hc

/-- A worker's new context. -/
theorem DrainOk.setCtx (h : DrainOk s) {c' : WorkerCtx} (hc' : c'.DrainOk)
    (hctx : s'.ctx = Function.update s.ctx k (some c')) : DrainOk s' := by
  intro j c1 hc1
  rw [hctx] at hc1
  rcases ctx_setCtx_eq_some (s := s) hc1 with ⟨rfl, rfl⟩ | ⟨-, hc1⟩
  · exact hc'
  · exact h j c1 hc1

/-- A put makes no queue empty. -/
theorem putIgnored_ne_nil {queue : Queue Nat} {hw : Nat} (h : queue.toList ≠ []) :
    (putIgnored queue hw).toList ≠ [] := by
  unfold putIgnored
  cases hput : queue.put hw with
  | none => exact h
  | some q =>
    rw [Option.getD_some, Queue.toList_put hput]
    simp

theorem DrainOk.loopPut (h : DrainOk s) (hst : loopPut s = some s') : DrainOk s' := by
  unfold TinyPilotKvm.loopPut at hst
  split at hst
  · rename_i hw k todo hpc
    obtain ⟨c, hc, rfl⟩ := Option.map_eq_some_iff.mp hst
    have hnext : WorkerCtx.DrainOk { c with queue := putIgnored c.queue hw } :=
      fun hd => putIgnored_ne_nil (h k c hc hd)
    exact h.setCtx hnext rfl
  · exact absurd hst (by simp)

/-- **The test of the loop**: a queue that is full is not empty. -/
theorem drainOk_check (c : WorkerCtx) (hw : Nat) :
    WorkerCtx.DrainOk { c with pc := if c.queue.isEmpty then .holding hw else .drop hw } := by
  intro hd hnil
  dsimp only at hd hnil
  split at hd
  · exact absurd hd (by simp [WorkerPc.draining])
  · rename_i hfull
    refine hfull (Queue.isEmpty_eq_true_iff.mpr ?_)
    rw [hnil]
    exact Nat.lt_of_le_of_lt (Nat.zero_le _) c.queue.2.outPos_lt

/-- What a worker's step does to its context. -/
inductive WorkerTurn (s s' : StreamState) (k : WorkerKind) (c : WorkerCtx) : Prop
  /-- It ends outside the loop. -/
  | outside (c' : WorkerCtx) : c'.pc.draining = false →
      s'.ctx = Function.update s.ctx k (some c') → WorkerTurn s s' k c
  | check (hw : Nat) : s'.ctx = Function.update s.ctx k
      (some { c with pc := if c.queue.isEmpty then .holding hw else .drop hw }) →
      WorkerTurn s s' k c
  | drop (hw : Nat) : c.pc = .drop hw →
      s'.ctx = Function.update s.ctx k (some { c with pc := .reget }) → WorkerTurn s s' k c

/-- **A step of a worker keeps it.** -/
theorem DrainOk.turn (h : DrainOk s) (hc : s.ctx k = some c) (ht : WorkerTurn s s' k c) :
    DrainOk s' := by
  cases ht with
  | outside c' hout hctx => exact h.setCtx (fun hd => absurd hd (by rw [hout]; simp)) hctx
  | check hw hctx => exact h.setCtx (drainOk_check c hw) hctx
  | drop hw hpc hctx =>
    refine h.setCtx (fun _ => ?_) hctx
    exact h k c hc (by rw [hpc]; rfl)

theorem workerTurn_enter (hst : workerEnter s k c = some s') : WorkerTurn s s' k c := by
  unfold workerEnter at hst
  split at hst
  · split at hst
    · obtain rfl := Option.some.inj hst
      exact .outside _ rfl rfl
    · obtain rfl := Option.some.inj hst
      refine .outside _ ?_ rfl
      dsimp only
      split <;> rfl
  · exact absurd hst (by simp)

theorem workerTurn_wait {w : Nat} (hst : jpegWait s c w = some s') :
    WorkerTurn s s' .jpeg c := by
  unfold jpegWait at hst
  split at hst
  · obtain rfl := Option.some.inj hst
    refine .outside _ ?_ rfl
    dsimp only
    split <;> rfl
  · exact absurd hst (by simp)

theorem workerTurn_collect (hst : jpegCollect s c = some s') : WorkerTurn s s' .jpeg c := by
  unfold jpegCollect at hst
  split at hst
  · obtain rfl := Option.some.inj hst
    exact .outside _ rfl rfl
  · exact absurd hst (by simp)

theorem workerTurn_timeout (hst : workerTimeout s k c = some s') : WorkerTurn s s' k c := by
  unfold workerTimeout at hst
  split at hst
  · obtain rfl := Option.some.inj hst
    exact .outside _ rfl rfl
  · exact absurd hst (by simp)

theorem workerTurn_get (hst : workerGet s k c = some s') : WorkerTurn s s' k c := by
  unfold workerGet at hst
  split at hst
  · obtain rfl := Option.some.inj hst
    exact .outside _ rfl rfl
  · exact absurd hst (by simp)

theorem workerTurn_check (hst : workerCheck s k c = some s') : WorkerTurn s s' k c := by
  unfold workerCheck at hst
  split at hst
  · obtain rfl := Option.some.inj hst
    exact .check _ rfl
  · exact absurd hst (by simp)

theorem workerTurn_drop (hst : workerDrop s k c = some s') : WorkerTurn s s' k c := by
  unfold workerDrop at hst
  split at hst
  · rename_i hw hpc
    obtain rfl := Option.some.inj hst
    exact .drop hw hpc rfl
  · exact absurd hst (by simp)

theorem workerTurn_reget (hst : workerReget s k c = some s') : WorkerTurn s s' k c := by
  unfold workerReget at hst
  split at hst
  · obtain rfl := Option.some.inj hst
    exact .outside _ rfl rfl
  · exact absurd hst (by simp)

theorem workerTurn_pass (hst : workerPass s k c = some s') : WorkerTurn s s' k c := by
  unfold workerPass at hst
  split at hst
  · obtain rfl := Option.some.inj hst
    exact .outside _ rfl rfl
  · exact absurd hst (by simp)

theorem workerTurn_assign (hst : jpegAssign s c = some s') : WorkerTurn s s' .jpeg c := by
  unfold jpegAssign at hst
  split at hst
  · obtain rfl := Option.some.inj hst
    exact .outside _ rfl rfl
  · exact absurd hst (by simp)

/-- The loop's other steps touch no worker. -/
theorem ctx_loopGrab {sel : Selected} {ds : List Dequeued} {errno : DqErrno}
    (hst : loopGrab s sel ds errno = some s') : s'.ctx = s.ctx := by
  unfold loopGrab at hst
  split at hst
  · dsimp only at hst
    split at hst
    · obtain rfl := Option.some.inj hst
      rfl
    · split at hst <;> obtain rfl := Option.some.inj hst <;> rfl
  · exact absurd hst (by simp)

theorem ctx_loopCheck (hst : loopCheck s = some s') : s'.ctx = s.ctx := by
  grind [loopCheck]

theorem ctx_loopIncref (hst : loopIncref s = some s') : s'.ctx = s.ctx := by
  grind [loopIncref, StreamState.setRun]

theorem ctx_loopPlan (hst : loopPlan s = some s') : s'.ctx = s.ctx := by
  grind [loopPlan, StreamState.setReleaser]

theorem ctx_poolFinish {w : Nat} (hst : poolFinish s w = some s') : s'.ctx = s.ctx := by
  grind [poolFinish]

/-- Nor do the releasers' steps. -/
theorem ctx_releaserEnter {b : Nat} {r : Releaser} (hst : releaserEnter s b r = some s') :
    s'.ctx = s.ctx := by
  grind [releaserEnter, StreamState.setReleaser]

theorem ctx_releaserTimeout {b : Nat} {r : Releaser} (hst : releaserTimeout s b r = some s') :
    s'.ctx = s.ctx := by
  grind [releaserTimeout, StreamState.setReleaser]

theorem ctx_releaserGet {b : Nat} {r : Releaser} (hst : releaserGet s b r = some s') :
    s'.ctx = s.ctx := by
  grind [releaserGet, StreamState.setReleaser]

theorem ctx_releaserPoll {b : Nat} {r : Releaser} (hst : releaserPoll s b r = some s') :
    s'.ctx = s.ctx := by
  grind [releaserPoll, StreamState.setReleaser]

theorem ctx_releaserQbuf {b : Nat} {r : Releaser} {qbufOk : Bool}
    (hst : releaserQbuf s b r qbufOk = some s') : s'.ctx = s.ctx := by
  grind [releaserQbuf, StreamState.setReleaser]

theorem ctx_releaserClear {b : Nat} {r : Releaser} (hst : releaserClear s b r = some s') :
    s'.ctx = s.ctx := by
  grind [releaserClear, StreamState.setReleaser, StreamState.setRun]

/-- The function is two steps of a worker between which nothing is put. -/
theorem exec_get_check (hc : s.ctx k = some c) (hpc : c.pc = .fetch) {oldest : Nat}
    {rest : List Nat} (h : c.queue.toList = oldest :: rest) :
    ∃ queue', getLatestHw c.queue s.cap.run = some ⟨some oldest, queue', s.cap.run⟩ ∧
      streamSystem.exec s [.get k, .check k]
        = some (s.setCtx k { c with queue := queue', pc := .holding oldest }) := by
  cases hget : c.queue.get with
  | none =>
    rw [Queue.get_eq_none_iff.mp hget] at h
    exact absurd h (by simp)
  | some r =>
    obtain ⟨hw, queue'⟩ := r
    have hlist := Queue.toList_get hget
    rw [h] at hlist
    obtain ⟨rfl, -⟩ := List.cons.inj hlist
    have hroom := Queue.length_lt_of_get hget
    refine ⟨queue', by rw [getLatestHw, hget]; exact drainToLatest_of_lt hroom, ?_⟩
    have hgetStep : streamStep s (.get k)
        = some (s.setCtx k { c with queue := queue', pc := .check oldest }) := by
      simp only [streamStep, onWorker, hc, Option.bind_some, workerGet, hpc, hget]
    have hempty := Queue.isEmpty_eq_true_iff.mpr hroom
    refine System.exec_cons_eq_some.mpr ⟨_, hgetStep, System.exec_cons_eq_some.mpr ⟨_, ?_, rfl⟩⟩
    show onWorker (s.setCtx k _) k _ = _
    rw [onWorker, StreamState.setCtx]
    simp only [Function.update_self, Option.bind_some, workerCheck, hempty, if_true,
      StreamState.setCtx, Function.update_idem]

/-- **One step**, one case for each action. -/
theorem drainOk_step : streamSystem.Preserves (fun _ _ => True) DrainOk := by
  intro s s' a h _ hst
  have hworker : ∀ {k} {f : WorkerCtx → Option StreamState},
      (∀ {c}, f c = some s' → WorkerTurn s s' k c) → onWorker s k f = some s' → DrainOk s' := by
    intro k f hf hs
    obtain ⟨c, hc, hfc⟩ := Option.bind_eq_some_iff.mp hs
    exact h.turn hc (hf hfc)
  have hreleaser : ∀ {b} {f : Releaser → Option StreamState},
      (∀ {r}, f r = some s' → s'.ctx = s.ctx) → onReleaser s b f = some s' → DrainOk s' := by
    intro b f hf hs
    unfold onReleaser at hs
    split at hs
    · exact h.of_ctx (hf hs)
    · exact absurd hs (by simp)
  cases a with
  | loopBreak =>
    obtain rfl := Option.some.inj hst
    exact h.of_ctx rfl
  | loopCheck => exact h.of_ctx (ctx_loopCheck hst)
  | grab sel ds errno => exact h.of_ctx (ctx_loopGrab hst)
  | incref => exact h.of_ctx (ctx_loopIncref hst)
  | put => exact h.loopPut hst
  | plan => exact h.of_ctx (ctx_loopPlan hst)
  | enter k => exact hworker workerTurn_enter hst
  | wait w => exact hworker workerTurn_wait hst
  | collect => exact hworker workerTurn_collect hst
  | timeout k => exact hworker workerTurn_timeout hst
  | get k => exact hworker workerTurn_get hst
  | check k => exact hworker workerTurn_check hst
  | drop k => exact hworker workerTurn_drop hst
  | reget k => exact hworker workerTurn_reget hst
  | pass k => exact hworker workerTurn_pass hst
  | assign => exact hworker workerTurn_assign hst
  | finish w => exact h.of_ctx (ctx_poolFinish hst)
  | relEnter b => exact hreleaser ctx_releaserEnter hst
  | relTimeout b => exact hreleaser ctx_releaserTimeout hst
  | relGet b => exact hreleaser ctx_releaserGet hst
  | relPoll b => exact hreleaser ctx_releaserPoll hst
  | relQbuf b qbufOk =>
    exact hreleaser (f := fun r => releaserQbuf s b r qbufOk) ctx_releaserQbuf hst
  | relClear b => exact hreleaser ctx_releaserClear hst

theorem drainOk_of_reach {s : StreamState} (hr : streamSystem.Reach s) : DrainOk s := by
  refine hr.inv ?_ drainOk_step
  rintro s ⟨cap, enabled, nWorkers, hpos, -, -, rfl⟩ k c hc hd
  simp only [streamInit] at hc
  split at hc
  · obtain rfl := Option.some.inj hc
    exact absurd hd (by simp [WorkerPc.draining])
  · exact absurd hc (by simp)

/-- **The assertion of `_get_latest_hw` holds in every run**, whatever comes in between. -/
theorem reget_succeeds (hr : streamSystem.Reach s) (hc : s.ctx k = some c) (hpc : c.pc = .reget) :
    ∃ s', streamSystem.step s (.reget k) = some s' := by
  have hne := drainOk_of_reach hr k c hc (by rw [hpc]; rfl)
  cases hget : c.queue.get with
  | none => exact absurd (Queue.get_eq_none_iff.mp hget) hne
  | some r =>
    obtain ⟨hw, queue'⟩ := r
    refine ⟨s.setCtx k { c with queue := queue', pc := .check hw }, ?_⟩
    simp only [streamSystem, streamStep, onWorker, hc, Option.bind_some, workerReget, hpc, hget]

end Steps

end TinyPilotKvm
