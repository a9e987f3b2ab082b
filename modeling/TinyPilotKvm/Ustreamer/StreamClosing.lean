/-
# Closing the stream (`close:` of `us_stream_loop`, `us_encoder_close`)

The loop sets `threads_stop`, waits for the workers, then for the releasers, has the encoder's pool
destroyed, which waits for the pool's workers, and closes the device, which frees the buffers.

Here the loop's thread goes on from `LoopPc.closing`, while the other threads make the steps they
make before: a worker that is in the middle of something finishes it, and a worker of the pool that
has a job runs it to its end.  Each step lowers a rank (`closing_draining`), for no thread turns
around more than once when the flag is set and no queue is filled any more; and a thread that has
not left is never stuck (`stream_close_returns`).
-/
import Mathlib.Algebra.BigOperators.Group.Finset.Basic
import Mathlib.Algebra.Order.BigOperators.Group.Finset
import TinyPilotKvm.Draining
import TinyPilotKvm.Ustreamer.LatestHw
import TinyPilotKvm.Ustreamer.StreamSteps

namespace TinyPilotKvm

/-! ## 1. The closing loop -/

/-- Where the loop's thread is.  `us_encoder_close` waits for the workers by their numbers. -/
inductive ClosingPc
  | joinWorkers (todo : List WorkerKind)
  | joinReleasers (index : Nat)
  | encoderClose (number : Nat)
  | captureClose
  | closed
  deriving DecidableEq

structure ClosingState where
  stream : StreamState
  pc : ClosingPc

inductive ClosingAct
  /-- A step of another thread. -/
  | thread (a : StreamAct)
  | close

/-- The loop's thread: a join is possible when the thread that is waited for has left. -/
def closeStep (s : ClosingState) : Option ClosingState :=
  match s.pc with
  | .joinWorkers [] => some { s with pc := .joinReleasers 0 }
  | .joinWorkers (k :: todo) =>
    if (s.stream.ctx k).all fun c => c.pc = .exited then some { s with pc := .joinWorkers todo }
    else none
  | .joinReleasers b =>
    if b < s.stream.cap.run.nBufs then
      if (s.stream.releasers b).pc = .done then some { s with pc := .joinReleasers (b + 1) }
      else none
    else some { s with pc := .encoderClose 0 }
  | .encoderClose w =>
    match s.stream.pool[w]? with
    | some wr => if wr.hasJob then none else some { s with pc := .encoderClose (w + 1) }
    | none => some { s with pc := .captureClose }
  | .captureClose => some { s with pc := .closed }
  | .closed => none

def closingStep (s : ClosingState) : ClosingAct → Option ClosingState
  | .thread a => (streamStep s.stream a).map fun stream => { s with stream := stream }
  | .close => closeStep s

/-- `DELETE_WORKER` in its order. -/
def ClosingState.init (s : StreamState) : ClosingState := ⟨s, .joinWorkers [.h264, .raw, .jpeg]⟩

/-- A stream whose loop has just left. -/
def closingSystem : System ClosingState ClosingAct where
  start s := ∃ stream, streamSystem.Reach stream ∧ stream.pc = .closing ∧ s = .init stream
  step := closingStep

/-! ## 2. The rank -/

/-- The steps a worker has still to make, if its queue is empty. -/
def WorkerPc.rank : WorkerPc → Nat
  | .exited => 0
  | .top | .reget => 1
  | .fetch | .drop _ => 2
  | .collect | .holding _ => 3
  | .wait | .check _ => 4

def WorkerCtx.rank (c : WorkerCtx) : Nat := c.pc.rank + 4 * c.queue.toList.length

def ReleaserPc.rank : ReleaserPc → Nat
  | .done => 0
  | .top => 1
  | .get | .clear _ => 2
  | .release _ => 3
  | .hold _ => 4

def Releaser.rank (r : Releaser) : Nat := r.pc.rank + 3 * r.queue.toList.length

/-- The jobs that the pool has still to do. -/
def poolJobs (pool : List PoolWorker) : Nat := pool.countP PoolWorker.hasJob

/-- The steps that the threads have still to make. -/
def StreamState.rank (s : StreamState) : Nat :=
  kindSum (fun k => (s.ctx k).elim 0 WorkerCtx.rank) + poolJobs s.pool
    + ∑ b ∈ Finset.range s.cap.run.nBufs, (s.releasers b).rank

/-- A step of a thread while the stream is closing. -/
structure WindsDown (s s' : StreamState) : Prop where
  pc : s'.pc = s.pc
  stop : s.threadsStop = true → s'.threadsStop = true
  nBufs : s'.cap.run.nBufs = s.cap.run.nBufs
  length : s'.pool.length = s.pool.length
  rank : s'.rank < s.rank

section Steps

variable {s s' : StreamState} {k : WorkerKind} {c : WorkerCtx}

/-- **A worker's step**, which may change the pool. -/
theorem windsDown_worker (hc : s.ctx k = some c) (run : UsCaptureRuntime)
    (hrun : run.nBufs = s.cap.run.nBufs) {c' : WorkerCtx} (pool : List PoolWorker)
    (hpool : pool.length = s.pool.length)
    (hrank : c'.rank + poolJobs pool < c.rank + poolJobs s.pool) :
    WindsDown s { (s.setRun run).setCtx k c' with pool := pool } := by
  refine ⟨rfl, id, hrun, hpool, ?_⟩
  have hsum := kindSum_of_ne (fun j => (s.ctx j).elim 0 WorkerCtx.rank)
    (fun j => (((s.setRun run).setCtx k c').ctx j).elim 0 WorkerCtx.rank) k fun j hj => by
      simp only [StreamState.setCtx, StreamState.setRun, Function.update_of_ne hj]
  have hk : (((s.setRun run).setCtx k c').ctx k).elim 0 WorkerCtx.rank = c'.rank := by
    simp only [StreamState.setCtx, Function.update_self, Option.elim_some]
  rw [hk, hc, Option.elim_some] at hsum
  show kindSum (fun j => (((s.setRun run).setCtx k c').ctx j).elim 0 WorkerCtx.rank)
    + poolJobs pool + ∑ b ∈ Finset.range run.nBufs, (s.releasers b).rank < s.rank
  rw [hrun, StreamState.rank]
  omega

/-- A worker's step that leaves the pool and the counts alone. -/
theorem windsDown_ctx (hc : s.ctx k = some c) {c' : WorkerCtx} (hrank : c'.rank < c.rank) :
    WindsDown s (s.setCtx k c') :=
  windsDown_worker hc s.cap.run rfl s.pool rfl (Nat.add_lt_add_right hrank _)

/-- **A releaser's step.** -/
theorem windsDown_releaser {b : Nat} (hb : b < s.cap.run.nBufs) (run : UsCaptureRuntime)
    (hrun : run.nBufs = s.cap.run.nBufs) {r : Releaser} {queued : Finset Nat} {threadsStop : Bool}
    (hstop : s.threadsStop = true → threadsStop = true) (hrank : r.rank < (s.releasers b).rank) :
    WindsDown s { (s.setRun run).setReleaser b r with
      queued := queued, threadsStop := threadsStop } := by
  refine ⟨rfl, hstop, hrun, rfl, ?_⟩
  have hreleasers : ∑ j ∈ Finset.range s.cap.run.nBufs,
      (Function.update s.releasers b r j).rank
        < ∑ j ∈ Finset.range s.cap.run.nBufs, (s.releasers j).rank := by
    refine Finset.sum_lt_sum (fun j _ => ?_) ⟨b, Finset.mem_range.mpr hb, ?_⟩
    · by_cases hj : j = b
      · subst hj
        rw [Function.update_self]
        exact hrank.le
      · rw [Function.update_of_ne hj]
    · rwa [Function.update_self]
  show kindSum (fun j => (s.ctx j).elim 0 WorkerCtx.rank) + poolJobs s.pool
    + ∑ j ∈ Finset.range run.nBufs, (Function.update s.releasers b r j).rank < s.rank
  rw [hrun]
  exact Nat.add_lt_add_left hreleasers _

/-- Setting a job of the pool. -/
theorem poolJobs_set {pool : List PoolWorker} {w : Nat} {old : PoolWorker}
    (h : pool[w]? = some old) (new : PoolWorker) :
    poolJobs (pool.set w new) + old.hasJob.toNat = poolJobs pool + new.hasJob.toNat := by
  unfold poolJobs
  induction pool generalizing w with
  | nil => exact absurd h (by simp)
  | cons x xs ih =>
    cases w with
    | zero =>
      obtain rfl : x = old := by simpa using h
      simp only [List.set_cons_zero, List.countP_cons]
      cases x.hasJob <;> cases new.hasJob <;> simp
    | succ w =>
      have hxs := ih (w := w) (by simpa using h)
      simp only [List.set_cons_succ, List.countP_cons]
      omega

/-- An assignment adds one job at most. -/
theorem poolJobs_set_le (pool : List PoolWorker) (w : Nat) (new : PoolWorker) :
    poolJobs (pool.set w new) ≤ poolJobs pool + 1 := by
  cases hw : pool[w]? with
  | none =>
    rw [List.set_eq_of_length_le (List.getElem?_eq_none_iff.mp hw)]
    exact Nat.le_succ _
  | some old =>
    have hset := poolJobs_set hw new
    have hnew := Bool.toNat_le new.hasJob
    omega

theorem rank_of_pc {c : WorkerCtx} {pc : WorkerPc} {wr : Nat} (hpc : pc.rank < c.pc.rank) :
    WorkerCtx.rank { c with pc := pc, wr := wr } < c.rank :=
  Nat.add_lt_add_right hpc _

/-- What has been taken from the queue pays for the steps that it causes. -/
theorem rank_of_get {c : WorkerCtx} {hw : Nat} {q : Queue Nat} (hget : c.queue.get = some (hw, q))
    (hpc : 1 ≤ c.pc.rank) : WorkerCtx.rank { c with queue := q, pc := .check hw } < c.rank := by
  show 4 + 4 * q.toList.length < c.pc.rank + 4 * c.queue.toList.length
  rw [Queue.toList_get hget, List.length_cons]
  omega

theorem windsDown_enter (hstop : s.threadsStop = true) (hc : s.ctx k = some c)
    (hst : workerEnter s k c = some s') : WindsDown s s' := by
  unfold workerEnter at hst
  split at hst
  · rename_i hpc
    rw [if_pos hstop] at hst
    obtain rfl := Option.some.inj hst
    exact windsDown_ctx hc (rank_of_pc (by simp [hpc, WorkerPc.rank]))
  · exact absurd hst (by simp)

theorem windsDown_wait {w : Nat} (hc : s.ctx .jpeg = some c) (hst : jpegWait s c w = some s') :
    WindsDown s s' := by
  unfold jpegWait at hst
  split at hst
  · rename_i hw hpc hpool
    obtain rfl := Option.some.inj hst
    refine windsDown_ctx hc (rank_of_pc ?_)
    rw [hpc]
    cases hw <;> simp [WorkerPc.rank]
  · exact absurd hst (by simp)

theorem windsDown_collect (hc : s.ctx .jpeg = some c) (hst : jpegCollect s c = some s') :
    WindsDown s s' := by
  unfold jpegCollect at hst
  split at hst
  · rename_i hw hasJob hpc hpool
    obtain rfl := Option.some.inj hst
    have hjobs := poolJobs_set hpool ⟨none, hasJob⟩
    have hrank : WorkerCtx.rank { c with pc := .fetch } < c.rank :=
      rank_of_pc (by simp [hpc, WorkerPc.rank])
    refine windsDown_worker hc (usCaptureHwbufDecref s.cap.run hw) rfl _ List.length_set ?_
    dsimp only at hjobs
    omega
  · exact absurd hst (by simp)

theorem windsDown_timeout (hc : s.ctx k = some c) (hst : workerTimeout s k c = some s') :
    WindsDown s s' := by
  unfold workerTimeout at hst
  split at hst
  · rename_i hpc
    obtain rfl := Option.some.inj hst
    exact windsDown_ctx hc (rank_of_pc (by simp [hpc, WorkerPc.rank]))
  · exact absurd hst (by simp)

theorem windsDown_get (hc : s.ctx k = some c) (hst : workerGet s k c = some s') :
    WindsDown s s' := by
  unfold workerGet at hst
  split at hst
  · rename_i hw q hpc hget
    obtain rfl := Option.some.inj hst
    exact windsDown_ctx hc (rank_of_get hget (by rw [hpc]; decide))
  · exact absurd hst (by simp)

theorem windsDown_reget (hc : s.ctx k = some c) (hst : workerReget s k c = some s') :
    WindsDown s s' := by
  unfold workerReget at hst
  split at hst
  · rename_i hw q hpc hget
    obtain rfl := Option.some.inj hst
    exact windsDown_ctx hc (rank_of_get hget (by rw [hpc]; decide))
  · exact absurd hst (by simp)

theorem windsDown_check (hc : s.ctx k = some c) (hst : workerCheck s k c = some s') :
    WindsDown s s' := by
  unfold workerCheck at hst
  split at hst
  · rename_i hw hpc
    obtain rfl := Option.some.inj hst
    refine windsDown_ctx hc (rank_of_pc ?_)
    rw [hpc]
    cases c.queue.isEmpty <;> simp [WorkerPc.rank]
  · exact absurd hst (by simp)

theorem windsDown_drop (hc : s.ctx k = some c) (hst : workerDrop s k c = some s') :
    WindsDown s s' := by
  unfold workerDrop at hst
  split at hst
  · rename_i hw hpc
    obtain rfl := Option.some.inj hst
    have hrank : WorkerCtx.rank { c with pc := .reget } < c.rank :=
      rank_of_pc (by simp [hpc, WorkerPc.rank])
    exact windsDown_worker hc (usCaptureHwbufDecref s.cap.run hw) rfl s.pool rfl
      (Nat.add_lt_add_right hrank _)
  · exact absurd hst (by simp)

theorem windsDown_pass (hc : s.ctx k = some c) (hst : workerPass s k c = some s') :
    WindsDown s s' := by
  unfold workerPass at hst
  split at hst
  · rename_i hw hpc
    obtain rfl := Option.some.inj hst
    have hrank : WorkerCtx.rank { c with pc := .top } < c.rank :=
      rank_of_pc (by simp [hpc, WorkerPc.rank])
    exact windsDown_worker hc (usCaptureHwbufDecref s.cap.run hw) rfl s.pool rfl
      (Nat.add_lt_add_right hrank _)
  · exact absurd hst (by simp)

/-- A job that is assigned late costs the pool one step, and the JPEG thread saves two. -/
theorem windsDown_assign (hc : s.ctx .jpeg = some c) (hst : jpegAssign s c = some s') :
    WindsDown s s' := by
  unfold jpegAssign at hst
  split at hst
  · rename_i hw hpc
    obtain rfl := Option.some.inj hst
    have hjobs := poolJobs_set_le s.pool c.wr ⟨some hw, true⟩
    have hrank : WorkerCtx.rank { c with pc := .top } + 2 = c.rank := by
      simp only [WorkerCtx.rank, hpc, WorkerPc.rank]
      omega
    refine windsDown_worker hc s.cap.run rfl _ List.length_set ?_
    omega
  · exact absurd hst (by simp)

theorem windsDown_finish {w : Nat} (hst : poolFinish s w = some s') : WindsDown s s' := by
  unfold poolFinish at hst
  split at hst
  · rename_i hw hpool
    obtain rfl := Option.some.inj hst
    have hjobs : poolJobs (s.pool.set w ⟨hw, false⟩) + 1 = poolJobs s.pool + 0 :=
      poolJobs_set hpool ⟨hw, false⟩
    refine ⟨rfl, id, rfl, List.length_set, ?_⟩
    simp only [StreamState.rank]
    omega
  · exact absurd hst (by simp)

section Releasers

variable {b : Nat}

theorem windsDown_relEnter (hstop : s.threadsStop = true) (hb : b < s.cap.run.nBufs)
    (hst : releaserEnter s b (s.releasers b) = some s') : WindsDown s s' := by
  unfold releaserEnter at hst
  split at hst
  · rename_i hpc
    rw [if_pos hstop] at hst
    obtain rfl := Option.some.inj hst
    refine windsDown_releaser hb s.cap.run rfl id ?_
    simp only [Releaser.rank, hpc, ReleaserPc.rank]
    omega
  · exact absurd hst (by simp)

theorem windsDown_relTimeout (hb : b < s.cap.run.nBufs)
    (hst : releaserTimeout s b (s.releasers b) = some s') : WindsDown s s' := by
  unfold releaserTimeout at hst
  split at hst
  · rename_i hpc
    obtain rfl := Option.some.inj hst
    refine windsDown_releaser hb s.cap.run rfl id ?_
    simp only [Releaser.rank, hpc, ReleaserPc.rank]
    omega
  · exact absurd hst (by simp)

theorem windsDown_relGet (hb : b < s.cap.run.nBufs)
    (hst : releaserGet s b (s.releasers b) = some s') : WindsDown s s' := by
  unfold releaserGet at hst
  split at hst
  · rename_i hw q hpc hget
    obtain rfl := Option.some.inj hst
    refine windsDown_releaser hb s.cap.run rfl id ?_
    simp only [Releaser.rank, hpc, ReleaserPc.rank, Queue.toList_get hget, List.length_cons]
    omega
  · exact absurd hst (by simp)

/-- A releaser that waits for a count sees the flag. -/
theorem windsDown_relPoll (hstop : s.threadsStop = true) (hb : b < s.cap.run.nBufs)
    (hst : releaserPoll s b (s.releasers b) = some s') : WindsDown s s' := by
  unfold releaserPoll at hst
  split at hst
  · rename_i hw hpc
    rw [if_pos hstop] at hst
    split at hst
    · obtain rfl := Option.some.inj hst
      refine windsDown_releaser hb s.cap.run rfl id ?_
      simp only [Releaser.rank, hpc, ReleaserPc.rank]
      omega
    · obtain rfl := Option.some.inj hst
      refine windsDown_releaser hb s.cap.run rfl id ?_
      simp only [Releaser.rank, hpc, ReleaserPc.rank]
      omega
  · exact absurd hst (by simp)

theorem windsDown_relQbuf {qbufOk : Bool} (hb : b < s.cap.run.nBufs)
    (hst : releaserQbuf s b (s.releasers b) qbufOk = some s') : WindsDown s s' := by
  unfold releaserQbuf at hst
  split at hst
  · rename_i hw hpc
    split at hst
    · exact absurd hst (by simp)
    split at hst
    · obtain rfl := Option.some.inj hst
      refine windsDown_releaser hb s.cap.run rfl (fun _ => rfl) ?_
      simp only [Releaser.rank, hpc, ReleaserPc.rank]
      omega
    · obtain rfl := Option.some.inj hst
      refine windsDown_releaser hb s.cap.run rfl id ?_
      simp only [Releaser.rank, hpc, ReleaserPc.rank]
      omega
  · exact absurd hst (by simp)

theorem windsDown_relClear (hb : b < s.cap.run.nBufs)
    (hst : releaserClear s b (s.releasers b) = some s') : WindsDown s s' := by
  unfold releaserClear at hst
  split at hst
  · rename_i hw hpc
    obtain rfl := Option.some.inj hst
    refine windsDown_releaser hb
      (s.cap.run.modifyHw hw fun h => { h with grabbed := false }) rfl id ?_
    simp only [Releaser.rank, hpc, ReleaserPc.rank]
    omega
  · exact absurd hst (by simp)

end Releasers

/-- `us_stream_loop_break`, by a signal. -/
def ClosingAct.counts : ClosingAct → Bool
  | .thread .loopBreak => false
  | _ => true

/-- **One step of a thread**, one case for each action. -/
theorem windsDown_of_step (hstop : s.threadsStop = true) (hpc : s.pc = .closing) {a : StreamAct}
    (ha : a ≠ .loopBreak) (hst : streamStep s a = some s') : WindsDown s s' := by
  have hworker : ∀ {k} {f : WorkerCtx → Option StreamState},
      (∀ {c}, s.ctx k = some c → f c = some s' → WindsDown s s') →
      onWorker s k f = some s' → WindsDown s s' := by
    intro k f hf hs
    obtain ⟨c, hc, hfc⟩ := Option.bind_eq_some_iff.mp hs
    exact hf hc hfc
  have hreleaser : ∀ {b} {f : Releaser → Option StreamState},
      (b < s.cap.run.nBufs → f (s.releasers b) = some s' → WindsDown s s') →
      onReleaser s b f = some s' → WindsDown s s' := by
    intro b f hf hs
    unfold onReleaser at hs
    split at hs
    · rename_i hb
      exact hf hb hs
    · exact absurd hs (by simp)
  cases a with
  | loopBreak => exact absurd rfl ha
  | loopCheck => simp [streamStep, loopCheck, hpc] at hst
  | grab sel ds errno => simp [streamStep, loopGrab, hpc] at hst
  | incref => simp [streamStep, loopIncref, hpc] at hst
  | put => simp [streamStep, loopPut, hpc] at hst
  | plan => simp [streamStep, loopPlan, hpc] at hst
  | enter k => exact hworker (windsDown_enter hstop) hst
  | wait w => exact hworker (fun hc => windsDown_wait hc) hst
  | collect => exact hworker windsDown_collect hst
  | timeout k => exact hworker windsDown_timeout hst
  | get k => exact hworker windsDown_get hst
  | check k => exact hworker windsDown_check hst
  | drop k => exact hworker windsDown_drop hst
  | reget k => exact hworker windsDown_reget hst
  | pass k => exact hworker windsDown_pass hst
  | assign => exact hworker windsDown_assign hst
  | finish w => exact windsDown_finish hst
  | relEnter b => exact hreleaser (windsDown_relEnter hstop) hst
  | relTimeout b => exact hreleaser windsDown_relTimeout hst
  | relGet b => exact hreleaser windsDown_relGet hst
  | relPoll b => exact hreleaser (windsDown_relPoll hstop) hst
  | relQbuf b qbufOk =>
    exact hreleaser (f := fun r => releaserQbuf s b r qbufOk) windsDown_relQbuf hst
  | relClear b => exact hreleaser windsDown_relClear hst

end Steps

/-! ## 3. The closing loop -/

namespace ClosingPc

/-- The workers that are still to be joined. -/
def todo : ClosingPc → List WorkerKind
  | .joinWorkers todo => todo
  | _ => []

/-- How many of `n` releasers have been joined. -/
def releasers (n : Nat) : ClosingPc → Nat
  | .joinWorkers _ => 0
  | .joinReleasers b => b
  | _ => n

/-- How many of `n` workers of the pool have been joined. -/
def numbers (n : Nat) : ClosingPc → Nat
  | .joinWorkers _ | .joinReleasers _ => 0
  | .encoderClose w => w
  | _ => n

/-- The steps that the closing loop has still to make. -/
def rank (nBufs nWorkers : Nat) : ClosingPc → Nat
  | .joinWorkers todo => todo.length + nBufs + nWorkers + 4
  | .joinReleasers b => (nBufs - b) + nWorkers + 3
  | .encoderClose w => (nWorkers - w) + 2
  | .captureClose => 1
  | .closed => 0

end ClosingPc

/-- What holds while the stream closes: who has been joined has left. -/
structure ClosingInv (s : ClosingState) : Prop where
  reach : streamSystem.Reach s.stream
  pc : s.stream.pc = .closing
  stop : s.stream.threadsStop = true
  nonempty : 0 < s.stream.pool.length
  workers : ∀ k, k ∉ s.pc.todo → ∀ c, s.stream.ctx k = some c → c.pc = .exited
  releasers : ∀ b < s.stream.cap.run.nBufs, b < s.pc.releasers s.stream.cap.run.nBufs →
    (s.stream.releasers b).pc = .done
  numbers : ∀ w < s.pc.numbers s.stream.pool.length, ∀ wr, s.stream.pool[w]? = some wr →
    wr.hasJob = false
  jpeg : 0 < s.pc.numbers s.stream.pool.length → .jpeg ∉ s.pc.todo

/-- The rank of the whole. -/
def ClosingState.rank (s : ClosingState) : Nat :=
  s.stream.rank + s.pc.rank s.stream.cap.run.nBufs s.stream.pool.length

section Closing

variable {s s' : ClosingState}

/-- **A step of another thread** starts nobody again. -/
theorem ClosingInv.thread (h : ClosingInv s) {a : StreamAct} {stream : StreamState}
    (hst : streamStep s.stream a = some stream) : ClosingInv { s with stream := stream } := by
  have hkept : stream.pc = s.stream.pc ∧ stream.threadsStop = true ∧
      stream.cap.run.nBufs = s.stream.cap.run.nBufs ∧
      stream.pool.length = s.stream.pool.length := by
    by_cases ha : a = .loopBreak
    · subst ha
      obtain rfl := Option.some.inj hst
      exact ⟨rfl, h.stop, rfl, rfl⟩
    · have hdown := windsDown_of_step h.stop h.pc ha hst
      exact ⟨hdown.pc, hdown.stop h.stop, hdown.nBufs, hdown.length⟩
  obtain ⟨hpc, hstop, hbufs, hlength⟩ := hkept
  refine ⟨.step h.reach trivial hst, hpc.trans h.pc, hstop, hlength ▸ h.nonempty, ?_, ?_, ?_, ?_⟩
  · intro k hk c' hc'
    dsimp only at hk hc'
    cases stepOf_of_step hst with
    | loop _ _ hclosing _ =>
      rw [(hclosing h.pc).1] at hc'
      exact h.workers k hk c' hc'
    | worker j c hc hw =>
      obtain ⟨c₁, hctx, -⟩ := hw.ctx
      rw [hctx] at hc'
      rcases ctx_setCtx_eq_some (s := s.stream) hc' with ⟨rfl, rfl⟩ | ⟨-, hc'⟩
      · exact absurd (h.workers k hk c hc) hw.running
      · exact h.workers k hk c' hc'
    | pool w hw _ _ hctx _ _ =>
      rw [hctx] at hc'
      exact h.workers k hk c' hc'
    | releaser b r _ _ hctx _ _ =>
      rw [hctx] at hc'
      exact h.workers k hk c' hc'
  · intro b hb hjoined
    dsimp only at hb hjoined ⊢
    rw [hbufs] at hb hjoined
    have hdone := h.releasers b hb hjoined
    cases stepOf_of_step hst with
    | loop _ _ hclosing _ => rw [(hclosing h.pc).2, hdone]
    | worker j c _ hw => rw [hw.releasers, hdone]
    | pool w hw _ _ _ hreleasers _ => rw [hreleasers, hdone]
    | releaser j r hrunning hreleasers _ _ _ =>
      have hne : b ≠ j := fun hbj => hrunning (hbj ▸ hdone)
      rw [hreleasers, Function.update_of_ne hne, hdone]
  · intro w hw wr hwr
    dsimp only at hw hwr
    rw [hlength] at hw
    cases stepOf_of_step hst with
    | loop hpool _ _ _ =>
      rw [hpool] at hwr
      exact h.numbers w hw wr hwr
    | worker j c hc hworker =>
      rcases hworker.pool with hpool | rfl
      · rw [hpool] at hwr
        exact h.numbers w hw wr hwr
      · have hleft := h.workers .jpeg (h.jpeg (Nat.zero_lt_of_lt hw)) c hc
        exact absurd hleft hworker.running
    | pool j hw' hold hpool _ _ _ =>
      rw [hpool, List.getElem?_set] at hwr
      split at hwr
      · split at hwr
        · rw [← Option.some.inj hwr]
        · exact absurd hwr (by simp)
      · exact h.numbers w hw wr hwr
    | releaser b r _ _ _ hpool _ =>
      rw [hpool] at hwr
      exact h.numbers w hw wr hwr
  · intro hjoined
    dsimp only at hjoined
    rw [hlength] at hjoined
    exact h.jpeg hjoined

/-- **A join.** -/
theorem ClosingInv.close (h : ClosingInv s) (hst : closeStep s = some s') :
    ClosingInv s' ∧ s'.stream = s.stream ∧ s'.rank + 1 ≤ s.rank := by
  unfold closeStep at hst
  have hworkers := h.workers
  have hreleasers := h.releasers
  have hnumbers := h.numbers
  have hjpeg := h.jpeg
  split at hst
  case h_1 hpc =>
    obtain rfl := Option.some.inj hst
    rw [hpc] at hworkers
    refine ⟨⟨h.reach, h.pc, h.stop, h.nonempty, hworkers, ?_, ?_, ?_⟩, rfl, ?_⟩
    · exact fun b _ hb => absurd hb (Nat.not_lt_zero b)
    · exact fun w hw => absurd hw (Nat.not_lt_zero w)
    · exact fun hw => absurd hw (Nat.not_lt_zero 0)
    · simp only [ClosingState.rank, hpc, ClosingPc.rank, List.length_nil]
      omega
  case h_2 k todo hpc =>
    split at hst
    · rename_i hexited
      obtain rfl := Option.some.inj hst
      refine ⟨⟨h.reach, h.pc, h.stop, h.nonempty, ?_, ?_, ?_, ?_⟩, rfl, ?_⟩
      · intro j hj c hc
        by_cases hjk : j = k
        · subst hjk
          rw [hc] at hexited
          exact of_decide_eq_true hexited
        · refine hworkers j ?_ c hc
          rw [hpc]
          exact fun hmem => (List.mem_cons.mp hmem).elim hjk hj
      · exact fun b _ hb => absurd hb (Nat.not_lt_zero b)
      · exact fun w hw => absurd hw (Nat.not_lt_zero w)
      · exact fun hw => absurd hw (Nat.not_lt_zero 0)
      · simp only [ClosingState.rank, hpc, ClosingPc.rank, List.length_cons]
        omega
    · exact absurd hst (by simp)
  case h_3 b hpc =>
    rw [hpc] at hworkers hreleasers
    split at hst
    · rename_i hb
      split at hst
      · rename_i hdone
        obtain rfl := Option.some.inj hst
        refine ⟨⟨h.reach, h.pc, h.stop, h.nonempty, hworkers, ?_, ?_, ?_⟩, rfl, ?_⟩
        · intro j hj hjoined
          rcases Nat.lt_succ_iff_lt_or_eq.mp hjoined with hlt | rfl
          · exact hreleasers j hj hlt
          · exact hdone
        · exact fun w hw => absurd hw (Nat.not_lt_zero w)
        · exact fun hw => absurd hw (Nat.not_lt_zero 0)
        · simp only [ClosingState.rank, hpc, ClosingPc.rank]
          omega
      · exact absurd hst (by simp)
    · rename_i hb
      obtain rfl := Option.some.inj hst
      refine ⟨⟨h.reach, h.pc, h.stop, h.nonempty, hworkers, ?_, ?_, ?_⟩, rfl, ?_⟩
      · intro j hj _
        exact hreleasers j hj (Nat.lt_of_lt_of_le hj (Nat.le_of_not_lt hb))
      · exact fun w hw => absurd hw (Nat.not_lt_zero w)
      · exact fun hw => absurd hw (Nat.not_lt_zero 0)
      · simp only [ClosingState.rank, hpc, ClosingPc.rank]
        omega
  case h_4 w hpc =>
    rw [hpc] at hworkers hreleasers hnumbers
    split at hst
    · rename_i wr hwr
      split at hst
      · exact absurd hst (by simp)
      · rename_i hjob
        obtain rfl := Option.some.inj hst
        have hlt := (List.getElem?_eq_some_iff.mp hwr).1
        refine ⟨⟨h.reach, h.pc, h.stop, h.nonempty, hworkers, hreleasers, ?_, ?_⟩, rfl, ?_⟩
        · intro j hj wr' hwr'
          rcases Nat.lt_succ_iff_lt_or_eq.mp hj with hlt | rfl
          · exact hnumbers j hlt wr' hwr'
          · rw [Option.some.inj (hwr'.symm.trans hwr)]
            exact Bool.eq_false_iff.mpr hjob
        · exact fun _ => List.not_mem_nil
        · simp only [ClosingState.rank, hpc, ClosingPc.rank]
          omega
    · rename_i hwr
      obtain rfl := Option.some.inj hst
      have hle := List.getElem?_eq_none_iff.mp hwr
      refine ⟨⟨h.reach, h.pc, h.stop, h.nonempty, hworkers, hreleasers, ?_, ?_⟩, rfl, ?_⟩
      · intro j hj wr' hwr'
        exact hnumbers j (Nat.lt_of_lt_of_le hj hle) wr' hwr'
      · exact fun _ => List.not_mem_nil
      · simp only [ClosingState.rank, hpc, ClosingPc.rank]
        omega
  case h_5 hpc =>
    rw [hpc] at hworkers hreleasers hnumbers
    obtain rfl := Option.some.inj hst
    refine ⟨⟨h.reach, h.pc, h.stop, h.nonempty, hworkers, hreleasers, hnumbers, ?_⟩, rfl, ?_⟩
    · exact fun _ => List.not_mem_nil
    · simp only [ClosingState.rank, hpc, ClosingPc.rank]
      omega
  case h_6 hpc => exact absurd hst (by simp)

/-- **Closing winds down.** -/
theorem closing_draining :
    closingSystem.Draining ClosingInv (fun _ => True) ClosingAct.counts 0 ClosingState.rank where
  step := by
    intro s s' act h _ hst
    cases act with
    | thread a =>
      obtain ⟨stream, hstream, rfl⟩ := Option.map_eq_some_iff.mp hst
      refine ⟨h.thread hstream, ?_⟩
      by_cases ha : a = .loopBreak
      · subst ha
        obtain rfl := Option.some.inj hstream
        exact Nat.le_refl _
      · have hdown := windsDown_of_step h.stop h.pc ha hstream
        have hcount := Bool.toNat_le (ClosingAct.thread a).counts
        have hrank := hdown.rank
        simp only [ClosingState.rank, hdown.nBufs, hdown.length]
        omega
    | close =>
      obtain ⟨hinv, -, hrank⟩ := h.close hst
      exact ⟨hinv, hrank⟩

end Closing

/-! ## 4. Nobody is stuck -/

/-- A step other than the one of a signal is possible. -/
def Enabled (s : StreamState) : Prop := ∃ a, a ≠ .loopBreak ∧ (streamStep s a).isSome = true

section Enabled

variable {s : StreamState} {k : WorkerKind} {c : WorkerCtx}

theorem enabled_onWorker (hc : s.ctx k = some c) {f : WorkerCtx → Option StreamState}
    (hf : (f c).isSome = true) : (onWorker s k f).isSome = true := by
  rw [onWorker, hc]
  exact hf

/-- **A worker of the pool** with a job finishes it. -/
theorem enabled_finish {w : Nat} {hw : Option Nat} (hpool : s.pool[w]? = some ⟨hw, true⟩) :
    Enabled s := by
  refine ⟨.finish w, by simp, ?_⟩
  simp only [streamStep, poolFinish, hpool, Option.isSome_some]

/-- **A worker** that has not left has a step, or a worker of the pool has one. -/
theorem enabled_worker (hr : streamSystem.Reach s) (hpool : 0 < s.pool.length)
    (hc : s.ctx k = some c) (hpc : c.pc ≠ .exited) : Enabled s := by
  have hok := waitsOk_of_reach hr k c hc
  unfold WorkerCtx.WaitsOk at hok
  cases hcase : c.pc with
  | exited => exact absurd hcase hpc
  | top =>
    refine ⟨.enter k, by simp, enabled_onWorker hc ?_⟩
    simp only [workerEnter, hcase]
    split <;> rfl
  | wait =>
    rw [hcase] at hok
    obtain rfl : k = .jpeg := hok
    obtain ⟨⟨hw, hasJob⟩, hfirst⟩ : ∃ wr, s.pool[0]? = some wr :=
      ⟨s.pool[0], List.getElem?_eq_getElem hpool⟩
    cases hasJob with
    | true => exact enabled_finish hfirst
    | false =>
      refine ⟨.wait 0, by simp, enabled_onWorker hc ?_⟩
      simp only [jpegWait, hcase, hfirst, Option.isSome_some]
  | collect =>
    rw [hcase] at hok
    obtain ⟨rfl, hw, hasJob, hjob⟩ := hok
    refine ⟨.collect, by simp, enabled_onWorker hc ?_⟩
    simp only [jpegCollect, hcase, hjob, Option.isSome_some]
  | fetch =>
    refine ⟨.timeout k, by simp, enabled_onWorker hc ?_⟩
    simp only [workerTimeout, hcase, Option.isSome_some]
  | check hw =>
    refine ⟨.check k, by simp, enabled_onWorker hc ?_⟩
    simp only [workerCheck, hcase, Option.isSome_some]
  | drop hw =>
    refine ⟨.drop k, by simp, enabled_onWorker hc ?_⟩
    simp only [workerDrop, hcase, Option.isSome_some]
  | reget =>
    refine ⟨.reget k, by simp, ?_⟩
    -- the assertion of `_get_latest_hw`
    have hne := drainOk_of_reach hr k c hc (by rw [hcase]; rfl)
    cases hget : c.queue.get with
    | none => exact absurd (Queue.get_eq_none_iff.mp hget) hne
    | some got =>
      refine enabled_onWorker hc ?_
      simp only [workerReget, hcase, hget, Option.isSome_some]
  | holding hw =>
    refine ⟨.pass k, by simp, enabled_onWorker hc ?_⟩
    simp only [workerPass, hcase, Option.isSome_some]

/-- **A releaser** that has not left has a step, unless an assertion fails. -/
theorem enabled_releaser {b : Nat} (hb : b < s.cap.run.nBufs)
    (hassert : ∀ hw, (s.releasers b).pc = .release hw → (s.cap.run.hw hw).refs = 0)
    (hpc : (s.releasers b).pc ≠ .done) : Enabled s := by
  have honReleaser {f : Releaser → Option StreamState} (hf : (f (s.releasers b)).isSome = true) :
      (onReleaser s b f).isSome = true := by
    rw [onReleaser, if_pos hb]
    exact hf
  cases hcase : (s.releasers b).pc with
  | done => exact absurd hcase hpc
  | top =>
    refine ⟨.relEnter b, by simp, honReleaser ?_⟩
    simp only [releaserEnter, hcase]
    split <;> rfl
  | get =>
    refine ⟨.relTimeout b, by simp, honReleaser ?_⟩
    simp only [releaserTimeout, hcase, Option.isSome_some]
  | hold hw =>
    refine ⟨.relPoll b, by simp, honReleaser ?_⟩
    simp only [releaserPoll, hcase]
    split
    · split <;> rfl
    · rfl
  | release hw =>
    refine ⟨.relQbuf b true, by simp, honReleaser (f := fun r => releaserQbuf s b r true) ?_⟩
    simp [releaserQbuf, hcase, hassert hw hcase]
  | clear hw =>
    refine ⟨.relClear b, by simp, honReleaser ?_⟩
    simp only [releaserClear, hcase, Option.isSome_some]

end Enabled

/-- **When nobody can make a step, the stream is closed.** -/
theorem ClosingInv.closed_of_settled {s : ClosingState} (h : ClosingInv s)
    (hassert : ReleaseAsserts s.stream)
    (hsettled : closingSystem.Settled ClosingAct.counts s) : s.pc = .closed := by
  have hthreads : ¬ Enabled s.stream := by
    rintro ⟨a, ha, hstep⟩
    obtain ⟨stream, hstep⟩ := Option.isSome_iff_exists.mp hstep
    have hnone := hsettled (.thread a) (by cases a <;> first | rfl | exact absurd rfl ha)
    simp [closingSystem, closingStep, hstep] at hnone
  have hclose : closeStep s = none := hsettled .close rfl
  unfold closeStep at hclose
  split at hclose
  case h_1 => exact absurd hclose (by simp)
  case h_2 k todo hpc =>
    split at hclose
    · exact absurd hclose (by simp)
    · rename_i hrunning
      refine absurd ?_ hthreads
      cases hc : s.stream.ctx k with
      | none => exact absurd (by rw [hc]; rfl) hrunning
      | some c =>
        refine enabled_worker h.reach h.nonempty hc fun hexited => hrunning ?_
        rw [hc]
        exact decide_eq_true hexited
  case h_3 b hpc =>
    split at hclose
    · rename_i hb
      split at hclose
      · exact absurd hclose (by simp)
      · rename_i hrunning
        exact absurd (enabled_releaser hb (hassert b hb) hrunning) hthreads
    · exact absurd hclose (by simp)
  case h_4 w hpc =>
    split at hclose
    · rename_i wr hwr
      split at hclose
      · rename_i hjob
        obtain ⟨hw, hasJob⟩ := wr
        obtain rfl : hasJob = true := hjob
        exact absurd (enabled_finish hwr) hthreads
      · exact absurd hclose (by simp)
    · exact absurd hclose (by simp)
  case h_5 => exact absurd hclose (by simp)
  case h_6 hpc => exact hpc

/-! ## 5. The whole -/

theorem closingInv_init {s : StreamState} (hr : streamSystem.Reach s) (hpc : s.pc = .closing)
    (hpool : 0 < s.pool.length) : ClosingInv (.init s) where
  reach := hr
  pc := hpc
  stop := stop_of_closing hr hpc
  nonempty := hpool
  workers k hk := absurd (by cases k <;> simp [ClosingState.init, ClosingPc.todo]) hk
  releasers b _ hb := absurd hb (Nat.not_lt_zero b)
  numbers w hw := absurd hw (Nat.not_lt_zero w)
  jpeg hw := absurd hw (Nat.not_lt_zero 0)

/-- The closing loop hands nothing over, so the RAW queue has room as long as it had before. -/
theorem reachVia_of_closing {s x : ClosingState} {acts : List ClosingAct} (hinv : ClosingInv s)
    (hr : streamSystem.ReachVia RawHasRoom s.stream) (hexec : closingSystem.exec s acts = some x) :
    streamSystem.ReachVia RawHasRoom x.stream := by
  refine (System.exec_inv (I := fun s => ClosingInv s ∧ streamSystem.ReachVia RawHasRoom s.stream)
    ?_ acts ⟨hinv, hr⟩ hexec).2
  rintro s s' act ⟨hinv, hr⟩ _ hst
  refine ⟨(closing_draining.step s s' act hinv trivial hst).1, ?_⟩
  cases act with
  | thread a =>
    obtain ⟨stream, hstream, rfl⟩ := Option.map_eq_some_iff.mp hst
    refine .step hr ?_ hstream
    have hclosing := hinv.pc
    simp only [RawHasRoom, rawHasRoom, hclosing]
  | close =>
    rw [(hinv.close hst).2.1]
    exact hr

/-- **The stream closes.**  From the moment the loop leaves, whatever the threads, the driver, the
clocks and the signals do:

* at most `ClosingState.rank` more steps are made, besides those of signals;
* when the device is closed, every worker and every releaser has left, and the pool has no job: no
  thread is there that could touch a buffer;
* when nobody can make a step, the device is closed, unless the assertion of a release has failed;
* and none fails if the RAW queue has had room for all that was put there. -/
theorem stream_close_returns {s : StreamState} (hr : streamSystem.Reach s) (hpc : s.pc = .closing)
    (hpool : 0 < s.pool.length) {acts : List ClosingAct} {x : ClosingState}
    (hexec : closingSystem.exec (.init s) acts = some x) :
    acts.countP ClosingAct.counts ≤ (ClosingState.init s).rank ∧
      (x.pc = .closed → (∀ k c, x.stream.ctx k = some c → c.pc = .exited) ∧
        (∀ b < x.stream.cap.run.nBufs, (x.stream.releasers b).pc = .done) ∧
        ∀ wr ∈ x.stream.pool, wr.hasJob = false) ∧
      (closingSystem.Settled ClosingAct.counts x →
        x.pc = .closed ∨ ¬ ReleaseAsserts x.stream) ∧
      (streamSystem.ReachVia RawHasRoom s → ReleaseAsserts x.stream) := by
  have hinit := closingInv_init hr hpc hpool
  obtain ⟨hinv, hrank⟩ := closing_draining.exec hinit (fun _ _ => trivial) hexec
  refine ⟨by omega, fun hclosed => ⟨?_, ?_, ?_⟩, fun hsettled => ?_, fun hroom => ?_⟩
  · intro k c hc
    refine hinv.workers k ?_ c hc
    rw [hclosed]
    exact List.not_mem_nil
  · intro b hb
    refine hinv.releasers b hb ?_
    rw [hclosed]
    exact hb
  · intro wr hwr
    obtain ⟨w, hw, hget⟩ := List.getElem_of_mem hwr
    refine hinv.numbers w ?_ wr (List.getElem?_eq_some_iff.mpr ⟨hw, hget⟩)
    rw [hclosed]
    exact hw
  · by_cases hassert : ReleaseAsserts x.stream
    · exact .inl (hinv.closed_of_settled hassert hsettled)
    · exact .inr hassert
  · exact releaseAsserts_of_reach (reachVia_of_closing hinit hroom hexec)

/-- A stream with the JPEG and the RAW worker over one buffer, closed while the buffer is in a job
and in a queue. -/
theorem stream_close_returns_one : ∃ x : ClosingState, x.pc = .closed ∧
    (x.stream.cap.run.hw 0).refs = 2 ∧ (∀ k c, x.stream.ctx k = some c → c.pc = .exited) ∧
    (∀ b < x.stream.cap.run.nBufs, (x.stream.releasers b).pc = .done) ∧
    ∀ wr ∈ x.stream.pool, wr.hasJob = false := by
  have hrun : ((streamSystem.exec
      (streamInit (freshCapture 1) (Finset.range 1) (fun k => k ≠ .h264) 1 (by decide))
      [.loopCheck, deliver 0, .incref, .put, .incref, .put, .plan, .enter .jpeg, .wait 0,
        .get .jpeg, .check .jpeg, .assign, .loopBreak, .loopCheck]).any fun s =>
      decide (s.pc = .closing ∧ 0 < s.pool.length) &&
      (closingSystem.exec (.init s) ([.thread (.enter .jpeg), .thread (.enter .raw),
        .thread (.finish 0), .thread (.relEnter 0)] ++ List.replicate 9 .close)).any fun x =>
      decide (x.pc = .closed ∧ (x.stream.cap.run.hw 0).refs = 2)) = true := by decide +kernel
  obtain ⟨s, hexec, hs⟩ := (Option.any_eq_true _ _).mp hrun
  obtain ⟨hs, hx⟩ := Bool.and_eq_true_iff.mp hs
  obtain ⟨hpc, hpool⟩ := of_decide_eq_true hs
  obtain ⟨x, hclosing, hx⟩ := (Option.any_eq_true _ _).mp hx
  obtain ⟨hclosed, hrefs⟩ := of_decide_eq_true hx
  have hr : streamSystem.Reach s :=
    System.Reach.exec _ (.start ⟨freshCapture 1, _, 1, by decide, rfl, by decide, rfl⟩) hexec
  exact ⟨x, hclosed, hrefs, (stream_close_returns hr hpc hpool hclosing).2.1 hclosed⟩

end TinyPilotKvm
