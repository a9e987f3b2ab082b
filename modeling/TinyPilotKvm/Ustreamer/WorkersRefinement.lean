/-
# The locks do what the waits say

`PoolThreads.pool` forgets the mutexes and the places inside the functions, and takes each step of
the pool with its locks to a step of `workersSystem` or to none, until the pool is destroyed
(`poolThreads_refine`).  So what is known of the accounting holds with the locks as well: the
assertion of `us_workers_pool_wait` does not fail.
-/
import TinyPilotKvm.Ustreamer.WorkersThreads

namespace TinyPilotKvm

/-! ## 1. What is forgotten -/

def WorkerThreadPc.usWorkerPc : WorkerThreadPc → UsWorkerPc
  | .unlockJob | .checkStop | .run => .run
  | .lockFree | .countFree => .count
  | _ => .wait

def WorkerThread.usWorker (wr : WorkerThread) : UsWorker :=
  ⟨wr.hasJob, wr.jobTimely, wr.jobFailed, wr.jobStartTs, wr.lastJobTime, wr.pc.usWorkerPc⟩

/-- The test of `free_workers` has succeeded before the mutex is given up. -/
def OwnerPc.poolPc (workers : List Nat) : OwnerPc → PoolPc
  | .unlockFree => .scan workers none
  | .scan todo found => .scan todo found
  | .failed => .failed
  | .hold wr | .lockJob wr _ | .setJob wr _ => .hold wr
  | .unlockJob wr _ | .signalJob wr _ | .lockTake wr | .take wr => .assigned wr
  | _ => .idle

/-- Inside `us_workers_pool_destroy`. -/
def OwnerPc.destroying : OwnerPc → Bool
  | .lockJob _ todo | .setJob _ todo | .unlockJob _ todo | .signalJob _ todo => todo.isSome
  | .destroy _ | .join _ _ | .destroyed => true
  | _ => false

namespace PoolThreads

/-- The pool without its locks. -/
def pool (s : PoolThreads) : PoolState where
  nWorkers := s.nWorkers
  workers := s.workers
  worker i := (s.worker i).usWorker
  freeWorkers := s.freeWorkers
  jobTimelyTs := s.jobTimelyTs
  pc := s.pc.poolPc s.workers

variable {s s' : PoolThreads}

theorem usWorker_update (worker : Nat → WorkerThread) (i : Nat) (wr : WorkerThread) :
    (fun j => (Function.update worker i wr j).usWorker)
      = Function.update (fun j => (worker j).usWorker) i wr.usWorker := by
  funext j
  by_cases hj : j = i
  · subst hj
    rw [Function.update_self, Function.update_self]
  · rw [Function.update_of_ne hj, Function.update_of_ne hj]

/-- A write to a worker. -/
theorem pool_setWorker (s : PoolThreads) (i : Nat) (wr : WorkerThread) (pc : OwnerPc)
    (mutex : Option PoolThread) (free : ℤ) :
    pool { s.setWorker i wr with pc := pc, freeWorkersMutex := mutex, freeWorkers := free }
      = { s.pool.setWorker i wr.usWorker with
          pc := pc.poolPc s.workers, freeWorkers := free } := by
  simp only [pool, setWorker, PoolState.setWorker, usWorker_update]

/-- A step of a worker that is not seen. -/
theorem pool_setWorker_of_eq {i : Nat} {wr : WorkerThread} {pc : OwnerPc}
    (mutex : Option PoolThread) (hpc : pc.poolPc s.workers = s.pc.poolPc s.workers)
    (h : wr.usWorker = (s.worker i).usWorker) :
    pool { s.setWorker i wr with pc := pc, freeWorkersMutex := mutex } = s.pool := by
  have hworker : s.pool.worker i = wr.usWorker := h.symm
  refine (pool_setWorker s i wr pc mutex s.freeWorkers).trans ?_
  rw [PoolState.setWorker, ← hworker, Function.update_eq_self, hpc]
  rfl

theorem pool_chooseWorker (wr : Nat) : (s.chooseWorker wr).pool = s.pool.chooseWorker wr := by
  simp only [pool, chooseWorker, setWorker, PoolState.chooseWorker, PoolState.setWorker,
    usWorker_update, OwnerPc.poolPc]
  rfl

/-- A step of the owner that is not seen. -/
theorem pool_pc {pc : OwnerPc} (mutex : Option PoolThread) (stop : Bool)
    (h : pc.poolPc s.workers = s.pc.poolPc s.workers) :
    pool { s with pc := pc, freeWorkersMutex := mutex, stop := stop } = s.pool := by
  simp only [pool, h]

theorem pool_signalJob {i : Nat} {pc : OwnerPc}
    (h : pc.poolPc s.workers = s.pc.poolPc s.workers) :
    pool { s.signalJob i with pc := pc } = s.pool := by
  unfold signalJob
  split
  · rename_i hpc
    refine pool_setWorker_of_eq s.freeWorkersMutex h ?_
    simp only [WorkerThread.usWorker, hpc, WorkerThreadPc.usWorkerPc]
  · exact pool_pc s.freeWorkersMutex s.stop h

theorem pool_signalFree : s.signalFree.pool = s.pool := by
  unfold signalFree
  split
  · rename_i hpc
    exact pool_pc s.freeWorkersMutex s.stop (by rw [hpc]; rfl)
  · rfl

/-! ## 2. The refinement -/

/-- A step as it is seen without the locks. -/
def Seen (s s' : PoolThreads) : Prop :=
  s'.pool = s.pool ∨ ∃ b, s.pool.step b = some s'.pool

/-- **The owner.** -/
theorem seen_ownerStep {a : OwnerAct} (hst : s.ownerStep a = some s')
    (hpool : s.pc.destroying = false) (hstop : s'.stop = false) : Seen s s' := by
  unfold ownerStep at hst
  split at hst
  case h_1 hpc =>
    obtain rfl := Option.some.inj hst
    exact .inl (pool_pc _ _ (by rw [hpc]; rfl))
  case h_2 hpc =>
    obtain rfl := Option.some.inj hst
    exact absurd hstop (by simp)
  case h_3 hpc =>
    split at hst
    · obtain rfl := Option.some.inj hst
      exact .inl (pool_pc _ _ (by rw [hpc]; rfl))
    · exact absurd hst (by simp)
  case h_4 hpc =>
    split at hst
    · obtain rfl := Option.some.inj hst
      exact .inl (pool_pc _ _ (by rw [hpc]; rfl))
    · rename_i hfree
      obtain rfl := Option.some.inj hst
      have hidle : s.pool.pc = .idle := by simp [pool, hpc, OwnerPc.poolPc]
      have hne : s.pool.freeWorkers ≠ 0 := hfree
      refine .inr ⟨.inl .wait, ?_⟩
      simp only [PoolState.step, PoolState.poolStep, hidle, if_neg hne]
      rfl
  case h_5 hpc =>
    obtain rfl := Option.some.inj hst
    exact .inl (pool_pc _ _ (by rw [hpc]; rfl))
  case h_6 hpc =>
    split at hst
    · obtain rfl := Option.some.inj hst
      exact .inl (pool_pc _ _ (by rw [hpc]; rfl))
    · exact absurd hst (by simp)
  case h_7 hpc =>
    obtain rfl := Option.some.inj hst
    exact .inl (pool_pc _ _ (by rw [hpc]; rfl))
  case h_8 wr todo found hpc =>
    obtain rfl := Option.some.inj hst
    have hscan : s.pool.pc = .scan (wr :: todo) found := by simp [pool, hpc, OwnerPc.poolPc]
    refine .inr ⟨.inl .load, ?_⟩
    simp only [PoolState.step, PoolState.poolStep, hscan]
    rfl
  case h_9 hpc =>
    obtain rfl := Option.some.inj hst
    have hscan : s.pool.pc = .scan [] none := by simp [pool, hpc, OwnerPc.poolPc]
    refine .inr ⟨.inl .choose, ?_⟩
    simp only [PoolState.step, PoolState.poolStep, hscan]
    rfl
  case h_10 wr hpc =>
    obtain rfl := Option.some.inj hst
    have hscan : s.pool.pc = .scan [] (some wr) := by simp [pool, hpc, OwnerPc.poolPc]
    refine .inr ⟨.inl .choose, ?_⟩
    simp only [PoolState.step, PoolState.poolStep, hscan, pool_chooseWorker]
  case h_11 hpc =>
    obtain rfl := Option.some.inj hst
    have hhold : s.pool.pc = .hold _ := congrArg (OwnerPc.poolPc s.workers) hpc
    refine .inr ⟨.inl .skip, ?_⟩
    simp only [PoolState.step, PoolState.poolStep, hhold]
    rfl
  case h_12 wr hpc =>
    obtain rfl := Option.some.inj hst
    exact .inl (pool_pc _ _ (by rw [hpc]; rfl))
  case h_13 wr todo hpc =>
    split at hst
    · obtain rfl := Option.some.inj hst
      exact .inl (pool_setWorker_of_eq _ (by rw [hpc]; rfl) rfl)
    · exact absurd hst (by simp)
  case h_14 wr todo hpc =>
    obtain rfl := Option.some.inj hst
    have hhold : s.pool.pc = .hold wr := congrArg (OwnerPc.poolPc s.workers) hpc
    refine .inr ⟨.inl .assign, ?_⟩
    simp only [PoolState.step, PoolState.poolStep, hhold]
    exact congrArg some (pool_setWorker s wr { s.worker wr with hasJob := true }
      (.unlockJob wr todo) s.freeWorkersMutex s.freeWorkers).symm
  case h_15 wr todo hpc =>
    obtain rfl := Option.some.inj hst
    exact .inl (pool_setWorker_of_eq _ (by rw [hpc]; rfl) rfl)
  case h_16 wr hpc =>
    obtain rfl := Option.some.inj hst
    exact .inl (pool_signalJob (by rw [hpc]; rfl))
  case h_17 hpc =>
    rw [hpc] at hpool
    exact absurd hpool (by simp [OwnerPc.destroying])
  case h_18 wr hpc =>
    split at hst
    · obtain rfl := Option.some.inj hst
      exact .inl (pool_pc _ _ (by rw [hpc]; rfl))
    · exact absurd hst (by simp)
  case h_19 wr hpc =>
    obtain rfl := Option.some.inj hst
    have hassigned : s.pool.pc = .assigned _ := congrArg (OwnerPc.poolPc s.workers) hpc
    refine .inr ⟨.inl .takeOff, ?_⟩
    simp only [PoolState.step, PoolState.poolStep, hassigned]
    rfl
  case h_20 hpc =>
    obtain rfl := Option.some.inj hst
    exact .inl (pool_pc _ _ (by rw [hpc]; rfl))
  case h_24 => exact absurd hst (by simp)
  all_goals
    rename_i hpc
    rw [hpc] at hpool
    exact absurd hpool (by simp [OwnerPc.destroying])

/-- **A worker.** -/
theorem seen_threadStep {i : Nat} {a : ThreadAct} (hst : s.threadStep i a = some s')
    (hstop : s.stop = false) : Seen s s' := by
  unfold threadStep at hst
  dsimp only at hst
  split at hst
  · rename_i hi
    have hidden {wr : WorkerThread} (mutex : Option PoolThread)
        (h : wr.usWorker = (s.worker i).usWorker) :
        Seen s { s.setWorker i wr with freeWorkersMutex := mutex } :=
      .inl (pool_setWorker_of_eq _ rfl h)
    split at hst
    case h_1 hpc =>
      obtain rfl := Option.some.inj hst
      refine hidden s.freeWorkersMutex ?_
      simp [hstop, WorkerThread.usWorker, hpc, WorkerThreadPc.usWorkerPc]
    case h_2 hpc =>
      split at hst
      · obtain rfl := Option.some.inj hst
        refine hidden s.freeWorkersMutex ?_
        simp [WorkerThread.usWorker, hpc, WorkerThreadPc.usWorkerPc]
      · exact absurd hst (by simp)
    case h_3 hpc =>
      split at hst
      · rename_i hjob
        obtain rfl := Option.some.inj hst
        have hwait : (s.pool.worker i).pc = .wait := congrArg WorkerThreadPc.usWorkerPc hpc
        have hflag : (s.pool.worker i).hasJob = true := hjob
        refine .inr ⟨.inr (i, .wake), ?_⟩
        simp only [PoolState.step, PoolState.workerStep, hwait]
        rw [if_pos (show i < s.pool.nWorkers from hi), if_pos hflag]
        exact congrArg some (pool_setWorker s i { s.worker i with pc := .unlockJob } s.pc
          s.freeWorkersMutex s.freeWorkers).symm
      · obtain rfl := Option.some.inj hst
        refine hidden s.freeWorkersMutex ?_
        simp [WorkerThread.usWorker, hpc, WorkerThreadPc.usWorkerPc]
    case h_4 hpc =>
      obtain rfl := Option.some.inj hst
      refine hidden s.freeWorkersMutex ?_
      simp [WorkerThread.usWorker, hpc, WorkerThreadPc.usWorkerPc]
    case h_5 hpc =>
      split at hst
      · obtain rfl := Option.some.inj hst
        refine hidden s.freeWorkersMutex ?_
        simp [WorkerThread.usWorker, hpc, WorkerThreadPc.usWorkerPc]
      · exact absurd hst (by simp)
    case h_6 hpc =>
      obtain rfl := Option.some.inj hst
      refine hidden s.freeWorkersMutex ?_
      simp [WorkerThread.usWorker, hpc, WorkerThreadPc.usWorkerPc]
    case h_7 hpc =>
      obtain rfl := Option.some.inj hst
      refine hidden s.freeWorkersMutex ?_
      simp [hstop, WorkerThread.usWorker, hpc, WorkerThreadPc.usWorkerPc]
    case h_8 failed startTs endTs hpc =>
      obtain rfl := Option.some.inj hst
      have hrun : (s.pool.worker i).pc = .run := congrArg WorkerThreadPc.usWorkerPc hpc
      refine .inr ⟨.inr (i, .finish failed startTs endTs), ?_⟩
      simp only [PoolState.step, PoolState.workerStep, hrun]
      rw [if_pos (show i < s.pool.nWorkers from hi)]
      refine congrArg some (Eq.trans ?_ (pool_setWorker s i _ s.pc s.freeWorkersMutex
        s.freeWorkers).symm)
      cases failed <;> rfl
    case h_9 hpc =>
      split at hst
      · obtain rfl := Option.some.inj hst
        refine hidden _ ?_
        simp [WorkerThread.usWorker, hpc, WorkerThreadPc.usWorkerPc]
      · exact absurd hst (by simp)
    case h_10 hpc =>
      obtain rfl := Option.some.inj hst
      have hcount : (s.pool.worker i).pc = .count := congrArg WorkerThreadPc.usWorkerPc hpc
      refine .inr ⟨.inr (i, .count), ?_⟩
      simp only [PoolState.step, PoolState.workerStep, hcount]
      rw [if_pos (show i < s.pool.nWorkers from hi)]
      exact congrArg some (pool_setWorker s i { s.worker i with pc := .unlockFree } s.pc
        s.freeWorkersMutex (s.freeWorkers + 1)).symm
    case h_11 hpc =>
      obtain rfl := Option.some.inj hst
      refine hidden _ ?_
      simp [WorkerThread.usWorker, hpc, WorkerThreadPc.usWorkerPc]
    case h_12 hpc =>
      obtain rfl := Option.some.inj hst
      refine .inl (pool_signalFree.trans ?_)
      refine pool_setWorker_of_eq s.freeWorkersMutex rfl ?_
      simp [WorkerThread.usWorker, hpc, WorkerThreadPc.usWorkerPc]
    case h_13 => exact absurd hst (by simp)
  · exact absurd hst (by simp)

/-- The pool is destroyed after `stop` is set, which is never taken back. -/
theorem ownerStep_stop {a : OwnerAct} (hst : s.ownerStep a = some s') :
    (s.stop = true → s'.stop = true) ∧
      ((s.pc.destroying = true → s.stop = true) → s'.pc.destroying = true → s'.stop = true) := by
  unfold ownerStep at hst
  split at hst
  all_goals rename_i hpc
  all_goals grind [OwnerPc.destroying, setWorker, chooseWorker, signalJob]

theorem threadStep_stop {i : Nat} {a : ThreadAct} (hst : s.threadStep i a = some s') :
    s'.stop = s.stop ∧ s'.pc.destroying = s.pc.destroying := by
  unfold threadStep at hst
  dsimp only at hst
  split at hst
  · split at hst
    all_goals grind [OwnerPc.destroying, setWorker, signalFree]
  · exact absurd hst (by simp)

theorem stop_of_destroying (hr : poolThreadsSystem.Reach s) :
    s.pc.destroying = true → s.stop = true := by
  refine hr.inv (I := fun s => s.pc.destroying = true → s.stop = true) ?_ ?_
  · rintro s ⟨n, -, rfl⟩ h
    exact absurd h (by simp [poolThreadsInit, OwnerPc.destroying])
  · rintro s s' (a | ⟨i, a⟩) hI _ hst
    · exact (ownerStep_stop hst).2 hI
    · obtain ⟨hstop, hdestroying⟩ := threadStep_stop hst
      rw [hstop, hdestroying]
      exact hI

/-- **The pool with its locks refines the pool without them**, until it is destroyed. -/
theorem reach_pool (hr : poolThreadsSystem.Reach s) (hstop : s.stop = false) :
    workersSystem.Reach s.pool := by
  refine hr.refines (fun s => s.stop = false) pool ?_ ?_ ?_ hstop
  · rintro s ⟨n, hn, rfl⟩
    exact ⟨n, hn, rfl⟩
  · rintro s s' (a | ⟨i, a⟩) hst hstop
    · by_contra hset
      have hstop' := (ownerStep_stop hst).1 (by simpa using hset)
      rw [hstop] at hstop'
      exact absurd hstop' (by simp)
    · rwa [(threadStep_stop hst).1] at hstop
  · rintro s s' (a | ⟨i, a⟩) hr hstop hst
    · refine seen_ownerStep hst ?_ hstop
      by_contra hdestroying
      have hset := stop_of_destroying hr (by simpa using hdestroying)
      rw [(ownerStep_stop hst).1 hset] at hstop
      exact absurd hstop (by simp)
    · rw [(threadStep_stop hst).1] at hstop
      exact seen_threadStep hst hstop

end PoolThreads

end TinyPilotKvm
