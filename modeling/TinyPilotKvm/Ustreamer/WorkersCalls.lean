/-
# The calls of the pool return

Between two calls of the owner no thread can go on for ever without a wake-up that nobody has
sent: a worker that is woken finds its job or goes to sleep again, and the owner that is woken finds
the counter above zero.  Each step lowers a rank (`calls_draining`), where a worker pays for the
wake-up that it sends.

And nobody is stuck (`enabled_of_call`): a mutex is held by somebody who is about to give it up, and
by `LockInv` whoever waits has somebody who will wake him.  So `us_workers_pool_wait`,
`us_workers_pool_assign` and `us_workers_pool_destroy` return (`pool_calls_return`).
-/
import TinyPilotKvm.Draining
import TinyPilotKvm.Ustreamer.WorkersLiveness

namespace TinyPilotKvm

section Steps

variable {s s' : PoolThreads}

/-! ## 1. Ranks -/

/-- Between two calls of the owner, or behind the last one. -/
def OwnerPc.outside : OwnerPc → Bool
  | .idle | .hold _ | .destroyed => true
  | _ => false

/-- The owner makes no call. -/
def PoolThreads.callStep (s : PoolThreads) : OwnerAct ⊕ Nat × ThreadAct → Option PoolThreads
  | .inl a => if s.pc.outside then none else s.ownerStep a
  | .inr (i, a) => s.threadStep i a

/-- The pool from any state that it reaches until the call returns that the owner is in. -/
def poolCallSystem : System PoolThreads (OwnerAct ⊕ Nat × ThreadAct) where
  start := poolThreadsSystem.Reach
  step := PoolThreads.callStep

/-- Not a wake-up that nobody has sent. -/
def poolMoves : OwnerAct ⊕ Nat × ThreadAct → Bool
  | .inl .spurious | .inr (_, .spurious) => false
  | _ => true

/-- Before the wait, or asleep: 0 is a worker that sleeps. -/
def WorkerThreadPc.rank : WorkerThreadPc → Nat
  | .exited | .waitJob => 0
  | .testJob => 1
  | .lockJob | .wokenJob => 2
  | .top => 3
  | .signalFree => 6
  | .unlockFree => 7
  | .countFree => 8
  | .lockFree => 9
  | .run => 10
  | .checkStop => 11
  | .unlockJob => 12

/-- Behind the wait. -/
def WorkerThreadPc.inJob : WorkerThreadPc → Bool
  | .unlockJob | .checkStop | .run => true
  | _ => false

/-- Whether the wait will end: with `stop` each worker is given a final job. -/
def WorkerThread.willRun (stop : Bool) (wr : WorkerThread) : Bool :=
  if stop then wr.pc.beforeJob else wr.hasJob && !wr.pc.inJob

def WorkerThread.rank (stop : Bool) (wr : WorkerThread) : Nat :=
  wr.pc.rank + if wr.willRun stop then 12 else 0

/-- Behind the signal: `us_workers_pool_assign` takes the worker off, `us_workers_pool_destroy`
joins it and goes on. -/
def afterSignal (todo : Option (List Nat)) : Nat := todo.elim 3 fun todo => 20 * todo.length + 2

/-- With `n` workers. -/
def OwnerPc.rank (n : Nat) : OwnerPc → Nat
  | .lockFree | .wokenFree => n + 4
  | .testFree => n + 3
  | .waitFree | .unlockFree => n + 2
  | .scan todo _ => todo.length + 1
  | .lockJob _ todo => afterSignal todo + 18
  | .setJob _ todo => afterSignal todo + 17
  | .unlockJob _ todo => afterSignal todo + 4
  | .signalJob _ todo => afterSignal todo + 3
  | .lockTake _ => 3
  | .take _ => 2
  | .unlockTake => 1
  | .destroy todo => 20 * todo.length + 1
  | .join _ todo => 20 * todo.length + 2
  | _ => 0

def PoolThreads.rank (s : PoolThreads) : Nat :=
  ∑ i ∈ Finset.range s.nWorkers, (s.worker i).rank s.stop + s.pc.rank s.nWorkers

theorem sum_rank_update (stop : Bool) (worker : Nat → WorkerThread) {n i : Nat} (hi : i < n)
    (wr : WorkerThread) :
    ∑ j ∈ Finset.range n, (Function.update worker i wr j).rank stop + (worker i).rank stop
      = ∑ j ∈ Finset.range n, (worker j).rank stop + wr.rank stop := by
  have hmem := Finset.mem_range.mpr hi
  rw [← Finset.add_sum_erase _ _ hmem,
    ← Finset.add_sum_erase _ (fun j => (worker j).rank stop) hmem, Function.update_self]
  have hrest : ∑ j ∈ (Finset.range n).erase i, (Function.update worker i wr j).rank stop
      = ∑ j ∈ (Finset.range n).erase i, (worker j).rank stop :=
    Finset.sum_congr rfl fun j hj => by rw [Function.update_of_ne (Finset.ne_of_mem_erase hj)]
  omega

theorem sum_rank_update_le {stop : Bool} {worker : Nat → WorkerThread} {n i d : Nat}
    {wr : WorkerThread} (h : wr.rank stop ≤ (worker i).rank stop + d) :
    ∑ j ∈ Finset.range n, (Function.update worker i wr j).rank stop
      ≤ ∑ j ∈ Finset.range n, (worker j).rank stop + d := by
  by_cases hi : i < n
  · have hsum := sum_rank_update stop worker hi wr
    omega
  · refine le_trans (le_of_eq (Finset.sum_congr rfl fun j hj => ?_)) (Nat.le_add_right _ d)
    have hne : j ≠ i := fun hji => hi (hji ▸ Finset.mem_range.mp hj)
    rw [Function.update_of_ne hne]

/-- A step of worker `i`, which may wake the owner. -/
theorem rank_thread {i c d : Nat} (hi : i < s.nWorkers) {wr : WorkerThread} {free : ℤ}
    {mutex : Option PoolThread} {pc : OwnerPc}
    (h : wr.rank s.stop + pc.rank s.nWorkers + c
      ≤ (s.worker i).rank s.stop + s.pc.rank s.nWorkers + d) :
    PoolThreads.rank
      { s.setWorker i wr with freeWorkers := free, freeWorkersMutex := mutex, pc := pc } + c
      ≤ s.rank + d := by
  have hsum := sum_rank_update s.stop s.worker hi wr
  show ∑ j ∈ Finset.range s.nWorkers, (Function.update s.worker i wr j).rank s.stop
      + pc.rank s.nWorkers + c
    ≤ ∑ j ∈ Finset.range s.nWorkers, (s.worker j).rank s.stop + s.pc.rank s.nWorkers + d
  omega

/-- A worker on its way. -/
theorem WorkerThread.rank_lt {stop : Bool} {wr wr' : WorkerThread}
    (hpc : wr'.pc.rank < wr.pc.rank)
    (hwill : wr'.willRun stop = true → wr.willRun stop = true) : wr'.rank stop < wr.rank stop := by
  unfold WorkerThread.rank
  cases hrun : wr'.willRun stop with
  | true =>
    rw [hwill hrun]
    exact Nat.add_lt_add_right hpc _
  | false => exact Nat.lt_of_lt_of_le hpc (Nat.le_add_right _ _)

/-- A worker's wake-up. -/
theorem WorkerThread.rank_signalled (stop : Bool) (wr : WorkerThread) :
    wr.signalled.rank stop ≤ wr.rank stop + 2 := by
  unfold WorkerThread.signalled
  split
  · rename_i hwait
    have hwill : WorkerThread.willRun stop { wr with pc := .wokenJob } = wr.willRun stop := by
      simp [WorkerThread.willRun, hwait, WorkerThreadPc.beforeJob, WorkerThreadPc.inJob]
    simp only [WorkerThread.rank, hwill, hwait, WorkerThreadPc.rank]
    omega
  · exact Nat.le_add_right _ 2

/-- **A worker.** -/
theorem rank_threadStep {i : Nat} {a : ThreadAct} (hst : s.threadStep i a = some s') :
    s'.rank + (poolMoves (.inr (i, a))).toNat ≤ s.rank + 2 * (!poolMoves (.inr (i, a))).toNat := by
  unfold PoolThreads.threadStep at hst
  dsimp only at hst
  split at hst
  · rename_i hi
    have hdown {wr : WorkerThread} {free : ℤ} {mutex : Option PoolThread}
        (hpc : wr.pc.rank < (s.worker i).pc.rank)
        (hwill : wr.willRun s.stop = true → (s.worker i).willRun s.stop = true) :
        PoolThreads.rank
          { s.setWorker i wr with freeWorkers := free, freeWorkersMutex := mutex } + 1
            ≤ s.rank + 0 := by
      have hlt := WorkerThread.rank_lt hpc hwill
      refine rank_thread hi ?_
      show wr.rank s.stop + s.pc.rank s.nWorkers + 1 ≤ _
      omega
    split at hst
    case h_1 hpc =>
      obtain rfl := Option.some.inj hst
      refine hdown ?_ ?_
      · cases s.stop <;> simp [hpc, WorkerThreadPc.rank]
      · cases hstop : s.stop <;>
          simp [WorkerThread.willRun, hpc, WorkerThreadPc.beforeJob, WorkerThreadPc.inJob]
    case h_2 hpc =>
      split at hst
      · obtain rfl := Option.some.inj hst
        exact hdown (by simp [hpc, WorkerThreadPc.rank]) (by simp [WorkerThread.willRun, hpc,
          WorkerThreadPc.beforeJob, WorkerThreadPc.inJob])
      · exact absurd hst (by simp)
    case h_3 hpc =>
      split at hst
      · -- the job that the rank has been waiting for
        rename_i hjob
        obtain rfl := Option.some.inj hst
        refine rank_thread hi ?_
        simp only [WorkerThread.rank, WorkerThread.willRun, WorkerThreadPc.rank, hpc, hjob,
          WorkerThreadPc.beforeJob, WorkerThreadPc.inJob, poolMoves]
        have hsame : ∀ r : Nat, 12 + 0 + r + 1 ≤ 1 + 12 + r + 2 * 0 := by omega
        cases s.stop <;> exact hsame _
      · obtain rfl := Option.some.inj hst
        exact hdown (by simp [hpc, WorkerThreadPc.rank]) (by simp [WorkerThread.willRun, hpc,
          WorkerThreadPc.beforeJob, WorkerThreadPc.inJob])
    case h_4 hpc =>
      obtain rfl := Option.some.inj hst
      have hwoken := WorkerThread.rank_signalled s.stop (s.worker i)
      rw [WorkerThread.signalled, if_pos hpc] at hwoken
      refine rank_thread hi ?_
      simp only [poolMoves, Bool.toNat_false, Bool.not_false, Bool.toNat_true]
      omega
    case h_5 hpc =>
      split at hst
      · obtain rfl := Option.some.inj hst
        exact hdown (by simp [hpc, WorkerThreadPc.rank]) (by simp [WorkerThread.willRun, hpc,
          WorkerThreadPc.beforeJob, WorkerThreadPc.inJob])
      · exact absurd hst (by simp)
    case h_6 hpc =>
      obtain rfl := Option.some.inj hst
      exact hdown (by simp [hpc, WorkerThreadPc.rank]) (by simp [WorkerThread.willRun, hpc,
        WorkerThreadPc.beforeJob, WorkerThreadPc.inJob])
    case h_7 hpc =>
      obtain rfl := Option.some.inj hst
      refine hdown ?_ ?_
      · cases s.stop <;> simp [hpc, WorkerThreadPc.rank]
      · cases hstop : s.stop <;>
          simp [WorkerThread.willRun, hpc, WorkerThreadPc.beforeJob, WorkerThreadPc.inJob]
    case h_8 failed startTs endTs hpc =>
      obtain rfl := Option.some.inj hst
      refine hdown ?_ ?_
      · cases failed <;> simp [hpc, WorkerThreadPc.rank]
      · cases failed <;> cases hstop : s.stop <;>
          simp [WorkerThread.willRun, WorkerThreadPc.beforeJob, WorkerThreadPc.inJob]
    case h_9 hpc =>
      split at hst
      · obtain rfl := Option.some.inj hst
        exact hdown (by simp [hpc, WorkerThreadPc.rank]) (by simp [WorkerThread.willRun, hpc,
          WorkerThreadPc.beforeJob, WorkerThreadPc.inJob])
      · exact absurd hst (by simp)
    case h_10 hpc =>
      obtain rfl := Option.some.inj hst
      exact hdown (by simp [hpc, WorkerThreadPc.rank]) (by simp [WorkerThread.willRun, hpc,
        WorkerThreadPc.beforeJob, WorkerThreadPc.inJob])
    case h_11 hpc =>
      obtain rfl := Option.some.inj hst
      exact hdown (by simp [hpc, WorkerThreadPc.rank]) (by simp [WorkerThread.willRun, hpc,
        WorkerThreadPc.beforeJob, WorkerThreadPc.inJob])
    case h_12 hpc =>
      obtain rfl := Option.some.inj hst
      have hwill : WorkerThread.willRun s.stop { s.worker i with pc := .top }
          = (s.worker i).willRun s.stop := by
        simp [WorkerThread.willRun, hpc, WorkerThreadPc.beforeJob, WorkerThreadPc.inJob]
      have htop : WorkerThread.rank s.stop { s.worker i with pc := .top } + 3
          = (s.worker i).rank s.stop := by
        simp only [WorkerThread.rank, hwill, hpc, WorkerThreadPc.rank]
        omega
      unfold PoolThreads.signalFree
      split
      · -- the worker pays for the wake-up
        rename_i hwait
        have hwait : s.pc = .waitFree := hwait
        refine rank_thread hi ?_
        show WorkerThread.rank s.stop { s.worker i with pc := .top } + (s.nWorkers + 4) + 1 ≤ _
        rw [hwait]
        show _ ≤ _ + (s.nWorkers + 2) + 0
        omega
      · refine rank_thread hi ?_
        show WorkerThread.rank s.stop { s.worker i with pc := .top } + s.pc.rank s.nWorkers + 1 ≤ _
        omega
    case h_13 => exact absurd hst (by simp)
  · exact absurd hst (by simp)

/-- A step of the owner that moves no worker. -/
theorem rank_owner {c d : Nat} {free : ℤ} {mutex : Option PoolThread} {pc : OwnerPc}
    (h : pc.rank s.nWorkers + c ≤ s.pc.rank s.nWorkers + d) :
    PoolThreads.rank { s with freeWorkers := free, freeWorkersMutex := mutex, pc := pc } + c
      ≤ s.rank + d := by
  show ∑ j ∈ Finset.range s.nWorkers, (s.worker j).rank s.stop + pc.rank s.nWorkers + c
    ≤ ∑ j ∈ Finset.range s.nWorkers, (s.worker j).rank s.stop + s.pc.rank s.nWorkers + d
  omega

/-- A write of the owner to a worker, for which it pays. -/
theorem rank_ownerWorker {i d : Nat} {wr : WorkerThread} {pc : OwnerPc}
    (hwr : wr.rank s.stop ≤ (s.worker i).rank s.stop + d)
    (hpc : pc.rank s.nWorkers + d + 1 ≤ s.pc.rank s.nWorkers) :
    PoolThreads.rank { s.setWorker i wr with pc := pc } + 1 ≤ s.rank + 0 := by
  have hsum := sum_rank_update_le (n := s.nWorkers) hwr
  show ∑ j ∈ Finset.range s.nWorkers, (Function.update s.worker i wr j).rank s.stop
      + pc.rank s.nWorkers + 1
    ≤ ∑ j ∈ Finset.range s.nWorkers, (s.worker j).rank s.stop + s.pc.rank s.nWorkers + 0
  omega

theorem rank_ownerSignal {i : Nat} {pc : OwnerPc}
    (hpc : pc.rank s.nWorkers + 3 ≤ s.pc.rank s.nWorkers) :
    PoolThreads.rank { s.signalJob i with pc := pc } + 1 ≤ s.rank + 0 := by
  have hwoken := WorkerThread.rank_signalled s.stop (s.worker i)
  unfold WorkerThread.signalled at hwoken
  unfold PoolThreads.signalJob
  split
  · rename_i hwait
    rw [if_pos hwait] at hwoken
    exact rank_ownerWorker hwoken hpc
  · refine rank_owner ?_
    omega

/-- **The owner**, inside a call. -/
theorem rank_ownerStep (hlength : s.workers.length = s.nWorkers) (hcall : s.pc.outside = false)
    {a : OwnerAct} (hst : s.ownerStep a = some s') :
    s'.rank + (poolMoves (.inl a)).toNat ≤ s.rank + 2 * (!poolMoves (.inl a)).toNat := by
  unfold PoolThreads.ownerStep at hst
  split at hst
  case h_1 hpc | h_2 hpc | h_11 hpc | h_12 hpc =>
    rw [hpc] at hcall
    exact absurd hcall (by simp [OwnerPc.outside])
  case h_10 wr hpc =>
    obtain rfl := Option.some.inj hst
    refine rank_ownerWorker (Nat.le_add_right _ 0) ?_
    rw [hpc]
    exact Nat.le_refl _
  case h_13 wr todo hpc =>
    split at hst
    · obtain rfl := Option.some.inj hst
      refine rank_ownerWorker (Nat.le_add_right _ 0) ?_
      rw [hpc]
      exact Nat.le_refl _
    · exact absurd hst (by simp)
  case h_14 wr todo hpc =>
    -- the job is paid for here
    obtain rfl := Option.some.inj hst
    have hjob : WorkerThread.rank s.stop { s.worker wr with hasJob := true }
        ≤ (s.worker wr).rank s.stop + 12 := by
      simp only [WorkerThread.rank]
      split <;> omega
    refine rank_ownerWorker hjob ?_
    rw [hpc]
    exact Nat.le_refl _
  case h_15 wr todo hpc =>
    obtain rfl := Option.some.inj hst
    refine rank_ownerWorker (Nat.le_add_right _ 0) ?_
    rw [hpc]
    exact Nat.le_refl _
  case h_16 wr hpc =>
    obtain rfl := Option.some.inj hst
    refine rank_ownerSignal ?_
    rw [hpc]
    exact Nat.le_refl _
  case h_17 wr todo hpc =>
    obtain rfl := Option.some.inj hst
    refine rank_ownerSignal ?_
    rw [hpc]
    exact Nat.le_refl _
  case h_7 hpc =>
    obtain rfl := Option.some.inj hst
    refine rank_owner ?_
    simp only [hpc, OwnerPc.rank, hlength, poolMoves, Bool.toNat_true]
    omega
  case h_24 => exact absurd hst (by simp)
  all_goals
    rename_i hpc
    try split at hst
    all_goals
      first
        | obtain rfl := Option.some.inj hst
          refine rank_owner ?_
          simp [hpc, OwnerPc.rank, afterSignal, poolMoves]
          try omega
        | exact absurd hst (by simp)

/-- **A call winds down.** -/
theorem calls_draining : poolCallSystem.Draining poolThreadsSystem.Reach (fun _ => True) poolMoves 2
    PoolThreads.rank where
  step := by
    rintro s s' (a | ⟨i, a⟩) hr _ hst
    · have hst : (if s.pc.outside then none else s.ownerStep a) = some s' := hst
      split at hst
      · exact absurd hst (by simp)
      · rename_i hcall
        have hlength := (placeInv_of_reach hr).length_workers
        have hfull : poolThreadsSystem.step s (.inl a) = some s' := hst
        exact ⟨hr.step trivial hfull, rank_ownerStep hlength (by simpa using hcall) hst⟩
    · have hfull : poolThreadsSystem.step s (.inr (i, a)) = some s' := hst
      exact ⟨hr.step trivial hfull, rank_threadStep hst⟩

/-- A bound that knows the number of workers alone. -/
theorem rank_le (hr : poolThreadsSystem.Reach s) : s.rank ≤ 41 * s.nWorkers + 21 := by
  have hplace := placeInv_of_reach hr
  have hworkers : ∑ i ∈ Finset.range s.nWorkers, (s.worker i).rank s.stop ≤ s.nWorkers * 21 := by
    have hle := Finset.sum_le_card_nsmul (Finset.range s.nWorkers)
      (fun i => (s.worker i).rank s.stop) 21 fun i _ => ?_
    · simpa using hle
    · unfold WorkerThread.rank WorkerThread.willRun
      cases s.stop <;> cases (s.worker i).pc <;> simp [WorkerThreadPc.rank,
        WorkerThreadPc.beforeJob, WorkerThreadPc.inJob] <;> split <;> omega
  have hsize := hplace.size
  have hpos := hplace.pos
  have howner : s.pc.rank s.nWorkers ≤ 20 * s.nWorkers + 21 := by
    cases hpc : s.pc <;> rw [hpc] at hsize
    case lockJob wr todo | setJob wr todo | unlockJob wr todo | signalJob wr todo =>
      cases todo with
      | none => simp [OwnerPc.rank, afterSignal]
      | some todo =>
        simp only [OwnerPc.todo, Option.elim_some, List.length_cons] at hsize
        simp only [OwnerPc.rank, afterSignal, Option.elim_some]
        omega
    all_goals
      simp only [OwnerPc.rank, OwnerPc.todo, List.length_cons] at hsize ⊢
      omega
  unfold PoolThreads.rank
  omega

/-! ## 2. Nobody is stuck -/

/-- A thread can go on, and the owner makes no call. -/
def PoolThreads.Enabled (s : PoolThreads) : Prop :=
  ∃ act, poolMoves act = true ∧ (s.callStep act).isSome = true

/-- Not before a mutex, and not asleep. -/
def WorkerThreadPc.ready : WorkerThreadPc → Bool
  | .lockJob | .waitJob | .wokenJob | .lockFree | .exited => false
  | _ => true

theorem enabled_ready {i : Nat} (hi : i < s.nWorkers) (hready : (s.worker i).pc.ready = true) :
    s.Enabled := by
  cases hpc : (s.worker i).pc <;> rw [hpc] at hready
  case run => exact ⟨.inr (i, .finish true 0 0), rfl, by
    simp [PoolThreads.callStep, PoolThreads.threadStep, hi, hpc]⟩
  case lockJob | waitJob | wokenJob | lockFree | exited => exact absurd hready (by decide)
  case testJob =>
    refine ⟨.inr (i, .next), rfl, ?_⟩
    simp only [PoolThreads.callStep, PoolThreads.threadStep, hi, hpc, if_true]
    split <;> rfl
  all_goals
    exact ⟨.inr (i, .next), rfl, by
      simp [PoolThreads.callStep, PoolThreads.threadStep, hi, hpc]⟩

/-- **A mutex** is held by somebody who can go on. -/
theorem enabled_freeMutex (hlock : LockInv s) (hplace : PlaceInv s)
    (howner : s.pc.holdsFree = false) (hheld : s.freeWorkersMutex ≠ none) : s.Enabled := by
  obtain ⟨thread, hthread⟩ := Option.ne_none_iff_exists'.mp hheld
  cases thread with
  | owner =>
    have hholds := hlock.free.mp hthread
    rw [howner] at hholds
    exact absurd hholds (by simp)
  | worker i =>
    have hholds := (hlock.worker i).free.mp hthread
    have hi : i < s.nWorkers := by
      by_contra hout
      rw [hplace.outside i (Nat.not_lt.mp hout)] at hholds
      exact absurd hholds (by decide)
    refine enabled_ready hi ?_
    cases hpc : (s.worker i).pc <;> rw [hpc] at hholds <;>
      first | rfl | exact absurd hholds (by decide)

theorem enabled_jobMutex (hlock : LockInv s) (hplace : PlaceInv s) {i : Nat}
    (howner : s.pc.holdsJob i = false) (hheld : (s.worker i).hasJobMutex ≠ none) :
    (s.worker i).pc.holdsJob = true ∧ s.Enabled := by
  obtain ⟨thread, hthread⟩ := Option.ne_none_iff_exists'.mp hheld
  cases thread with
  | owner =>
    have hholds := (hlock.worker i).owner.mp hthread
    rw [howner] at hholds
    exact absurd hholds (by simp)
  | worker j =>
    obtain ⟨-, hholds⟩ := ((hlock.worker i).self j).mp hthread
    refine ⟨hholds, ?_⟩
    have hi : i < s.nWorkers := by
      by_contra hout
      rw [hplace.outside i (Nat.not_lt.mp hout)] at hholds
      exact absurd hholds (by decide)
    refine enabled_ready hi ?_
    cases hpc : (s.worker i).pc <;> rw [hpc] at hholds <;>
      first | rfl | exact absurd hholds (by decide)

/-- **A worker** that is there and not asleep. -/
theorem enabled_thread (hlock : LockInv s) (hplace : PlaceInv s) {i : Nat} (hi : i < s.nWorkers)
    (hrunning : (s.worker i).pc ≠ .exited) (hawake : (s.worker i).pc ≠ .waitJob)
    (hfree : s.pc.holdsFree = false) (hjob : s.pc.holdsJob i = false) : s.Enabled := by
  by_cases hready : (s.worker i).pc.ready = true
  · exact enabled_ready hi hready
  cases hpc : (s.worker i).pc
  case exited => exact absurd hpc hrunning
  case waitJob => exact absurd hpc hawake
  case lockJob | wokenJob =>
    by_cases hheld : (s.worker i).hasJobMutex = none
    · exact ⟨.inr (i, .next), rfl, by
        simp [PoolThreads.callStep, PoolThreads.threadStep, hi, hpc, hheld]⟩
    · exact (enabled_jobMutex hlock hplace hjob hheld).2
  case lockFree =>
    by_cases hheld : s.freeWorkersMutex = none
    · exact ⟨.inr (i, .next), rfl, by
        simp [PoolThreads.callStep, PoolThreads.threadStep, hi, hpc, hheld]⟩
    · exact enabled_freeMutex hlock hplace hfree hheld
  all_goals
    rw [hpc] at hready
    exact absurd rfl hready

/-- **`us_workers_pool_wait`** asleep with the counter at zero: somebody owes it one. -/
theorem enabled_waitFree (hr : poolThreadsSystem.Reach s) (hpc : s.pc = .waitFree)
    (hzero : s.freeWorkers = 0) : s.Enabled := by
  have hlock := lockInv_of_reach hr
  have hplace := placeInv_of_reach hr
  have hstop := hplace.stop_eq_false (by rw [hpc]; rfl)
  have hbalance := (PoolInv.of_reach (PoolThreads.reach_pool hr hstop)).balance
  have hearly : s.pool.pc.early = 0 := by
    simp [PoolThreads.pool, hpc, OwnerPc.poolPc, PoolPc.early]
  have hpos := hplace.pos
  obtain ⟨i, hi, howes⟩ : ∃ i ∈ Finset.range s.nWorkers, 0 < (s.worker i).usWorker.owed := by
    refine Finset.exists_lt_of_sum_lt (f := fun _ => (0 : ℤ)) ?_
    rw [hearly] at hbalance
    have hsum : (0 : ℤ)
        = s.nWorkers - ∑ i ∈ Finset.range s.nWorkers, (s.worker i).usWorker.owed + 0 :=
      hzero.symm.trans hbalance
    rw [Finset.sum_const_zero]
    omega
  have hi := Finset.mem_range.mp hi
  refine enabled_thread hlock hplace hi (fun hexited => ?_) (fun hwait => ?_) (by rw [hpc]; rfl)
    (by rw [hpc]; rfl)
  · have hset := hplace.exited i hexited
    rw [hstop] at hset
    exact absurd hset (by simp)
  · -- it has a job, and whoever gave it that job has still to signal it
    have hjob : (s.worker i).hasJob = true := by
      by_contra hjob
      simp [UsWorker.owed, WorkerThread.usWorker, hjob, hwait, WorkerThreadPc.usWorkerPc] at howes
    have hhanding := (hlock.worker i).waiting hwait hjob
    rw [hpc] at hhanding
    exact absurd hhanding (by simp [OwnerPc.handing])

/-- The assertion of `us_workers_pool_wait` does not fail. -/
theorem not_failed (hr : poolThreadsSystem.Reach s) : s.pc ≠ .failed := by
  intro hpc
  have hstop := (placeInv_of_reach hr).stop_eq_false (by rw [hpc]; rfl)
  have hjpeg := (PoolInv.of_reach (PoolThreads.reach_pool hr hstop)).jpeg
  have hfailed : s.pool.pc = .failed := by simp [PoolThreads.pool, hpc, OwnerPc.poolPc]
  unfold PoolState.JpegOk at hjpeg
  rw [hfailed] at hjpeg
  exact hjpeg.elim

/-- **Inside a call** somebody can go on. -/
theorem enabled_of_call (hr : poolThreadsSystem.Reach s) (hcall : s.pc.outside = false) :
    s.Enabled := by
  have hlock := lockInv_of_reach hr
  have hplace := placeInv_of_reach hr
  have hnext (h : (s.ownerStep .next).isSome = true) : s.Enabled :=
    ⟨.inl .next, rfl, by simpa [PoolThreads.callStep, hcall] using h⟩
  cases hpc : s.pc
  case idle | hold wr | destroyed =>
    rw [hpc] at hcall
    exact absurd hcall (by simp [OwnerPc.outside])
  case lockFree | wokenFree | lockTake wr =>
    by_cases hheld : s.freeWorkersMutex = none
    · exact hnext (by simp [PoolThreads.ownerStep, hpc, hheld])
    · exact enabled_freeMutex hlock hplace (by rw [hpc]; rfl) hheld
  case testFree =>
    refine hnext ?_
    simp only [PoolThreads.ownerStep, hpc]
    split <;> rfl
  case waitFree =>
    rcases hlock.asleep hpc with hzero | ⟨i, hi, hsignal⟩
    · exact enabled_waitFree hr hpc hzero
    · refine enabled_ready hi ?_
      rcases hsignal with hsignal | hsignal <;> rw [hsignal] <;> rfl
  case scan todo found =>
    refine hnext ?_
    cases todo with
    | nil => cases found <;> simp [PoolThreads.ownerStep, hpc]
    | cons wr todo => simp [PoolThreads.ownerStep, hpc]
  case failed => exact absurd hpc (not_failed hr)
  case lockJob wr todo =>
    by_cases hheld : (s.worker wr).hasJobMutex = none
    · exact hnext (by simp [PoolThreads.ownerStep, hpc, hheld])
    · exact (enabled_jobMutex hlock hplace (by rw [hpc]; rfl) hheld).2
  case signalJob wr todo =>
    refine hnext ?_
    cases todo <;> simp [PoolThreads.ownerStep, hpc]
  case destroy todo =>
    refine hnext ?_
    cases todo <;> simp [PoolThreads.ownerStep, hpc]
  case join wr todo =>
    by_cases hexited : (s.worker wr).pc = .exited
    · exact hnext (by simp [PoolThreads.ownerStep, hpc, hexited])
    have hwr : wr < s.nWorkers := hplace.todo wr (by rw [hpc]; exact List.mem_cons_self)
    refine enabled_thread hlock hplace hwr hexited (fun hwait => ?_) (by rw [hpc]; rfl)
      (by rw [hpc]; rfl)
    -- it has been given its final job, and it has been signalled
    have hworker := hlock.worker wr
    rw [hpc] at hworker
    have hjob := hworker.final (by simp [OwnerPc.finalJob]) (by rw [hwait]; rfl)
    exact absurd (hworker.waiting hwait hjob) (by simp [OwnerPc.handing])
  all_goals exact hnext (by simp [PoolThreads.ownerStep, hpc])

/-- **When nobody can go on**, every worker has left, or it is asleep and has been counted. -/
theorem quiet_of_not_enabled (hr : poolThreadsSystem.Reach s) (hquiet : ¬ s.Enabled) :
    s.pc = .destroyed ∨ (s.pc = .idle ∨ ∃ wr, s.pc = .hold wr) ∧ s.freeWorkers = s.nWorkers ∧
      ∀ i < s.nWorkers, (s.worker i).hasJob = false := by
  have hlock := lockInv_of_reach hr
  have hplace := placeInv_of_reach hr
  have houtside : s.pc.outside = true := by
    by_contra hcall
    exact hquiet (enabled_of_call hr (by simpa using hcall))
  by_cases hdestroyed : s.pc = .destroyed
  · exact .inl hdestroyed
  have hidle : s.pc = .idle ∨ ∃ wr, s.pc = .hold wr := by
    cases hpc : s.pc <;> rw [hpc] at houtside <;> simp_all [OwnerPc.outside]
  obtain ⟨hstop, hfree, hjob, hhanding, hearly⟩ : s.stop = false ∧ s.pc.holdsFree = false ∧
      (∀ i, s.pc.holdsJob i = false) ∧ (∀ i, s.pc.handing i = false) ∧ s.pool.pc.early = 0 := by
    rcases hidle with hpc | ⟨wr, hpc⟩
    · refine ⟨hplace.stop_eq_false (by rw [hpc]; rfl), ?_, ?_, ?_, ?_⟩ <;>
        simp [PoolThreads.pool, hpc, OwnerPc.holdsFree, OwnerPc.holdsJob, OwnerPc.handing,
          OwnerPc.poolPc, PoolPc.early]
    · refine ⟨hplace.stop_eq_false (by rw [hpc]; rfl), ?_, ?_, ?_, ?_⟩ <;>
        simp [PoolThreads.pool, hpc, OwnerPc.holdsFree, OwnerPc.holdsJob, OwnerPc.handing,
          OwnerPc.poolPc, PoolPc.early]
  have hasleep : ∀ i < s.nWorkers, (s.worker i).pc = .waitJob ∧ (s.worker i).hasJob = false := by
    intro i hi
    have hwait : (s.worker i).pc = .waitJob := by
      by_contra hawake
      refine hquiet (enabled_thread hlock hplace hi (fun hexited => ?_) hawake hfree (hjob i))
      have hset := hplace.exited i hexited
      rw [hstop] at hset
      exact absurd hset (by simp)
    refine ⟨hwait, ?_⟩
    by_contra hhas
    have hyes := (hlock.worker i).waiting hwait (by simpa using hhas)
    rw [hhanding i] at hyes
    exact absurd hyes (by simp)
  refine .inr ⟨hidle, ?_, fun i hi => (hasleep i hi).2⟩
  have hbalance := (PoolInv.of_reach (PoolThreads.reach_pool hr hstop)).balance
  have howed : ∑ i ∈ Finset.range s.pool.nWorkers, (s.pool.worker i).owed = 0 := by
    refine Finset.sum_eq_zero fun i hi => ?_
    obtain ⟨hwait, hhas⟩ := hasleep i (Finset.mem_range.mp hi)
    simp [PoolThreads.pool, WorkerThread.usWorker, UsWorker.owed, hwait, hhas,
      WorkerThreadPc.usWorkerPc]
  rw [howed, hearly, sub_zero, add_zero] at hbalance
  exact hbalance

end Steps

/-! ## 3. The pool -/

/-- **The locks keep the threads apart**, in every interleaving and with any wake-ups: the pool with
its locks refines the pool without them until it is destroyed, the assertion of
`us_workers_pool_wait` does not fail, a mutex has one holder, and while the owner has a worker from
`us_workers_pool_wait` in hand, that worker is not in a job, whose data the owner reads and
writes. -/
theorem pool_threads_safe {s : PoolThreads} (hr : poolThreadsSystem.Reach s) :
    (s.stop = false → workersSystem.Reach s.pool) ∧ s.pc ≠ .failed ∧
      (∀ i, s.pc.holdsJob i = true → (s.worker i).pc.holdsJob = false) ∧
      (∀ i, (s.worker i).pc.holdsFree = true →
        s.pc.holdsFree = false ∧ ∀ j, (s.worker j).pc.holdsFree = true → j = i) ∧
      ∀ wr, s.pc = .hold wr ∨ s.pc = .lockJob wr none ∨ s.pc = .setJob wr none →
        wr < s.nWorkers ∧ (s.worker wr).hasJob = false ∧ (s.worker wr).pc.inJob = false := by
  have hlock := lockInv_of_reach hr
  have hplace := placeInv_of_reach hr
  refine ⟨PoolThreads.reach_pool hr, not_failed hr, fun i hholds => ?_, fun i hholds => ⟨?_, ?_⟩,
    fun wr hpc => ?_⟩
  · by_contra hself
    have howner := (hlock.worker i).owner.mpr hholds
    have hworker := ((hlock.worker i).self i).mpr ⟨rfl, by simpa using hself⟩
    exact absurd (howner.symm.trans hworker) (by simp)
  · by_contra howner
    have howner := hlock.free.mpr (by simpa using howner)
    exact absurd (howner.symm.trans ((hlock.worker i).free.mpr hholds)) (by simp)
  · intro j hj
    have hsame := ((hlock.worker j).free.mpr hj).symm.trans ((hlock.worker i).free.mpr hholds)
    simpa using hsame
  · have hhold : s.pool.pc = .hold wr ∧ s.pc.destroying = false := by
      rcases hpc with hpc | hpc | hpc <;>
        simp [PoolThreads.pool, hpc, OwnerPc.poolPc, OwnerPc.destroying]
    have hinv := PoolInv.of_reach (PoolThreads.reach_pool hr (hplace.stop_eq_false hhold.2))
    have hjpeg := hinv.jpeg
    unfold PoolState.JpegOk at hjpeg
    rw [hhold.1] at hjpeg
    obtain ⟨hwr, hjob⟩ := PoolState.mem_free_iff.mp hjpeg.2
    refine ⟨hwr, hjob, ?_⟩
    by_contra hin
    have hrun : (s.pool.worker wr).pc = .run := by
      simp only [PoolThreads.pool, WorkerThread.usWorker]
      cases hcase : (s.worker wr).pc <;> simp_all [WorkerThreadPc.inJob, WorkerThreadPc.usWorkerPc]
    exact absurd ((hinv.running wr hrun).symm.trans hjob) (by simp)

/-- `us_workers_pool_wait` in a pool of one, with the worker about to sleep. -/
def callWait : List (OwnerAct ⊕ Nat × ThreadAct) :=
  [.inr (0, .next), .inr (0, .next), .inr (0, .next)] ++ List.replicate 6 (.inl .next)

/-- A worker that is in hand. -/
theorem pool_threads_safe_one : ∃ s : PoolThreads, s.pc = .hold 0 ∧ (s.worker 0).pc = .waitJob ∧
    (s.worker 0).pc.inJob = false := by
  have hrun : ((poolThreadsSystem.exec (poolThreadsInit 1) callWait).any fun s =>
      decide (s.pc = .hold 0 ∧ (s.worker 0).pc = .waitJob)) = true := by decide +kernel
  obtain ⟨s, hexec, hs⟩ := (Option.any_eq_true _ _).mp hrun
  obtain ⟨hpc, hwait⟩ := of_decide_eq_true hs
  have hstart : poolThreadsSystem.start (poolThreadsInit 1) := ⟨1, Nat.le_refl 1, rfl⟩
  have hr := System.Reach.exec _ (.start hstart) hexec
  exact ⟨s, hpc, hwait, ((pool_threads_safe hr).2.2.2.2 0 (.inl hpc)).2.2⟩

/-- **Every call of the pool returns.**  From any state on, until the owner makes its next call, the
threads make no more than `41 n + 21` steps together, and two more for each wake-up that nobody has
sent.  When none of them can go on, the pool is destroyed, or the owner is outside the pool's
functions, no worker has a job and all of them have been counted.  When the pool is destroyed, every
worker has left. -/
theorem pool_calls_return {s s' : PoolThreads} (hr : poolThreadsSystem.Reach s)
    {acts : List (OwnerAct ⊕ Nat × ThreadAct)} (hexec : poolCallSystem.exec s acts = some s') :
    acts.countP poolMoves
        ≤ 41 * s.nWorkers + 21 + 2 * acts.countP (fun act => !poolMoves act) ∧
      (poolCallSystem.Settled poolMoves s' → s'.pc = .destroyed ∨
        (s'.pc = .idle ∨ ∃ wr, s'.pc = .hold wr) ∧ s'.freeWorkers = s'.nWorkers ∧
          ∀ i < s'.nWorkers, (s'.worker i).hasJob = false) ∧
      (s'.pc = .destroyed → ∀ i < s'.nWorkers, (s'.worker i).pc = .exited) := by
  obtain ⟨hr', hrank⟩ := calls_draining.exec hr (fun _ _ => trivial) hexec
  have hle := rank_le hr
  refine ⟨by omega, fun hsettled => quiet_of_not_enabled hr' ?_, fun hpc i hi => ?_⟩
  · rintro ⟨act, hmoves, hstep⟩
    have hnone : s'.callStep act = none := hsettled act hmoves
    rw [hnone] at hstep
    exact absurd hstep (by simp)
  · refine (placeInv_of_reach hr').left (by rw [hpc]; rfl) i hi ?_
    rw [hpc]
    exact List.not_mem_nil

/-- `us_workers_pool_destroy` in a pool of one, whose worker is woken once too often. -/
def callDestroy : List (OwnerAct ⊕ Nat × ThreadAct) :=
  [.inr (0, .spurious), .inr (0, .next), .inr (0, .next), .inl .next, .inl .next, .inl .next,
    .inl .next, .inl .next, .inr (0, .next), .inr (0, .next), .inr (0, .next), .inr (0, .next),
    .inr (0, .next), .inr (0, .next), .inr (0, .next), .inr (0, .next), .inr (0, .next),
    .inl .next, .inl .next]

theorem pool_calls_return_one : ∃ s s' : PoolThreads, s.pc = .destroy [0] ∧ s'.pc = .destroyed ∧
    (s'.worker 0).pc = .exited := by
  have hrun : ((poolThreadsSystem.exec (poolThreadsInit 1)
      [.inr (0, .next), .inr (0, .next), .inr (0, .next), .inl .destroy]).any fun s =>
        decide (s.pc = .destroy [0]) && (poolCallSystem.exec s callDestroy).any fun s' =>
          decide (s'.pc = .destroyed ∧ 0 < s'.nWorkers)) = true := by decide +kernel
  obtain ⟨s, hexec, hs⟩ := (Option.any_eq_true _ _).mp hrun
  obtain ⟨hpc, hs⟩ := Bool.and_eq_true_iff.mp hs
  obtain ⟨s', hexec', hs⟩ := (Option.any_eq_true _ _).mp hs
  obtain ⟨hpc', hpos⟩ := of_decide_eq_true hs
  have hstart : poolThreadsSystem.start (poolThreadsInit 1) := ⟨1, Nat.le_refl 1, rfl⟩
  have hr := System.Reach.exec _ (.start hstart) hexec
  exact ⟨s, s', of_decide_eq_true hpc, hpc', (pool_calls_return hr hexec').2.2 hpc' 0 hpos⟩

end TinyPilotKvm
