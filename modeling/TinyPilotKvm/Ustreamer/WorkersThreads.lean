/-
# The pool with its locks (`ustreamer/workers.c`)

In `Workers.lean` a thread that waits for a flag or a counter makes no step until it is set.  Here
is how the code does it: with a mutex and a condition variable for each worker's `has_job`, and one
of each for `free_workers`.  `US_COND_WAIT_FOR` tests with the mutex held, gives the mutex up while
it waits, and tests again when it is woken, which may also happen without a signal.  A signal is
lost if nobody waits.

Each condition variable has one thread that can wait on it, so it is a place in that thread's
program.  The owner of the pool is the JPEG thread, and when that has left, the loop's thread, which
destroys the pool; a job is given out by the one, and the final job (die) by the other.
-/
import TinyPilotKvm.Simulation
import TinyPilotKvm.Ustreamer.WorkersAccounting

namespace TinyPilotKvm

/-! ## 1. Data -/

/-- Who can hold a mutex. -/
inductive PoolThread
  | owner
  | worker (i : Nat)
  deriving DecidableEq

/-- Where `_worker_thread` is. -/
inductive WorkerThreadPc
  /-- At `!atomic_load(&wr->pool->stop)` of the loop. -/
  | top
  | lockJob
  /-- At the test of `US_COND_WAIT_FOR`. -/
  | testJob
  /-- Inside `pthread_cond_wait`. -/
  | waitJob
  /-- Woken, and without the mutex yet. -/
  | wokenJob
  | unlockJob
  /-- At the second `!atomic_load(&wr->pool->stop)`. -/
  | checkStop
  | run
  | lockFree
  | countFree
  | unlockFree
  | signalFree
  | exited
  deriving DecidableEq

/-- `us_worker_s` with its thread. -/
structure WorkerThread where
  hasJob : Bool
  jobTimely : Bool
  jobFailed : Bool
  jobStartTs : ℚ
  lastJobTime : ℚ
  hasJobMutex : Option PoolThread
  pc : WorkerThreadPc

/-- Where the owner is.  `todo` are the workers that `us_workers_pool_destroy` has still to come to,
and `none` stands for `us_workers_pool_assign`. -/
inductive OwnerPc
  /-- Outside the functions of the pool. -/
  | idle
  | lockFree
  | testFree
  | waitFree
  | wokenFree
  | unlockFree
  | scan (todo : List Nat) (found : Option Nat)
  | failed
  /-- `us_workers_pool_wait` has returned `wr`. -/
  | hold (wr : Nat)
  | lockJob (wr : Nat) (todo : Option (List Nat))
  | setJob (wr : Nat) (todo : Option (List Nat))
  | unlockJob (wr : Nat) (todo : Option (List Nat))
  | signalJob (wr : Nat) (todo : Option (List Nat))
  | lockTake (wr : Nat)
  | take (wr : Nat)
  | unlockTake
  | destroy (todo : List Nat)
  | join (wr : Nat) (todo : List Nat)
  | destroyed
  deriving DecidableEq

/-- `us_workers_pool_s` with all its threads. -/
structure PoolThreads where
  nWorkers : Nat
  workers : List Nat
  worker : Nat → WorkerThread
  freeWorkers : ℤ
  freeWorkersMutex : Option PoolThread
  jobTimelyTs : ℚ
  stop : Bool
  pc : OwnerPc

/-- `us_workers_pool_init`. -/
def poolThreadsInit (nWorkers : Nat) : PoolThreads where
  nWorkers := nWorkers
  workers := List.range nWorkers
  worker _ := ⟨false, false, false, 0, 0, none, .top⟩
  freeWorkers := nWorkers
  freeWorkersMutex := none
  jobTimelyTs := 0
  stop := false
  pc := .idle

/-! ## 2. Steps -/

inductive OwnerAct
  /-- The next step of the function that it is in. -/
  | next
  /-- `us_workers_pool_assign` to the worker that was found. -/
  | assign
  /-- A turn of the JPEG thread's loop that assigns nothing. -/
  | skip
  /-- `us_workers_pool_destroy`. -/
  | destroy
  /-- `pthread_cond_wait` returns without a signal. -/
  | spurious

inductive ThreadAct
  | next
  /-- `run_job` returns; the two readings of the clock. -/
  | finish (failed : Bool) (startTs endTs : ℚ)
  | spurious

namespace PoolThreads

def setWorker (s : PoolThreads) (i : Nat) (wr : WorkerThread) : PoolThreads :=
  { s with worker := Function.update s.worker i wr }

/-- One turn of the loop in `us_workers_pool_wait`. -/
def scanWorker (s : PoolThreads) (wr : Nat) (found : Option Nat) : Option Nat :=
  if (s.worker wr).hasJob then found
  else
    match found with
    | none => some wr
    | some f => if (s.worker f).jobStartTs ≤ (s.worker wr).jobStartTs then some wr else some f

/-- What `us_workers_pool_wait` does with the worker it has found. -/
def chooseWorker (s : PoolThreads) (wr : Nat) : PoolThreads :=
  let jobTimely := decide (s.jobTimelyTs < (s.worker wr).jobStartTs)
  let s' := s.setWorker wr { s.worker wr with jobTimely := jobTimely }
  { s' with
    workers := s.workers.erase wr ++ [wr]
    jobTimelyTs := if jobTimely then (s.worker wr).jobStartTs else s.jobTimelyTs
    pc := .hold wr }

/-- `US_COND_SIGNAL(wr->has_job_cond)`. -/
def signalJob (s : PoolThreads) (i : Nat) : PoolThreads :=
  if (s.worker i).pc = .waitJob then s.setWorker i { s.worker i with pc := .wokenJob } else s

/-- `US_COND_SIGNAL(pool->free_workers_cond)`. -/
def signalFree (s : PoolThreads) : PoolThreads :=
  if s.pc = .waitFree then { s with pc := .wokenFree } else s

/-- The owner. -/
def ownerStep (s : PoolThreads) (a : OwnerAct) : Option PoolThreads :=
  match s.pc, a with
  | .idle, .next => some { s with pc := .lockFree }
  | .idle, .destroy => some { s with stop := true, pc := .destroy s.workers }
  | .lockFree, .next =>
    if s.freeWorkersMutex = none then
      some { s with freeWorkersMutex := some .owner, pc := .testFree }
    else none
  | .testFree, .next =>
    if s.freeWorkers = 0 then some { s with freeWorkersMutex := none, pc := .waitFree }
    else some { s with pc := .unlockFree }
  | .waitFree, .spurious => some { s with pc := .wokenFree }
  | .wokenFree, .next =>
    if s.freeWorkersMutex = none then
      some { s with freeWorkersMutex := some .owner, pc := .testFree }
    else none
  | .unlockFree, .next => some { s with freeWorkersMutex := none, pc := .scan s.workers none }
  | .scan (wr :: todo) found, .next => some { s with pc := .scan todo (s.scanWorker wr found) }
  | .scan [] none, .next => some { s with pc := .failed }
  | .scan [] (some wr), .next => some (s.chooseWorker wr)
  | .hold _, .skip => some { s with pc := .idle }
  | .hold wr, .assign => some { s with pc := .lockJob wr none }
  | .lockJob wr todo, .next =>
    if (s.worker wr).hasJobMutex = none then
      some { s.setWorker wr { s.worker wr with hasJobMutex := some .owner } with
        pc := .setJob wr todo }
    else none
  | .setJob wr todo, .next =>
    some { s.setWorker wr { s.worker wr with hasJob := true } with pc := .unlockJob wr todo }
  | .unlockJob wr todo, .next =>
    some { s.setWorker wr { s.worker wr with hasJobMutex := none } with pc := .signalJob wr todo }
  | .signalJob wr none, .next => some { s.signalJob wr with pc := .lockTake wr }
  | .signalJob wr (some todo), .next => some { s.signalJob wr with pc := .join wr todo }
  | .lockTake wr, .next =>
    if s.freeWorkersMutex = none then
      some { s with freeWorkersMutex := some .owner, pc := .take wr }
    else none
  | .take _, .next => some { s with freeWorkers := s.freeWorkers - 1, pc := .unlockTake }
  | .unlockTake, .next => some { s with freeWorkersMutex := none, pc := .idle }
  | .destroy (wr :: todo), .next => some { s with pc := .lockJob wr (some todo) }
  | .destroy [], .next => some { s with pc := .destroyed }
  | .join wr todo, .next =>
    if (s.worker wr).pc = .exited then some { s with pc := .destroy todo } else none
  | _, _ => none

/-- `_worker_thread`. -/
def threadStep (s : PoolThreads) (i : Nat) (a : ThreadAct) : Option PoolThreads :=
  let wr := s.worker i
  if i < s.nWorkers then
    match wr.pc, a with
    | .top, .next =>
      some (s.setWorker i { wr with pc := if s.stop then .exited else .lockJob })
    | .lockJob, .next =>
      if wr.hasJobMutex = none then
        some (s.setWorker i { wr with hasJobMutex := some (.worker i), pc := .testJob })
      else none
    | .testJob, .next =>
      if wr.hasJob then some (s.setWorker i { wr with pc := .unlockJob })
      else some (s.setWorker i { wr with hasJobMutex := none, pc := .waitJob })
    | .waitJob, .spurious => some (s.setWorker i { wr with pc := .wokenJob })
    | .wokenJob, .next =>
      if wr.hasJobMutex = none then
        some (s.setWorker i { wr with hasJobMutex := some (.worker i), pc := .testJob })
      else none
    | .unlockJob, .next => some (s.setWorker i { wr with hasJobMutex := none, pc := .checkStop })
    | .checkStop, .next =>
      some (s.setWorker i { wr with pc := if s.stop then .lockFree else .run })
    | .run, .finish failed startTs endTs =>
      let wr := { wr with jobFailed := failed }
      let wr := if failed then wr
        else { wr with jobStartTs := startTs, lastJobTime := endTs - startTs }
      some (s.setWorker i { wr with hasJob := false, pc := .lockFree })
    | .lockFree, .next =>
      if s.freeWorkersMutex = none then
        some { s.setWorker i { wr with pc := .countFree } with
          freeWorkersMutex := some (.worker i) }
      else none
    | .countFree, .next =>
      some { s.setWorker i { wr with pc := .unlockFree } with freeWorkers := s.freeWorkers + 1 }
    | .unlockFree, .next =>
      some { s.setWorker i { wr with pc := .signalFree } with freeWorkersMutex := none }
    | .signalFree, .next => some ((s.setWorker i { wr with pc := .top }).signalFree)
    | _, _ => none
  else none

def step (s : PoolThreads) : OwnerAct ⊕ Nat × ThreadAct → Option PoolThreads
  | .inl a => s.ownerStep a
  | .inr (i, a) => s.threadStep i a

end PoolThreads

def poolThreadsSystem : System PoolThreads (OwnerAct ⊕ Nat × ThreadAct) where
  start s := ∃ nWorkers, 1 ≤ nWorkers ∧ s = poolThreadsInit nWorkers
  step s a := s.step a

end TinyPilotKvm
