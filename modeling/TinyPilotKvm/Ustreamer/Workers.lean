/-
# The pool of encoder workers (`ustreamer/workers.h`, `ustreamer/workers.c`)

`us_workers_pool_wait` waits for `free_workers`, looks for a worker without `has_job` and moves it
to the end of the list; `us_workers_pool_assign` sets its `has_job` and takes one off
`free_workers`.  The worker's thread runs the job, clears `has_job` and adds one to
`free_workers`.  The flags are atomic and the counter has a mutex of its own, so the steps of this
module are the single accesses: every worker is looked at in a step of its own, and clearing and
counting are two steps, as are setting and taking off.

`free_workers` is an integer here, so that it would be seen to fall below zero.  The pool is the
one between `us_workers_pool_init` and `us_workers_pool_destroy`: `stop` is not set.
-/
import Mathlib.Algebra.Order.Ring.Rat
import TinyPilotKvm.Transition

namespace TinyPilotKvm

/-! ## 1. Data -/

/-- Where a worker's thread is: waiting for `has_job`, running its job, or between clearing
`has_job` and counting itself. -/
inductive UsWorkerPc
  | wait
  | run
  | count
  deriving DecidableEq

/-- `us_worker_s`. -/
structure UsWorker where
  hasJob : Bool
  jobTimely : Bool
  jobFailed : Bool
  jobStartTs : ℚ
  lastJobTime : ℚ
  pc : UsWorkerPc

/-- Where the JPEG thread is.  `scan todo found` is in the loop of `us_workers_pool_wait`, which
has returned in `hold wr`; `assigned wr` is inside `us_workers_pool_assign`, and `failed` behind
the assertion. -/
inductive PoolPc
  | idle
  | scan (todo : List Nat) (found : Option Nat)
  | hold (wr : Nat)
  | assigned (wr : Nat)
  | failed
  deriving DecidableEq

/-- `us_workers_pool_s` with its threads; `workers` is the list, by the workers' numbers. -/
structure PoolState where
  nWorkers : Nat
  workers : List Nat
  worker : Nat → UsWorker
  freeWorkers : ℤ
  jobTimelyTs : ℚ
  pc : PoolPc

/-- `us_workers_pool_init`. -/
def usWorkersPoolInit (nWorkers : Nat) : PoolState where
  nWorkers := nWorkers
  workers := List.range nWorkers
  worker _ := ⟨false, false, false, 0, 0, .wait⟩
  freeWorkers := nWorkers
  jobTimelyTs := 0
  pc := .idle

/-! ## 2. Steps -/

/-- The JPEG thread's steps; `skip` is a turn of its loop that assigns nothing. -/
inductive PoolAct
  | wait
  | load
  | choose
  | skip
  | assign
  | takeOff

/-- A worker's steps; `finish` has what `run_job` says and the two readings of the clock. -/
inductive WorkerAct
  | wake
  | finish (failed : Bool) (startTs endTs : ℚ)
  | count

namespace PoolState

def setWorker (s : PoolState) (i : Nat) (wr : UsWorker) : PoolState :=
  { s with worker := Function.update s.worker i wr }

/-- One turn of the loop in `us_workers_pool_wait`. -/
def scanWorker (s : PoolState) (wr : Nat) (found : Option Nat) : Option Nat :=
  if (s.worker wr).hasJob then found
  else
    match found with
    | none => some wr
    | some f => if (s.worker f).jobStartTs ≤ (s.worker wr).jobStartTs then some wr else some f

/-- What `us_workers_pool_wait` does with the worker it has found. -/
def chooseWorker (s : PoolState) (wr : Nat) : PoolState :=
  let jobTimely := decide (s.jobTimelyTs < (s.worker wr).jobStartTs)
  let s' := s.setWorker wr { s.worker wr with jobTimely := jobTimely }
  { s' with
    workers := s.workers.erase wr ++ [wr]
    jobTimelyTs := if jobTimely then (s.worker wr).jobStartTs else s.jobTimelyTs
    pc := .hold wr }

/-- The JPEG thread. -/
def poolStep (s : PoolState) (a : PoolAct) : Option PoolState :=
  match s.pc, a with
  | .idle, .wait =>
    if s.freeWorkers = 0 then none else some { s with pc := .scan s.workers none }
  | .scan (wr :: todo) found, .load => some { s with pc := .scan todo (s.scanWorker wr found) }
  | .scan [] none, .choose => some { s with pc := .failed }
  | .scan [] (some wr), .choose => some (s.chooseWorker wr)
  | .hold _, .skip => some { s with pc := .idle }
  | .hold wr, .assign =>
    some { s.setWorker wr { s.worker wr with hasJob := true } with pc := .assigned wr }
  | .assigned _, .takeOff => some { s with freeWorkers := s.freeWorkers - 1, pc := .idle }
  | _, _ => none

/-- `_worker_thread`. -/
def workerStep (s : PoolState) (i : Nat) (a : WorkerAct) : Option PoolState :=
  if i < s.nWorkers then
    match (s.worker i).pc, a with
    | .wait, .wake =>
      if (s.worker i).hasJob then some (s.setWorker i { s.worker i with pc := .run }) else none
    | .run, .finish failed startTs endTs =>
      let wr := { s.worker i with jobFailed := failed }
      let wr := if failed then wr
        else { wr with jobStartTs := startTs, lastJobTime := endTs - startTs }
      some (s.setWorker i { wr with hasJob := false, pc := .count })
    | .count, .count =>
      some { s.setWorker i { s.worker i with pc := .wait } with freeWorkers := s.freeWorkers + 1 }
    | _, _ => none
  else none

/-- One step of one thread. -/
def step (s : PoolState) : PoolAct ⊕ Nat × WorkerAct → Option PoolState
  | .inl a => s.poolStep a
  | .inr (i, a) => s.workerStep i a

end PoolState

def workersSystem : System PoolState (PoolAct ⊕ Nat × WorkerAct) where
  start s := ∃ nWorkers, 1 ≤ nWorkers ∧ s = usWorkersPoolInit nWorkers
  step s a := s.step a

end TinyPilotKvm
