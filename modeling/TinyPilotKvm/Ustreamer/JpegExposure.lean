/-
# The order of the exposed JPEG frames (`_jpeg_thread` in `ustreamer/stream.c`)

The JPEG thread takes finished workers from the pool, exposes what is timely, and assigns the next
buffer.  The pool's steps are those of `Workers`; what is added is `job->hw`, which tells a worker
whose result has not been looked at, and a history that numbers the jobs in the order in which
they are assigned: what became of each (`result`), the jobs in the order in which
`us_workers_pool_wait` has returned them (`seen`), and those whose result went to the ring
(`exposed`).

**The link**: `job_timely_ts` is the greatest start of a job seen so far that did not fail
(`JpegInv.timelyTs`), although it is compared with the workers' `job_start_ts`, which a failed job
leaves as it was.  It works since what is left there has been seen before
(`JpegInv.stale`).  So the JPEG thread exposes records of `seen`.
-/
import TinyPilotKvm.Records
import TinyPilotKvm.Ustreamer.WorkersAccounting

namespace TinyPilotKvm

/-! ## 1. The JPEG thread -/

/-- What became of a job; `startTs` is the reading of the clock before `run_job`. -/
inductive JobResult
  | failed
  | done (startTs : ℚ)
  deriving DecidableEq

/-- The start of a job that did not fail. -/
def JobResult.startTs : JobResult → Option ℚ
  | .failed => none
  | .done startTs => some startTs

/-- The JPEG thread over the pool.  `hw` says of which workers `job->hw` is set, and `collected`
that the thread is past that part of its loop. -/
structure JpegState where
  pool : PoolState
  hw : Nat → Bool
  collected : Bool
  started : Nat
  jobOf : Nat → Nat
  result : Nat → Option JobResult
  seen : List Nat
  exposed : List Nat

def jpegInit (nWorkers : Nat) : JpegState where
  pool := usWorkersPoolInit nWorkers
  hw _ := false
  collected := false
  started := 0
  jobOf _ := 0
  result _ := none
  seen := []
  exposed := []

/-- `collect` is the part on `job->hw`; `published` is false where `_stream_expose_jpeg` gives up
because the stream stops.  `skip` is a turn without a buffer, viewers or fluency. -/
inductive JpegAct
  | wait
  | load
  | choose
  | collect (published : Bool)
  | skip
  | assign
  | takeOff
  | worker (i : Nat) (a : WorkerAct)

namespace JpegState

def setPool (s : JpegState) (p : PoolState) : JpegState := { s with pool := p }

/-- `us_workers_pool_wait` returns `wr`. -/
def choose (s : JpegState) (wr : Nat) (p : PoolState) : JpegState :=
  { s with
    pool := p
    collected := false
    seen := if s.hw wr then s.seen ++ [s.jobOf wr] else s.seen }

/-- What the thread does with the worker's last job. -/
def collect (s : JpegState) (wr : Nat) (published : Bool) : JpegState :=
  if s.hw wr then
    let s' := { s with hw := Function.update s.hw wr false, collected := true }
    if (s.pool.worker wr).jobFailed then s'
    else if (s.pool.worker wr).jobTimely && published then
      { s' with exposed := s.exposed ++ [s.jobOf wr] }
    else s'
  else { s with collected := true }

/-- The worker is given the next job. -/
def assign (s : JpegState) (wr : Nat) (p : PoolState) : JpegState :=
  { s with
    pool := p
    hw := Function.update s.hw wr true
    jobOf := Function.update s.jobOf wr s.started
    started := s.started + 1 }

/-- A worker's step; where it finishes, that is what became of its job. -/
def worker (s : JpegState) (i : Nat) (a : WorkerAct) (p : PoolState) : JpegState :=
  match a with
  | .finish failed startTs _ =>
    { s with
      pool := p
      result := Function.update s.result (s.jobOf i)
        (some (if failed then .failed else .done startTs)) }
  | _ => s.setPool p

end JpegState

/-- One step of the JPEG thread or of a worker. -/
def jpegStep (s : JpegState) (a : JpegAct) : Option JpegState :=
  match a, s.pool.pc with
  | .wait, _ => (s.pool.poolStep .wait).map s.setPool
  | .load, _ => (s.pool.poolStep .load).map s.setPool
  | .choose, .scan [] (some wr) => (s.pool.poolStep .choose).map (s.choose wr)
  | .choose, _ => (s.pool.poolStep .choose).map s.setPool
  | .collect published, .hold wr => if s.collected then none else some (s.collect wr published)
  | .skip, _ => if s.collected then (s.pool.poolStep .skip).map s.setPool else none
  | .assign, .hold wr =>
    if s.collected then (s.pool.poolStep .assign).map (s.assign wr) else none
  | .takeOff, _ => (s.pool.poolStep .takeOff).map s.setPool
  | .worker i a, _ => (s.pool.workerStep i a).map (s.worker i a)
  | _, _ => none

def jpegSystem : System JpegState JpegAct where
  start s := ∃ nWorkers, 1 ≤ nWorkers ∧ s = jpegInit nWorkers
  step := jpegStep

/-! ## 2. The invariant -/

namespace JpegState

/-- The start of a job that has been run and did not fail. -/
def startTs (s : JpegState) (j : Nat) : Option ℚ := (s.result j).bind JobResult.startTs

/-- The greatest start of the jobs `js`, which are the jobs seen. -/
def latest (s : JpegState) (js : List Nat) : ℚ := recordKey s.startTs 0 js

/-- The jobs of `js` that start after all those seen before them. -/
def timely (s : JpegState) (js : List Nat) : List Nat := records s.startTs 0 js

/-- The worker whose job is in `seen` and is not yet dealt with. -/
def Holds (s : JpegState) (i : Nat) : Prop := s.pool.pc = .hold i ∧ s.collected = false

/-- What the worker `i` says of its last job is true. -/
def Told (s : JpegState) (i : Nat) : Prop :=
  s.result (s.jobOf i) = some (if (s.pool.worker i).jobFailed then .failed
    else .done (s.pool.worker i).jobStartTs)

/-- The job of `i` is the last one seen, what was exposed was seen before it, and `job_timely` is
right. -/
def LastSeen (s : JpegState) (i : Nat) : Prop :=
  ∃ js, s.seen = js ++ [s.jobOf i] ∧ s.exposed.Sublist (s.timely js) ∧
    ((s.pool.worker i).jobTimely = true → (s.pool.worker i).jobFailed = false →
      s.latest js < (s.pool.worker i).jobStartTs)

end JpegState

structure JpegInv (s : JpegState) : Prop where
  pool : PoolInv s.pool
  /-- A job that is being run. -/
  running : ∀ i, (s.pool.worker i).hasJob = true → s.hw i = true ∧ s.result (s.jobOf i) = none
  /-- A job that has been run and not been dealt with. -/
  waiting : ∀ i, s.hw i = true → (s.pool.worker i).hasJob = false → s.Told i
  /-- What a worker says where it has no result. -/
  stale : ∀ i, s.hw i = false ∨ (s.pool.worker i).hasJob = true ∨
    (s.pool.worker i).jobFailed = true → (s.pool.worker i).jobStartTs ≤ s.pool.jobTimelyTs
  started : ∀ i, s.hw i = true → s.jobOf i < s.started
  distinct : ∀ i j, s.hw i = true → s.hw j = true → s.jobOf i = s.jobOf j → i = j
  unstarted : ∀ j, s.started ≤ j → s.result j = none
  known : ∀ j ∈ s.seen, s.result j ≠ none
  unseen : ∀ i, s.hw i = true → ¬ s.Holds i → s.jobOf i ∉ s.seen
  nodup : s.seen.Nodup
  timelyTs : s.pool.jobTimelyTs = s.latest s.seen
  exposed : s.exposed.Sublist (s.timely s.seen)
  held : ∀ i, s.Holds i → s.hw i = true → s.LastSeen i
  dealt : ∀ i, s.pool.pc = .hold i → s.collected = true → s.hw i = false

/-! ## 3. What the steps of the pool leave alone -/

namespace PoolState

/-- The workers say of their jobs what they said before. -/
structure SameJobs (p p' : PoolState) : Prop where
  hasJob : ∀ i, (p'.worker i).hasJob = (p.worker i).hasJob
  jobTimely : ∀ i, (p'.worker i).jobTimely = (p.worker i).jobTimely
  jobFailed : ∀ i, (p'.worker i).jobFailed = (p.worker i).jobFailed
  jobStartTs : ∀ i, (p'.worker i).jobStartTs = (p.worker i).jobStartTs
  jobTimelyTs : p'.jobTimelyTs = p.jobTimelyTs

variable {p p' : PoolState}

theorem SameJobs.of_eq (hworker : p'.worker = p.worker) (hts : p'.jobTimelyTs = p.jobTimelyTs) :
    p.SameJobs p' := by
  refine ⟨fun i => ?_, fun i => ?_, fun i => ?_, fun i => ?_, hts⟩ <;> rw [hworker]

/-- A step of the JPEG thread other than choosing a worker and assigning to it changes where the
thread is, and the counter. -/
theorem sameJobs_poolStep {a : PoolAct} (hst : p.poolStep a = some p') (hchoose : a ≠ .choose)
    (hassign : a ≠ .assign) : p.SameJobs p' ∧ ∀ i, p'.pc ≠ .hold i := by
  unfold poolStep at hst
  split at hst <;> try contradiction
  · split at hst
    · contradiction
    · obtain rfl := Option.some.inj hst
      exact ⟨.of_eq rfl rfl, fun i => PoolPc.noConfusion⟩
  · obtain rfl := Option.some.inj hst
    exact ⟨.of_eq rfl rfl, fun i => PoolPc.noConfusion⟩
  · obtain rfl := Option.some.inj hst
    exact ⟨.of_eq rfl rfl, fun i => PoolPc.noConfusion⟩
  · obtain rfl := Option.some.inj hst
    exact ⟨.of_eq rfl rfl, fun i => PoolPc.noConfusion⟩

theorem sameJobs_setWorker {i : Nat} {pc : UsWorkerPc} {n : ℤ} : p.SameJobs { p with
    worker := Function.update p.worker i { p.worker i with pc := pc }, freeWorkers := n } := by
  refine ⟨fun j => ?_, fun j => ?_, fun j => ?_, fun j => ?_, rfl⟩ <;>
    · rcases eq_or_ne j i with rfl | hji
      · simp only [Function.update_self]
      · simp only [Function.update_of_ne hji]

/-- What a worker says when it has run its job. -/
def finished (wr : UsWorker) (failed : Bool) (startTs endTs : ℚ) : UsWorker :=
  { wr with
    hasJob := false
    jobFailed := failed
    jobStartTs := if failed then wr.jobStartTs else startTs
    lastJobTime := if failed then wr.lastJobTime else endTs - startTs
    pc := .count }

/-- A worker's step is the end of its job, or nothing that its job depends on. -/
theorem workerStep_sorts {i : Nat} {a : WorkerAct} (hst : p.workerStep i a = some p') :
    (∃ failed startTs endTs, a = .finish failed startTs endTs ∧ (p.worker i).pc = .run ∧
      p' = p.setWorker i (finished (p.worker i) failed startTs endTs)) ∨
    ((∀ failed startTs endTs, a ≠ .finish failed startTs endTs) ∧ p.SameJobs p' ∧
      p'.pc = p.pc) := by
  unfold workerStep at hst
  split at hst
  · cases hpc : (p.worker i).pc <;> cases a <;> rw [hpc] at hst <;> dsimp only at hst <;>
      try contradiction
    case wait.wake =>
      split at hst
      · obtain rfl := Option.some.inj hst
        exact .inr ⟨by simp, sameJobs_setWorker, rfl⟩
      · contradiction
    case run.finish failed startTs endTs =>
      obtain rfl := Option.some.inj hst
      refine .inl ⟨failed, startTs, endTs, rfl, rfl, ?_⟩
      cases failed <;> rfl
    case count.count =>
      obtain rfl := Option.some.inj hst
      exact .inr ⟨by simp, sameJobs_setWorker, rfl⟩
  · contradiction

end PoolState

namespace JpegInv

variable {s s' : JpegState}

theorem init (n : Nat) : JpegInv (jpegInit n) where
  pool := PoolInv.init n
  running i hi := absurd hi (by simp [jpegInit, usWorkersPoolInit])
  waiting i hi := absurd hi (by simp [jpegInit])
  stale i _ := le_refl _
  started i hi := absurd hi (by simp [jpegInit])
  distinct i j hi := absurd hi (by simp [jpegInit])
  unstarted _ _ := rfl
  known j hj := absurd hj List.not_mem_nil
  unseen i hi := absurd hi (by simp [jpegInit])
  nodup := .nil
  timelyTs := rfl
  exposed := .slnil
  held i hi := absurd hi.1 (by simp [jpegInit, usWorkersPoolInit])
  dealt i hi := absurd hi (by simp [jpegInit, usWorkersPoolInit])

/-- A step of the pool that leaves the jobs alone, and whoever is held. -/
theorem of_sameJobs (h : JpegInv s) {p : PoolState} (hp : PoolInv p) (hsame : s.pool.SameJobs p)
    (hpc : ∀ i, p.pc = .hold i → s.pool.pc = .hold i)
    (hholds : ∀ i, s.Holds i → p.pc = .hold i) : JpegInv (s.setPool p) where
  pool := hp
  running i hi := h.running i ((hsame.hasJob i).symm.trans hi)
  waiting i hi hjob := by
    have htold := h.waiting i hi ((hsame.hasJob i).symm.trans hjob)
    unfold JpegState.Told at htold ⊢
    simp only [JpegState.setPool, hsame.jobFailed i, hsame.jobStartTs i]
    exact htold
  stale i hi := by
    simp only [JpegState.setPool, hsame.hasJob i, hsame.jobFailed i, hsame.jobStartTs i,
      hsame.jobTimelyTs] at hi ⊢
    exact h.stale i hi
  started := h.started
  distinct := h.distinct
  unstarted := h.unstarted
  known := h.known
  unseen i hi hnot := h.unseen i hi fun hheld => hnot ⟨hholds i hheld, hheld.2⟩
  nodup := h.nodup
  timelyTs := hsame.jobTimelyTs.trans h.timelyTs
  exposed := h.exposed
  held i hi hhw := by
    obtain ⟨js, hseen, hexposed, htimely⟩ := h.held i ⟨hpc i hi.1, hi.2⟩ hhw
    refine ⟨js, hseen, hexposed, ?_⟩
    simp only [JpegState.setPool, hsame.jobTimely i, hsame.jobFailed i, hsame.jobStartTs i]
    exact htimely
  dealt i hi := h.dealt i (hpc i hi)

/-! ## 4. Choosing a worker -/

theorem startTs_of_told {i : Nat} (h : s.Told i) : s.startTs (s.jobOf i)
    = if (s.pool.worker i).jobFailed then none else some (s.pool.worker i).jobStartTs := by
  unfold JpegState.Told at h
  unfold JpegState.startTs
  rw [h, Option.bind_some]
  split <;> rfl

theorem latest_snoc (s : JpegState) (js : List Nat) (j : Nat) :
    s.latest (js ++ [j]) = max (s.latest js) ((s.startTs j).getD (s.latest js)) :=
  recordKey_append 0 js [j]

theorem prefix_timely (s : JpegState) (js : List Nat) (j : Nat) :
    (s.timely js).Sublist (s.timely (js ++ [j])) := by
  unfold JpegState.timely
  rw [records_append]
  exact List.sublist_append_left _ _

theorem timely_snoc {js : List Nat} {j : Nat} {ts : ℚ} (hts : s.startTs j = some ts)
    (hlt : s.latest js < ts) : s.timely (js ++ [j]) = s.timely js ++ [j] := by
  unfold JpegState.timely
  rw [records_append]
  simp only [records, hts, Option.getD_some]
  exact congrArg (records s.startTs 0 js ++ ·) (if_pos hlt)

/-- Choosing writes `job_timely` of the chosen worker. -/
theorem chooseWorker_worker (p : PoolState) (wr i : Nat) :
    ((p.chooseWorker wr).worker i).hasJob = (p.worker i).hasJob ∧
      ((p.chooseWorker wr).worker i).jobFailed = (p.worker i).jobFailed ∧
      ((p.chooseWorker wr).worker i).jobStartTs = (p.worker i).jobStartTs := by
  simp only [PoolState.chooseWorker, PoolState.setWorker]
  rcases eq_or_ne i wr with rfl | hi
  · simp only [Function.update_self, and_self]
  · simp only [Function.update_of_ne hi, and_self]

theorem chooseWorker_jobTimely (p : PoolState) (wr : Nat) :
    ((p.chooseWorker wr).worker wr).jobTimely
      = decide (p.jobTimelyTs < (p.worker wr).jobStartTs) := by
  simp only [PoolState.chooseWorker, PoolState.setWorker, Function.update_self]

theorem chooseWorker_jobTimelyTs (p : PoolState) (wr : Nat) :
    (p.chooseWorker wr).jobTimelyTs = max p.jobTimelyTs (p.worker wr).jobStartTs := by
  simp only [PoolState.chooseWorker, decide_eq_true_eq]
  split
  · rename_i hlt
    exact (max_eq_right hlt.le).symm
  · rename_i hle
    exact (max_eq_left (not_lt.mp hle)).symm

/-- The pool's last timestamp follows the jobs seen, whatever the chosen worker says. -/
theorem max_jobStartTs (h : JpegInv s) {wr : Nat} (hjob : (s.pool.worker wr).hasJob = false) :
    max s.pool.jobTimelyTs (s.pool.worker wr).jobStartTs
      = s.latest (if s.hw wr then s.seen ++ [s.jobOf wr] else s.seen) := by
  cases hhw : s.hw wr with
  | false =>
    rw [max_eq_left (h.stale wr (.inl hhw))]
    exact h.timelyTs
  | true =>
    rw [if_pos rfl, latest_snoc, startTs_of_told (h.waiting wr hhw hjob), ← h.timelyTs]
    cases hfailed : (s.pool.worker wr).jobFailed with
    | false => rfl
    | true =>
      rw [max_eq_left (h.stale wr (.inr (.inr hfailed))), if_pos rfl, Option.getD_none, max_self]

theorem choose (h : JpegInv s) {wr : Nat} (hpc : s.pool.pc = .scan [] (some wr)) :
    JpegInv (s.choose wr (s.pool.chooseWorker wr)) := by
  have hjpeg := h.pool.jpeg
  unfold PoolState.JpegOk at hjpeg
  rw [hpc] at hjpeg
  have hjob : (s.pool.worker wr).hasJob = false := (PoolState.mem_free_iff.mp hjpeg.2.2).2
  have hnot (i : Nat) : ¬ s.Holds i := fun hi => by
    rw [JpegState.Holds, hpc] at hi
    exact PoolPc.noConfusion hi.1
  refine ⟨h.pool.choose hpc, fun i hi => ?_, fun i hi hi' => ?_, fun i hi => ?_, h.started,
    h.distinct, h.unstarted, fun j hj => ?_, fun i hi hi' => ?_, ?_, ?_, ?_, fun i hi hhw => ?_,
    fun i _ hi => absurd hi Bool.false_ne_true⟩
  · exact h.running i ((chooseWorker_worker s.pool wr i).1.symm.trans hi)
  · have htold := h.waiting i hi ((chooseWorker_worker s.pool wr i).1.symm.trans hi')
    unfold JpegState.Told at htold ⊢
    simp only [JpegState.choose, (chooseWorker_worker s.pool wr i).2]
    exact htold
  · simp only [JpegState.choose, (chooseWorker_worker s.pool wr i).1,
      (chooseWorker_worker s.pool wr i).2, chooseWorker_jobTimelyTs] at hi ⊢
    exact (h.stale i hi).trans (le_max_left _ _)
  · simp only [JpegState.choose] at hj ⊢
    split at hj
    · rename_i hhw
      rcases List.mem_append.mp hj with hj | hj
      · exact h.known j hj
      · rw [List.mem_singleton.mp hj, h.waiting wr hhw hjob]
        exact Option.some_ne_none _
    · exact h.known j hj
  · have hiw : i ≠ wr := fun hiw => hi' ⟨by rw [hiw]; rfl, rfl⟩
    simp only [JpegState.choose] at hi ⊢
    split
    · rename_i hhw
      rw [List.mem_append, List.mem_singleton]
      rintro (hj | hj)
      · exact h.unseen i hi (hnot i) hj
      · exact hiw (h.distinct i wr hi hhw hj)
    · exact h.unseen i hi (hnot i)
  · simp only [JpegState.choose]
    split
    · rename_i hhw
      exact (List.concat_eq_append ▸ h.nodup.concat (h.unseen wr hhw (hnot wr)))
    · exact h.nodup
  · exact (chooseWorker_jobTimelyTs s.pool wr).trans (h.max_jobStartTs hjob)
  · show s.exposed.Sublist (s.timely (if s.hw wr then s.seen ++ [s.jobOf wr] else s.seen))
    split
    · exact h.exposed.trans (prefix_timely s s.seen (s.jobOf wr))
    · exact h.exposed
  · obtain rfl : wr = i := PoolPc.hold.inj hi.1
    refine ⟨s.seen, if_pos hhw, h.exposed, fun htimely _ => ?_⟩
    have hlt := of_decide_eq_true ((chooseWorker_jobTimely s.pool wr).symm.trans htimely)
    rw [h.timelyTs] at hlt
    simp only [JpegState.choose, (chooseWorker_worker s.pool wr wr).2.2]
    exact hlt

/-! ## 5. Collecting and assigning -/

/-- The thread is done with the job it holds. -/
theorem deal (h : JpegInv s) {wr : Nat} (hholds : s.Holds wr) (hhw : s.hw wr = true)
    {exposed : List Nat} (hexposed : exposed.Sublist (s.timely s.seen)) :
    JpegInv { s with
      hw := Function.update s.hw wr false, collected := true, exposed := exposed } := by
  have hjpeg := h.pool.jpeg
  unfold PoolState.JpegOk at hjpeg
  rw [hholds.1] at hjpeg
  have hjob : (s.pool.worker wr).hasJob = false := (PoolState.mem_free_iff.mp hjpeg.2).2
  have hkept {i : Nat} (hi : Function.update s.hw wr false i = true) : i ≠ wr ∧ s.hw i = true := by
    rcases eq_or_ne i wr with rfl | hiw
    · rw [Function.update_self] at hi
      exact absurd hi Bool.false_ne_true
    · rw [Function.update_of_ne hiw] at hi
      exact ⟨hiw, hi⟩
  have hts : (s.pool.worker wr).jobStartTs ≤ s.pool.jobTimelyTs := by
    cases hfailed : (s.pool.worker wr).jobFailed with
    | true => exact h.stale wr (.inr (.inr hfailed))
    | false =>
      obtain ⟨js, hseen, -, -⟩ := h.held wr hholds hhw
      have hkey := startTs_of_told (h.waiting wr hhw hjob)
      rw [hfailed] at hkey
      rw [h.timelyTs, hseen]
      exact key_le_recordKey hkey 0 _ (List.mem_append_right js List.mem_cons_self)
  refine ⟨h.pool, fun i hi => ?_, fun i hi => h.waiting i (hkept hi).2, fun i hi => ?_,
    fun i hi => h.started i (hkept hi).2,
    fun i j hi hj => h.distinct i j (hkept hi).2 (hkept hj).2, h.unstarted, h.known,
    fun i hi _ => ?_, h.nodup, h.timelyTs, hexposed, fun i hi => absurd hi.2 (by simp),
    fun i hi _ => ?_⟩
  · have hiw : i ≠ wr := fun hiw => by
      rw [hiw, hjob] at hi
      exact Bool.false_ne_true hi
    simp only [Function.update_of_ne hiw]
    exact h.running i hi
  · rcases eq_or_ne i wr with rfl | hiw
    · exact hts
    · simp only [Function.update_of_ne hiw] at hi
      exact h.stale i hi
  · refine h.unseen i (hkept hi).2 fun hi' => (hkept hi).1 ?_
    exact (PoolPc.hold.inj (hholds.1.symm.trans hi'.1)).symm
  · obtain rfl : wr = i := PoolPc.hold.inj (hholds.1.symm.trans hi)
    exact Function.update_self ..

/-- **What is exposed is a job that starts after everything seen before it.** -/
theorem collect (h : JpegInv s) {wr : Nat} (hpc : s.pool.pc = .hold wr)
    (hcollected : s.collected = false) (published : Bool) : JpegInv (s.collect wr published) := by
  have hholds : s.Holds wr := ⟨hpc, hcollected⟩
  have hjpeg := h.pool.jpeg
  unfold PoolState.JpegOk at hjpeg
  rw [hpc] at hjpeg
  have hjob : (s.pool.worker wr).hasJob = false := (PoolState.mem_free_iff.mp hjpeg.2).2
  unfold JpegState.collect
  split
  · rename_i hhw
    dsimp only
    split
    · exact h.deal hholds hhw h.exposed
    · rename_i hfailed
      rw [Bool.not_eq_true] at hfailed
      split
      · rename_i htimely
        rw [Bool.and_eq_true] at htimely
        refine h.deal hholds hhw ?_
        obtain ⟨js, hseen, hexposed, hlt⟩ := h.held wr hholds hhw
        have hkey := startTs_of_told (h.waiting wr hhw hjob)
        rw [hfailed] at hkey
        rw [hseen, timely_snoc hkey (hlt htimely.1 hfailed)]
        exact hexposed.append (.refl _)
      · exact h.deal hholds hhw h.exposed
  · rename_i hhw
    rw [Bool.not_eq_true] at hhw
    have hother {i : Nat} (hi : s.hw i = true) : ¬ s.Holds i := fun hi' => by
      obtain rfl : wr = i := PoolPc.hold.inj (hpc.symm.trans hi'.1)
      exact Bool.false_ne_true (hhw.symm.trans hi)
    refine ⟨h.pool, h.running, h.waiting, h.stale, h.started, h.distinct, h.unstarted, h.known,
      fun i hi _ => h.unseen i hi (hother hi), h.nodup, h.timelyTs, h.exposed,
      fun i hi => absurd hi.2 (by simp), fun i hi _ => ?_⟩
    obtain rfl : wr = i := PoolPc.hold.inj (hpc.symm.trans hi)
    exact hhw

theorem assign (h : JpegInv s) {wr : Nat} (hpc : s.pool.pc = .hold wr)
    (hcollected : s.collected = true) :
    JpegInv (s.assign wr { s.pool.setWorker wr { s.pool.worker wr with hasJob := true } with
      pc := .assigned wr }) := by
  have hhw := h.dealt wr hpc hcollected
  have hfresh : s.result s.started = none := h.unstarted _ (le_refl _)
  have hnot (i : Nat) : ¬ s.Holds i := fun hi => Bool.false_ne_true (hi.2.symm.trans hcollected)
  have hsort {i : Nat} (hi : Function.update s.hw wr true i = true) :
      (i = wr ∧ Function.update s.jobOf wr s.started i = s.started) ∨
        (i ≠ wr ∧ s.hw i = true ∧ Function.update s.jobOf wr s.started i = s.jobOf i) := by
    rcases eq_or_ne i wr with rfl | hiw
    · exact .inl ⟨rfl, Function.update_self ..⟩
    · rw [Function.update_of_ne hiw] at hi ⊢
      exact .inr ⟨hiw, hi, rfl⟩
  refine ⟨h.pool.assign hpc, fun i hi => ?_, fun i hi hi' => ?_, fun i hi => ?_, fun i hi => ?_,
    fun i j hi hj hij => ?_, fun j hj => h.unstarted j (Nat.le_of_succ_le hj), h.known,
    fun i hi _ => ?_, h.nodup, h.timelyTs, h.exposed, fun i hi => PoolPc.noConfusion hi.1,
    fun i hi => PoolPc.noConfusion hi⟩
  all_goals simp only [JpegState.assign, PoolState.setWorker] at *
  · rcases eq_or_ne i wr with rfl | hiw
    · simp only [Function.update_self, hfresh, and_self]
    · simp only [Function.update_of_ne hiw] at hi ⊢
      exact h.running i hi
  · rcases eq_or_ne i wr with rfl | hiw
    · simp only [Function.update_self] at hi'
      exact absurd hi' (by simp)
    · simp only [JpegState.Told, Function.update_of_ne hiw] at hi hi' ⊢
      exact h.waiting i hi hi'
  · rcases eq_or_ne i wr with rfl | hiw
    · simp only [Function.update_self]
      exact h.stale i (.inl hhw)
    · simp only [Function.update_of_ne hiw] at hi ⊢
      exact h.stale i hi
  · rcases hsort hi with ⟨-, hjob⟩ | ⟨-, hi, hjob⟩ <;> rw [hjob]
    · exact Nat.lt_succ_self _
    · exact (h.started i hi).trans (Nat.lt_succ_self _)
  · rcases hsort hi with ⟨hiw, hi'⟩ | ⟨-, hi, hi'⟩ <;>
      rcases hsort hj with ⟨hjw, hj'⟩ | ⟨-, hj, hj'⟩ <;> rw [hi', hj'] at hij
    · exact hiw.trans hjw.symm
    · exact absurd hij (h.started j hj).ne'
    · exact absurd hij (h.started i hi).ne
    · exact h.distinct i j hi hj hij
  · rcases hsort hi with ⟨-, hjob⟩ | ⟨-, hi, hjob⟩ <;> rw [hjob]
    · exact fun hj => h.known _ hj hfresh
    · exact h.unseen i hi (hnot i)

/-! ## 6. The end of a job -/

/-- The worker `i` has run its job. -/
def finishJob (s : JpegState) (i : Nat) (failed : Bool) (startTs endTs : ℚ) : JpegState :=
  s.worker i (.finish failed startTs endTs)
    (s.pool.setWorker i (PoolState.finished (s.pool.worker i) failed startTs endTs))

theorem latest_congr {js : List Nat} (h : ∀ j ∈ js, s'.startTs j = s.startTs j) :
    s'.latest js = s.latest js := recordKey_congr h

theorem timely_congr {js : List Nat} (h : ∀ j ∈ js, s'.startTs j = s.startTs j) :
    s'.timely js = s.timely js := records_congr h

theorem finish (h : JpegInv s) {i : Nat} {failed : Bool} {startTs endTs : ℚ}
    (hpool : PoolInv (finishJob s i failed startTs endTs).pool)
    (hpc : (s.pool.worker i).pc = .run) : JpegInv (finishJob s i failed startTs endTs) := by
  have hjob := h.pool.running i hpc
  obtain ⟨hhw, hnone⟩ := h.running i hjob
  have hother {j : Nat} (hj : s.hw j = true) (hji : j ≠ i) : s.jobOf j ≠ s.jobOf i :=
    fun hjobs => hji (h.distinct j i hj hhw hjobs)
  have hunseen : s.jobOf i ∉ s.seen := fun hi => h.known _ hi hnone
  have hstartTs : ∀ j ∈ s.seen,
      (finishJob s i failed startTs endTs).startTs j = s.startTs j := by
    intro j hj
    have hne : j ≠ s.jobOf i := fun hji => hunseen (hji ▸ hj)
    simp only [finishJob, JpegState.startTs, JpegState.worker, Function.update_of_ne hne]
  have hnot : ¬ s.Holds i := fun hi => by
    have hjpeg := h.pool.jpeg
    unfold PoolState.JpegOk at hjpeg
    rw [hi.1] at hjpeg
    exact absurd ((PoolState.mem_free_iff.mp hjpeg.2).2.symm.trans hjob) Bool.false_ne_true
  refine ⟨hpool, fun j hj => ?_, fun j hj hj' => ?_, fun j hj => ?_, h.started, h.distinct,
    fun j hj => ?_, fun j hj => ?_, h.unseen, h.nodup,
    h.timelyTs.trans (latest_congr hstartTs).symm, (timely_congr hstartTs).symm ▸ h.exposed,
    fun j hj hhwj => ?_, h.dealt⟩
  · rcases eq_or_ne j i with rfl | hji
    · simp [finishJob, JpegState.worker, PoolState.setWorker, PoolState.finished] at hj
    · simp only [finishJob, JpegState.worker, PoolState.setWorker,
        Function.update_of_ne hji] at hj ⊢
      obtain ⟨hhwj, hnonej⟩ := h.running j hj
      rw [Function.update_of_ne (hother hhwj hji)]
      exact ⟨hhwj, hnonej⟩
  · rcases eq_or_ne j i with rfl | hji
    · simp only [finishJob, JpegState.Told, JpegState.worker, PoolState.setWorker,
        Function.update_self, PoolState.finished]
      cases failed <;> rfl
    · simp only [finishJob, JpegState.Told, JpegState.worker, PoolState.setWorker,
        Function.update_of_ne hji] at hj hj' ⊢
      rw [Function.update_of_ne (hother hj hji)]
      exact h.waiting j hj hj'
  · rcases eq_or_ne j i with rfl | hji
    · simp only [finishJob, JpegState.worker, PoolState.setWorker, Function.update_self,
        PoolState.finished, hhw] at hj ⊢
      rcases hj with hj | hj | hj
      · contradiction
      · contradiction
      · rw [if_pos hj]
        exact h.stale j (.inr (.inl hjob))
    · simp only [finishJob, JpegState.worker, PoolState.setWorker,
        Function.update_of_ne hji] at hj ⊢
      exact h.stale j hj
  · have hne : j ≠ s.jobOf i := fun hji => absurd (h.started i hhw) (not_lt_of_ge (hji ▸ hj))
    simp only [finishJob, JpegState.worker, Function.update_of_ne hne]
    exact h.unstarted j hj
  · have hne : j ≠ s.jobOf i := fun hji => hunseen (hji ▸ hj)
    simp only [finishJob, JpegState.worker, Function.update_of_ne hne]
    exact h.known j hj
  · obtain ⟨js, hseen, hexposed, hlt⟩ := h.held j hj hhwj
    have hji : j ≠ i := fun hji => hnot (hji ▸ hj)
    have hpre : ∀ k ∈ js, (finishJob s i failed startTs endTs).startTs k = s.startTs k :=
      fun k hk => hstartTs k (hseen ▸ List.mem_append_left _ hk)
    refine ⟨js, hseen, (timely_congr hpre).symm ▸ hexposed, ?_⟩
    rw [latest_congr hpre]
    simp only [finishJob, JpegState.worker, PoolState.setWorker, Function.update_of_ne hji]
    exact hlt

/-! ## 7. Every step -/

/-- A turn of the pool that leaves the jobs alone. -/
theorem poolStep (h : JpegInv s) {a : PoolAct} (hchoose : a ≠ .choose) (hassign : a ≠ .assign)
    (hnot : ∀ i, ¬ s.Holds i) (hst : (s.pool.poolStep a).map s.setPool = some s') :
    JpegInv s' := by
  obtain ⟨p, hp, rfl⟩ := Option.map_eq_some_iff.mp hst
  obtain ⟨hsame, hpc⟩ := PoolState.sameJobs_poolStep hp hchoose hassign
  exact h.of_sameJobs (h.pool.poolStep hp) hsame (fun i hi => absurd hi (hpc i))
    fun i hi => absurd hi (hnot i)

/-- **Every step keeps the invariant.** -/
theorem step (h : JpegInv s) {a : JpegAct} (hst : jpegStep s a = some s') : JpegInv s' := by
  have hnot (hstay : ∀ i, s.pool.pc ≠ .hold i) (i : Nat) : ¬ s.Holds i := fun hi => hstay i hi.1
  unfold jpegStep at hst
  split at hst
  · refine h.poolStep PoolAct.noConfusion PoolAct.noConfusion (hnot fun i hpc => ?_) hst
    simp [PoolState.poolStep, hpc] at hst
  · refine h.poolStep PoolAct.noConfusion PoolAct.noConfusion (hnot fun i hpc => ?_) hst
    simp [PoolState.poolStep, hpc] at hst
  · rename_i wr hpc
    simp only [PoolState.poolStep, hpc, Option.map_some, Option.some.injEq] at hst
    exact hst ▸ h.choose hpc
  · rename_i hpc
    obtain ⟨p, hp, rfl⟩ := Option.map_eq_some_iff.mp hst
    have hjpeg := h.pool.jpeg
    unfold PoolState.JpegOk at hjpeg
    unfold PoolState.poolStep at hp
    split at hp <;> rename_i hpc' _ <;> try contradiction
    -- only a worker that has been found is chosen
    · rw [hpc'] at hjpeg
      obtain ⟨-, -, i, hi, -⟩ := hjpeg
      exact absurd hi List.not_mem_nil
    · exact absurd hpc' (hpc _)
  · rename_i published wr hpc
    split at hst
    · contradiction
    · rename_i hcollected
      exact Option.some.inj hst ▸ h.collect hpc (Bool.not_eq_true _ ▸ hcollected) published
  · split at hst
    · rename_i hcollected
      refine h.poolStep PoolAct.noConfusion PoolAct.noConfusion (fun i hi => ?_) hst
      exact Bool.false_ne_true (hi.2.symm.trans hcollected)
    · contradiction
  · rename_i wr hpc
    split at hst
    · rename_i hcollected
      simp only [PoolState.poolStep, hpc, Option.map_some, Option.some.injEq] at hst
      exact hst ▸ h.assign hpc hcollected
    · contradiction
  · refine h.poolStep PoolAct.noConfusion PoolAct.noConfusion (hnot fun i hpc => ?_) hst
    simp [PoolState.poolStep, hpc] at hst
  · rename_i i a
    obtain ⟨p, hp, rfl⟩ := Option.map_eq_some_iff.mp hst
    have hpool := h.pool.workerStep hp
    rcases PoolState.workerStep_sorts hp with
      ⟨failed, startTs, endTs, rfl, hrun, rfl⟩ | ⟨hfinish, hsame, hpc⟩
    · exact h.finish hpool hrun
    · have hworker : s.worker i a p = s.setPool p := by
        cases a with
        | finish failed startTs endTs => exact absurd rfl (hfinish failed startTs endTs)
        | wake => rfl
        | count => rfl
      rw [hworker]
      exact h.of_sameJobs hpool hsame (fun i hi => hpc ▸ hi) fun i hi => hpc ▸ hi.1
  · contradiction

/-- **The invariant holds in every state of every run.** -/
theorem of_reach (hr : jpegSystem.Reach s) : JpegInv s := by
  refine System.ReachVia.inv ?_ (fun s s' a h _ hst => h.step hst) hr
  rintro s ⟨n, -, rfl⟩
  exact init n

end JpegInv

/-! ## 8. The order of the exposures -/

namespace JpegState

variable (s : JpegState) (wr i : Nat)

theorem collect_seen (published : Bool) : (s.collect wr published).seen = s.seen := by
  unfold collect
  split
  · dsimp only
    split
    · rfl
    · split <;> rfl
  · rfl

theorem worker_seen (a : WorkerAct) (p : PoolState) : (s.worker i a p).seen = s.seen := by
  cases a <;> rfl

theorem seen_prefix_choose (p : PoolState) : s.seen <+: (s.choose wr p).seen := by
  simp only [choose]
  split
  · exact List.prefix_append _ _
  · exact List.prefix_rfl

end JpegState

/-- Jobs that have been seen stay seen, in their order. -/
theorem seen_prefix_step {s s' : JpegState} {a : JpegAct} (hst : jpegStep s a = some s') :
    s.seen <+: s'.seen := by
  have hmap {a : PoolAct} (hst : (s.pool.poolStep a).map s.setPool = some s') :
      s.seen <+: s'.seen := by
    obtain ⟨p, -, rfl⟩ := Option.map_eq_some_iff.mp hst
    exact List.prefix_rfl
  unfold jpegStep at hst
  split at hst
  · exact hmap hst
  · exact hmap hst
  · obtain ⟨p, -, rfl⟩ := Option.map_eq_some_iff.mp hst
    exact s.seen_prefix_choose _ p
  · exact hmap hst
  · split at hst
    · contradiction
    · obtain rfl := Option.some.inj hst
      rw [JpegState.collect_seen]
  · split at hst
    · exact hmap hst
    · contradiction
  · split at hst
    · obtain ⟨p, -, rfl⟩ := Option.map_eq_some_iff.mp hst
      exact List.prefix_rfl
    · contradiction
  · exact hmap hst
  · obtain ⟨p, -, rfl⟩ := Option.map_eq_some_iff.mp hst
    rw [JpegState.worker_seen]
  · contradiction

theorem seen_prefix_exec {s : JpegState} {as : List JpegAct} {s' : JpegState}
    (h : jpegSystem.exec s as = some s') : s.seen <+: s'.seen :=
  System.exec_inv (I := fun t => s.seen <+: t.seen)
    (fun _ _ _ ih _ hst => ih.trans (seen_prefix_step hst)) as List.prefix_rfl h

theorem startTs_eq_some {s : JpegState} {j : Nat} {ts : ℚ} :
    s.startTs j = some ts ↔ s.result j = some (.done ts) := by
  unfold JpegState.startTs
  rcases s.result j with _ | _ | startTs
  · simp
  · simp [JobResult.startTs]
  · simp [JobResult.startTs]

namespace JpegInv

variable {s s' : JpegState}

/-- Only jobs that did not fail are exposed. -/
theorem done_of_exposed (h : JpegInv s) {j : Nat} (hj : j ∈ s.exposed) :
    ∃ ts, s.result j = some (.done ts) := by
  obtain ⟨ts, hts, -⟩ := lt_of_mem_records 0 s.seen (h.exposed.subset hj)
  exact ⟨ts, startTs_eq_some.mp hts⟩

/-- A job that is finished after a later one has been seen is dropped. -/
theorem notMem_exposed (h : JpegInv s) (h' : JpegInv s') (hseen : s.seen <+: s'.seen) {i j : Nat}
    {ti tj : ℚ} (hi : i ∈ s.seen) (hj : s.result j = none) (hti : s'.result i = some (.done ti))
    (htj : s'.result j = some (.done tj)) (hle : tj ≤ ti) : j ∉ s'.exposed := by
  obtain ⟨js, hjs⟩ := hseen
  have hunseen : j ∉ s.seen := fun hmem => h.known j hmem hj
  have hrecord : j ∉ records s'.startTs 0 (s.seen ++ js) :=
    notMem_records hi (startTs_eq_some.mpr hti) hunseen (startTs_eq_some.mpr htj) hle
  rw [hjs] at hrecord
  exact fun hmem => hrecord (h'.exposed.subset hmem)

end JpegInv

/-- **The JPEG thread never goes back in time**, for any number of workers: the jobs exposed are
among those that start after everything seen before them, so their starts increase strictly, none
of them failed, none is exposed twice, and a job is not exposed if one that started later was seen
before it was finished. -/
theorem exposed_in_order {s : JpegState} (hr : jpegSystem.Reach s) :
    s.exposed.Sublist (s.timely s.seen) ∧ s.exposed.Pairwise (KeyLt s.startTs) ∧
      (∀ j ∈ s.exposed, ∃ ts, s.result j = some (.done ts)) ∧ s.exposed.Nodup ∧
      ∀ as s', jpegSystem.exec s as = some s' → ∀ i ∈ s.seen, ∀ j ti tj, s.result j = none →
        s'.result i = some (.done ti) → s'.result j = some (.done tj) → tj ≤ ti →
        j ∉ s'.exposed := by
  have h := JpegInv.of_reach hr
  refine ⟨h.exposed, (records_pairwise 0 s.seen).sublist h.exposed,
    fun j hj => h.done_of_exposed hj, h.nodup.sublist (h.exposed.trans (records_sublist 0 s.seen)),
    fun as s' hexec i hi j ti tj hj hti htj hle => ?_⟩
  have h' := JpegInv.of_reach (System.Reach.exec as hr hexec)
  exact h.notMem_exposed h' (seen_prefix_exec hexec) hi hj hti htj hle

/-- A turn of the thread in a pool of two up to `job->hw`, and one that goes on to assign. -/
def turnTwo : List JpegAct := [.wait, .load, .load, .choose, .collect true]

def assignTwo : List JpegAct := turnTwo ++ [.assign, .takeOff]

/-- Two workers, the second job is finished first: the first is dropped. -/
def overtaking : List JpegAct :=
  assignTwo ++ assignTwo ++ [.worker 1 .wake, .worker 0 .wake, .worker 0 (.finish false 2 3),
    .worker 0 .count] ++ turnTwo

def overtaken : List JpegAct :=
  [.skip, .worker 1 (.finish false 1 4), .worker 1 .count] ++ assignTwo ++ turnTwo

theorem exposed_in_order_overtaken : ∃ s s' : JpegState, jpegSystem.Reach s ∧
    jpegSystem.exec s overtaken = some s' ∧ s.exposed = [1] ∧ s'.seen = [1, 0] ∧
      s'.result 0 = some (.done 1) ∧ 0 ∉ s'.exposed := by
  have hrun : ((jpegSystem.exec (jpegInit 2) overtaking).any fun s =>
      decide (s.seen = [1] ∧ s.exposed = [1] ∧ s.result 0 = none) &&
        (jpegSystem.exec s overtaken).any fun s' => decide (s'.seen = [1, 0] ∧
          s'.result 1 = some (.done 2) ∧ s'.result 0 = some (.done 1))) = true := by decide +kernel
  obtain ⟨s, hexec, hs⟩ := (Option.any_eq_true _ _).mp hrun
  obtain ⟨hs, hrun'⟩ := Bool.and_eq_true_iff.mp hs
  obtain ⟨hseen, hexposed, hnone⟩ := of_decide_eq_true hs
  obtain ⟨s', hexec', hs'⟩ := (Option.any_eq_true _ _).mp hrun'
  obtain ⟨hseen', hlater, hearlier⟩ := of_decide_eq_true hs'
  have hstart : jpegSystem.start (jpegInit 2) := ⟨2, by decide, rfl⟩
  have hr := System.Reach.exec _ (.start hstart) hexec
  exact ⟨s, s', hr, hexec', hexposed, hseen', hearlier, (exposed_in_order hr).2.2.2.2 _ s' hexec' 1
    (by rw [hseen]; decide) 0 2 1 hnone hlater hearlier (by decide)⟩

end TinyPilotKvm
