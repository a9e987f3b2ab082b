/-
# No wake-up is lost

A worker sleeps only while its flag is down or the signal for it is still to come
(`WorkerOk.waiting`), and the owner only while the counter is zero or a worker is about to signal
(`LockInv.asleep`): each flag is set under the mutex that the sleeper has given up when it went to
sleep.  And while the pool is destroyed, whoever is not to be joined any more has left
(`PlaceInv.left`).
-/
import TinyPilotKvm.Ustreamer.WorkersRefinement

namespace TinyPilotKvm

/-! ## 1. The places -/

def OwnerPc.holdsFree : OwnerPc → Bool
  | .testFree | .unlockFree | .take _ | .unlockTake => true
  | _ => false

def WorkerThreadPc.holdsFree : WorkerThreadPc → Bool
  | .countFree | .unlockFree => true
  | _ => false

/-- The owner holds the mutex of worker `i`. -/
def OwnerPc.holdsJob (i : Nat) : OwnerPc → Bool
  | .setJob wr _ | .unlockJob wr _ => wr = i
  | _ => false

def WorkerThreadPc.holdsJob : WorkerThreadPc → Bool
  | .testJob | .unlockJob => true
  | _ => false

/-- The flag of worker `i` is set, and the signal is still to come. -/
def OwnerPc.handing (i : Nat) : OwnerPc → Bool
  | .unlockJob wr _ | .signalJob wr _ => wr = i
  | _ => false

/-- Worker `i` has been given its final job. -/
def OwnerPc.finalJob (i : Nat) : OwnerPc → Bool
  | .unlockJob wr todo | .signalJob wr todo => wr = i && todo.isSome
  | .join wr _ => wr = i
  | _ => false

/-- Between the tests of `stop` and of `has_job`. -/
def WorkerThreadPc.beforeJob : WorkerThreadPc → Bool
  | .lockJob | .testJob | .waitJob | .wokenJob => true
  | _ => false

/-- What holds of worker `i`, with the mutex of the counter and the owner's place. -/
structure WorkerOk (mutex : Option PoolThread) (pc : OwnerPc) (i : Nat) (wr : WorkerThread) :
    Prop where
  free : mutex = some (.worker i) ↔ wr.pc.holdsFree = true
  owner : wr.hasJobMutex = some .owner ↔ pc.holdsJob i = true
  self : ∀ j, wr.hasJobMutex = some (.worker j) ↔ j = i ∧ wr.pc.holdsJob = true
  waiting : wr.pc = .waitJob → wr.hasJob = true → pc.handing i = true
  final : pc.finalJob i = true → wr.pc.beforeJob = true → wr.hasJob = true

/-- A worker is about to signal the counter. -/
def PoolThreads.Signalling (s : PoolThreads) : Prop :=
  ∃ i < s.nWorkers, (s.worker i).pc = .unlockFree ∨ (s.worker i).pc = .signalFree

structure LockInv (s : PoolThreads) : Prop where
  free : s.freeWorkersMutex = some .owner ↔ s.pc.holdsFree = true
  worker : ∀ i, WorkerOk s.freeWorkersMutex s.pc i (s.worker i)
  asleep : s.pc = .waitFree → s.freeWorkers = 0 ∨ s.Signalling

/-- The worker that the owner is busy with. -/
def OwnerPc.target : OwnerPc → Option Nat
  | .setJob wr _ | .unlockJob wr _ | .signalJob wr _ | .join wr _ => some wr
  | _ => none

/-- The owner's place says nothing of the other workers. -/
theorem OwnerPc.of_target_ne {pc : OwnerPc} {i : Nat} (h : pc.target ≠ some i) :
    pc.holdsJob i = false ∧ pc.handing i = false ∧ pc.finalJob i = false := by
  cases pc
  case setJob wr todo | unlockJob wr todo | signalJob wr todo | join wr todo =>
    have hne : wr ≠ i := fun hwr => h (congrArg some hwr)
    simp [OwnerPc.holdsJob, OwnerPc.handing, OwnerPc.finalJob, hne]
  all_goals exact ⟨rfl, rfl, rfl⟩

/-! ## 2. The owner -/

section Steps

variable {s s' : PoolThreads}

/-- A worker that others move around. -/
theorem WorkerOk.frame {mutex mutex' : Option PoolThread} {pc pc' : OwnerPc} {i : Nat}
    {wr : WorkerThread} (h : WorkerOk mutex pc i wr)
    (hmutex : mutex' = some (.worker i) ↔ mutex = some (.worker i))
    (hjob : pc'.holdsJob i = pc.holdsJob i) (hhanding : pc.handing i = true → pc'.handing i = true)
    (hfinal : pc'.finalJob i = true → pc.finalJob i = true) : WorkerOk mutex' pc' i wr where
  free := hmutex.trans h.free
  owner := by
    rw [hjob]
    exact h.owner
  self := h.self
  waiting hpc hhas := hhanding (h.waiting hpc hhas)
  final hpc := h.final (hfinal hpc)

/-- A step of the owner that touches no worker. -/
theorem LockInv.move (h : LockInv s) (hworker : s'.worker = s.worker)
    (hfree : s'.freeWorkersMutex = some .owner ↔ s'.pc.holdsFree = true)
    (hmutex : ∀ i, s'.freeWorkersMutex = some (.worker i) ↔ s.freeWorkersMutex = some (.worker i))
    (htarget : s.pc.target = none ∨ ∃ wr todo, s.pc = .join wr todo)
    (htarget' : s'.pc.target = none)
    (hasleep : s'.pc = .waitFree → s'.freeWorkers = 0) : LockInv s' := by
  refine ⟨hfree, fun i => ?_, fun hpc => .inl (hasleep hpc)⟩
  rw [hworker]
  obtain ⟨hjob', -, hfinal'⟩ := OwnerPc.of_target_ne (i := i) (by rw [htarget']; simp)
  have hbefore : s.pc.holdsJob i = false ∧ s.pc.handing i = false := by
    rcases htarget with hnone | ⟨wr, todo, hpc⟩
    · obtain ⟨hjob, hhanding, -⟩ := OwnerPc.of_target_ne (i := i) (by rw [hnone]; simp)
      exact ⟨hjob, hhanding⟩
    · rw [hpc]
      exact ⟨rfl, rfl⟩
  refine (h.worker i).frame (hmutex i) (hjob'.trans hbefore.1.symm) (fun hhanding => ?_)
    fun hfinal => ?_
  · rw [hbefore.2] at hhanding
    exact absurd hhanding (by simp)
  · rw [hfinal'] at hfinal
    exact absurd hfinal (by simp)

/-- A step of the owner that touches worker `w`. -/
theorem LockInv.touch (h : LockInv s) {w : Nat} {wr : WorkerThread}
    (hworker : s'.worker = Function.update s.worker w wr)
    (hmutex : s'.freeWorkersMutex = s.freeWorkersMutex)
    (hfree : s.pc.holdsFree = false ∧ s'.pc.holdsFree = false)
    (htarget : s.pc.target = none ∨ s.pc.target = some w)
    (htarget' : s'.pc.target = none ∨ s'.pc.target = some w)
    (hself : WorkerOk s.freeWorkersMutex s'.pc w wr) (hasleep : s'.pc ≠ .waitFree) :
    LockInv s' := by
  have hother {i : Nat} (hi : i ≠ w) {pc : OwnerPc} (hpc : pc.target = none ∨ pc.target = some w) :
      pc.target ≠ some i := by
    rcases hpc with hpc | hpc <;> rw [hpc]
    · simp
    · exact fun hwi => hi (Option.some.inj hwi).symm
  refine ⟨?_, fun i => ?_, fun hpc => absurd hpc hasleep⟩
  · rw [hmutex, hfree.2, ← hfree.1]
    exact h.free
  rw [hworker, hmutex]
  by_cases hi : i = w
  · subst hi
    rwa [Function.update_self]
  · obtain ⟨hjob, hhanding, -⟩ := OwnerPc.of_target_ne (hother hi htarget)
    obtain ⟨hjob', -, hfinal'⟩ := OwnerPc.of_target_ne (hother hi htarget')
    rw [Function.update_of_ne hi]
    refine (h.worker i).frame Iff.rfl (hjob'.trans hjob.symm) (fun hyes => ?_) fun hyes => ?_
    · rw [hhanding] at hyes
      exact absurd hyes (by simp)
    · rw [hfinal'] at hyes
      exact absurd hyes (by simp)

/-- A worker after a signal. -/
def WorkerThread.signalled (wr : WorkerThread) : WorkerThread :=
  if wr.pc = .waitJob then { wr with pc := .wokenJob } else wr

theorem worker_signalJob (i : Nat) :
    (s.signalJob i).worker = Function.update s.worker i (s.worker i).signalled := by
  unfold PoolThreads.signalJob WorkerThread.signalled
  split
  · rfl
  · rw [Function.update_eq_self]

theorem signalJob_frame (i : Nat) : (s.signalJob i).freeWorkersMutex = s.freeWorkersMutex := by
  unfold PoolThreads.signalJob
  split <;> rfl

/-- **A signal**: whoever has been waiting is not waiting any more. -/
theorem WorkerOk.signalled {mutex : Option PoolThread} {i : Nat} {wr : WorkerThread}
    {todo : Option (List Nat)} {pc : OwnerPc} (h : WorkerOk mutex (.signalJob i todo) i wr)
    (hjob : pc.holdsJob i = false) (hfinal : pc.finalJob i = true → todo.isSome = true) :
    WorkerOk mutex pc i wr.signalled := by
  have howner : wr.hasJobMutex ≠ some .owner := fun hm => absurd (h.owner.mp hm) (by simp
    [OwnerPc.holdsJob])
  have hlast (hpc : pc.finalJob i = true) : OwnerPc.finalJob i (.signalJob i todo) = true := by
    simp [OwnerPc.finalJob, hfinal hpc]
  unfold WorkerThread.signalled
  split
  · rename_i hwait
    have hfree := h.free
    have hself := h.self
    have hflag := fun hpc => h.final (hlast hpc)
    rw [hwait] at hfree hself hflag
    exact ⟨hfree, by simpa [hjob] using howner, hself, fun hpc => absurd hpc (by simp),
      fun hpc _ => hflag hpc rfl⟩
  · rename_i hwait
    exact ⟨h.free, by simpa [hjob] using howner, h.self, fun hpc => absurd hpc hwait,
      fun hpc => h.final (hlast hpc)⟩

/-- **The owner.** -/
theorem LockInv.ownerStep (h : LockInv s) {a : OwnerAct} (hst : s.ownerStep a = some s') :
    LockInv s' := by
  have hfree := h.free
  unfold PoolThreads.ownerStep at hst
  split at hst
  case h_1 hpc =>
    obtain rfl := Option.some.inj hst
    rw [hpc] at hfree
    exact h.move rfl hfree (fun _ => Iff.rfl) (.inl (by rw [hpc]; rfl)) rfl (by simp)
  case h_2 hpc =>
    obtain rfl := Option.some.inj hst
    rw [hpc] at hfree
    exact h.move rfl hfree (fun _ => Iff.rfl) (.inl (by rw [hpc]; rfl)) rfl (by simp)
  case h_3 hpc =>
    split at hst
    · rename_i hmutex
      obtain rfl := Option.some.inj hst
      exact h.move rfl (by simp [OwnerPc.holdsFree]) (by simp [hmutex])
        (.inl (by rw [hpc]; rfl)) rfl (by simp)
    · exact absurd hst (by simp)
  case h_4 hpc =>
    have hheld : s.freeWorkersMutex = some .owner := hfree.mpr (by rw [hpc]; rfl)
    split at hst
    · rename_i hzero
      obtain rfl := Option.some.inj hst
      exact h.move rfl (by simp [OwnerPc.holdsFree]) (by simp [hheld])
        (.inl (by rw [hpc]; rfl)) rfl fun _ => hzero
    · obtain rfl := Option.some.inj hst
      rw [hpc] at hfree
      exact h.move rfl hfree (fun _ => Iff.rfl) (.inl (by rw [hpc]; rfl)) rfl (by simp)
  case h_5 hpc =>
    obtain rfl := Option.some.inj hst
    rw [hpc] at hfree
    exact h.move rfl hfree (fun _ => Iff.rfl) (.inl (by rw [hpc]; rfl)) rfl (by simp)
  case h_6 hpc =>
    split at hst
    · rename_i hmutex
      obtain rfl := Option.some.inj hst
      exact h.move rfl (by simp [OwnerPc.holdsFree]) (by simp [hmutex])
        (.inl (by rw [hpc]; rfl)) rfl (by simp)
    · exact absurd hst (by simp)
  case h_7 hpc =>
    have hheld : s.freeWorkersMutex = some .owner := hfree.mpr (by rw [hpc]; rfl)
    obtain rfl := Option.some.inj hst
    exact h.move rfl (by simp [OwnerPc.holdsFree]) (by simp [hheld])
      (.inl (by rw [hpc]; rfl)) rfl (by simp)
  case h_8 wr todo found hpc =>
    obtain rfl := Option.some.inj hst
    rw [hpc] at hfree
    exact h.move rfl hfree (fun _ => Iff.rfl) (.inl (by rw [hpc]; rfl)) rfl (by simp)
  case h_9 hpc =>
    obtain rfl := Option.some.inj hst
    rw [hpc] at hfree
    exact h.move rfl hfree (fun _ => Iff.rfl) (.inl (by rw [hpc]; rfl)) rfl (by simp)
  case h_10 wr hpc =>
    obtain rfl := Option.some.inj hst
    have hw := h.worker wr
    rw [hpc] at hw
    exact h.touch rfl rfl ⟨by rw [hpc]; rfl, rfl⟩ (.inl (by rw [hpc]; rfl)) (.inl rfl)
      ⟨hw.free, hw.owner, hw.self, hw.waiting, hw.final⟩ (by simp [PoolThreads.chooseWorker])
  case h_11 hpc =>
    obtain rfl := Option.some.inj hst
    rw [hpc] at hfree
    exact h.move rfl hfree (fun _ => Iff.rfl) (.inl (by rw [hpc]; rfl)) rfl (by simp)
  case h_12 wr hpc =>
    obtain rfl := Option.some.inj hst
    rw [hpc] at hfree
    exact h.move rfl hfree (fun _ => Iff.rfl) (.inl (by rw [hpc]; rfl)) rfl (by simp)
  case h_13 wr todo hpc =>
    split at hst
    · rename_i hmutex
      obtain rfl := Option.some.inj hst
      have hw := h.worker wr
      rw [hpc] at hw
      have hself : (s.worker wr).pc.holdsJob = false := by
        by_contra hself
        have hheld := (hw.self wr).mpr ⟨rfl, by simpa using hself⟩
        rw [hmutex] at hheld
        exact absurd hheld (by simp)
      refine h.touch rfl rfl ⟨by rw [hpc]; rfl, rfl⟩ (.inl (by rw [hpc]; rfl)) (.inr rfl)
        ⟨hw.free, by simp [OwnerPc.holdsJob], fun j => by simp [hself], hw.waiting, hw.final⟩
        (by simp)
    · exact absurd hst (by simp)
  case h_14 wr todo hpc =>
    obtain rfl := Option.some.inj hst
    have hw := h.worker wr
    rw [hpc] at hw
    exact h.touch rfl rfl ⟨by rw [hpc]; rfl, rfl⟩ (.inr (by rw [hpc]; rfl)) (.inr rfl)
      ⟨hw.free, hw.owner, hw.self, fun _ _ => by simp [OwnerPc.handing], fun _ _ => rfl⟩ (by simp)
  case h_15 wr todo hpc =>
    obtain rfl := Option.some.inj hst
    have hw := h.worker wr
    rw [hpc] at hw
    have hheld : (s.worker wr).hasJobMutex = some .owner :=
      hw.owner.mpr (by simp [OwnerPc.holdsJob])
    have hself : (s.worker wr).pc.holdsJob = false := by
      by_contra hself
      have hheld' := (hw.self wr).mpr ⟨rfl, by simpa using hself⟩
      rw [hheld] at hheld'
      exact absurd hheld' (by simp)
    refine h.touch rfl rfl ⟨by rw [hpc]; rfl, rfl⟩ (.inr (by rw [hpc]; rfl)) (.inr rfl)
      ⟨hw.free, by simp [OwnerPc.holdsJob], fun j => by simp [hself],
        fun _ _ => by simp [OwnerPc.handing], hw.final⟩ (by simp)
  case h_16 wr hpc =>
    obtain rfl := Option.some.inj hst
    have hw := h.worker wr
    rw [hpc] at hw
    exact h.touch (worker_signalJob wr) (signalJob_frame wr) ⟨by rw [hpc]; rfl, rfl⟩
      (.inr (by rw [hpc]; rfl)) (.inl rfl) (hw.signalled rfl fun hno => absurd hno (by simp
        [OwnerPc.finalJob])) (by simp)
  case h_17 wr todo hpc =>
    obtain rfl := Option.some.inj hst
    have hw := h.worker wr
    rw [hpc] at hw
    exact h.touch (worker_signalJob wr) (signalJob_frame wr) ⟨by rw [hpc]; rfl, rfl⟩
      (.inr (by rw [hpc]; rfl)) (.inr rfl) (hw.signalled rfl fun _ => rfl) (by simp)
  case h_18 wr hpc =>
    split at hst
    · rename_i hmutex
      obtain rfl := Option.some.inj hst
      exact h.move rfl (by simp [OwnerPc.holdsFree]) (by simp [hmutex])
        (.inl (by rw [hpc]; rfl)) rfl (by simp)
    · exact absurd hst (by simp)
  case h_19 wr hpc =>
    obtain rfl := Option.some.inj hst
    rw [hpc] at hfree
    exact h.move rfl hfree (fun _ => Iff.rfl) (.inl (by rw [hpc]; rfl)) rfl (by simp)
  case h_20 hpc =>
    have hheld : s.freeWorkersMutex = some .owner := hfree.mpr (by rw [hpc]; rfl)
    obtain rfl := Option.some.inj hst
    exact h.move rfl (by simp [OwnerPc.holdsFree]) (by simp [hheld])
      (.inl (by rw [hpc]; rfl)) rfl (by simp)
  case h_21 wr todo hpc =>
    obtain rfl := Option.some.inj hst
    rw [hpc] at hfree
    exact h.move rfl hfree (fun _ => Iff.rfl) (.inl (by rw [hpc]; rfl)) rfl (by simp)
  case h_22 hpc =>
    obtain rfl := Option.some.inj hst
    rw [hpc] at hfree
    exact h.move rfl hfree (fun _ => Iff.rfl) (.inl (by rw [hpc]; rfl)) rfl (by simp)
  case h_23 wr todo hpc =>
    split at hst
    · obtain rfl := Option.some.inj hst
      rw [hpc] at hfree
      exact h.move rfl hfree (fun _ => Iff.rfl) (.inr ⟨wr, todo, hpc⟩) rfl (by simp)
    · exact absurd hst (by simp)
  case h_24 => exact absurd hst (by simp)

/-! ## 3. The workers -/

def WorkerThreadPc.signalling : WorkerThreadPc → Bool
  | .unlockFree | .signalFree => true
  | _ => false

/-- A step of worker `i`. -/
theorem LockInv.thread (h : LockInv s) {i : Nat} (hi : i < s.nWorkers) {wr : WorkerThread}
    (mutex : Option PoolThread) (free : ℤ)
    (howner : mutex = some .owner ↔ s.freeWorkersMutex = some .owner)
    (hmutex : ∀ j, j ≠ i →
      (mutex = some (.worker j) ↔ s.freeWorkersMutex = some (.worker j)))
    (hself : WorkerOk mutex s.pc i wr)
    (hasleep : wr.pc.signalling = true ∨
      (s.worker i).pc.signalling = false ∧ free = s.freeWorkers) :
    LockInv { s.setWorker i wr with freeWorkersMutex := mutex, freeWorkers := free } := by
  refine ⟨howner.trans h.free, fun j => ?_, fun hpc => ?_⟩
  · show WorkerOk mutex s.pc j (Function.update s.worker i wr j)
    by_cases hj : j = i
    · subst hj
      rwa [Function.update_self]
    · rw [Function.update_of_ne hj]
      exact (h.worker j).frame (hmutex j hj) rfl id id
  · rcases hasleep with hsignal | ⟨hquiet, rfl⟩
    · refine .inr ⟨i, hi, ?_⟩
      show (Function.update s.worker i wr i).pc = _ ∨ (Function.update s.worker i wr i).pc = _
      rw [Function.update_self]
      cases hcase : wr.pc <;> simp [hcase, WorkerThreadPc.signalling] at hsignal ⊢
    · refine (h.asleep hpc).imp id ?_
      rintro ⟨j, hj, hsignal⟩
      have hne : j ≠ i := by
        rintro rfl
        rcases hsignal with hsignal | hsignal <;>
          simp [hsignal, WorkerThreadPc.signalling] at hquiet
      refine ⟨j, hj, ?_⟩
      show (Function.update s.worker i wr j).pc = _ ∨ (Function.update s.worker i wr j).pc = _
      rwa [Function.update_of_ne hne]

/-- A step of worker `i` that has nothing to do with the counter. -/
theorem LockInv.threadJob (h : LockInv s) {i : Nat} (hi : i < s.nWorkers) {wr : WorkerThread}
    (hself : WorkerOk s.freeWorkersMutex s.pc i wr)
    (hquiet : (s.worker i).pc.signalling = false) : LockInv (s.setWorker i wr) :=
  h.thread hi _ _ Iff.rfl (fun _ _ => Iff.rfl) hself (.inr ⟨hquiet, rfl⟩)

/-- **A worker.**  `hstop`: the final job is given after `stop` is set. -/
theorem LockInv.threadStep (h : LockInv s) (hstop : s.pc.destroying = true → s.stop = true)
    {i : Nat} {a : ThreadAct} (hst : s.threadStep i a = some s') : LockInv s' := by
  have hfree := h.free
  obtain ⟨hwfree, hwowner, hwself, hwaiting, hfinal⟩ := h.worker i
  have hdestroying : s.pc.finalJob i = true → s.stop = true := by
    intro hjob
    refine hstop ?_
    cases hpc : s.pc <;> simp_all [OwnerPc.finalJob, OwnerPc.destroying]
  unfold PoolThreads.threadStep at hst
  dsimp only at hst
  split at hst
  · rename_i hi
    split at hst
    case h_1 hpc =>
      obtain rfl := Option.some.inj hst
      rw [hpc] at hwfree hwself
      refine h.threadJob hi ?_ (by rw [hpc]; rfl)
      by_cases hset : s.stop = true
      · rw [if_pos hset]
        exact ⟨hwfree, hwowner, hwself, by simp, fun _ => by simp [WorkerThreadPc.beforeJob]⟩
      · rw [if_neg hset]
        exact ⟨hwfree, hwowner, hwself, by simp, fun hjob => absurd (hdestroying hjob) hset⟩
    case h_2 hpc =>
      split at hst
      · rename_i hmutex
        obtain rfl := Option.some.inj hst
        rw [hpc] at hwfree hfinal
        refine h.threadJob hi ⟨hwfree, ?_, ?_, by simp, hfinal⟩ (by rw [hpc]; rfl)
        · rw [hmutex] at hwowner
          simpa using hwowner
        · simp [WorkerThreadPc.holdsJob, eq_comm]
      · exact absurd hst (by simp)
    case h_3 hpc =>
      rw [hpc] at hwfree hwself hfinal
      have hheld : (s.worker i).hasJobMutex = some (.worker i) := (hwself i).mpr ⟨rfl, rfl⟩
      split at hst
      · obtain rfl := Option.some.inj hst
        exact h.threadJob hi ⟨hwfree, hwowner, hwself, by simp,
          fun _ => by simp [WorkerThreadPc.beforeJob]⟩ (by rw [hpc]; rfl)
      · rename_i hjob
        obtain rfl := Option.some.inj hst
        refine h.threadJob hi ⟨hwfree, ?_, by simp [WorkerThreadPc.holdsJob],
          fun _ hhas => absurd hhas hjob, hfinal⟩ (by rw [hpc]; rfl)
        rw [hheld] at hwowner
        simpa using hwowner
    case h_4 hpc =>
      obtain rfl := Option.some.inj hst
      rw [hpc] at hwfree hwself hfinal
      exact h.threadJob hi ⟨hwfree, hwowner, hwself, by simp, hfinal⟩ (by rw [hpc]; rfl)
    case h_5 hpc =>
      split at hst
      · rename_i hmutex
        obtain rfl := Option.some.inj hst
        rw [hpc] at hwfree hfinal
        refine h.threadJob hi ⟨hwfree, ?_, ?_, by simp, hfinal⟩ (by rw [hpc]; rfl)
        · rw [hmutex] at hwowner
          simpa using hwowner
        · simp [WorkerThreadPc.holdsJob, eq_comm]
      · exact absurd hst (by simp)
    case h_6 hpc =>
      obtain rfl := Option.some.inj hst
      rw [hpc] at hwfree hwself
      have hheld : (s.worker i).hasJobMutex = some (.worker i) := (hwself i).mpr ⟨rfl, rfl⟩
      refine h.threadJob hi ⟨hwfree, ?_, by simp [WorkerThreadPc.holdsJob], by simp,
        fun _ => by simp [WorkerThreadPc.beforeJob]⟩ (by rw [hpc]; rfl)
      rw [hheld] at hwowner
      simpa using hwowner
    case h_7 hpc =>
      obtain rfl := Option.some.inj hst
      rw [hpc] at hwfree hwself
      refine h.threadJob hi ?_ (by rw [hpc]; rfl)
      by_cases hset : s.stop = true
      · rw [if_pos hset]
        exact ⟨hwfree, hwowner, hwself, by simp, fun _ => by simp [WorkerThreadPc.beforeJob]⟩
      · rw [if_neg hset]
        exact ⟨hwfree, hwowner, hwself, by simp, fun _ => by simp [WorkerThreadPc.beforeJob]⟩
    case h_8 failed startTs endTs hpc =>
      obtain rfl := Option.some.inj hst
      rw [hpc] at hwfree hwself
      refine h.threadJob hi ?_ (by rw [hpc]; rfl)
      cases failed <;>
        exact ⟨hwfree, hwowner, hwself, by simp, fun _ => by simp [WorkerThreadPc.beforeJob]⟩
    case h_9 hpc =>
      split at hst
      · rename_i hmutex
        obtain rfl := Option.some.inj hst
        rw [hpc] at hwself
        refine h.thread hi _ s.freeWorkers (by simp [hmutex]) (fun j hj => ?_)
          ⟨by simp [WorkerThreadPc.holdsFree], hwowner, hwself, by simp,
            fun _ => by simp [WorkerThreadPc.beforeJob]⟩ (.inr ⟨by rw [hpc]; rfl, rfl⟩)
        simp [hmutex, hj.symm]
      · exact absurd hst (by simp)
    case h_10 hpc =>
      obtain rfl := Option.some.inj hst
      rw [hpc] at hwfree hwself
      exact h.thread hi s.freeWorkersMutex _ Iff.rfl (fun _ _ => Iff.rfl)
        ⟨hwfree, hwowner, hwself, by simp, fun _ => by simp [WorkerThreadPc.beforeJob]⟩ (.inl rfl)
    case h_11 hpc =>
      obtain rfl := Option.some.inj hst
      rw [hpc] at hwfree hwself
      have hheld : s.freeWorkersMutex = some (.worker i) := hwfree.mpr rfl
      refine h.thread hi _ s.freeWorkers (by simp [hheld]) (fun j hj => ?_)
        ⟨by simp [WorkerThreadPc.holdsFree], hwowner, hwself, by simp,
          fun _ => by simp [WorkerThreadPc.beforeJob]⟩ (.inl rfl)
      simp [hheld, hj.symm]
    case h_12 hpc =>
      obtain rfl := Option.some.inj hst
      rw [hpc] at hwfree hwself
      have hself : WorkerOk s.freeWorkersMutex s.pc i { s.worker i with pc := .top } :=
        ⟨hwfree, hwowner, hwself, by simp, fun _ => by simp [WorkerThreadPc.beforeJob]⟩
      have hworkers (j : Nat) : WorkerOk s.freeWorkersMutex s.pc j
          (Function.update s.worker i { s.worker i with pc := .top } j) := by
        by_cases hj : j = i
        · subst hj
          rwa [Function.update_self]
        · rw [Function.update_of_ne hj]
          exact h.worker j
      unfold PoolThreads.signalFree
      split
      · -- the owner has been waiting
        rename_i hwait
        have hwait : s.pc = .waitFree := hwait
        rw [hwait] at hfree hworkers
        exact ⟨hfree, fun j => (hworkers j).frame Iff.rfl rfl id id,
          fun hno => absurd hno (by simp)⟩
      · rename_i hawake
        exact ⟨hfree, hworkers, fun hwait => absurd hwait hawake⟩
    case h_13 => exact absurd hst (by simp)
  · exact absurd hst (by simp)

theorem lockInv_of_reach (hr : poolThreadsSystem.Reach s) : LockInv s := by
  refine hr.inv_of (fun s hr => PoolThreads.stop_of_destroying hr) ?_ ?_
  · rintro s ⟨n, -, rfl⟩
    refine ⟨by simp [poolThreadsInit, OwnerPc.holdsFree], fun i => ?_, by simp [poolThreadsInit]⟩
    constructor <;> simp [poolThreadsInit, WorkerThreadPc.holdsFree, OwnerPc.holdsJob,
      WorkerThreadPc.holdsJob, OwnerPc.finalJob]
  · rintro s s' (a | ⟨i, a⟩) hstop hI _ hst
    · exact hI.ownerStep hst
    · exact hI.threadStep hstop hst

end Steps

/-! ## 4. Who is left -/

/-- The workers that the owner has still to look at, or to join. -/
def OwnerPc.todo : OwnerPc → List Nat
  | .scan todo _ | .destroy todo => todo
  | .lockJob wr todo | .setJob wr todo | .unlockJob wr todo | .signalJob wr todo =>
    todo.elim [] (wr :: ·)
  | .join wr todo => wr :: todo
  | _ => []

structure PlaceInv (s : PoolThreads) : Prop where
  pos : 1 ≤ s.nWorkers
  perm : s.workers.Perm (List.range s.nWorkers)
  outside : ∀ i, s.nWorkers ≤ i → (s.worker i).pc = .top
  exited : ∀ i, (s.worker i).pc = .exited → s.stop = true
  stop : s.stop = true → s.pc.destroying = true
  todo : ∀ i ∈ s.pc.todo, i < s.nWorkers
  size : s.pc.todo.length ≤ s.nWorkers
  left : s.pc.destroying = true → ∀ i < s.nWorkers, i ∉ s.pc.todo → (s.worker i).pc = .exited

section Steps

variable {s s' : PoolThreads}

theorem PlaceInv.mem_workers (h : PlaceInv s) {i : Nat} : i ∈ s.workers ↔ i < s.nWorkers := by
  rw [h.perm.mem_iff, List.mem_range]

theorem PlaceInv.length_workers (h : PlaceInv s) : s.workers.length = s.nWorkers := by
  rw [h.perm.length_eq, List.length_range]

/-- A step of the owner on its way. -/
theorem PlaceInv.move (h : PlaceInv s) {worker : Nat → WorkerThread} {free : ℤ}
    {mutex : Option PoolThread} {pc : OwnerPc}
    (hworker : ∀ i, (worker i).pc = (s.worker i).pc ∨
      (s.worker i).pc = .waitJob ∧ (worker i).pc = .wokenJob)
    (hsub : pc.todo.Sublist s.pc.todo) (hdestroying : pc.destroying = s.pc.destroying)
    (hsame : s.pc.destroying = true → pc.todo = s.pc.todo) :
    PlaceInv { s with worker := worker, freeWorkers := free, freeWorkersMutex := mutex, pc := pc }
    where
  pos := h.pos
  perm := h.perm
  outside i hi := by
    rcases hworker i with hpc | ⟨hpc, -⟩
    · exact hpc.trans (h.outside i hi)
    · exact absurd (hpc.symm.trans (h.outside i hi)) (by simp)
  exited i hi := by
    rcases hworker i with hpc | ⟨-, hpc⟩
    · exact h.exited i (hpc.symm.trans hi)
    · exact absurd (hpc.symm.trans hi) (by simp)
  stop hstop := hdestroying.trans (h.stop hstop)
  todo i hi := h.todo i (hsub.subset hi)
  size := hsub.length_le.trans h.size
  left hpc i hi hnot := by
    have hpc : s.pc.destroying = true := hdestroying.symm.trans hpc
    have hexited := h.left hpc i hi (by rwa [← hsame hpc])
    rcases hworker i with hsame | ⟨hwait, -⟩
    · exact hsame.trans hexited
    · exact absurd (hwait.symm.trans hexited) (by simp)

/-- A step of the owner that moves no worker. -/
theorem PlaceInv.movePc (h : PlaceInv s) {free : ℤ} {mutex : Option PoolThread} {pc : OwnerPc}
    (hsub : pc.todo.Sublist s.pc.todo) (hdestroying : pc.destroying = s.pc.destroying)
    (hsame : s.pc.destroying = true → pc.todo = s.pc.todo) :
    PlaceInv { s with freeWorkers := free, freeWorkersMutex := mutex, pc := pc } :=
  h.move (fun _ => .inl rfl) hsub hdestroying hsame

/-- A write of the owner to a worker. -/
theorem PlaceInv.moveWorker (h : PlaceInv s) {i : Nat} {wr : WorkerThread} {pc : OwnerPc}
    (hwr : wr.pc = (s.worker i).pc ∨ (s.worker i).pc = .waitJob ∧ wr.pc = .wokenJob)
    (htodo : pc.todo = s.pc.todo) (hdestroying : pc.destroying = s.pc.destroying) :
    PlaceInv { s.setWorker i wr with pc := pc } := by
  refine h.move (fun j => ?_) (by rw [htodo]) hdestroying fun _ => htodo
  show (Function.update s.worker i wr j).pc = _ ∨ _ ∧ (Function.update s.worker i wr j).pc = _
  by_cases hj : j = i
  · subst hj
    rwa [Function.update_self]
  · rw [Function.update_of_ne hj]
    exact .inl rfl

theorem PlaceInv.moveSignal (h : PlaceInv s) {i : Nat} {pc : OwnerPc}
    (htodo : pc.todo = s.pc.todo) (hdestroying : pc.destroying = s.pc.destroying) :
    PlaceInv { s.signalJob i with pc := pc } := by
  unfold PoolThreads.signalJob
  split
  · rename_i hwait
    exact h.moveWorker (.inr ⟨hwait, rfl⟩) htodo hdestroying
  · exact h.movePc (by rw [htodo]) hdestroying fun _ => htodo

/-- **The owner.**  `hfound`: what `us_workers_pool_wait` has found is a worker. -/
theorem PlaceInv.ownerStep (h : PlaceInv s)
    (hfound : ∀ wr, s.pc = .scan [] (some wr) → wr < s.nWorkers) {a : OwnerAct}
    (hst : s.ownerStep a = some s') : PlaceInv s' := by
  unfold PoolThreads.ownerStep at hst
  split at hst
  case h_2 hpc =>
    obtain rfl := Option.some.inj hst
    exact ⟨h.pos, h.perm, h.outside, fun _ _ => rfl, fun _ => rfl, fun i => h.mem_workers.mp,
      h.length_workers.le, fun _ i hi hnot => absurd (h.mem_workers.mpr hi) hnot⟩
  case h_7 hpc =>
    obtain rfl := Option.some.inj hst
    have hgoing (hstop : s.stop = true) : False := by
      have hdestroying := h.stop hstop
      rw [hpc] at hdestroying
      exact absurd hdestroying (by simp [OwnerPc.destroying])
    exact ⟨h.pos, h.perm, h.outside, h.exited, fun hstop => absurd hstop hgoing,
      fun i => h.mem_workers.mp, h.length_workers.le, fun hno => absurd hno (by simp
        [OwnerPc.destroying])⟩
  case h_8 wr todo found hpc =>
    obtain rfl := Option.some.inj hst
    refine h.movePc ?_ (by rw [hpc]; rfl) fun hno => ?_
    · rw [hpc]
      exact List.sublist_cons_self wr todo
    · rw [hpc] at hno
      exact absurd hno (by simp [OwnerPc.destroying])
  case h_10 wr hpc =>
    obtain rfl := Option.some.inj hst
    have hmem : wr ∈ s.workers := h.mem_workers.mpr (hfound wr hpc)
    have hmoved (jobTimely : Bool) : PlaceInv
        { s.setWorker wr { s.worker wr with jobTimely := jobTimely } with pc := .hold wr } :=
      h.moveWorker (.inl rfl) (by rw [hpc]; rfl) (by rw [hpc]; rfl)
    refine { hmoved _ with perm := ?_ }
    exact (List.perm_append_singleton wr _).trans ((List.perm_cons_erase hmem).symm.trans h.perm)
  case h_13 wr todo hpc =>
    split at hst
    · obtain rfl := Option.some.inj hst
      exact h.moveWorker (.inl rfl) (by rw [hpc]; rfl) (by rw [hpc]; rfl)
    · exact absurd hst (by simp)
  case h_14 wr todo hpc =>
    obtain rfl := Option.some.inj hst
    exact h.moveWorker (.inl rfl) (by rw [hpc]; rfl) (by rw [hpc]; rfl)
  case h_15 wr todo hpc =>
    obtain rfl := Option.some.inj hst
    exact h.moveWorker (.inl rfl) (by rw [hpc]; rfl) (by rw [hpc]; rfl)
  case h_16 wr hpc =>
    obtain rfl := Option.some.inj hst
    exact h.moveSignal (by rw [hpc]; rfl) (by rw [hpc]; rfl)
  case h_17 wr todo hpc =>
    obtain rfl := Option.some.inj hst
    exact h.moveSignal (by rw [hpc]; rfl) (by rw [hpc]; rfl)
  case h_23 wr todo hpc =>
    split at hst
    · rename_i hexited
      obtain rfl := Option.some.inj hst
      have htodo := h.todo
      have hsize := h.size
      have hleft := h.left
      have hstop := h.stop
      rw [hpc] at htodo hsize hleft hstop
      refine ⟨h.pos, h.perm, h.outside, h.exited, hstop, fun i hi => ?_, ?_, fun _ i hi hnot => ?_⟩
      · exact htodo i (List.mem_cons_of_mem wr hi)
      · exact (Nat.le_succ _).trans hsize
      · by_cases hiw : i = wr
        · rw [hiw]
          exact hexited
        · exact hleft rfl i hi fun hmem => (List.mem_cons.mp hmem).elim hiw hnot
    · exact absurd hst (by simp)
  case h_24 => exact absurd hst (by simp)
  all_goals
    rename_i hpc
    try split at hst
    all_goals
      first
        | obtain rfl := Option.some.inj hst
          refine h.movePc ?_ ?_ ?_ <;> rw [hpc] <;> simp [OwnerPc.todo, OwnerPc.destroying]
        | exact absurd hst (by simp)

/-- A step of worker `i`, which may wake the owner. -/
theorem PlaceInv.thread (h : PlaceInv s) {i : Nat} (hi : i < s.nWorkers)
    (hrunning : (s.worker i).pc ≠ .exited) {wr : WorkerThread}
    (hexit : wr.pc = .exited → s.stop = true) {free : ℤ} {mutex : Option PoolThread} {pc : OwnerPc}
    (htodo : pc.todo = s.pc.todo) (hdestroying : pc.destroying = s.pc.destroying) :
    PlaceInv { s.setWorker i wr with freeWorkers := free, freeWorkersMutex := mutex, pc := pc }
    where
  pos := h.pos
  perm := h.perm
  outside j hj := by
    have hne : j ≠ i := fun hji => absurd hi (by rw [← hji]; exact Nat.not_lt.mpr hj)
    show (Function.update s.worker i wr j).pc = _
    rw [Function.update_of_ne hne]
    exact h.outside j hj
  exited j hj := by
    have hj : (Function.update s.worker i wr j).pc = .exited := hj
    by_cases hji : j = i
    · subst hji
      rw [Function.update_self] at hj
      exact hexit hj
    · rw [Function.update_of_ne hji] at hj
      exact h.exited j hj
  stop hstop := hdestroying.trans (h.stop hstop)
  todo := by
    dsimp only
    rw [htodo]
    exact h.todo
  size := by
    dsimp only
    rw [htodo]
    exact h.size
  left hpc j hj hnot := by
    have hpc : s.pc.destroying = true := hdestroying.symm.trans hpc
    have hexited := h.left hpc j hj (by rwa [← htodo])
    have hne : j ≠ i := fun hji => hrunning (hji ▸ hexited)
    show (Function.update s.worker i wr j).pc = _
    rwa [Function.update_of_ne hne]

/-- **A worker.** -/
theorem PlaceInv.threadStep (h : PlaceInv s) {i : Nat} {a : ThreadAct}
    (hst : s.threadStep i a = some s') : PlaceInv s' := by
  unfold PoolThreads.threadStep at hst
  dsimp only at hst
  split at hst
  · rename_i hi
    have hsame {wr : WorkerThread} {free : ℤ} {mutex : Option PoolThread}
        (hrunning : (s.worker i).pc ≠ .exited) (hexit : wr.pc = .exited → s.stop = true) :
        PlaceInv { s.setWorker i wr with freeWorkers := free, freeWorkersMutex := mutex } :=
      h.thread hi hrunning hexit rfl rfl
    split at hst
    case h_1 hpc =>
      obtain rfl := Option.some.inj hst
      refine hsame (by simp [hpc]) fun hexit => ?_
      by_contra hgoing
      simp [hgoing] at hexit
    case h_7 hpc =>
      obtain rfl := Option.some.inj hst
      refine hsame (by simp [hpc]) fun hexit => ?_
      by_contra hgoing
      simp [hgoing] at hexit
    case h_8 failed startTs endTs hpc =>
      obtain rfl := Option.some.inj hst
      exact hsame (by simp [hpc]) (by cases failed <;> simp)
    case h_12 hpc =>
      obtain rfl := Option.some.inj hst
      unfold PoolThreads.signalFree
      split
      · rename_i hwait
        have hwait : s.pc = .waitFree := hwait
        exact h.thread hi (by simp [hpc]) (by simp) (by rw [hwait]; rfl) (by rw [hwait]; rfl)
      · exact hsame (by simp [hpc]) (by simp)
    all_goals
      rename_i hpc
      try split at hst
      all_goals
        first
          | obtain rfl := Option.some.inj hst
            exact hsame (by simp [hpc]) (by simp)
          | exact absurd hst (by simp)
  · exact absurd hst (by simp)

/-- Before the pool is destroyed. -/
theorem PlaceInv.stop_eq_false (h : PlaceInv s) (hpc : s.pc.destroying = false) :
    s.stop = false := by
  by_contra hstop
  have hdestroying := h.stop (by simpa using hstop)
  rw [hpc] at hdestroying
  exact absurd hdestroying (by decide)

/-- What `us_workers_pool_wait` has found is a worker. -/
theorem found_lt (hr : poolThreadsSystem.Reach s) (hstop : s.stop = false) {wr : Nat}
    (hpc : s.pc = .scan [] (some wr)) : wr < s.nWorkers := by
  have hjpeg := (PoolInv.of_reach (PoolThreads.reach_pool hr hstop)).jpeg
  have hscan : s.pool.pc = .scan [] (some wr) := by
    simp [PoolThreads.pool, hpc, OwnerPc.poolPc]
  unfold PoolState.JpegOk at hjpeg
  rw [hscan] at hjpeg
  exact (PoolState.mem_free_iff.mp hjpeg.2.2).1

theorem placeInv_of_reach (hr : poolThreadsSystem.Reach s) : PlaceInv s := by
  refine hr.inv_of (J := poolThreadsSystem.Reach) (fun s hr => hr) ?_ ?_
  · rintro s ⟨n, hn, rfl⟩
    exact ⟨hn, List.Perm.refl _, fun _ _ => rfl, fun _ hexited => absurd hexited (by simp
      [poolThreadsInit]), fun hstop => absurd hstop (by simp [poolThreadsInit]),
      fun i hi => absurd hi (by simp [poolThreadsInit, OwnerPc.todo]), Nat.zero_le _,
      fun hno => absurd hno (by simp [poolThreadsInit, OwnerPc.destroying])⟩
  · rintro s s' (a | ⟨i, a⟩) hr hI _ hst
    · exact hI.ownerStep (fun wr hpc => found_lt hr (hI.stop_eq_false (by rw [hpc]; rfl)) hpc) hst
    · exact hI.threadStep hst

end Steps

end TinyPilotKvm
