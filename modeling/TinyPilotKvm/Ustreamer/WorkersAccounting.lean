/-
# The accounting of the workers

The counter lags behind the flags.  What carries the proof is the balance of the two: a worker
OWES the counter one for the job it has, and one more if it has cleared its flag and not yet
counted itself, which is two for a worker that is given its next job in between.  `free_workers`
is the number of workers less what they owe, and one too many while an assigned job has not been
taken off (`PoolInv.balance`).

So outside `us_workers_pool_assign` there are at least as many workers without a job as
`free_workers` says (`PoolInv.freeWorkers_le`), and since no other thread sets a flag, one of them
is found.
-/
import Mathlib.Algebra.BigOperators.Ring.Finset
import Mathlib.Algebra.Order.BigOperators.Group.Finset
import TinyPilotKvm.Ustreamer.Workers

namespace TinyPilotKvm

/-! ## 1. The invariant -/

/-- What a worker has still to count. -/
def UsWorker.owed (wr : UsWorker) : ℤ :=
  (if wr.hasJob then 1 else 0) + (if wr.pc = .count then 1 else 0)

/-- A job that is assigned and not yet taken off. -/
def PoolPc.early : PoolPc → ℤ
  | .assigned _ => 1
  | _ => 0

namespace PoolState

/-- The workers without a job. -/
def free (s : PoolState) : Finset Nat :=
  (Finset.range s.nWorkers).filter fun i => (s.worker i).hasJob = false

theorem mem_free_iff {s : PoolState} {i : Nat} :
    i ∈ s.free ↔ i < s.nWorkers ∧ (s.worker i).hasJob = false := by
  rw [free, Finset.mem_filter, Finset.mem_range]

/-- A worker without a job has been found, or is still ahead. -/
def FoundOk (s : PoolState) (todo : List Nat) : Option Nat → Prop
  | none => ∃ i ∈ todo, i ∈ s.free
  | some f => f ∈ s.free

/-- What the JPEG thread knows where it is. -/
def JpegOk (s : PoolState) : Prop :=
  match s.pc with
  | .idle => True
  | .scan todo found =>
    1 ≤ s.freeWorkers ∧ (∀ i ∈ todo, i < s.nWorkers) ∧ s.FoundOk todo found
  | .hold wr => 1 ≤ s.freeWorkers ∧ wr ∈ s.free
  | .assigned _ => 1 ≤ s.freeWorkers
  | .failed => False

end PoolState

structure PoolInv (s : PoolState) : Prop where
  perm : s.workers.Perm (List.range s.nWorkers)
  balance : s.freeWorkers
    = s.nWorkers - ∑ i ∈ Finset.range s.nWorkers, (s.worker i).owed + s.pc.early
  running : ∀ i, (s.worker i).pc = .run → (s.worker i).hasJob = true
  nonneg : 0 ≤ s.freeWorkers
  jpeg : s.JpegOk

/-! ## 2. What is owed -/

theorem UsWorker.owed_nonneg (wr : UsWorker) : 0 ≤ wr.owed := by
  unfold UsWorker.owed
  split <;> split <;> decide

/-- A worker owes at least the job it has. -/
theorem UsWorker.one_le_owed (wr : UsWorker) :
    1 ≤ wr.owed + if wr.hasJob = false then 1 else 0 := by
  have hcount : (0 : ℤ) ≤ if wr.pc = .count then 1 else 0 := by
    split <;> decide
  unfold UsWorker.owed
  cases wr.hasJob <;> simp <;> omega

theorem sum_owed_update (worker : Nat → UsWorker) {n i : Nat} (hi : i < n) (wr : UsWorker) :
    ∑ j ∈ Finset.range n, (Function.update worker i wr j).owed
      = ∑ j ∈ Finset.range n, (worker j).owed + wr.owed - (worker i).owed := by
  have hmem := Finset.mem_range.mpr hi
  have hupdate : (fun j => (Function.update worker i wr j).owed)
      = Function.update (fun j => (worker j).owed) i wr.owed := by
    funext j
    by_cases hj : j = i
    · subst hj
      rw [Function.update_self, Function.update_self]
    · rw [Function.update_of_ne hj, Function.update_of_ne hj]
  rw [hupdate, Finset.sum_update_of_mem hmem,
    ← Finset.add_sum_erase (Finset.range n) (fun j => (worker j).owed) hmem, Finset.erase_eq]
  omega

namespace PoolInv

variable {s s' : PoolState}

theorem early_eq_zero (hpc : ∀ wr, s.pc ≠ .assigned wr) : s.pc.early = 0 := by
  unfold PoolPc.early
  split
  · rename_i wr hwr
    exact absurd hwr (hpc wr)
  · rfl

/-- **Outside `assign` the counter is at most the number of workers without a job.** -/
theorem freeWorkers_le (h : PoolInv s) (hpc : ∀ wr, s.pc ≠ .assigned wr) :
    s.freeWorkers ≤ s.free.card := by
  have hsum : (s.nWorkers : ℤ) ≤ ∑ i ∈ Finset.range s.nWorkers,
      ((s.worker i).owed + if (s.worker i).hasJob = false then 1 else 0) := by
    have hle := Finset.sum_le_sum
      fun i (_ : i ∈ Finset.range s.nWorkers) => (s.worker i).one_le_owed
    simpa using hle
  rw [Finset.sum_add_distrib, Finset.sum_boole] at hsum
  have hbalance := h.balance
  unfold PoolState.free
  rw [early_eq_zero hpc] at hbalance
  omega

/-- The counter is at most one more than there are workers, so it does not wrap around above
either. -/
theorem freeWorkers_le_succ (h : PoolInv s) : s.freeWorkers ≤ s.nWorkers + 1 := by
  have hsum : 0 ≤ ∑ i ∈ Finset.range s.nWorkers, (s.worker i).owed :=
    Finset.sum_nonneg fun i _ => (s.worker i).owed_nonneg
  have hearly : s.pc.early ≤ 1 := by
    unfold PoolPc.early
    split <;> decide
  have hbalance := h.balance
  omega

theorem init (n : Nat) : PoolInv (usWorkersPoolInit n) where
  perm := List.Perm.refl _
  balance := by simp [usWorkersPoolInit, UsWorker.owed, PoolPc.early]
  running i hi := absurd hi (by simp [usWorkersPoolInit])
  nonneg := Int.natCast_nonneg n
  jpeg := trivial

/-! ## 3. The workers' steps -/

/-- **What a worker's step does**: what it adds to the counter is what it owes no more, and it
sets no flag. -/
theorem workerStep_cases (hrun : ∀ i, (s.worker i).pc = .run → (s.worker i).hasJob = true) {i : Nat}
    {a : WorkerAct} (hst : s.workerStep i a = some s') :
    i < s.nWorkers ∧ ∃ (wr : UsWorker) (paid : ℤ),
      s' = { s with worker := Function.update s.worker i wr, freeWorkers := s.freeWorkers + paid } ∧
      0 ≤ paid ∧ wr.owed = (s.worker i).owed - paid ∧
      (wr.hasJob = true → (s.worker i).hasJob = true) ∧ (wr.pc = .run → wr.hasJob = true) := by
  unfold PoolState.workerStep at hst
  split at hst
  · rename_i hi
    refine ⟨hi, ?_⟩
    cases hpc : (s.worker i).pc <;> cases a <;> rw [hpc] at hst <;> dsimp only at hst <;>
      try contradiction
    case wait.wake =>
      split at hst
      · rename_i hjob
        obtain rfl := Option.some.inj hst
        exact ⟨{ s.worker i with pc := .run }, 0, by rw [add_zero]; rfl, le_refl _,
          by simp [UsWorker.owed, hpc], id, fun _ => hjob⟩
      · exact absurd hst (by simp)
    case run.finish failed startTs endTs =>
      obtain rfl := Option.some.inj hst
      have hjob := hrun i hpc
      exact ⟨_, 0, by rw [add_zero]; rfl, le_refl _, by simp [UsWorker.owed, hpc, hjob],
        fun _ => hjob, fun h => absurd h (by simp)⟩
    case count.count =>
      obtain rfl := Option.some.inj hst
      exact ⟨{ s.worker i with pc := .wait }, 1, rfl, by decide, by simp [UsWorker.owed, hpc], id,
        fun h => absurd h (by simp)⟩
  · exact absurd hst (by simp)

/-- **A worker's step keeps the invariant.** -/
theorem workerStep (h : PoolInv s) {i : Nat} {a : WorkerAct} (hst : s.workerStep i a = some s') :
    PoolInv s' := by
  obtain ⟨hi, wr, paid, rfl, hpaid, howed, hflag, hrun⟩ := workerStep_cases h.running hst
  have hbalance := h.balance
  have hnonneg := h.nonneg
  have hfree : ∀ j, j ∈ s.free → j ∈ PoolState.free
      { s with worker := Function.update s.worker i wr, freeWorkers := s.freeWorkers + paid } := by
    intro j hj
    rw [PoolState.mem_free_iff] at hj ⊢
    refine ⟨hj.1, ?_⟩
    dsimp only
    by_cases hji : j = i
    · subst hji
      rw [Function.update_self, ← Bool.not_eq_true]
      exact fun h0 => absurd (hflag h0) (by rw [hj.2]; exact Bool.false_ne_true)
    · rw [Function.update_of_ne hji]
      exact hj.2
  refine ⟨h.perm, ?_, fun j hj => ?_, add_nonneg hnonneg hpaid, ?_⟩
  · dsimp only
    rw [sum_owed_update s.worker hi wr, howed]
    omega
  · dsimp only at hj ⊢
    by_cases hji : j = i
    · subst hji
      rw [Function.update_self] at hj ⊢
      exact hrun hj
    · rw [Function.update_of_ne hji] at hj ⊢
      exact h.running j hj
  · have hjpeg := h.jpeg
    unfold PoolState.JpegOk at hjpeg ⊢
    dsimp only
    cases hpc : s.pc <;> rw [hpc] at hjpeg <;> dsimp only at hjpeg ⊢
    case scan todo found =>
      obtain ⟨hone, htodo, hfound⟩ := hjpeg
      refine ⟨by omega, htodo, ?_⟩
      cases found with
      | none =>
        obtain ⟨j, hj, hfreej⟩ := hfound
        exact ⟨j, hj, hfree j hfreej⟩
      | some f => exact hfree f hfound
    case hold j => exact ⟨by omega, hfree j hjpeg.2⟩
    case assigned j => omega

/-! ## 4. The JPEG thread's steps -/

/-- A step that moves the JPEG thread alone. -/
theorem setPc (h : PoolInv s) (pc : PoolPc) (hearly : pc.early = s.pc.early)
    (hjpeg : PoolState.JpegOk { s with pc := pc }) : PoolInv { s with pc := pc } :=
  ⟨h.perm, by rw [hearly]; exact h.balance, h.running, h.nonneg, hjpeg⟩

/-- A counter above zero means that a worker in the list has no job. -/
theorem wait (h : PoolInv s) (hpc : s.pc = .idle) (hne : s.freeWorkers ≠ 0) :
    PoolInv { s with pc := .scan s.workers none } := by
  have hnonneg := h.nonneg
  have hle := h.freeWorkers_le (by simp [hpc])
  obtain ⟨i, hi⟩ : s.free.Nonempty := by
    rw [← Finset.card_pos]
    omega
  have hmem : ∀ j, j ∈ s.workers ↔ j < s.nWorkers := fun j => by
    rw [h.perm.mem_iff, List.mem_range]
  have hone : 1 ≤ s.freeWorkers := by omega
  have hlisted : i ∈ s.workers := (hmem i).mpr (PoolState.mem_free_iff.mp hi).1
  exact h.setPc _ (by rw [hpc]; rfl) ⟨hone, fun j => (hmem j).mp, i, hlisted, hi⟩

/-- Looking at one worker: it is found, or it is not the one without a job. -/
theorem foundOk_scanWorker {wr : Nat} {todo : List Nat} {found : Option Nat} (hwr : wr < s.nWorkers)
    (h : s.FoundOk (wr :: todo) found) : s.FoundOk todo (s.scanWorker wr found) := by
  unfold PoolState.scanWorker
  by_cases hjob : (s.worker wr).hasJob = true
  · rw [if_pos hjob]
    cases found with
    | some f => exact h
    | none =>
      obtain ⟨i, hi, hfree⟩ := h
      refine ⟨i, (List.mem_cons.mp hi).resolve_left ?_, hfree⟩
      rintro rfl
      rw [(PoolState.mem_free_iff.mp hfree).2] at hjob
      exact absurd hjob Bool.false_ne_true
  · rw [if_neg hjob]
    have hself : wr ∈ s.free := PoolState.mem_free_iff.mpr ⟨hwr, Bool.not_eq_true _ ▸ hjob⟩
    cases found with
    | none => exact hself
    | some f =>
      dsimp only
      split
      · exact hself
      · exact h

theorem load (h : PoolInv s) {wr : Nat} {todo : List Nat} {found : Option Nat}
    (hpc : s.pc = .scan (wr :: todo) found) :
    PoolInv { s with pc := .scan todo (s.scanWorker wr found) } := by
  have hjpeg := h.jpeg
  unfold PoolState.JpegOk at hjpeg
  rw [hpc] at hjpeg
  obtain ⟨hone, htodo, hfound⟩ := hjpeg
  obtain ⟨hwr, htodo⟩ := List.forall_mem_cons.mp htodo
  exact h.setPc _ (by rw [hpc]; rfl) ⟨hone, htodo, foundOk_scanWorker hwr hfound⟩

theorem choose (h : PoolInv s) {wr : Nat} (hpc : s.pc = .scan [] (some wr)) :
    PoolInv (s.chooseWorker wr) := by
  have hjpeg := h.jpeg
  unfold PoolState.JpegOk at hjpeg
  rw [hpc] at hjpeg
  obtain ⟨hone, -, hfree⟩ := hjpeg
  obtain ⟨hwr, hjob⟩ := PoolState.mem_free_iff.mp hfree
  have hmem : wr ∈ s.workers := h.perm.mem_iff.mpr (List.mem_range.mpr hwr)
  have hbalance := h.balance
  rw [hpc] at hbalance
  refine ⟨?_, ?_, fun i hi => ?_, h.nonneg, hone, PoolState.mem_free_iff.mpr ⟨hwr, ?_⟩⟩
  · exact (List.perm_append_singleton wr _).trans ((List.perm_cons_erase hmem).symm.trans h.perm)
  · show s.freeWorkers
      = s.nWorkers - ∑ i ∈ Finset.range s.nWorkers, (Function.update s.worker wr _ i).owed + 0
    rw [sum_owed_update s.worker hwr]
    simp only [UsWorker.owed, PoolPc.early] at hbalance ⊢
    omega
  · simp only [PoolState.chooseWorker, PoolState.setWorker] at hi ⊢
    by_cases hiw : i = wr
    · subst hiw
      rw [Function.update_self] at hi ⊢
      exact h.running i hi
    · rw [Function.update_of_ne hiw] at hi ⊢
      exact h.running i hi
  · simp only [PoolState.chooseWorker, PoolState.setWorker, Function.update_self]
    exact hjob

theorem assign (h : PoolInv s) {wr : Nat} (hpc : s.pc = .hold wr) :
    PoolInv { s.setWorker wr { s.worker wr with hasJob := true } with pc := .assigned wr } := by
  have hjpeg := h.jpeg
  unfold PoolState.JpegOk at hjpeg
  rw [hpc] at hjpeg
  obtain ⟨hone, hfree⟩ := hjpeg
  obtain ⟨hwr, hjob⟩ := PoolState.mem_free_iff.mp hfree
  have hbalance := h.balance
  rw [hpc] at hbalance
  refine ⟨h.perm, ?_, fun i hi => ?_, h.nonneg, hone⟩
  · show s.freeWorkers
      = s.nWorkers - ∑ i ∈ Finset.range s.nWorkers, (Function.update s.worker wr _ i).owed + 1
    rw [sum_owed_update s.worker hwr]
    simp only [UsWorker.owed, PoolPc.early, hjob] at hbalance ⊢
    simp at hbalance ⊢
    omega
  · simp only [PoolState.setWorker] at hi ⊢
    by_cases hiw : i = wr
    · subst hiw
      rw [Function.update_self]
    · rw [Function.update_of_ne hiw] at hi ⊢
      exact h.running i hi

/-- **The JPEG thread's steps keep the invariant.** -/
theorem poolStep (h : PoolInv s) {a : PoolAct} (hst : s.poolStep a = some s') : PoolInv s' := by
  have hjpeg := h.jpeg
  have hbalance := h.balance
  unfold PoolState.JpegOk at hjpeg
  unfold PoolState.poolStep at hst
  split at hst <;> rename_i hpc <;> try contradiction
  all_goals rw [hpc] at hjpeg hbalance
  · split at hst
    · contradiction
    · rename_i hne
      exact Option.some.inj hst ▸ h.wait hpc hne
  · exact Option.some.inj hst ▸ h.load hpc
  · obtain ⟨-, -, i, hi, -⟩ := hjpeg
    exact absurd hi List.not_mem_nil
  · exact Option.some.inj hst ▸ h.choose hpc
  · exact Option.some.inj hst ▸ h.setPc .idle (by rw [hpc]; rfl) trivial
  · exact Option.some.inj hst ▸ h.assign hpc
  · obtain rfl := Option.some.inj hst
    have hone : 1 ≤ s.freeWorkers := hjpeg
    simp only [PoolPc.early] at hbalance
    refine ⟨h.perm, ?_, h.running, ?_, trivial⟩
    · show s.freeWorkers - 1
        = s.nWorkers - ∑ i ∈ Finset.range s.nWorkers, (s.worker i).owed + 0
      omega
    · show 0 ≤ s.freeWorkers - 1
      omega

/-- **The invariant holds in every state of every run.** -/
theorem of_reach (hr : workersSystem.Reach s) : PoolInv s := by
  refine System.ReachVia.inv ?_ ?_ hr
  · rintro s ⟨n, -, rfl⟩
    exact init n
  · rintro s s' (a | ⟨i, a⟩) h - hst
    · exact h.poolStep hst
    · exact h.workerStep hst

end PoolInv

/-! ## 5. The accounting -/

/-- **The accounting is right in every interleaving**, for any number of workers: outside
`us_workers_pool_assign` the counter is at most the number of workers without a job, the assertion
of `us_workers_pool_wait` has not failed, the counter is not below zero, and whoever is given a
job next neither has one nor runs one. -/
theorem workers_accounting {s : PoolState} (hr : workersSystem.Reach s) :
    ((∀ wr, s.pc ≠ .assigned wr) → s.freeWorkers ≤ s.free.card) ∧ s.pc ≠ .failed ∧
      0 ≤ s.freeWorkers ∧ s.freeWorkers ≤ s.nWorkers + 1 ∧
      ∀ s', s.step (.inl .assign) = some s' → ∃ wr, s.pc = .hold wr ∧ wr < s.nWorkers ∧
        (s.worker wr).hasJob = false ∧ (s.worker wr).pc ≠ .run ∧ (s'.worker wr).hasJob = true := by
  have h := PoolInv.of_reach hr
  have hjpeg := h.jpeg
  unfold PoolState.JpegOk at hjpeg
  refine ⟨h.freeWorkers_le, fun hpc => ?_, h.nonneg, h.freeWorkers_le_succ, fun s' hst => ?_⟩
  · rw [hpc] at hjpeg
    exact hjpeg
  · have hpc : ∃ wr, s.pc = .hold wr := by
      unfold PoolState.step PoolState.poolStep at hst
      dsimp only at hst
      split at hst <;> rename_i hpc heq <;> try contradiction
      exact ⟨_, hpc⟩
    obtain ⟨wr, hpc⟩ := hpc
    rw [hpc] at hjpeg
    obtain ⟨hwr, hjob⟩ := PoolState.mem_free_iff.mp hjpeg.2
    have hs' : some { s.setWorker wr { s.worker wr with hasJob := true } with pc := .assigned wr }
        = some s' := by
      rw [← hst]
      unfold PoolState.step PoolState.poolStep
      dsimp only
      rw [hpc]
    obtain rfl := Option.some.inj hs'
    refine ⟨wr, hpc, hwr, hjob, fun hrun => ?_, ?_⟩
    · exact absurd ((h.running wr hrun).symm.trans hjob) (by simp)
    · simp [PoolState.setWorker]

/-- `us_workers_pool_wait` in a pool of two: one look at each. -/
def waitTwo : List (PoolAct ⊕ Nat × WorkerAct) :=
  [.inl .wait, .inl .load, .inl .load, .inl .choose]

/-- A worker that has cleared its flag and not yet counted itself is found again. -/
theorem workers_accounting_uncounted : ∃ s : PoolState, s.pc = .hold 1 ∧
    (s.worker 1).pc = .count ∧ s.freeWorkers = 1 ∧ s.free.card = 2 ∧
      s.freeWorkers ≤ s.free.card := by
  have hrun : ((workersSystem.exec (usWorkersPoolInit 2)
      (waitTwo ++ [Sum.inl .assign, .inl .takeOff, .inr (1, .wake),
        .inr (1, .finish false 1 2)] ++ waitTwo)).any fun s =>
        decide (s.pc = .hold 1 ∧ (s.worker 1).pc = .count ∧ s.freeWorkers = 1 ∧ s.free.card = 2))
      = true := by decide +kernel
  obtain ⟨s, hexec, hs⟩ := (Option.any_eq_true _ _).mp hrun
  obtain ⟨hpc, hcount, hone, htwo⟩ := of_decide_eq_true hs
  have hstart : workersSystem.start (usWorkersPoolInit 2) := ⟨2, by decide, rfl⟩
  have hr := System.Reach.exec _ (.start hstart) hexec
  exact ⟨s, hpc, hcount, hone, htwo, (workers_accounting hr).1 (by simp [hpc])⟩

end TinyPilotKvm
