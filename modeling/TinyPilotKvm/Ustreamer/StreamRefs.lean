/-
# Reference counts of the capture buffers in the stream

`refs` of a buffer is to count the pointers to it: one in each worker's queue that has it, one in
the hands of each worker that has taken it, one in a job of the encoder, and, between the two
halves of `QUEUE_HW`, one that the loop is about to hand over.  `tokens` is that number, and
`StreamInv.counts` says that it is `refs`.

What the threads can do to it comes in few shapes, and the invariant is proved for each shape:

* a worker moves a pointer on, or gives it up with a `decref` (`WorkerMove`);
* the loop takes a buffer from the driver, which has no pointer to it (`StreamInv.grabKept`), adds a
  pointer (`StreamOk.loopIncref`) and hands it over (`StreamOk.loopPut`);
* a releaser moves a buffer towards the driver, once it has no pointer (`StreamOk.releaserQbuf`).

The one step that can go wrong is the hand-over: `us_queue_put` on a full queue drops the pointer
and keeps the count.  The queues of the JPEG and H.264 workers have room for every buffer and
never hold one twice, so only the queue of the RAW worker, which has room for two, can be full.
-/
import Mathlib.Data.List.Nodup
import Mathlib.Data.List.Perm.Subperm
import TinyPilotKvm.Ustreamer.Stream

namespace TinyPilotKvm

/-! ## 1. Pointers -/

/-- The buffer in a worker's hands. -/
def WorkerPc.held : WorkerPc → List Nat
  | .check hw => [hw]
  | .drop hw => [hw]
  | .holding hw => [hw]
  | _ => []

/-- The pointers to `b` that a worker's context has. -/
def ctxTokens (c : Option WorkerCtx) (b : Nat) : Nat :=
  match c with
  | none => 0
  | some c => c.queue.toList.count b + c.pc.held.count b

/-- The jobs of the pool that `b` is attached to. -/
def poolTokens (pool : List PoolWorker) (b : Nat) : Nat := pool.countP fun w => w.hw == some b

/-- The buffer that is counted but not handed over yet. -/
def LoopPc.counted : LoopPc → List Nat
  | .putHw hw _ _ => [hw]
  | _ => []

/-- The buffer the loop is busy with. -/
def LoopPc.hand : LoopPc → Option Nat
  | .queueHw hw _ => some hw
  | .putHw hw _ _ => some hw
  | _ => none

/-- The workers it has still to be handed to. -/
def LoopPc.todo : LoopPc → List WorkerKind
  | .queueHw _ todo => todo
  | .putHw _ k todo => k :: todo
  | _ => []

/-- A sum over the three workers. -/
def kindSum (f : WorkerKind → Nat) : Nat := f .jpeg + f .raw + f .h264

/-- All pointers to `b`. -/
def tokens (s : StreamState) (b : Nat) : Nat :=
  kindSum (fun k => ctxTokens (s.ctx k) b) + poolTokens s.pool b + s.pc.counted.count b

/-- A change of one worker's summand. -/
theorem kindSum_of_ne (f f' : WorkerKind → Nat) (k : WorkerKind) (h : ∀ j, j ≠ k → f' j = f j) :
    kindSum f' + f k = kindSum f + f' k := by
  unfold kindSum
  cases k with
  | jpeg =>
    rw [h .raw (by decide), h .h264 (by decide)]
    omega
  | raw =>
    rw [h .jpeg (by decide), h .h264 (by decide)]
    omega
  | h264 =>
    rw [h .jpeg (by decide), h .raw (by decide)]
    omega

/-- What one worker has is no more than there is. -/
theorem ctxTokens_le_tokens (s : StreamState) (k : WorkerKind) (b : Nat) :
    ctxTokens (s.ctx k) b ≤ tokens s b := by
  unfold tokens kindSum
  dsimp only
  cases k <;> omega

/-- The contexts after a write to one of them. -/
theorem ctx_setCtx_eq_some {s : StreamState} {k j : WorkerKind} {c c1 : WorkerCtx}
    (h : (s.setCtx k c).ctx j = some c1) : (j = k ∧ c1 = c) ∨ (j ≠ k ∧ s.ctx j = some c1) := by
  unfold StreamState.setCtx at h
  dsimp only at h
  by_cases hj : j = k
  · subst hj
    rw [Function.update_self] at h
    exact Or.inl ⟨rfl, (Option.some.inj h).symm⟩
  · rw [Function.update_of_ne hj] at h
    exact Or.inr ⟨hj, h⟩

/-- A change in a worker's context and in the pool. -/
theorem tokens_setCtx {s : StreamState} {k : WorkerKind} {c : WorkerCtx} (hc : s.ctx k = some c)
    (run : UsCaptureRuntime) (c' : WorkerCtx) (pool : List PoolWorker) (b : Nat) :
    tokens { (s.setRun run).setCtx k c' with pool := pool } b
        + (ctxTokens (some c) b + poolTokens s.pool b)
      = tokens s b + (ctxTokens (some c') b + poolTokens pool b) := by
  have hsum := kindSum_of_ne (fun j => ctxTokens (s.ctx j) b)
    (fun j => ctxTokens (((s.setRun run).setCtx k c').ctx j) b) k fun j hj => by
      simp only [StreamState.setCtx, StreamState.setRun, Function.update_of_ne hj]
  have hk : ctxTokens (((s.setRun run).setCtx k c').ctx k) b = ctxTokens (some c') b := by
    simp only [StreamState.setCtx, Function.update_self]
  rw [hk, hc] at hsum
  unfold tokens
  show kindSum (fun j => ctxTokens (((s.setRun run).setCtx k c').ctx j) b) + poolTokens pool b
    + s.pc.counted.count b + _ = _
  omega

/-- Setting a job of the pool. -/
theorem poolTokens_set {pool : List PoolWorker} {w : Nat} {old : PoolWorker}
    (h : pool[w]? = some old) (new : PoolWorker) (b : Nat) :
    poolTokens (pool.set w new) b + (if old.hw = some b then 1 else 0)
      = poolTokens pool b + (if new.hw = some b then 1 else 0) := by
  unfold poolTokens
  induction pool generalizing w with
  | nil => exact absurd h (by simp)
  | cons x xs ih =>
    cases w with
    | zero =>
      obtain rfl : x = old := by simpa using h
      simp only [List.set_cons_zero, List.countP_cons, beq_iff_eq]
      omega
    | succ w =>
      have hxs := ih (w := w) (by simpa using h)
      simp only [List.set_cons_succ, List.countP_cons, beq_iff_eq]
      omega

/-! ## 2. The invariant -/

/-- The buffers a releaser has taken on and not given back. -/
def Releaser.custody (r : Releaser) : List Nat :=
  r.queue.toList ++
    match r.pc with
    | .hold hw => [hw]
    | .release hw => [hw]
    | _ => []

/-- What a releaser takes off its queue it has in its hands. -/
theorem Releaser.custody_get {r : Releaser} {b hw : Nat} {q : Queue Nat}
    (hcust : r.custody = [] ∨ r.custody = [b]) (hpc : r.pc = .get)
    (hget : r.queue.get = some (hw, q)) : Releaser.custody ⟨q, .hold hw⟩ = r.custody := by
  have hold : r.custody = r.queue.toList := by simp only [Releaser.custody, hpc, List.append_nil]
  rw [hold, Queue.toList_get hget] at hcust ⊢
  rcases hcust with h0 | h1
  · exact absurd h0 (by simp)
  · obtain ⟨-, hnil⟩ := List.cons.inj h1
    simp only [Releaser.custody, hnil, List.nil_append]

/-- The buffer in a releaser's hands is its own, and its queue is empty. -/
theorem Releaser.custody_hand {r : Releaser} {b hw : Nat}
    (hcust : r.custody = [] ∨ r.custody = [b]) (hpc : r.pc = .hold hw ∨ r.pc = .release hw) :
    hw = b ∧ r.queue.toList = [] ∧ r.custody = [b] := by
  have hmem : r.custody = r.queue.toList ++ [hw] := by
    rcases hpc with hpc | hpc <;> simp only [Releaser.custody, hpc]
  rcases hcust with h0 | h1
  · rw [hmem] at h0
    exact absurd h0 (by simp)
  · rw [hmem] at h1
    have hlen := congrArg List.length h1
    rw [List.length_append, List.length_singleton, List.length_singleton] at hlen
    have hnil : r.queue.toList = [] := List.length_eq_zero_iff.mp (by omega)
    rw [hmem]
    rw [hnil, List.nil_append] at h1
    exact ⟨List.singleton_inj.mp h1, hnil, by rw [hnil, List.nil_append, h1]⟩

/-- The JPEG thread is between taking a job and assigning the next: the job is its to fill. -/
def WorkerPc.ownsJob : WorkerPc → Bool
  | .fetch => true
  | .check _ => true
  | .drop _ => true
  | .reget => true
  | .holding _ => true
  | _ => false

/-- The invariant of every run, the closing phase included. -/
structure StreamInv (s : StreamState) : Prop where
  length : s.cap.run.bufs.length = s.cap.run.nBufs
  /-- **The count is the number of pointers.** -/
  counts : ∀ b < s.cap.run.nBufs, (s.cap.run.hw b).refs = tokens s b
  bound : ∀ b, 0 < tokens s b → b < s.cap.run.nBufs
  /-- Nothing refers to what the driver has. -/
  free : ∀ b ∈ s.queued, b < s.cap.run.nBufs ∧ tokens s b = 0 ∧ s.pc.hand ≠ some b ∧
    (s.releasers b).custody = []
  /-- Nothing refers to the buffer the loop is busy with but what it has done itself. -/
  hand : ∀ hw, s.pc.hand = some hw → hw < s.cap.run.nBufs ∧ (s.cap.run.hw hw).buf.index = hw ∧
    (s.releasers hw).custody = [] ∧
    ∀ k ∈ s.pc.todo, ∀ c, s.ctx k = some c → hw ∉ c.queue.toList
  todo : s.pc.todo.Nodup
  /-- A releaser has its own buffer or none. -/
  custody : ∀ b, (s.releasers b).custody = [] ∨
    (s.releasers b).custody = [b] ∧ b < s.cap.run.nBufs ∧ (s.cap.run.hw b).buf.index = b
  room : ∀ b, (s.releasers b).queue.capacity = 1
  queues : ∀ k c, s.ctx k = some c → c.queue.toList.Nodup ∧
    c.queue.capacity = workerCapacity s.cap.run.nBufs k
  job : ∀ c, s.ctx .jpeg = some c → c.pc.ownsJob = true →
    ∃ hasJob, s.pool[c.wr]? = some ⟨none, hasJob⟩

/-- What holds besides while the loop is not closing: no buffer is out of sight. -/
structure StreamLive (s : StreamState) : Prop where
  marked : ∀ i < s.cap.run.nBufs, (s.cap.run.hw i).grabbed = false → i ∈ s.queued
  pending : ∀ b hw, (s.releasers b).pc = .clear hw →
    hw = b ∧ b ∈ s.queued ∧ (s.cap.run.hw b).grabbed = true
  whole : s.threadsStop = false → ∀ b < s.cap.run.nBufs,
    b ∈ s.queued ∨ s.pc.hand = some b ∨ (s.releasers b).custody = [b]
  running : s.threadsStop = false → ∀ b, (s.releasers b).pc ≠ .done

/-- The count of a buffer after a `decref`. -/
theorem refs_decref {run : UsCaptureRuntime} {hw : Nat} (h : hw < run.bufs.length) (b : Nat) :
    ((usCaptureHwbufDecref run hw).hw b).refs
      = (run.hw b).refs - (if hw = b then 1 else 0) := by
  unfold usCaptureHwbufDecref
  by_cases hb : hw = b
  · subst hb
    rw [UsCaptureRuntime.hw_modifyHw_self _ h, if_pos rfl]
  · rw [UsCaptureRuntime.hw_modifyHw_of_ne _ hb, if_neg hb, sub_zero]

theorem refs_incref {run : UsCaptureRuntime} {hw : Nat} (h : hw < run.bufs.length) (b : Nat) :
    ((usCaptureHwbufIncref run hw).hw b).refs
      = (run.hw b).refs + (if hw = b then 1 else 0) := by
  unfold usCaptureHwbufIncref
  by_cases hb : hw = b
  · subst hb
    rw [UsCaptureRuntime.hw_modifyHw_self _ h, if_pos rfl]
  · rw [UsCaptureRuntime.hw_modifyHw_of_ne _ hb, if_neg hb, add_zero]

/-! ## 3. What a worker's step can do -/

/-- The run-time state of the device less the counts. -/
structure SameBut (run run' : UsCaptureRuntime) : Prop where
  nBufs : run'.nBufs = run.nBufs
  length : run'.bufs.length = run.bufs.length
  grabbed : ∀ j, (run'.hw j).grabbed = (run.hw j).grabbed
  buf : ∀ j, (run'.hw j).buf = (run.hw j).buf

theorem SameBut.refl (run : UsCaptureRuntime) : SameBut run run :=
  ⟨rfl, rfl, fun _ => rfl, fun _ => rfl⟩

theorem SameBut.modify (run : UsCaptureRuntime) (i : Nat) {f : UsCaptureHwbuf → UsCaptureHwbuf}
    (hg : ∀ h, (f h).grabbed = h.grabbed) (hb : ∀ h, (f h).buf = h.buf) :
    SameBut run (run.modifyHw i f) :=
  ⟨rfl, run.length_bufs_modifyHw i f, run.hw_modifyHw_field (·.grabbed) i f hg,
    run.hw_modifyHw_field (·.buf) i f hb⟩

/-- **A worker's step**: it touches neither the loop nor the releasers nor the driver; a pointer
that goes is taken off the count; and queues only get shorter. -/
structure WorkerMove (s s' : StreamState) : Prop where
  queued : s'.queued = s.queued
  pc : s'.pc = s.pc
  releasers : s'.releasers = s.releasers
  stop : s'.threadsStop = s.threadsStop
  run : SameBut s.cap.run s'.cap.run
  balance : ∀ b < s.cap.run.nBufs,
    (s'.cap.run.hw b).refs + tokens s b = (s.cap.run.hw b).refs + tokens s' b
  le : ∀ b, tokens s' b ≤ tokens s b
  queues : ∀ k c', s'.ctx k = some c' → ∃ c, s.ctx k = some c ∧
    c'.queue.toList.Sublist c.queue.toList ∧ c'.queue.capacity = c.queue.capacity

/-- A worker's step keeps the invariant, but for what it says of the job. -/
theorem StreamInv.move {s s' : StreamState} (h : StreamInv s) (hm : WorkerMove s s')
    (hjob : ∀ c, s'.ctx .jpeg = some c → c.pc.ownsJob = true →
      ∃ hasJob, s'.pool[c.wr]? = some ⟨none, hasJob⟩) : StreamInv s' where
  length := by rw [hm.run.length, hm.run.nBufs, h.length]
  counts b hb := by
    rw [hm.run.nBufs] at hb
    have h1 := hm.balance b hb
    have h2 := h.counts b hb
    omega
  bound b hb := by
    rw [hm.run.nBufs]
    exact h.bound b (lt_of_lt_of_le hb (hm.le b))
  free b hb := by
    rw [hm.queued] at hb
    obtain ⟨hlt, htok, hhand, hcust⟩ := h.free b hb
    have := hm.le b
    rw [hm.run.nBufs, hm.pc, hm.releasers]
    exact ⟨hlt, by omega, hhand, hcust⟩
  hand hw hh := by
    rw [hm.pc] at hh
    obtain ⟨hlt, hidx, hcust, htodo⟩ := h.hand hw hh
    rw [hm.run.nBufs, hm.run.buf, hm.releasers, hm.pc]
    refine ⟨hlt, hidx, hcust, fun k hk c' hc' hmem => ?_⟩
    obtain ⟨c, hc, hsub, -⟩ := hm.queues k c' hc'
    exact htodo k hk c hc (hsub.mem hmem)
  todo := by
    rw [hm.pc]
    exact h.todo
  custody b := by
    rw [hm.releasers, hm.run.nBufs, hm.run.buf]
    exact h.custody b
  room b := by
    rw [hm.releasers]
    exact h.room b
  queues k c' hc' := by
    obtain ⟨c, hc, hsub, hcap⟩ := hm.queues k c' hc'
    obtain ⟨hnodup, hcapc⟩ := h.queues k c hc
    rw [hm.run.nBufs, hcap]
    exact ⟨hnodup.sublist hsub, hcapc⟩
  job := hjob

theorem StreamLive.move {s s' : StreamState} (h : StreamLive s) (hm : WorkerMove s s') :
    StreamLive s' where
  marked i hi hg := by
    rw [hm.run.nBufs] at hi
    rw [hm.run.grabbed] at hg
    rw [hm.queued]
    exact h.marked i hi hg
  pending b hw hb := by
    rw [hm.releasers] at hb
    rw [hm.queued, hm.run.grabbed]
    exact h.pending b hw hb
  whole hstop b hb := by
    rw [hm.stop] at hstop
    rw [hm.run.nBufs] at hb
    rw [hm.queued, hm.pc, hm.releasers]
    exact h.whole hstop b hb
  running hstop b := by
    rw [hm.stop] at hstop
    rw [hm.releasers]
    exact h.running hstop b

/-- `gone` is the buffer the step gives up, if any. -/
def decrefGone (run : UsCaptureRuntime) (gone : Option Nat) : UsCaptureRuntime :=
  match gone with
  | none => run
  | some hw => usCaptureHwbufDecref run hw

/-- The steps of the workers: a new context, a new pool, and a buffer given up or not. -/
theorem workerMove_of {s : StreamState} {k : WorkerKind} {c : WorkerCtx} (hc : s.ctx k = some c)
    {c' : WorkerCtx} {pool : List PoolWorker} (gone : Option Nat)
    (hgone : ∀ hw, gone = some hw → hw < s.cap.run.bufs.length)
    (hsub : c'.queue.toList.Sublist c.queue.toList) (hcap : c'.queue.capacity = c.queue.capacity)
    (hcount : ∀ b, ctxTokens (some c') b + poolTokens pool b + (if gone = some b then 1 else 0)
      = ctxTokens (some c) b + poolTokens s.pool b) :
    WorkerMove s { (s.setRun (decrefGone s.cap.run gone)).setCtx k c' with pool := pool } := by
  have htok := tokens_setCtx hc (decrefGone s.cap.run gone) c' pool
  have hrefs : ∀ b, ((decrefGone s.cap.run gone).hw b).refs
      = (s.cap.run.hw b).refs - (if gone = some b then 1 else 0) := by
    intro b
    cases gone with
    | none => simp [decrefGone]
    | some hw =>
      simp only [decrefGone, Option.some.injEq]
      exact refs_decref (hgone hw rfl) b
  have hsame : SameBut s.cap.run (decrefGone s.cap.run gone) := by
    cases gone with
    | none => exact .refl _
    | some hw => exact .modify _ _ (fun _ => rfl) fun _ => rfl
  refine ⟨rfl, rfl, rfl, rfl, hsame, fun b _ => ?_, fun b => ?_, fun j c1 hc1 => ?_⟩
  · have h1 := htok b
    have h2 := hcount b
    show ((decrefGone s.cap.run gone).hw b).refs + _ = _
    rw [hrefs]
    by_cases hg : gone = some b
    · rw [if_pos hg] at h2 ⊢
      omega
    · rw [if_neg hg] at h2 ⊢
      omega
  · have h1 := htok b
    have h2 := hcount b
    omega
  · rcases ctx_setCtx_eq_some hc1 with ⟨rfl, rfl⟩ | ⟨-, hc1⟩
    · exact ⟨c, hc, hsub, hcap⟩
    · exact ⟨c1, hc1, List.Sublist.refl _, rfl⟩

/-- The job the JPEG thread has taken is empty. -/
def JobOk (pool : List PoolWorker) (c : WorkerCtx) : Prop :=
  c.pc.ownsJob = true → ∃ hasJob, pool[c.wr]? = some ⟨none, hasJob⟩

/-- **A worker's step keeps the invariant**, if what it gives up comes from its context or the
pool. -/
theorem StreamInv.worker {s : StreamState} (h : StreamInv s) {k : WorkerKind} {c : WorkerCtx}
    (hc : s.ctx k = some c) {c' : WorkerCtx} (pool : List PoolWorker) (gone : Option Nat)
    (hsub : c'.queue.toList.Sublist c.queue.toList) (hcap : c'.queue.capacity = c.queue.capacity)
    (hcount : ∀ b, ctxTokens (some c') b + poolTokens pool b + (if gone = some b then 1 else 0)
      = ctxTokens (some c) b + poolTokens s.pool b)
    (hjob : k = .jpeg → JobOk pool c') (hpool : k ≠ .jpeg → pool = s.pool) :
    let s' := { (s.setRun (decrefGone s.cap.run gone)).setCtx k c' with pool := pool }
    StreamInv s' ∧ WorkerMove s s' := by
  have hgone : ∀ hw, gone = some hw → hw < s.cap.run.bufs.length := by
    rintro hw rfl
    have h1 := hcount hw
    have h2 := tokens_setCtx hc s.cap.run c s.pool hw
    have h3 : 0 < tokens s hw := by
      rw [if_pos rfl] at h1
      have h4 := ctxTokens_le_tokens s k hw
      rw [hc] at h4
      have h5 : poolTokens s.pool hw ≤ tokens s hw := by
        unfold tokens
        omega
      omega
    rw [h.length]
    exact h.bound hw h3
  have hm := workerMove_of hc gone hgone hsub hcap hcount
  refine ⟨h.move hm fun c1 hc1 => ?_, hm⟩
  rcases ctx_setCtx_eq_some hc1 with ⟨rfl, rfl⟩ | ⟨hk, hc1⟩
  · exact hjob rfl
  · rw [hpool hk.symm]
    exact h.job c1 hc1

/-- A step inside a worker: no pointer comes or goes. -/
theorem StreamInv.quiet {s : StreamState} (h : StreamInv s) {k : WorkerKind} {c : WorkerCtx}
    (hc : s.ctx k = some c) {c' : WorkerCtx} (hq : c'.queue = c.queue)
    (hheld : c'.pc.held = c.pc.held) (hjob : k = .jpeg → JobOk s.pool c') :
    StreamInv (s.setCtx k c') ∧ WorkerMove s (s.setCtx k c') :=
  h.worker hc s.pool none (by rw [hq]) (by rw [hq])
    (fun b => by simp only [ctxTokens, hq, hheld, reduceCtorEq, if_false, Nat.add_zero]) hjob
    fun _ => rfl

/-- A worker takes the next pointer off its queue. -/
theorem StreamInv.take {s : StreamState} (h : StreamInv s) {k : WorkerKind} {c : WorkerCtx}
    (hc : s.ctx k = some c) {hw : Nat} {q : Queue Nat} (hget : c.queue.get = some (hw, q))
    (hheld : c.pc.held = []) (howns : c.pc.ownsJob = true) :
    let s' := s.setCtx k { c with queue := q, pc := .check hw }
    StreamInv s' ∧ WorkerMove s s' := by
  have hlist := Queue.toList_get hget
  refine h.worker hc s.pool none ?_ (Queue.capacity_get hget) (fun b => ?_)
    (fun hk _ => ?_) fun _ => rfl
  · rw [hlist]
    exact List.sublist_cons_self hw _
  · have hold : ctxTokens (some c) b = (hw :: q.toList).count b := by
      simp only [ctxTokens, hheld, hlist, List.count_nil, Nat.add_zero]
    rw [hold]
    simp only [ctxTokens, WorkerPc.held, List.count_cons, List.count_nil, reduceCtorEq, if_false]
    omega
  · subst hk
    exact h.job c hc howns

/-- A worker gives the buffer in its hands up. -/
theorem StreamInv.giveUp {s : StreamState} (h : StreamInv s) {k : WorkerKind} {c : WorkerCtx}
    (hc : s.ctx k = some c) {hw : Nat} (hheld : c.pc.held = [hw]) {pc : WorkerPc}
    (hpc : pc.held = []) (hjob : k = .jpeg → JobOk s.pool { c with pc := pc }) :
    let s' := (s.decref hw).setCtx k { c with pc := pc }
    StreamInv s' ∧ WorkerMove s s' := by
  refine h.worker hc s.pool (some hw) (List.Sublist.refl _) rfl (fun b => ?_) hjob
    fun _ => rfl
  simp only [ctxTokens, hheld, hpc, List.count_cons, List.count_nil, Option.some.injEq, beq_iff_eq]
  omega

section WorkerSteps

variable {s s' : StreamState} {k : WorkerKind} {c : WorkerCtx}

theorem StreamInv.workerEnter (h : StreamInv s) (hc : s.ctx k = some c)
    (hst : workerEnter s k c = some s') : StreamInv s' ∧ WorkerMove s s' := by
  unfold TinyPilotKvm.workerEnter at hst
  split at hst
  · rename_i hpc
    split at hst
    · obtain rfl := Option.some.inj hst
      exact h.quiet hc rfl (by rw [hpc]; rfl) fun _ hown => absurd hown (by simp [WorkerPc.ownsJob])
    · obtain rfl := Option.some.inj hst
      refine h.quiet hc rfl ?_ fun hk hown => ?_
      · rw [hpc]
        split <;> rfl
      · rw [if_pos hk] at hown
        exact absurd hown (by simp [WorkerPc.ownsJob])
  · exact absurd hst (by simp)

theorem StreamInv.jpegWait (h : StreamInv s) (hc : s.ctx .jpeg = some c) {w : Nat}
    (hst : jpegWait s c w = some s') : StreamInv s' ∧ WorkerMove s s' := by
  unfold TinyPilotKvm.jpegWait at hst
  split at hst
  · rename_i hw hpc hpool
    obtain rfl := Option.some.inj hst
    refine h.quiet hc rfl ?_ fun _ hown => ?_
    · rw [hpc]
      split <;> rfl
    · cases hw with
      | none => exact ⟨false, hpool⟩
      | some hw => exact absurd hown (by simp [WorkerPc.ownsJob])
  · exact absurd hst (by simp)

theorem StreamInv.jpegCollect (h : StreamInv s) (hc : s.ctx .jpeg = some c)
    (hst : jpegCollect s c = some s') : StreamInv s' ∧ WorkerMove s s' := by
  unfold TinyPilotKvm.jpegCollect at hst
  split at hst
  · rename_i hw hasJob hpc hpool
    obtain rfl := Option.some.inj hst
    refine h.worker hc _ (some hw) (List.Sublist.refl _) rfl (fun b => ?_) (fun _ _ => ?_)
      fun hk => absurd rfl hk
    · have hset := poolTokens_set hpool ⟨none, hasJob⟩ b
      simp only [reduceCtorEq, if_false] at hset
      simp only [ctxTokens, hpc, WorkerPc.held, List.count_nil]
      omega
    · have hlt := (List.getElem?_eq_some_iff.mp hpool).1
      exact ⟨hasJob, by simp [hlt]⟩
  · exact absurd hst (by simp)

theorem StreamInv.workerTimeout (h : StreamInv s) (hc : s.ctx k = some c)
    (hst : workerTimeout s k c = some s') : StreamInv s' ∧ WorkerMove s s' := by
  unfold TinyPilotKvm.workerTimeout at hst
  split at hst
  · rename_i hpc
    obtain rfl := Option.some.inj hst
    exact h.quiet hc rfl (by rw [hpc]; rfl) fun _ hown => absurd hown (by simp [WorkerPc.ownsJob])
  · exact absurd hst (by simp)

theorem StreamInv.workerGet (h : StreamInv s) (hc : s.ctx k = some c)
    (hst : workerGet s k c = some s') : StreamInv s' ∧ WorkerMove s s' := by
  unfold TinyPilotKvm.workerGet at hst
  split at hst
  · rename_i hw q hpc hget
    obtain rfl := Option.some.inj hst
    exact h.take hc hget (by rw [hpc]; rfl) (by rw [hpc]; rfl)
  · exact absurd hst (by simp)

theorem StreamInv.workerReget (h : StreamInv s) (hc : s.ctx k = some c)
    (hst : workerReget s k c = some s') : StreamInv s' ∧ WorkerMove s s' := by
  unfold TinyPilotKvm.workerReget at hst
  split at hst
  · rename_i hw q hpc hget
    obtain rfl := Option.some.inj hst
    exact h.take hc hget (by rw [hpc]; rfl) (by rw [hpc]; rfl)
  · exact absurd hst (by simp)

theorem StreamInv.workerCheck (h : StreamInv s) (hc : s.ctx k = some c)
    (hst : workerCheck s k c = some s') : StreamInv s' ∧ WorkerMove s s' := by
  unfold TinyPilotKvm.workerCheck at hst
  split at hst
  · rename_i hw hpc
    obtain rfl := Option.some.inj hst
    refine h.quiet hc rfl ?_ fun hk _ => ?_
    · rw [hpc]
      split <;> rfl
    · subst hk
      exact h.job c hc (by rw [hpc]; rfl)
  · exact absurd hst (by simp)

theorem StreamInv.workerDrop (h : StreamInv s) (hc : s.ctx k = some c)
    (hst : workerDrop s k c = some s') : StreamInv s' ∧ WorkerMove s s' := by
  unfold TinyPilotKvm.workerDrop at hst
  split at hst
  · rename_i hw hpc
    obtain rfl := Option.some.inj hst
    refine h.giveUp hc (by rw [hpc]; rfl) rfl fun hk _ => ?_
    subst hk
    exact h.job c hc (by rw [hpc]; rfl)
  · exact absurd hst (by simp)

theorem StreamInv.workerPass (h : StreamInv s) (hc : s.ctx k = some c)
    (hst : workerPass s k c = some s') : StreamInv s' ∧ WorkerMove s s' := by
  unfold TinyPilotKvm.workerPass at hst
  split at hst
  · rename_i hw hpc
    obtain rfl := Option.some.inj hst
    exact h.giveUp hc (by rw [hpc]; rfl) rfl fun _ hown => absurd hown (by simp [WorkerPc.ownsJob])
  · exact absurd hst (by simp)

/-- The buffer moves from the JPEG thread's hands to the job, which was empty. -/
theorem StreamInv.jpegAssign (h : StreamInv s) (hc : s.ctx .jpeg = some c)
    (hst : jpegAssign s c = some s') : StreamInv s' ∧ WorkerMove s s' := by
  unfold TinyPilotKvm.jpegAssign at hst
  split at hst
  · rename_i hw hpc
    obtain rfl := Option.some.inj hst
    obtain ⟨hasJob, hpool⟩ := h.job c hc (by rw [hpc]; rfl)
    refine h.worker hc _ none (List.Sublist.refl _) rfl (fun b => ?_)
      (fun _ hown => absurd hown (by simp [WorkerPc.ownsJob])) fun hk => absurd rfl hk
    have hset := poolTokens_set hpool ⟨some hw, true⟩ b
    simp only [reduceCtorEq, if_false, Option.some.injEq] at hset
    simp only [ctxTokens, hpc, WorkerPc.held, List.count_cons, List.count_nil, beq_iff_eq,
      reduceCtorEq, if_false]
    omega
  · exact absurd hst (by simp)

/-- A job done is still attached to its buffer. -/
theorem StreamInv.poolFinish (h : StreamInv s) {w : Nat} (hst : poolFinish s w = some s') :
    StreamInv s' ∧ WorkerMove s s' := by
  unfold TinyPilotKvm.poolFinish at hst
  split at hst
  · rename_i hw hpool
    obtain rfl := Option.some.inj hst
    have htok : ∀ b, tokens { s with pool := s.pool.set w ⟨hw, false⟩ } b = tokens s b := by
      intro b
      have hset : poolTokens (s.pool.set w ⟨hw, false⟩) b = poolTokens s.pool b :=
        Nat.add_right_cancel (poolTokens_set hpool ⟨hw, false⟩ b)
      unfold tokens
      dsimp only
      rw [hset]
    have hm : WorkerMove s { s with pool := s.pool.set w ⟨hw, false⟩ } :=
      ⟨rfl, rfl, rfl, rfl, .refl _, fun b _ => by rw [htok b], fun b => (htok b).le,
        fun k c hc => ⟨c, hc, List.Sublist.refl _, rfl⟩⟩
    refine ⟨h.move hm fun c hc hown => ?_, hm⟩
    obtain ⟨hasJob, hjob⟩ := h.job c hc hown
    by_cases hcw : w = c.wr
    · subst hcw
      rw [hpool, Option.some.injEq, PoolWorker.mk.injEq] at hjob
      have hlt := (List.getElem?_eq_some_iff.mp hpool).1
      exact ⟨false, by simp [hlt, hjob.1]⟩
    · exact ⟨hasJob, by rw [← hjob]; exact List.getElem?_set_ne hcw⟩
  · exact absurd hst (by simp)

end WorkerSteps

end TinyPilotKvm
