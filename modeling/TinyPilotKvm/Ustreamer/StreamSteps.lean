/-
# What one step of the stream changes

`StepOf` sorts the steps by the thread that makes them and says what each leaves alone.  Three facts
about all runs come from it: no worker waits for what does not come (`waitsOk_of_reach`), the loop
does not leave before the flag is set (`stop_of_closing`), and a buffer that a releaser is about to
give back has no pointer, as the assertion there says (`releaseAsserts_of_reach`).
-/
import TinyPilotKvm.Ustreamer.StreamConservation

namespace TinyPilotKvm

section Steps

variable {s s' : StreamState} {k : WorkerKind} {c : WorkerCtx}

/-! ## 1. The steps by their threads -/

/-- A worker that waits for the pool is the JPEG thread, and a job that it takes a buffer off has
one. -/
def WorkerCtx.WaitsOk (c : WorkerCtx) (k : WorkerKind) (pool : List PoolWorker) : Prop :=
  match c.pc with
  | .wait => k = .jpeg
  | .collect => k = .jpeg ∧ ∃ hw hasJob, pool[c.wr]? = some ⟨some hw, hasJob⟩
  | _ => True

/-- What a step of worker `k` changes. -/
structure WorkerStep (s s' : StreamState) (k : WorkerKind) (c : WorkerCtx) : Prop where
  running : c.pc ≠ .exited
  ctx : ∃ c' : WorkerCtx, s'.ctx = Function.update s.ctx k (some c') ∧ c'.WaitsOk k s'.pool
  releasers : s'.releasers = s.releasers
  pool : s'.pool = s.pool ∨ k = .jpeg
  loop : s'.pc = s.pc ∧ s'.threadsStop = s.threadsStop

theorem workerStep_enter (hst : workerEnter s k c = some s') : WorkerStep s s' k c := by
  unfold workerEnter at hst
  split at hst
  · rename_i hpc
    have hrunning : c.pc ≠ .exited := by simp [hpc]
    split at hst
    · obtain rfl := Option.some.inj hst
      exact ⟨hrunning, ⟨_, rfl, trivial⟩, rfl, .inl rfl, rfl, rfl⟩
    · obtain rfl := Option.some.inj hst
      refine ⟨hrunning, ⟨_, rfl, ?_⟩, rfl, .inl rfl, rfl, rfl⟩
      by_cases hk : k = .jpeg
      · rw [if_pos hk]
        exact hk
      · rw [if_neg hk]
        trivial
  · exact absurd hst (by simp)

theorem workerStep_wait {w : Nat} (hst : jpegWait s c w = some s') : WorkerStep s s' .jpeg c := by
  unfold jpegWait at hst
  split at hst
  · rename_i hw hpc hpool
    obtain rfl := Option.some.inj hst
    refine ⟨by simp [hpc], ⟨_, rfl, ?_⟩, rfl, .inl rfl, rfl, rfl⟩
    cases hw with
    | none => trivial
    | some hw => exact ⟨rfl, hw, false, hpool⟩
  · exact absurd hst (by simp)

theorem workerStep_check (hst : workerCheck s k c = some s') : WorkerStep s s' k c := by
  unfold workerCheck at hst
  split at hst
  · rename_i hw hpc
    obtain rfl := Option.some.inj hst
    refine ⟨by simp [hpc], ⟨_, rfl, ?_⟩, rfl, .inl rfl, rfl, rfl⟩
    cases c.queue.isEmpty <;> trivial
  · exact absurd hst (by simp)

/-- The steps that end where no job is waited for. -/
theorem workerStep_of {c' : WorkerCtx} (hrunning : c.pc ≠ .exited)
    (hctx : s'.ctx = Function.update s.ctx k (some c')) (hreleasers : s'.releasers = s.releasers)
    (hpool : s'.pool = s.pool ∨ k = .jpeg) (hloop : s'.pc = s.pc ∧ s'.threadsStop = s.threadsStop)
    (hwait : c'.pc ≠ .wait) (hcollect : c'.pc ≠ .collect) : WorkerStep s s' k c := by
  refine ⟨hrunning, ⟨c', hctx, ?_⟩, hreleasers, hpool, hloop⟩
  unfold WorkerCtx.WaitsOk
  split
  · exact absurd ‹_› hwait
  · exact absurd ‹_› hcollect
  · trivial

theorem workerStep_collect (hst : jpegCollect s c = some s') : WorkerStep s s' .jpeg c := by
  unfold jpegCollect at hst
  split at hst
  · rename_i hw hasJob hpc hpool
    obtain rfl := Option.some.inj hst
    exact workerStep_of (by simp [hpc]) rfl rfl (.inr rfl) ⟨rfl, rfl⟩ (by simp) (by simp)
  · exact absurd hst (by simp)

theorem workerStep_timeout (hst : workerTimeout s k c = some s') : WorkerStep s s' k c := by
  unfold workerTimeout at hst
  split at hst
  · rename_i hpc
    obtain rfl := Option.some.inj hst
    exact workerStep_of (by simp [hpc]) rfl rfl (.inl rfl) ⟨rfl, rfl⟩ (by simp) (by simp)
  · exact absurd hst (by simp)

theorem workerStep_get (hst : workerGet s k c = some s') : WorkerStep s s' k c := by
  unfold workerGet at hst
  split at hst
  · rename_i hw q hpc hget
    obtain rfl := Option.some.inj hst
    exact workerStep_of (by simp [hpc]) rfl rfl (.inl rfl) ⟨rfl, rfl⟩ (by simp) (by simp)
  · exact absurd hst (by simp)

theorem workerStep_reget (hst : workerReget s k c = some s') : WorkerStep s s' k c := by
  unfold workerReget at hst
  split at hst
  · rename_i hw q hpc hget
    obtain rfl := Option.some.inj hst
    exact workerStep_of (by simp [hpc]) rfl rfl (.inl rfl) ⟨rfl, rfl⟩ (by simp) (by simp)
  · exact absurd hst (by simp)

theorem workerStep_drop (hst : workerDrop s k c = some s') : WorkerStep s s' k c := by
  unfold workerDrop at hst
  split at hst
  · rename_i hw hpc
    obtain rfl := Option.some.inj hst
    exact workerStep_of (by simp [hpc]) rfl rfl (.inl rfl) ⟨rfl, rfl⟩ (by simp) (by simp)
  · exact absurd hst (by simp)

theorem workerStep_pass (hst : workerPass s k c = some s') : WorkerStep s s' k c := by
  unfold workerPass at hst
  split at hst
  · rename_i hw hpc
    obtain rfl := Option.some.inj hst
    exact workerStep_of (by simp [hpc]) rfl rfl (.inl rfl) ⟨rfl, rfl⟩ (by simp) (by simp)
  · exact absurd hst (by simp)

theorem workerStep_assign (hst : jpegAssign s c = some s') : WorkerStep s s' .jpeg c := by
  unfold jpegAssign at hst
  split at hst
  · rename_i hw hpc
    obtain rfl := Option.some.inj hst
    exact workerStep_of (by simp [hpc]) rfl rfl (.inr rfl) ⟨rfl, rfl⟩ (by simp) (by simp)
  · exact absurd hst (by simp)

/-- What a step changes, by the thread that makes it. -/
inductive StepOf (s s' : StreamState) : Prop
  /-- The loop moves no worker, and it touches nothing once it has left. -/
  | loop : s'.pool = s.pool →
      (∀ k c', s'.ctx k = some c' → ∃ c, s.ctx k = some c ∧ c'.pc = c.pc ∧ c'.wr = c.wr) →
      (s.pc = .closing → s'.ctx = s.ctx ∧ s'.releasers = s.releasers) →
      (s'.pc = .closing → s'.threadsStop = true ∨
        s.pc = .closing ∧ s'.threadsStop = s.threadsStop) → StepOf s s'
  | worker (k : WorkerKind) (c : WorkerCtx) : s.ctx k = some c → WorkerStep s s' k c → StepOf s s'
  | pool (w : Nat) (hw : Option Nat) : s.pool[w]? = some ⟨hw, true⟩ →
      s'.pool = s.pool.set w ⟨hw, false⟩ → s'.ctx = s.ctx → s'.releasers = s.releasers →
      s'.pc = s.pc ∧ s'.threadsStop = s.threadsStop → StepOf s s'
  | releaser (b : Nat) (r : Releaser) : (s.releasers b).pc ≠ .done →
      s'.releasers = Function.update s.releasers b r → s'.ctx = s.ctx → s'.pool = s.pool →
      s'.pc = s.pc ∧ (s'.threadsStop = s.threadsStop ∨ s'.threadsStop = true) → StepOf s s'

/-- A step of the loop before it leaves. -/
theorem StepOf.of_loop (hpc : s.pc ≠ .closing) (hpool : s'.pool = s.pool)
    (hctx : s'.ctx = s.ctx) (hstop : s'.pc = .closing → s'.threadsStop = true) : StepOf s s' := by
  refine .loop hpool (fun k c' hc' => ?_) (fun hclosing => absurd hclosing hpc)
    fun hclosing => .inl (hstop hclosing)
  rw [hctx] at hc'
  exact ⟨c', hc', rfl, rfl⟩

theorem stepOf_put (hst : loopPut s = some s') : StepOf s s' := by
  unfold loopPut at hst
  split at hst
  · rename_i hw k todo hpc
    obtain ⟨c, hc, rfl⟩ := Option.map_eq_some_iff.mp hst
    refine .loop rfl (fun j c' hc' => ?_) (fun hclosing => absurd hclosing (by simp [hpc]))
      fun hclosing => absurd hclosing (by simp)
    rcases ctx_setCtx_eq_some (s := s) hc' with ⟨rfl, rfl⟩ | ⟨-, hc'⟩
    · exact ⟨c, hc, rfl, rfl⟩
    · exact ⟨c', hc', rfl, rfl⟩
  · exact absurd hst (by simp)

theorem stepOf_grab {sel : Selected} {ds : List Dequeued} {errno : DqErrno}
    (hst : loopGrab s sel ds errno = some s') : StepOf s s' := by
  unfold loopGrab at hst
  split at hst
  · rename_i hpc
    have hloop : s.pc ≠ .closing := by simp [hpc]
    dsimp only at hst
    split at hst
    · obtain rfl := Option.some.inj hst
      exact .of_loop hloop rfl rfl fun hclosing => absurd hclosing (by simp)
    split at hst
    · obtain rfl := Option.some.inj hst
      exact .of_loop hloop rfl rfl fun hclosing => absurd hclosing (by simp)
    · obtain rfl := Option.some.inj hst
      exact .of_loop hloop rfl rfl fun _ => rfl
  · exact absurd hst (by simp)

/-- The other steps of the loop. -/
theorem stepOf_loop (hst : loopCheck s = some s' ∨ loopIncref s = some s' ∨ loopPlan s = some s') :
    StepOf s s' := by
  rcases hst with hst | hst | hst
  · unfold loopCheck at hst
    split at hst
    · rename_i hpc
      have hloop : s.pc ≠ .closing := by simp [hpc]
      split at hst
      · obtain rfl := Option.some.inj hst
        exact .of_loop hloop rfl rfl fun _ => rfl
      · obtain rfl := Option.some.inj hst
        exact .of_loop hloop rfl rfl fun hclosing => absurd hclosing (by simp)
    · exact absurd hst (by simp)
  · unfold loopIncref at hst
    split at hst
    · rename_i hw k todo hpc
      obtain rfl := Option.some.inj hst
      exact .of_loop (by simp [hpc]) rfl rfl fun hclosing => absurd hclosing (by simp)
    · exact absurd hst (by simp)
  · unfold loopPlan at hst
    split at hst
    · rename_i hw hpc
      obtain rfl := Option.some.inj hst
      exact .of_loop (by simp [hpc]) rfl rfl fun hclosing => absurd hclosing (by simp)
    · exact absurd hst (by simp)

section Releasers

variable {b : Nat}

theorem stepOf_relEnter (hst : releaserEnter s b (s.releasers b) = some s') : StepOf s s' := by
  unfold releaserEnter at hst
  split at hst
  · rename_i hpc
    have hrunning : (s.releasers b).pc ≠ .done := by simp [hpc]
    split at hst
    · obtain rfl := Option.some.inj hst
      exact .releaser b _ hrunning rfl rfl rfl ⟨rfl, .inl rfl⟩
    · obtain rfl := Option.some.inj hst
      exact .releaser b _ hrunning rfl rfl rfl ⟨rfl, .inl rfl⟩
  · exact absurd hst (by simp)

theorem stepOf_relTimeout (hst : releaserTimeout s b (s.releasers b) = some s') : StepOf s s' := by
  unfold releaserTimeout at hst
  split at hst
  · rename_i hpc
    obtain rfl := Option.some.inj hst
    exact .releaser b _ (by simp [hpc]) rfl rfl rfl ⟨rfl, .inl rfl⟩
  · exact absurd hst (by simp)

theorem stepOf_relGet (hst : releaserGet s b (s.releasers b) = some s') : StepOf s s' := by
  unfold releaserGet at hst
  split at hst
  · rename_i hw q hpc hget
    obtain rfl := Option.some.inj hst
    exact .releaser b _ (by simp [hpc]) rfl rfl rfl ⟨rfl, .inl rfl⟩
  · exact absurd hst (by simp)

theorem stepOf_relPoll (hst : releaserPoll s b (s.releasers b) = some s') : StepOf s s' := by
  unfold releaserPoll at hst
  split at hst
  · rename_i hw hpc
    have hrunning : (s.releasers b).pc ≠ .done := by simp [hpc]
    split at hst
    · split at hst
      · obtain rfl := Option.some.inj hst
        exact .releaser b _ hrunning rfl rfl rfl ⟨rfl, .inl rfl⟩
      · obtain rfl := Option.some.inj hst
        exact .releaser b (s.releasers b) hrunning (Function.update_eq_self b s.releasers).symm
          rfl rfl ⟨rfl, .inl rfl⟩
    · obtain rfl := Option.some.inj hst
      exact .releaser b _ hrunning rfl rfl rfl ⟨rfl, .inl rfl⟩
  · exact absurd hst (by simp)

theorem stepOf_relQbuf {qbufOk : Bool}
    (hst : releaserQbuf s b (s.releasers b) qbufOk = some s') : StepOf s s' := by
  unfold releaserQbuf at hst
  split at hst
  · rename_i hw hpc
    have hrunning : (s.releasers b).pc ≠ .done := by simp [hpc]
    split at hst
    · exact absurd hst (by simp)
    split at hst
    · obtain rfl := Option.some.inj hst
      exact .releaser b _ hrunning rfl rfl rfl ⟨rfl, .inr rfl⟩
    · obtain rfl := Option.some.inj hst
      exact .releaser b _ hrunning rfl rfl rfl ⟨rfl, .inl rfl⟩
  · exact absurd hst (by simp)

theorem stepOf_relClear (hst : releaserClear s b (s.releasers b) = some s') : StepOf s s' := by
  unfold releaserClear at hst
  split at hst
  · rename_i hw hpc
    obtain rfl := Option.some.inj hst
    exact .releaser b _ (by simp [hpc]) rfl rfl rfl ⟨rfl, .inl rfl⟩
  · exact absurd hst (by simp)

end Releasers

/-- **What a step changes**, one case for each action. -/
theorem stepOf_of_step {a : StreamAct} (hst : streamStep s a = some s') : StepOf s s' := by
  have hworker : ∀ {k} {f : WorkerCtx → Option StreamState},
      (∀ {c}, f c = some s' → WorkerStep s s' k c) → onWorker s k f = some s' → StepOf s s' := by
    intro k f hf hs
    obtain ⟨c, hc, hfc⟩ := Option.bind_eq_some_iff.mp hs
    exact .worker k c hc (hf hfc)
  have hreleaser : ∀ {b} {f : Releaser → Option StreamState},
      (f (s.releasers b) = some s' → StepOf s s') → onReleaser s b f = some s' → StepOf s s' := by
    intro b f hf hs
    unfold onReleaser at hs
    split at hs
    · exact hf hs
    · exact absurd hs (by simp)
  cases a with
  | loopBreak =>
    obtain rfl := Option.some.inj hst
    exact .loop rfl (fun k c hc => ⟨c, hc, rfl, rfl⟩) (fun _ => ⟨rfl, rfl⟩)
      fun hclosing => .inr ⟨hclosing, rfl⟩
  | loopCheck => exact stepOf_loop (.inl hst)
  | grab sel ds errno => exact stepOf_grab hst
  | incref => exact stepOf_loop (.inr (.inl hst))
  | put => exact stepOf_put hst
  | plan => exact stepOf_loop (.inr (.inr hst))
  | enter k => exact hworker workerStep_enter hst
  | wait w => exact hworker workerStep_wait hst
  | collect => exact hworker workerStep_collect hst
  | timeout k => exact hworker workerStep_timeout hst
  | get k => exact hworker workerStep_get hst
  | check k => exact hworker workerStep_check hst
  | drop k => exact hworker workerStep_drop hst
  | reget k => exact hworker workerStep_reget hst
  | pass k => exact hworker workerStep_pass hst
  | assign => exact hworker workerStep_assign hst
  | finish w =>
    dsimp only [streamStep] at hst
    unfold poolFinish at hst
    split at hst
    · rename_i hw hpool
      obtain rfl := Option.some.inj hst
      exact .pool w hw hpool rfl rfl rfl ⟨rfl, rfl⟩
    · exact absurd hst (by simp)
  | relEnter b => exact hreleaser stepOf_relEnter hst
  | relTimeout b => exact hreleaser stepOf_relTimeout hst
  | relGet b => exact hreleaser stepOf_relGet hst
  | relPoll b => exact hreleaser stepOf_relPoll hst
  | relQbuf b qbufOk =>
    exact hreleaser (f := fun r => releaserQbuf s b r qbufOk) stepOf_relQbuf hst
  | relClear b => exact hreleaser stepOf_relClear hst

/-! ## 2. What holds of the threads -/

/-- No worker waits for what does not come. -/
def WaitsOk (s : StreamState) : Prop := ∀ k c, s.ctx k = some c → c.WaitsOk k s.pool

theorem WaitsOk.step (h : WaitsOk s) (hst : StepOf s s') : WaitsOk s' := by
  intro k c' hc'
  cases hst with
  | loop hpool hctx _ _ =>
    obtain ⟨c, hc, hpc, hwr⟩ := hctx k c' hc'
    have hok := h k c hc
    unfold WorkerCtx.WaitsOk at hok ⊢
    rw [hpc, hwr, hpool]
    exact hok
  | worker j c hc hw =>
    obtain ⟨c₁, hctx, hok⟩ := hw.ctx
    rw [hctx] at hc'
    rcases ctx_setCtx_eq_some (s := s) hc' with ⟨rfl, rfl⟩ | ⟨hj, hc'⟩
    · exact hok
    · have hold := h k c' hc'
      rcases hw.pool with hpool | hjpeg
      · rw [hpool]
        exact hold
      · unfold WorkerCtx.WaitsOk at hold ⊢
        split
        case h_1 hpc =>
          rw [hpc] at hold
          exact hold
        case h_2 hpc =>
          rw [hpc] at hold
          exact absurd (hold.1.trans hjpeg.symm) hj
        case h_3 => trivial
  | pool w hw hold hpool hctx _ _ =>
    rw [hctx] at hc'
    have hok := h k c' hc'
    unfold WorkerCtx.WaitsOk at hok ⊢
    split
    case h_1 hpc =>
      rw [hpc] at hok
      exact hok
    case h_2 hpc =>
      rw [hpc] at hok
      obtain ⟨hk, hw', hasJob, hjob⟩ := hok
      refine ⟨hk, hw', ?_⟩
      rw [hpool, List.getElem?_set]
      by_cases hwr : w = c'.wr
      · subst hwr
        obtain ⟨rfl, -⟩ := PoolWorker.mk.inj (Option.some.inj (hold.symm.trans hjob))
        have hlt := (List.getElem?_eq_some_iff.mp hold).1
        exact ⟨false, by simp [hlt]⟩
      · exact ⟨hasJob, by rw [if_neg hwr, hjob]⟩
    case h_3 => trivial
  | releaser b r _ _ hctx hpool _ =>
    rw [hctx] at hc'
    rw [hpool]
    exact h k c' hc'

/-- The loop does not leave before the flag is set. -/
theorem stop_of_closing (hr : streamSystem.Reach s) : s.pc = .closing → s.threadsStop = true := by
  refine hr.inv (I := fun s => s.pc = .closing → s.threadsStop = true) ?_ ?_
  · rintro s ⟨cap, enabled, nWorkers, hpos, -, -, rfl⟩ hclosing
    exact absurd hclosing (by simp [streamInit])
  · intro s s' a hI _ hst hclosing
    cases stepOf_of_step hst with
    | loop _ _ _ hstop =>
      rcases hstop hclosing with hstop | ⟨hpc, hstop⟩
      · exact hstop
      · exact hstop.trans (hI hpc)
    | worker k c _ hw => exact hw.loop.2.trans (hI (hw.loop.1.symm.trans hclosing))
    | pool w hw _ _ _ _ hloop => exact hloop.2.trans (hI (hloop.1.symm.trans hclosing))
    | releaser b r _ _ _ _ hloop =>
      rcases hloop.2 with hstop | hstop
      · exact hstop.trans (hI (hloop.1.symm.trans hclosing))
      · exact hstop

theorem waitsOk_of_reach (hr : streamSystem.Reach s) : WaitsOk s := by
  refine hr.inv ?_ fun s s' a hI _ hst => hI.step (stepOf_of_step hst)
  rintro s ⟨cap, enabled, nWorkers, hpos, -, -, rfl⟩ k c hc
  simp only [streamInit] at hc
  split at hc
  · obtain rfl := Option.some.inj hc
    trivial
  · exact absurd hc (by simp)

end Steps

/-! ## 3. The assertion of the release -/

/-- The assertion of `us_capture_hwbuf_release` holds wherever a releaser is before it. -/
def ReleaseAsserts (s : StreamState) : Prop :=
  ∀ b < s.cap.run.nBufs, ∀ hw, (s.releasers b).pc = .release hw → (s.cap.run.hw hw).refs = 0

/-- A buffer that a releaser is about to give back has no pointer. -/
def Released (s : StreamState) : Prop :=
  ∀ b hw, (s.releasers b).pc = .release hw → tokens s hw = 0

section Released

variable {s s' : StreamState}

/-- A step that starts no release and adds no pointer. -/
theorem Released.of_le (h : Released s)
    (hreleasers : ∀ b hw, (s'.releasers b).pc = .release hw → (s.releasers b).pc = .release hw)
    (hle : ∀ b, tokens s' b ≤ tokens s b) : Released s' := by
  intro b hw hpc
  have hzero := h b hw (hreleasers b hw hpc)
  have hle := hle hw
  omega

/-- A hand-over moves a pointer, or drops it. -/
theorem tokens_loopPut (hst : loopPut s = some s') (b : Nat) : tokens s' b ≤ tokens s b := by
  unfold loopPut at hst
  split at hst
  · rename_i hw k todo hpc
    obtain ⟨c, hc, rfl⟩ := Option.map_eq_some_iff.mp hst
    have hset := tokens_setCtx hc s.cap.run { c with queue := putIgnored c.queue hw } s.pool b
    have hnew : ctxTokens (some { c with queue := putIgnored c.queue hw }) b
        ≤ ctxTokens (some c) b + [hw].count b := by
      unfold putIgnored
      cases hput : c.queue.put hw with
      | none => exact Nat.le_add_right _ _
      | some q =>
        simp only [ctxTokens, Option.getD_some, Queue.toList_put hput, List.count_append]
        omega
    have hcounted : s.pc.counted = [hw] := by
      rw [hpc]
      rfl
    have hpcs : tokens
        { (s.setRun s.cap.run).setCtx k { c with queue := putIgnored c.queue hw } with
          pool := s.pool } b
        = tokens { s.setCtx k { c with queue := putIgnored c.queue hw } with
          pc := .queueHw hw todo } b + [hw].count b := by
      unfold tokens
      rw [← hcounted]
      rfl
    omega
  · exact absurd hst (by simp)

/-- **The loop counts a pointer** to the buffer in its hands, which no releaser has. -/
theorem Released.loopIncref (h : Released s) (hok : StreamOk s) (hst : loopIncref s = some s') :
    Released s' := by
  unfold TinyPilotKvm.loopIncref at hst
  split at hst
  · rename_i hw k todo hpc
    obtain rfl := Option.some.inj hst
    intro b hw' hrelease
    have hold : tokens s hw' = 0 := h b hw' hrelease
    obtain ⟨-, -, hcust, -⟩ := hok.inv.hand hw (by rw [hpc]; rfl)
    obtain ⟨rfl, -, hown⟩ := Releaser.custody_hand
      ((hok.inv.custody b).imp_right And.left) (.inr hrelease)
    have hne : hw ≠ hw' := by
      rintro rfl
      rw [hcust] at hown
      exact absurd hown (by simp)
    have hcounted : s.pc.counted = [] := by
      rw [hpc]
      rfl
    unfold tokens at hold ⊢
    rw [hcounted] at hold
    simpa only [LoopPc.counted, List.count_singleton, beq_iff_eq, if_neg hne, List.count_nil,
      StreamState.setRun] using hold
  · exact absurd hst (by simp)

/-- A releaser's step that starts no release. -/
theorem Released.releaser (h : Released s) {b : Nat} {r : Releaser} (run : UsCaptureRuntime)
    {queued : Finset Nat} {threadsStop : Bool} (hr : ∀ hw, r.pc ≠ .release hw) :
    Released { (s.setRun run).setReleaser b r with
      queued := queued, threadsStop := threadsStop } := by
  refine h.of_le (fun j hw hpc => ?_) fun j => Nat.le_refl _
  by_cases hj : j = b
  · subst hj
    have hpc' : (Function.update s.releasers j r j).pc = .release hw := hpc
    rw [Function.update_self] at hpc'
    exact absurd hpc' (hr hw)
  · have hpc' : (Function.update s.releasers b r j).pc = .release hw := hpc
    rwa [Function.update_of_ne hj] at hpc'

/-- **A releaser that sees no count** has a buffer without a pointer. -/
theorem Released.releaserPoll (h : Released s) (hok : StreamOk s) {b : Nat}
    (hst : releaserPoll s b (s.releasers b) = some s') : Released s' := by
  unfold TinyPilotKvm.releaserPoll at hst
  split at hst
  · rename_i hw hpc
    split at hst
    · split at hst
      · obtain rfl := Option.some.inj hst
        exact h.releaser s.cap.run (by simp)
      · obtain rfl := Option.some.inj hst
        exact h
    · rename_i hrefs
      obtain rfl := Option.some.inj hst
      obtain ⟨rfl, -, hown⟩ := Releaser.custody_hand
        ((hok.inv.custody b).imp_right And.left) (.inl hpc)
      have hlt : hw < s.cap.run.nBufs := by
        rcases hok.inv.custody hw with hnil | ⟨-, hlt, -⟩
        · rw [hnil] at hown
          exact absurd hown (by simp)
        · exact hlt
      have hcounts := hok.inv.counts hw hlt
      intro j hw' hrelease
      have hpc' : (Function.update s.releasers hw { s.releasers hw with pc := .release hw } j).pc
          = .release hw' := hrelease
      show tokens s hw' = 0
      by_cases hj : j = hw
      · subst hj
        rw [Function.update_self] at hpc'
        obtain rfl := ReleaserPc.release.inj hpc'
        omega
      · rw [Function.update_of_ne hj] at hpc'
        exact h j hw' hpc'
  · exact absurd hst (by simp)

/-- **One step**, one case for each action. -/
theorem Released.step (h : Released s) (hok : StreamOk s) {a : StreamAct}
    (hst : streamStep s a = some s') : Released s' := by
  have hmove (hm : StreamInv s' ∧ WorkerMove s s') : Released s' := by
    refine h.of_le (fun b hw hpc => ?_) hm.2.le
    rwa [hm.2.releasers] at hpc
  have hworker : ∀ {k} {f : WorkerCtx → Option StreamState},
      (∀ {c}, s.ctx k = some c → f c = some s' → StreamInv s' ∧ WorkerMove s s') →
      onWorker s k f = some s' → Released s' := by
    intro k f hf hs
    obtain ⟨c, hc, hfc⟩ := Option.bind_eq_some_iff.mp hs
    exact hmove (hf hc hfc)
  have hreleaser : ∀ {b} {f : Releaser → Option StreamState},
      (f (s.releasers b) = some s' → Released s') → onReleaser s b f = some s' → Released s' := by
    intro b f hf hs
    unfold onReleaser at hs
    split at hs
    · exact hf hs
    · exact absurd hs (by simp)
  cases a with
  | loopBreak =>
    obtain rfl := Option.some.inj hst
    exact h
  | loopCheck =>
    dsimp only [streamStep] at hst
    unfold loopCheck at hst
    split at hst
    · rename_i hpc
      have hcounted : s.pc.counted = [] := by
        rw [hpc]
        rfl
      split at hst
      · obtain rfl := Option.some.inj hst
        refine h.of_le (fun _ _ => id) fun b => ?_
        rw [tokens, tokens, hcounted]
        exact Nat.le_refl _
      · obtain rfl := Option.some.inj hst
        refine h.of_le (fun _ _ => id) fun b => ?_
        rw [tokens, tokens, hcounted]
        exact Nat.le_refl _
    · exact absurd hst (by simp)
  | grab sel ds errno =>
    dsimp only [streamStep] at hst
    unfold loopGrab at hst
    split at hst
    · rename_i hpc
      have hcounted : s.pc.counted = [] := by
        rw [hpc]
        rfl
      dsimp only at hst
      have hle : ∀ pc : LoopPc, pc.counted = [] → ∀ b,
          kindSum (fun k => ctxTokens (s.ctx k) b) + poolTokens s.pool b + pc.counted.count b
            ≤ tokens s b := by
        intro pc hnil b
        rw [tokens, hcounted, hnil]
      split at hst
      · obtain rfl := Option.some.inj hst
        exact h.of_le (fun _ _ => id) (hle (.queueHw _ _) rfl)
      split at hst
      · obtain rfl := Option.some.inj hst
        exact h.of_le (fun _ _ => id) (hle .top rfl)
      · obtain rfl := Option.some.inj hst
        exact h.of_le (fun _ _ => id) (hle .closing rfl)
    · exact absurd hst (by simp)
  | incref => exact h.loopIncref hok hst
  | put =>
    refine h.of_le (fun b hw hpc => ?_) (tokens_loopPut hst)
    dsimp only [streamStep] at hst
    unfold loopPut at hst
    split at hst
    · obtain ⟨c, -, rfl⟩ := Option.map_eq_some_iff.mp hst
      exact hpc
    · exact absurd hst (by simp)
  | plan =>
    dsimp only [streamStep] at hst
    unfold loopPlan at hst
    split at hst
    · rename_i hw hpc
      have hcounted : s.pc.counted = [] := by
        rw [hpc]
        rfl
      obtain rfl := Option.some.inj hst
      refine h.of_le (fun b hw' hrelease => ?_) fun b => ?_
      · by_cases hb : b = (s.cap.run.hw hw).buf.index
        · subst hb
          simpa only [StreamState.setReleaser, Function.update_self] using hrelease
        · simpa only [StreamState.setReleaser, Function.update_of_ne hb] using hrelease
      · rw [tokens, tokens, hcounted]
        exact Nat.le_refl _
    · exact absurd hst (by simp)
  | enter k => exact hworker hok.inv.workerEnter hst
  | wait w => exact hworker (fun hc => hok.inv.jpegWait hc) hst
  | collect => exact hworker hok.inv.jpegCollect hst
  | timeout k => exact hworker hok.inv.workerTimeout hst
  | get k => exact hworker hok.inv.workerGet hst
  | check k => exact hworker hok.inv.workerCheck hst
  | drop k => exact hworker hok.inv.workerDrop hst
  | reget k => exact hworker hok.inv.workerReget hst
  | pass k => exact hworker hok.inv.workerPass hst
  | assign => exact hworker hok.inv.jpegAssign hst
  | finish w => exact hmove (hok.inv.poolFinish hst)
  | relEnter b =>
    refine hreleaser (fun hf => ?_) hst
    unfold releaserEnter at hf
    split at hf
    · split at hf
      · obtain rfl := Option.some.inj hf
        exact h.releaser s.cap.run (by simp)
      · obtain rfl := Option.some.inj hf
        exact h.releaser s.cap.run (by simp)
    · exact absurd hf (by simp)
  | relTimeout b =>
    refine hreleaser (fun hf => ?_) hst
    unfold releaserTimeout at hf
    split at hf
    · obtain rfl := Option.some.inj hf
      exact h.releaser s.cap.run (by simp)
    · exact absurd hf (by simp)
  | relGet b =>
    refine hreleaser (fun hf => ?_) hst
    unfold releaserGet at hf
    split at hf
    · obtain rfl := Option.some.inj hf
      exact h.releaser s.cap.run (by simp)
    · exact absurd hf (by simp)
  | relPoll b => exact hreleaser (h.releaserPoll hok) hst
  | relQbuf b qbufOk =>
    refine hreleaser (f := fun r => releaserQbuf s b r qbufOk) (fun hf => ?_) hst
    unfold releaserQbuf at hf
    split at hf
    · split at hf
      · exact absurd hf (by simp)
      split at hf
      · obtain rfl := Option.some.inj hf
        exact h.releaser s.cap.run (by simp)
      · obtain rfl := Option.some.inj hf
        exact h.releaser s.cap.run (by simp)
    · exact absurd hf (by simp)
  | relClear b =>
    refine hreleaser (fun hf => ?_) hst
    unfold releaserClear at hf
    split at hf
    · rename_i hw hpc
      obtain rfl := Option.some.inj hf
      exact h.releaser (s.cap.run.modifyHw hw fun h => { h with grabbed := false }) (by simp)
    · exact absurd hf (by simp)

/-- **The assertion of the release holds** in every run in which the RAW queue has room. -/
theorem releaseAsserts_of_reach (hr : streamSystem.ReachVia RawHasRoom s) : ReleaseAsserts s := by
  have hreleased : Released s := by
    refine hr.inv_of (fun s => streamOk_of_reach) ?_ fun s s' a hok hI _ hst => hI.step hok hst
    rintro s ⟨cap, enabled, nWorkers, hpos, -, -, rfl⟩ b hw hpc
    exact absurd hpc (by simp [streamInit])
  have hok := streamOk_of_reach hr
  intro b hb hw hpc
  obtain ⟨rfl, -⟩ := hok.inv.releaser_hw (.inr hpc)
  rw [hok.inv.counts hw hb, hreleased hw hw hpc]
  rfl

end Released

end TinyPilotKvm
