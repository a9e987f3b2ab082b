/-
# Steps of the stream loop

The worker's steps are in `StreamRefs.lean`.  Here is the loop, which takes a buffer from the
driver and hands it to the workers; the planning of its release is in `StreamReleasers.lean`, with
the releasers.

`StreamOk` is what every step keeps but one.  That one is the second half of `QUEUE_HW`: it has
the hypothesis that the queue has room (`StreamOk.loopPut`), and for the queues of the JPEG
and H.264 workers the invariant provides it (`StreamInv.hasRoom`).
-/
import TinyPilotKvm.Ustreamer.StreamRefs

namespace TinyPilotKvm

/-- The invariant of the runs. -/
structure StreamOk (s : StreamState) : Prop where
  inv : StreamInv s
  live : s.pc ≠ .closing → StreamLive s

/-- A worker's step. -/
theorem StreamOk.move {s s' : StreamState} (h : StreamOk s) (hm : StreamInv s' ∧ WorkerMove s s') :
    StreamOk s' := by
  refine ⟨hm.1, fun hpc => ?_⟩
  rw [hm.2.pc] at hpc
  exact (h.live hpc).move hm.2

/-- A buffer without pointers is in no queue. -/
theorem notMem_queue_of_tokens {s : StreamState} {b : Nat} (h : tokens s b = 0) {k : WorkerKind}
    {c : WorkerCtx} (hc : s.ctx k = some c) : b ∉ c.queue.toList := by
  intro hmem
  have hle := ctxTokens_le_tokens s k b
  rw [hc] at hle
  have hpos : 0 < c.queue.toList.count b := List.count_pos_iff.mpr hmem
  simp only [ctxTokens] at hle
  omega

/-- What is in a queue is a buffer. -/
theorem StreamInv.queue_lt {s : StreamState} (h : StreamInv s) {k : WorkerKind} {c : WorkerCtx}
    (hc : s.ctx k = some c) {b : Nat} (hb : b ∈ c.queue.toList) : b < s.cap.run.nBufs := by
  refine h.bound b (Nat.pos_of_ne_zero fun h0 => ?_)
  exact notMem_queue_of_tokens h0 hc hb

/-! ## 1. Grabbing -/

/-- A step that leaves the loop without a buffer: the driver may have less than it had. -/
theorem StreamInv.drained {s : StreamState} (h : StreamInv s) {run : UsCaptureRuntime}
    {queued : Finset Nat} (hlost : Lost s.cap.run s.queued run queued) (pc : LoopPc)
    (hold : s.pc.counted = []) (hcounted : pc.counted = []) (hhand : pc.hand = none)
    (htodo : pc.todo = []) (threadsStop runStop : Bool) :
    StreamInv { s.setRun run with
      queued := queued, pc := pc, threadsStop := threadsStop, runStop := runStop } := by
  have htok : ∀ b, tokens { s.setRun run with
      queued := queued, pc := pc, threadsStop := threadsStop, runStop := runStop } b
        = tokens s b := by
    intro b
    unfold tokens
    dsimp only [StreamState.setRun]
    rw [hcounted, hold]
  constructor
  case length => exact hlost.length.trans (h.length.trans hlost.nBufs.symm)
  case counts =>
    intro b hb
    rw [htok b]
    refine (hlost.refs b).trans (h.counts b ?_)
    rw [← hlost.nBufs]
    exact hb
  case bound =>
    intro b hb
    rw [htok b] at hb
    have := h.bound b hb
    rw [← hlost.nBufs] at this
    exact this
  case free =>
    intro b hb
    obtain ⟨hlt, h0, -, hcust⟩ := h.free b (hlost.queued_sub b hb)
    rw [← hlost.nBufs] at hlt
    exact ⟨hlt, (htok b).trans h0, by rw [hhand]; simp, hcust⟩
  case hand =>
    intro hw hh
    dsimp only at hh
    rw [hhand] at hh
    exact absurd hh (by simp)
  case todo =>
    dsimp only
    rw [htodo]
    exact List.nodup_nil
  case custody =>
    intro b
    refine (h.custody b).imp_right ?_
    rintro ⟨h1, h2, h3⟩
    refine ⟨h1, ?_, ?_⟩
    · rw [← hlost.nBufs] at h2
      exact h2
    · exact (congrArg (·.index) (hlost.buf b)).trans h3
  case room => exact h.room
  case queues =>
    intro k c hc
    have := h.queues k c hc
    rw [← hlost.nBufs] at this
    exact this
  case job => exact h.job

theorem StreamOk.loopBreak {s : StreamState} (h : StreamOk s) :
    StreamOk { s with runStop := true } :=
  ⟨{ length := h.inv.length
     counts := h.inv.counts
     bound := h.inv.bound
     free := h.inv.free
     hand := h.inv.hand
     todo := h.inv.todo
     custody := h.inv.custody
     room := h.inv.room
     queues := h.inv.queues
     job := h.inv.job },
   fun hpc =>
    { marked := (h.live hpc).marked
      pending := (h.live hpc).pending
      whole := (h.live hpc).whole
      running := (h.live hpc).running }⟩

theorem StreamOk.loopCheck {s s' : StreamState} (h : StreamOk s)
    (hst : loopCheck s = some s') : StreamOk s' := by
  have hsame : Lost s.cap.run s.queued s.cap.run s.queued :=
    ⟨⟨fun _ => rfl, fun _ => rfl⟩, rfl, rfl, fun _ hj => hj⟩
  unfold TinyPilotKvm.loopCheck at hst
  split at hst
  · rename_i hpc
    have hold : s.pc.counted = [] := by rw [hpc]; rfl
    split at hst
    · obtain rfl := Option.some.inj hst
      exact ⟨h.inv.drained hsame _ hold rfl rfl rfl true s.runStop, fun hne => absurd rfl hne⟩
    · obtain rfl := Option.some.inj hst
      have hlive := h.live (by rw [hpc]; simp)
      refine ⟨h.inv.drained hsame .grab hold rfl rfl rfl s.threadsStop s.runStop,
        fun _ => ⟨hlive.marked, hlive.pending, fun hstop b hb => ?_, hlive.running⟩⟩
      refine (hlive.whole hstop b hb).imp_right (Or.imp_left fun hh => ?_)
      rw [hpc] at hh
      exact absurd hh (by simp [LoopPc.hand])
  · exact absurd hst (by simp)

section Grab

variable {s : StreamState} {r : GrabResult} {ds : List Dequeued} {buf : V4l2Buffer}

/-- The loop takes a buffer from the driver: nothing refers to it. -/
theorem StreamInv.grabKept (h : StreamInv s) (hpc : s.pc = .grab)
    (hk : GrabKept s.cap s.queued ds buf r) :
    StreamInv { s.setRun r.run with queued := r.queued, pc := .queueHw buf.index s.workers } := by
  obtain ⟨hlt, h0, -, hcust⟩ := h.free _ (hk.takes.was_queued _ rfl)
  have hn : r.run.nBufs = s.cap.run.nBufs := hk.takes.nBufs
  have htok : ∀ b, tokens { s.setRun r.run with
      queued := r.queued, pc := .queueHw buf.index s.workers } b = tokens s b := by
    intro b
    unfold tokens
    rw [hpc]
    rfl
  constructor
  case length => exact hk.takes.length.trans (h.length.trans hn.symm)
  case counts =>
    intro b hb
    rw [htok b]
    by_cases hbi : b = buf.index
    · subst hbi
      rw [h0]
      exact hk.refs_self
    · exact (hk.refs_of_ne b hbi).trans (h.counts b (hn ▸ hb))
  case bound =>
    intro b hb
    rw [htok b] at hb
    exact lt_of_lt_of_eq (h.bound b hb) hn.symm
  case free =>
    intro b hb
    obtain ⟨hq, hne⟩ := (hk.takes.mem_queued b).mp hb
    obtain ⟨hblt, hb0, -, hbcust⟩ := h.free b hq
    exact ⟨lt_of_lt_of_eq hblt hn.symm, (htok b).trans hb0, hne, hbcust⟩
  case hand =>
    intro hw hh
    obtain rfl : buf.index = hw := Option.some.inj hh
    exact ⟨lt_of_lt_of_eq hlt hn.symm, congrArg (·.index) hk.buf_self, hcust,
      fun k _ c hc => notMem_queue_of_tokens h0 hc⟩
  case todo =>
    exact List.Nodup.filter _ (by decide)
  case custody =>
    intro b
    refine (h.custody b).imp_right ?_
    rintro ⟨h1, h2, h3⟩
    refine ⟨h1, lt_of_lt_of_eq h2 hn.symm, ?_⟩
    have hne : b ≠ buf.index := by
      rintro rfl
      rw [hcust] at h1
      exact absurd h1 (by simp)
    exact (congrArg (·.index) (hk.buf_of_ne b hne)).trans h3
  case room => exact h.room
  case queues =>
    intro k c hc
    have := h.queues k c hc
    rw [← hn] at this
    exact this
  case job => exact h.job

theorem StreamLive.grabKept (h : StreamLive s) (hpc : s.pc = .grab)
    (hk : GrabKept s.cap s.queued ds buf r) :
    StreamLive { s.setRun r.run with queued := r.queued, pc := .queueHw buf.index s.workers } := by
  have hn : r.run.nBufs = s.cap.run.nBufs := hk.takes.nBufs
  constructor
  case marked =>
    intro i hi hg
    have hg' := (hk.takes.grabbed i).symm.trans hg
    rw [Bool.or_eq_false_iff, decide_eq_false_iff_not] at hg'
    exact (hk.takes.mem_queued i).mpr ⟨h.marked i (hn ▸ hi) hg'.2, hg'.1⟩
  case pending =>
    intro b hw hb
    obtain ⟨rfl, hq, hg⟩ := h.pending b hw hb
    have hne : some buf.index ≠ some hw := by
      intro he
      obtain ⟨-, hfree⟩ := hk.takes.was_free hw he
      rw [hg] at hfree
      exact absurd hfree (by simp)
    refine ⟨rfl, (hk.takes.mem_queued hw).mpr ⟨hq, hne⟩, (hk.takes.grabbed hw).trans ?_⟩
    rw [hg, Bool.or_true]
  case whole =>
    intro hstop b hb
    by_cases hbi : buf.index = b
    · exact Or.inr (Or.inl (congrArg some hbi))
    · rcases h.whole hstop b (hn ▸ hb) with hq | hh | hcust
      · exact Or.inl ((hk.takes.mem_queued b).mpr ⟨hq, fun he => hbi (Option.some.inj he)⟩)
      · rw [hpc] at hh
        exact absurd hh (by simp [LoopPc.hand])
      · exact Or.inr (Or.inr hcust)
  case running => exact h.running

/-- A grab without data takes nothing. -/
theorem StreamLive.grabNothing (h : StreamLive s) (hpc : s.pc = .grab)
    (ht : Takes s.cap.run s.queued none r.run r.queued) :
    StreamLive { s.setRun r.run with queued := r.queued, pc := .top } := by
  have hq : ∀ j, j ∈ s.queued → j ∈ r.queued := fun j hj =>
    (ht.mem_queued j).mpr ⟨hj, by simp⟩
  have hg : ∀ j, (r.run.hw j).grabbed = (s.cap.run.hw j).grabbed := fun j => by
    rw [ht.grabbed]
    simp
  constructor
  case marked =>
    intro i hi hgi
    exact hq i (h.marked i (ht.nBufs ▸ hi) ((hg i).symm.trans hgi))
  case pending =>
    intro b hw hb
    obtain ⟨h1, h2, h3⟩ := h.pending b hw hb
    exact ⟨h1, hq b h2, (hg b).trans h3⟩
  case whole =>
    intro hstop b hb
    rcases h.whole hstop b (ht.nBufs ▸ hb) with hb | hh | hcust
    · exact Or.inl (hq b hb)
    · rw [hpc] at hh
      exact absurd hh (by simp [LoopPc.hand])
    · exact Or.inr (Or.inr hcust)
  case running => exact h.running

end Grab

/-- **The grab keeps the invariant**, whatever the driver answers. -/
theorem StreamOk.loopGrab {s s' : StreamState} (h : StreamOk s) {sel : Selected}
    {ds : List Dequeued} {errno : DqErrno} (hst : loopGrab s sel ds errno = some s') :
    StreamOk s' := by
  unfold TinyPilotKvm.loopGrab at hst
  split at hst
  · rename_i hpc
    have hlive := h.live (by rw [hpc]; simp)
    have hold : s.pc.counted = [] := by rw [hpc]; rfl
    dsimp only at hst
    rcases usCaptureHwbufGrab_cases h.inv.length hlive.marked sel ds errno with
      ⟨buf, hk⟩ | ⟨hret, htakes, hsame⟩ | ⟨hret, hlost, -⟩
    · rw [if_pos (by rw [hk.ret]; exact Int.natCast_nonneg _), hk.ret, Int.toNat_natCast] at hst
      obtain rfl := Option.some.inj hst
      exact ⟨h.inv.grabKept hpc hk, fun _ => hlive.grabKept hpc hk⟩
    · rw [if_neg (by rw [hret]; decide), if_pos hret] at hst
      obtain rfl := Option.some.inj hst
      exact ⟨h.inv.drained (htakes.lost hsame) .top hold rfl rfl rfl s.threadsStop s.runStop,
        fun _ => hlive.grabNothing hpc htakes⟩
    · rw [if_neg (by rw [hret]; decide), if_neg (by rw [hret]; decide)] at hst
      obtain rfl := Option.some.inj hst
      exact ⟨h.inv.drained hlost .closing hold rfl rfl rfl true s.runStop,
        fun hne => absurd rfl hne⟩
  · exact absurd hst (by simp)

/-! ## 2. Handing over -/

/-- The loop adds a pointer, and counts it. -/
theorem StreamOk.loopIncref {s s' : StreamState} (h : StreamOk s)
    (hst : loopIncref s = some s') : StreamOk s' := by
  unfold TinyPilotKvm.loopIncref at hst
  split at hst
  · rename_i hw k todo hpc
    obtain rfl := Option.some.inj hst
    obtain ⟨hlt, hidx, hcust, hqueues⟩ := h.inv.hand hw (by rw [hpc]; rfl)
    have hsame : SameBut s.cap.run (usCaptureHwbufIncref s.cap.run hw) :=
      .modify _ _ (fun _ => rfl) fun _ => rfl
    have hhand : s.pc.hand = some hw := by rw [hpc]; rfl
    have htodo : s.pc.todo = k :: todo := by rw [hpc]; rfl
    have htok : ∀ b, tokens { s.setRun (usCaptureHwbufIncref s.cap.run hw) with
        pc := .putHw hw k todo } b = tokens s b + (if hw = b then 1 else 0) := by
      intro b
      have hold : s.pc.counted = [] := by rw [hpc]; rfl
      unfold tokens
      rw [hold]
      simp only [LoopPc.counted, List.count_cons, List.count_nil, beq_iff_eq, StreamState.setRun,
        Nat.add_zero, Nat.zero_add]
    refine ⟨?_, fun _ => ?_⟩
    · constructor
      case length => exact hsame.length.trans h.inv.length
      case counts =>
        intro b hb
        have hrefs := refs_incref (h.inv.length ▸ hlt) b
        have hold := h.inv.counts b hb
        rw [htok b]
        refine hrefs.trans ?_
        rw [hold]
        split <;> rfl
      case bound =>
        intro b hb
        rw [htok b] at hb
        by_cases hwb : hw = b
        · exact hwb ▸ hlt
        · rw [if_neg hwb] at hb
          exact h.inv.bound b hb
      case free =>
        intro b hb
        obtain ⟨hblt, hb0, hne, hbcust⟩ := h.inv.free b hb
        rw [hhand] at hne
        refine ⟨hblt, ?_, hne, hbcust⟩
        rw [htok b, hb0, if_neg fun he => hne (congrArg some he)]
      case hand =>
        intro hw' hh
        obtain rfl : hw = hw' := Option.some.inj hh
        rw [htodo] at hqueues
        exact ⟨hlt, (congrArg (·.index) (hsame.buf hw)).trans hidx, hcust, hqueues⟩
      case todo =>
        have := h.inv.todo
        rw [htodo] at this
        exact this
      case custody =>
        intro b
        refine (h.inv.custody b).imp_right ?_
        rintro ⟨h1, h2, h3⟩
        exact ⟨h1, h2, (congrArg (·.index) (hsame.buf b)).trans h3⟩
      case room => exact h.inv.room
      case queues => exact h.inv.queues
      case job => exact h.inv.job
    · have hlive := h.live (by rw [hpc]; simp)
      constructor
      case marked =>
        intro i hi hg
        exact hlive.marked i hi ((hsame.grabbed i).symm.trans hg)
      case pending =>
        intro b hw' hb
        obtain ⟨h1, h2, h3⟩ := hlive.pending b hw' hb
        exact ⟨h1, h2, (hsame.grabbed b).trans h3⟩
      case whole =>
        intro hstop b hb
        have := hlive.whole hstop b hb
        rw [hhand] at this
        exact this
      case running => exact hlive.running
  · exact absurd hst (by simp)

/-- **A queue other than that of the RAW worker has room**: it has one place for each buffer, and
the one that comes is not in it. -/
theorem StreamInv.hasRoom {s : StreamState} (h : StreamInv s) {hw : Nat} {k : WorkerKind}
    {todo : List WorkerKind} (hpc : s.pc = .putHw hw k todo) (hk : k ≠ .raw) {c : WorkerCtx}
    (hc : s.ctx k = some c) : c.queue.toList.length < c.queue.capacity := by
  obtain ⟨hlt, -, -, hqueues⟩ := h.hand hw (by rw [hpc]; rfl)
  have hnot : hw ∉ c.queue.toList :=
    hqueues k (by rw [hpc]; exact List.mem_cons_self) c hc
  obtain ⟨hnodup, hcap⟩ := h.queues k c hc
  have hsub : (hw :: c.queue.toList) ⊆ List.range s.cap.run.nBufs := by
    intro b hb
    rw [List.mem_range]
    rcases List.mem_cons.mp hb with rfl | hb
    · exact hlt
    · exact h.queue_lt hc hb
  have hle := (List.subperm_of_subset (List.nodup_cons.mpr ⟨hnot, hnodup⟩) hsub).length_le
  rw [List.length_cons, List.length_range] at hle
  have hcapn : workerCapacity s.cap.run.nBufs k = s.cap.run.nBufs := by
    cases k with
    | jpeg => rfl
    | raw => exact absurd rfl hk
    | h264 => rfl
  rw [hcap, hcapn]
  exact hle

/-- **The hand-over keeps the invariant if the queue has room**: the pointer that was counted is in
the queue now. -/
theorem StreamOk.loopPut {s s' : StreamState} (h : StreamOk s)
    (hroom : ∀ hw k todo c, s.pc = .putHw hw k todo → s.ctx k = some c →
      c.queue.toList.length < c.queue.capacity)
    (hst : loopPut s = some s') : StreamOk s' := by
  unfold TinyPilotKvm.loopPut at hst
  split at hst
  · rename_i hw k todo hpc
    obtain ⟨c, hc, rfl⟩ := Option.map_eq_some_iff.mp hst
    obtain ⟨q, hput⟩ := Queue.put_of_lt (hroom hw k todo c hpc hc) hw
    have hq : putIgnored c.queue hw = q := by rw [putIgnored, hput, Option.getD_some]
    have hlist := Queue.toList_put hput
    have hhand : s.pc.hand = some hw := by rw [hpc]; rfl
    have htodo : s.pc.todo = k :: todo := by rw [hpc]; rfl
    obtain ⟨hlt, hidx, hcust, hqueues⟩ := h.inv.hand hw hhand
    rw [htodo] at hqueues
    obtain ⟨hknot, hnodupTodo⟩ := List.nodup_cons.mp (htodo ▸ h.inv.todo)
    rw [hq]
    have htok : ∀ b, tokens { s.setCtx k { c with queue := q } with pc := .queueHw hw todo } b
        = tokens s b := by
      intro b
      have hset := tokens_setCtx hc s.cap.run { c with queue := q } s.pool b
      have hnew : ctxTokens (some { c with queue := q }) b
          = ctxTokens (some c) b + [hw].count b := by
        simp only [ctxTokens, hlist, List.count_append]
        omega
      have hcounted : s.pc.counted = [hw] := by rw [hpc]; rfl
      have hpcs : tokens { (s.setRun s.cap.run).setCtx k { c with queue := q } with
          pool := s.pool } b
          = tokens { s.setCtx k { c with queue := q } with pc := .queueHw hw todo } b
            + [hw].count b := by
        unfold tokens
        rw [← hcounted]
        rfl
      omega
    refine ⟨?_, fun _ => ?_⟩
    · constructor
      case length => exact h.inv.length
      case counts =>
        intro b hb
        rw [htok b]
        exact h.inv.counts b hb
      case bound =>
        intro b hb
        rw [htok b] at hb
        exact h.inv.bound b hb
      case free =>
        intro b hb
        obtain ⟨hblt, hb0, hne, hbcust⟩ := h.inv.free b hb
        rw [hhand] at hne
        exact ⟨hblt, (htok b).trans hb0, hne, hbcust⟩
      case hand =>
        intro hw' hh
        obtain rfl : hw = hw' := Option.some.inj hh
        refine ⟨hlt, hidx, hcust, fun j hj c1 hc1 => ?_⟩
        rcases ctx_setCtx_eq_some hc1 with ⟨rfl, -⟩ | ⟨-, hc1⟩
        · exact absurd hj hknot
        · exact hqueues j (List.mem_cons_of_mem k hj) c1 hc1
      case todo => exact hnodupTodo
      case custody => exact h.inv.custody
      case room => exact h.inv.room
      case queues =>
        intro j c1 hc1
        rcases ctx_setCtx_eq_some hc1 with ⟨rfl, rfl⟩ | ⟨-, hc1⟩
        · obtain ⟨hnodup, hcap⟩ := h.inv.queues j c hc
          refine ⟨?_, (Queue.capacity_put hput).trans hcap⟩
          rw [hlist, List.nodup_append_comm, List.singleton_append, List.nodup_cons]
          exact ⟨hqueues j List.mem_cons_self c hc, hnodup⟩
        · exact h.inv.queues j c1 hc1
      case job =>
        intro c1 hc1 hown
        rcases ctx_setCtx_eq_some hc1 with ⟨rfl, rfl⟩ | ⟨-, hc1⟩
        · exact h.inv.job c hc hown
        · exact h.inv.job c1 hc1 hown
    · have hlive := h.live (by rw [hpc]; simp)
      refine ⟨hlive.marked, hlive.pending, fun hstop b hb => ?_, hlive.running⟩
      have := hlive.whole hstop b hb
      rw [hhand] at this
      exact this
  · exact absurd hst (by simp)

end TinyPilotKvm
