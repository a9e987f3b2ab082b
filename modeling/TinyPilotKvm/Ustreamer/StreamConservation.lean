/-
# Conservation of the references to the capture buffers

`references` counts the pointers to a buffer as a reader would, over the queues, the workers and the
jobs; `stream_reference_conservation` says that `refs` is that number between the frames, that
a buffer nobody refers to gets back to the driver, and that the driver never has one somebody
refers to.

This holds of the runs in which the RAW worker's queue has room whenever a buffer is put
into it (`RawHasRoom`).  Without room the pointer is dropped and the count stays: that one step
breaks the equation (`put_without_room`), and the buffer does not come back
(`raw_queue_loses_reference`).
-/
import TinyPilotKvm.Ustreamer.StreamReleasers

namespace TinyPilotKvm

/-! ## 1. References -/

def allWorkers : List WorkerKind := [.jpeg, .raw, .h264]

/-- The worker queues that hold a pointer to `b`, the workers that have it in their hands, and the
jobs it is attached to. -/
def references (s : StreamState) (b : Nat) : Nat :=
  allWorkers.countP (fun k => (s.ctx k).any fun c => decide (b ∈ c.queue.toList))
    + allWorkers.countP (fun k => (s.ctx k).any fun c => decide (b ∈ c.pc.held))
    + s.pool.countP fun w => w.hw == some b

/-- A worker has at most one buffer in its hands. -/
theorem WorkerPc.nodup_held (pc : WorkerPc) : pc.held.Nodup := by
  cases pc <;> simp [WorkerPc.held]

/-- In a list without repetitions membership counts. -/
theorem count_eq_of_nodup {l : List Nat} (h : l.Nodup) (b : Nat) :
    l.count b = if b ∈ l then 1 else 0 := by
  by_cases hb : b ∈ l
  · rw [if_pos hb, List.count_eq_one_of_mem h hb]
  · rw [if_neg hb, List.count_eq_zero_of_not_mem hb]

theorem StreamInv.tokens_eq_references {s : StreamState} (h : StreamInv s) (b : Nat) :
    tokens s b = references s b + s.pc.counted.count b := by
  have hctx : ∀ k, ctxTokens (s.ctx k) b
      = (if (s.ctx k).any fun c => decide (b ∈ c.queue.toList) then 1 else 0)
        + (if (s.ctx k).any fun c => decide (b ∈ c.pc.held) then 1 else 0) := by
    intro k
    cases hc : s.ctx k with
    | none => rfl
    | some c =>
      simp only [ctxTokens, Option.any_some, decide_eq_true_eq]
      rw [count_eq_of_nodup (h.queues k c hc).1, count_eq_of_nodup c.pc.nodup_held]
  unfold tokens references kindSum allWorkers poolTokens
  simp only [List.countP_cons, List.countP_nil, hctx]
  omega

/-! ## 2. Runs in which the RAW queue has room -/

/-- A put into the RAW worker's queue finds fewer than two buffers there. -/
def rawHasRoom (s : StreamState) (a : StreamAct) : Bool :=
  match a, s.pc, s.ctx .raw with
  | .put, .putHw _ .raw _, some c => decide (c.queue.toList.length < 2)
  | _, _, _ => true

abbrev RawHasRoom (s : StreamState) (a : StreamAct) : Prop := rawHasRoom s a = true

theorem streamOk_start {s : StreamState} (hs : streamSystem.start s) : StreamOk s := by
  obtain ⟨cap, enabled, nWorkers, hpos, hlen, hfresh, rfl⟩ := hs
  have hqueue : ∀ k c, (streamInit cap (Finset.range cap.run.nBufs) enabled nWorkers hpos).ctx k
      = some c → c = ⟨Queue.init _ (workerCapacity_pos hpos k), .top, 0⟩ := by
    intro k c hc
    simp only [streamInit] at hc
    split at hc
    · exact (Option.some.inj hc).symm
    · exact absurd hc (by simp)
  have htok : ∀ b, tokens (streamInit cap (Finset.range cap.run.nBufs) enabled nWorkers hpos) b
      = 0 := by
    intro b
    have hctx : ∀ k, ctxTokens
        ((streamInit cap (Finset.range cap.run.nBufs) enabled nWorkers hpos).ctx k) b = 0 := by
      intro k
      simp only [streamInit]
      split
      · rfl
      · rfl
    have hpool : poolTokens (List.replicate nWorkers ⟨none, false⟩) b = 0 := by
      unfold poolTokens
      rw [List.countP_eq_zero]
      intro w hw
      rw [List.eq_of_mem_replicate hw]
      simp
    unfold tokens kindSum
    dsimp only
    rw [hctx, hctx, hctx]
    exact (Nat.zero_add _).trans hpool
  refine ⟨?_, fun _ => ?_⟩
  · constructor
    case length => exact hlen
    case counts =>
      intro b hb
      rw [htok b]
      exact (hfresh b hb).2
    case bound =>
      intro b hb
      rw [htok b] at hb
      exact absurd hb (Nat.lt_irrefl 0)
    case free =>
      intro b hb
      exact ⟨Finset.mem_range.mp hb, htok b, by simp [streamInit, LoopPc.hand], rfl⟩
    case hand =>
      intro hw hh
      exact absurd hh (by simp [streamInit, LoopPc.hand])
    case todo => exact List.nodup_nil
    case custody => exact fun _ => Or.inl rfl
    case room => exact fun _ => rfl
    case queues =>
      intro k c hc
      obtain rfl := hqueue k c hc
      exact ⟨List.nodup_nil, rfl⟩
    case job =>
      intro c hc hown
      obtain rfl := hqueue _ c hc
      exact absurd hown (by simp [WorkerPc.ownsJob])
  · constructor
    case marked => exact fun i hi _ => Finset.mem_range.mpr hi
    case pending =>
      intro b hw hb
      exact absurd hb (by simp [streamInit])
    case whole => exact fun _ b hb => Or.inl (Finset.mem_range.mpr hb)
    case running =>
      intro _ b
      simp [streamInit]

/-- The put of a run whose RAW queue has room finds room, whichever queue it is. -/
theorem StreamInv.room_of_rawHasRoom {s : StreamState} (h : StreamInv s)
    (hok : RawHasRoom s .put) {hw : Nat} {k : WorkerKind} {todo : List WorkerKind} {c : WorkerCtx}
    (hpc : s.pc = .putHw hw k todo) (hc : s.ctx k = some c) :
    c.queue.toList.length < c.queue.capacity := by
  by_cases hk : k = .raw
  · subst hk
    rw [(h.queues .raw c hc).2]
    simp only [RawHasRoom, rawHasRoom, hpc, hc, decide_eq_true_eq] at hok
    exact hok
  · exact h.hasRoom hpc hk hc

/-- **One step**, one case for each action. -/
theorem streamOk_step : streamSystem.Preserves RawHasRoom StreamOk := by
  intro s s' a h hok hst
  have hworker : ∀ {k} {f : WorkerCtx → Option StreamState},
      (∀ {c}, s.ctx k = some c → f c = some s' → StreamInv s' ∧ WorkerMove s s') →
      onWorker s k f = some s' → StreamOk s' := by
    intro k f hf hs
    obtain ⟨c, hc, hfc⟩ := Option.bind_eq_some_iff.mp hs
    exact h.move (hf hc hfc)
  have hreleaser : ∀ {b} {f : Releaser → Option StreamState},
      (f (s.releasers b) = some s' → StreamOk s') → onReleaser s b f = some s' → StreamOk s' := by
    intro b f hf hs
    unfold onReleaser at hs
    split at hs
    · exact hf hs
    · exact absurd hs (by simp)
  cases a with
  | loopBreak =>
    obtain rfl := Option.some.inj hst
    exact h.loopBreak
  | loopCheck => exact h.loopCheck hst
  | grab sel ds errno => exact h.loopGrab hst
  | incref => exact h.loopIncref hst
  | put => exact h.loopPut (fun _ _ _ _ hpc hc => h.inv.room_of_rawHasRoom hok hpc hc) hst
  | plan => exact h.loopPlan hst
  | enter k => exact hworker h.inv.workerEnter hst
  | wait w => exact hworker (fun hc => h.inv.jpegWait hc) hst
  | collect => exact hworker h.inv.jpegCollect hst
  | timeout k => exact hworker h.inv.workerTimeout hst
  | get k => exact hworker h.inv.workerGet hst
  | check k => exact hworker h.inv.workerCheck hst
  | drop k => exact hworker h.inv.workerDrop hst
  | reget k => exact hworker h.inv.workerReget hst
  | pass k => exact hworker h.inv.workerPass hst
  | assign => exact hworker h.inv.jpegAssign hst
  | finish w => exact h.move (h.inv.poolFinish hst)
  | relEnter b => exact hreleaser h.releaserEnter hst
  | relTimeout b => exact hreleaser h.releaserTimeout hst
  | relGet b => exact hreleaser h.releaserGet hst
  | relPoll b => exact hreleaser h.releaserPoll hst
  | relQbuf b qbufOk => exact hreleaser (f := fun r => releaserQbuf s b r qbufOk) h.releaserQbuf hst
  | relClear b => exact hreleaser h.releaserClear hst

theorem streamOk_of_reach {s : StreamState} (hr : streamSystem.ReachVia RawHasRoom s) :
    StreamOk s :=
  hr.inv (fun _ => streamOk_start) streamOk_step

/-! ## 3. No buffer is lost -/

section Return

variable {s s' : StreamState} {b : Nat}

/-- The releaser of `b`, by its own steps, gives `b` back. -/
def Returns (s : StreamState) (b : Nat) (as : List StreamAct) : Prop :=
  (∀ a ∈ as, a ∈ [.relEnter b, .relGet b, .relPoll b, .relQbuf b true]) ∧
    ∃ s', streamSystem.exec s as = some s' ∧ b ∈ s'.queued

theorem Returns.cons {a : StreamAct}
    (ha : a ∈ [.relEnter b, .relGet b, .relPoll b, .relQbuf b true])
    (s' : StreamState) (hst : streamStep s a = some s') {as : List StreamAct}
    (h : Returns s' b as) :
    Returns s b (a :: as) := by
  obtain ⟨hall, s'', hexec, hq⟩ := h
  refine ⟨fun x hx => ?_, s'', System.exec_cons_eq_some.mpr ⟨s', hst, hexec⟩, hq⟩
  rcases List.mem_cons.mp hx with rfl | hx
  · exact ha
  · exact hall x hx

@[simp] theorem setReleaser_releasers_self (r : Releaser) :
    (s.setReleaser b r).releasers b = r := by
  simp only [StreamState.setReleaser, Function.update_self]

/-- From before the ioctl. -/
theorem returns_of_release (hlt : b < s.cap.run.nBufs) (hpc : (s.releasers b).pc = .release b)
    (hidx : (s.cap.run.hw b).buf.index = b) (h0 : (s.cap.run.hw b).refs = 0) :
    Returns s b [.relQbuf b true] := by
  refine .cons (by simp) { s.setReleaser b { s.releasers b with pc := .clear b } with
    queued := insert (s.cap.run.hw b).buf.index s.queued } ?_ ⟨by simp, _, rfl, ?_⟩
  · simp only [streamStep, onReleaser, releaserQbuf, if_pos hlt, hpc, h0]
    rfl
  · dsimp only
    rw [hidx]
    exact Finset.mem_insert_self _ _

/-- From where it waits for the count. -/
theorem returns_of_hold (hlt : b < s.cap.run.nBufs) (hpc : (s.releasers b).pc = .hold b)
    (hidx : (s.cap.run.hw b).buf.index = b) (h0 : (s.cap.run.hw b).refs = 0) :
    Returns s b [.relPoll b, .relQbuf b true] := by
  refine .cons (by simp) (s.setReleaser b { s.releasers b with pc := .release b }) ?_
    (returns_of_release hlt (by rw [setReleaser_releasers_self]) hidx h0)
  simp only [streamStep, onReleaser, releaserPoll, if_pos hlt, hpc, h0]
  rfl

/-- From where it waits for the buffer. -/
theorem returns_of_get (hlt : b < s.cap.run.nBufs) (hpc : (s.releasers b).pc = .get)
    (hq : (s.releasers b).queue.toList = [b]) (hidx : (s.cap.run.hw b).buf.index = b)
    (h0 : (s.cap.run.hw b).refs = 0) :
    Returns s b [.relGet b, .relPoll b, .relQbuf b true] := by
  obtain ⟨⟨hw, q⟩, hget⟩ : ∃ p, (s.releasers b).queue.get = some p := by
    rw [← Option.isSome_iff_exists, ← Option.ne_none_iff_isSome]
    intro hnone
    rw [Queue.get_eq_none_iff.mp hnone] at hq
    exact absurd hq (by simp)
  have hlist := Queue.toList_get hget
  rw [hq] at hlist
  obtain ⟨rfl, -⟩ := List.cons.inj hlist
  refine .cons (by simp) (s.setReleaser b ⟨q, .hold b⟩) ?_
    (returns_of_hold hlt (by rw [setReleaser_releasers_self]) hidx h0)
  simp only [streamStep, onReleaser, releaserGet, if_pos hlt, hpc, hget]

/-- **A buffer that nobody refers to gets back**: its releaser needs at most four steps, and no
other thread. -/
theorem StreamOk.returns (h : StreamOk s) (hpc : s.pc = .top) (hstop : s.threadsStop = false)
    (hlt : b < s.cap.run.nBufs) (hq : b ∉ s.queued) (h0 : (s.cap.run.hw b).refs = 0) :
    ∃ as, as.length ≤ 4 ∧ Returns s b as := by
  have hlive := h.live (by rw [hpc]; simp)
  have hcust : (s.releasers b).custody = [b] := by
    rcases hlive.whole hstop b hlt with hmem | hh | hc
    · exact absurd hmem hq
    · rw [hpc] at hh
      exact absurd hh (by simp [LoopPc.hand])
    · exact hc
  have hidx : (s.cap.run.hw b).buf.index = b := by
    rcases h.inv.custody b with hnil | ⟨-, -, hidx⟩
    · rw [hnil] at hcust
      exact absurd hcust (by simp)
    · exact hidx
  cases hrel : (s.releasers b).pc with
  | top =>
    have hqueue : (s.releasers b).queue.toList = [b] := by
      simpa only [Releaser.custody, hrel, List.append_nil] using hcust
    refine ⟨[.relEnter b, .relGet b, .relPoll b, .relQbuf b true], Nat.le_refl 4,
      .cons (by simp) (s.setReleaser b { s.releasers b with pc := .get }) ?_
        (returns_of_get hlt (by rw [setReleaser_releasers_self])
          (by rw [setReleaser_releasers_self]; exact hqueue) hidx h0)⟩
    simp only [streamStep, onReleaser, TinyPilotKvm.releaserEnter, if_pos hlt, hrel, hstop]
    rfl
  | get =>
    have hqueue : (s.releasers b).queue.toList = [b] := by
      simpa only [Releaser.custody, hrel, List.append_nil] using hcust
    exact ⟨_, by simp, returns_of_get hlt hrel hqueue hidx h0⟩
  | hold hw =>
    obtain ⟨rfl, -⟩ := h.inv.releaser_hw (Or.inl hrel)
    exact ⟨_, by simp, returns_of_hold hlt hrel hidx h0⟩
  | release hw =>
    obtain ⟨rfl, -⟩ := h.inv.releaser_hw (Or.inr hrel)
    exact ⟨_, by simp, returns_of_release hlt hrel hidx h0⟩
  | clear hw => exact absurd (hlive.pending b hw hrel).2.1 hq
  | done => exact absurd hrel (hlive.running hstop b)

end Return

/-! ## 4. The theorem, and the step that breaks it -/

/-- **Conservation of references.**  In a run whose RAW queue has room at every put into it:

* between the frames `refs` of each buffer is the number of references to it;
* a buffer with no reference left has the count 0, and if it is not with the driver, then its
  releaser gives it back by its own steps;
* the driver has no buffer that is referred to. -/
theorem stream_reference_conservation {s : StreamState}
    (hr : streamSystem.ReachVia RawHasRoom s) :
    (s.pc = .top → ∀ b < s.cap.run.nBufs, (s.cap.run.hw b).refs = references s b) ∧
      (s.pc = .top → ∀ b < s.cap.run.nBufs, references s b = 0 →
        (s.cap.run.hw b).refs = 0 ∧ (s.threadsStop = false → b ∉ s.queued →
          ∃ as, as.length ≤ 4 ∧ Returns s b as)) ∧
      ∀ b ∈ s.queued, references s b = 0 := by
  have h := streamOk_of_reach hr
  have hcounts : s.pc = .top → ∀ b < s.cap.run.nBufs,
      (s.cap.run.hw b).refs = references s b := by
    intro hpc b hb
    have heq := h.inv.tokens_eq_references b
    simp only [hpc, LoopPc.counted, List.count_nil, Nat.add_zero] at heq
    rw [h.inv.counts b hb, heq]
  refine ⟨hcounts, fun hpc b hb h0 => ?_, fun b hb => ?_⟩
  · have hrefs : (s.cap.run.hw b).refs = 0 := by
      rw [hcounts hpc b hb, h0]
      rfl
    exact ⟨hrefs, fun hstop hq => h.returns hpc hstop hb hq hrefs⟩
  · have heq := h.inv.tokens_eq_references b
    have h0 := (h.inv.free b hb).2.1
    omega

/-- Only the RAW worker, over three buffers. -/
def rawStream : StreamState :=
  streamInit (freshCapture 3) (Finset.range 3) (fun k => k = .raw) 0 (by decide)

theorem rawStream_start : streamSystem.start rawStream :=
  ⟨freshCapture 3, _, 0, by decide, rfl, by decide, rfl⟩

/-- The driver delivers the buffer `i`. -/
def deliver (i : Nat) : StreamAct := .grab ⟨1, false, none⟩ [⟨⟨i, 4096, [], 0, 0⟩, [], true⟩] .again

/-- The steps of one frame over the worker. -/
def frameOf (i : Nat) : List StreamAct := [.loopCheck, deliver i, .incref, .put, .plan]

/-- One frame that the worker takes: one reference, one count. -/
theorem stream_reference_conservation_one :
    ∃ s, references s 0 = 1 ∧ (s.cap.run.hw 0).refs = references s 0 := by
  have hrun : ((streamSystem.execVia RawHasRoom rawStream
      (frameOf 0 ++ [StreamAct.enter .raw, .get .raw])).any
      fun s => decide (s.pc = .top ∧ 0 < s.cap.run.nBufs ∧ references s 0 = 1)) = true := by
    decide +kernel
  obtain ⟨s, hexec, hs⟩ := (Option.any_eq_true _ _).mp hrun
  obtain ⟨hpc, hlt, hone⟩ := of_decide_eq_true hs
  have hr := System.ReachVia.execVia _ (.start rawStream_start) hexec
  exact ⟨s, hone, (stream_reference_conservation hr).1 hpc 0 hlt⟩

/-- **A put without room breaks the equation**: the pointer is dropped, its count is not. -/
theorem put_without_room {s s' : StreamState} (h : StreamOk s) {hw : Nat} {k : WorkerKind}
    {todo : List WorkerKind} {c : WorkerCtx} (hpc : s.pc = .putHw hw k todo)
    (hc : s.ctx k = some c) (hfull : c.queue.toList.length = c.queue.capacity)
    (hst : streamStep s .put = some s') :
    (s'.cap.run.hw hw).refs = references s' hw + 1 := by
  have hkeep : putIgnored c.queue hw = c.queue := by
    rw [putIgnored, Queue.put_eq_none_iff.mpr hfull, Option.getD_none]
  have hs' : s' = { s with pc := .queueHw hw todo } := by
    simp only [streamStep, loopPut, hpc, hc, Option.map_some, Option.some.injEq, hkeep] at hst
    rw [← hst, StreamState.setCtx, ← hc, Function.update_eq_self]
  subst hs'
  obtain ⟨hlt, -⟩ := h.inv.hand hw (by rw [hpc]; rfl)
  have heq := h.inv.tokens_eq_references hw
  rw [hpc, LoopPc.counted, List.count_singleton_self] at heq
  show (s.cap.run.hw hw).refs = ((references s hw : Nat) : Int) + 1
  rw [h.inv.counts hw hlt, heq, Nat.cast_add, Nat.cast_one]

/-- Three frames before the RAW worker takes one: the third buffer's pointer is dropped, and
its count of 1 has nothing behind it. -/
theorem raw_queue_loses_reference :
    ∃ s, streamSystem.Reach s ∧ s.pc = .top ∧ references s 2 = 0 ∧ (s.cap.run.hw 2).refs = 1 := by
  have hrun : ((streamSystem.exec rawStream (frameOf 0 ++ frameOf 1 ++ frameOf 2)).any fun s =>
      decide (s.pc = .top ∧ references s 2 = 0 ∧ (s.cap.run.hw 2).refs = 1)) = true := by
    decide +kernel
  obtain ⟨s, hexec, hs⟩ := (Option.any_eq_true _ _).mp hrun
  exact ⟨s, System.Reach.exec _ (.start rawStream_start) hexec, of_decide_eq_true hs⟩

end TinyPilotKvm
