/-
# Steps of the releasers

A buffer's releaser gets it from the loop (`StreamOk.loopPlan`), waits for the count to be zero
and gives the buffer back (`StreamOk.releaserQbuf`).  What it has taken on is its `custody`, which
is its own buffer or nothing; so no two parties give one buffer back, and a buffer that the loop
has let go is always in sight.
-/
import TinyPilotKvm.Ustreamer.StreamLoop

namespace TinyPilotKvm

/-! ## 1. One releaser's state -/

/-- What `setReleaser` leaves of a property of all releasers. -/
theorem forall_setReleaser {s : StreamState} {b : Nat} {r : Releaser} {P : Nat → Releaser → Prop}
    (hb : P b r) (hne : ∀ j, j ≠ b → P j (s.releasers j)) :
    ∀ j, P j ((s.setReleaser b r).releasers j) :=
  (Function.forall_update_iff s.releasers P).mpr ⟨hb, hne⟩

namespace StreamState

variable (s : StreamState)

/-- What the invariant says of the buffer that releaser `j` has. -/
def Custody (j : Nat) (r : Releaser) : Prop :=
  r.custody = [] ∨ r.custody = [j] ∧ j < s.cap.run.nBufs ∧ (s.cap.run.hw j).buf.index = j

/-- What the invariant says of releaser `j` before it clears the mark. -/
def Pending (j : Nat) (r : Releaser) : Prop :=
  ∀ hw, r.pc = .clear hw → hw = j ∧ j ∈ s.queued ∧ (s.cap.run.hw j).grabbed = true

end StreamState

/-- A releaser's step that neither gives the buffer back nor takes one on. -/
theorem StreamOk.releaser {s : StreamState} (h : StreamOk s) {b : Nat} {r : Releaser}
    (threadsStop : Bool) (hcust : r.custody = (s.releasers b).custody ∨ r.custody = [])
    (hcap : r.queue.capacity = (s.releasers b).queue.capacity) (hclear : ∀ hw, r.pc ≠ .clear hw)
    (hrun : threadsStop = false → s.threadsStop = false ∧ r.pc ≠ .done ∧
      r.custody = (s.releasers b).custody) :
    StreamOk { s.setReleaser b r with threadsStop := threadsStop } := by
  have hempty : ∀ j, (s.releasers j).custody = [] →
      ((s.setReleaser b r).releasers j).custody = [] :=
    forall_setReleaser (P := fun j r => (s.releasers j).custody = [] → r.custody = [])
      (fun h0 => hcust.elim (·.trans h0) id) fun _ _ h0 => h0
  refine ⟨?_, fun hpc => ?_⟩
  · constructor
    case length => exact h.inv.length
    case counts => exact h.inv.counts
    case bound => exact h.inv.bound
    case free =>
      intro j hj
      obtain ⟨h1, h2, h3, h4⟩ := h.inv.free j hj
      exact ⟨h1, h2, h3, hempty j h4⟩
    case hand =>
      intro hw hh
      obtain ⟨h1, h2, h3, h4⟩ := h.inv.hand hw hh
      exact ⟨h1, h2, hempty hw h3, h4⟩
    case todo => exact h.inv.todo
    case custody =>
      refine forall_setReleaser (P := s.Custody) ?_ fun j _ => h.inv.custody j
      rcases hcust with hsame | h0
      · rw [StreamState.Custody, hsame]
        exact h.inv.custody b
      · exact Or.inl h0
    case room =>
      exact forall_setReleaser (P := fun _ r => r.queue.capacity = 1) (hcap.trans (h.inv.room b))
        fun j _ => h.inv.room j
    case queues => exact h.inv.queues
    case job => exact h.inv.job
  · have hlive := h.live hpc
    constructor
    case marked => exact hlive.marked
    case pending =>
      exact forall_setReleaser (P := s.Pending) (fun hw hc => absurd hc (hclear hw))
        fun j _ => hlive.pending j
    case whole =>
      intro hstop
      obtain ⟨hs, -, hsame⟩ := hrun hstop
      refine forall_setReleaser (P := fun j r => j < s.cap.run.nBufs →
        j ∈ s.queued ∨ s.pc.hand = some j ∨ r.custody = [j]) ?_ fun j _ => hlive.whole hs j
      rw [hsame]
      exact hlive.whole hs b
    case running =>
      intro hstop
      obtain ⟨hs, hdone, -⟩ := hrun hstop
      exact forall_setReleaser (P := fun _ r => r.pc ≠ .done) hdone fun j _ => hlive.running hs j

/-! ## 2. The steps -/

section Releasers

variable {s s' : StreamState} {b : Nat}

/-- **The loop hands the buffer to its releaser**, whose queue is empty. -/
theorem StreamOk.loopPlan (h : StreamOk s) (hst : loopPlan s = some s') : StreamOk s' := by
  unfold TinyPilotKvm.loopPlan at hst
  split at hst
  · rename_i hw hpc
    obtain rfl := Option.some.inj hst
    have hhand : s.pc.hand = some hw := by rw [hpc]; rfl
    obtain ⟨hlt, hidx, hcust, -⟩ := h.inv.hand hw hhand
    rw [hidx]
    have hnil : (s.releasers hw).queue.toList = [] := (List.append_eq_nil_iff.mp hcust).1
    obtain ⟨q, hput⟩ := Queue.put_of_lt (q := (s.releasers hw).queue)
      (by rw [hnil, h.inv.room hw]; exact Nat.one_pos) hw
    have hq : putIgnored (s.releasers hw).queue hw = q := by
      rw [putIgnored, hput, Option.getD_some]
    rw [hq]
    have hnew : Releaser.custody { s.releasers hw with queue := q } = [hw] := by
      have hrest := (List.append_eq_nil_iff.mp hcust).2
      show q.toList ++ _ = [hw]
      rw [Queue.toList_put hput, hnil]
      exact congrArg ([hw] ++ ·) hrest
    have htok : ∀ j,
        tokens { s.setReleaser hw { s.releasers hw with queue := q } with pc := .top } j
        = tokens s j := by
      intro j
      unfold tokens
      rw [hpc]
      rfl
    have hlive := h.live (by rw [hpc]; simp)
    have hothers : ∀ j, j ≠ hw →
        (((s.setReleaser hw { s.releasers hw with queue := q }).releasers j).custody
          = (s.releasers j).custody) := by
      intro j hj
      unfold StreamState.setReleaser
      dsimp only
      rw [Function.update_of_ne hj]
    refine ⟨?_, fun _ => ?_⟩
    · constructor
      case length => exact h.inv.length
      case counts =>
        intro j hj
        rw [htok j]
        exact h.inv.counts j hj
      case bound =>
        intro j hj
        rw [htok j] at hj
        exact h.inv.bound j hj
      case free =>
        intro j hj
        obtain ⟨h1, h2, h3, h4⟩ := h.inv.free j hj
        rw [hhand] at h3
        refine ⟨h1, (htok j).trans h2, by simp [LoopPc.hand], ?_⟩
        exact (hothers j fun he => h3 (congrArg some he.symm)).trans h4
      case hand =>
        intro j hj
        exact absurd hj (by simp [LoopPc.hand])
      case todo => exact List.nodup_nil
      case custody =>
        exact forall_setReleaser (P := s.Custody) (Or.inr ⟨hnew, hlt, hidx⟩)
          fun j _ => h.inv.custody j
      case room =>
        exact forall_setReleaser (P := fun _ r => r.queue.capacity = 1)
          ((Queue.capacity_put hput).trans (h.inv.room hw)) fun j _ => h.inv.room j
      case queues => exact h.inv.queues
      case job => exact h.inv.job
    · constructor
      case marked => exact hlive.marked
      case pending =>
        exact forall_setReleaser (P := s.Pending) (hlive.pending hw) fun j _ => hlive.pending j
      case whole =>
        intro hstop j hj
        by_cases hjw : j = hw
        · subst hjw
          refine Or.inr (Or.inr ?_)
          unfold StreamState.setReleaser
          dsimp only
          rw [Function.update_self]
          exact hnew
        · rcases hlive.whole hstop j hj with hq | hh | hc
          · exact Or.inl hq
          · rw [hhand] at hh
            exact absurd (Option.some.inj hh).symm hjw
          · exact Or.inr (Or.inr ((hothers j hjw).trans hc))
      case running =>
        intro hstop
        exact forall_setReleaser (P := fun _ r => r.pc ≠ .done) (hlive.running hstop hw)
          fun j _ => hlive.running hstop j
  · exact absurd hst (by simp)

theorem StreamOk.releaserEnter (h : StreamOk s)
    (hst : releaserEnter s b (s.releasers b) = some s') : StreamOk s' := by
  unfold TinyPilotKvm.releaserEnter at hst
  split at hst
  · rename_i hpc
    have hcust : ∀ pc, pc = .done ∨ pc = .get →
        Releaser.custody { s.releasers b with pc := pc } = (s.releasers b).custody := by
      rintro pc (rfl | rfl) <;> simp only [Releaser.custody, hpc]
    split at hst
    · rename_i hstop
      obtain rfl := Option.some.inj hst
      refine h.releaser s.threadsStop (Or.inl (hcust _ (Or.inl rfl))) rfl (by simp)
        fun hs => ?_
      rw [hstop] at hs
      exact absurd hs (by simp)
    · obtain rfl := Option.some.inj hst
      exact h.releaser s.threadsStop (Or.inl (hcust _ (Or.inr rfl))) rfl (by simp)
        fun hs => ⟨hs, by simp, hcust _ (Or.inr rfl)⟩
  · exact absurd hst (by simp)

theorem StreamOk.releaserTimeout (h : StreamOk s)
    (hst : releaserTimeout s b (s.releasers b) = some s') : StreamOk s' := by
  unfold TinyPilotKvm.releaserTimeout at hst
  split at hst
  · rename_i hpc
    obtain rfl := Option.some.inj hst
    have hcust : Releaser.custody { s.releasers b with pc := .top } = (s.releasers b).custody := by
      simp only [Releaser.custody, hpc]
    exact h.releaser s.threadsStop (Or.inl hcust) rfl (by simp)
      fun hs => ⟨hs, by simp, hcust⟩
  · exact absurd hst (by simp)

theorem StreamOk.releaserGet (h : StreamOk s)
    (hst : releaserGet s b (s.releasers b) = some s') : StreamOk s' := by
  unfold TinyPilotKvm.releaserGet at hst
  split at hst
  · rename_i hw q hpc hget
    obtain rfl := Option.some.inj hst
    have hcust := Releaser.custody_get ((h.inv.custody b).imp_right And.left) hpc hget
    exact h.releaser s.threadsStop (Or.inl hcust) (Queue.capacity_get hget) (by simp)
      fun hs => ⟨hs, by simp, hcust⟩
  · exact absurd hst (by simp)

/-- The buffer in a releaser's hands, before the ioctl. -/
theorem StreamInv.releaser_hw (h : StreamInv s) {hw : Nat}
    (hpc : (s.releasers b).pc = .hold hw ∨ (s.releasers b).pc = .release hw) :
    hw = b ∧ (s.releasers b).queue.toList = [] := by
  obtain ⟨h1, h2, -⟩ := Releaser.custody_hand ((h.custody b).imp_right And.left) hpc
  exact ⟨h1, h2⟩

theorem StreamOk.releaserPoll (h : StreamOk s)
    (hst : releaserPoll s b (s.releasers b) = some s') : StreamOk s' := by
  unfold TinyPilotKvm.releaserPoll at hst
  split at hst
  · rename_i hw hpc
    obtain ⟨-, hnil⟩ := h.inv.releaser_hw (Or.inl hpc)
    split at hst
    · split at hst
      · rename_i hstop
        obtain rfl := Option.some.inj hst
        refine h.releaser s.threadsStop (Or.inr ?_) rfl (by simp) fun hs => ?_
        · simp only [Releaser.custody, hnil, List.append_nil]
        · rw [hstop] at hs
          exact absurd hs (by simp)
      · obtain rfl := Option.some.inj hst
        exact h
    · obtain rfl := Option.some.inj hst
      have hcust : Releaser.custody { s.releasers b with pc := .release hw }
          = (s.releasers b).custody := by
        simp only [Releaser.custody, hpc]
      exact h.releaser s.threadsStop (Or.inl hcust) rfl (by simp)
        fun hs => ⟨hs, by simp, hcust⟩
  · exact absurd hst (by simp)

/-- **A releaser gives the buffer back**: its count is zero, so nothing refers to it. -/
theorem StreamOk.releaserQbuf (h : StreamOk s) {qbufOk : Bool}
    (hst : releaserQbuf s b (s.releasers b) qbufOk = some s') : StreamOk s' := by
  unfold TinyPilotKvm.releaserQbuf at hst
  split at hst
  · rename_i hw hpc
    obtain ⟨rfl, hnil⟩ := h.inv.releaser_hw (Or.inr hpc)
    have hone : (s.releasers hw).custody = [hw] := by
      simp only [Releaser.custody, hpc, hnil, List.nil_append]
    split at hst
    · exact absurd hst (by simp)
    rename_i hrefs
    split at hst
    · obtain rfl := Option.some.inj hst
      refine h.releaser true (Or.inr ?_) rfl (by simp) fun hs => absurd hs (by simp)
      simp only [Releaser.custody, hnil, List.append_nil]
    · obtain rfl := Option.some.inj hst
      obtain ⟨hlt, hidx⟩ : hw < s.cap.run.nBufs ∧ (s.cap.run.hw hw).buf.index = hw := by
        rcases h.inv.custody hw with h0 | ⟨-, h1⟩
        · rw [hone] at h0
          exact absurd h0 (by simp)
        · exact h1
      rw [hidx]
      have h0 : tokens s hw = 0 := by
        have := h.inv.counts hw hlt
        rw [not_not.mp hrefs] at this
        exact_mod_cast this.symm
      have hhand : s.pc.hand ≠ some hw := by
        intro hh
        obtain ⟨-, -, hc, -⟩ := h.inv.hand hw hh
        rw [hone] at hc
        exact absurd hc (by simp)
      have hnot : hw ∉ s.queued := by
        intro hq
        obtain ⟨-, -, -, hc⟩ := h.inv.free hw hq
        rw [hone] at hc
        exact absurd hc (by simp)
      have hempty : ∀ j, j = hw ∨ (s.releasers j).custody = [] →
          ((s.setReleaser hw { s.releasers hw with pc := .clear hw }).releasers j).custody
            = [] := by
        refine forall_setReleaser (P := fun j r => j = hw ∨ (s.releasers j).custody = [] →
          r.custody = []) (fun _ => ?_) fun j hj hc => hc.resolve_left hj
        simp only [Releaser.custody, hnil, List.append_nil]
      refine ⟨?_, fun hpc' => ?_⟩
      · constructor
        case length => exact h.inv.length
        case counts => exact h.inv.counts
        case bound => exact h.inv.bound
        case free =>
          intro j hj
          rcases Finset.mem_insert.mp hj with rfl | hj
          · exact ⟨hlt, h0, hhand, hempty j (Or.inl rfl)⟩
          · obtain ⟨h1, h2, h3, h4⟩ := h.inv.free j hj
            exact ⟨h1, h2, h3, hempty j (Or.inr h4)⟩
        case hand =>
          intro j hj
          obtain ⟨h1, h2, h3, h4⟩ := h.inv.hand j hj
          exact ⟨h1, h2, hempty j (Or.inr h3), h4⟩
        case todo => exact h.inv.todo
        case custody =>
          refine forall_setReleaser (P := s.Custody) (Or.inl ?_) fun j _ => h.inv.custody j
          simp only [Releaser.custody, hnil, List.append_nil]
        case room =>
          exact forall_setReleaser (P := fun _ r => r.queue.capacity = 1) (h.inv.room hw)
            fun j _ => h.inv.room j
        case queues => exact h.inv.queues
        case job => exact h.inv.job
      · have hlive := h.live hpc'
        constructor
        case marked =>
          intro i hi hg
          exact Finset.mem_insert_of_mem (hlive.marked i hi hg)
        case pending =>
          refine forall_setReleaser
            (P := StreamState.Pending { s with queued := insert hw s.queued })
            (fun i hc => ?_) fun j _ i hc => ?_
          · refine ⟨(ReleaserPc.clear.inj hc).symm, Finset.mem_insert_self _ _, ?_⟩
            rw [← Bool.not_eq_false]
            exact fun hg => hnot (hlive.marked hw hlt hg)
          · obtain ⟨h1, h2, h3⟩ := hlive.pending j i hc
            exact ⟨h1, Finset.mem_insert_of_mem h2, h3⟩
        case whole =>
          intro hs
          refine forall_setReleaser (P := fun j r => j < s.cap.run.nBufs →
            j ∈ insert hw s.queued ∨ s.pc.hand = some j ∨ r.custody = [j])
            (fun _ => Or.inl (Finset.mem_insert_self _ _)) fun j _ hj => ?_
          exact (hlive.whole hs j hj).imp_left fun hq => Finset.mem_insert_of_mem hq
        case running =>
          intro hs
          exact forall_setReleaser (P := fun _ r => r.pc ≠ .done) (by simp)
            fun j _ => hlive.running hs j
  · exact absurd hst (by simp)

/-- The mark of the buffer goes once the driver has it. -/
theorem StreamOk.releaserClear (h : StreamOk s)
    (hst : releaserClear s b (s.releasers b) = some s') : StreamOk s' := by
  unfold TinyPilotKvm.releaserClear at hst
  split at hst
  · rename_i hw hpc
    obtain rfl := Option.some.inj hst
    have hcust : Releaser.custody { s.releasers b with pc := .top } = (s.releasers b).custody := by
      simp only [Releaser.custody, hpc]
    have hr := h.releaser (r := { s.releasers b with pc := .top }) s.threadsStop
      (Or.inl hcust) rfl (by simp) fun hs => ⟨hs, by simp, hcust⟩
    have hfield : ∀ {β : Type} (field : UsCaptureHwbuf → β),
        (∀ x, field { x with grabbed := false } = field x) → ∀ j,
        field ((s.cap.run.modifyHw hw fun x => { x with grabbed := false }).hw j)
          = field (s.cap.run.hw j) :=
      fun field hf j => s.cap.run.hw_modifyHw_field field hw _ hf j
    refine ⟨?_, fun hpc' => ?_⟩
    · constructor
      case length => exact (s.cap.run.length_bufs_modifyHw hw _).trans h.inv.length
      case counts =>
        intro j hj
        exact (hfield (·.refs) (fun _ => rfl) j).trans (hr.inv.counts j hj)
      case bound => exact hr.inv.bound
      case free => exact hr.inv.free
      case hand =>
        intro j hj
        obtain ⟨h1, h2, h3⟩ := hr.inv.hand j hj
        exact ⟨h1, (hfield (·.buf.index) (fun _ => rfl) j).trans h2, h3⟩
      case todo => exact hr.inv.todo
      case custody =>
        intro j
        refine (hr.inv.custody j).imp_right ?_
        rintro ⟨h1, h2, h3⟩
        exact ⟨h1, h2, (hfield (·.buf.index) (fun _ => rfl) j).trans h3⟩
      case room => exact hr.inv.room
      case queues => exact hr.inv.queues
      case job => exact hr.inv.job
    · have hlive := h.live hpc'
      have hrl := hr.live hpc'
      obtain ⟨rfl, hq, hg⟩ := hlive.pending b hw hpc
      constructor
      case marked =>
        intro i hi hgi
        by_cases hiw : hw = i
        · exact hiw ▸ hq
        · refine hlive.marked i hi (Eq.trans ?_ hgi)
          exact (congrArg (·.grabbed) (UsCaptureRuntime.hw_modifyHw_of_ne _ hiw)).symm
      case pending =>
        refine forall_setReleaser (P := StreamState.Pending
          (s.setRun (s.cap.run.modifyHw hw fun x => { x with grabbed := false })))
          (fun i hc => absurd hc (by simp)) fun j hj i hc => ?_
        obtain ⟨h1, h2, h3⟩ := hlive.pending j i hc
        refine ⟨h1, h2, Eq.trans ?_ h3⟩
        exact congrArg (·.grabbed) (UsCaptureRuntime.hw_modifyHw_of_ne _ hj.symm)
      case whole => exact hrl.whole
      case running => exact hrl.running
  · exact absurd hst (by simp)

end Releasers

end TinyPilotKvm
