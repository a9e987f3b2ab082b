/-
# The flag `grabbed` between the loop and the releasers

A releaser gives the buffer back first and clears the flag second.  In between the driver may
already deliver the buffer again, and then the loop finds the flag set.  `RaceInv` says where
every buffer is at every step, and from it:

* a dequeued buffer has its flag set exactly while its releaser is between the two steps
  (`RaceInv.grabbed_iff`), so that is exactly when the grab ends in "already used";
* a flag that the loop has set is not cleared by a release that is still under way, because the
  loop has found it cleared before it set it (`RaceInv.inUse`).
-/
import TinyPilotKvm.Ustreamer.GrabSteps

namespace TinyPilotKvm

/-! ## 1. Where a buffer is -/

namespace RacePc

/-- The buffer a variable of the grab names. -/
def indices : Option V4l2Buffer → List Nat
  | none => []
  | some buf => [buf.index]

/-- The buffers the loop has dequeued and not given away. -/
def hands : RacePc → List Nat
  | .dqbuf buf _ => indices buf
  | .test d buf => d.buf.index :: indices buf
  | .mark d buf => d.buf.index :: indices buf
  | .judge d buf => d.buf.index :: indices buf
  | .requeueBroken new buf => new.index :: indices buf
  | .clearBroken _ buf => indices buf
  | .requeueOld new old => [new.index, old.index]
  | .clearOld new _ => [new.index]
  | .holding hw => [hw]
  | _ => []

/-- The one among them whose flag the loop has not set yet. -/
def unmarked : RacePc → Option Nat
  | .test d _ => some d.buf.index
  | .mark d _ => some d.buf.index
  | _ => none

/-- The buffer that the loop has requeued and whose flag it is about to clear. -/
def clearing : RacePc → Option Nat
  | .clearBroken new _ => some new.index
  | .clearOld _ old => some old.index
  | _ => none

end RacePc

/-- The releaser has given the buffer back and has not cleared its flag. -/
def RaceState.clears (s : RaceState) (b : Nat) : Prop := (s.releasers b).pc = .clear b

/-- The buffer is in use: the loop has it, with its flag set, or its releaser has still to give it
back. -/
def RaceState.inUse (s : RaceState) (b : Nat) : Prop :=
  (b ∈ s.pc.hands ∧ s.pc.unmarked ≠ some b) ∨ b ∈ (s.releasers b).custody

/-- The invariant of every run. -/
structure RaceInv (s : RaceState) : Prop where
  length : s.cap.run.bufs.length = s.cap.run.nBufs
  nodup : s.pc.hands.Nodup
  hands : ∀ i ∈ s.pc.hands, i < s.cap.run.nBufs ∧ i ∉ s.queued ∧ (s.releasers i).custody = []
  /-- **A flag that the loop has set stays set**: nobody is about to clear it. -/
  marked : ∀ i ∈ s.pc.hands, s.pc.unmarked ≠ some i → s.grabbed i = true ∧ ¬ s.clears i
  queued : ∀ i ∈ s.queued, i < s.cap.run.nBufs ∧ (s.releasers i).custody = []
  /-- A releaser has its own buffer or none. -/
  custody : ∀ b, (s.releasers b).custody = [] ∨
    (s.releasers b).custody = [b] ∧ b < s.cap.run.nBufs ∧ (s.cap.run.hw b).buf.index = b ∧
      s.grabbed b = true
  room : ∀ b, (s.releasers b).queue.capacity = 1
  releasing : ∀ b hw, (s.releasers b).pc = .clear hw →
    hw = b ∧ b < s.cap.run.nBufs ∧ s.grabbed b = true ∧ (s.releasers b).custody = []
  clearing : ∀ b, s.pc.clearing = some b → b ∈ s.queued ∧ ¬ s.clears b
  /-- A flag that is set on a buffer nobody has marked is about to be cleared. -/
  stale : ∀ b, s.grabbed b = true → b ∈ s.queued ∨ s.pc.unmarked = some b →
    s.clears b ∨ s.pc.clearing = some b
  tested : ∀ d buf, s.pc = .mark d buf → s.grabbed d.buf.index = false
  held : ∀ hw, s.pc = .holding hw → (s.cap.run.hw hw).buf.index = hw

namespace RaceInv

variable {s s' : RaceState}

/-! ## 2. What the invariant says -/

/-- **The flag of a dequeued buffer is set exactly while its releaser is about to clear it.** -/
theorem grabbed_iff (h : RaceInv s) {d : Dequeued} {buf : Option V4l2Buffer}
    (hpc : s.pc = .test d buf) : s.grabbed d.buf.index = true ↔ s.clears d.buf.index := by
  constructor
  · intro hg
    have hu : s.pc.unmarked = some d.buf.index := by rw [hpc]; rfl
    rcases h.stale _ hg (Or.inr hu) with hc | hc
    · exact hc
    · rw [hpc] at hc
      exact absurd hc (by simp [RacePc.clearing])
  · intro hc
    exact (h.releasing _ _ hc).2.2.1

/-- A buffer in use has its flag set, and no release that is under way clears it. -/
theorem inUse (h : RaceInv s) {b : Nat} (hb : s.inUse b) : s.grabbed b = true ∧ ¬ s.clears b := by
  rcases hb with ⟨hmem, hu⟩ | hmem
  · exact h.marked b hmem hu
  · rcases h.custody b with h0 | ⟨-, -, -, hg⟩
    · rw [h0] at hmem
      exact absurd hmem (by simp)
    · refine ⟨hg, fun hc => ?_⟩
      rw [(h.releasing _ _ hc).2.2.2] at hmem
      exact absurd hmem (by simp)

end RaceInv

/-! ## 3. Writes -/

namespace RaceState

variable (s : RaceState)

theorem grabbed_setGrabbed_of_ne {i j : Nat} (g : Bool) (hj : j ≠ i) :
    (s.setGrabbed i g).grabbed j = s.grabbed j := by
  unfold grabbed setGrabbed setRun
  exact congrArg UsCaptureHwbuf.grabbed (UsCaptureRuntime.hw_modifyHw_of_ne _ hj.symm)

theorem grabbed_setGrabbed {i : Nat} (hi : i < s.cap.run.bufs.length) (g : Bool) (j : Nat) :
    (s.setGrabbed i g).grabbed j = if j = i then g else s.grabbed j := by
  by_cases hj : j = i
  · subst hj
    rw [if_pos rfl]
    unfold grabbed setGrabbed setRun
    exact congrArg UsCaptureHwbuf.grabbed (UsCaptureRuntime.hw_modifyHw_self _ hi)
  · rw [if_neg hj]
    exact s.grabbed_setGrabbed_of_ne g hj

theorem buf_setGrabbed (i : Nat) (g : Bool) (j : Nat) :
    ((s.setGrabbed i g).cap.run.hw j).buf = (s.cap.run.hw j).buf :=
  s.cap.run.hw_modifyHw_field (·.buf) i (fun hw => { hw with grabbed := g }) (fun _ => rfl) j

theorem length_setGrabbed (i : Nat) (g : Bool) :
    (s.setGrabbed i g).cap.run.bufs.length = s.cap.run.bufs.length :=
  s.cap.run.length_bufs_modifyHw i _

theorem releasers_setReleaser (b : Nat) (r : Releaser) (j : Nat) :
    (s.setReleaser b r).releasers j = if j = b then r else s.releasers j :=
  Function.update_apply _ _ _ _

/-- What the invariant says of the buffer that releaser `j` has. -/
def Custody (j : Nat) (r : Releaser) : Prop :=
  r.custody = [] ∨ r.custody = [j] ∧ j < s.cap.run.nBufs ∧ (s.cap.run.hw j).buf.index = j ∧
    s.grabbed j = true

/-- What the invariant says of releaser `j` between its two steps. -/
def Releasing (j : Nat) (r : Releaser) : Prop :=
  ∀ hw, r.pc = .clear hw → hw = j ∧ j < s.cap.run.nBufs ∧ s.grabbed j = true ∧ r.custody = []

variable {s}

/-- A write to a flag leaves a releaser its buffer, if that buffer stays grabbed. -/
theorem Custody.setGrabbed {i j : Nat} {g : Bool} {r : Releaser} (hr : s.Custody j r)
    (hkeep : r.custody = [j] → s.grabbed j = true → (s.setGrabbed i g).grabbed j = true) :
    (s.setGrabbed i g).Custody j r := by
  rcases hr with h0 | ⟨h1, h2, h3, h4⟩
  · exact Or.inl h0
  · have hbuf := congrArg V4l2Buffer.index (s.buf_setGrabbed i g j)
    exact Or.inr ⟨h1, h2, hbuf.trans h3, hkeep h1 h4⟩

theorem Releasing.setGrabbed {i j : Nat} {g : Bool} {r : Releaser} (hr : s.Releasing j r)
    (hkeep : r.pc = .clear j → s.grabbed j = true → (s.setGrabbed i g).grabbed j = true) :
    (s.setGrabbed i g).Releasing j r := by
  intro hw hpc
  obtain ⟨rfl, h2, h3, h4⟩ := hr hw hpc
  exact ⟨rfl, h2, hkeep hpc h3, h4⟩

end RaceState

namespace RaceInv

variable {s s' : RaceState}

/-! ## 4. Steps of the loop -/

/-- The loop moves on, and may lose sight of what it has. -/
theorem advance (h : RaceInv s) (hsc : s.pc.clearing = none) {pc : RacePc}
    (hhands : pc.hands.Sublist s.pc.hands)
    (hmarked : ∀ i ∈ pc.hands, pc.unmarked ≠ some i → s.pc.unmarked ≠ some i)
    (hun : ∀ i, pc.unmarked = some i → s.pc.unmarked = some i) (hclearing : pc.clearing = none)
    (htested : ∀ d buf, pc = .mark d buf → s.grabbed d.buf.index = false)
    (hheld : ∀ hw, pc = .holding hw → (s.cap.run.hw hw).buf.index = hw) :
    RaceInv { s with pc := pc } where
  length := h.length
  nodup := h.nodup.sublist hhands
  hands i hi := h.hands i (hhands.mem hi)
  marked i hi hu := h.marked i (hhands.mem hi) (hmarked i hi hu)
  queued := h.queued
  custody := h.custody
  room := h.room
  releasing := h.releasing
  clearing b hb := by
    rw [hclearing] at hb
    exact absurd hb (by simp)
  stale b hg hb := by
    rcases h.stale b hg (hb.imp_right (hun b)) with hc | hc
    · exact Or.inl hc
    · rw [hsc] at hc
      exact absurd hc (by simp)
  tested := htested
  held := hheld

/-- The exits that close the device. -/
theorem closing (h : RaceInv s) (hsc : s.pc.clearing = none) : RaceInv { s with pc := .closing } :=
  h.advance hsc (List.nil_sublist _) (fun i hi => absurd hi (by simp [RacePc.hands]))
    (fun i hi => absurd hi (by simp [RacePc.unmarked])) rfl (by simp) (by simp)

theorem waitBuffer (h : RaceInv s) {sel : Selected} (hst : raceWaitBuffer s sel = some s') :
    RaceInv s' := by
  unfold raceWaitBuffer at hst
  split at hst
  · rename_i hpc
    have hsc : s.pc.clearing = none := by rw [hpc]; rfl
    split at hst
    · obtain rfl := Option.some.inj hst
      exact h.closing hsc
    · obtain rfl := Option.some.inj hst
      exact h.advance hsc (List.nil_sublist _)
        (fun i hi => absurd hi (by simp [RacePc.hands, RacePc.indices]))
        (fun i hi => absurd hi (by simp [RacePc.unmarked])) rfl (by simp) (by simp)
  · exact absurd hst (by simp)

/-- **The driver delivers a buffer that is queued in it.** -/
theorem dqbuf (h : RaceInv s) {d : Dequeued} (hst : raceDqbuf s d = some s') : RaceInv s' := by
  unfold raceDqbuf at hst
  split at hst
  · rename_i buf broken hpc
    have hsc : s.pc.clearing = none := by rw [hpc]; rfl
    have hun : s.pc.unmarked = none := by rw [hpc]; rfl
    have hhands : s.pc.hands = RacePc.indices buf := by rw [hpc]; rfl
    split at hst
    · rename_i hq
      obtain ⟨hlt, hcust⟩ := h.queued _ hq
      rw [if_neg (by exact Nat.not_le.mpr hlt)] at hst
      obtain rfl := Option.some.inj hst
      have hnew : d.buf.index ∉ s.pc.hands := fun hm => (h.hands _ hm).2.1 hq
      constructor
      case length => exact h.length
      case nodup =>
        rw [hhands] at hnew
        exact List.nodup_cons.mpr ⟨hnew, hhands ▸ h.nodup⟩
      case hands =>
        intro i hi
        rcases List.mem_cons.mp hi with rfl | hi
        · exact ⟨hlt, Finset.notMem_erase _ _, hcust⟩
        · obtain ⟨h1, h2, h3⟩ := h.hands i (hhands ▸ hi)
          exact ⟨h1, fun hm => h2 (Finset.mem_of_mem_erase hm), h3⟩
      case marked =>
        intro i hi hu
        rcases List.mem_cons.mp hi with rfl | hi
        · exact absurd rfl hu
        · refine h.marked i (hhands ▸ hi) ?_
          rw [hun]
          simp
      case queued =>
        intro i hi
        exact h.queued i (Finset.mem_of_mem_erase hi)
      case custody => exact h.custody
      case room => exact h.room
      case releasing => exact h.releasing
      case clearing => simp [RacePc.clearing]
      case stale =>
        intro b hg hb
        have hbq : b ∈ s.queued := by
          rcases hb with hb | hb
          · exact Finset.mem_of_mem_erase hb
          · exact Option.some.inj hb ▸ hq
        rcases h.stale b hg (Or.inl hbq) with hc | hc
        · exact Or.inl hc
        · rw [hsc] at hc
          exact absurd hc (by simp)
      case tested => simp
      case held => simp
    · exact absurd hst (by simp)
  · exact absurd hst (by simp)

/-- A write to the device that leaves the flags alone. -/
theorem device (h : RaceInv s) {run : UsCaptureRuntime} (hn : run.nBufs = s.cap.run.nBufs)
    (hl : run.bufs.length = s.cap.run.bufs.length)
    (hg : ∀ i, (run.hw i).grabbed = (s.cap.run.hw i).grabbed)
    (hcust : ∀ b, (s.releasers b).custody = [b] → (run.hw b).buf = (s.cap.run.hw b).buf)
    (hheld : ∀ hw, s.pc = .holding hw → (run.hw hw).buf.index = hw) : RaceInv (s.setRun run) where
  length := hl.trans (h.length.trans hn.symm)
  nodup := h.nodup
  hands i hi := by
    obtain ⟨h1, h2⟩ := h.hands i hi
    exact ⟨hn.symm ▸ h1, h2⟩
  marked i hi hu := by
    obtain ⟨h1, h2⟩ := h.marked i hi hu
    exact ⟨(hg i).trans h1, h2⟩
  queued i hi := by
    obtain ⟨h1, h2⟩ := h.queued i hi
    exact ⟨hn.symm ▸ h1, h2⟩
  custody b := by
    rcases h.custody b with h0 | ⟨h1, h2, h3, h4⟩
    · exact Or.inl h0
    · refine Or.inr ⟨h1, hn.symm ▸ h2, ?_, (hg b).trans h4⟩
      exact (congrArg V4l2Buffer.index (hcust b h1)).trans h3
  room := h.room
  releasing b hw hb := by
    obtain ⟨h1, h2, h3, h4⟩ := h.releasing b hw hb
    exact ⟨h1, hn.symm ▸ h2, (hg b).trans h3, h4⟩
  clearing := h.clearing
  stale b hb := h.stale b ((hg b).symm.trans hb)
  tested d buf hpc := (hg _).trans (h.tested d buf hpc)
  held := hheld

/-- The grab returns the buffer. -/
theorem grabbedBuf (h : RaceInv s) {buf : V4l2Buffer} {broken : Bool}
    (hpc : s.pc = .dqbuf (some buf) broken) :
    RaceInv { s.setRun (handOver s.cap.run buf) with pc := .holding buf.index } := by
  have hhands : s.pc.hands = [buf.index] := by rw [hpc]; rfl
  have hun : s.pc.unmarked = none := by rw [hpc]; rfl
  obtain ⟨hlt, -, hcust⟩ := h.hands buf.index (hhands ▸ List.mem_singleton_self _)
  have hself : ((handOver s.cap.run buf).hw buf.index).buf = buf :=
    congrArg UsCaptureHwbuf.buf (UsCaptureRuntime.hw_modifyHw_self _ (h.length ▸ hlt))
  have hdev : RaceInv (s.setRun (handOver s.cap.run buf)) := by
    refine h.device rfl (s.cap.run.length_bufs_modifyHw _ _)
      (s.cap.run.hw_modifyHw_field (·.grabbed) _ _ fun _ => rfl) (fun b hb => ?_) ?_
    · have hne : buf.index ≠ b := by
        rintro rfl
        rw [hcust] at hb
        exact absurd hb (by simp)
      exact congrArg UsCaptureHwbuf.buf (UsCaptureRuntime.hw_modifyHw_of_ne _ hne)
    · rw [hpc]
      simp
  refine hdev.advance (congrArg RacePc.clearing hpc) ?_ ?_ (by simp [RacePc.unmarked]) rfl
    (by simp) ?_
  · rw [RaceState.setRun, hhands]
    exact List.Sublist.refl _
  · intro i _ _
    rw [RaceState.setRun, hun]
    simp
  · intro hw hh
    obtain rfl := RacePc.holding.inj hh
    exact congrArg V4l2Buffer.index hself

theorem dqbufFails (h : RaceInv s) {errno : DqErrno} (hst : raceDqbufFails s errno = some s') :
    RaceInv s' := by
  unfold raceDqbufFails at hst
  split at hst
  · rename_i buf broken hpc
    have hsc : s.pc.clearing = none := by rw [hpc]; rfl
    cases errno with
    | other =>
      obtain rfl := Option.some.inj hst
      exact h.closing hsc
    | again =>
      rcases buf with _ | buf
      · cases broken with
        | false =>
          obtain rfl := Option.some.inj hst
          exact h.closing hsc
        | true =>
          obtain rfl := Option.some.inj hst
          exact h.advance hsc (List.nil_sublist _) (fun i hi => absurd hi (by simp [RacePc.hands]))
            (by simp [RacePc.unmarked]) rfl (by simp) (by simp)
      · obtain rfl := Option.some.inj hst
        exact h.grabbedBuf hpc
  · exact absurd hst (by simp)

theorem test (h : RaceInv s) (hst : raceTest s = some s') : RaceInv s' := by
  unfold raceTest at hst
  split at hst
  · rename_i d buf hpc
    have hsc : s.pc.clearing = none := by rw [hpc]; rfl
    split at hst
    · obtain rfl := Option.some.inj hst
      exact h.advance hsc (List.nil_sublist _) (fun i hi => absurd hi (by simp [RacePc.hands]))
        (by simp [RacePc.unmarked]) rfl (by simp) (by simp)
    · rename_i hg
      obtain rfl := Option.some.inj hst
      refine h.advance hsc ?_ ?_ ?_ rfl ?_ (by simp)
      · rw [hpc]
        exact List.Sublist.refl _
      · intro i _ hu
        rw [hpc]
        exact hu
      · intro i hu
        rw [hpc]
        exact hu
      · intro d' buf' he
        obtain ⟨rfl, rfl⟩ := RacePc.mark.inj he
        exact Bool.eq_false_iff.mpr hg
  · exact absurd hst (by simp)

/-- **The loop sets the flag of the buffer it has found unused.** -/
theorem mark (h : RaceInv s) (hst : raceMark s = some s') : RaceInv s' := by
  unfold raceMark at hst
  split at hst
  · rename_i d buf hpc
    obtain rfl := Option.some.inj hst
    have hsc : s.pc.clearing = none := by rw [hpc]; rfl
    have hun : s.pc.unmarked = some d.buf.index := by rw [hpc]; rfl
    have hhands : s.pc.hands = (RacePc.judge d buf).hands := by rw [hpc]; rfl
    have hfree := h.tested d buf hpc
    obtain ⟨hlt, hnq, hcust⟩ := h.hands d.buf.index (hhands ▸ List.mem_cons_self)
    have hg := s.grabbed_setGrabbed (h.length ▸ hlt) true
    have hne : ∀ b, s.grabbed b = true → b ≠ d.buf.index := by
      rintro b hb rfl
      rw [hfree] at hb
      exact absurd hb (by simp)
    have hkeep : ∀ b, s.grabbed b = true → (s.setGrabbed d.buf.index true).grabbed b = true :=
      fun b hb => (s.grabbed_setGrabbed_of_ne true (hne b hb)).trans hb
    constructor
    case length => exact (s.length_setGrabbed _ _).trans h.length
    case nodup => exact hhands ▸ h.nodup
    case hands => exact fun i hi => h.hands i (hhands ▸ hi)
    case marked =>
      intro i hi _
      by_cases hi' : i = d.buf.index
      · subst hi'
        refine ⟨(hg _).trans (if_pos rfl), fun hc => ?_⟩
        exact hne _ (h.releasing _ _ hc).2.2.1 rfl
      · have hold : s.pc.unmarked ≠ some i := by
          rw [hun]
          exact fun he => hi' (Option.some.inj he).symm
        obtain ⟨h1, h2⟩ := h.marked i (hhands ▸ hi) hold
        exact ⟨hkeep i h1, h2⟩
    case queued => exact h.queued
    case custody => exact fun b => RaceState.Custody.setGrabbed (h.custody b) fun _ => hkeep b
    case room => exact h.room
    case releasing =>
      exact fun b => RaceState.Releasing.setGrabbed (h.releasing b) fun _ => hkeep b
    case clearing => simp [RacePc.clearing]
    case stale =>
      intro b hb hq
      rcases hq with hq | hq
      · have hbi : b ≠ d.buf.index := fun he => hnq (he ▸ hq)
        have hold : s.grabbed b = true := by
          have := hg b
          rw [if_neg hbi] at this
          exact this.symm.trans hb
        rcases h.stale b hold (Or.inl hq) with hc | hc
        · exact Or.inl hc
        · rw [hsc] at hc
          exact absurd hc (by simp)
      · exact absurd hq (by simp [RacePc.unmarked])
    case tested => simp
    case held => simp
  · exact absurd hst (by simp)

/-- `new` has the index the driver delivered. -/
theorem index_new (d : Dequeued) (captureMplane : Bool) :
    (d.new captureMplane).index = d.buf.index := by
  unfold Dequeued.new
  split <;> rfl

theorem judge (h : RaceInv s) (hst : raceJudge s = some s') : RaceInv s' := by
  unfold raceJudge at hst
  split at hst
  · rename_i d buf hpc
    have hsc : s.pc.clearing = none := by rw [hpc]; rfl
    have hun : s.pc.unmarked = none := by rw [hpc]; rfl
    have hindex := index_new d s.cap.run.captureMplane
    have hnext : ∀ pc : RacePc, pc.hands = s.pc.hands → pc.unmarked = none → pc.clearing = none →
        (∀ d buf, pc ≠ .mark d buf) → (∀ hw, pc ≠ .holding hw) → RaceInv { s with pc := pc } := by
      intro pc hhands hunm hcl hmark hhold
      refine h.advance hsc ?_ ?_ ?_ hcl (fun d buf he => absurd he (hmark d buf))
        fun hw he => absurd he (hhold hw)
      · exact hhands ▸ List.Sublist.refl _
      · intro i _ _
        rw [hun]
        simp
      · intro i hi
        rw [hunm] at hi
        exact absurd hi (by simp)
    dsimp only at hst
    split at hst
    · obtain rfl := Option.some.inj hst
      refine hnext _ ?_ rfl rfl (by simp) (by simp)
      rw [hpc, RacePc.hands, RacePc.hands, hindex]
    · rcases buf with _ | old
      · obtain rfl := Option.some.inj hst
        refine hnext _ ?_ rfl rfl (by simp) (by simp)
        rw [hpc, RacePc.hands, RacePc.hands, RacePc.indices, RacePc.indices, hindex]
      · obtain rfl := Option.some.inj hst
        refine hnext _ ?_ rfl rfl (by simp) (by simp)
        rw [hpc, RacePc.hands, RacePc.hands, RacePc.indices, hindex]
  · exact absurd hst (by simp)

/-- **The loop requeues a buffer** that it has, and has its flag still to clear. -/
theorem giveBack (h : RaceInv s) (hun : s.pc.unmarked = none) (hsc : s.pc.clearing = none)
    {pc : RacePc}
    {i : Nat} (hperm : s.pc.hands.Perm (i :: pc.hands)) (hunm : pc.unmarked = none)
    (hcl : pc.clearing = some i) (hmark : ∀ d buf, pc ≠ .mark d buf)
    (hhold : ∀ hw, pc ≠ .holding hw) :
    RaceInv { s with queued := insert i s.queued, pc := pc } := by
  have hmem : ∀ j, j ∈ s.pc.hands ↔ j = i ∨ j ∈ pc.hands := fun j =>
    hperm.mem_iff.trans List.mem_cons
  obtain ⟨hnew, hnodup⟩ := List.nodup_cons.mp (hperm.nodup_iff.mp h.nodup)
  obtain ⟨hlt, hnq, hcust⟩ := h.hands i ((hmem i).mpr (Or.inl rfl))
  have hmarked : ∀ j ∈ s.pc.hands, s.grabbed j = true ∧ ¬ s.clears j := by
    intro j hj
    refine h.marked j hj ?_
    rw [hun]
    simp
  constructor
  case length => exact h.length
  case nodup => exact hnodup
  case hands =>
    intro j hj
    obtain ⟨h1, h2, h3⟩ := h.hands j ((hmem j).mpr (Or.inr hj))
    refine ⟨h1, fun hq => ?_, h3⟩
    rcases Finset.mem_insert.mp hq with rfl | hq
    · exact hnew hj
    · exact h2 hq
  case marked => exact fun j hj _ => hmarked j ((hmem j).mpr (Or.inr hj))
  case queued =>
    intro j hj
    rcases Finset.mem_insert.mp hj with rfl | hj
    · exact ⟨hlt, hcust⟩
    · exact h.queued j hj
  case custody => exact h.custody
  case room => exact h.room
  case releasing => exact h.releasing
  case clearing =>
    intro b hb
    obtain rfl := Option.some.inj (hcl.symm.trans hb)
    exact ⟨Finset.mem_insert_self _ _, (hmarked i ((hmem i).mpr (Or.inl rfl))).2⟩
  case stale =>
    intro b hg hb
    rcases hb with hb | hb
    · rcases Finset.mem_insert.mp hb with rfl | hb
      · exact Or.inr hcl
      · rcases h.stale b hg (Or.inl hb) with hc | hc
        · exact Or.inl hc
        · rw [hsc] at hc
          exact absurd hc (by simp)
    · rw [hunm] at hb
      exact absurd hb (by simp)
  case tested => exact fun d buf he => absurd he (hmark d buf)
  case held => exact fun hw he => absurd he (hhold hw)

theorem requeue (h : RaceInv s) {qbufOk : Bool} (hst : raceRequeue s qbufOk = some s') :
    RaceInv s' := by
  unfold raceRequeue at hst
  split at hst
  · rename_i new buf hpc
    have hsc : s.pc.clearing = none := by rw [hpc]; rfl
    split at hst
    · obtain rfl := Option.some.inj hst
      exact h.closing hsc
    · obtain rfl := Option.some.inj hst
      refine h.giveBack (by rw [hpc]; rfl) hsc ?_ rfl rfl (by simp) (by simp)
      rw [hpc]
      exact List.Perm.refl _
  · rename_i new old hpc
    have hsc : s.pc.clearing = none := by rw [hpc]; rfl
    split at hst
    · obtain rfl := Option.some.inj hst
      exact h.closing hsc
    · obtain rfl := Option.some.inj hst
      refine h.giveBack (by rw [hpc]; rfl) hsc ?_ rfl rfl (by simp) (by simp)
      rw [hpc]
      exact List.Perm.swap _ _ _
  · exact absurd hst (by simp)

/-- **The loop clears the flag of a buffer it has requeued**, which nobody else has by then. -/
theorem unmark (h : RaceInv s) (hun : s.pc.unmarked = none) {i : Nat} (hsc : s.pc.clearing = some i)
    {pc : RacePc} (hhands : pc.hands = s.pc.hands) (hunm : pc.unmarked = none)
    (hcl : pc.clearing = none) (hmark : ∀ d buf, pc ≠ .mark d buf)
    (hhold : ∀ hw, pc ≠ .holding hw) : RaceInv { s.setGrabbed i false with pc := pc } := by
  obtain ⟨hq, hnc⟩ := h.clearing i hsc
  obtain ⟨hlt, hcust⟩ := h.queued i hq
  have hg := s.grabbed_setGrabbed (h.length ▸ hlt) false
  have hkeep : ∀ b, b ≠ i → s.grabbed b = true → (s.setGrabbed i false).grabbed b = true :=
    fun b hb hgb => (s.grabbed_setGrabbed_of_ne false hb).trans hgb
  constructor
  case length => exact (s.length_setGrabbed _ _).trans h.length
  case nodup => exact hhands ▸ h.nodup
  case hands => exact fun j hj => h.hands j (hhands ▸ hj)
  case marked =>
    intro j hj _
    have hj' := hhands ▸ hj
    have hne : j ≠ i := fun he => (h.hands j hj').2.1 (he ▸ hq)
    have hold : s.pc.unmarked ≠ some j := by
      rw [hun]
      simp
    obtain ⟨h1, h2⟩ := h.marked j hj' hold
    exact ⟨hkeep j hne h1, h2⟩
  case queued => exact h.queued
  case custody =>
    intro b
    refine RaceState.Custody.setGrabbed (h.custody b)
      fun (h1 : (s.releasers b).custody = [b]) => hkeep b ?_
    rintro rfl
    rw [hcust] at h1
    exact absurd h1 (by simp)
  case room => exact h.room
  case releasing =>
    refine fun b => RaceState.Releasing.setGrabbed (h.releasing b) fun hb => hkeep b ?_
    exact fun he => hnc (he ▸ hb)
  case clearing =>
    intro b hb
    rw [hcl] at hb
    exact absurd hb (by simp)
  case stale =>
    intro b hgb hb
    have hgb' : (if b = i then false else s.grabbed b) = true := (hg b).symm.trans hgb
    split at hgb'
    · exact absurd hgb' (by simp)
    · rename_i hne
      rcases hb with hb | hb
      · rcases h.stale b hgb' (Or.inl hb) with hc | hc
        · exact Or.inl hc
        · exact absurd (Option.some.inj (hsc.symm.trans hc)).symm hne
      · rw [hunm] at hb
        exact absurd hb (by simp)
  case tested => exact fun d buf he => absurd he (hmark d buf)
  case held => exact fun hw he => absurd he (hhold hw)

theorem clear (h : RaceInv s) (hst : raceClear s = some s') : RaceInv s' := by
  unfold raceClear at hst
  split at hst
  · rename_i new buf hpc
    obtain rfl := Option.some.inj hst
    exact h.unmark (by rw [hpc]; rfl) (by rw [hpc]; rfl) (by rw [hpc]; rfl) rfl rfl (by simp)
      (by simp)
  · rename_i new old hpc
    obtain rfl := Option.some.inj hst
    exact h.unmark (by rw [hpc]; rfl) (by rw [hpc]; rfl) (by rw [hpc]; rfl) rfl rfl (by simp)
      (by simp)
  · exact absurd hst (by simp)

/-! ## 5. Steps of the releasers -/

/-- What `setReleaser` leaves of a property of all releasers. -/
theorem forall_releasers {b : Nat} {r : Releaser} {P : Nat → Releaser → Prop} (hb : P b r)
    (hne : ∀ j, j ≠ b → P j (s.releasers j)) : ∀ j, P j ((s.setReleaser b r).releasers j) :=
  (Function.forall_update_iff s.releasers P).mpr ⟨hb, hne⟩

/-- A releaser that takes nothing keeps nothing but what it had. -/
theorem custody_setReleaser {b : Nat} {r : Releaser}
    (hr : (s.releasers b).custody = [] → r.custody = []) : ∀ j, (s.releasers j).custody = [] →
      ((s.setReleaser b r).releasers j).custody = [] :=
  forall_releasers (P := fun j r => (s.releasers j).custody = [] → r.custody = []) hr
    fun _ _ h0 => h0

/-- A step of a releaser that is not about to clear a flag, before it or after it. -/
theorem releaser (h : RaceInv s) {b : Nat} {r : Releaser} (threadsStop : Bool)
    (hcust : r.custody = (s.releasers b).custody ∨ r.custody = [])
    (hcap : r.queue.capacity = (s.releasers b).queue.capacity)
    (hold : ∀ hw, (s.releasers b).pc ≠ .clear hw) (hnew : ∀ hw, r.pc ≠ .clear hw) :
    RaceInv { s.setReleaser b r with threadsStop := threadsStop } := by
  have hempty := custody_setReleaser fun h0 => hcust.elim (·.trans h0) id
  have hclears : ∀ j, (s.setReleaser b r).clears j ↔ s.clears j := by
    refine forall_releasers (P := fun j r => r.pc = .clear j ↔ s.clears j) ?_ fun _ _ => Iff.rfl
    exact ⟨fun he => absurd he (hnew b), fun he => absurd he (hold b)⟩
  constructor
  case length => exact h.length
  case nodup => exact h.nodup
  case hands =>
    intro i hi
    obtain ⟨h1, h2, h3⟩ := h.hands i hi
    exact ⟨h1, h2, hempty i h3⟩
  case marked =>
    intro i hi hu
    obtain ⟨h1, h2⟩ := h.marked i hi hu
    exact ⟨h1, fun hc => h2 ((hclears i).mp hc)⟩
  case queued =>
    intro i hi
    obtain ⟨h1, h2⟩ := h.queued i hi
    exact ⟨h1, hempty i h2⟩
  case custody =>
    refine forall_releasers (P := s.Custody) ?_ fun j _ => h.custody j
    rcases hcust with hsame | h0
    · rw [RaceState.Custody, hsame]
      exact h.custody b
    · exact Or.inl h0
  case room =>
    exact forall_releasers (P := fun _ r => r.queue.capacity = 1) (hcap.trans (h.room b))
      fun j _ => h.room j
  case releasing =>
    exact forall_releasers (P := s.Releasing) (fun hw he => absurd he (hnew hw))
      fun j _ => h.releasing j
  case clearing =>
    intro i hi
    obtain ⟨h1, h2⟩ := h.clearing i hi
    exact ⟨h1, fun hc => h2 ((hclears i).mp hc)⟩
  case stale =>
    intro i hg hi
    exact (h.stale i hg hi).imp_left (hclears i).mpr
  case tested => exact h.tested
  case held => exact h.held

/-- **The loop hands the buffer to its releaser**, which has nothing. -/
theorem plan (h : RaceInv s) (hst : racePlan s = some s') : RaceInv s' := by
  unfold racePlan at hst
  split at hst
  · rename_i hw hpc
    obtain rfl := Option.some.inj hst
    rw [h.held hw hpc]
    have hsc : s.pc.clearing = none := by rw [hpc]; rfl
    have hun : s.pc.unmarked ≠ some hw := by rw [hpc]; simp [RacePc.unmarked]
    have hmem : hw ∈ s.pc.hands := by rw [hpc]; exact List.mem_singleton_self _
    obtain ⟨hlt, hnq, hcust⟩ := h.hands hw hmem
    obtain ⟨hg, hnc⟩ := h.marked hw hmem hun
    have hnil : (s.releasers hw).queue.toList = [] := (List.append_eq_nil_iff.mp hcust).1
    obtain ⟨q, hput⟩ := Queue.put_of_lt (q := (s.releasers hw).queue)
      (by rw [hnil, h.room hw]; exact Nat.one_pos) hw
    have hq : putIgnored (s.releasers hw).queue hw = q := by
      rw [putIgnored, hput, Option.getD_some]
    rw [hq]
    have hnew : Releaser.custody { s.releasers hw with queue := q } = [hw] := by
      have hcat : q.toList = [hw] := by rw [Queue.toList_put hput, hnil, List.nil_append]
      unfold Releaser.custody
      rw [hcat]
      exact congrArg ([hw] ++ ·) (List.append_eq_nil_iff.mp hcust).2
    have hothers : ∀ j, j ≠ hw → (s.setReleaser hw { s.releasers hw with queue := q }).releasers j
        = s.releasers j := by
      intro j hj
      rw [RaceState.releasers_setReleaser, if_neg hj]
    have hclears : ∀ j, (s.setReleaser hw { s.releasers hw with queue := q }).clears j ↔
        s.clears j :=
      forall_releasers (P := fun j r => r.pc = .clear j ↔ s.clears j) Iff.rfl fun _ _ => Iff.rfl
    constructor
    case length => exact h.length
    case nodup => exact List.nodup_nil
    case hands => simp [RacePc.hands]
    case marked => simp [RacePc.hands]
    case queued =>
      intro i hi
      obtain ⟨h1, h2⟩ := h.queued i hi
      exact ⟨h1, (congrArg Releaser.custody (hothers i fun he => hnq (he ▸ hi))).trans h2⟩
    case custody =>
      exact forall_releasers (P := s.Custody) (Or.inr ⟨hnew, hlt, h.held hw hpc, hg⟩)
        fun j _ => h.custody j
    case room =>
      exact forall_releasers (P := fun _ r => r.queue.capacity = 1)
        ((Queue.capacity_put hput).trans (h.room hw)) fun j _ => h.room j
    case releasing =>
      refine forall_releasers (P := s.Releasing) ?_ fun j _ => h.releasing j
      intro hw' he
      obtain ⟨rfl, -⟩ := h.releasing hw hw' he
      exact absurd he hnc
    case clearing => simp [RacePc.clearing]
    case stale =>
      intro i hgi hi
      rcases hi with hi | hi
      · rcases h.stale i hgi (Or.inl hi) with hc | hc
        · exact Or.inl ((hclears i).mpr hc)
        · rw [hsc] at hc
          exact absurd hc (by simp)
      · exact absurd hi (by simp [RacePc.unmarked])
    case tested => simp
    case held => simp
  · exact absurd hst (by simp)

theorem relEnter (h : RaceInv s) {b : Nat} (hst : raceRelEnter s b (s.releasers b) = some s') :
    RaceInv s' := by
  unfold raceRelEnter at hst
  split at hst
  · rename_i hpc
    obtain rfl := Option.some.inj hst
    refine h.releaser s.threadsStop (Or.inl ?_) rfl (by rw [hpc]; simp) ?_
    · unfold Releaser.custody
      rw [hpc]
      split <;> rfl
    · intro hw
      dsimp only
      split <;> simp
  · exact absurd hst (by simp)

theorem relTimeout (h : RaceInv s) {b : Nat} (hst : raceRelTimeout s b (s.releasers b) = some s') :
    RaceInv s' := by
  unfold raceRelTimeout at hst
  split at hst
  · rename_i hpc
    obtain rfl := Option.some.inj hst
    refine h.releaser s.threadsStop (Or.inl ?_) rfl (by rw [hpc]; simp) (by simp)
    unfold Releaser.custody
    rw [hpc]
  · exact absurd hst (by simp)

theorem relGet (h : RaceInv s) {b : Nat} (hst : raceRelGet s b (s.releasers b) = some s') :
    RaceInv s' := by
  unfold raceRelGet at hst
  split at hst
  · rename_i hw q hpc hget
    obtain rfl := Option.some.inj hst
    refine h.releaser s.threadsStop (Or.inl ?_) (Queue.capacity_get hget) (by rw [hpc]; simp)
      (by simp)
    exact Releaser.custody_get ((h.custody b).imp_right And.left) hpc hget
  · exact absurd hst (by simp)

theorem relPoll (h : RaceInv s) {b : Nat} (hst : raceRelPoll s b (s.releasers b) = some s') :
    RaceInv s' := by
  unfold raceRelPoll at hst
  split at hst
  · rename_i hw hpc
    obtain ⟨-, hnil, -⟩ := Releaser.custody_hand ((h.custody b).imp_right And.left) (Or.inl hpc)
    have hold : ∀ hw, (s.releasers b).pc ≠ .clear hw := by rw [hpc]; simp
    split at hst
    · split at hst
      · obtain rfl := Option.some.inj hst
        refine h.releaser s.threadsStop (Or.inr ?_) rfl hold (by simp)
        simp only [Releaser.custody, hnil, List.append_nil]
      · obtain rfl := Option.some.inj hst
        exact h
    · obtain rfl := Option.some.inj hst
      refine h.releaser s.threadsStop (Or.inl ?_) rfl hold (by simp)
      simp only [Releaser.custody, hpc]
  · exact absurd hst (by simp)

/-- **A releaser gives its buffer back**, and has its flag still to clear. -/
theorem relQbuf (h : RaceInv s) {b : Nat} {qbufOk : Bool}
    (hst : raceRelQbuf s b (s.releasers b) qbufOk = some s') : RaceInv s' := by
  unfold raceRelQbuf at hst
  split at hst
  · rename_i hw hpc
    obtain ⟨rfl, hnil, hone⟩ :=
      Releaser.custody_hand ((h.custody b).imp_right And.left) (Or.inr hpc)
    have hold : ∀ j, (s.releasers hw).pc ≠ .clear j := by rw [hpc]; simp
    split at hst
    · exact absurd hst (by simp)
    split at hst
    · obtain rfl := Option.some.inj hst
      refine h.releaser true (Or.inr ?_) rfl hold (by simp)
      simp only [Releaser.custody, hnil, List.append_nil]
    · obtain rfl := Option.some.inj hst
      obtain ⟨hlt, hidx, hg⟩ : hw < s.cap.run.nBufs ∧ (s.cap.run.hw hw).buf.index = hw ∧
          s.grabbed hw = true := by
        rcases h.custody hw with h0 | ⟨-, h1⟩
        · rw [hone] at h0
          exact absurd h0 (by simp)
        · exact h1
      rw [hidx]
      have hnew : Releaser.custody { s.releasers hw with pc := .clear hw } = [] := by
        simp only [Releaser.custody, hnil, List.append_nil]
      have hne : ∀ j, (s.releasers j).custody = [] → j ≠ hw := by
        rintro j h0 rfl
        rw [hone] at h0
        exact absurd h0 (by simp)
      have hempty := custody_setReleaser (s := s) (b := hw) fun _ => hnew
      have hclears : ∀ j, j ≠ hw →
          ((s.setReleaser hw { s.releasers hw with pc := .clear hw }).clears j ↔ s.clears j) :=
        forall_releasers (P := fun j r => j ≠ hw → (r.pc = .clear j ↔ s.clears j))
          (fun he => absurd rfl he) fun _ _ _ => Iff.rfl
      constructor
      case length => exact h.length
      case nodup => exact h.nodup
      case hands =>
        intro i hi
        obtain ⟨h1, h2, h3⟩ := h.hands i hi
        refine ⟨h1, fun hq => ?_, hempty i h3⟩
        rcases Finset.mem_insert.mp hq with he | hq
        · exact hne i h3 he
        · exact h2 hq
      case marked =>
        intro i hi hu
        obtain ⟨h1, h2⟩ := h.marked i hi hu
        exact ⟨h1, fun hc => h2 ((hclears i (hne i (h.hands i hi).2.2)).mp hc)⟩
      case queued =>
        intro i hi
        rcases Finset.mem_insert.mp hi with rfl | hi
        · refine ⟨hlt, ?_⟩
          rw [RaceState.releasers_setReleaser, if_pos rfl]
          exact hnew
        · obtain ⟨h1, h2⟩ := h.queued i hi
          exact ⟨h1, hempty i h2⟩
      case custody =>
        exact forall_releasers (P := s.Custody) (Or.inl hnew) fun j _ => h.custody j
      case room =>
        exact forall_releasers (P := fun _ r => r.queue.capacity = 1) (h.room hw)
          fun j _ => h.room j
      case releasing =>
        refine forall_releasers (P := s.Releasing) ?_ fun j _ => h.releasing j
        intro i he
        exact ⟨(ReleaserPc.clear.inj he).symm, hlt, hg, hnew⟩
      case clearing =>
        intro i hi
        obtain ⟨h1, h2⟩ := h.clearing i hi
        exact ⟨Finset.mem_insert_of_mem h1,
          fun hc => h2 ((hclears i (hne i (h.queued i h1).2)).mp hc)⟩
      case stale =>
        intro i hgi hi
        by_cases he : i = hw
        · subst he
          refine Or.inl ?_
          unfold RaceState.clears
          simp only [RaceState.setReleaser, Function.update_self]
        · rcases h.stale i hgi (hi.imp_left fun hm => (Finset.mem_insert.mp hm).resolve_left he)
            with hc | hc
          · exact Or.inl ((hclears i he).mpr hc)
          · exact Or.inr hc
      case tested => exact h.tested
      case held => exact h.held
  · exact absurd hst (by simp)

/-- **A releaser clears the flag of a buffer that nobody has marked.** -/
theorem relClear (h : RaceInv s) {b : Nat} (hst : raceRelClear s b (s.releasers b) = some s') :
    RaceInv s' := by
  unfold raceRelClear at hst
  split at hst
  · rename_i hw hpc
    obtain rfl := Option.some.inj hst
    obtain ⟨rfl, hlt, -, hnil⟩ := h.releasing b hw hpc
    have hclr : s.clears hw := hpc
    have hg := s.grabbed_setGrabbed (h.length ▸ hlt) false
    have hkeep : ∀ j, j ≠ hw → s.grabbed j = true → (s.setGrabbed hw false).grabbed j = true :=
      fun j hj hgj => (s.grabbed_setGrabbed_of_ne false hj).trans hgj
    have hnew : Releaser.custody { s.releasers hw with pc := .top } = [] := by
      have hq := (List.append_eq_nil_iff.mp hnil).1
      simp only [Releaser.custody, hq, List.append_nil]
    have hempty := custody_setReleaser (s := s.setGrabbed hw false) (b := hw) fun _ => hnew
    have hclears : ∀ j, ((s.setGrabbed hw false).setReleaser hw
        { s.releasers hw with pc := .top }).clears j ↔ j ≠ hw ∧ s.clears j := by
      refine forall_releasers (P := fun j r => r.pc = .clear j ↔ j ≠ hw ∧ s.clears j) (by simp)
        fun j hj => ?_
      exact ⟨fun hc => ⟨hj, hc⟩, And.right⟩
    constructor
    case length => exact (s.length_setGrabbed _ _).trans h.length
    case nodup => exact h.nodup
    case hands =>
      intro i hi
      obtain ⟨h1, h2, h3⟩ := h.hands i hi
      exact ⟨h1, h2, hempty i h3⟩
    case marked =>
      intro i hi hu
      obtain ⟨h1, h2⟩ := h.marked i hi hu
      have hne : i ≠ hw := fun he => h2 (he ▸ hclr)
      exact ⟨hkeep i hne h1, fun hc => h2 ((hclears i).mp hc).2⟩
    case queued =>
      intro i hi
      obtain ⟨h1, h2⟩ := h.queued i hi
      exact ⟨h1, hempty i h2⟩
    case custody =>
      exact forall_releasers (P := (s.setGrabbed hw false).Custody) (Or.inl hnew) fun j hj =>
        RaceState.Custody.setGrabbed (h.custody j) fun _ => hkeep j hj
    case room =>
      exact forall_releasers (P := fun _ r => r.queue.capacity = 1) (h.room hw)
        fun j _ => h.room j
    case releasing =>
      exact forall_releasers (P := (s.setGrabbed hw false).Releasing)
        (fun i he => absurd he (by simp)) fun j hj =>
          RaceState.Releasing.setGrabbed (h.releasing j) fun _ => hkeep j hj
    case clearing =>
      intro i hi
      obtain ⟨h1, h2⟩ := h.clearing i hi
      exact ⟨h1, fun hc => h2 ((hclears i).mp hc).2⟩
    case stale =>
      intro i hgi hi
      have hgi' : (if i = hw then false else s.grabbed i) = true := (hg i).symm.trans hgi
      split at hgi'
      · exact absurd hgi' (by simp)
      · rename_i hne
        exact (h.stale i hgi' hi).imp_left fun hc => (hclears i).mpr ⟨hne, hc⟩
    case tested =>
      intro d buf he
      have hold := h.tested d buf he
      refine (hg _).trans ?_
      split
      · rfl
      · exact hold
    case held =>
      intro i he
      exact (congrArg V4l2Buffer.index (s.buf_setGrabbed _ _ i)).trans (h.held i he)
  · exact absurd hst (by simp)

/-! ## 6. Runs -/

/-- One step keeps the invariant. -/
theorem step (h : RaceInv s) {a : RaceAct} (hst : raceStep s a = some s') : RaceInv s' := by
  have hrel : ∀ {b : Nat} {f : Releaser → Option RaceState},
      (f (s.releasers b) = some s' → RaceInv s') → onRaceReleaser s b f = some s' → RaceInv s' := by
    intro b f hf he
    unfold onRaceReleaser at he
    split at he
    · exact hf he
    · exact absurd he (by simp)
  cases a with
  | waitBuffer sel => exact h.waitBuffer hst
  | dqbuf d => exact h.dqbuf hst
  | dqbufFails errno => exact h.dqbufFails hst
  | test => exact h.test hst
  | mark => exact h.mark hst
  | judge => exact h.judge hst
  | requeue qbufOk => exact h.requeue hst
  | clear => exact h.clear hst
  | plan => exact h.plan hst
  | stop =>
    obtain rfl := Option.some.inj hst
    exact ⟨h.length, h.nodup, h.hands, h.marked, h.queued, h.custody, h.room, h.releasing,
      h.clearing, h.stale, h.tested, h.held⟩
  | refs hw n =>
    obtain rfl := Option.some.inj hst
    have hbuf := s.cap.run.hw_modifyHw_field (·.buf) hw (fun h => { h with refs := n }) fun _ => rfl
    refine h.device rfl (s.cap.run.length_bufs_modifyHw _ _)
      (s.cap.run.hw_modifyHw_field (·.grabbed) _ _ fun _ => rfl) (fun b _ => hbuf b) ?_
    intro i hpc
    exact (congrArg V4l2Buffer.index (hbuf i)).trans (h.held i hpc)
  | relEnter b => exact hrel h.relEnter hst
  | relTimeout b => exact hrel h.relTimeout hst
  | relGet b => exact hrel h.relGet hst
  | relPoll b => exact hrel h.relPoll hst
  | relQbuf b qbufOk => exact hrel (f := fun r => raceRelQbuf s b r qbufOk) h.relQbuf hst
  | relClear b => exact hrel h.relClear hst

end RaceInv

theorem raceInv_init {cap : UsCapture} (hlen : cap.run.bufs.length = cap.run.nBufs)
    (hgrabbed : ∀ i < cap.run.nBufs, (cap.run.hw i).grabbed = false) : RaceInv (raceInit cap) where
  length := hlen
  nodup := List.nodup_nil
  hands := by simp [raceInit, RacePc.hands]
  marked := by simp [raceInit, RacePc.hands]
  queued i hi := ⟨Finset.mem_range.mp hi, rfl⟩
  custody b := Or.inl rfl
  room b := rfl
  releasing := by simp [raceInit]
  clearing := by simp [raceInit, RacePc.clearing]
  stale b hg hb := by
    have hlt : b < cap.run.nBufs := by
      rcases hb with hb | hb
      · exact Finset.mem_range.mp hb
      · exact absurd hb (by simp [raceInit, RacePc.unmarked])
    exact absurd ((hgrabbed b hlt).symm.trans hg) (by simp)
  tested := by simp [raceInit]
  held := by simp [raceInit]

/-- **The invariant holds in every state of every run.** -/
theorem raceInv_of_reach {s : RaceState} (hr : raceSystem.Reach s) : RaceInv s := by
  refine System.ReachVia.inv ?_ ?_ hr
  · rintro s ⟨cap, hlen, hgrabbed, rfl⟩
    exact raceInv_init hlen hgrabbed
  · intro s s' a h _ hst
    exact h.step hst

/-! ## 7. The flag -/

/-- The buffer whose flag the loop is about to test. -/
def RacePc.testing : RacePc → Option Nat
  | .test d _ => some d.buf.index
  | _ => none

/-- The loop tests the flag of a buffer only when its releaser has cleared it. -/
def TestsAfterClear (s : RaceState) : RaceAct → Prop
  | .test => ∀ b ∈ s.pc.testing, (s.releasers b).pc ≠ .clear b
  | _ => True

instance (s : RaceState) : ∀ a, Decidable (TestsAfterClear s a)
  | .test => inferInstanceAs (Decidable (∀ b ∈ s.pc.testing, (s.releasers b).pc ≠ .clear b))
  | .waitBuffer _ | .dqbuf _ | .dqbufFails _ | .mark | .judge | .requeue _ | .clear | .plan
  | .stop | .refs _ _ | .relEnter _ | .relTimeout _ | .relGet _ | .relPoll _ | .relQbuf _ _
  | .relClear _ => inferInstanceAs (Decidable True)

/-- Only the test of a set flag leads to the exit "already used". -/
theorem RaceInv.used_of_step {s s' : RaceState} (h : RaceInv s) {a : RaceAct}
    (hst : raceStep s a = some s') {i : Nat} (hu : s'.pc = .used i) (hpc : s.pc ≠ .used i) :
    a = .test ∧ s.pc.testing = some i ∧ s.clears i := by
  cases a with
  | test =>
    simp only [raceStep, raceTest] at hst
    split at hst
    · rename_i d buf htest
      split at hst
      · rename_i hg
        obtain rfl := Option.some.inj hst
        obtain rfl := RacePc.used.inj hu
        exact ⟨rfl, by rw [htest]; rfl, (h.grabbed_iff htest).mp hg⟩
      · obtain rfl := Option.some.inj hst
        exact absurd hu (by simp)
    · exact absurd hst (by simp)
  | waitBuffer sel =>
    simp only [raceStep, raceWaitBuffer] at hst
    grind
  | dqbuf d =>
    simp only [raceStep, raceDqbuf] at hst
    grind
  | dqbufFails errno =>
    simp only [raceStep, raceDqbufFails] at hst
    grind
  | mark =>
    simp only [raceStep, raceMark] at hst
    grind
  | judge =>
    simp only [raceStep, raceJudge] at hst
    grind
  | requeue qbufOk =>
    simp only [raceStep, raceRequeue] at hst
    grind
  | clear =>
    simp only [raceStep, raceClear] at hst
    grind
  | plan =>
    simp only [raceStep, racePlan] at hst
    grind
  | stop =>
    simp only [raceStep] at hst
    grind
  | refs hw n =>
    simp only [raceStep, RaceState.setRun] at hst
    grind
  | relEnter b =>
    simp only [raceStep, onRaceReleaser, raceRelEnter, RaceState.setReleaser] at hst
    grind
  | relTimeout b =>
    simp only [raceStep, onRaceReleaser, raceRelTimeout, RaceState.setReleaser] at hst
    grind
  | relGet b =>
    simp only [raceStep, onRaceReleaser, raceRelGet, RaceState.setReleaser] at hst
    grind
  | relPoll b =>
    simp only [raceStep, onRaceReleaser, raceRelPoll, RaceState.setReleaser] at hst
    grind
  | relQbuf b qbufOk =>
    simp only [raceStep, onRaceReleaser, raceRelQbuf, RaceState.setReleaser] at hst
    grind
  | relClear b =>
    simp only [raceStep, onRaceReleaser, raceRelClear, RaceState.setReleaser,
      RaceState.setGrabbed, RaceState.setRun] at hst
    grind

/-- **The flag `grabbed` under concurrency.**

* When the loop tests the flag of a buffer that it has dequeued, the grab ends in "already used"
  exactly if the buffer's releaser has given it back and has not cleared its flag yet.
* The flag of a buffer in use is set, and no release that is under way is going to clear it.
* In a run whose tests all come after the releaser's clearing the grab never ends so. -/
theorem grabbed_flag_race (s : RaceState) :
    (raceSystem.Reach s →
      (∀ d buf, s.pc = .test d buf →
        (raceStep s .test = some { s with pc := .used d.buf.index } ↔ s.clears d.buf.index)) ∧
      ∀ b, s.inUse b → s.grabbed b = true ∧ ∀ r, (s.releasers r).pc ≠ .clear b) ∧
      (raceSystem.ReachVia TestsAfterClear s → ∀ i, s.pc ≠ .used i) := by
  constructor
  · intro hr
    have h := raceInv_of_reach hr
    constructor
    · intro d buf hpc
      rw [← h.grabbed_iff hpc]
      simp only [raceStep, raceTest, hpc]
      constructor
      · intro hst
        by_contra hg
        rw [if_neg hg] at hst
        exact absurd (congrArg RaceState.pc (Option.some.inj hst)) (by simp)
      · intro hg
        rw [if_pos hg]
    · intro b hb
      obtain ⟨hg, hnc⟩ := h.inUse hb
      refine ⟨hg, fun r hc => hnc ?_⟩
      obtain ⟨rfl, -⟩ := h.releasing r b hc
      exact hc
  · intro hr
    refine System.ReachVia.inv_of (I := fun s => ∀ i, s.pc ≠ .used i)
      (fun _ hr => raceInv_of_reach hr.reach) ?_ ?_ hr
    · rintro s ⟨cap, -, -, rfl⟩ i
      simp [raceInit]
    · intro s s' a h hused hok hst i hu
      obtain ⟨rfl, htest, hc⟩ := h.used_of_step hst hu (hused i)
      exact hok i htest hc

/-- One buffer, to begin with. -/
def oneBuffer : RaceState := raceInit (freshCapture 1)

theorem oneBuffer_start : raceSystem.start oneBuffer := ⟨freshCapture 1, by decide, by decide, rfl⟩

/-- The loop dequeues buffer 0. -/
def dequeueZero : List RaceAct :=
  [.waitBuffer ⟨1, false, none⟩, .dqbuf ⟨⟨0, 4096, [], 0, 0⟩, [], true⟩]

/-- The loop grabs buffer 0 and plans its release, and the releaser gives it back. -/
def grabAndGiveBack : List RaceAct :=
  dequeueZero ++ [RaceAct.test, .mark, .judge, .dqbufFails .again, .plan, .relEnter 0, .relGet 0,
    .relPoll 0, .relQbuf 0 true]

/-- The releaser clears the flag, the loop dequeues the buffer again, and has it. -/
theorem grabbed_flag_race_one :
    ∃ s : RaceState, s.inUse 0 ∧ s.grabbed 0 = true ∧ s.pc ≠ .used 0 := by
  have hrun : ((raceSystem.execVia TestsAfterClear oneBuffer
      (grabAndGiveBack ++ [RaceAct.relClear 0] ++ dequeueZero
        ++ [RaceAct.test, .mark])).any fun s =>
        decide (0 ∈ s.pc.hands ∧ s.pc.unmarked ≠ some 0)) = true := by decide +kernel
  obtain ⟨s, hexec, hs⟩ := (Option.any_eq_true _ _).mp hrun
  have hr := System.ReachVia.execVia _ (.start oneBuffer_start) hexec
  have huse : s.inUse 0 := Or.inl (of_decide_eq_true hs)
  exact ⟨s, huse, (((grabbed_flag_race s).1 hr.reach).2 0 huse).1, (grabbed_flag_race s).2 hr 0⟩

/-- The loop dequeues the buffer again before the releaser clears the flag: the grab fails, on a
driver that has delivered only what is queued in it. -/
theorem grab_finds_flag_of_release : ∃ s, raceSystem.Reach s ∧
    s.pc = .used 0 ∧ (s.releasers 0).pc = .clear 0 := by
  have hrun : ((raceSystem.exec oneBuffer
      (grabAndGiveBack ++ dequeueZero ++ [RaceAct.test])).any fun s =>
      decide (s.pc = .used 0 ∧ (s.releasers 0).pc = .clear 0)) = true := by decide +kernel
  obtain ⟨s, hexec, hs⟩ := (Option.any_eq_true _ _).mp hrun
  exact ⟨s, System.Reach.exec _ (.start oneBuffer_start) hexec, of_decide_eq_true hs⟩

end TinyPilotKvm
