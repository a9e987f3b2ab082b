/-
# Descriptor discipline over whole runs

A device is opened, closed and opened again, and between that its buffers are grabbed and
released.  `fdSystem` is that, for any answers of the device: nothing is assumed of the driver here,
not even that it delivers what is queued in it.

Two things are kept: the account of `Descriptors.lean` (`FdInv`), and that a buffer in the hands
of a caller says `raw.dma_fd = dma_fd` (`FdState.Inv`).  A grab copies the one into the other and
touches neither otherwise (`grab_fds`).
-/
import TinyPilotKvm.Libs.Capture.Descriptors

namespace TinyPilotKvm

/-! ## 1. What a grab does to the descriptors -/

/-- Nothing that concerns descriptors is different. -/
structure SameFds (run run' : UsCaptureRuntime) : Prop where
  fd : run'.fd = run.fd
  nBufs : run'.nBufs = run.nBufs
  length : run'.bufs.length = run.bufs.length
  dmaFd : ∀ j, (run'.hw j).dmaFd = (run.hw j).dmaFd
  rawFd : ∀ j, (run'.hw j).raw.dmaFd = (run.hw j).raw.dmaFd

theorem SameFds.refl (run : UsCaptureRuntime) : SameFds run run :=
  ⟨rfl, rfl, rfl, fun _ => rfl, fun _ => rfl⟩

/-- A write that leaves both descriptors of a buffer alone. -/
theorem SameFds.modify {run run' : UsCaptureRuntime} (h : SameFds run run') (i : Nat)
    {f : UsCaptureHwbuf → UsCaptureHwbuf} (hd : ∀ hw, (f hw).dmaFd = hw.dmaFd)
    (hr : ∀ hw, (f hw).raw.dmaFd = hw.raw.dmaFd) : SameFds run (run'.modifyHw i f) := by
  refine ⟨h.fd, h.nBufs, ?_, fun j => ?_, fun j => ?_⟩
  · rw [UsCaptureRuntime.length_bufs_modifyHw, h.length]
  · rw [UsCaptureRuntime.hw_modifyHw_field (·.dmaFd) run' i f hd, h.dmaFd j]
  · rw [UsCaptureRuntime.hw_modifyHw_field (·.raw.dmaFd) run' i f hr, h.rawFd j]

/-- The loop of a grab: no descriptor is different, and what is held is a buffer of the array. -/
structure LoopFds (run : UsCaptureRuntime) (s : GrabLoop) : Prop extends SameFds run s.run where
  held : ∀ b, s.buf = some b → b.index < run.nBufs

theorem grabTurn_loopFds (cap : UsCapture) {run : UsCaptureRuntime} {s : GrabLoop}
    (h : LoopFds run s) (d : Dequeued) : LoopFds run (grabTurn cap s d).state := by
  have hrun := h.toSameFds
  have hgrab := hrun.modify d.buf.index (f := fun hw =>
    { hw with grabbed := true, raw := { hw.raw with data := d.data } }) (fun _ => rfl) fun _ => rfl
  unfold grabTurn
  dsimp only
  split
  · exact ⟨hrun, h.held⟩
  · rename_i hlt
    have hnew : ∀ b, some (d.new cap.run.captureMplane) = some b → b.index < run.nBufs := by
      intro b hb
      obtain rfl := Option.some.inj hb
      rw [new_index, ← h.nBufs]
      exact Nat.not_le.mp hlt
    split
    · exact ⟨hrun, h.held⟩
    · split
      · split
        · exact ⟨hgrab, h.held⟩
        · exact ⟨hgrab.modify _ (fun _ => rfl) fun _ => rfl, h.held⟩
      · split
        · exact ⟨hgrab, hnew⟩
        · rename_i buf hb
          split
          · exact ⟨hgrab, h.held⟩
          · exact ⟨hgrab.modify _ (fun _ => rfl) fun _ => rfl, hnew⟩

/-- What a grab does to the descriptors: the buffer it returns gets its own as `raw.dma_fd`. -/
structure GrabFds (run : UsCaptureRuntime) (r : GrabResult) : Prop where
  fd : r.run.fd = run.fd
  nBufs : r.run.nBufs = run.nBufs
  length : r.run.bufs.length = run.bufs.length
  dmaFd : ∀ j, (r.run.hw j).dmaFd = (run.hw j).dmaFd
  rawFd_of_ne : ∀ j : Nat, r.ret ≠ j → (r.run.hw j).raw.dmaFd = (run.hw j).raw.dmaFd
  returned : ∀ j : Nat, r.ret = j → j < run.nBufs ∧
    (j < run.bufs.length → (r.run.hw j).raw.dmaFd = (run.hw j).dmaFd)

theorem grabFds_error {run run' : UsCaptureRuntime} (h : SameFds run run') {ret : Int}
    (hret : ret < 0) (queued : Finset Nat) : GrabFds run ⟨ret, run', queued⟩ :=
  ⟨h.fd, h.nBufs, h.length, h.dmaFd, fun j _ => h.rawFd j,
    fun j hj => by
      have : ret = j := hj
      omega⟩

theorem grabEnd_fds {run : UsCaptureRuntime} {s : GrabLoop} (h : LoopFds run s) (errno : DqErrno) :
    GrabFds run (grabEnd s errno) := by
  have hrun := h.toSameFds
  cases errno with
  | other => exact grabFds_error hrun (by decide) _
  | again =>
    cases hb : s.buf with
    | none =>
      cases hbr : s.broken with
      | true =>
        simp only [grabEnd, hb, hbr]
        exact grabFds_error hrun (by decide) _
      | false =>
        simp only [grabEnd, hb, hbr]
        exact grabFds_error hrun (by decide) _
    | some buf =>
      simp only [grabEnd, hb]
      refine ⟨h.fd, h.nBufs, ?_, fun j => ?_, fun j hj => ?_, fun j hj => ⟨?_, fun hlt => ?_⟩⟩
      · rw [handOver, UsCaptureRuntime.length_bufs_modifyHw, h.length]
      · rw [handOver, UsCaptureRuntime.hw_modifyHw_field (·.dmaFd), h.dmaFd j]
        intro hw
        rfl
      · rw [handOver, UsCaptureRuntime.hw_modifyHw_of_ne _ (fun hbj => hj (by rw [← hbj])),
          h.rawFd j]
      · exact Int.ofNat.inj hj ▸ h.held buf hb
      · obtain rfl : buf.index = j := Int.ofNat.inj hj
        rw [handOver, UsCaptureRuntime.hw_modifyHw_self _ (by rw [h.length]; exact hlt)]
        exact h.dmaFd _

theorem grabLoop_fds (cap : UsCapture) {run : UsCaptureRuntime} (errno : DqErrno) :
    ∀ (ds : List Dequeued) {s : GrabLoop}, LoopFds run s → GrabFds run (grabLoop cap errno ds s)
  | [], _, h => grabEnd_fds h errno
  | d :: ds, s, h => by
    have hturn := grabTurn_loopFds cap h d
    rw [grabLoop]
    split
    · rename_i s' hs'
      rw [hs'] at hturn
      exact grabFds_error hturn.toSameFds (by decide) _
    · rename_i s' hs'
      rw [hs'] at hturn
      exact grabLoop_fds cap errno ds hturn

/-- **A grab**, whatever the driver delivers. -/
theorem grab_fds (cap : UsCapture) (queued : Finset Nat) (sel : Selected) (ds : List Dequeued)
    (errno : DqErrno) : GrabFds cap.run (usCaptureHwbufGrab cap queued sel ds errno) := by
  unfold usCaptureHwbufGrab
  split
  · exact grabFds_error (.refl _) (by decide) _
  · exact grabLoop_fds cap errno ds ⟨.refl _, fun b hb => absurd hb (by simp [grabStart])⟩

/-! ## 2. Runs -/

/-- A device, the outside world, and what grabs have handed over since it was opened. -/
structure FdState where
  cap : UsCapture
  dev : Device
  handed : Finset Nat

inductive FdAct
  | open (a : OpenAnswers)
  | close
  | grab (sel : Selected) (ds : List Dequeued) (errno : DqErrno)
  | release (i : Nat) (qbufOk : Bool)

namespace FdState

/-- The state after an open or a close: nothing is handed over. -/
def reopened (cap : UsCapture) (dev : Device) : FdState := ⟨cap, dev, ∅⟩

/-- The state after a grab or a release. -/
def after (s : FdState) (r : GrabResult) (handed : Finset Nat) : FdState :=
  ⟨{ s.cap with run := r.run }, { s.dev with queued := r.queued }, handed⟩

def afterOpen (s : FdState) (a : OpenAnswers) : FdState :=
  reopened (usCaptureOpen s.cap s.dev a).cap (usCaptureOpen s.cap s.dev a).dev

def afterClose (s : FdState) : FdState :=
  reopened (usCaptureClose s.cap s.dev).1 (usCaptureClose s.cap s.dev).2

def afterGrab (s : FdState) (r : GrabResult) : FdState :=
  s.after r (if 0 ≤ r.ret then insert r.ret.toNat s.handed else s.handed)

end FdState

def fdStep (s : FdState) : FdAct → Option FdState
  | .open a => some (s.afterOpen a)
  | .close => some s.afterClose
  | .grab sel ds errno => some (s.afterGrab (usCaptureHwbufGrab s.cap s.dev.queued sel ds errno))
  | .release i qbufOk =>
    if i ∈ s.handed then
      (usCaptureHwbufRelease s.cap.run s.dev.queued i qbufOk).map fun r =>
        s.after r (s.handed.erase i)
    else none

/-- A device that has not been opened yet, in a process that has opened nothing. -/
def fdSystem : System FdState FdAct where
  start s := Closed s.cap.run ∧ s.dev.fds = ⟨[], []⟩ ∧ s.handed = ∅
  step := fdStep

/-- Every open of the run meets the condition. -/
def FdOk (s : FdState) : FdAct → Prop
  | .open a => OpenOk s.cap a
  | .close => True
  | .grab _ _ _ => True
  | .release _ _ => True

/-- The invariant: the account is in order, and what a caller holds says its own descriptor. -/
structure FdState.Inv (s : FdState) : Prop where
  fds : FdInv s.cap.run s.dev
  handed : ∀ i ∈ s.handed, i < s.cap.run.nBufs ∧
    (s.cap.run.hw i).raw.dmaFd = (s.cap.run.hw i).dmaFd

namespace FdState.Inv

variable {s : FdState}

theorem reopened {cap : UsCapture} {dev : Device} (h : FdInv cap.run dev) :
    (FdState.reopened cap dev).Inv :=
  ⟨h, fun i hi => absurd hi (Finset.notMem_empty i)⟩

/-- A change that leaves the descriptors of the slots alone keeps the account. -/
theorem fdInv {run : UsCaptureRuntime} {dev dev' : Device} {run' : UsCaptureRuntime}
    (h : FdInv run dev) (hfd : run'.fd = run.fd) (hn : run'.nBufs = run.nBufs)
    (hlen : run'.bufs.length = run.bufs.length) (hdma : ∀ j, (run'.hw j).dmaFd = (run.hw j).dmaFd)
    (hw : dev'.fds = dev.fds) (he : dev'.exports = dev.exports) : FdInv run' dev' := by
  refine ⟨⟨by rw [hn, hlen]; exact h.nBufs_le, by rw [hfd]; exact h.fd_ge, ?_⟩, fun i hi => ?_⟩
  · rw [hw, hfd, hn, dmaFds_congr fun i _ => hdma i]
    exact h.covers
  · rw [hdma i, he]
    rw [hn] at hi
    exact h.exported i hi

theorem grab (h : s.Inv) (sel : Selected) (ds : List Dequeued) (errno : DqErrno) :
    (s.afterGrab (usCaptureHwbufGrab s.cap s.dev.queued sel ds errno)).Inv := by
  have hg := grab_fds s.cap s.dev.queued sel ds errno
  generalize usCaptureHwbufGrab s.cap s.dev.queued sel ds errno = r at hg
  refine ⟨fdInv h.fds hg.fd hg.nBufs hg.length hg.dmaFd rfl rfl, fun i hi => ?_⟩
  show i < r.run.nBufs ∧ (r.run.hw i).raw.dmaFd = (r.run.hw i).dmaFd
  rw [hg.nBufs, hg.dmaFd]
  by_cases hret : r.ret = i
  · obtain ⟨hlt, hraw⟩ := hg.returned i hret
    exact ⟨hlt, hraw (lt_of_lt_of_le hlt h.fds.nBufs_le)⟩
  · rw [hg.rawFd_of_ne i hret]
    refine h.handed i ?_
    -- `i` is not the index this grab has added
    simp only [FdState.afterGrab, FdState.after] at hi
    split at hi
    · rcases Finset.mem_insert.mp hi with rfl | hi
      · omega
      · exact hi
    · exact hi

theorem release (h : s.Inv) {i : Nat} {qbufOk : Bool} {r : GrabResult}
    (hr : usCaptureHwbufRelease s.cap.run s.dev.queued i qbufOk = some r) :
    (s.after r (s.handed.erase i)).Inv := by
  have hsame : SameFds s.cap.run r.run := by
    unfold usCaptureHwbufRelease at hr
    split at hr
    · exact absurd hr (by simp)
    · split at hr
      · exact Option.some.inj hr ▸ .refl _
      · exact Option.some.inj hr ▸ (SameFds.refl _).modify i (fun _ => rfl) fun _ => rfl
  refine ⟨fdInv h.fds hsame.fd hsame.nBufs hsame.length hsame.dmaFd rfl rfl, fun j hj => ?_⟩
  show j < r.run.nBufs ∧ (r.run.hw j).raw.dmaFd = (r.run.hw j).dmaFd
  rw [hsame.nBufs, hsame.dmaFd, hsame.rawFd]
  exact h.handed j (Finset.mem_of_mem_erase hj)

/-- **The step.** -/
theorem step (h : s.Inv) {act : FdAct} {s' : FdState} (hok : FdOk s act)
    (hst : fdStep s act = some s') : s'.Inv := by
  cases act with
  | «open» a =>
    rw [fdStep, Option.some.injEq] at hst
    exact hst ▸ reopened (usCaptureOpen_spec h.fds.toFdHeld hok).inv
  | close =>
    rw [fdStep, Option.some.injEq] at hst
    obtain ⟨hclosed, hstrays⟩ := h.fds.toFdHeld.close
    exact hst ▸ reopened (hclosed.fdInv hstrays)
  | grab sel ds errno =>
    rw [fdStep, Option.some.injEq] at hst
    exact hst ▸ h.grab sel ds errno
  | release i qbufOk =>
    rw [fdStep] at hst
    split at hst
    · obtain ⟨r, hr, rfl⟩ := Option.map_eq_some_iff.mp hst
      exact h.release hr
    · exact absurd hst (by simp)

end FdState.Inv

theorem fdInv_of_reach {s : FdState} (hr : fdSystem.ReachVia FdOk s) : s.Inv := by
  refine System.ReachVia.inv (fun s hs => ?_) (fun _ _ _ hI hok hst => hI.step hok hst) hr
  obtain ⟨hclosed, hfds, hhanded⟩ := hs
  refine ⟨hclosed.fdInv (by rw [hfds]), fun i hi => ?_⟩
  rw [hhanded] at hi
  exact absurd hi (Finset.notMem_empty i)

/-! ## 3. Descriptor discipline -/

/-- **Descriptor discipline, and exactly where it holds.**  In a run all of whose opens meet
`OpenOk`, nothing is ever closed that is not owned, a buffer in the hands of a caller that says it
has a descriptor was exported with it, and a close, and an open that fails, leave the run state
closed.  And an open of a fresh device, with the close that follows it, closes nothing astray if
and only if it meets `OpenOk`. -/
theorem capture_fd_discipline (s : FdState) (cap : UsCapture) (dev : Device) (a : OpenAnswers) :
    (fdSystem.ReachVia FdOk s →
      s.dev.fds.strays = [] ∧
        (∀ i ∈ s.handed, 0 ≤ (s.cap.run.hw i).raw.dmaFd →
          (i, (s.cap.run.hw i).raw.dmaFd) ∈ s.dev.exports) ∧
        Closed (usCaptureClose s.cap s.dev).1.run ∧
        ∀ a, OpenOk s.cap a → (usCaptureOpen s.cap s.dev a).ret ≠ 0 →
          Closed (usCaptureOpen s.cap s.dev a).cap.run) ∧
      (Closed cap.run → dev.fds = ⟨[], []⟩ →
        ((usCaptureClose (usCaptureOpen cap dev a).cap (usCaptureOpen cap dev a).dev).2.fds.strays
          = []
          ↔ OpenOk cap a)) := by
  constructor
  · intro hr
    have hI := fdInv_of_reach hr
    refine ⟨hI.fds.covers.strays, fun i hi hpos => ?_, hI.fds.toFdHeld.close.1,
      fun a hok hret => ?_⟩
    · obtain ⟨hlt, hraw⟩ := hI.handed i hi
      rw [hraw] at hpos ⊢
      exact hI.fds.exported i hlt hpos
    · exact (usCaptureOpen_spec hI.fds.toFdHeld hok).closed hret
  · intro hclosed hdev
    constructor
    · intro hstrays
      by_contra hno
      exact usCaptureOpen_strays hdev hno hstrays
    · intro hok
      have hstrays : dev.fds.strays = [] := by rw [hdev]
      have hheld := (hclosed.fdInv hstrays).toFdHeld
      exact (usCaptureOpen_spec hheld hok).inv.toFdHeld.close.2

/-- A device that has not been opened, with one buffer to come. -/
def freshDevice (ioMethod : V4l2Memory) : FdState where
  cap :=
    { width := 16, height := 16, format := v4l2PixFmtYuyv, formatSwapRgb := false, standard := 0,
      ioMethod := ioMethod, dvTimings := false, persistent := false, nBufs := 1,
      dmaExport := false, dmaRequired := false, minFrameSize := 128,
      allowTruncatedFrames := false
      run :=
        { fd := -1, width := 0, height := 0, format := 0, stride := 0, hz := 0, rawSize := 0,
          nBufs := 0, bufs := [], dma := false, captureMplane := false, streamon := false } }
  dev := ⟨∅, ⟨[], []⟩, []⟩
  handed := ∅

/-- A device that answers everything with success and exports nothing. -/
def willingAnswers : OpenAnswers where
  access := true
  openFd := some 3
  power := none
  probe := ⟨.failed, false, none, false, false⟩
  checkCap := ⟨some (true, false, true), true, true⟩
  apply := ⟨.failed, false, none, false, false⟩
  fmt _ := some ⟨true, 16, 16, v4l2PixFmtYuyv, 32, 512⟩
  lanes := none
  reqbufs := some 1
  querybuf _ := some 512
  mmap _ := true
  qbuf _ := true
  expbuf _ := none
  streamon := true

theorem freshDevice_start (ioMethod : V4l2Memory) : fdSystem.start (freshDevice ioMethod) :=
  ⟨⟨rfl, rfl, rfl, rfl⟩, rfl, rfl⟩

/-- A grab of a whole frame from buffer 0. -/
def grabOfZero : FdAct := .grab ⟨1, false, none⟩ [⟨⟨0, 512, [], 0, 0⟩, [], true⟩] .again

theorem fdStep_open (s : FdState) (a : OpenAnswers) : fdStep s (.open a) = some (s.afterOpen a) :=
  rfl

/-- The state after the device is opened and buffer 0 is grabbed. -/
def openedAndGrabbed (ioMethod : V4l2Memory) : FdState :=
  let s := (freshDevice ioMethod).afterOpen willingAnswers
  s.afterGrab (usCaptureHwbufGrab s.cap s.dev.queued ⟨1, false, none⟩
    [⟨⟨0, 512, [], 0, 0⟩, [], true⟩] .again)

theorem openedAndGrabbed_reach {ok : FdState → FdAct → Prop} (ioMethod : V4l2Memory)
    (h1 : ok (freshDevice ioMethod) (.open willingAnswers))
    (h2 : ok ((freshDevice ioMethod).afterOpen willingAnswers) grabOfZero) :
    fdSystem.ReachVia ok (openedAndGrabbed ioMethod) :=
  .step (.step (.start (freshDevice_start ioMethod)) h1 (fdStep_open _ _)) h2 rfl

/-- With mapped buffers the frame says that it has no descriptor, and the close is clean. -/
theorem capture_fd_discipline_mmap :
    (openedAndGrabbed .mmap).handed = {0} ∧
      ((openedAndGrabbed .mmap).cap.run.hw 0).raw.dmaFd = -1 ∧
      (openedAndGrabbed .mmap).dev.fds.strays = [] ∧
      ((freshDevice .mmap).afterOpen willingAnswers).afterClose.dev.fds.strays = [] :=
  ⟨by decide, by decide,
    ((capture_fd_discipline (openedAndGrabbed .mmap) (freshDevice .mmap).cap
      (freshDevice .mmap).dev willingAnswers).1
        (openedAndGrabbed_reach .mmap (Or.inl rfl) trivial)).1,
    ((capture_fd_discipline (openedAndGrabbed .mmap) (freshDevice .mmap).cap
      (freshDevice .mmap).dev willingAnswers).2 ⟨rfl, rfl, rfl, rfl⟩ rfl).mpr (Or.inl rfl)⟩

/-- **With buffers of the process** the frame says that it has descriptor 0, which was exported for
no buffer, and the close closes it. -/
theorem userptr_closes_descriptor_zero :
    fdSystem.Reach (openedAndGrabbed .userptr) ∧ 0 ∈ (openedAndGrabbed .userptr).handed ∧
      ((openedAndGrabbed .userptr).cap.run.hw 0).raw.dmaFd = 0 ∧
      (openedAndGrabbed .userptr).dev.exports = [] ∧
      (openedAndGrabbed .userptr).afterClose.dev.fds.strays = [0] :=
  ⟨openedAndGrabbed_reach .userptr trivial trivial, by decide, by decide, by decide, by decide⟩

end TinyPilotKvm
