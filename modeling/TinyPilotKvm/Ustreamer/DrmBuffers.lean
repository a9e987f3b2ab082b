/-
# The buffers of the DRM thread

What the log of `_drm_thread` says of the capture buffers: each buffer that is taken off the queue
is given up once, never while it is on the screen, and none is left when the thread has left its
inner loop.

**A buffer leaks where exposing it fails**: `CHECK` jumps to `close`, which knows `prevHw` only.
`drm_gives_back_iff` says that this is the only way: everything else holds in every run, and the
thread has given back all it took exactly if no exposing has failed.
-/
import TinyPilotKvm.Ustreamer.DrmThread

namespace TinyPilotKvm

/-! ## 1. What the log is to say -/

/-- The buffer on the screen: exposed, with no vsync and no close since. -/
def onScreen (log : List DrmEvent) : Option Nat :=
  log.foldl (fun screen e => match e with
    | .exposed hw => some hw
    | .vsync | .closed => none
    | _ => screen) none

@[simp] theorem onScreen_snoc (log : List DrmEvent) (e : DrmEvent) :
    onScreen (log ++ [e]) = match e with
      | .exposed hw => some hw
      | .vsync | .closed => none
      | _ => onScreen log := by
  unfold onScreen
  rw [List.foldl_append]
  rfl

/-- No buffer is given up while it is on the screen. -/
def NotOnScreen (log : List DrmEvent) : Prop :=
  ∀ pre hw post, log = pre ++ .decref hw :: post → onScreen pre ≠ some hw

/-- The buffers taken are those given up, those lost in an exposing that failed, and `held`. -/
def Balanced (log : List DrmEvent) (held : List Nat) : Prop :=
  ∀ b, log.count (.taken b)
    = log.count (.decref b) + log.count (.exposeFailed b) + held.count b

/-- The thread has left the inner loop, and `close` is done. -/
def DrmPc.leftInner : DrmPc → Bool
  | .top | .opening | .slowdown .slowOuter | .done => true
  | _ => false

/-- **The thread gives back every buffer exactly once**: no buffer more often than it was taken, nor
while it is on the screen; and when the thread has left the inner loop, all of them. -/
structure GivesBack (s : DrmState) : Prop where
  atMostOnce : ∀ b, s.log.count (.decref b) ≤ s.log.count (.taken b)
  notOnScreen : NotOnScreen s.log
  leftInner : s.pc.leftInner = true → ∀ b, s.log.count (.decref b) = s.log.count (.taken b)

/-! ## 2. The log -/

theorem NotOnScreen.snoc {log : List DrmEvent} (h : NotOnScreen log) {e : DrmEvent}
    (he : ∀ hw, e = .decref hw → onScreen log ≠ some hw) : NotOnScreen (log ++ [e]) := by
  intro pre hw post heq
  rcases List.eq_nil_or_concat post with rfl | ⟨post', e', rfl⟩
  · obtain ⟨rfl, hlast⟩ := List.append_inj' heq rfl
    exact he hw (List.singleton_inj.mp hlast)
  · have hsplit : log ++ [e] = (pre ++ .decref hw :: post') ++ [e'] := by
      rw [heq]
      simp
    exact h pre hw post' (List.append_inj' hsplit rfl).1

section Balance

variable {log : List DrmEvent} {held : List Nat} {hw : Nat}

theorem Balanced.taken (h : Balanced log held) : Balanced (log ++ [.taken hw]) (hw :: held) := by
  intro b
  have hb := h b
  simp only [List.count_append, List.count_cons, List.count_nil, beq_iff_eq,
    DrmEvent.taken.injEq, reduceCtorEq, if_false] at hb ⊢
  omega

theorem Balanced.decref (h : Balanced log (hw :: held)) :
    Balanced (log ++ [.decref hw]) held := by
  intro b
  have hb := h b
  simp only [List.count_append, List.count_cons, List.count_nil, beq_iff_eq,
    DrmEvent.decref.injEq, reduceCtorEq, if_false] at hb ⊢
  omega

theorem Balanced.exposeFailed (h : Balanced log (hw :: held)) :
    Balanced (log ++ [.exposeFailed hw]) held := by
  intro b
  have hb := h b
  simp only [List.count_append, List.count_cons, List.count_nil, beq_iff_eq,
    DrmEvent.exposeFailed.injEq, reduceCtorEq, if_false] at hb ⊢
  omega

/-- The other events count for nothing. -/
theorem Balanced.other (h : Balanced log held) {e : DrmEvent}
    (he : ∀ b, e ≠ .taken b ∧ e ≠ .decref b ∧ e ≠ .exposeFailed b) :
    Balanced (log ++ [e]) held := by
  intro b
  have hb := h b
  obtain ⟨h1, h2, h3⟩ := he b
  simp only [List.count_append, List.count_cons, List.count_nil, beq_iff_eq, h1, h2, h3,
    if_false] at hb ⊢
  omega

end Balance

/-! ## 3. The invariant -/

/-- The buffer that the thread has taken and not yet put anywhere. -/
def DrmPc.hand : DrmPc → List Nat
  | .check _ hw | .drop _ hw | .holding hw | .exposeDma hw | .exposeStub hw | .giveBack _ hw => [hw]
  | _ => []

/-- `prev_hw` may be set. -/
def DrmPc.mayHold : DrmPc → Bool
  | .innerTop | .waiting | .release | .close | .closeRelease => true
  | _ => false

/-- There may be a buffer on the screen. -/
def DrmPc.mayShow : DrmPc → Bool
  | .innerTop | .waiting | .close => true
  | _ => false

/-- In the loop of `_get_latest_hw`, before its get. -/
def DrmPc.draining : DrmPc → Bool
  | .drop _ _ | .reget _ => true
  | _ => false

inductive DrmPhase
  /-- About to close the device. -/
  | closing
  /-- No device is open. -/
  | outside
  /-- The device is open. -/
  | inside
  deriving DecidableEq

def DrmCaller.phase : DrmCaller → DrmPhase
  | .slowOuter => .outside
  | _ => .inside

def DrmPc.phase : DrmPc → DrmPhase
  | .start | .close | .aborted => .closing
  | .top | .opening | .closeRelease | .done => .outside
  | .innerTop | .waiting | .release | .holding _ | .exposeDma _ | .exposeStub _ => .inside
  | .fetch c | .check c _ | .drop c _ | .reget c | .giveBack c _ | .slowdown c => c.phase

/-- The device as the thread needs it: the assertions of the next call hold. -/
structure DeviceOk (pc : DrmPc) (drm : DrmRuntime) : Prop where
  sound : drm.Sound
  outside : pc.phase = .outside → drm.fd < 0 ∧ drm.exposingDmaFd < 0
  inside : pc.phase = .inside → 0 ≤ drm.fd ∧ 0 ≤ drm.opened
  dma : ∀ hw, pc = .exposeDma hw → drm.opened = 0
  stub : ∀ hw, pc = .exposeStub hw → drm.opened ≠ 0

structure DrmInv (s : DrmState) : Prop where
  balanced : Balanced s.log (s.pc.hand ++ s.prevHw.toList)
  notOnScreen : NotOnScreen s.log
  prev : s.pc.mayHold = false → s.prevHw = none
  screen : s.pc.mayShow = false → onScreen s.log = none
  device : DeviceOk s.pc s.drm
  drain : s.pc.draining = true → s.queue.toList ≠ []
  alive : s.pc ≠ .aborted

/-- The next place is of the same phase and is no exposing. -/
theorem DeviceOk.goto {pc pc' : DrmPc} {drm : DrmRuntime} (h : DeviceOk pc drm)
    (hphase : pc'.phase = pc.phase) (hdma : ∀ hw, pc' ≠ .exposeDma hw)
    (hstub : ∀ hw, pc' ≠ .exposeStub hw) : DeviceOk pc' drm where
  sound := h.sound
  outside := by
    rw [hphase]
    exact h.outside
  inside := by
    rw [hphase]
    exact h.inside
  dma hw heq := absurd heq (hdma hw)
  stub hw heq := absurd heq (hstub hw)

/-- An open device may be closed. -/
theorem DeviceOk.closing {drm : DrmRuntime} (h : drm.Sound) : DeviceOk .close drm :=
  ⟨h, fun hp => absurd hp (by simp [DrmPc.phase]), fun hp => absurd hp (by simp [DrmPc.phase]),
    fun _ hp => absurd hp (by simp), fun _ hp => absurd hp (by simp)⟩

/-- No device is open. -/
theorem DeviceOk.closed {pc : DrmPc} {drm : DrmRuntime} (hpc : pc.phase = .outside)
    (hfd : drm.fd < 0) (hexp : drm.exposingDmaFd < 0) : DeviceOk pc drm where
  sound h := absurd h (by omega)
  outside _ := ⟨hfd, hexp⟩
  inside h := absurd h (by simp [hpc])
  dma hw h := absurd hpc (by simp [h, DrmPc.phase])
  stub hw h := absurd hpc (by simp [h, DrmPc.phase])

/-- The device is open, and the next step exposes nothing. -/
theorem DeviceOk.opened {pc : DrmPc} {drm : DrmRuntime} (hpc : pc.phase = .inside)
    (hfd : 0 ≤ drm.fd) (hopened : 0 ≤ drm.opened) (hdma : ∀ hw, pc ≠ .exposeDma hw)
    (hstub : ∀ hw, pc ≠ .exposeStub hw) : DeviceOk pc drm where
  sound _ := hfd
  outside h := absurd h (by simp [hpc])
  inside _ := ⟨hfd, hopened⟩
  dma hw h := absurd h (hdma hw)
  stub hw h := absurd h (hstub hw)

section Steps

variable {s s' : DrmState}

/-- A step that only goes on, with another state of the device. -/
theorem DrmInv.move (h : DrmInv s) {pc : DrmPc} {drm : DrmRuntime} (hhand : pc.hand = s.pc.hand)
    (hprev : pc.mayHold = false → s.pc.mayHold = false)
    (hscreen : pc.mayShow = false → s.pc.mayShow = false) (hdevice : DeviceOk pc drm)
    (hdrain : pc.draining = true → s.queue.toList ≠ []) (halive : pc ≠ .aborted) :
    DrmInv { s with drm := drm, pc := pc } where
  balanced := by
    rw [hhand]
    exact h.balanced
  notOnScreen := h.notOnScreen
  prev hp := h.prev (hprev hp)
  screen hp := h.screen (hscreen hp)
  device := hdevice
  drain := hdrain
  alive := halive

/-- A step that only goes on. -/
theorem DrmInv.goto (h : DrmInv s) {pc : DrmPc} (hhand : pc.hand = s.pc.hand)
    (hprev : pc.mayHold = false → s.pc.mayHold = false)
    (hscreen : pc.mayShow = false → s.pc.mayShow = false) (hdevice : DeviceOk pc s.drm)
    (hdrain : pc.draining = true → s.queue.toList ≠ []) (halive : pc ≠ .aborted) :
    DrmInv { s with pc := pc } :=
  h.move hhand hprev hscreen hdevice hdrain halive

/-- The buffer in hand is given up, and the thread goes on with empty hands. -/
theorem DrmInv.decref (h : DrmInv s) {hw : Nat} (hhand : s.pc.hand = [hw])
    (hhold : s.pc.mayHold = false) (hshow : s.pc.mayShow = false) {pc : DrmPc} (hpc : pc.hand = [])
    (hdevice : DeviceOk pc s.drm) (hdrain : pc.draining = true → s.queue.toList ≠ [])
    (halive : pc ≠ .aborted) : DrmInv { s.decref hw with pc := pc } where
  balanced := by
    rw [hpc]
    have hbal := h.balanced
    rw [hhand] at hbal
    exact hbal.decref
  notOnScreen := h.notOnScreen.snoc fun _ _ => by
    rw [h.screen hshow]
    simp
  prev _ := h.prev hhold
  screen _ := by
    rw [DrmState.decref, onScreen_snoc]
    exact h.screen hshow
  device := hdevice
  drain := hdrain
  alive := halive

/-- `prev_hw` is given up, if there is one. -/
theorem DrmInv.deletePrev (h : DrmInv s) (hhand : s.pc.hand = [])
    (hshow : s.pc.mayShow = false) {pc : DrmPc} (hpc : pc.hand = [])
    (hdevice : DeviceOk pc s.drm) (hdrain : pc.draining = false) (halive : pc ≠ .aborted) :
    DrmInv { s.deletePrev with pc := pc } := by
  have hbal := h.balanced
  rw [hhand, List.nil_append] at hbal
  unfold DrmState.deletePrev
  cases hprev : s.prevHw with
  | none =>
    rw [hprev] at hbal
    refine ⟨?_, h.notOnScreen, fun _ => hprev, fun _ => h.screen hshow, hdevice, fun hd => ?_,
      halive⟩
    · show Balanced s.log (pc.hand ++ s.prevHw.toList)
      rw [hpc, hprev]
      exact hbal
    · exact absurd hd (by rw [hdrain]; simp)
  | some hw =>
    rw [hprev] at hbal
    refine ⟨?_, h.notOnScreen.snoc fun _ _ => ?_, fun _ => rfl, fun _ => ?_, hdevice, fun hd => ?_,
      halive⟩
    · show Balanced (s.log ++ [.decref hw]) (pc.hand ++ [])
      rw [hpc]
      exact Balanced.decref hbal
    · rw [h.screen hshow]
      simp
    · show onScreen (s.log ++ [.decref hw]) = none
      rw [onScreen_snoc]
      exact h.screen hshow
    · exact absurd hd (by rw [hdrain]; simp)

/-- A buffer is taken off the queue. -/
theorem DrmInv.take (h : DrmInv s) (hhand : s.pc.hand = []) (hhold : s.pc.mayHold = false)
    (hshow : s.pc.mayShow = false) (c : DrmCaller) (hphase : s.pc.phase = c.phase) (hw : Nat)
    (queue : Queue Nat) :
    DrmInv { s with queue := queue, pc := .check c hw, log := s.log ++ [.taken hw] } where
  balanced := by
    have hbal := h.balanced
    rw [hhand] at hbal
    exact hbal.taken
  notOnScreen := h.notOnScreen.snoc fun _ he => absurd he (by simp)
  prev _ := h.prev hhold
  screen _ := by
    rw [onScreen_snoc]
    exact h.screen hshow
  device := h.device.goto hphase.symm (by simp) (by simp)
  drain hd := absurd hd (by simp [DrmPc.draining])
  alive := by simp

/-! ## 4. The steps -/

theorem DrmCaller.hand_gotHw (c : DrmCaller) (hw : Nat) : (c.gotHw hw).hand = [hw] := by
  cases c <;> rfl

theorem DrmInv.go (h : DrmInv s) (hst : drmGo s = some s') : DrmInv s' := by
  have hdev := h.device
  unfold drmGo at hst
  split at hst
  case h_1 hpc =>
    rw [hpc] at hdev
    obtain rfl := Option.some.inj hst
    split
    · exact h.goto (by rw [hpc]; rfl) (by simp [hpc, DrmPc.mayHold]) (by simp [hpc, DrmPc.mayShow])
        (hdev.goto rfl (by simp) (by simp)) (by simp [DrmPc.draining]) (by simp)
    · exact h.goto (by rw [hpc]; rfl) (by simp [hpc, DrmPc.mayHold]) (by simp [hpc, DrmPc.mayShow])
        (hdev.goto rfl (by simp) (by simp)) (by simp [DrmPc.draining]) (by simp)
  case h_2 hpc =>
    rw [hpc] at hdev
    obtain rfl := Option.some.inj hst
    split
    · exact h.goto (by rw [hpc]; rfl) (by simp [DrmPc.mayHold]) (by simp [DrmPc.mayShow])
        (.closing hdev.sound) (by simp [DrmPc.draining]) (by simp)
    · exact h.goto (by rw [hpc]; rfl) (by simp [DrmPc.mayHold]) (by simp [DrmPc.mayShow])
        (hdev.goto rfl (by simp) (by simp)) (by simp [DrmPc.draining]) (by simp)
  case h_3 hpc =>
    rw [hpc] at hdev
    obtain rfl := Option.some.inj hst
    exact h.deletePrev (by rw [hpc]; rfl) (by rw [hpc]; rfl) rfl
      (hdev.goto rfl (by simp) (by simp)) rfl (by simp)
  case h_4 c hw hpc =>
    rw [hpc] at hdev
    obtain rfl := Option.some.inj hst
    split
    · refine h.goto ?_ (by simp [hpc, DrmPc.mayHold]) (by simp [hpc, DrmPc.mayShow])
        (hdev.goto ?_ ?_ ?_) ?_ ?_
      · rw [hpc, c.hand_gotHw]
        rfl
      all_goals cases c <;> simp [DrmCaller.gotHw, DrmPc.phase, DrmCaller.phase, DrmPc.draining]
    · rename_i hfull
      refine h.goto (by rw [hpc]; rfl) (by simp [hpc, DrmPc.mayHold]) (by simp [hpc, DrmPc.mayShow])
        (hdev.goto rfl (by simp) (by simp)) (fun _ hnil => ?_) (by simp)
      refine hfull (Queue.isEmpty_eq_true_iff.mpr ?_)
      rw [hnil]
      exact Nat.lt_of_le_of_lt (Nat.zero_le _) s.queue.2.outPos_lt
  case h_5 c hw hpc =>
    rw [hpc] at hdev
    obtain rfl := Option.some.inj hst
    exact h.decref (by rw [hpc]; rfl) (by rw [hpc]; rfl) (by rw [hpc]; rfl) rfl
      (hdev.goto rfl (by simp) (by simp)) (fun _ => h.drain (by rw [hpc]; rfl)) (by simp)
  case h_6 c hpc =>
    split at hst
    · rename_i hget
      exact absurd (Queue.get_eq_none_iff.mp hget) (h.drain (by rw [hpc]; rfl))
    · obtain rfl := Option.some.inj hst
      exact h.take (by rw [hpc]; rfl) (by rw [hpc]; rfl) (by rw [hpc]; rfl) c (by rw [hpc]; rfl) _ _
  case h_7 hw hpc =>
    rw [hpc] at hdev
    obtain ⟨hfd, hopened⟩ := hdev.inside rfl
    obtain rfl := Option.some.inj hst
    split
    · rename_i hzero
      exact h.goto (by rw [hpc]; rfl) (by simp [hpc, DrmPc.mayHold]) (by simp [hpc, DrmPc.mayShow])
        ⟨hdev.sound, by simp [DrmPc.phase], fun _ => ⟨hfd, hopened⟩, fun _ _ => hzero, by simp⟩
        (by simp [DrmPc.draining]) (by simp)
    · rename_i hzero
      exact h.goto (by rw [hpc]; rfl) (by simp [hpc, DrmPc.mayHold]) (by simp [hpc, DrmPc.mayShow])
        ⟨hdev.sound, by simp [DrmPc.phase], fun _ => ⟨hfd, hopened⟩, by simp, fun _ _ => hzero⟩
        (by simp [DrmPc.draining]) (by simp)
  case h_8 c hw hpc =>
    rw [hpc] at hdev
    obtain rfl := Option.some.inj hst
    exact h.decref (by rw [hpc]; rfl) (by rw [hpc]; rfl) (by rw [hpc]; rfl) rfl
      (hdev.goto rfl (by simp) (by simp)) (by simp [DrmPc.draining]) (by simp)
  case h_9 hpc =>
    rw [hpc] at hdev
    obtain rfl := Option.some.inj hst
    exact h.deletePrev (by rw [hpc]; rfl) (by rw [hpc]; rfl) rfl
      (hdev.goto rfl (by simp) (by simp)) rfl (by simp)
  case h_10 => exact absurd hst (by simp)

/-- The screen is clear: a vsync has come, or the device is closed. -/
theorem DrmInv.clear (h : DrmInv s) (hhand : s.pc.hand = []) {pc : DrmPc} {drm : DrmRuntime}
    {e : DrmEvent} (he : e = .vsync ∨ e = .closed) (hpc : pc.hand = [])
    (hprev : pc.mayHold = false → s.pc.mayHold = false) (hdevice : DeviceOk pc drm)
    (hdrain : pc.draining = false) (halive : pc ≠ .aborted) :
    DrmInv { s with drm := drm, pc := pc, log := s.log ++ [e] } where
  balanced := by
    have hbal := h.balanced
    rw [hhand] at hbal
    rw [hpc]
    exact hbal.other fun b => by rcases he with rfl | rfl <;> simp
  notOnScreen := h.notOnScreen.snoc fun hw heq => by
    rcases he with rfl | rfl <;> exact absurd heq (by simp)
  prev hp := h.prev (hprev hp)
  screen _ := by
    rw [onScreen_snoc]
    rcases he with rfl | rfl <;> rfl
  device := hdevice
  drain hd := absurd hd (by rw [hdrain]; simp)
  alive := halive

/-- The same out of the loop that empties the queue. -/
theorem DrmInv.withDrm (h : DrmInv s) {pc : DrmPc} {drm : DrmRuntime} (hhand : pc.hand = s.pc.hand)
    (hprev : pc.mayHold = false → s.pc.mayHold = false)
    (hscreen : pc.mayShow = false → s.pc.mayShow = false) (hdevice : DeviceOk pc drm)
    (hdrain : pc.draining = false) (halive : pc ≠ .aborted) :
    DrmInv { s with drm := drm, pc := pc } :=
  h.move hhand hprev hscreen hdevice (fun hd => absurd hd (by rw [hdrain]; simp)) halive

theorem DrmInv.usDrm (h : DrmInv s) {status : DrmStatus} {wait : VsyncWait}
    (hst : drmDevice s status wait = some s') : DrmInv s' := by
  have hdev := h.device
  obtain ⟨drm, hclose, hfd, hexp⟩ := usDrmClose_spec hdev.sound status wait
  unfold drmDevice at hst
  split at hst
  case h_1 hpc =>
    rw [hclose] at hst
    obtain rfl := Option.some.inj hst
    exact h.clear (by rw [hpc]; rfl) (Or.inr rfl) rfl (fun _ => by rw [hpc]; rfl)
      (.closed rfl hfd hexp) rfl (by simp)
  case h_2 hpc =>
    rw [hclose] at hst
    obtain rfl := Option.some.inj hst
    exact h.clear (by rw [hpc]; rfl) (Or.inr rfl) rfl (by simp [DrmPc.mayHold])
      (.closed rfl hfd hexp) rfl (by simp)
  case h_3 hpc =>
    rw [hpc] at hdev
    obtain ⟨hfd, hopened⟩ := hdev.inside rfl
    obtain ⟨⟨drm, ret⟩, hwait⟩ := usDrmWaitForVsync_isSome hfd status wait
    obtain ⟨hfd', hopened'⟩ := usDrmWaitForVsync_keeps hwait
    rw [hwait] at hst
    dsimp only at hst
    split at hst
    · obtain rfl := Option.some.inj hst
      exact h.withDrm (by rw [hpc]; rfl) (by simp [DrmPc.mayHold]) (by simp [DrmPc.mayShow])
        (.closing fun _ => hfd' ▸ hfd) rfl (by simp)
    · obtain rfl := Option.some.inj hst
      exact h.clear (by rw [hpc]; rfl) (Or.inl rfl) rfl (by simp [DrmPc.mayHold])
        (.opened rfl (hfd' ▸ hfd) (hopened' ▸ hopened) (by simp) (by simp)) rfl (by simp)
  case h_4 => exact absurd hst (by simp)

theorem DrmInv.openDev (h : DrmInv s) {opening : DrmOpening}
    (hst : drmOpening s opening = some s') : DrmInv s' := by
  unfold drmOpening at hst
  split at hst
  · rename_i hpc
    have hdev := h.device
    rw [hpc] at hdev
    obtain ⟨hfd, hexp⟩ := hdev.outside rfl
    obtain ⟨drm, ret, hopen, hexp', hopened⟩ := usDrmOpen_spec hfd hexp opening
    rw [hopen] at hst
    obtain rfl := Option.some.inj hst
    split
    · exact h.withDrm (by rw [hpc]; rfl) (by simp [DrmPc.mayHold]) (by simp [hpc, DrmPc.mayShow])
        (.closing fun he => absurd he (by omega)) rfl (by simp)
    · rename_i hret
      obtain ⟨hfd', hopened'⟩ := hopened (by omega)
      exact h.withDrm (by rw [hpc]; rfl) (by simp [DrmPc.mayHold]) (by simp [hpc, DrmPc.mayShow])
        (.opened rfl hfd' (by omega) (by simp) (by simp)) rfl (by simp)
  · exact absurd hst (by simp)

theorem DrmInv.timeout (h : DrmInv s) (hst : drmTimeout s = some s') : DrmInv s' := by
  unfold drmTimeout at hst
  split at hst
  · rename_i c hpc
    have hdev := h.device
    rw [hpc] at hdev
    obtain rfl := Option.some.inj hst
    have hhand : c.gotNull.hand = [] := by cases c <;> rfl
    have hphase : c.gotNull.phase = c.phase := by cases c <;> rfl
    refine h.goto (by rw [hpc, hhand]; rfl) ?_ ?_ (hdev.goto hphase ?_ ?_) ?_ ?_
    · simp [hpc, DrmPc.mayHold]
    · simp [hpc, DrmPc.mayShow]
    all_goals cases c <;> simp [DrmCaller.gotNull, DrmPc.draining]
  · exact absurd hst (by simp)

theorem DrmInv.get (h : DrmInv s) (hst : drmGet s = some s') : DrmInv s' := by
  unfold drmGet at hst
  split at hst
  · rename_i c hw queue hpc _
    obtain rfl := Option.some.inj hst
    exact h.take (by rw [hpc]; rfl) (by rw [hpc]; rfl) (by rw [hpc]; rfl) c (by rw [hpc]; rfl) _ _
  · exact absurd hst (by simp)

/-- **Exposing fails**: the buffer in hand is not given up. -/
theorem DrmInv.exposeFailed (h : DrmInv s) {hw : Nat} (hhand : s.pc.hand = [hw])
    (hshow : s.pc.mayShow = false) {drm : DrmRuntime} (hsound : drm.Sound) :
    DrmInv { s with drm := drm, pc := .close, log := s.log ++ [.exposeFailed hw] } where
  balanced := by
    have hbal := h.balanced
    rw [hhand] at hbal
    exact hbal.exposeFailed
  notOnScreen := h.notOnScreen.snoc fun _ he => absurd he (by simp)
  prev hp := absurd hp (by simp [DrmPc.mayHold])
  screen _ := by
    rw [onScreen_snoc]
    exact h.screen hshow
  device := .closing hsound
  drain hd := absurd hd (by simp [DrmPc.draining])
  alive := by simp

/-- **A buffer goes to the screen**, and is held. -/
theorem DrmInv.exposed (h : DrmInv s) {hw : Nat} (hhand : s.pc.hand = [hw])
    (hhold : s.pc.mayHold = false) {drm : DrmRuntime} (hdevice : DeviceOk .innerTop drm) :
    DrmInv { s with
      drm := drm, prevHw := some hw, pc := .innerTop, log := s.log ++ [.exposed hw] } where
  balanced := by
    have hbal := h.balanced
    rw [hhand, h.prev hhold] at hbal
    exact hbal.other fun b => by simp
  notOnScreen := h.notOnScreen.snoc fun _ he => absurd he (by simp)
  prev hp := absurd hp (by simp [DrmPc.mayHold])
  screen hp := absurd hp (by simp [DrmPc.mayShow])
  device := hdevice
  drain hd := absurd hd (by simp [DrmPc.draining])
  alive := by simp

theorem DrmInv.expose (h : DrmInv s) {status : DrmStatus} {flip : Int}
    (hst : drmExpose s status flip = some s') : DrmInv s' := by
  have hdev := h.device
  unfold drmExpose at hst
  split at hst
  case h_1 hw hpc =>
    rw [hpc] at hdev
    obtain ⟨hfd, -⟩ := hdev.inside rfl
    have hzero := hdev.dma hw rfl
    obtain ⟨drm, ret, hexpose, hfd', hopened'⟩ :=
      usDrmExposeDma_spec hfd hzero (s.run.hw hw).dmaFd status flip
    rw [hexpose] at hst
    dsimp only at hst
    split at hst
    · obtain rfl := Option.some.inj hst
      exact h.exposeFailed (by rw [hpc]; rfl) (by rw [hpc]; rfl) fun _ => hfd' ▸ hfd
    · obtain rfl := Option.some.inj hst
      exact h.exposed (by rw [hpc]; rfl) (by rw [hpc]; rfl)
        (.opened rfl (hfd' ▸ hfd) (by omega) (by simp) (by simp))
  case h_2 hw hpc =>
    rw [hpc] at hdev
    obtain ⟨hfd, hnonneg⟩ := hdev.inside rfl
    have hpos : 0 < s.drm.opened := lt_of_le_of_ne hnonneg (Ne.symm (hdev.stub hw rfl))
    obtain ⟨drm, ret, hexpose, hfd', hopened'⟩ := usDrmExposeStub_spec hfd hpos status flip
    rw [hexpose] at hst
    dsimp only at hst
    split at hst
    · obtain rfl := Option.some.inj hst
      exact h.exposeFailed (by rw [hpc]; rfl) (by rw [hpc]; rfl) fun _ => hfd' ▸ hfd
    · obtain rfl := Option.some.inj hst
      exact h.withDrm (by rw [hpc]; rfl) (by simp [hpc, DrmPc.mayHold])
        (by simp [hpc, DrmPc.mayShow])
        (.opened rfl (hfd' ▸ hfd) (hopened' ▸ hnonneg) (by simp) (by simp)) rfl (by simp)
  case h_3 => exact absurd hst (by simp)

theorem DrmInv.clock (h : DrmInv s) {late : Bool} (hst : drmClock s late = some s') :
    DrmInv s' := by
  unfold drmClock at hst
  split at hst
  · rename_i c hpc
    have hdev := h.device
    rw [hpc] at hdev
    obtain rfl := Option.some.inj hst
    split
    · have hhand : c.afterSlowdown.hand = [] := by cases c <;> rfl
      have hphase : c.afterSlowdown.phase = c.phase := by cases c <;> rfl
      refine h.goto (by rw [hpc, hhand]; rfl) ?_ ?_ (hdev.goto hphase ?_ ?_) ?_ ?_
      · simp [hpc, DrmPc.mayHold]
      · simp [hpc, DrmPc.mayShow]
      all_goals cases c <;> simp [DrmCaller.afterSlowdown, DrmPc.draining]
    · exact h.goto (by rw [hpc]; rfl) (by simp [hpc, DrmPc.mayHold]) (by simp [hpc, DrmPc.mayShow])
        (hdev.goto rfl (by simp) (by simp)) (by simp [DrmPc.draining]) (by simp)
  · exact absurd hst (by simp)

/-- **One step**, one case for each action. -/
theorem drmInv_step : drmSystem.Preserves (fun _ _ => True) DrmInv := by
  intro s s' a h _ hst
  cases a with
  | go => exact h.go hst
  | device status wait => exact h.usDrm hst
  | openDev opening => exact h.openDev hst
  | timeout => exact h.timeout hst
  | get => exact h.get hst
  | expose status flip => exact h.expose hst
  | clock late => exact h.clock hst
  | stopRequest =>
    obtain rfl := Option.some.inj hst
    exact ⟨h.balanced, h.notOnScreen, h.prev, h.screen, h.device, h.drain, h.alive⟩
  | queueHw hw =>
    obtain rfl := Option.some.inj hst
    exact ⟨h.balanced, h.notOnScreen, h.prev, h.screen, h.device,
      fun hd => putIgnored_ne_nil (h.drain hd), h.alive⟩

theorem drmInv_of_reach (hr : drmSystem.Reach s) : DrmInv s := by
  refine hr.inv ?_ drmInv_step
  rintro s ⟨hsound, -, hpc, hprev, hlog⟩
  have hnot : NotOnScreen [] := fun pre hw post heq => absurd heq (by simp)
  refine ⟨?_, ?_, fun _ => hprev, fun _ => ?_, ?_, fun hd => ?_, ?_⟩
  · rw [hlog, hpc, hprev]
    exact fun b => rfl
  · rw [hlog]
    exact hnot
  · rw [hlog]
    rfl
  · rw [hpc]
    exact ⟨hsound, by simp [DrmPc.phase], by simp [DrmPc.phase], by simp, by simp⟩
  · rw [hpc] at hd
    exact absurd hd (by simp [DrmPc.draining])
  · rw [hpc]
    simp

/-! ## 5. Results -/

/-- No assertion of the thread fails. -/
theorem drm_not_aborted (hr : drmSystem.Reach s) : s.pc ≠ .aborted :=
  (drmInv_of_reach hr).alive

/-- Outside the inner loop the thread has nothing in its hands. -/
theorem DrmInv.balanced_of_leftInner (h : DrmInv s) (hpc : s.pc.leftInner = true) :
    Balanced s.log [] := by
  have hbal := h.balanced
  have hprev : s.pc.mayHold = false → s.prevHw = none := h.prev
  unfold DrmPc.leftInner at hpc
  split at hpc
  case h_5 => exact absurd hpc (by simp)
  all_goals
    rename_i hat
    rw [hat] at hbal hprev
    rw [hprev rfl] at hbal
    exact hbal

/-- **Every buffer is given back exactly once, unless exposing it fails**: in a run in which no
exposing has failed, at every moment; and if one has, then not all buffers are given back when the
thread has left its inner loop. -/
theorem drm_gives_back_iff (hr : drmSystem.Reach s) :
    ((∀ hw, DrmEvent.exposeFailed hw ∉ s.log) → GivesBack s) ∧
      (s.pc.leftInner = true → (GivesBack s ↔ ∀ hw, DrmEvent.exposeFailed hw ∉ s.log)) := by
  have h := drmInv_of_reach hr
  have hback : (∀ hw, DrmEvent.exposeFailed hw ∉ s.log) → GivesBack s := by
    intro hno
    refine ⟨fun b => ?_, h.notOnScreen, fun hpc b => ?_⟩
    · have hb := h.balanced b
      omega
    · have hb := h.balanced_of_leftInner hpc b
      rw [List.count_eq_zero.mpr (hno b), List.count_nil] at hb
      omega
  refine ⟨hback, fun hpc => ⟨fun hg hw hmem => ?_, hback⟩⟩
  have hb := h.balanced_of_leftInner hpc hw
  have hequal := hg.leftInner hpc hw
  have hpos := List.count_pos_iff.mpr hmem
  omega

end Steps

/-- A thread for five buffers; the display is closed. -/
def freshDrm : DrmState where
  drm := ⟨-1, -1, 0, true, -1, 0⟩
  run := (freshCapture 5).run
  queue := Queue.init 5 (by decide)
  stop := false
  pc := .start
  prevHw := none
  log := []

theorem freshDrm_start : drmSystem.start freshDrm :=
  ⟨fun h => absurd h (by decide), rfl, rfl, rfl, rfl⟩

/-- The device is opened for DMA, and buffer 0 is taken to be exposed. -/
def drmTakes : List DrmAct :=
  [.device .connected .failed, .go, .openDev (.opened 3 0 5), .go, .device .connected .failed, .go,
    .queueHw 0, .get, .go, .go]

/-- The device is closed, and the thread leaves the inner loop. -/
def drmCloses : List DrmAct := [.device .connected .failed, .go]

theorem exec_drm (acts : List DrmAct) (pc : DrmPc) (log : List DrmEvent)
    (h : (drmSystem.exec freshDrm acts).map (fun s => (s.pc, s.log)) = some (pc, log)) :
    ∃ s, drmSystem.Reach s ∧ s.pc = pc ∧ s.log = log := by
  obtain ⟨s, hs, heq⟩ := Option.map_eq_some_iff.mp h
  obtain ⟨hpc, hlog⟩ := Prod.mk.inj heq
  exact ⟨s, System.Reach.exec acts (.start freshDrm_start) hs, hpc, hlog⟩

/-- Buffer 0 is exposed, the next vsync comes, and the thread is stopped. -/
theorem drm_gives_back_one : ∃ s, drmSystem.Reach s ∧ s.pc.leftInner = true ∧
    s.log = [.closed, .vsync, .taken 0, .exposed 0, .vsync, .decref 0, .closed] ∧
    GivesBack s := by
  obtain ⟨s, hr, hpc, hlog⟩ := exec_drm (drmTakes ++ [DrmAct.expose .connected 0, .go,
    .device .connected (.handled true), .go, .stopRequest, .timeout, .go] ++ drmCloses)
    (.slowdown .slowOuter) [.closed, .vsync, .taken 0, .exposed 0, .vsync, .decref 0, .closed]
    (by decide +kernel)
  exact ⟨s, hr, by rw [hpc]; rfl, hlog, (drm_gives_back_iff hr).1 fun hw => by simp [hlog]⟩

/-- **The display is unplugged when buffer 0 is to be exposed**: nobody gives it back. -/
theorem drm_loses_unexposed : ∃ s, drmSystem.Reach s ∧ s.pc.leftInner = true ∧
    s.log = [.closed, .vsync, .taken 0, .exposeFailed 0, .closed] ∧ ¬ GivesBack s := by
  obtain ⟨s, hr, hpc, hlog⟩ := exec_drm
    (drmTakes ++ [DrmAct.expose .disconnected 0] ++ drmCloses) (.slowdown .slowOuter)
    [.closed, .vsync, .taken 0, .exposeFailed 0, .closed] (by decide +kernel)
  have hleft : s.pc.leftInner = true := by
    rw [hpc]
    rfl
  refine ⟨s, hr, hleft, hlog, fun hg => ?_⟩
  have hcount := hg.leftInner hleft 0
  rw [hlog] at hcount
  exact absurd hcount (by decide)

end TinyPilotKvm
