/-
# The display (`libs/drm/drm.c`)

The functions of the display that the DRM thread calls.  What the kernel and the files under `/sys`
answer is the environment's choice: whether the display is plugged in (`DrmStatus`), how an opening
goes (`DrmOpening`), what a wait for an event brings (`VsyncWait`), and what `drmModePageFlip`
returns.  The functions are `none` where an assertion fails.

A page flip puts a buffer on the screen and ends with an event, the vsync.  `exposingDmaFd` is the
DMA descriptor of the capture buffer that is on its way to the screen; the event clears it.
-/
import TinyPilotKvm.Libs.Tools

namespace TinyPilotKvm

/-- `us_drm_runtime_s`, less the mode, the buffers' own data, DPMS and the blanking. -/
structure DrmRuntime where
  fd : Int
  opened : Int
  nBufs : Nat
  hasVsync : Bool
  exposingDmaFd : Int
  stubNBuf : Nat
  deriving DecidableEq

/-- The results of `_drm_check_status`. -/
inductive DrmStatus
  | connected
  | disconnected
  | error
  deriving DecidableEq

/-- What the callers of `_drm_check_status` return for it; 0: they go on. -/
def DrmStatus.ret : DrmStatus → Int
  | .connected => 0
  | .disconnected => usErrorNoDevice
  | .error => -1

/-- The wait of `us_drm_wait_for_vsync`: `select` and `drmHandleEvent`. -/
inductive VsyncWait
  /-- An error, or the timeout. -/
  | failed
  /-- An event is handled; `flip`: it is the end of a page flip. -/
  | handled (flip : Bool)
  deriving DecidableEq

/-- How `us_drm_open` goes. -/
inductive DrmOpening
  | error
  | unplugged
  /-- Opened for a stub, or with `stub` 0 for DMA. -/
  | opened (fd stub nBufs : Nat)
  deriving DecidableEq

/-- `us_drm_wait_for_vsync`. -/
def usDrmWaitForVsync (run : DrmRuntime) (status : DrmStatus) (wait : VsyncWait) :
    Option (DrmRuntime × Int) :=
  if run.fd < 0 then none
  else if status.ret ≠ 0 then some (run, status.ret)
  else if run.hasVsync then some (run, 0)
  else
    match wait with
    | .failed => some (run, -1)
    -- `_drm_vsync_callback`
    | .handled true => some ({ run with hasVsync := true, exposingDmaFd := -1 }, 0)
    | .handled false => some (run, 0)

/-- `us_drm_close` after its wait. -/
def usDrmClosed (run : DrmRuntime) : DrmRuntime :=
  { run with
    fd := if run.fd ≥ 0 then -1 else run.fd
    opened := -1
    nBufs := 0
    hasVsync := true
    stubNBuf := 0 }

/-- `us_drm_close`; it waits for a buffer that is on its way, whatever comes of the wait. -/
def usDrmClose (run : DrmRuntime) (status : DrmStatus) (wait : VsyncWait) : Option DrmRuntime :=
  if run.exposingDmaFd ≥ 0 then
    (usDrmWaitForVsync run status wait).map fun r => usDrmClosed { r.1 with exposingDmaFd := -1 }
  else some (usDrmClosed run)

/-- `us_drm_open`.  A failure closes what has been opened so far. -/
def usDrmOpen (run : DrmRuntime) (opening : DrmOpening) : Option (DrmRuntime × Int) :=
  if run.fd ≥ 0 then none
  else
    match opening with
    | .error => some (usDrmClosed run, -1)
    | .unplugged => some ({ usDrmClosed run with opened := usErrorNoDevice }, usErrorNoDevice)
    | .opened fd stub nBufs =>
      some ({ run with fd := fd, opened := stub, nBufs := nBufs, exposingDmaFd := -1 }, stub)

/-- `us_drm_expose_stub`; `flip` is what `drmModePageFlip` returns. -/
def usDrmExposeStub (run : DrmRuntime) (status : DrmStatus) (flip : Int) :
    Option (DrmRuntime × Int) :=
  if run.fd < 0 ∨ run.opened ≤ 0 then none
  else if status.ret ≠ 0 then some (run, status.ret)
  else some ({ run with hasVsync := false, stubNBuf := (run.stubNBuf + 1) % run.nBufs }, flip)

/-- `us_drm_expose_dma` of a capture buffer with the descriptor `dmaFd`. -/
def usDrmExposeDma (run : DrmRuntime) (dmaFd : Int) (status : DrmStatus) (flip : Int) :
    Option (DrmRuntime × Int) :=
  if run.fd < 0 ∨ run.opened ≠ 0 then none
  else if status.ret ≠ 0 then some (run, status.ret)
  else some ({ run with hasVsync := false, exposingDmaFd := dmaFd }, flip)

/-! ## What the functions leave -/

/-- Only an open device has a buffer on its way. -/
def DrmRuntime.Sound (run : DrmRuntime) : Prop := run.exposingDmaFd ≥ 0 → run.fd ≥ 0

variable {run run' : DrmRuntime} {status : DrmStatus} {wait : VsyncWait} {ret : Int}

theorem usDrmWaitForVsync_isSome (h : run.fd ≥ 0) (status : DrmStatus) (wait : VsyncWait) :
    ∃ r, usDrmWaitForVsync run status wait = some r := by
  unfold usDrmWaitForVsync
  rw [if_neg (by omega)]
  split
  · exact ⟨_, rfl⟩
  · split
    · exact ⟨_, rfl⟩
    · split <;> exact ⟨_, rfl⟩

/-- A wait opens and closes nothing. -/
theorem usDrmWaitForVsync_keeps (h : usDrmWaitForVsync run status wait = some (run', ret)) :
    run'.fd = run.fd ∧ run'.opened = run.opened := by
  unfold usDrmWaitForVsync at h
  grind

theorem usDrmClosed_fd (run : DrmRuntime) : (usDrmClosed run).fd < 0 := by
  unfold usDrmClosed
  dsimp only
  split <;> omega

/-- **A close succeeds** and leaves nothing open. -/
theorem usDrmClose_spec (h : run.Sound) (status : DrmStatus) (wait : VsyncWait) :
    ∃ run', usDrmClose run status wait = some run' ∧ run'.fd < 0 ∧ run'.exposingDmaFd < 0 := by
  unfold usDrmClose
  split
  · rename_i hexp
    obtain ⟨r, hr⟩ := usDrmWaitForVsync_isSome (h hexp) status wait
    rw [hr]
    exact ⟨_, rfl, usDrmClosed_fd _, Int.negSucc_lt_zero 0⟩
  · rename_i hexp
    exact ⟨_, rfl, usDrmClosed_fd _, Int.not_le.mp hexp⟩

/-- **An opening** fails and leaves nothing open, or there is a device. -/
theorem usDrmOpen_spec (hfd : run.fd < 0) (hexp : run.exposingDmaFd < 0) (opening : DrmOpening) :
    ∃ run' ret, usDrmOpen run opening = some (run', ret) ∧ run'.exposingDmaFd < 0 ∧
      (0 ≤ ret → 0 ≤ run'.fd ∧ run'.opened = ret) := by
  unfold usDrmOpen
  rw [if_neg (by omega)]
  cases opening with
  | error => exact ⟨_, _, rfl, hexp, fun h => absurd h (by decide)⟩
  | unplugged => exact ⟨_, _, rfl, hexp, fun h => absurd h (by decide)⟩
  | opened fd stub nBufs =>
    exact ⟨_, _, rfl, Int.negSucc_lt_zero 0, fun _ => ⟨Int.natCast_nonneg fd, rfl⟩⟩

/-- A stub is exposed on a device that is open for one. -/
theorem usDrmExposeStub_spec (hfd : 0 ≤ run.fd) (hopened : 0 < run.opened) (status : DrmStatus)
    (flip : Int) : ∃ run' ret, usDrmExposeStub run status flip = some (run', ret) ∧
      run'.fd = run.fd ∧ run'.opened = run.opened := by
  unfold usDrmExposeStub
  rw [if_neg (by omega)]
  split
  · exact ⟨_, _, rfl, rfl, rfl⟩
  · exact ⟨_, _, rfl, rfl, rfl⟩

/-- A capture buffer is exposed on a device that is open for DMA. -/
theorem usDrmExposeDma_spec (hfd : 0 ≤ run.fd) (hopened : run.opened = 0) (dmaFd : Int)
    (status : DrmStatus) (flip : Int) :
    ∃ run' ret, usDrmExposeDma run dmaFd status flip = some (run', ret) ∧
      run'.fd = run.fd ∧ run'.opened = run.opened := by
  unfold usDrmExposeDma
  rw [if_neg (by omega)]
  split
  · exact ⟨_, _, rfl, rfl, rfl⟩
  · exact ⟨_, _, rfl, rfl, rfl⟩

end TinyPilotKvm
