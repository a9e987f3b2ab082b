/-
# Which descriptors the capture device closes

`us_capture_close` closes the `dma_fd` of every slot that holds one, and a slot holds none when it
has -1.  `_capture_open_io_method_mmap` puts the -1 there; `_capture_open_io_method_userptr`
leaves the 0 of `calloc`, which is a descriptor like any other.  So with USERPTR every path that
meets a slot before its export closes descriptor 0, and a frame grabbed from such a slot says that
it has a descriptor.

The account is that of `Fds`: `FdInv` says that the variables of the runtime are covered
(`Fds.Covers`), and every path of open and close keeps it as long as no slot holds the 0
(`OpenOk`).  `usCaptureOpen_strays` is the other direction: where `OpenOk` fails, open and close
together close more than they opened.
-/
import TinyPilotKvm.Libs.Capture.Open

namespace TinyPilotKvm

/-! ## 1. What the negotiation leaves alone -/

/-- The parts of the device that matter to its descriptors are the same. -/
structure SameSlots (run run' : UsCaptureRuntime) : Prop where
  fd : run'.fd = run.fd
  bufs : run'.bufs = run.bufs
  nBufs : run'.nBufs = run.nBufs
  streamon : run'.streamon = run.streamon

/-- So are the settings that the rest of `us_capture_open` reads. -/
structure SameDevice (cap cap' : UsCapture) : Prop extends SameSlots cap.run cap'.run where
  ioMethod : cap'.ioMethod = cap.ioMethod
  dmaExport : cap'.dmaExport = cap.dmaExport
  dmaRequired : cap'.dmaRequired = cap.dmaRequired

theorem SameDevice.refl (cap : UsCapture) : SameDevice cap cap :=
  ⟨⟨rfl, rfl, rfl, rfl⟩, rfl, rfl, rfl⟩

theorem SameDevice.trans {cap cap' cap'' : UsCapture} (h : SameDevice cap cap')
    (h' : SameDevice cap' cap'') : SameDevice cap cap'' :=
  ⟨⟨h'.fd.trans h.fd, h'.bufs.trans h.bufs, h'.nBufs.trans h.nBufs,
    h'.streamon.trans h.streamon⟩, h'.ioMethod.trans h.ioMethod, h'.dmaExport.trans h.dmaExport,
    h'.dmaRequired.trans h.dmaRequired⟩

theorem captureApplyResolution_same (cap : UsCapture) (width height : Nat) (hz : ℚ) :
    SameDevice cap (captureApplyResolution cap width height hz).2 := by
  unfold captureApplyResolution
  split
  · exact .refl cap
  · exact ⟨⟨rfl, rfl, rfl, rfl⟩, rfl, rfl, rfl⟩

theorem captureOpenDvTimings_same (cap : UsCapture) (apply : Bool) (a : DvAnswers) :
    SameDevice cap (captureOpenDvTimings cap apply a).2 := by
  have hsub : ∀ cap' : UsCapture, SameDevice cap cap' →
      SameDevice cap (if a.subscribe then ((0 : Int), cap') else (-1, cap')).2 := by
    intro cap' h
    split <;> exact h
  have hstd : ∀ std, SameDevice cap { cap with standard := std } :=
    fun _ => ⟨⟨rfl, rfl, rfl, rfl⟩, rfl, rfl, rfl⟩
  unfold captureOpenDvTimings
  dsimp only
  split
  · exact .refl cap
  · exact .refl cap
  · rename_i dv _
    have hres := captureApplyResolution_same cap dv.width dv.height (dvHz dv)
    split
    · exact .refl cap
    · split
      · exact .refl cap
      · split
        · exact hres
        · exact hsub _ hres
  · split
    · exact .refl cap
    · split
      · exact hstd _
      · split
        · exact hstd _
        · exact hsub _ (hstd _)

theorem captureOpenCheckCap_same (cap : UsCapture) (a : CapAnswers) :
    SameDevice cap (captureOpenCheckCap cap a).2 := by
  unfold captureOpenCheckCap
  split
  · exact .refl cap
  · split
    · exact .refl cap
    · dsimp only
      split
      · exact ⟨⟨rfl, rfl, rfl, rfl⟩, rfl, rfl, rfl⟩
      · split
        · exact ⟨⟨rfl, rfl, rfl, rfl⟩, rfl, rfl, rfl⟩
        · split <;> exact ⟨⟨rfl, rfl, rfl, rfl⟩, rfl, rfl, rfl⟩

theorem captureOpenFormatWith_same (answer : Option FmtAnswer)
    (again : Option (UsCapture → Int × UsCapture))
    (hagain : ∀ next, again = some next → ∀ cap, SameDevice cap (next cap).2) (cap : UsCapture) :
    SameDevice cap (captureOpenFormatWith answer again cap).2 := by
  unfold captureOpenFormatWith
  cases answer with
  | none => exact .refl cap
  | some a =>
    have hres := captureApplyResolution_same cap a.width a.height cap.run.hz
    dsimp only
    split
    · exact .refl cap
    · split
      · exact hres
      · split
        · exact hres.trans (hagain _ rfl _)
        · split
          · exact hres
          · exact hres.trans ⟨⟨rfl, rfl, rfl, rfl⟩, rfl, rfl, rfl⟩

theorem captureOpenFormat_same (cap : UsCapture) (answers : Bool → Option FmtAnswer) :
    SameDevice cap (captureOpenFormat cap answers).2 := by
  refine captureOpenFormatWith_same _ _ (fun next hnext cap' => ?_) cap
  obtain rfl := Option.some.inj hnext
  exact captureOpenFormatWith_same _ none (fun _ h => absurd h (by simp)) cap'

theorem captureOpenProbe_same (cap : UsCapture) (power : Option Int) (probe : DvAnswers) :
    SameDevice cap (captureOpenProbe cap power probe).2 := by
  have hdv := captureOpenDvTimings_same cap false probe
  unfold captureOpenProbe
  split
  · exact .refl cap
  · dsimp only
    split <;> exact hdv

theorem orError_same {cap : UsCapture} {step : Int × UsCapture}
    {next : UsCapture → Int × UsCapture} (hstep : SameDevice cap step.2)
    (hnext : ∀ cap', SameDevice cap cap' → SameDevice cap (next cap').2) :
    SameDevice cap (orError step next).2 := by
  unfold orError
  split
  · exact hstep
  · exact hnext _ hstep

theorem captureOpenSetup_same (watched : Bool) (a : OpenAnswers) (cap : UsCapture) :
    SameDevice cap (captureOpenSetup watched a cap).2 := by
  unfold captureOpenSetup
  refine orError_same (captureOpenCheckCap_same cap _) fun c hc => ?_
  refine orError_same (hc.trans (captureApplyResolution_same c _ _ _)) fun c hc => ?_
  refine orError_same ?_ fun c hc => ?_
  · split
    · exact hc.trans (captureOpenDvTimings_same c true a.apply)
    · exact hc
  · refine orError_same (hc.trans (captureOpenFormat_same c a.fmt)) fun c hc => ?_
    split <;> exact hc

/-- **The negotiation touches no slot and no descriptor.** -/
theorem captureOpenNegotiate_same (cap : UsCapture) (a : OpenAnswers) :
    SameDevice cap (captureOpenNegotiate cap a).2 := by
  have hprobe := captureOpenProbe_same cap a.power a.probe
  unfold captureOpenNegotiate
  dsimp only
  cases hw : cap.dvTimings && cap.persistent with
  | false => exact captureOpenSetup_same false a cap
  | true =>
    simp only [if_true]
    split
    · exact hprobe
    · exact hprobe.trans (captureOpenSetup_same true a _)

/-! ## 2. The slots -/

/-- What the loop over the slots has done: `nBufs` of them are filled, all with `P`. -/
structure Filled (P : UsCaptureHwbuf → Prop) (run run' : UsCaptureRuntime) : Prop where
  fd : run'.fd = run.fd
  format : run'.format = run.format
  nBufs_le : run'.nBufs ≤ run'.bufs.length
  filled : ∀ i < run'.nBufs, P (run'.hw i)

/-- **The loop over the slots**, when `slot` makes a `P` of a slot fresh from `calloc`. -/
theorem captureSlots_filled {slot : Nat → UsCaptureHwbuf → Option UsCaptureHwbuf}
    {P : UsCaptureHwbuf → Prop} (hP : ∀ i hw, slot i .zero = some hw → P hw) :
    ∀ (todo : Nat) (run : UsCaptureRuntime), run.nBufs + todo = run.bufs.length →
      (∀ i < run.nBufs, P (run.hw i)) → (∀ i, run.nBufs ≤ i → run.hw i = .zero) →
      let r := captureSlots slot todo run
      Filled P run r.2 ∧ r.2.bufs.length = run.bufs.length ∧
        (r.1 = 0 ∧ r.2.nBufs = r.2.bufs.length ∨
          r.1 = -1 ∧ ∃ i, slot i UsCaptureHwbuf.zero = none)
  | 0, run, hlen, hfill, _ =>
    ⟨⟨rfl, rfl, Nat.le.intro hlen, hfill⟩, rfl, Or.inl ⟨rfl, hlen⟩⟩
  | todo + 1, run, hlen, hfill, hzero => by
    intro r
    have hslot := hzero run.nBufs (le_refl _)
    cases hs : slot run.nBufs UsCaptureHwbuf.zero with
    | none =>
      have hr : r = (-1, run) := by
        simp only [r, captureSlots, hslot, hs]
      rw [hr]
      exact ⟨⟨rfl, rfl, Nat.le.intro hlen, hfill⟩, rfl, Or.inr ⟨rfl, _, hs⟩⟩
    | some hw =>
      let run1 : UsCaptureRuntime :=
        { run.modifyHw run.nBufs (fun _ => hw) with nBufs := run.nBufs + 1 }
      have hr : r = captureSlots slot todo run1 := by
        simp only [r, captureSlots, hslot, hs]
        rfl
      have hlen1 : run1.bufs.length = run.bufs.length := run.length_bufs_modifyHw _ _
      have hne : ∀ i, run.nBufs ≠ i → run1.hw i = run.hw i :=
        fun i hi => UsCaptureRuntime.hw_modifyHw_of_ne _ hi
      have hself : run1.hw run.nBufs = hw := by
        refine (UsCaptureRuntime.hw_modifyHw_self (fun _ => hw) ?_)
        omega
      obtain ⟨hf, hl, hret⟩ := captureSlots_filled hP todo run1
        (by rw [hlen1, ← hlen]; show run.nBufs + 1 + todo = _; omega)
        (fun i hi => by
          rcases Nat.lt_succ_iff_lt_or_eq.mp hi with hi | rfl
          · rw [hne i (by omega)]
            exact hfill i hi
          · rw [hself]
            exact hP _ _ hs)
        (fun i hi => by
          have hi' : run.nBufs + 1 ≤ i := hi
          rw [hne i (by omega)]
          exact hzero i (by omega))
      rw [hr]
      exact ⟨⟨hf.fd, hf.format, hf.nBufs_le, hf.filled⟩, hl.trans hlen1, hret⟩

/-- The request and the loop: no buffers at all, or `count` slots. -/
theorem captureOpenSlots_cases {slot : Nat → UsCaptureHwbuf → Option UsCaptureHwbuf}
    {P : UsCaptureHwbuf → Prop} (hP : ∀ i hw, slot i .zero = some hw → P hw)
    (run : UsCaptureRuntime) (reqbufs : Option Nat) :
    let r := captureOpenSlots run reqbufs slot
    (r = (-1, run) ∧ ∀ count, reqbufs = some count → count < 1) ∨
      ∃ count, reqbufs = some count ∧ 1 ≤ count ∧ Filled P run r.2 ∧ r.2.bufs.length = count ∧
        (r.1 = 0 ∧ r.2.nBufs = count ∨ r.1 = -1 ∧ ∃ i, slot i UsCaptureHwbuf.zero = none) := by
  intro r
  cases hreq : reqbufs with
  | none => exact Or.inl ⟨by simp only [r, captureOpenSlots, hreq], fun _ h => absurd h (by simp)⟩
  | some count =>
    by_cases hc : count < 1
    · exact Or.inl ⟨by simp only [r, captureOpenSlots, hreq, if_pos hc],
        fun _ h => Option.some.inj h ▸ hc⟩
    · let run0 : UsCaptureRuntime :=
        { run with bufs := List.replicate count UsCaptureHwbuf.zero, nBufs := 0 }
      have hr : r = captureSlots slot count run0 := by
        simp only [r, captureOpenSlots, hreq, if_neg hc]
        rfl
      have hlen0 : run0.bufs.length = count := List.length_replicate
      obtain ⟨hf, hl, hret⟩ := captureSlots_filled hP count run0
        (by rw [hlen0]; exact Nat.zero_add count) (fun i hi => absurd hi (Nat.not_lt_zero i))
        (fun i _ => by simp [run0, UsCaptureRuntime.hw, List.getElem?_replicate]; split <;> rfl)
      rw [hr]
      refine Or.inr ⟨count, rfl, by omega, ⟨hf.fd, hf.format, hf.nBufs_le, hf.filled⟩,
        hl.trans hlen0, ?_⟩
      rw [hl, hlen0] at hret
      exact hret

/-! ## 3. The invariant -/

/-- Every descriptor the runtime holds is owned. -/
structure FdHeld (run : UsCaptureRuntime) (dev : Device) : Prop where
  nBufs_le : run.nBufs ≤ run.bufs.length
  fd_ge : -1 ≤ run.fd
  covers : dev.fds.Covers (run.fd :: dmaFds run run.nBufs)

/-- And those of the slots were exported for them. -/
structure FdInv (run : UsCaptureRuntime) (dev : Device) : Prop extends FdHeld run dev where
  exported : ∀ i < run.nBufs, 0 ≤ (run.hw i).dmaFd → (i, (run.hw i).dmaFd) ∈ dev.exports

/-- The run state of a device that is not open. -/
structure Closed (run : UsCaptureRuntime) : Prop where
  fd : run.fd = -1
  bufs : run.bufs = []
  nBufs : run.nBufs = 0
  streamon : run.streamon = false

/-- A closed device holds nothing. -/
theorem Closed.fdInv {run : UsCaptureRuntime} {dev : Device} (h : Closed run)
    (hs : dev.fds.strays = []) : FdInv run dev := by
  refine ⟨⟨by rw [h.nBufs]; exact Nat.zero_le _, by rw [h.fd], ⟨hs, fun x hx => ?_⟩⟩,
    fun i hi => absurd hi (by rw [h.nBufs]; exact Nat.not_lt_zero i)⟩
  rw [h.fd, h.nBufs, List.count_eq_zero_of_not_mem]
  · exact Nat.zero_le _
  · simp only [dmaFds, List.range_zero, List.map_nil, List.mem_singleton]
    omega

/-- **Close** closes what is owned, and the device. -/
theorem FdHeld.close {cap : UsCapture} {dev : Device} (h : FdHeld cap.run dev) :
    Closed (usCaptureClose cap dev).1.run ∧ (usCaptureClose cap dev).2.fds.strays = [] := by
  have hfd : closedVar cap.run.fd = -1 := by
    have := h.fd_ge
    unfold closedVar
    split <;> omega
  have hcov : dev.fds.Covers (dmaFds cap.run cap.run.nBufs ++ [cap.run.fd]) := by
    refine h.covers.mono fun x _ => ?_
    rw [List.count_append, List.count_singleton, List.count_cons]
  unfold usCaptureClose
  dsimp only
  split
  · rename_i hb
    have hn : cap.run.nBufs = 0 := by
      have := h.nBufs_le
      rw [hb, List.length_nil] at this
      omega
    rw [hn] at hcov
    have hcov1 : dev.fds.Covers [cap.run.fd] := hcov
    exact ⟨⟨hfd, hb, hn, rfl⟩, hcov1.closeVar.strays⟩
  · exact ⟨⟨hfd, rfl, rfl, rfl⟩, (Fds.Covers.closeVar (hcov.closeAll _)).strays⟩

/-- What every path of `us_capture_open` is to establish. -/
structure OpenSpec (r : OpenResult) : Prop where
  inv : FdInv r.cap.run r.dev
  closed : r.ret ≠ 0 → Closed r.cap.run

theorem captureOpenError_spec {cap : UsCapture} {dev : Device} (h : FdHeld cap.run dev)
    (ret : Int) :
    OpenSpec (captureOpenError ret cap dev) :=
  ⟨h.close.1.fdInv h.close.2, fun _ => h.close.1⟩

theorem captureOpenStream_spec (a : OpenAnswers) {cap : UsCapture} {dev : Device}
    (h : FdInv cap.run dev) : OpenSpec (captureOpenStream a cap dev) := by
  unfold captureOpenStream
  split
  · exact captureOpenError_spec h.toFdHeld (-1)
  · exact ⟨⟨⟨h.nBufs_le, h.fd_ge, h.covers⟩, h.exported⟩, fun hr => absurd rfl hr⟩

/-- Numbers that are no descriptors count for nothing. -/
theorem count_eq_zero_of_neg {x : Int} (hx : 0 ≤ x) {l : List Int} (h : ∀ y ∈ l, y < 0) :
    l.count x = 0 :=
  List.count_eq_zero_of_not_mem fun hmem => absurd (h _ hmem) (not_lt.mpr hx)

/-- Slots that hold nothing are covered with the device alone. -/
theorem fdInv_of_neg {run : UsCaptureRuntime} {dev : Device} (hle : run.nBufs ≤ run.bufs.length)
    (hfd : -1 ≤ run.fd) (hcov : dev.fds.Covers [run.fd])
    (hneg : ∀ i < run.nBufs, (run.hw i).dmaFd < 0) : FdInv run dev := by
  refine ⟨⟨hle, hfd, hcov.mono fun x hx => ?_⟩, fun i hi hpos => absurd (hneg i hi) (by omega)⟩
  rw [List.count_cons, List.count_singleton, count_eq_zero_of_neg hx, Nat.zero_add]
  intro y hy
  obtain ⟨i, hi, rfl⟩ := List.mem_map.mp hy
  exact hneg i (List.mem_range.mp hi)

/-! ## 4. Exporting -/

theorem dmaFds_succ (run : UsCaptureRuntime) (m : Nat) :
    dmaFds run (m + 1) = dmaFds run m ++ [(run.hw m).dmaFd] := by
  simp [dmaFds, List.range_succ]

theorem dmaFds_congr {run run' : UsCaptureRuntime} {m : Nat}
    (h : ∀ i < m, (run'.hw i).dmaFd = (run.hw i).dmaFd) : dmaFds run' m = dmaFds run m :=
  List.map_congr_left fun i hi => h i (List.mem_range.mp hi)

/-- What the export loop has done: the first `m` slots hold what was exported for them, and the
others are as they were. -/
structure Exported (a : OpenAnswers) (run : UsCaptureRuntime) (dev : Device) (m : Nat)
    (run' : UsCaptureRuntime) (dev' : Device) : Prop where
  isSome : ∀ i < m, (a.expbuf i).isSome = true
  fd : run'.fd = run.fd
  nBufs : run'.nBufs = run.nBufs
  length : run'.bufs.length = run.bufs.length
  covers : dev'.fds.Covers (run'.fd :: dmaFds run' m)
  exports : ∀ i < m, (i, (run'.hw i).dmaFd) ∈ dev'.exports
  nonneg : ∀ i < m, 0 ≤ (run'.hw i).dmaFd
  owned : dev'.fds.owned.length = dev.fds.owned.length + m
  rest : ∀ i, m ≤ i → run'.hw i = run.hw i

theorem Exported.start (a : OpenAnswers) {run : UsCaptureRuntime} {dev : Device}
    (hcov : dev.fds.Covers [run.fd]) : Exported a run dev 0 run dev := by
  refine ⟨?_, rfl, rfl, rfl, hcov, ?_, ?_, rfl, fun _ _ => rfl⟩ <;>
    exact fun i hi => absurd hi (Nat.not_lt_zero i)

/-- **The export loop** stops at the first slot that the device does not export. -/
theorem captureExports_exported (a : OpenAnswers) {run0 : UsCaptureRuntime} {dev0 : Device} :
    ∀ (todo index : Nat) {run : UsCaptureRuntime} {dev : Device},
      index + todo = run0.bufs.length → Exported a run0 dev0 index run dev →
      let r := captureExports a index todo run dev
      (r.1 = true ∧ Exported a run0 dev0 (index + todo) r.2.1 r.2.2) ∨
        (r.1 = false ∧ ∃ m, m < index + todo ∧ a.expbuf m = none ∧
          Exported a run0 dev0 m r.2.1 r.2.2)
  | 0, index, _, _, _, he => Or.inl ⟨rfl, he⟩
  | todo + 1, index, run, dev, hlen, he => by
    intro r
    cases hx : a.expbuf index with
    | none =>
      have hr : r = (false, run, dev) := by
        simp only [r, captureExports, hx]
      rw [hr]
      exact Or.inr ⟨rfl, index, by omega, hx, he⟩
    | some fd =>
      let run1 := run.modifyHw index fun hw => { hw with dmaFd := fd }
      let dev1 : Device :=
        { dev with fds := dev.fds.opened fd, exports := (index, (fd : Int)) :: dev.exports }
      have hr : r = captureExports a (index + 1) todo run1 dev1 := by
        simp only [r, captureExports, hx]
        rfl
      have hlt : index < run.bufs.length := by
        rw [he.length]
        omega
      have hself : (run1.hw index).dmaFd = fd := by
        rw [UsCaptureRuntime.hw_modifyHw_self _ hlt]
      have hne : ∀ i, index ≠ i → run1.hw i = run.hw i :=
        fun i hi => UsCaptureRuntime.hw_modifyHw_of_ne _ hi
      have he1 : Exported a run0 dev0 (index + 1) run1 dev1 := {
        isSome := fun i hi => by
          rcases Nat.lt_succ_iff_lt_or_eq.mp hi with hi | rfl
          · exact he.isSome i hi
          · rw [hx]
            rfl
        fd := he.fd
        nBufs := he.nBufs
        length := (run.length_bufs_modifyHw _ _).trans he.length
        covers := by
          have hfds : dmaFds run1 index = dmaFds run index :=
            dmaFds_congr fun i hi => by rw [hne i (by omega)]
          rw [dmaFds_succ, hself, hfds, show run1.fd = run.fd from rfl]
          refine (he.covers.opened fd).mono fun x _ => ?_
          simp only [List.count_cons, List.count_append, List.count_nil]
          omega
        exports := fun i hi => by
          rcases Nat.lt_succ_iff_lt_or_eq.mp hi with hi | rfl
          · rw [hne i (by omega)]
            exact List.mem_cons_of_mem _ (he.exports i hi)
          · rw [hself]
            exact List.mem_cons_self
        nonneg := fun i hi => by
          rcases Nat.lt_succ_iff_lt_or_eq.mp hi with hi | rfl
          · rw [hne i (by omega)]
            exact he.nonneg i hi
          · rw [hself]
            exact Int.natCast_nonneg fd
        owned := by
          show (dev.fds.owned.length + 1) = _
          rw [he.owned]
          omega
        rest := fun i hi => by
          rw [hne i (by omega)]
          exact he.rest i (by omega) }
      rw [hr]
      have := captureExports_exported a todo (index + 1) (by omega) he1
      rw [show index + 1 + todo = index + (todo + 1) by omega] at this
      exact this

/-- The slots after the `error` label of the export hold nothing, and nothing is changed besides. -/
theorem hw_closeSlots (run : UsCaptureRuntime) (i : Nat) :
    let run' : UsCaptureRuntime := { run with bufs := run.bufs.mapIdx fun i hw =>
      if i < run.nBufs then { hw with dmaFd := closedVar hw.dmaFd } else hw }
    i < run.nBufs → run.nBufs ≤ run.bufs.length →
      (run'.hw i).dmaFd = closedVar (run.hw i).dmaFd := by
  intro run' hi hle
  have hlt : i < run.bufs.length := by omega
  simp [run', UsCaptureRuntime.hw, hlt, hi]

/-- A variable that was closed holds nothing. -/
theorem closedVar_neg (x : Int) : closedVar x < 0 := by
  unfold closedVar
  split <;> omega

/-- **The export** keeps the invariant if no slot holds a descriptor before it, and establishes it
if every slot is exported. -/
theorem captureOpenExportToDma_inv {a : OpenAnswers} {run : UsCaptureRuntime} {dev : Device}
    (hlen : run.nBufs = run.bufs.length) (hfd : -1 ≤ run.fd) (hcov : dev.fds.Covers [run.fd])
    (h : (∀ i < run.nBufs, (run.hw i).dmaFd = -1) ∨ ∀ i < run.nBufs, (a.expbuf i).isSome) :
    let r := captureOpenExportToDma a run dev
    FdInv r.2.1 r.2.2 := by
  have he0 : Exported a run dev 0 run dev :=
    .start a hcov
  intro r
  rcases captureExports_exported a run.nBufs 0 (by omega) he0 with ⟨hok, he⟩ | ⟨hok, m, hm, hx, he⟩
  · have hr : r = (0, (captureExports a 0 run.nBufs run dev).2) := by
      simp only [r, captureOpenExportToDma, hok, if_true]
    rw [Nat.zero_add] at he
    rw [hr]
    refine ⟨⟨by rw [he.nBufs, he.length, hlen], by rw [he.fd]; exact hfd, ?_⟩, fun i hi _ => ?_⟩
    · rw [he.nBufs]
      exact he.covers
    · rw [he.nBufs] at hi
      exact he.exports i hi
  · rw [Nat.zero_add] at hm
    have hneg : ∀ i < run.nBufs, (run.hw i).dmaFd = -1 := by
      rcases h with h | h
      · exact h
      · have := h m hm
        rw [hx] at this
        exact absurd this (by simp)
    -- the loop stopped at `m`: the slots from there on hold nothing
    generalize hg : captureExports a 0 run.nBufs run dev = e at hok he
    have hle : e.2.1.nBufs ≤ e.2.1.bufs.length := by
      rw [he.nBufs, he.length, hlen]
    have hslots : e.2.2.fds.Covers (dmaFds e.2.1 e.2.1.nBufs ++ [e.2.1.fd]) := by
      refine he.covers.mono fun x hx => ?_
      have hcount : ∀ k, m + k ≤ run.nBufs →
          (dmaFds e.2.1 (m + k)).count x = (dmaFds e.2.1 m).count x := by
        intro k
        induction k with
        | zero => exact fun _ => rfl
        | succ k ih =>
          intro hk
          rw [← Nat.add_assoc, dmaFds_succ, List.count_append, ih (by omega),
            he.rest _ (by omega), hneg _ (by omega),
            count_eq_zero_of_neg hx (l := [-1]) (by simp), Nat.add_zero]
      have hall := hcount (run.nBufs - m) (by omega)
      rw [show m + (run.nBufs - m) = run.nBufs by omega] at hall
      rw [he.nBufs, List.count_append, List.count_singleton, List.count_cons, hall]
    have hr : r = (-1, { e.2.1 with bufs := e.2.1.bufs.mapIdx fun i hw =>
          if i < e.2.1.nBufs then { hw with dmaFd := closedVar hw.dmaFd } else hw },
        { e.2.2 with fds := e.2.2.fds.closeAll (dmaFds e.2.1 e.2.1.nBufs) }) := by
      simp only [r, captureOpenExportToDma, hg, hok, Bool.false_eq_true, if_false]
    have hclosed := hslots.closeAll
    rw [hr]
    refine fdInv_of_neg (by rw [List.length_mapIdx]; exact hle) (by rw [he.fd]; exact hfd)
      hclosed fun i hi => ?_
    rw [hw_closeSlots e.2.1 i hi hle]
    exact closedVar_neg _

/-! ## 5. Opening -/

/-- Once the buffers are queued: the slots hold nothing, or every one of them is exported. -/
theorem captureOpenExport_spec {a : OpenAnswers} {cap : UsCapture} {dev : Device}
    (hlen : cap.run.nBufs = cap.run.bufs.length) (hfd : -1 ≤ cap.run.fd)
    (hcov : dev.fds.Covers [cap.run.fd])
    (h : (∀ i < cap.run.nBufs, (cap.run.hw i).dmaFd = -1) ∨
      (cap.dmaExport && !usIsJpeg cap.run.format) = true ∧
        ∀ i < cap.run.nBufs, (a.expbuf i).isSome) :
    OpenSpec (captureOpenExport a cap dev) := by
  unfold captureOpenExport
  split
  · have hinv := captureOpenExportToDma_inv (a := a) hlen hfd hcov (h.imp_right And.right)
    generalize captureOpenExportToDma a cap.run dev = r at hinv
    have hinv' : FdInv { r.2.1 with dma := decide (r.1 = 0) } r.2.2 :=
      ⟨⟨hinv.nBufs_le, hinv.fd_ge, hinv.covers⟩, hinv.exported⟩
    dsimp only
    split
    · exact captureOpenError_spec hinv'.toFdHeld (-1)
    · exact captureOpenStream_spec a hinv'
  · rename_i hno
    rcases h with h | ⟨hexp, -⟩
    · exact captureOpenStream_spec a (fdInv_of_neg hlen.le hfd hcov fun i hi => by
        rw [h i hi]
        decide)
    · exact absurd hexp hno

/-- The device as it is negotiated over the descriptor `fd`. -/
def negotiated (cap : UsCapture) (a : OpenAnswers) (fd : Nat) : Int × UsCapture :=
  captureOpenNegotiate { cap with run := { cap.run with fd := fd } } a

/-- Every buffer is queued and exported: the open cannot meet a slot that was not. -/
def AllExported (cap : UsCapture) (a : OpenAnswers) (count : Nat) : Prop :=
  (∀ i < count, a.qbuf i = true) ∧ (cap.dmaExport && !usIsJpeg cap.run.format) = true ∧
    ∀ i < count, (a.expbuf i).isSome = true

/-- **The condition.**  The buffers are mapped; or the open does not get as far as having
buffers; or it queues and exports every one of them. -/
def OpenOk (cap : UsCapture) (a : OpenAnswers) : Prop :=
  cap.ioMethod = .mmap ∨
    ∀ fd count, a.access = true → a.openFd = some fd → (negotiated cap a fd).1 = 0 →
      a.reqbufs = some count → 1 ≤ count → AllExported (negotiated cap a fd).2 a count

theorem captureOpenQueueBuffers_ret {a : OpenAnswers} : ∀ (todo index : Nat) (queued : Finset Nat),
    (captureOpenQueueBuffers a index todo queued).1 < 0 ↔
      ¬ ∀ i, index ≤ i → i < index + todo → a.qbuf i = true
  | 0, index, queued => by
    refine iff_of_false (by simp [captureOpenQueueBuffers]) ?_
    exact not_not.mpr fun i h1 h2 => by omega
  | todo + 1, index, queued => by
    rw [captureOpenQueueBuffers]
    split
    · rename_i hq
      rw [captureOpenQueueBuffers_ret todo (index + 1), not_iff_not]
      constructor
      · intro h i h1 h2
        by_cases hi : i = index
        · exact hi ▸ hq
        · exact h i (by omega) (by omega)
      · exact fun h i h1 h2 => h i (by omega) (by omega)
    · rename_i hq
      exact iff_of_true (by simp) fun h => hq (h index (le_refl _) (by omega))

/-- Once the format is negotiated, with mapped buffers. -/
theorem captureOpenBuffers_mmap {a : OpenAnswers} {cap : UsCapture} {dev : Device}
    (hio : cap.ioMethod = .mmap) (h : FdHeld cap.run dev) :
    OpenSpec (captureOpenBuffers a cap dev) := by
  have hP : ∀ i hw, mmapSlot a i .zero = some hw → hw.dmaFd = -1 := by
    intro i hw hs
    obtain ⟨size, -, hs⟩ := Option.bind_eq_some_iff.mp hs
    split at hs
    · exact Option.some.inj hs ▸ rfl
    · exact absurd hs (by simp)
  have hcov : dev.fds.Covers [cap.run.fd] := h.covers.mono fun x _ => by
    rw [List.count_cons, List.count_cons, List.count_nil]
    omega
  unfold captureOpenBuffers
  have hr : captureOpenIoMethod cap a = captureOpenSlots cap.run a.reqbufs (mmapSlot a) := by
    rw [captureOpenIoMethod, hio, captureOpenIoMethodMmap]
  rw [hr]
  rcases captureOpenSlots_cases hP cap.run a.reqbufs with
    ⟨hr, -⟩ | ⟨count, -, -, hf, hlen, hret⟩
  · rw [hr]
    dsimp only
    rw [if_pos (by decide)]
    refine captureOpenError_spec ?_ (-1)
    exact ⟨h.nBufs_le, h.fd_ge, h.covers⟩
  · generalize captureOpenSlots cap.run a.reqbufs (mmapSlot a) = r at hf hlen hret
    have hfd : -1 ≤ r.2.fd := hf.fd ▸ h.fd_ge
    rw [← hf.fd] at hcov
    have hneg : ∀ i < r.2.nBufs, (r.2.hw i).dmaFd < 0 := fun i hi => by
      rw [hf.filled i hi]
      decide
    dsimp only
    split
    · refine captureOpenError_spec ?_ (-1)
      refine (fdInv_of_neg hf.nBufs_le hfd ?_ hneg).toFdHeld
      exact hcov
    · rename_i hret0
      split
      · refine captureOpenError_spec ?_ (-1)
        refine (fdInv_of_neg hf.nBufs_le hfd ?_ hneg).toFdHeld
        exact hcov
      · refine captureOpenExport_spec ?_ hfd hcov (Or.inl hf.filled)
        rcases hret with ⟨-, hn⟩ | ⟨hm, -⟩
        · rw [hlen]
          exact hn
        · rw [hm] at hret0
          exact absurd (by decide) hret0

/-- Once the format is negotiated, with buffers of the process. -/
theorem captureOpenBuffers_userptr {a : OpenAnswers} {cap : UsCapture} {dev : Device}
    (hio : cap.ioMethod = .userptr) (h : FdHeld cap.run dev)
    (hall : ∀ count, a.reqbufs = some count → 1 ≤ count → AllExported cap a count) :
    OpenSpec (captureOpenBuffers a cap dev) := by
  have hcov : dev.fds.Covers [cap.run.fd] := h.covers.mono fun x _ => by
    rw [List.count_cons, List.count_cons, List.count_nil]
    omega
  unfold captureOpenBuffers
  have hr : captureOpenIoMethod cap a
      = captureOpenSlots cap.run a.reqbufs (userptrSlot (usAlignSize cap.run.rawSize 4096)) := by
    rw [captureOpenIoMethod, hio, captureOpenIoMethodUserptr]
  rw [hr]
  rcases captureOpenSlots_cases (P := fun _ => True) (fun _ _ _ => trivial) cap.run a.reqbufs with
    ⟨hr, -⟩ | ⟨count, hreq, hpos, hf, hlen, hret⟩
  · rw [hr]
    dsimp only
    rw [if_pos (by decide)]
    refine captureOpenError_spec ?_ (-1)
    exact ⟨h.nBufs_le, h.fd_ge, h.covers⟩
  · obtain ⟨hq, hexp, hx⟩ := hall count hreq hpos
    generalize captureOpenSlots cap.run a.reqbufs
      (userptrSlot (usAlignSize cap.run.rawSize 4096)) = r at hf hlen hret
    rcases hret with ⟨hret, hn⟩ | ⟨-, i, hi⟩
    · have hqueue : ¬ (captureOpenQueueBuffers a 0 r.2.nBufs ∅).1 < 0 := by
        rw [captureOpenQueueBuffers_ret, not_not]
        exact fun i _ hi => hq i (by omega)
      dsimp only
      rw [hret, if_neg (by decide), if_neg hqueue]
      rw [← hf.fd] at hcov
      refine captureOpenExport_spec (hn.trans hlen.symm) (hf.fd ▸ h.fd_ge) hcov
        (Or.inr ⟨?_, fun i hi => hx i (by rw [← hn]; exact hi)⟩)
      rw [hf.format]
      exact hexp
    · exact absurd hi (by simp [userptrSlot])

/-- **Open** keeps the account under its condition, and closes everything if it fails. -/
theorem usCaptureOpen_spec {cap : UsCapture} {dev : Device} {a : OpenAnswers}
    (h : FdHeld cap.run dev) (hok : OpenOk cap a) : OpenSpec (usCaptureOpen cap dev a) := by
  unfold usCaptureOpen
  split
  · exact captureOpenError_spec h _
  · rename_i hacc
    have hacc' : a.access = true := by simpa using hacc
    have hslots : dev.fds.Covers (dmaFds cap.run cap.run.nBufs) := h.covers.mono fun x _ => by
      rw [List.count_cons]
      omega
    split
    · refine captureOpenError_spec ?_ _
      refine ⟨h.nBufs_le, le_refl (-1 : Int), hslots.mono fun x hx => ?_⟩
      show (-1 :: dmaFds cap.run cap.run.nBufs).count x ≤ _
      rw [List.count_cons_of_ne (by omega)]
    · rename_i fd hfd
      have hsame := captureOpenNegotiate_same { cap with run := { cap.run with fd := fd } } a
      have hneg : negotiated cap a fd
          = captureOpenNegotiate { cap with run := { cap.run with fd := fd } } a := rfl
      dsimp only
      rw [← hneg] at hsame ⊢
      have hheld : FdHeld (negotiated cap a fd).2.run { dev with fds := dev.fds.opened fd } := by
        have hdma : dmaFds (negotiated cap a fd).2.run (negotiated cap a fd).2.run.nBufs
            = dmaFds cap.run cap.run.nBufs := by
          simp only [dmaFds, UsCaptureRuntime.hw, hsame.bufs, hsame.nBufs]
        refine ⟨by rw [hsame.nBufs, hsame.bufs]; exact h.nBufs_le, ?_, ?_⟩
        · rw [hsame.fd]
          show (-1 : Int) ≤ (fd : Int)
          omega
        · rw [hsame.fd, hdma]
          exact hslots.opened fd
      split
      · exact captureOpenError_spec hheld _
      · rename_i hret
        have hret' : (negotiated cap a fd).1 = 0 := not_not.mp hret
        cases hio : cap.ioMethod with
        | mmap => exact captureOpenBuffers_mmap (hsame.ioMethod.trans hio) hheld
        | userptr =>
          refine captureOpenBuffers_userptr (hsame.ioMethod.trans hio) hheld fun count hreq hc => ?_
          rcases hok with hm | hall
          · rw [hio] at hm
            exact absurd hm (by decide)
          · exact hall fd count hacc' hfd hret' hreq hc

/-! ## 6. Where the condition fails -/

/-- More slots hold a number than descriptors were obtained for them. -/
structure Short (run : UsCaptureRuntime) (dev : Device) : Prop where
  bufs : run.bufs ≠ []
  fd : 0 ≤ run.fd
  nonneg : ∀ i < run.nBufs, 0 ≤ (run.hw i).dmaFd
  owned : dev.fds.owned.length ≤ run.nBufs

/-- Closing more than was obtained closes something astray. -/
theorem strays_of_owned_lt {w : Fds} {xs : List Int} {x : Int} (hxs : ∀ y ∈ xs, 0 ≤ y) (hx : 0 ≤ x)
    (hlen : w.owned.length ≤ xs.length) : ((w.closeAll xs).closeVar x).strays ≠ [] := by
  intro h
  have hall : ∀ y ∈ xs ++ [x], 0 ≤ y := by
    intro y hy
    rcases List.mem_append.mp hy with hy | hy
    · exact hxs y hy
    · exact List.mem_singleton.mp hy ▸ hx
  have hclose : (w.closeAll (xs ++ [x])).strays = [] := by
    rw [Fds.closeAll_append]
    exact h
  obtain ⟨-, hle⟩ := Fds.length_le_of_closeAll _ _ hall hclose
  rw [List.length_append, List.length_singleton] at hle
  omega

theorem Short.close {cap : UsCapture} {dev : Device} (h : Short cap.run dev) :
    (usCaptureClose cap dev).2.fds.strays ≠ [] := by
  unfold usCaptureClose
  dsimp only
  rw [if_neg h.bufs]
  refine strays_of_owned_lt (fun y hy => ?_) h.fd (h.owned.trans_eq (by simp [dmaFds]))
  obtain ⟨i, hi, rfl⟩ := List.mem_map.mp hy
  exact h.nonneg i (List.mem_range.mp hi)

/-- A second close closes nothing. -/
theorem fds_close_close (cap : UsCapture) (dev : Device) :
    (usCaptureClose (usCaptureClose cap dev).1 (usCaptureClose cap dev).2).2.fds
      = (usCaptureClose cap dev).2.fds := by
  have hbufs : (usCaptureClose cap dev).1.run.bufs = [] := by
    unfold usCaptureClose
    dsimp only
    split
    · assumption
    · rfl
  have hfd : (usCaptureClose cap dev).1.run.fd = closedVar cap.run.fd := by
    unfold usCaptureClose
    dsimp only
    split <;> rfl
  rw [usCaptureClose.eq_def (usCaptureClose cap dev).1]
  simp only [hbufs, if_true, hfd]
  exact Fds.closeVar_of_neg _ (closedVar_neg _)

/-- The account after an open and the close that follows it. -/
def straysOf (r : OpenResult) : List Int := (usCaptureClose r.cap r.dev).2.fds.strays

theorem straysOf_error (cap : UsCapture) (dev : Device) (ret : Int) :
    straysOf (captureOpenError ret cap dev) = (usCaptureClose cap dev).2.fds.strays := by
  rw [straysOf, captureOpenError, fds_close_close cap dev]

/-- Starting the stream closes what `us_capture_close` would. -/
theorem straysOf_stream {a : OpenAnswers} {cap : UsCapture} {dev : Device} (h : cap.run.bufs ≠ []) :
    straysOf (captureOpenStream a cap dev) = (usCaptureClose cap dev).2.fds.strays := by
  unfold captureOpenStream
  split
  · exact straysOf_error cap dev (-1)
  · simp only [straysOf, usCaptureClose, if_neg h]
    rfl

/-- An export that fails on slots that were not initialised. -/
theorem captureOpenExportToDma_strays {a : OpenAnswers} {run : UsCaptureRuntime} {dev : Device}
    (hlen : run.nBufs = run.bufs.length) (hfd : 0 ≤ run.fd) (hcov : dev.fds.Covers [run.fd])
    (howned : dev.fds.owned.length = 1) (hzero : ∀ i < run.nBufs, (run.hw i).dmaFd = 0)
    (hnone : ¬ ∀ i < run.nBufs, (a.expbuf i).isSome = true) :
    let r := captureOpenExportToDma a run dev
    (r.2.2.fds.closeVar r.2.1.fd).strays ≠ [] ∧ r.2.1.bufs.length = run.bufs.length ∧
      r.2.1.nBufs = run.nBufs ∧ ∀ i < run.nBufs, (r.2.1.hw i).dmaFd < 0 := by
  intro r
  rcases captureExports_exported a run.nBufs 0 (by omega) (.start a hcov) with
    ⟨-, he⟩ | ⟨hok, m, hm, -, he⟩
  · exact absurd (fun i hi => he.isSome i (by omega)) hnone
  · generalize hg : captureExports a 0 run.nBufs run dev = e at hok he
    have hle : e.2.1.nBufs ≤ e.2.1.bufs.length := by
      rw [he.nBufs, he.length, hlen]
    have hr : r = (-1, { e.2.1 with bufs := e.2.1.bufs.mapIdx fun i hw =>
          if i < e.2.1.nBufs then { hw with dmaFd := closedVar hw.dmaFd } else hw },
        { e.2.2 with fds := e.2.2.fds.closeAll (dmaFds e.2.1 e.2.1.nBufs) }) := by
      simp only [r, captureOpenExportToDma, hg, hok, Bool.false_eq_true, if_false]
    rw [hr]
    refine ⟨strays_of_owned_lt (fun y hy => ?_) (by rw [he.fd]; exact hfd) ?_,
      (List.length_mapIdx ..).trans he.length, he.nBufs, fun i hi => ?_⟩
    · obtain ⟨i, hi, rfl⟩ := List.mem_map.mp hy
      rw [List.mem_range, he.nBufs] at hi
      by_cases him : i < m
      · exact he.nonneg i him
      · rw [he.rest i (by omega), hzero i hi]
    · rw [he.owned, howned, he.nBufs]
      simp only [dmaFds, List.length_map, List.length_range]
      omega
    · rw [hw_closeSlots e.2.1 i (by rw [he.nBufs]; exact hi) hle]
      exact closedVar_neg _

/-- Once the buffers are queued, with slots that were not initialised and are not all exported. -/
theorem captureOpenExport_strays {a : OpenAnswers} {cap : UsCapture} {dev : Device}
    (hne : cap.run.bufs ≠ []) (hlen : cap.run.nBufs = cap.run.bufs.length) (hfd : 0 ≤ cap.run.fd)
    (hcov : dev.fds.Covers [cap.run.fd]) (howned : dev.fds.owned.length = 1)
    (hzero : ∀ i < cap.run.nBufs, (cap.run.hw i).dmaFd = 0)
    (hno : ¬ ((cap.dmaExport && !usIsJpeg cap.run.format) = true ∧
      ∀ i < cap.run.nBufs, (a.expbuf i).isSome = true)) :
    straysOf (captureOpenExport a cap dev) ≠ [] := by
  have hpos : 0 < cap.run.nBufs := by
    rw [hlen]
    exact List.length_pos_iff.mpr hne
  unfold captureOpenExport
  split
  · rename_i hexp
    obtain ⟨hstray, hl, hn, hneg⟩ := captureOpenExportToDma_strays hlen hfd hcov howned hzero
      fun h => hno ⟨hexp, h⟩
    generalize captureOpenExportToDma a cap.run dev = r at hstray hl hn hneg
    have hb : r.2.1.bufs ≠ [] := by
      rw [ne_eq, ← List.length_eq_zero_iff, hl, List.length_eq_zero_iff]
      exact hne
    -- the slots hold nothing any more: the close is that of the device
    have hclose : ∀ dma, (usCaptureClose { cap with run := { r.2.1 with dma := dma } } r.2.2).2.fds
        = r.2.2.fds.closeVar r.2.1.fd := by
      intro dma
      unfold usCaptureClose
      dsimp only
      rw [if_neg hb, Fds.closeAll_of_neg]
      intro y hy
      obtain ⟨i, hi, rfl⟩ := List.mem_map.mp hy
      rw [List.mem_range, hn] at hi
      exact hneg i hi
    dsimp only
    split
    · rw [straysOf_error, hclose]
      exact hstray
    · rw [straysOf_stream hb, hclose]
      exact hstray
  · rw [straysOf_stream hne]
    exact Short.close ⟨hne, hfd, fun i hi => (hzero i hi).ge, by rw [howned]; exact hpos⟩

/-- **Where the condition fails**, an open of a fresh device and its close close a descriptor that
is not theirs. -/
theorem usCaptureOpen_strays {cap : UsCapture} {dev : Device} {a : OpenAnswers}
    (hdev : dev.fds = ⟨[], []⟩) (hno : ¬ OpenOk cap a) :
    straysOf (usCaptureOpen cap dev a) ≠ [] := by
  rw [OpenOk, not_or] at hno
  obtain ⟨hio, hno⟩ := hno
  have hio : cap.ioMethod = .userptr := by
    cases h : cap.ioMethod with
    | mmap => exact absurd h hio
    | userptr => rfl
  push Not at hno
  obtain ⟨fd, count, hacc, hopen, hneg, hreq, hpos, hall⟩ := hno
  have hsame := captureOpenNegotiate_same { cap with run := { cap.run with fd := fd } } a
  have hcap : negotiated cap a fd
      = captureOpenNegotiate { cap with run := { cap.run with fd := fd } } a := rfl
  rw [← hcap] at hsame
  have hstart : usCaptureOpen cap dev a
      = captureOpenBuffers a (negotiated cap a fd).2 { dev with fds := dev.fds.opened fd } := by
    simp only [usCaptureOpen, hacc, hopen, ← hcap, hneg, Bool.not_true, Bool.false_eq_true,
      if_false,
      ne_eq, not_true_eq_false]
  rw [hstart]
  generalize (negotiated cap a fd).2 = cap1 at hsame hall
  have hio1 : captureOpenIoMethod cap1 a
      = captureOpenSlots cap1.run a.reqbufs (userptrSlot (usAlignSize cap1.run.rawSize 4096)) := by
    rw [captureOpenIoMethod, hsame.ioMethod, hio, captureOpenIoMethodUserptr]
  have hP : ∀ i hw, userptrSlot (usAlignSize cap1.run.rawSize 4096) i .zero = some hw →
      hw.dmaFd = 0 := fun i hw hs => Option.some.inj hs ▸ rfl
  rcases captureOpenSlots_cases hP cap1.run a.reqbufs with
    ⟨-, hlt⟩ | ⟨count', hreq', -, hf, hlen, hret⟩
  · exact absurd (hlt count hreq) (not_lt.mpr hpos)
  · obtain rfl : count = count' := Option.some.inj (hreq.symm.trans hreq')
    unfold captureOpenBuffers
    rw [hio1]
    generalize captureOpenSlots cap1.run a.reqbufs
      (userptrSlot (usAlignSize cap1.run.rawSize 4096)) = r at hf hlen hret
    obtain ⟨hret, hn⟩ : r.1 = 0 ∧ r.2.nBufs = count := by
      rcases hret with hret | ⟨-, i, hi⟩
      · exact hret
      · exact absurd hi (by simp [userptrSlot])
    have hne : r.2.bufs ≠ [] := List.length_pos_iff.mp (by omega)
    have hfd : r.2.fd = fd := hf.fd.trans hsame.fd
    have howned : (dev.fds.opened fd).owned.length = 1 := by
      rw [hdev]
      rfl
    dsimp only
    rw [hret, if_neg (by decide)]
    split
    · rw [straysOf_error]
      refine Short.close ⟨hne, ?_, fun i hi => (hf.filled i hi).ge, ?_⟩
      · exact hfd.ge.trans' (Int.natCast_nonneg fd)
      · exact howned.le.trans (by show 1 ≤ r.2.nBufs; omega)
    · rename_i hqueue
      rw [captureOpenQueueBuffers_ret, not_not] at hqueue
      refine captureOpenExport_strays hne (hn.trans hlen.symm) ?_ ?_ howned hf.filled ?_
      · exact hfd.ge.trans' (Int.natCast_nonneg fd)
      · show (dev.fds.opened fd).Covers [r.2.fd]
        rw [hfd, hdev]
        exact Fds.Covers.opened ⟨rfl, fun _ _ => le_refl _⟩ fd
      · rintro ⟨hexp, hx⟩
        refine hall ⟨fun i hi => hqueue i (Nat.zero_le i) (by omega), ?_, fun i hi => hx i (by
          show i < r.2.nBufs
          omega)⟩
        rw [← hf.format]
        exact hexp

end TinyPilotKvm
