/-
# Who owns a capture buffer

`us_capture_hwbuf_grab` takes buffers from the driver one after the other, and may put the same
one back and be given it again.  What it changes in the end is small, and said once
(`Takes`): of everything it dequeued it has kept at most ONE index, and that one is out of the
driver's queue and marked grabbed, while every other index is where it was.  The loop keeps
`Takes` at every turn (`grabTurn_cases`), and each exit of the function reads off it.

The driver's promise is `DriverHonest`: it delivers only what is queued in it, and takes back what
it is given.  It is a condition on a step, so runs are those of `ReachVia`.  Without the promise a
turn may fail, and then little is lost (`Lost`): the test of `grabbed` already turns away what was
not the driver's to deliver.  A caller releases only what a grab has handed to it
(`CaptureState.handed`); that is the whole contract of `us_capture_hwbuf_release`.
-/
import TinyPilotKvm.Libs.Capture.Hwbuf
import TinyPilotKvm.Transition

namespace TinyPilotKvm

/-! ## 1. What the driver promises and what a grab keeps -/

/-- Along the loop, every buffer delivered is queued at that moment, and every `VIDIOC_QBUF`
succeeds. -/
def DriverHonest (cap : UsCapture) : List Dequeued → GrabLoop → Prop
  | [], _ => True
  | d :: ds, s =>
    d.buf.index ∈ s.queued ∧ d.qbufOk = true ∧ DriverHonest cap ds (grabTurn cap s d).state

instance decidableDriverHonest (cap : UsCapture) :
    ∀ (ds : List Dequeued) (s : GrabLoop), Decidable (DriverHonest cap ds s)
  | [], _ => isTrue trivial
  | d :: ds, s =>
    have := decidableDriverHonest cap ds (grabTurn cap s d).state
    inferInstanceAs (Decidable (_ ∧ _ ∧ _))

/-- The newest valid buffer among those dequeued. -/
def newestValid (cap : UsCapture) (ds : List Dequeued) : Option V4l2Buffer :=
  (ds.filter (·.valid cap)).getLast?.map (·.new cap.run.captureMplane)

/-- From `run` and `queued` to `run'` and `queued'` the index `held`, if any, has moved from the
driver to the process, and no other index has moved. -/
structure Takes (run : UsCaptureRuntime) (queued : Finset Nat) (held : Option Nat)
    (run' : UsCaptureRuntime) (queued' : Finset Nat) : Prop where
  length : run'.bufs.length = run.bufs.length
  nBufs : run'.nBufs = run.nBufs
  mem_queued : ∀ j, j ∈ queued' ↔ j ∈ queued ∧ held ≠ some j
  grabbed : ∀ j, (run'.hw j).grabbed = (decide (held = some j) || (run.hw j).grabbed)
  was_queued : ∀ i, held = some i → i ∈ queued
  was_free : ∀ i, held = some i → i < run.nBufs ∧ (run.hw i).grabbed = false

/-- The indices in the driver are those of buffers that are not grabbed. -/
structure Split (run : UsCaptureRuntime) (queued : Finset Nat) : Prop where
  length : run.bufs.length = run.nBufs
  queued_lt : ∀ i ∈ queued, i < run.nBufs
  iff : ∀ i < run.nBufs, i ∈ queued ↔ (run.hw i).grabbed = false

/-- What one grab may change besides `Takes`: nothing but the fields it hands over. -/
structure SameCounts (run run' : UsCaptureRuntime) : Prop where
  refs : ∀ j, (run'.hw j).refs = (run.hw j).refs
  buf : ∀ j, (run'.hw j).buf = (run.hw j).buf

/-- What a call that fails leaves: the driver has no more than it had, and no count has changed. -/
structure Lost (run : UsCaptureRuntime) (queued : Finset Nat) (run' : UsCaptureRuntime)
    (queued' : Finset Nat) : Prop extends SameCounts run run' where
  length : run'.bufs.length = run.bufs.length
  nBufs : run'.nBufs = run.nBufs
  queued_sub : ∀ j ∈ queued', j ∈ queued

/-- A write that touches neither count nor `buf`. -/
theorem SameCounts.modify {run run' : UsCaptureRuntime} (hc : SameCounts run run') (i : Nat)
    {f : UsCaptureHwbuf → UsCaptureHwbuf} (hrefs : ∀ hw, (f hw).refs = hw.refs)
    (hbuf : ∀ hw, (f hw).buf = hw.buf) : SameCounts run (run'.modifyHw i f) := by
  constructor
  · intro j
    rw [UsCaptureRuntime.hw_modifyHw_field (·.refs) run' i f hrefs, hc.refs j]
  · intro j
    rw [UsCaptureRuntime.hw_modifyHw_field (·.buf) run' i f hbuf, hc.buf j]

/-- The mark of a buffer after a write to one of them. -/
theorem grabbed_modifyHw {run : UsCaptureRuntime} {i : Nat} {f : UsCaptureHwbuf → UsCaptureHwbuf}
    {b : Bool} (hi : i < run.bufs.length) (hf : ∀ hw, (f hw).grabbed = b) (j : Nat) :
    ((run.modifyHw i f).hw j).grabbed = if j = i then b else (run.hw j).grabbed := by
  by_cases hj : j = i
  · subst hj
    rw [UsCaptureRuntime.hw_modifyHw_self _ hi, hf, if_pos rfl]
  · rw [UsCaptureRuntime.hw_modifyHw_of_ne _ (Ne.symm hj), if_neg hj]

section Turn

variable {run : UsCaptureRuntime} {queued : Finset Nat} {s : GrabLoop}

/-- Nothing is held before the loop. -/
theorem Takes.start (cap : UsCapture) (queued : Finset Nat) :
    Takes cap.run queued none (grabStart cap queued).run (grabStart cap queued).queued :=
  ⟨rfl, rfl, fun j => by simp [grabStart], fun j => by simp [grabStart], fun i h => by simp at h,
    fun i h => by simp at h⟩

theorem Takes.lost {held : Option Nat} {run' : UsCaptureRuntime} {queued' : Finset Nat}
    (h : Takes run queued held run' queued') (hc : SameCounts run run') :
    Lost run queued run' queued' :=
  ⟨hc, h.length, h.nBufs, fun j hj => ((h.mem_queued j).mp hj).1⟩

/-- Only the sizes, the driver's indices and the marks count. -/
theorem Takes.congr {held : Option Nat} {run' run'' : UsCaptureRuntime}
    {queued' queued'' : Finset Nat} (h : Takes run queued held run' queued')
    (hlen : run''.bufs.length = run'.bufs.length)
    (hn : run''.nBufs = run'.nBufs) (hqueued : ∀ j, j ∈ queued'' ↔ j ∈ queued')
    (hgrabbed : ∀ j, (run''.hw j).grabbed = (run'.hw j).grabbed) :
    Takes run queued held run'' queued'' :=
  ⟨hlen.trans h.length, hn.trans h.nBufs, fun j => (hqueued j).trans (h.mem_queued j),
    fun j => (hgrabbed j).trans (h.grabbed j), h.was_queued, h.was_free⟩

/-- An index moves from the driver to the process. -/
theorem Takes.take {i : Nat} {run' : UsCaptureRuntime} {queued' : Finset Nat}
    (h : Takes run queued none run' queued') (hi : i < run'.bufs.length)
    (hqueued : i ∈ queued) (hfree : i < run.nBufs ∧ (run.hw i).grabbed = false)
    {f : UsCaptureHwbuf → UsCaptureHwbuf} (hf : ∀ hw, (f hw).grabbed = true) :
    Takes run queued (some i) (run'.modifyHw i f) (queued'.erase i) where
  length := (run'.length_bufs_modifyHw _ _).trans h.length
  nBufs := h.nBufs
  mem_queued j := by
    rw [Finset.mem_erase, h.mem_queued j]
    constructor
    · rintro ⟨hj, hjq, -⟩
      exact ⟨hjq, fun h0 => hj (Option.some.inj h0).symm⟩
    · rintro ⟨hjq, hj⟩
      exact ⟨fun h0 => hj (congrArg some h0.symm), hjq, by simp⟩
  grabbed j := by
    rw [grabbed_modifyHw hi hf, h.grabbed]
    by_cases hj : j = i
    · rw [if_pos hj, hj]
      simp
    · rw [if_neg hj]
      simp [Ne.symm hj]
  was_queued k hk := Option.some.inj hk ▸ hqueued
  was_free k hk := Option.some.inj hk ▸ hfree

/-- The index that is held goes back. -/
theorem Takes.giveBack {i : Nat} {run' : UsCaptureRuntime} {queued' : Finset Nat}
    (h : Takes run queued (some i) run' queued') (hi : i < run'.bufs.length)
    {f : UsCaptureHwbuf → UsCaptureHwbuf} (hf : ∀ hw, (f hw).grabbed = false) :
    Takes run queued none (run'.modifyHw i f) (insert i queued') where
  length := (run'.length_bufs_modifyHw _ _).trans h.length
  nBufs := h.nBufs
  mem_queued j := by
    rw [Finset.mem_insert, h.mem_queued j]
    constructor
    · rintro (rfl | ⟨hjq, -⟩)
      · exact ⟨h.was_queued _ rfl, by simp⟩
      · exact ⟨hjq, by simp⟩
    · rintro ⟨hjq, -⟩
      by_cases hj : j = i
      · exact Or.inl hj
      · exact Or.inr ⟨hjq, fun h0 => hj (Option.some.inj h0).symm⟩
  grabbed j := by
    rw [grabbed_modifyHw hi hf, h.grabbed]
    by_cases hj : j = i
    · rw [if_pos hj, hj]
      simp [(h.was_free _ rfl).2]
    · rw [if_neg hj]
      simp [Ne.symm hj]
  was_queued k hk := absurd hk (by simp)
  was_free k hk := absurd hk (by simp)

/-- An index that is taken and given back at once leaves the others where they were. -/
theorem Takes.bounce {i : Nat} {held : Option Nat} {run' : UsCaptureRuntime}
    {queued' : Finset Nat} (h : Takes run queued held run' queued') (hi : i < run'.bufs.length)
    (hqueued : i ∈ queued') (hfree : (run'.hw i).grabbed = false)
    {f g : UsCaptureHwbuf → UsCaptureHwbuf} (hf : ∀ hw, (f hw).grabbed = true)
    (hg : ∀ hw, (g hw).grabbed = false) :
    Takes run queued held ((run'.modifyHw i f).modifyHw i g) (insert i (queued'.erase i)) := by
  have hi2 : i < (run'.modifyHw i f).bufs.length := (run'.length_bufs_modifyHw _ _).symm ▸ hi
  refine h.congr ?_ rfl (fun j => ?_) fun j => ?_
  · exact (UsCaptureRuntime.length_bufs_modifyHw _ _ _).trans (run'.length_bufs_modifyHw _ _)
  · rw [Finset.insert_erase hqueued]
  · rw [grabbed_modifyHw hi2 hg, grabbed_modifyHw hi hf]
    by_cases hj : j = i
    · rw [if_pos hj, hj, hfree]
    · rw [if_neg hj, if_neg hj]

/-- One index is taken and then the held one goes back. -/
theorem Takes.exchange {i k : Nat} {run' : UsCaptureRuntime} {queued' : Finset Nat}
    (h : Takes run queued (some k) run' queued') (hik : k ≠ i) (hi : i < run'.bufs.length)
    (hk : k < run'.bufs.length) (hqueued : i ∈ queued)
    (hfree : i < run.nBufs ∧ (run.hw i).grabbed = false)
    {f g : UsCaptureHwbuf → UsCaptureHwbuf} (hf : ∀ hw, (f hw).grabbed = true)
    (hg : ∀ hw, (g hw).grabbed = false) :
    Takes run queued (some i) ((run'.modifyHw i f).modifyHw k g) (insert k (queued'.erase i)) := by
  -- as if the held one had gone back first
  have hi2 : i < (run'.modifyHw k g).bufs.length := (run'.length_bufs_modifyHw _ _).symm ▸ hi
  have hk2 : k < (run'.modifyHw i f).bufs.length := (run'.length_bufs_modifyHw _ _).symm ▸ hk
  refine ((h.giveBack hk hg).take hi2 hqueued hfree hf).congr ?_ rfl (fun j => ?_) fun j => ?_
  · simp only [UsCaptureRuntime.length_bufs_modifyHw]
  · rw [Finset.erase_insert_of_ne hik]
  · rw [grabbed_modifyHw hk2 hg, grabbed_modifyHw hi hf, grabbed_modifyHw hi2 hf,
      grabbed_modifyHw hk hg]
    by_cases hj : j = i
    · rw [if_pos hj, if_pos hj, if_neg fun h0 => hik (h0.symm.trans hj)]
    · rw [if_neg hj, if_neg hj]

theorem new_index (d : Dequeued) (captureMplane : Bool) :
    (d.new captureMplane).index = d.buf.index := by
  unfold Dequeued.new
  split <;> rfl

/-- `new` marked grabbed, its memory as the driver left it. -/
def Dequeued.grab (d : Dequeued) (hw : UsCaptureHwbuf) : UsCaptureHwbuf :=
  { hw with grabbed := true, raw := { hw.raw with data := d.data } }

/-- Given back. -/
def UsCaptureHwbuf.ungrab (hw : UsCaptureHwbuf) : UsCaptureHwbuf := { hw with grabbed := false }

/-- What a turn changes first, whatever it does later. -/
def Dequeued.grabbedBy (d : Dequeued) (s : GrabLoop) : GrabLoop :=
  { s with
    queued := s.queued.erase d.buf.index
    run := s.run.modifyHw d.buf.index d.grab }

/-- The turn goes on with another buffer given back. -/
def GrabLoop.ungrab (s : GrabLoop) (i : Nat) : GrabLoop :=
  { s with
    queued := insert i s.queued
    run := s.run.modifyHw i UsCaptureHwbuf.ungrab }

/-- A turn that finds the buffer unused. -/
theorem grabTurn_unused {cap : UsCapture} {d : Dequeued} (hlt : d.buf.index < s.run.nBufs)
    (hfree : (s.run.hw d.buf.index).grabbed = false) :
    grabTurn cap s d =
      if !d.valid cap then
        if !d.qbufOk then .fail { d.grabbedBy s with broken := true }
        else .next { (d.grabbedBy s).ungrab d.buf.index with broken := true }
      else match s.buf with
        | none => .next { d.grabbedBy s with
            broken := false, buf := some (d.new cap.run.captureMplane) }
        | some buf =>
          if !d.qbufOk then .fail { d.grabbedBy s with broken := false }
          else .next { (d.grabbedBy s).ungrab buf.index with
            broken := false, buf := some (d.new cap.run.captureMplane) } := by
  unfold grabTurn
  simp only [ge_iff_le, Nat.not_le.mpr hlt, if_false, hfree, Bool.false_eq_true, new_index]
  rfl

/-- **A turn of the loop.**  Either it fails, which it does not with an honest driver; or what is
held after it is the buffer just dequeued, or, if that is broken, what was held before. -/
theorem grabTurn_cases (cap : UsCapture) (d : Dequeued) (hlen : run.bufs.length = run.nBufs)
    (hmine : ∀ i < run.nBufs, (run.hw i).grabbed = false → i ∈ queued)
    (hs : Takes run queued (s.buf.map (·.index)) s.run s.queued) (hc : SameCounts run s.run) :
    (∃ s', grabTurn cap s d = .fail s' ∧ Lost run queued s'.run s'.queued ∧
        (Split run queued → ¬ (d.buf.index ∈ s.queued ∧ d.qbufOk = true))) ∨
      ∃ s', grabTurn cap s d = .next s' ∧
        s'.buf = (if d.valid cap then some (d.new cap.run.captureMplane) else s.buf) ∧
        Takes run queued (s'.buf.map (·.index)) s'.run s'.queued ∧ SameCounts run s'.run := by
  have hsub : ∀ j ∈ s.queued.erase d.buf.index, j ∈ queued := fun j hj =>
    ((hs.mem_queued j).mp (Finset.mem_of_mem_erase hj)).1
  by_cases hlt : d.buf.index < run.nBufs
  swap
  · refine Or.inl ⟨{ s with queued := s.queued.erase d.buf.index }, ?_,
      ⟨hc, hs.length, hs.nBufs, hsub⟩, fun hsplit h => hlt ?_⟩
    · simp only [grabTurn, hs.nBufs, ge_iff_le, if_pos (Nat.not_lt.mp hlt)]
    · exact hsplit.queued_lt _ ((hs.mem_queued _).mp h.1).1
  have hidx : d.buf.index < s.run.bufs.length := by
    rw [hs.length, hlen]
    exact hlt
  cases hfree : (s.run.hw d.buf.index).grabbed with
  | true =>
    refine Or.inl ⟨{ s with queued := s.queued.erase d.buf.index }, ?_,
      ⟨hc, hs.length, hs.nBufs, hsub⟩, fun hsplit h => ?_⟩
    · simp only [grabTurn, hs.nBufs, ge_iff_le, if_neg (Nat.not_le.mpr hlt), hfree, if_true]
    · obtain ⟨h0, hheld⟩ := (hs.mem_queued _).mp h.1
      rw [hs.grabbed, (hsplit.iff _ hlt).mp h0, decide_eq_false hheld] at hfree
      exact absurd hfree (by decide)
  | false =>
  have hfree0 := hfree
  rw [hs.grabbed, Bool.or_eq_false_iff, decide_eq_false_iff_not] at hfree0
  obtain ⟨hheld, hfree0⟩ := hfree0
  have hd0 : d.buf.index ∈ queued := hmine _ hlt hfree0
  have hd : d.buf.index ∈ s.queued := (hs.mem_queued _).mpr ⟨hd0, hheld⟩
  have hc1 : SameCounts run (d.grabbedBy s).run := hc.modify _ (fun _ => rfl) fun _ => rfl
  have hc2 : ∀ i, SameCounts run ((d.grabbedBy s).ungrab i).run :=
    fun i => hc1.modify i (fun _ => rfl) fun _ => rfl
  have hlost : Lost run queued (d.grabbedBy s).run (d.grabbedBy s).queued :=
    ⟨hc1, (s.run.length_bufs_modifyHw _ _).trans hs.length, hs.nBufs, hsub⟩
  have hnew : some (d.buf.index) = (some (d.new cap.run.captureMplane)).map (·.index) := by
    rw [Option.map_some, new_index]
  rw [grabTurn_unused (hs.nBufs.symm ▸ hlt) hfree]
  cases hv : d.valid cap with
  | false =>
    cases hq : d.qbufOk with
    | false => exact Or.inl ⟨_, rfl, hlost, fun _ h => absurd h.2 (by decide)⟩
    | true =>
      have htakes := hs.bounce (f := d.grab) (g := UsCaptureHwbuf.ungrab) hidx hd hfree
        (fun _ => rfl) fun _ => rfl
      exact Or.inr ⟨_, rfl, rfl, htakes, hc2 _⟩
  | true =>
    cases hb : s.buf with
    | none =>
      rw [hb] at hs
      have htakes := hs.take (f := d.grab) hidx hd0 ⟨hlt, hfree0⟩ fun _ => rfl
      rw [hnew] at htakes
      exact Or.inr ⟨_, rfl, rfl, htakes, hc1⟩
    | some buf =>
      rw [hb] at hs hheld
      cases hq : d.qbufOk with
      | false => exact Or.inl ⟨_, rfl, hlost, fun _ h => absurd h.2 (by decide)⟩
      | true =>
        have hne : buf.index ≠ d.buf.index := fun h => hheld (congrArg some h)
        have hbuf : buf.index < s.run.bufs.length := by
          rw [hs.length, hlen]
          exact (hs.was_free _ rfl).1
        have htakes := hs.exchange (f := d.grab) (g := UsCaptureHwbuf.ungrab) hne hidx hbuf hd0
          ⟨hlt, hfree0⟩ (fun _ => rfl) fun _ => rfl
        rw [hnew] at htakes
        exact Or.inr ⟨_, rfl, rfl, htakes, hc2 _⟩

end Turn

/-! ## 2. The loop and the whole grab -/

/-- **The loop.**  It fails, which it does not with an honest driver; or it runs to its last
`VIDIOC_DQBUF`, holding the newest valid buffer. -/
theorem grabLoop_cases {cap : UsCapture} {queued : Finset Nat}
    (hlen : cap.run.bufs.length = cap.run.nBufs)
    (hmine : ∀ i < cap.run.nBufs, (cap.run.hw i).grabbed = false → i ∈ queued) (errno : DqErrno) :
    ∀ (ds : List Dequeued) {s : GrabLoop},
      Takes cap.run queued (s.buf.map (·.index)) s.run s.queued → SameCounts cap.run s.run →
      (∃ s' : GrabLoop, grabLoop cap errno ds s = ⟨-1, s'.run, s'.queued⟩ ∧
          Lost cap.run queued s'.run s'.queued ∧
          (Split cap.run queued → ¬ DriverHonest cap ds s)) ∨
        ∃ s' : GrabLoop, grabLoop cap errno ds s = grabEnd s' errno ∧
          s'.buf = (newestValid cap ds).or s.buf ∧
          Takes cap.run queued (s'.buf.map (·.index)) s'.run s'.queued ∧ SameCounts cap.run s'.run
  | [], s, hs, hc => Or.inr ⟨s, rfl, by simp [newestValid], hs, hc⟩
  | d :: ds, s, hs, hc => by
    rcases grabTurn_cases cap d hlen hmine hs hc with
      ⟨s1, hturn, hlost, hhonest⟩ | ⟨s1, hturn, hbuf1, hs1, hc1⟩
    · refine Or.inl ⟨s1, by simp only [grabLoop, hturn], hlost, fun hsplit hh => ?_⟩
      exact hhonest hsplit ⟨hh.1, hh.2.1⟩
    · have hstep : grabLoop cap errno (d :: ds) s = grabLoop cap errno ds s1 := by
        simp only [grabLoop, hturn]
      rw [hstep]
      rcases grabLoop_cases hlen hmine errno ds hs1 hc1 with
        ⟨s', hloop, hlost, hhonest⟩ | ⟨s', hloop, hbuf', hs', hc'⟩
      · refine Or.inl ⟨s', hloop, hlost, fun hsplit hh => hhonest hsplit ?_⟩
        have hrest := hh.2.2
        rw [hturn] at hrest
        exact hrest
      · refine Or.inr ⟨s', hloop, ?_, hs', hc'⟩
        rw [hbuf', hbuf1, newestValid, newestValid, List.filter_cons]
        cases hv : d.valid cap with
        | false => rfl
        | true =>
          simp only [if_true, List.getLast?_cons]
          cases (ds.filter (·.valid cap)).getLast? <;> rfl

/-- `handOver` sets the count of its buffer to zero and leaves marks and other buffers alone. -/
theorem handOver_spec {run : UsCaptureRuntime} {buf : V4l2Buffer}
    (h : buf.index < run.bufs.length) :
    (∀ j, ((handOver run buf).hw j).grabbed = (run.hw j).grabbed) ∧
      ((handOver run buf).hw buf.index).refs = 0 ∧
      ((handOver run buf).hw buf.index).buf = buf ∧
      ∀ j, j ≠ buf.index → (handOver run buf).hw j = run.hw j := by
  refine ⟨fun j => ?_, ?_, ?_, fun j hj => ?_⟩
  · rw [handOver, UsCaptureRuntime.hw_modifyHw_field (·.grabbed)]
    intro hw
    rfl
  · rw [handOver, UsCaptureRuntime.hw_modifyHw_self _ h]
  · rw [handOver, UsCaptureRuntime.hw_modifyHw_self _ h]
  · exact UsCaptureRuntime.hw_modifyHw_of_ne _ (Ne.symm hj)

/-- What a grab that returns an index has done. -/
structure GrabKept (cap : UsCapture) (queued : Finset Nat) (ds : List Dequeued) (buf : V4l2Buffer)
    (r : GrabResult) : Prop where
  newest : newestValid cap ds = some buf
  ret : r.ret = buf.index
  takes : Takes cap.run queued (some buf.index) r.run r.queued
  refs_self : (r.run.hw buf.index).refs = 0
  buf_self : (r.run.hw buf.index).buf = buf
  refs_of_ne : ∀ j, j ≠ buf.index → (r.run.hw j).refs = (cap.run.hw j).refs
  buf_of_ne : ∀ j, j ≠ buf.index → (r.run.hw j).buf = (cap.run.hw j).buf

/-- **What a grab can do**: keep the newest valid buffer; keep nothing and report no data; or fail,
and then with an honest driver it has taken at most one buffer. -/
theorem usCaptureHwbufGrab_cases {cap : UsCapture} {queued : Finset Nat}
    (hlen : cap.run.bufs.length = cap.run.nBufs)
    (hmine : ∀ i < cap.run.nBufs, (cap.run.hw i).grabbed = false → i ∈ queued) (sel : Selected)
    (ds : List Dequeued) (errno : DqErrno) :
    let r := usCaptureHwbufGrab cap queued sel ds errno
    (∃ buf, GrabKept cap queued ds buf r) ∨
      (r.ret = usErrorNoData ∧ Takes cap.run queued none r.run r.queued ∧
        SameCounts cap.run r.run) ∨
      (r.ret = -1 ∧ Lost cap.run queued r.run r.queued ∧
        (Split cap.run queued → DriverHonest cap ds (grabStart cap queued) →
          ∃ held, Takes cap.run queued held r.run r.queued)) := by
  intro r
  have hstart : SameCounts cap.run (grabStart cap queued).run := ⟨fun _ => rfl, fun _ => rfl⟩
  by_cases hw : captureWaitBuffer sel < 0
  · have hr : r = ⟨-1, cap.run, queued⟩ := if_pos hw
    rw [hr]
    exact Or.inr (Or.inr ⟨rfl, (Takes.start cap queued).lost hstart,
      fun _ _ => ⟨none, Takes.start cap queued⟩⟩)
  have hr0 : r = grabLoop cap errno ds (grabStart cap queued) := if_neg hw
  rcases grabLoop_cases hlen hmine errno ds (s := grabStart cap queued) (Takes.start cap queued)
    hstart with ⟨s', hloop, hlost, hhonest⟩ | ⟨s', hloop, hbuf, hs', hc'⟩
  · rw [hr0, hloop]
    exact Or.inr (Or.inr ⟨rfl, hlost, fun hsplit hh => absurd hh (hhonest hsplit)⟩)
  · have hr : r = grabEnd s' errno := hr0.trans hloop
    rw [grabStart, Option.or_none] at hbuf
    rw [hr]
    cases errno with
    | other => exact Or.inr (Or.inr ⟨rfl, hs'.lost hc', fun _ _ => ⟨_, hs'⟩⟩)
    | again =>
      cases hb : s'.buf with
      | none =>
        rw [hb] at hs'
        cases hbr : s'.broken with
        | true => exact Or.inr (Or.inl (by simpa [grabEnd, hb, hbr] using ⟨hs', hc'⟩))
        | false =>
          exact Or.inr (Or.inr (by
            simpa [grabEnd, hb, hbr] using ⟨hs'.lost hc', fun _ _ => ⟨none, hs'⟩⟩))
      | some buf =>
        rw [hb] at hs' hbuf
        have hlt : buf.index < s'.run.bufs.length := by
          rw [hs'.length, hlen]
          exact (hs'.was_free _ rfl).1
        obtain ⟨hgrab, hrefs, hself, hother⟩ := handOver_spec hlt
        have hend : grabEnd s' .again = ⟨buf.index, handOver s'.run buf, s'.queued⟩ := by
          simp only [grabEnd, hb]
        rw [hend]
        refine Or.inl ⟨buf, ?_⟩
        exact {
          newest := hbuf.symm
          ret := rfl
          takes := ⟨by rw [handOver, UsCaptureRuntime.length_bufs_modifyHw]; exact hs'.length,
            hs'.nBufs, hs'.mem_queued, fun j => (hgrab j).trans (hs'.grabbed j), hs'.was_queued,
            hs'.was_free⟩
          refs_self := hrefs
          buf_self := hself
          refs_of_ne := fun j hj => by rw [hother j hj, hc'.refs]
          buf_of_ne := fun j hj => by rw [hother j hj, hc'.buf] }

/-- A buffer that is not grabbed is the driver's. -/
theorem Split.mine {run : UsCaptureRuntime} {queued : Finset Nat} (h : Split run queued) :
    ∀ i < run.nBufs, (run.hw i).grabbed = false → i ∈ queued :=
  fun i hi hg => (h.iff i hi).mpr hg

/-- A grab that moves one index keeps the split. -/
theorem Split.takes {run run' : UsCaptureRuntime} {queued queued' : Finset Nat} {held : Option Nat}
    (h : Split run queued) (ht : Takes run queued held run' queued') : Split run' queued' := by
  refine ⟨by rw [ht.length, ht.nBufs, h.length], fun i hi => ?_, fun i hi => ?_⟩
  · rw [ht.nBufs]
    exact h.queued_lt i ((ht.mem_queued i).mp hi).1
  · rw [ht.nBufs] at hi
    rw [ht.mem_queued, ht.grabbed, h.iff i hi]
    simp [and_comm]

/-- So does giving an index back. -/
theorem Split.give {run : UsCaptureRuntime} {queued : Finset Nat} (h : Split run queued) {i : Nat}
    (hi : i < run.nBufs) :
    Split (run.modifyHw i fun hw => { hw with grabbed := false }) (insert i queued) := by
  let ungrab : UsCaptureHwbuf → UsCaptureHwbuf := fun hw => { hw with grabbed := false }
  have hgrab := grabbed_modifyHw (f := ungrab) (h.length ▸ hi) fun _ => rfl
  refine ⟨?_, fun j hj => ?_, fun j hj => ?_⟩
  · rw [UsCaptureRuntime.length_bufs_modifyHw]
    exact h.length
  · rcases Finset.mem_insert.mp hj with rfl | hj
    · exact hi
    · exact h.queued_lt j hj
  · rw [Finset.mem_insert, hgrab j]
    by_cases hji : j = i
    · simp [hji]
    · rw [if_neg hji, ← h.iff j hj]
      simp [hji]

/-- Nothing held: the driver has what it had. -/
theorem Takes.queued_eq {run run' : UsCaptureRuntime} {queued queued' : Finset Nat}
    (h : Takes run queued none run' queued') : queued' = queued := by
  ext j
  simp [h.mem_queued j]

/-- One index held: the driver has the others. -/
theorem Takes.queued_eq_erase {run run' : UsCaptureRuntime} {queued queued' : Finset Nat} {i : Nat}
    (h : Takes run queued (some i) run' queued') : queued' = queued.erase i := by
  ext j
  rw [h.mem_queued j, Finset.mem_erase, and_comm]
  simp [eq_comm]

/-! ## 3. A device and its callers -/

/-- A device that is open; `handed` are the indices that grabs have returned and that have not
been released since. -/
structure CaptureState where
  cap : UsCapture
  queued : Finset Nat
  handed : Finset Nat

inductive CaptureAct
  | grab (sel : Selected) (ds : List Dequeued) (errno : DqErrno)
  | release (i : Nat) (qbufOk : Bool)
  | incref (i : Nat)
  | decref (i : Nat)

namespace CaptureState

/-- The device after a call, and what is handed over then. -/
def after (s : CaptureState) (r : GrabResult) (handed : Finset Nat) : CaptureState :=
  { cap := { s.cap with run := r.run }, queued := r.queued, handed := handed }

/-- A grab hands over the index it returns. -/
def afterGrab (s : CaptureState) (r : GrabResult) : CaptureState :=
  s.after r (if 0 ≤ r.ret then insert r.ret.toNat s.handed else s.handed)

/-- A release that succeeds takes the index back. -/
def afterRelease (s : CaptureState) (i : Nat) (r : GrabResult) : CaptureState :=
  s.after r (if r.ret = 0 then s.handed.erase i else s.handed)

@[simp] theorem run_afterGrab (s : CaptureState) (r : GrabResult) :
    (s.afterGrab r).cap.run = r.run := rfl

theorem handed_afterGrab_index {s : CaptureState} {r : GrabResult} {i : Nat} (h : r.ret = i) :
    (s.afterGrab r).handed = insert i s.handed := by
  simp [afterGrab, after, h]

theorem handed_afterGrab_error {s : CaptureState} {r : GrabResult} (h : r.ret < 0) :
    (s.afterGrab r).handed = s.handed :=
  if_neg (by omega)

@[simp] theorem run_afterRelease (s : CaptureState) (i : Nat) (r : GrabResult) :
    (s.afterRelease i r).cap.run = r.run := rfl

theorem handed_afterRelease {s : CaptureState} {i : Nat} {r : GrabResult} (h : r.ret = 0) :
    (s.afterRelease i r).handed = s.handed.erase i :=
  if_pos h

end CaptureState

/-- One call, taken as one step.  Only what was handed over is released. -/
def captureStep (s : CaptureState) : CaptureAct → Option CaptureState
  | .grab sel ds errno => some (s.afterGrab (usCaptureHwbufGrab s.cap s.queued sel ds errno))
  | .release i qbufOk =>
    if i ∈ s.handed then
      (usCaptureHwbufRelease s.cap.run s.queued i qbufOk).map (s.afterRelease i)
    else none
  | .incref i => some { s with cap := { s.cap with run := usCaptureHwbufIncref s.cap.run i } }
  | .decref i => some { s with cap := { s.cap with run := usCaptureHwbufDecref s.cap.run i } }

/-- From a device as `us_capture_open` leaves it: every buffer is queued, none is grabbed. -/
def captureSystem : System CaptureState CaptureAct where
  start s :=
    s.cap.run.bufs.length = s.cap.run.nBufs ∧ 1 ≤ s.cap.run.nBufs ∧
      s.queued = Finset.range s.cap.run.nBufs ∧ s.handed = ∅ ∧
      ∀ i < s.cap.run.nBufs, (s.cap.run.hw i).grabbed = false
  step := captureStep

/-- The driver keeps its promise in this step. -/
def DriverOk (s : CaptureState) : CaptureAct → Prop
  | .grab _ ds _ => DriverHonest s.cap ds (grabStart s.cap s.queued)
  | .release _ qbufOk => qbufOk = true
  | .incref _ => True
  | .decref _ => True

instance (s : CaptureState) : ∀ a, Decidable (DriverOk s a)
  | .grab _ ds _ => inferInstanceAs (Decidable (DriverHonest s.cap ds (grabStart s.cap s.queued)))
  | .release _ qbufOk => inferInstanceAs (Decidable (qbufOk = true))
  | .incref _ => isTrue trivial
  | .decref _ => isTrue trivial

/-- The invariant: the indices are split, and what was handed over can be given back. -/
structure Owned (s : CaptureState) : Prop where
  split : Split s.cap.run s.queued
  handed : ∀ i ∈ s.handed, i < s.cap.run.nBufs ∧ (s.cap.run.hw i).grabbed = true ∧
    (s.cap.run.hw i).buf.index = i

theorem owned_start {s : CaptureState} (hs : captureSystem.start s) : Owned s := by
  obtain ⟨hlen, -, hqueued, hhanded, hfree⟩ := hs
  refine ⟨⟨hlen, fun i hi => ?_, fun i hi => ?_⟩, fun i hi => ?_⟩
  · rw [hqueued, Finset.mem_range] at hi
    exact hi
  · rw [hqueued, Finset.mem_range]
    exact iff_of_true hi (hfree i hi)
  · rw [hhanded] at hi
    exact absurd hi (Finset.notMem_empty i)

namespace Owned

variable {s : CaptureState}

/-- A grab keeps the invariant, whatever it returns. -/
theorem grab (h : Owned s) {ds : List Dequeued}
    (hh : DriverHonest s.cap ds (grabStart s.cap s.queued))
    (sel : Selected) (errno : DqErrno) :
    Owned (s.afterGrab (usCaptureHwbufGrab s.cap s.queued sel ds errno)) := by
  let r := usCaptureHwbufGrab s.cap s.queued sel ds errno
  -- an index held by nobody's call stays handed over
  have hkeep : ∀ held, Takes s.cap.run s.queued held r.run r.queued →
      (∀ i ∈ s.handed, (r.run.hw i).buf = (s.cap.run.hw i).buf) → ∀ i ∈ s.handed,
        i < r.run.nBufs ∧ (r.run.hw i).grabbed = true ∧ (r.run.hw i).buf.index = i := by
    intro held ht hbuf i hi
    obtain ⟨hlt, hg, hidx⟩ := h.handed i hi
    refine ⟨by rw [ht.nBufs]; exact hlt, ?_, by rw [hbuf i hi]; exact hidx⟩
    rw [ht.grabbed, hg, Bool.or_true]
  rcases usCaptureHwbufGrab_cases h.split.length h.split.mine sel ds errno with
    ⟨buf, hk⟩ | ⟨hret, ht, hc⟩ | ⟨hret, hc, hheld⟩
  · have hret : r.ret = buf.index := hk.ret
    have hq : buf.index ∈ s.queued := hk.takes.was_queued _ rfl
    have hlt := h.split.queued_lt _ hq
    have hfree : ∀ i ∈ s.handed, i ≠ buf.index := by
      rintro i hi rfl
      obtain ⟨-, hg, -⟩ := h.handed _ hi
      rw [(h.split.iff _ hlt).mp hq] at hg
      exact absurd hg (by decide)
    refine ⟨h.split.takes hk.takes, fun i hi => ?_⟩
    rw [CaptureState.handed_afterGrab_index hret, Finset.mem_insert] at hi
    rw [CaptureState.run_afterGrab]
    rcases hi with rfl | hi
    · refine ⟨by rw [hk.takes.nBufs]; exact hlt, ?_, by rw [hk.buf_self]⟩
      rw [hk.takes.grabbed, decide_eq_true rfl, Bool.true_or]
    · exact hkeep _ hk.takes (fun j hj => hk.buf_of_ne j (hfree j hj)) i hi
  · refine ⟨h.split.takes ht, fun i hi => ?_⟩
    rw [CaptureState.handed_afterGrab_error (hret.trans_lt (by decide))] at hi
    exact hkeep _ ht (fun j _ => hc.buf j) i hi
  · obtain ⟨held, ht⟩ := hheld h.split hh
    refine ⟨h.split.takes ht, fun i hi => ?_⟩
    rw [CaptureState.handed_afterGrab_error (hret.trans_lt (by decide))] at hi
    exact hkeep _ ht (fun j _ => hc.buf j) i hi

/-- A release gives one index back to the driver. -/
theorem release (h : Owned s) {i : Nat} (hi : i ∈ s.handed) :
    Owned (s.afterRelease i ⟨0, s.cap.run.modifyHw i fun hw => { hw with grabbed := false },
      insert (s.cap.run.hw i).buf.index s.queued⟩) := by
  obtain ⟨hlt, -, hidx⟩ := h.handed i hi
  rw [hidx]
  refine ⟨h.split.give hlt, fun j hj => ?_⟩
  rw [CaptureState.handed_afterRelease rfl] at hj
  rw [CaptureState.run_afterRelease]
  obtain ⟨hji, hj⟩ := Finset.mem_erase.mp hj
  obtain ⟨hjlt, hjg, hjidx⟩ := h.handed j hj
  rw [UsCaptureRuntime.hw_modifyHw_of_ne _ (Ne.symm hji)]
  exact ⟨hjlt, hjg, hjidx⟩

/-- Counting touches neither marks nor indices. -/
theorem count (h : Owned s) (i : Nat) {f : UsCaptureHwbuf → UsCaptureHwbuf}
    (hg : ∀ hw, (f hw).grabbed = hw.grabbed) (hb : ∀ hw, (f hw).buf = hw.buf) :
    Owned { s with cap := { s.cap with run := s.cap.run.modifyHw i f } } := by
  have hgrab := UsCaptureRuntime.hw_modifyHw_field (·.grabbed) s.cap.run i f hg
  have hbuf := UsCaptureRuntime.hw_modifyHw_field (·.buf) s.cap.run i f hb
  refine ⟨⟨?_, h.split.queued_lt, fun j hj => ?_⟩, fun j hj => ?_⟩
  · rw [UsCaptureRuntime.length_bufs_modifyHw]
    exact h.split.length
  · rw [hgrab j]
    exact h.split.iff j hj
  · obtain ⟨hjlt, hjg, hjidx⟩ := h.handed j hj
    exact ⟨hjlt, (hgrab j).trans hjg, (congrArg (·.index) (hbuf j)).trans hjidx⟩

/-- **The step.**  With an honest driver every call keeps the invariant. -/
theorem step (h : Owned s) {a : CaptureAct} {s' : CaptureState} (hok : DriverOk s a)
    (hst : captureStep s a = some s') : Owned s' := by
  cases a with
  | grab sel ds errno =>
    rw [captureStep, Option.some.injEq] at hst
    exact hst ▸ h.grab hok sel errno
  | release i qbufOk =>
    simp only [captureStep] at hst
    split at hst
    · rename_i hi
      obtain ⟨r, hr, rfl⟩ := Option.map_eq_some_iff.mp hst
      simp only [usCaptureHwbufRelease, show qbufOk = true from hok, Bool.not_true,
        Bool.false_eq_true, if_false] at hr
      split at hr
      · exact absurd hr (by simp)
      · exact Option.some.inj hr ▸ h.release hi
    · exact absurd hst (by simp)
  | incref i =>
    rw [captureStep, Option.some.injEq] at hst
    exact hst ▸ h.count i (fun _ => rfl) fun _ => rfl
  | decref i =>
    rw [captureStep, Option.some.injEq] at hst
    exact hst ▸ h.count i (fun _ => rfl) fun _ => rfl

end Owned

theorem owned_of_reach {s : CaptureState} (hr : captureSystem.ReachVia DriverOk s) : Owned s :=
  System.ReachVia.inv (fun _ hs => owned_start hs)
    (fun _ _ _ hI hok hst => hI.step hok hst) hr

/-! ## 4. Capture buffer ownership -/

/-- **Capture buffer ownership.**  In every state that calls of grab and release reach, each index
is queued in the driver or grabbed, and not both; the next grab, if it returns an index, keeps the
newest valid buffer it dequeued and nothing else, and if it returns `US_ERROR_NO_DATA` leaves the
driver with every buffer it had. -/
theorem capture_buffer_ownership {s : CaptureState} (hr : captureSystem.ReachVia DriverOk s) :
    (∀ i < s.cap.run.nBufs,
      (i ∈ s.queued ∧ (s.cap.run.hw i).grabbed = false) ∨
        (i ∉ s.queued ∧ (s.cap.run.hw i).grabbed = true)) ∧
      ∀ (sel : Selected) (ds : List Dequeued) (errno : DqErrno),
        DriverHonest s.cap ds (grabStart s.cap s.queued) →
        let r := usCaptureHwbufGrab s.cap s.queued sel ds errno
        (∀ i : Nat, r.ret = (i : Int) →
          (∃ buf, newestValid s.cap ds = some buf ∧ buf.index = i) ∧ i ∈ s.queued ∧
            r.queued = s.queued.erase i ∧
            ∀ j, (r.run.hw j).grabbed = (decide (i = j) || (s.cap.run.hw j).grabbed)) ∧
          (r.ret = usErrorNoData →
            r.queued = s.queued ∧ ∀ j, (r.run.hw j).grabbed = (s.cap.run.hw j).grabbed) := by
  have hI := owned_of_reach hr
  constructor
  · intro i hi
    have hiff := hI.split.iff i hi
    cases hg : (s.cap.run.hw i).grabbed with
    | false => exact Or.inl ⟨hiff.mpr hg, rfl⟩
    | true =>
      refine Or.inr ⟨fun hq => ?_, rfl⟩
      rw [hiff.mp hq] at hg
      exact absurd hg (by decide)
  · intro sel ds errno hh r
    rcases usCaptureHwbufGrab_cases hI.split.length hI.split.mine sel ds errno with
      ⟨buf, hk⟩ | ⟨hret, ht, -⟩ | ⟨hret, -, -⟩
    · have hret : r.ret = buf.index := hk.ret
      constructor
      · intro i hi
        have hbi : buf.index = i := Int.ofNat.inj (hret.symm.trans hi)
        subst hbi
        refine ⟨⟨buf, hk.newest, rfl⟩, hk.takes.was_queued _ rfl, hk.takes.queued_eq_erase,
          fun j => ?_⟩
        rw [hk.takes.grabbed j]
        simp
      · intro hno
        rw [hret] at hno
        exact absurd hno (by simp [usErrorNoData])
    · have hret' : r.ret = usErrorNoData := hret
      constructor
      · intro i hi
        rw [hret'] at hi
        exact absurd hi (by simp [usErrorNoData])
      · intro _
        refine ⟨ht.queued_eq, fun j => ?_⟩
        rw [ht.grabbed j]
        simp
    · have hret' : r.ret = -1 := hret
      rw [hret']
      exact ⟨fun i hi => absurd hi (by omega), fun hno => absurd hno (by decide)⟩

/-- A grab is always a step. -/
theorem captureSystem_grab (s : CaptureState) (sel : Selected) (ds : List Dequeued)
    (errno : DqErrno) :
    captureSystem.step s (.grab sel ds errno)
      = some (s.afterGrab (usCaptureHwbufGrab s.cap s.queued sel ds errno)) := rfl

/-- Two buffers, both queued. -/
def twoBuffers : CaptureState where
  cap :=
    { width := 640, height := 480, format := v4l2PixFmtYuyv, formatSwapRgb := false,
      standard := 0, ioMethod := .mmap, dvTimings := false, persistent := false,
      nBufs := 2, dmaExport := false, dmaRequired := false, minFrameSize := 128,
      allowTruncatedFrames := false
      run :=
        { fd := 3, width := 640, height := 480, format := v4l2PixFmtYuyv, stride := 1280, hz := 0,
          rawSize := 614400, nBufs := 2, bufs := [.zero, .zero], dma := false,
          captureMplane := false, streamon := true } }
  queued := Finset.range 2
  handed := ∅

/-- A grab over a broken and a valid frame keeps the valid one. -/
theorem capture_buffer_ownership_two :
    ∃ s, captureSystem.ReachVia DriverOk s ∧ 1 ∉ s.queued ∧
      ((0 ∈ s.queued ∧ (s.cap.run.hw 0).grabbed = false) ∨
        (0 ∉ s.queued ∧ (s.cap.run.hw 0).grabbed = true)) := by
  have h0 : captureSystem.ReachVia DriverOk twoBuffers :=
    .start ⟨rfl, by decide, rfl, rfl, by decide⟩
  have h1 := h0.step (a := .grab ⟨1, false, none⟩
    [⟨⟨0, 64, [], 0, 0⟩, [], true⟩, ⟨⟨1, 4096, [], 0, 0⟩, [], true⟩] .again) (by decide)
    (captureSystem_grab _ _ _ _)
  exact ⟨_, h1, by decide, (capture_buffer_ownership h1).1 0 (by decide)⟩

end TinyPilotKvm
