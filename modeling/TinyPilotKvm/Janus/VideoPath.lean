/-
# Only H.264 frames reach the packetizer, if only H.264 frames are fetched

`us_rtpv_wrap` asserts that its frame is H.264.  What is to keep other frames away from it is
the negative result of `us_memsink_fd_get_frame`, on which the sink thread closes the sink.  It
does not: the result is a `bool`, so it is 1 where -1 was meant, and the slot of the ring has
been published before it is looked at.

Frames get to the packetizer through slots of the ring, which change hands: while the sink thread
writes to a slot nobody else has it (`RingInv.exclusive`).  So a frame that is not H.264 at the
packetizer was not H.264 in the region at some fetch into a slot, and a run without such
fetches (`FetchesH264`) hands over H.264 frames only.
-/
import TinyPilotKvm.Janus.Plugin

namespace TinyPilotKvm

/-! ## 1. Who holds which slot -/

/-- What holds whatever the region contains. -/
structure VideoInv (n : Nat) (s : VideoState) : Prop where
  ring : RingInv n s.ring
  sinkHolds : ∀ i, s.sink.slot = some i → (VideoThread.sink, i) ∈ s.ring.producing
  rtpHolds : ∀ i, s.rtp.slot = some i → (VideoThread.rtp, i) ∈ s.ring.consuming

section Steps

variable {n : Nat} {s s' : VideoState}

theorem slot_videoRtpWrap {i j : Nat} {now : UInt64} (hpc : s.rtp = .wrap i)
    (hj : (videoRtpWrap s i now).rtp.slot = some j) : j = i := by
  unfold videoRtpWrap at hj
  dsimp only at hj
  split at hj
  · rw [hpc] at hj
    exact (Option.some.inj hj).symm
  · exact (Option.some.inj hj).symm

theorem frame_videoRtpWrap (i : Nat) (now : UInt64) :
    (videoRtpWrap s i now).ring = s.ring ∧ (videoRtpWrap s i now).items = s.items ∧
      (videoRtpWrap s i now).sink = s.sink ∧
      (videoRtpWrap s i now).wrapped = s.wrapped ++ [s.items i] := by
  unfold videoRtpWrap
  dsimp only
  split
  · exact ⟨rfl, rfl, rfl, rfl⟩
  · exact ⟨rfl, rfl, rfl, rfl⟩

theorem VideoInv.sinkMove (h : VideoInv n s) (hm : VideoSinkMove s s') : VideoInv n s' := by
  cases hm with
  | quiet hsame hrtp hkept =>
    refine ⟨hsame.ring ▸ h.ring, fun i hi => ?_, fun i hi => ?_⟩
    · rw [hsame.ring]
      exact h.sinkHolds i (hkept i hi).1
    · rw [hsame.ring]
      exact h.rtpHolds i (hrtp ▸ hi)
  | acquired i hstep hmem =>
    refine ⟨h.ring.step hstep, fun j hj => ?_, fun j hj => ?_⟩
    · obtain rfl : i = j := Option.some.inj hj
      exact hmem
    · rw [(producerAcquire_frame hstep).1]
      exact h.rtpHolds j hj
  | got i keyRequired unlocked now hpc =>
    refine ⟨h.ring, fun j hj => ?_, h.rtpHolds⟩
    refine h.sinkHolds j ?_
    rw [hpc]
    exact hj
  | published i got hpc hstep =>
    refine ⟨h.ring.step hstep, fun j hj => absurd hj (by simp [VideoSinkPc.slot]), fun j hj => ?_⟩
    rw [(producerRelease_frame hstep).1]
    exact h.rtpHolds j hj

theorem VideoInv.rtpMove (h : VideoInv n s) (hm : VideoRtpMove s s') : VideoInv n s' := by
  cases hm with
  | quiet hsame hsink hslot =>
    refine ⟨hsame.ring ▸ h.ring, fun i hi => ?_, fun i hi => ?_⟩
    · rw [hsame.ring]
      exact h.sinkHolds i (hsink ▸ hi)
    · rw [hslot] at hi
      exact absurd hi (by simp)
  | acquired i ha hstep =>
    obtain ⟨hproducing, hmem, -, -⟩ := h.ring.consumerAcquire_frame ha hstep
    refine ⟨h.ring.step hstep, fun j hj => ?_, fun j hj => ?_⟩
    · rw [hproducing]
      exact h.sinkHolds j hj
    · obtain rfl : i = j := Option.some.inj hj
      exact hmem
  | wrapped i now hpc =>
    obtain ⟨hring, -, hsink, -⟩ := frame_videoRtpWrap (s := s) i now
    refine ⟨hring ▸ h.ring, fun j hj => ?_, fun j hj => ?_⟩
    · rw [hring]
      exact h.sinkHolds j (hsink ▸ hj)
    · obtain rfl := slot_videoRtpWrap hpc hj
      rw [hring]
      exact h.rtpHolds j (by rw [hpc]; rfl)
  | released i hpc hstep =>
    refine ⟨h.ring.step hstep, fun j hj => ?_, fun j hj => absurd hj (by simp [VideoRtpPc.slot])⟩
    rw [(consumerRelease_frame hstep).1]
    exact h.sinkHolds j hj

end Steps

theorem videoInv_start {n : Nat} (h : 0 < n) {s : VideoState} (hs : (videoSystem n h).start s) :
    VideoInv n s := by
  obtain ⟨ring, mem, ssrc, hring, rfl⟩ := hs
  exact ⟨ringInv_fresh h hring, fun i hi => absurd hi (by simp [videoInit, VideoSinkPc.slot]),
    fun i hi => absurd hi (by simp [videoInit, VideoRtpPc.slot])⟩

/-- A step of a living process, by who takes it. -/
theorem videoStep_cases {s s' : VideoState} {a : VideoAct} (hs : videoStep s a = some s') :
    (∃ b, a = .sink b ∧ VideoSinkMove s s') ∨ (∃ b, a = .rtp b ∧ VideoRtpMove s s') ∨
      RingUntouched s s' ∧ s'.sink = s.sink ∧ s'.rtp = s.rtp := by
  unfold videoStep at hs
  split at hs
  · exact absurd hs (by simp)
  cases a with
  | sink b => exact Or.inl ⟨b, rfl, videoSinkStep_move hs⟩
  | rtp b => exact Or.inr (Or.inl ⟨b, rfl, videoRtpStep_move hs⟩)
  | keyRequiredMessage =>
    obtain rfl := Option.some.inj hs
    exact Or.inr (Or.inr ⟨⟨rfl, rfl, rfl, rfl⟩, rfl, rfl⟩)
  | watchers b =>
    obtain rfl := Option.some.inj hs
    exact Or.inr (Or.inr ⟨⟨rfl, rfl, rfl, rfl⟩, rfl, rfl⟩)
  | stop =>
    obtain rfl := Option.some.inj hs
    exact Or.inr (Or.inr ⟨⟨rfl, rfl, rfl, rfl⟩, rfl, rfl⟩)
  | write mem =>
    dsimp only at hs
    split at hs
    · exact absurd hs (by simp)
    · obtain rfl := Option.some.inj hs
      exact Or.inr (Or.inr ⟨⟨rfl, rfl, rfl, rfl⟩, rfl, rfl⟩)

/-- The slots are held as the threads' program counters say, whatever is fetched. -/
theorem videoInv_of_reach {n : Nat} (h : 0 < n) {ok : VideoState → VideoAct → Prop} {s : VideoState}
    (hr : (videoSystem n h).ReachVia ok s) : VideoInv n s := by
  refine hr.inv (fun _ => videoInv_start h) ?_
  intro s s' a hI _ hst
  rcases videoStep_cases hst with ⟨b, -, hm⟩ | ⟨b, -, hm⟩ | ⟨hsame, hsink, hrtp⟩
  · exact hI.sinkMove hm
  · exact hI.rtpMove hm
  · refine ⟨hsame.ring ▸ hI.ring, fun i hi => ?_, fun i hi => ?_⟩
    · rw [hsame.ring]
      exact hI.sinkHolds i (hsink ▸ hi)
    · rw [hsame.ring]
      exact hI.rtpHolds i (hrtp ▸ hi)

/-! ## 2. Runs that fetch H.264 -/

/-- A fetch into a slot of the ring finds an H.264 frame in the region. -/
def fetchesH264 (s : VideoState) (a : VideoAct) : Bool :=
  match a, s.sink with
  | .sink _, .get (some _) _ => decide (s.mem.format = v4l2PixFmtH264)
  | _, _ => true

abbrev FetchesH264 (s : VideoState) (a : VideoAct) : Prop := fetchesH264 s a = true

/-- Every frame between the fetch and the packetizer is H.264. -/
structure H264Inv (s : VideoState) : Prop where
  publishing : ∀ i got, s.sink = .publish (some i) got → (s.items i).format = v4l2PixFmtH264
  queued : ∀ i ∈ s.ring.ring.consumer.toList, (s.items i).format = v4l2PixFmtH264
  taken : ∀ i, s.rtp.slot = some i → (s.items i).format = v4l2PixFmtH264
  wrapped : ∀ frame ∈ s.wrapped, frame.format = v4l2PixFmtH264
  noFault : s.fault ≠ some .notH264

section Steps

variable {n : Nat} {s s' : VideoState}

/-- Steps that do not touch the ring. -/
theorem H264Inv.untouched (h : H264Inv s) (hsame : RingUntouched s s')
    (hpublishing : ∀ i got, s'.sink = .publish (some i) got → s.sink = .publish (some i) got)
    (hrtp : ∀ i, s'.rtp.slot = some i → s.rtp.slot = some i) : H264Inv s' := by
  refine ⟨fun i got hi => ?_, fun i hi => ?_, fun i hi => ?_, ?_, ?_⟩
  · rw [hsame.items]
    exact h.publishing i got (hpublishing i got hi)
  · rw [hsame.items]
    exact h.queued i (hsame.ring ▸ hi)
  · rw [hsame.items]
    exact h.taken i (hrtp i hi)
  · rw [hsame.wrapped]
    exact h.wrapped
  · rw [hsame.fault]
    exact h.noFault

/-- **The fetch.**  The slot written to is not among the published ones. -/
theorem H264Inv.got (h : H264Inv s) (hI : VideoInv n s) {i : Nat} {keyRequired : Bool}
    (unlocked : Bool) (now : ℚ) (hpc : s.sink = .get (some i) keyRequired)
    (hmem : s.mem.format = v4l2PixFmtH264) :
    H264Inv (videoSinkGet s (some i) keyRequired unlocked now) := by
  obtain ⟨hqueue, hconsuming⟩ := hI.ring.exclusive (hI.sinkHolds i (by rw [hpc]; rfl))
  have hself : ((videoSinkGet s (some i) keyRequired unlocked now).items i).format
      = v4l2PixFmtH264 := by
    simp only [videoSinkGet, VideoState.setFrame, Function.update_self,
      format_usMemsinkFdGetFrame, hmem]
  have hother : ∀ j, j ≠ i →
      (videoSinkGet s (some i) keyRequired unlocked now).items j = s.items j := by
    intro j hj
    simp only [videoSinkGet, VideoState.setFrame, Function.update_of_ne hj]
  refine ⟨fun j got hj => ?_, fun j hj => ?_, fun j hj => ?_, h.wrapped, h.noFault⟩
  · simp only [videoSinkGet, VideoSinkPc.publish.injEq, Option.some.injEq] at hj
    obtain ⟨rfl, -⟩ := hj
    exact hself
  · rw [hother j (fun hji => hqueue (hji ▸ hj))]
    exact h.queued j hj
  · have hheld := hI.rtpHolds j hj
    rw [hother j (fun hji => hconsuming _ (hji ▸ hheld))]
    exact h.taken j hj

theorem H264Inv.sinkMove (h : H264Inv s) (hI : VideoInv n s) (hm : VideoSinkMove s s')
    (hmem : ∀ i keyRequired, s.sink = .get (some i) keyRequired → s.mem.format = v4l2PixFmtH264) :
    H264Inv s' := by
  cases hm with
  | quiet hsame hrtp hkept =>
    refine h.untouched hsame (fun i got hi => ?_) (fun i hi => hrtp ▸ hi)
    have hslot : s'.sink.slot = some i := by
      rw [hi]
      rfl
    exact absurd hi ((hkept i hslot).2 got)
  | acquired i hstep hmem' =>
    refine ⟨fun j got hj => by simp at hj, fun j hj => ?_, h.taken, h.wrapped, h.noFault⟩
    rw [(producerAcquire_frame hstep).2] at hj
    exact h.queued j hj
  | got i keyRequired unlocked now hpc => exact h.got hI unlocked now hpc (hmem i keyRequired hpc)
  | published i got hpc hstep =>
    refine ⟨fun j got hj => by simp at hj, fun j hj => ?_, h.taken, h.wrapped, h.noFault⟩
    rcases (producerRelease_frame hstep).2 j hj with hj | rfl
    · exact h.queued j hj
    · exact h.publishing j got hpc

/-- **The packetizer.**  What it is called with is H.264, so its assertion holds. -/
theorem H264Inv.wrap (h : H264Inv s) {i : Nat} (now : UInt64) (hpc : s.rtp = .wrap i) :
    H264Inv (videoRtpWrap s i now) := by
  have hformat := h.taken i (by rw [hpc]; rfl)
  obtain ⟨hring, hitems, hsink, hwrapped⟩ := frame_videoRtpWrap (s := s) i now
  refine ⟨fun j got hj => ?_, fun j hj => ?_, fun j hj => ?_, fun frame hf => ?_, ?_⟩
  · rw [hitems]
    exact h.publishing j got (hsink ▸ hj)
  · rw [hitems]
    exact h.queued j (hring ▸ hj)
  · obtain rfl := slot_videoRtpWrap hpc hj
    rw [hitems]
    exact hformat
  · rw [hwrapped] at hf
    rcases List.mem_append.mp hf with hf | hf
    · exact h.wrapped frame hf
    · rw [List.mem_singleton.mp hf]
      exact hformat
  · unfold videoRtpWrap
    dsimp only
    split
    · rename_i fault hwrap
      intro hfault
      rw [Option.some.inj hfault] at hwrap
      exact absurd hformat (usRtpvWrap_eq_notH264_iff.mp hwrap)
    · exact h.noFault

theorem H264Inv.rtpMove (h : H264Inv s) (hI : VideoInv n s) (hm : VideoRtpMove s s') :
    H264Inv s' := by
  cases hm with
  | quiet hsame hsink hslot =>
    refine h.untouched hsame (fun i got hi => hsink ▸ hi) (fun i hi => ?_)
    rw [hslot] at hi
    exact absurd hi (by simp)
  | acquired i ha hstep =>
    obtain ⟨-, -, hfirst, hrest⟩ := hI.ring.consumerAcquire_frame ha hstep
    refine ⟨h.publishing, fun j hj => h.queued j (hrest j hj), fun j hj => ?_, h.wrapped, h.noFault⟩
    obtain rfl : i = j := Option.some.inj hj
    exact h.queued i hfirst
  | wrapped i now hpc => exact h.wrap now hpc
  | released i hpc hstep =>
    refine ⟨h.publishing, fun j hj => ?_, fun j hj => by simp [VideoRtpPc.slot] at hj, h.wrapped,
      h.noFault⟩
    rw [(consumerRelease_frame hstep).2] at hj
    exact h.queued j hj

end Steps

theorem h264Inv_of_reach {n : Nat} (h : 0 < n) {s : VideoState}
    (hr : (videoSystem n h).ReachVia FetchesH264 s) : H264Inv s := by
  refine System.ReachVia.inv_of (fun _ => videoInv_of_reach h) ?_ ?_ hr
  · rintro s ⟨ring, mem, ssrc, hring, rfl⟩
    obtain ⟨r, hr', -, -, -, hconsumer⟩ := usRingInit_spec h
    obtain rfl : r = ring := Option.some.inj (hr'.symm.trans hring)
    refine ⟨fun i got hi => by simp [videoInit] at hi, fun i hi => ?_, fun i hi => ?_, ?_, ?_⟩
    · simp only [videoInit, RingState.fresh, hconsumer, Queue.toList_init] at hi
      exact absurd hi (by simp)
    · simp [videoInit, VideoRtpPc.slot] at hi
    · simp [videoInit]
    · simp [videoInit]
  · intro s s' a hI hH hok hst
    rcases videoStep_cases hst with ⟨b, rfl, hm⟩ | ⟨b, -, hm⟩ | ⟨hsame, hsink, hrtp⟩
    · refine hH.sinkMove hI hm fun i keyRequired hpc => ?_
      simpa only [FetchesH264, fetchesH264, hpc, decide_eq_true_eq] using hok
    · exact hH.rtpMove hI hm
    · exact hH.untouched hsame (fun i got hi => hsink ▸ hi) (fun i hi => hrtp ▸ hi)

/-! ## 3. What is refused -/

/-- The frame in the region must be refused, or the region could not be unlocked. -/
def MustReject (mem : UsMemsinkShared) (unlocked : Bool) : Prop :=
  mem.format ≠ v4l2PixFmtH264 ∨ unlocked = false

/-- The result `ret` refuses exactly what must be refused: negative for it, and 0 otherwise. -/
def RejectsAsDue (mem : UsMemsinkShared) (unlocked : Bool) (ret : Int) : Prop :=
  (ret < 0 ↔ MustReject mem unlocked) ∧ (¬ MustReject mem unlocked → ret = 0)

/-- **Nothing is refused.**  The result of a fetch is as due exactly when there is nothing to
refuse, for it is never negative. -/
theorem rejectsAsDue_iff (mem : UsMemsinkShared) (frame : UsFrame) (keyRequired unlocked : Bool)
    (now : ℚ) :
    RejectsAsDue mem unlocked (usMemsinkFdGetFrame mem frame keyRequired unlocked now).ret
      ↔ mem.format = v4l2PixFmtH264 ∧ unlocked = true := by
  have hnonneg : 0 ≤ (usMemsinkFdGetFrame mem frame keyRequired unlocked now).ret := by
    rw [ret_usMemsinkFdGetFrame]
    split
    · exact Int.le_refl 0
    · exact Int.one_nonneg
  have hgood : ¬ MustReject mem unlocked ↔ mem.format = v4l2PixFmtH264 ∧ unlocked = true := by
    unfold MustReject
    rw [not_or, not_not, Bool.not_eq_false]
  rw [← hgood]
  constructor
  · rintro ⟨hneg, -⟩ hbad
    exact absurd (hneg.mpr hbad) (Int.not_lt.mpr hnonneg)
  · intro hok
    refine ⟨⟨fun hlt => absurd hlt (Int.not_lt.mpr hnonneg), fun hbad => absurd hbad hok⟩, ?_⟩
    intro _
    rw [ret_usMemsinkFdGetFrame]
    exact if_pos (hgood.mp hok)

/-- **The video path.**  The result of a fetch is as due exactly when the frame in the region is
H.264 and the unlock succeeds; and in every run whose fetches into the ring find H.264 frames
the packetizer is called with H.264 frames only and its assertion does not fail. -/
theorem video_path_h264_only {n : Nat} (h : 0 < n) :
    (∀ mem frame keyRequired unlocked now,
        RejectsAsDue mem unlocked (usMemsinkFdGetFrame mem frame keyRequired unlocked now).ret
          ↔ mem.format = v4l2PixFmtH264 ∧ unlocked = true) ∧
      ∀ s, (videoSystem n h).ReachVia FetchesH264 s →
        (∀ frame ∈ s.wrapped, frame.format = v4l2PixFmtH264) ∧ s.fault ≠ some .notH264 := by
  refine ⟨rejectsAsDue_iff, fun s hr => ?_⟩
  have hH := h264Inv_of_reach h hr
  exact ⟨hH.wrapped, hH.noFault⟩

/-- A region with an empty frame of the format `format`. -/
def regionOf (format : Nat) : UsMemsinkShared :=
  { FrameMeta.zero with
    format := format
    magic := usMemsinkMagic
    version := usMemsinkVersion
    id := 1
    used := 0
    lastClientTs := 0
    keyRequested := false
    data := [] }

/-- A plugin with a ring of one frame, over such a region. -/
def pluginOver (format : Nat) : VideoState :=
  videoInit ((usRingInit 1 Nat.one_pos).get (by decide)) (regionOf format) 0

theorem pluginOver_start (format : Nat) : (videoSystem 1 Nat.one_pos).start (pluginOver format) :=
  ⟨_, _, _, (Option.some_get _).symm, rfl⟩

/-- One frame from the region to the packetizer. -/
def oneFrame : List VideoAct :=
  [.watchers true, .sink .go, .sink .go, .sink (.openMemsink true), .sink .go, .sink .go,
    .sink (.waitTurn .taken true false), .sink (.acquire false), .sink .go, .sink (.get true 0),
    .sink .go, .rtp .go, .rtp (.acquire false), .rtp (.wrap 0)]

/-- An H.264 frame is handed over. -/
theorem video_path_h264_only_one :
    ∃ s : VideoState, s.wrapped.length = 1 ∧ (∀ frame ∈ s.wrapped, frame.format = v4l2PixFmtH264) ∧
      s.fault ≠ some .notH264 := by
  have hrun : (((videoSystem 1 Nat.one_pos).execVia FetchesH264 (pluginOver v4l2PixFmtH264)
      oneFrame).any fun s => decide (s.wrapped.length = 1)) = true := by decide +kernel
  obtain ⟨s, hexec, hs⟩ := (Option.any_eq_true _ _).mp hrun
  have hr := System.ReachVia.execVia _ (.start (pluginOver_start _)) hexec
  exact ⟨s, of_decide_eq_true hs, (video_path_h264_only Nat.one_pos).2 s hr⟩

/-- **A JPEG frame gets through.**  The fetch returns 1 for it, and the packetizer's assertion
fails. -/
theorem jpeg_frame_fails_assertion :
    (usMemsinkFdGetFrame (regionOf v4l2PixFmtJpeg) usFrameInit false true 0).ret = 1 ∧
      ∃ s, (videoSystem 1 Nat.one_pos).Reach s ∧ s.fault = some .notH264 := by
  refine ⟨by rw [ret_usMemsinkFdGetFrame]; decide, ?_⟩
  have hrun : (((videoSystem 1 Nat.one_pos).exec (pluginOver v4l2PixFmtJpeg) oneFrame).any fun s =>
      decide (s.fault = some .notH264)) = true := by decide +kernel
  obtain ⟨s, hexec, hs⟩ := (Option.any_eq_true _ _).mp hrun
  exact ⟨s, System.Reach.exec _ (.start (pluginOver_start _)) hexec, of_decide_eq_true hs⟩

end TinyPilotKvm
