/-
# What the refresher shows

The frames in the ring are the exposures that have not been handed out (`SnapshotInv.waiting`), the
one in the refresher's hand is the last that has (`inHand`), and what is shown is not older than
any picture taken so far (`SnapshotInv.shows`): an empty frame leaves the old picture, and a
frame that compares as the same has the same picture.
-/
import TinyPilotKvm.Ustreamer.Http.Snapshot

namespace TinyPilotKvm

/-! ## 1. The invariant -/

structure SnapshotInv (n : Nat) (s : SnapshotState) : Prop where
  ring : RingInv n s.ring
  streamHolds : ∀ ri, s.stream.slot = some ri → (SnapThread.stream, ri) ∈ s.ring.producing
  httpHolds : ∀ ri, s.http.slot = some ri → (SnapThread.http, ri) ∈ s.ring.consuming
  count : s.exposures.length = s.ring.released.length
  /-- The ring has the frames that are not taken. -/
  waiting : s.ring.ring.consumer.toList.map s.items = s.exposures.drop s.ring.handed.length
  inHand : ∀ ri, s.http = .expose ri → s.ring.handed ≠ [] ∧
    s.exposures[s.ring.handed.length - 1]? = some (s.items ri)
  shows : s.Shows s.taken

variable {n : Nat} {s s' : SnapshotState}

/-- What the invariant depends on, less the holders of the slots. -/
structure SameFrames (s s' : SnapshotState) : Prop where
  released : s'.ring.released = s.ring.released
  handed : s'.ring.handed = s.ring.handed
  consumer : s'.ring.ring.consumer = s.ring.ring.consumer
  items : s'.items = s.items
  frame : s'.frame = s.frame
  exposures : s'.exposures = s.exposures

namespace SnapshotInv

theorem taken_of_slot (h : s.http.slot = none) : s.taken = s.ring.handed.length := by
  unfold SnapshotState.taken
  split
  · rename_i ri hri
    rw [hri] at h
    exact absurd h (Option.some_ne_none ri)
  · rfl

theorem not_expose_of_slot (h : s.http.slot = none) (ri : Nat) : s.http ≠ .expose ri := by
  intro hri
  rw [hri] at h
  exact absurd h (Option.some_ne_none ri)

/-- The frames that are handed out have been exposed. -/
theorem handed_le (h : SnapshotInv n s) : s.ring.handed.length ≤ s.exposures.length := by
  rw [h.count, h.ring.released_eq, List.length_append]
  exact Nat.le_add_right _ _

theorem taken_le (h : SnapshotInv n s) : s.taken ≤ s.exposures.length := by
  have hle := h.handed_le
  unfold SnapshotState.taken
  split <;> omega

/-- A step that moves no frame in the ring and does not touch `ex->frame`. -/
theorem of_sameFrames (h : SnapshotInv n s) (hring : RingInv n s'.ring) (hsame : SameFrames s s')
    (hstream : ∀ ri, s'.stream.slot = some ri → (SnapThread.stream, ri) ∈ s'.ring.producing)
    (hhttp : ∀ ri, s'.http.slot = some ri → (SnapThread.http, ri) ∈ s'.ring.consuming)
    (hexpose : ∀ ri, s'.http = .expose ri → s.http = .expose ri) (htaken : s'.taken = s.taken) :
    SnapshotInv n s' where
  ring := hring
  streamHolds := hstream
  httpHolds := hhttp
  count := by
    rw [hsame.exposures, hsame.released]
    exact h.count
  waiting := by
    rw [hsame.consumer, hsame.items, hsame.exposures, hsame.handed]
    exact h.waiting
  inHand ri hri := by
    rw [hsame.items, hsame.exposures, hsame.handed]
    exact h.inHand ri (hexpose ri hri)
  shows := by
    unfold SnapshotState.Shows
    rw [htaken, hsame.exposures, hsame.frame]
    exact h.shows

/-- A step that leaves the ring alone as well. -/
theorem of_sameRing (h : SnapshotInv n s) (hring : s'.ring = s.ring) (hitems : s'.items = s.items)
    (hframe : s'.frame = s.frame) (hexposures : s'.exposures = s.exposures)
    (hstream : s'.stream.slot = none ∨ s'.stream = s.stream)
    (hhttp : s.http.slot = none ∧ s'.http.slot = none ∨ s'.http = s.http) : SnapshotInv n s' := by
  refine h.of_sameFrames (hring ▸ h.ring) ⟨by rw [hring], by rw [hring], by rw [hring], hitems,
    hframe, hexposures⟩ (fun ri hri => ?_) (fun ri hri => ?_) (fun ri hri => ?_) ?_
  · rw [hring]
    rcases hstream with hnone | hsame
    · exact absurd (hnone.symm.trans hri) (Option.some_ne_none ri).symm
    · exact h.streamHolds ri (hsame ▸ hri)
  · rw [hring]
    rcases hhttp with ⟨-, hnone⟩ | hsame
    · exact absurd (hnone.symm.trans hri) (Option.some_ne_none ri).symm
    · exact h.httpHolds ri (hsame ▸ hri)
  · rcases hhttp with ⟨-, hnone⟩ | hsame
    · exact absurd hri (not_expose_of_slot hnone ri)
    · exact hsame ▸ hri
  · rcases hhttp with ⟨hnone, hnone'⟩ | hsame
    · rw [taken_of_slot hnone, taken_of_slot hnone', hring]
    · unfold SnapshotState.taken
      rw [hsame, hring]

theorem init (hn : 0 < n) {ring : UsRing} (hring : usRingInit n hn = some ring) (blank : UsFrame)
    (dropSameFrames errorDelay : Nat) :
    SnapshotInv n (snapshotInit ring blank dropSameFrames errorDelay) where
  ring := ringInv_fresh hn hring
  streamHolds ri hri := absurd hri (by simp [snapshotInit, ExposePc.slot])
  httpHolds ri hri := absurd hri (by simp [snapshotInit, RefresherPc.slot])
  count := rfl
  waiting := by
    have heq := (ringInv_fresh (τ := SnapThread) hn hring).released_eq
    have hnil : (RingState.fresh ring : RingState SnapThread).ring.consumer.toList = [] :=
      (List.append_eq_nil_iff.mp heq.symm).2
    simp only [snapshotInit, hnil, List.map_nil, List.drop_nil]
  inHand ri hri := absurd hri (by simp [snapshotInit])
  shows i hi := absurd hi (Nat.not_lt_zero i)

/-! ## 2. The stream's steps -/

/-- The thread has a slot to copy into. -/
theorem streamAcquire (h : SnapshotInv n s) {ri : Nat} {r : UsRing} {ring : RingState SnapThread}
    {frame : UsFrame} {counted : Bool} (ha : usRingProducerAcquire s.ring.ring = some (ri, r))
    (hring : ringStep s.ring (.producerAcquire .stream false) = some ring) :
    SnapshotInv n { s with ring := ring, stream := .copy ri frame counted } := by
  obtain ⟨hconsuming, hconsumer⟩ := producerAcquire_frame hring
  obtain ⟨hreleased, hhanded⟩ := producerAcquire_lists hring
  refine h.of_sameFrames (h.ring.step hring) ⟨hreleased, hhanded, hconsumer, rfl, rfl, rfl⟩
    (fun i hi => ?_) (fun i hi => ?_) (fun _ hi => hi) ?_
  · obtain rfl : ri = i := Option.some.inj hi
    exact mem_producing_of_acquire ha hring
  · exact hconsuming ▸ h.httpHolds i hi
  · unfold SnapshotState.taken
    rw [hhanded]

/-- Nobody else sees what it copies there. -/
theorem streamCopy (h : SnapshotInv n s) {ri : Nat} {frame : UsFrame} {counted : Bool}
    (hpc : s.stream = .copy ri frame counted) : SnapshotInv n { s with
      items := Function.update s.items ri (usFrameCopy frame (s.items ri))
      stream := .release ri counted } := by
  have hheld := h.streamHolds ri (by rw [hpc]; rfl)
  obtain ⟨hqueue, hconsuming⟩ := h.ring.exclusive hheld
  refine ⟨h.ring, fun i hi => ?_, h.httpHolds, h.count, ?_, fun i hi => ?_, h.shows⟩
  · obtain rfl : ri = i := Option.some.inj hi
    exact hheld
  · refine (List.map_congr_left fun i hi => ?_).trans h.waiting
    have hne : i ≠ ri := by
      rintro rfl
      exact hqueue hi
    exact Function.update_of_ne hne _ _
  · have hne : i ≠ ri := fun hir => hconsuming _ (hir ▸ h.httpHolds i (by rw [hi]; rfl))
    dsimp only
    rw [Function.update_of_ne hne]
    exact h.inHand i hi

/-- **Exposing** puts the frame at the end of what waits in the ring. -/
theorem streamRelease (h : SnapshotInv n s) {ri : Nat} {counted : Bool}
    {ring : RingState SnapThread} (hpc : s.stream = .release ri counted)
    (hring : ringStep s.ring (.producerRelease .stream ri) = some ring) :
    SnapshotInv n { s with
      ring := ring, exposures := s.exposures ++ [s.items ri], stream := afterExpose counted } := by
  have hheld := h.streamHolds ri (by rw [hpc]; rfl)
  obtain ⟨hreleased, hhanded, hqueue⟩ := h.ring.producerRelease_lists hheld hring
  obtain ⟨hconsuming, -⟩ := producerRelease_frame hring
  have hle := h.handed_le
  refine ⟨h.ring.step hring, fun i hi => ?_, fun i hi => hconsuming ▸ h.httpHolds i hi, ?_, ?_,
    fun i hi => ?_, ?_⟩
  · cases counted <;> simp [afterExpose, ExposePc.slot] at hi
  · dsimp only
    rw [hreleased, List.length_append, List.length_append, h.count]
    rfl
  · dsimp only
    rw [hqueue, hhanded, List.map_append, h.waiting, List.drop_append_of_le_length hle]
    rfl
  · obtain ⟨hne, hlast⟩ := h.inHand i hi
    dsimp only
    rw [hhanded]
    have hlt := (List.getElem?_eq_some_iff.mp hlast).1
    exact ⟨hne, (List.getElem?_append_left hlt).trans hlast⟩
  · have htaken : SnapshotState.taken { s with
        ring := ring, exposures := s.exposures ++ [s.items ri], stream := afterExpose counted }
        = s.taken := by
      unfold SnapshotState.taken
      rw [hhanded]
    rw [htaken]
    intro i hi frame hframe hused
    have hlt := h.taken_le
    rw [List.getElem?_append_left (by omega)] at hframe
    obtain ⟨j, shown, hij, hj, hshown, hbytes⟩ := h.shows i hi frame hframe hused
    exact ⟨j, shown, hij, hj, (List.getElem?_append_left (by omega)).trans hshown, hbytes⟩

/-- **The stream's steps keep the invariant.** -/
theorem exposeStep (h : SnapshotInv n s) {a : ExposeAct}
    (hst : TinyPilotKvm.exposeStep s a = some s') : SnapshotInv n s' := by
  unfold TinyPilotKvm.exposeStep at hst
  split at hst
  · obtain rfl := Option.some.inj hst
    exact h.of_sameRing rfl rfl rfl rfl (.inl rfl) (.inr rfl)
  · split at hst
    · exact Option.some.inj hst ▸ h
    · split at hst
      · exact Option.some.inj hst ▸ h
      · rename_i ri r ha
        obtain ⟨ring, hring, rfl⟩ := Option.map_eq_some_iff.mp hst
        exact h.streamAcquire ha hring
  · rename_i frame counted hpc
    split at hst
    · obtain rfl := Option.some.inj hst
      exact h.of_sameRing rfl rfl rfl rfl (.inl (by cases counted <;> rfl)) (.inr rfl)
    · contradiction
  · rename_i hpc
    exact Option.some.inj hst ▸ h.streamCopy hpc
  · rename_i hpc
    obtain ⟨ring, hring, rfl⟩ := Option.map_eq_some_iff.mp hst
    exact h.streamRelease hpc hring
  · obtain rfl := Option.some.inj hst
    exact h.of_sameRing rfl rfl rfl rfl (.inl (by dsimp only; split <;> rfl)) (.inr rfl)
  · obtain rfl := Option.some.inj hst
    exact h.of_sameRing rfl rfl rfl rfl (.inl rfl) (.inr rfl)
  · contradiction

/-! ## 3. The refresher's steps -/

/-- **Taking** a frame takes the first of those that wait. -/
theorem refresherAcquire (h : SnapshotInv n s) {ri : Nat} {r : UsRing}
    {ring : RingState SnapThread} (hpc : s.http = .idle)
    (ha : usRingConsumerAcquire s.ring.ring = some (ri, r))
    (hring : ringStep s.ring (.consumerAcquire .http false) = some ring) :
    SnapshotInv n { s with ring := ring, http := .expose ri } := by
  obtain ⟨hreleased, hhanded, hqueue⟩ := h.ring.consumerAcquire_lists ha hring
  obtain ⟨hproducing, hmem, -, -⟩ := h.ring.consumerAcquire_frame ha hring
  have hwaiting := h.waiting
  rw [hqueue, List.map_cons] at hwaiting
  have htaken : SnapshotState.taken { s with ring := ring, http := .expose ri } = s.taken := by
    simp only [SnapshotState.taken, hpc, hhanded, List.length_append, List.length_singleton,
      Nat.add_sub_cancel]
  refine ⟨h.ring.step hring, fun i hi => hproducing ▸ h.streamHolds i hi, fun i hi => ?_, ?_, ?_,
    fun i hi => ?_, ?_⟩
  · obtain rfl : ri = i := Option.some.inj hi
    exact hmem
  · exact hreleased ▸ h.count
  · dsimp only
    rw [hhanded, List.length_append, List.length_singleton, ← List.tail_drop, ← hwaiting]
    rfl
  · obtain rfl : ri = i := RefresherPc.expose.inj hi
    have hhead : s.exposures[s.ring.handed.length]? = some (s.items ri) := by
      rw [← List.head?_drop, ← hwaiting]
      rfl
    simp only [hhanded, List.length_append, List.length_singleton, Nat.add_sub_cancel]
    exact ⟨List.append_ne_nil_of_right_ne_nil _ (List.cons_ne_nil _ _), hhead⟩
  · rw [htaken]
    exact h.shows

/-- What `_expose_frame` does to the picture that is shown. -/
theorem exposeFrame_bytes (s : SnapshotState) (frame : UsFrame) :
    (exposeFrame s frame).frame.bytes = frame.bytes ∨
      frame.used = 0 ∧ (exposeFrame s frame).frame.bytes = s.frame.bytes := by
  unfold exposeFrame
  split
  · rename_i hsame
    exact .inl (bytes_of_usFrameCompare hsame.2.2.2)
  · split
    · rename_i hempty
      exact .inr ⟨hempty, rfl⟩
    · exact .inl (bytes_usFrameCopy _ _)

theorem exposeFrame_same (s : SnapshotState) (frame : UsFrame) :
    (exposeFrame s frame).ring = s.ring ∧ (exposeFrame s frame).items = s.items ∧
      (exposeFrame s frame).exposures = s.exposures ∧
      (exposeFrame s frame).stream = s.stream := by
  unfold exposeFrame
  split
  · exact ⟨rfl, rfl, rfl, rfl⟩
  · split <;> exact ⟨rfl, rfl, rfl, rfl⟩

theorem exposeFrame_clients (s : SnapshotState) (frame : UsFrame) :
    (exposeFrame s frame).snapshotRequested = s.snapshotRequested ∧
      (exposeFrame s frame).snapshotClients = s.snapshotClients := by
  unfold exposeFrame
  split
  · exact ⟨rfl, rfl⟩
  · split <;> exact ⟨rfl, rfl⟩

/-- **Showing** the frame that was taken. -/
theorem refresherExpose (h : SnapshotInv n s) {ri : Nat} (hpc : s.http = .expose ri) :
    SnapshotInv n { exposeFrame s (s.items ri) with http := .release ri } := by
  obtain ⟨hring, hitems, hexposures, hstream⟩ := exposeFrame_same s (s.items ri)
  obtain ⟨hne, hhand⟩ := h.inHand ri hpc
  have hpos := List.length_pos_iff.mpr hne
  refine ⟨hring ▸ h.ring, fun i hi => ?_, fun i hi => ?_, ?_, ?_, fun i hi => ?_, ?_⟩
  all_goals simp only [SnapshotState.Shows, SnapshotState.taken, hring, hitems, hexposures,
    hstream] at *
  · exact h.streamHolds i hi
  · obtain rfl : ri = i := Option.some.inj hi
    exact h.httpHolds ri (by rw [hpc]; rfl)
  · exact h.count
  · exact h.waiting
  · contradiction
  · intro i hi frame hframe hused
    rcases exposeFrame_bytes s (s.items ri) with hbytes | ⟨hempty, hbytes⟩
    · exact ⟨s.ring.handed.length - 1, s.items ri, by omega, by omega, hhand, hbytes⟩
    · have htaken : s.taken = s.ring.handed.length - 1 := by
        simp only [SnapshotState.taken, hpc]
      have hlt : i < s.taken := by
        rcases Nat.lt_or_ge i (s.ring.handed.length - 1) with hlt | hge
        · exact hlt.trans_eq htaken.symm
        · obtain rfl : i = s.ring.handed.length - 1 := by omega
          obtain rfl := Option.some.inj (hhand.symm.trans hframe)
          omega
      obtain ⟨j, shown, hij, hj, hshown, hbytes'⟩ := h.shows i hlt frame hframe hused
      exact ⟨j, shown, hij, by omega, hshown, hbytes.trans hbytes'⟩

theorem refresherRelease (h : SnapshotInv n s) {ri : Nat} {ring : RingState SnapThread}
    (hpc : s.http = .release ri)
    (hring : ringStep s.ring (.consumerRelease .http ri) = some ring) :
    SnapshotInv n { s with ring := ring, http := .captured } := by
  obtain ⟨hproducing, hconsumer⟩ := consumerRelease_frame hring
  obtain ⟨hreleased, hhanded⟩ := consumerRelease_lists hring
  refine h.of_sameFrames (h.ring.step hring) ⟨hreleased, hhanded, hconsumer, rfl, rfl, rfl⟩
    (fun i hi => hproducing ▸ h.streamHolds i hi) (fun i hi => ?_) (fun i hi => ?_) ?_
  · exact absurd hi (by simp [RefresherPc.slot])
  · contradiction
  · simp only [SnapshotState.taken, hpc, hhanded]

theorem sendSnapshot_same (client : SnapshotClient) (todo : List SnapshotClient) (online : Bool)
    (now : ℚ) (blank : UsFrame) :
    let s' := sendSnapshot s client todo online now blank
    s'.ring = s.ring ∧ s'.items = s.items ∧ s'.frame = s.frame ∧ s'.exposures = s.exposures ∧
      s'.stream = s.stream ∧ s'.http = .send todo online := by
  simp only [sendSnapshot]
  split <;> exact ⟨rfl, rfl, rfl, rfl, rfl, rfl⟩

/-- **The HTTP thread's steps keep the invariant.** -/
theorem refresherStep (h : SnapshotInv n s) {a : RefresherAct}
    (hst : TinyPilotKvm.refresherStep s a = some s') : SnapshotInv n s' := by
  have hmove (http : RefresherPc) (hnone : s.http.slot = none) (hslot : http.slot = none) :
      SnapshotInv n { s with http := http } :=
    h.of_sameRing rfl rfl rfl rfl (.inr rfl) (.inl ⟨hnone, hslot⟩)
  unfold TinyPilotKvm.refresherStep at hst
  split at hst <;> rename_i hpc
  · exact Option.some.inj hst ▸ hmove _ (by rw [hpc]; rfl) rfl
  · obtain rfl := Option.some.inj hst
    exact h.of_sameRing rfl rfl rfl rfl (.inr rfl) (.inl ⟨by rw [hpc]; rfl, rfl⟩)
  · have hcaptured := hmove .captured (by rw [hpc]; rfl) rfl
    split at hst
    · exact Option.some.inj hst ▸ hcaptured
    · split at hst
      · exact Option.some.inj hst ▸ hcaptured
      · rename_i ri r ha
        obtain ⟨ring, hring, rfl⟩ := Option.map_eq_some_iff.mp hst
        exact h.refresherAcquire hpc ha hring
  · exact Option.some.inj hst ▸ h.refresherExpose hpc
  · obtain ⟨ring, hring, rfl⟩ := Option.map_eq_some_iff.mp hst
    exact h.refresherRelease hpc hring
  · exact Option.some.inj hst ▸ hmove _ (by rw [hpc]; rfl) rfl
  · obtain rfl := Option.some.inj hst
    obtain ⟨hring, hitems, hframe, hexposures, hstream, hhttp⟩ :=
      sendSnapshot_same (s := s) _ _ _ _ _
    exact h.of_sameRing hring hitems hframe hexposures (.inr hstream)
      (.inl ⟨by rw [hpc]; rfl, by rw [hhttp]; rfl⟩)
  · exact Option.some.inj hst ▸ hmove _ (by rw [hpc]; rfl) rfl
  · contradiction

theorem step (h : SnapshotInv n s) {a : SnapshotAct} (hst : snapshotStep s a = some s') :
    SnapshotInv n s' := by
  rcases a with a | a | b | _
  · exact h.exposeStep hst
  · exact h.refresherStep hst
  · obtain rfl := Option.some.inj hst
    exact h.of_sameRing rfl rfl rfl rfl (.inr rfl) (.inr rfl)
  · obtain rfl := Option.some.inj hst
    exact h.of_sameRing rfl rfl rfl rfl (.inr rfl) (.inr rfl)

theorem of_reach {hn : 0 < n} {ok : SnapshotState → SnapshotAct → Prop}
    (hr : (snapshotSystem n hn).ReachVia ok s) : SnapshotInv n s := by
  refine hr.inv ?_ fun s s' a h _ hst => h.step hst
  rintro s ⟨ring, blank, dropSameFrames, errorDelay, hring, rfl⟩
  exact init hn hring blank dropSameFrames errorDelay

end SnapshotInv

end TinyPilotKvm
