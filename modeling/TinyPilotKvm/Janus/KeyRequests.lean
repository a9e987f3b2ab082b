/-
# The viewers' requests for a key frame (`_g_key_required` in `janus/src/plugin.c`)

The message handler sets the flag, and the sink thread clears it once it has published a key
frame.  Between the two steps of the sink thread the frame is in the ring, and the RTP thread may
have sent it, so a viewer that asks just then did not get it; but the flag it sets is the one that
the thread is about to clear.  `KeyWindow` is where the thread is then.

A request made anywhere else stays until a key frame is published after it, and one made there is
cleared without one (`key_required_message_kept_iff`).
-/
import TinyPilotKvm.Janus.VideoPath

namespace TinyPilotKvm

/-! ## 1. The window -/

/-- This step publishes a key frame to the ring. -/
def PublishesKey (s : VideoState) (a : VideoAct) : Prop :=
  a = .sink .go ∧ ∃ i got, s.sink = .publish (some i) got ∧ (s.items i).key = true

/-- The sink thread has published a key frame and is going to clear the flag for it. -/
def KeyWindow (s : VideoState) : Prop :=
  s.sink = .clear ∨ ∃ i got, s.sink = .check (some i) got ∧ ¬ got < 0 ∧ (s.items i).key = true

/-- Nowhere else is the thread in the window. -/
theorem not_keyWindow {s : VideoState} (hclear : s.sink ≠ .clear)
    (hcheck : ∀ ri got, s.sink ≠ .check ri got) : ¬ KeyWindow s := by
  rintro (h | ⟨i, got, h, -⟩)
  · exact hclear h
  · exact hcheck _ _ h

/-- The window depends on where the thread is and on the frames alone. -/
theorem keyWindow_congr {s s' : VideoState} (hsink : s'.sink = s.sink)
    (hitems : s'.items = s.items) :
    KeyWindow s' ↔ KeyWindow s := by
  unfold KeyWindow
  rw [hsink, hitems]

/-! ## 2. Outside the window -/

variable {s s' : VideoState}

theorem videoSinkAcquire_key {timedOut : Bool} (hs : videoSinkAcquire s timedOut = some s') :
    s'.keyRequired = s.keyRequired ∧ ¬ KeyWindow s' := by
  have hread (ring : RingState VideoThread) (ri : Option Nat) :
      ¬ KeyWindow { s with ring := ring, sink := .readKey ri } :=
    not_keyWindow VideoSinkPc.noConfusion fun _ _ => VideoSinkPc.noConfusion
  unfold videoSinkAcquire at hs
  split at hs
  · exact Option.some.inj hs ▸ ⟨rfl, hread s.ring none⟩
  · split at hs
    · exact Option.some.inj hs ▸ ⟨rfl, hread s.ring none⟩
    · obtain ⟨ring, -, rfl⟩ := Option.map_eq_some_iff.mp hs
      exact ⟨rfl, hread ring _⟩

theorem videoSinkPublish_key {ri : Option Nat} {got : Int}
    (hnot : ∀ i, ri = some i → (s.items i).key ≠ true) (hs : videoSinkPublish s ri got = some s') :
    s'.keyRequired = s.keyRequired ∧ ¬ KeyWindow s' := by
  rcases ri with _ | i
  · obtain rfl := Option.some.inj hs
    refine ⟨rfl, ?_⟩
    rintro (h | ⟨i, got', h, -⟩) <;> simp at h
  · obtain ⟨ring, -, rfl⟩ := Option.map_eq_some_iff.mp hs
    refine ⟨rfl, ?_⟩
    rintro (h | ⟨j, got', h, -, hkey⟩)
    · simp at h
    · obtain ⟨rfl, -⟩ : i = j ∧ got = got' := by simpa using h
      exact hnot i rfl hkey

theorem videoSinkCheck_key {ri : Option Nat} {got : Int} (hpc : s.sink = .check ri got)
    (hout : ¬ KeyWindow s) :
    videoSinkCheck s ri got = .close ∨ videoSinkCheck s ri got = .inner := by
  unfold videoSinkCheck
  split
  · exact .inl rfl
  · rename_i hgot
    split
    · rename_i hkey
      obtain ⟨i, rfl⟩ := Option.isSome_iff_exists.mp hkey.1
      exact absurd (.inr ⟨i, got, hpc, hgot, hkey.2⟩) hout
    · exact .inr rfl

/-- **Outside the window the sink thread leaves the flag alone**, and it gets there only by
publishing a key frame. -/
theorem videoSinkStep_key {a : VideoSinkAct} (hout : ¬ KeyWindow s)
    (hnot : ¬ PublishesKey s (.sink a)) (hs : videoSinkStep s a = some s') :
    s'.keyRequired = s.keyRequired ∧ ¬ KeyWindow s' := by
  unfold videoSinkStep at hs
  split at hs
  case h_7 => exact videoSinkAcquire_key hs
  case h_9 ri keyRequired unlocked now _ =>
    obtain rfl := Option.some.inj hs
    exact ⟨by cases ri <;> rfl,
      not_keyWindow VideoSinkPc.noConfusion fun _ _ => VideoSinkPc.noConfusion⟩
  case h_10 ri got hpc =>
    exact videoSinkPublish_key (fun i hi hkey => hnot ⟨rfl, i, got, hi ▸ hpc, hkey⟩) hs
  case h_11 ri got hpc =>
    obtain rfl := Option.some.inj hs
    refine ⟨rfl, ?_⟩
    rcases videoSinkCheck_key hpc hout with h | h <;> rw [h]
    · exact not_keyWindow VideoSinkPc.noConfusion fun _ _ => VideoSinkPc.noConfusion
    · exact not_keyWindow VideoSinkPc.noConfusion fun _ _ => VideoSinkPc.noConfusion
  case h_12 hpc => exact absurd (.inl hpc) hout
  case h_14 => contradiction
  all_goals
    obtain rfl := Option.some.inj hs
    refine ⟨rfl, not_keyWindow ?_ fun ri got => ?_⟩ <;>
      (dsimp only [afterWaitTurn]; repeat' split) <;> exact VideoSinkPc.noConfusion

theorem videoRtpWrap_key (i : Nat) (now : UInt64) :
    (videoRtpWrap s i now).keyRequired = s.keyRequired ∧
      (videoRtpWrap s i now).sink = s.sink ∧ (videoRtpWrap s i now).items = s.items := by
  simp only [videoRtpWrap]
  split <;> exact ⟨rfl, rfl, rfl⟩

/-- The RTP thread has nothing to do with the flag. -/
theorem videoRtpStep_key {a : VideoRtpAct} (hs : videoRtpStep s a = some s') :
    s'.keyRequired = s.keyRequired ∧ s'.sink = s.sink ∧ s'.items = s.items := by
  unfold videoRtpStep at hs
  split at hs
  · obtain rfl := Option.some.inj hs
    exact ⟨rfl, rfl, rfl⟩
  · unfold videoRtpAcquire at hs
    split at hs
    · obtain rfl := Option.some.inj hs
      exact ⟨rfl, rfl, rfl⟩
    · split at hs
      · obtain rfl := Option.some.inj hs
        exact ⟨rfl, rfl, rfl⟩
      · obtain ⟨ring, -, rfl⟩ := Option.map_eq_some_iff.mp hs
        exact ⟨rfl, rfl, rfl⟩
  · exact Option.some.inj hs ▸ videoRtpWrap_key _ _
  · obtain ⟨ring, -, rfl⟩ := Option.map_eq_some_iff.mp hs
    exact ⟨rfl, rfl, rfl⟩
  · contradiction

/-- A living process takes the step that its party takes. -/
theorem videoStep_alive {a : VideoAct} (hs : videoStep s a = some s') :
    ¬ (s.ring.aborted ∨ s.fault.isSome) := by
  unfold videoStep at hs
  split at hs
  · contradiction
  · assumption

/-- A request that is not made in the window. -/
structure Asked (s : VideoState) : Prop where
  keyRequired : s.keyRequired = true
  outside : ¬ KeyWindow s

/-- **A step keeps the request**, unless it publishes a key frame. -/
theorem Asked.step (h : Asked s) {a : VideoAct} (hnot : ¬ PublishesKey s a)
    (hs : videoStep s a = some s') : Asked s' := by
  have halive := videoStep_alive hs
  unfold videoStep at hs
  rw [if_neg halive] at hs
  rcases a with a | a | _ | b | _ | mem
  · obtain ⟨hkey, hout⟩ := videoSinkStep_key h.outside hnot hs
    exact ⟨hkey.trans h.keyRequired, hout⟩
  · obtain ⟨hkey, hsink, hitems⟩ := videoRtpStep_key hs
    exact ⟨hkey.trans h.keyRequired, (keyWindow_congr hsink hitems).not.mpr h.outside⟩
  · obtain rfl := Option.some.inj hs
    exact ⟨rfl, h.outside⟩
  · obtain rfl := Option.some.inj hs
    exact ⟨h.keyRequired, h.outside⟩
  · obtain rfl := Option.some.inj hs
    exact ⟨h.keyRequired, h.outside⟩
  · dsimp only at hs
    split at hs
    · contradiction
    · obtain rfl := Option.some.inj hs
      exact ⟨h.keyRequired, h.outside⟩

/-! ## 3. In the window -/

variable {n : Nat} {hn : 0 < n}

/-- **In the window the flag is cleared**, and no frame is published before that. -/
theorem leads_to_cleared (hn : 0 < n) (halive : ¬ (s.ring.aborted ∨ s.fault.isSome))
    (h : KeyWindow s) :
    ∃ t, (videoSystem n hn).Leads (fun s a => ¬ PublishesKey s a) s t ∧ t.keyRequired = false := by
  have hclear {t : VideoState} (halive : ¬ (t.ring.aborted ∨ t.fault.isSome))
      (hpc : t.sink = .clear) : (videoSystem n hn).Leads (fun s a => ¬ PublishesKey s a) t
        { t with keyRequired := false, sink := .inner } := by
    refine .single ⟨.sink .go, ?_, ?_⟩
    · rintro ⟨-, i, got, hpub, -⟩
      rw [hpc] at hpub
      exact VideoSinkPc.noConfusion hpub
    · simp only [videoSystem, videoStep, if_neg halive, videoSinkStep, hpc]
  rcases h with hpc | ⟨i, got, hpc, hgot, hkey⟩
  · exact ⟨_, hclear halive hpc, rfl⟩
  · refine ⟨_, .trans (.single ⟨.sink .go, ?_, ?_⟩)
      (hclear (t := { s with sink := .clear }) halive rfl), rfl⟩
    · rintro ⟨-, j, got', hpub, -⟩
      rw [hpc] at hpub
      exact VideoSinkPc.noConfusion hpub
    · have hcheck : videoSinkCheck s (some i) got = .clear := by
        unfold videoSinkCheck
        rw [if_neg hgot, if_pos ⟨rfl, hkey⟩]
      simp only [videoSystem, videoStep, if_neg halive, videoSinkStep, hpc, hcheck]

/-! ## 4. The messages that are kept -/

/-- **A viewer's `key_required` message.**  In every run from there, the flag that it sets stays
until a key frame is published after it if and only if the sink thread is not between publishing a
key frame and clearing the flag when the message is handled. -/
theorem key_required_message_kept_iff (hmsg : videoStep s .keyRequiredMessage = some s') :
    (∀ t, (videoSystem n hn).Leads (fun s a => ¬ PublishesKey s a) s' t → t.keyRequired = true)
      ↔ ¬ KeyWindow s := by
  have halive := videoStep_alive hmsg
  unfold videoStep at hmsg
  rw [if_neg halive] at hmsg
  obtain rfl := Option.some.inj hmsg
  constructor
  · intro hkept hwindow
    obtain ⟨t, ht, hcleared⟩ := leads_to_cleared (s := { s with keyRequired := true }) hn halive
      hwindow
    exact Bool.false_ne_true (hcleared.symm.trans (hkept t ht))
  · intro hout t ht
    have hasked : Asked { s with keyRequired := true } := ⟨rfl, hout⟩
    exact (ht.inv (I := Asked) (fun s s' a h hnot hs => h.step hnot hs) hasked).keyRequired

/-- A message to a plugin that has no frame yet. -/
theorem key_required_message_kept_iff_start :
    ∃ s', videoStep (pluginOver v4l2PixFmtH264) .keyRequiredMessage = some s' ∧
      ∀ t, (videoSystem 1 Nat.one_pos).Leads (fun s a => ¬ PublishesKey s a) s' t →
        t.keyRequired = true := by
  have hout : ¬ KeyWindow (pluginOver v4l2PixFmtH264) :=
    not_keyWindow VideoSinkPc.noConfusion fun _ _ => VideoSinkPc.noConfusion
  exact ⟨_, rfl, (key_required_message_kept_iff rfl).mpr hout⟩

/-- A plugin over a region with a key frame. -/
def pluginOverKey : VideoState :=
  { pluginOver v4l2PixFmtH264 with mem := { regionOf v4l2PixFmtH264 with key := true } }

/-- **A request that is lost.**  The RTP thread has the key frame already when the message comes,
and the flag is cleared without another one. -/
theorem late_request_is_cleared : ∃ s s' t : VideoState, (videoSystem 1 Nat.one_pos).Reach s ∧
    s.wrapped.length = 1 ∧ videoStep s .keyRequiredMessage = some s' ∧ s'.keyRequired = true ∧
      (videoSystem 1 Nat.one_pos).Leads (fun s a => ¬ PublishesKey s a) s' t ∧
        t.keyRequired = false := by
  have hstart : (videoSystem 1 Nat.one_pos).start pluginOverKey :=
    ⟨_, _, _, (Option.some_get _).symm, rfl⟩
  have hrun : (((videoSystem 1 Nat.one_pos).exec pluginOverKey oneFrame).any fun s =>
      decide (s.wrapped.length = 1 ∧ s.sink = .check (some 0) 0 ∧ (s.items 0).key = true ∧
        ¬ (s.ring.aborted ∨ s.fault.isSome))) = true := by decide +kernel
  obtain ⟨s, hexec, hs⟩ := (Option.any_eq_true _ _).mp hrun
  obtain ⟨hwrapped, hpc, hkey, halive⟩ := of_decide_eq_true hs
  have hmsg : videoStep s .keyRequiredMessage = some { s with keyRequired := true } := by
    simp only [videoStep, if_neg halive]
  obtain ⟨t, ht, hcleared⟩ := leads_to_cleared (s := { s with keyRequired := true })
    Nat.one_pos halive (.inr ⟨0, 0, hpc, by decide, hkey⟩)
  exact ⟨s, _, t, System.Reach.exec _ (.start hstart) hexec, hwrapped, hmsg, rfl, ht, hcleared⟩

end TinyPilotKvm
