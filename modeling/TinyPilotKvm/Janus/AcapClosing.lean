/-
# Closing the sound card

`us_acap_destroy` tells the two threads of the card to stop and waits for both.  A thread that is
told to stop never waits for the other: a full ring and an empty one turn it away at once or after
a tenth of a second.  So it leaves within a few steps (`UsAcap.rank_pcmStep`,
`UsAcap.rank_encStep`), and it is never stuck before (`Inv.pcmStep_isSome`, `Inv.encStep_isSome`).
-/
import TinyPilotKvm.Draining
import TinyPilotKvm.Janus.AcapPackets

namespace TinyPilotKvm

/-! ## 1. What the threads can still do -/

/-- The steps that the PCM thread can still make once it is told to stop. -/
def PcmPc.rank : PcmPc → Nat
  | .exited => 0
  | .leave => 1
  | .top => 2
  | .release _ => 3
  | .copy _ _ => 4
  | .acquire _ => 5
  | .read => 6

/-- The same for the encoder's thread. -/
def EncPc.rank : EncPc → Nat
  | .exited => 0
  | .leave => 1
  | .top => 2
  | .skip _ | .releaseOut _ => 3
  | .write _ _ _ => 4
  | .releaseIn _ _ _ _ => 5
  | .encode _ _ => 6
  | .acquireOut _ => 7
  | .acquire => 8

namespace UsAcap

variable {a a' : UsAcap} {plugin : GetPc} {sent : List Rfc3550.Content}

/-- **The PCM thread** that is told to stop leaves within six steps. -/
theorem rank_pcmStep (hstop : a.stop = true) {read : Option (List UInt8)}
    (hs : a.pcmStep read = some a') :
    a'.pcm.rank < a.pcm.rank ∧ a'.enc = a.enc ∧ a'.stop = true := by
  unfold pcmStep at hs
  split at hs
  all_goals rename_i hpc
  all_goals grind [PcmPc.rank, Option.map_eq_some_iff]

theorem writeEncoded_frame (ro : Nat) (chunk : List UInt8) (packet : Option (List UInt8)) :
    (a.writeEncoded ro chunk packet).enc = .releaseOut ro ∧
      (a.writeEncoded ro chunk packet).pcm = a.pcm ∧
      (a.writeEncoded ro chunk packet).stop = a.stop := by
  cases packet <;> simp only [writeEncoded, and_self]

/-- **The encoder's thread** leaves within eight. -/
theorem rank_encStep (hstop : a.stop = true) {timedOut : Bool} {opus : Option (List UInt8)}
    (hs : a.encStep timedOut opus = some a') :
    a'.enc.rank < a.enc.rank ∧ a'.pcm = a.pcm ∧ a'.stop = true := by
  unfold encStep at hs
  split at hs
  all_goals rename_i hpc
  all_goals grind [EncPc.rank, writeEncoded_frame, Option.map_eq_some_iff]

/-- The PCM thread is never stuck. -/
theorem Inv.pcmStep_isSome (h : a.Inv plugin sent) (hpc : a.pcm ≠ .exited)
    (read : Option (List UInt8)) : (a.pcmStep read).isSome := by
  unfold UsAcap.pcmStep
  split
  case h_2 => split <;> rfl
  case h_3 => split <;> rfl
  case h_5 ri hrelease =>
    obtain ⟨ring, hring, -⟩ := h.pcmRing.producerRelease (h.pcmHolds ri (by rw [hrelease]; rfl))
    rw [hring]
    rfl
  case h_7 hexited => exact absurd hexited hpc
  all_goals rfl

/-- The encoder's thread is never stuck, whatever the encoder answers. -/
theorem Inv.encStep_isSome (h : a.Inv plugin sent) (hpc : a.enc ≠ .exited) (timedOut : Bool)
    (opus : Option (List UInt8)) (hopus : opusAnswers opus = true) :
    (a.encStep timedOut opus).isSome := by
  unfold UsAcap.encStep
  split
  case h_2 =>
    split
    · rfl
    · split <;> rfl
  case h_3 => split <;> rfl
  case h_4 ri hskip =>
    obtain ⟨ring, hring, -⟩ := h.pcmRing.consumerRelease (h.encHoldsIn ri (by rw [hskip]; rfl))
    rw [hring]
    rfl
  case h_5 =>
    rw [if_pos hopus]
    rfl
  case h_6 ri ro chunk packet hrelease =>
    obtain ⟨ring, hring, -⟩ := h.pcmRing.consumerRelease (h.encHoldsIn ri (by rw [hrelease]; rfl))
    rw [hring]
    rfl
  case h_8 ro hrelease =>
    obtain ⟨ring, hring, -⟩ := h.encRing.producerRelease (h.encHoldsOut ro (by rw [hrelease]; rfl))
    rw [hring]
    rfl
  case h_10 hexited => exact absurd hexited hpc
  all_goals rfl

end UsAcap

/-! ## 2. The joins -/

/-- A step of one of the two threads of the card. -/
def AcapAct.ofCard : AcapAct → Bool
  | .pcm _ | .enc _ _ => true
  | _ => false

/-- At the joins the threads have been told to stop. -/
def JoinsStopped (s : AcapState) : Prop :=
  s.plugin = .join → ∃ a, s.acap = some a ∧ a.stop = true

theorem JoinsStopped.step {s s' : AcapState} {act : AcapAct} (h : JoinsStopped s)
    (hs : acapStep s act = some s') : JoinsStopped s' := by
  intro hjoin
  cases act with
  | «open» =>
    dsimp only [acapStep] at hs
    split at hs
    · obtain ⟨a, -, rfl⟩ := Option.map_eq_some_iff.mp hs
      exact absurd hjoin (by simp)
    · exact absurd hs (by simp)
  | pcm read =>
    obtain ⟨a, ha, hs⟩ := Option.bind_eq_some_iff.mp hs
    obtain ⟨a', hstep, rfl⟩ := Option.map_eq_some_iff.mp hs
    obtain ⟨a'', ha'', hstop⟩ := h hjoin
    obtain rfl := Option.some.inj (ha.symm.trans ha'')
    exact ⟨a', rfl, (UsAcap.rank_pcmStep hstop hstep).2.2⟩
  | enc timedOut opus =>
    obtain ⟨a, ha, hs⟩ := Option.bind_eq_some_iff.mp hs
    obtain ⟨a', hstep, rfl⟩ := Option.map_eq_some_iff.mp hs
    obtain ⟨a'', ha'', hstop⟩ := h hjoin
    obtain rfl := Option.some.inj (ha.symm.trans ha'')
    exact ⟨a', rfl, (UsAcap.rank_encStep hstop hstep).2.2⟩
  | get go timedOut =>
    obtain ⟨a, ha, hs⟩ := Option.bind_eq_some_iff.mp hs
    unfold acapGetStep at hs
    split at hs
    case h_6 ri got hpc =>
      obtain ⟨ring, -, rfl⟩ := Option.map_eq_some_iff.mp hs
      cases got <;> exact absurd hjoin (by simp)
    case h_8 hpc =>
      obtain rfl := Option.some.inj hs
      exact ⟨_, rfl, rfl⟩
    all_goals grind

/-- With an open card that is told to stop. -/
def AcapState.Stopping (s : AcapState) : Prop :=
  s.plugin = .join ∧ ∃ a, s.acap = some a ∧ a.stop = true

/-- What the two threads of the card can still do. -/
def AcapState.rank (s : AcapState) : Nat := s.acap.elim 0 fun a => a.pcm.rank + a.enc.rank

/-- **The threads of the card wind down.** -/
theorem acap_draining (ssrc : UInt32) : (acapSystem ssrc).Draining AcapState.Stopping
    (fun act => act.ofCard = true) AcapAct.ofCard 0 AcapState.rank where
  step := by
    rintro s s' act ⟨hjoin, a, ha, hstop⟩ hcard hs
    cases act with
    | «open» => exact absurd hcard (by simp [AcapAct.ofCard])
    | get go timedOut => exact absurd hcard (by simp [AcapAct.ofCard])
    | pcm read =>
      obtain ⟨a₀, ha₀, hs⟩ := Option.bind_eq_some_iff.mp hs
      obtain ⟨a', hstep, rfl⟩ := Option.map_eq_some_iff.mp hs
      obtain rfl := Option.some.inj (ha₀.symm.trans ha)
      obtain ⟨hrank, henc, hstop'⟩ := UsAcap.rank_pcmStep hstop hstep
      refine ⟨⟨hjoin, a', rfl, hstop'⟩, ?_⟩
      simp only [AcapState.rank, ha, Option.elim_some, AcapAct.ofCard, Bool.toNat_true, henc]
      omega
    | enc timedOut opus =>
      obtain ⟨a₀, ha₀, hs⟩ := Option.bind_eq_some_iff.mp hs
      obtain ⟨a', hstep, rfl⟩ := Option.map_eq_some_iff.mp hs
      obtain rfl := Option.some.inj (ha₀.symm.trans ha)
      obtain ⟨hrank, hpcm, hstop'⟩ := UsAcap.rank_encStep hstop hstep
      refine ⟨⟨hjoin, a', rfl, hstop'⟩, ?_⟩
      simp only [AcapState.rank, ha, Option.elim_some, AcapAct.ofCard, Bool.toNat_true, hpcm]
      omega

/-- When neither of them can make a step, both have left. -/
theorem exited_of_settled {ssrc : UInt32} {s : AcapState} {a : UsAcap}
    {sent : List Rfc3550.Content} (ha : s.acap = some a) (hcard : a.Inv s.plugin sent)
    (hsettled : (acapSystem ssrc).Settled AcapAct.ofCard s) :
    a.pcm = .exited ∧ a.enc = .exited := by
  constructor
  · by_contra hpcm
    obtain ⟨a', hstep⟩ := Option.isSome_iff_exists.mp (hcard.pcmStep_isSome hpcm none)
    have hnone := hsettled (.pcm none) rfl
    simp [acapSystem, acapStep, ha, hstep] at hnone
  · by_contra henc
    obtain ⟨a', hstep⟩ :=
      Option.isSome_iff_exists.mp (hcard.encStep_isSome henc true none rfl)
    have hnone := hsettled (.enc true none) rfl
    simp [acapSystem, acapStep, ha, hstep] at hnone

/-- **`us_acap_destroy` returns.**  From the moment it waits for the threads of the card, these make
at most 14 steps together, whatever the card, the encoder and the clocks do, and once neither of
them can make a step, the joins succeed. -/
theorem acap_destroy_returns {ssrc : UInt32} {s s' : AcapState} (hr : (acapSystem ssrc).Reach s)
    (hjoin : s.plugin = .join) {acts : List AcapAct} (hacts : ∀ act ∈ acts, act.ofCard = true)
    (hexec : (acapSystem ssrc).exec s acts = some s') :
    acts.length ≤ 14 ∧
      ((acapSystem ssrc).Settled AcapAct.ofCard s' → ∀ go timedOut,
        acapStep s' (.get go timedOut) = some { s' with acap := none, plugin := .idle }) := by
  have hstops : JoinsStopped s := by
    refine System.ReachVia.inv (I := JoinsStopped) ?_ (fun s s' act hI _ hst => hI.step hst) hr
    rintro s rfl hjoin
    exact absurd hjoin (by simp)
  obtain ⟨⟨hjoin', a', ha', -⟩, hlength⟩ :=
    (acap_draining ssrc).exec ⟨hjoin, hstops hjoin⟩ hacts hexec
  refine ⟨?_, fun hsettled go timedOut => ?_⟩
  · obtain ⟨a, ha, -⟩ := hstops hjoin
    have hpcm : a.pcm.rank ≤ 6 := by cases a.pcm <;> simp [PcmPc.rank]
    have henc : a.enc.rank ≤ 8 := by cases a.enc <;> simp [EncPc.rank]
    rw [List.countP_eq_length.mpr hacts, AcapState.rank, AcapState.rank, ha] at hlength
    simp only [Option.elim_some] at hlength
    omega
  · obtain ⟨contents, hI⟩ := AcapInv.of_reach (hr.exec _ hexec)
    obtain ⟨hpcm, henc⟩ := exited_of_settled ha' (hI.card a' ha') hsettled
    simp only [acapStep, ha', Option.bind_some, acapGetStep, hjoin', hpcm, henc, and_self,
      if_true]

/-- Closed at once; the encoder is in its wait and the PCM thread has a chunk. -/
theorem acap_destroy_returns_open : ∃ s s' : AcapState, s.plugin = .join ∧ s'.acap.isSome ∧
    acapStep s' (.get false false) = some { s' with acap := none, plugin := .idle } := by
  have hrun : ((acapSystem 5).exec
      { acap := none, plugin := .idle, rtpa := usRtpaInit 5, sentBefore := 0, fault := false }
      [.open, .enc false none, .pcm (some [1]), .pcm (some [1]), .get false false,
        .get false false]).any (fun s => decide (s.plugin = .join) &&
          ((acapSystem 5).exec s
            (List.replicate 5 (.pcm (some [1])) ++ List.replicate 3 (.enc true none))).any fun s' =>
          s'.acap.any fun a => decide (a.pcm = .exited ∧ a.enc = .exited)) = true := by
    decide +kernel
  obtain ⟨s, hexec, hs⟩ := (Option.any_eq_true _ _).mp hrun
  obtain ⟨hjoin, hs⟩ := Bool.and_eq_true_iff.mp hs
  obtain ⟨s', hexec', hs⟩ := (Option.any_eq_true _ _).mp hs
  obtain ⟨a, ha, hs⟩ := (Option.any_eq_true _ _).mp hs
  obtain ⟨hpcm, henc⟩ := of_decide_eq_true hs
  have hr : (acapSystem 5).Reach s := System.Reach.exec _ (.start rfl) hexec
  obtain ⟨-, hreturns⟩ := acap_destroy_returns hr (of_decide_eq_true hjoin) (by decide) hexec'
  refine ⟨s, s', of_decide_eq_true hjoin, Option.isSome_iff_exists.mpr ⟨a, ha⟩,
    hreturns ?_ false false⟩
  rintro (_ | read | ⟨timedOut, opus⟩ | ⟨go, timedOut⟩) hcard
  · exact absurd hcard (by decide)
  · simp [acapSystem, acapStep, ha, UsAcap.pcmStep, hpcm]
  · simp [acapSystem, acapStep, ha, UsAcap.encStep, henc]
  · exact absurd hcard (by simp [AcapAct.ofCard])

end TinyPilotKvm
