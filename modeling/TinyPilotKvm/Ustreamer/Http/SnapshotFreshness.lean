/-
# The freshness of snapshots

What is shown when a request is answered is at least as new as the pictures that are out of the
ring, so an answer in time is fresh (`AllFresh.step`).  `OnSchedule` is a way of meeting the
condition that looks at the threads alone: then whoever waits is counted until a picture has been
exposed since it came (`ScheduleInv.waits`), and at a zero nothing is left in the ring.
-/
import TinyPilotKvm.Ustreamer.Http.SnapshotFrames

namespace TinyPilotKvm

variable {n : Nat} {s s' : SnapshotState}

/-! ## 1. Fresh answers -/

/-- The answers that were given because of the counter, with the capture online, are fresh. -/
def AllFresh (s : SnapshotState) : Prop :=
  ∀ ans ∈ s.answers, ans.fresh = true → ans.online = true → ans.Fresh s.exposures

/-- Steps other than an answer add no answer, and no step takes an exposure back. -/
theorem answers_exposeStep {a : ExposeAct} (hst : exposeStep s a = some s') :
    s'.answers = s.answers ∧ s.exposures <+: s'.exposures := by
  unfold exposeStep at hst
  split at hst <;> try contradiction
  · obtain rfl := Option.some.inj hst
    exact ⟨rfl, List.prefix_rfl⟩
  · split at hst
    · obtain rfl := Option.some.inj hst
      exact ⟨rfl, List.prefix_rfl⟩
    · split at hst
      · obtain rfl := Option.some.inj hst
        exact ⟨rfl, List.prefix_rfl⟩
      · obtain ⟨ring, -, rfl⟩ := Option.map_eq_some_iff.mp hst
        exact ⟨rfl, List.prefix_rfl⟩
  · split at hst
    · obtain rfl := Option.some.inj hst
      exact ⟨rfl, List.prefix_rfl⟩
    · contradiction
  · obtain rfl := Option.some.inj hst
    exact ⟨rfl, List.prefix_rfl⟩
  · obtain ⟨ring, -, rfl⟩ := Option.map_eq_some_iff.mp hst
    exact ⟨rfl, List.prefix_append _ _⟩
  · obtain rfl := Option.some.inj hst
    exact ⟨rfl, List.prefix_rfl⟩
  · obtain rfl := Option.some.inj hst
    exact ⟨rfl, List.prefix_rfl⟩

theorem AllFresh.mono (h : AllFresh s) (hanswers : s'.answers = s.answers)
    (hexposures : s.exposures <+: s'.exposures) : AllFresh s' := by
  obtain ⟨more, hmore⟩ := hexposures
  intro ans hans hfresh honline
  rw [hanswers] at hans
  exact hmore ▸ (h ans hans hfresh honline).mono

/-- **An answer in time is fresh**: what is shown is not older than the picture that was taken. -/
theorem fresh_of_tookSince (h : SnapshotInv n s) {client : SnapshotClient}
    (htook : s.TookSince client.arrival) :
    SnapshotAnswer.Fresh ⟨client, s.frame, true, true⟩ s.exposures := by
  obtain ⟨i, frame, harrival, hi, hframe, hused⟩ := htook
  obtain ⟨j, shown, hij, -, hshown, hbytes⟩ := h.shows i hi frame hframe hused
  exact ⟨j, shown, harrival.trans hij, hshown, hbytes⟩

theorem answers_refresherStep {a : RefresherAct} (hnot : ∀ now blank, a ≠ .answer now blank)
    (hst : refresherStep s a = some s') :
    s'.answers = s.answers ∧ s'.exposures = s.exposures := by
  unfold refresherStep at hst
  split at hst
  · obtain rfl := Option.some.inj hst
    exact ⟨rfl, rfl⟩
  · obtain rfl := Option.some.inj hst
    exact ⟨rfl, rfl⟩
  · split at hst
    · obtain rfl := Option.some.inj hst
      exact ⟨rfl, rfl⟩
    · split at hst
      · obtain rfl := Option.some.inj hst
        exact ⟨rfl, rfl⟩
      · obtain ⟨ring, -, rfl⟩ := Option.map_eq_some_iff.mp hst
        exact ⟨rfl, rfl⟩
  · obtain rfl := Option.some.inj hst
    obtain ⟨-, -, hexposures, -⟩ := SnapshotInv.exposeFrame_same s (s.items _)
    refine ⟨?_, hexposures⟩
    simp only [exposeFrame]
    split
    · rfl
    · split <;> rfl
  · obtain ⟨ring, -, rfl⟩ := Option.map_eq_some_iff.mp hst
    exact ⟨rfl, rfl⟩
  · obtain rfl := Option.some.inj hst
    exact ⟨rfl, rfl⟩
  · exact absurd rfl (hnot _ _)
  · obtain rfl := Option.some.inj hst
    exact ⟨rfl, rfl⟩
  · contradiction

/-- What an answer adds. -/
theorem AllFresh.answer (h : AllFresh s) (hinv : SnapshotInv n s) {now : ℚ} {blank : UsFrame}
    (hok : AnswersInTime s (.http (.answer now blank)))
    (hst : refresherStep s (.answer now blank) = some s') : AllFresh s' := by
  unfold refresherStep at hst
  split at hst <;> try contradiction
  rename_i client todo online now blank hpc heq
  obtain ⟨rfl, rfl⟩ := RefresherAct.answer.inj heq
  obtain rfl := Option.some.inj hst
  intro ans hans hfresh honline
  simp only [sendSnapshot] at hans ⊢
  split at hans
  · rename_i hanswered
    rw [if_pos hanswered]
    rcases List.mem_append.mp hans with hans | hans
    · exact h ans hans hfresh honline
    · obtain rfl := List.mem_singleton.mp hans
      obtain rfl : online = true := honline
      have hzero : s.snapshotRequested = 0 := of_decide_eq_true hfresh
      simp only [AnswersInTime, hpc] at hok
      simp only [hzero, decide_true, if_true]
      exact fresh_of_tookSince hinv (hok hzero)
  · rename_i hwaits
    rw [if_neg hwaits]
    exact h ans hans hfresh honline

/-- **Every step that meets the condition keeps the answers fresh.** -/
theorem AllFresh.step (h : AllFresh s) (hinv : SnapshotInv n s) {a : SnapshotAct}
    (hok : AnswersInTime s a) (hst : snapshotStep s a = some s') : AllFresh s' := by
  rcases a with a | a | b | _
  · obtain ⟨hanswers, hexposures⟩ := answers_exposeStep hst
    exact h.mono hanswers hexposures
  · by_cases hanswer : ∃ now blank, a = .answer now blank
    · obtain ⟨now, blank, rfl⟩ := hanswer
      exact h.answer hinv hok hst
    · have hnot : ∀ now blank, a ≠ .answer now blank :=
        fun now blank ha => hanswer ⟨now, blank, ha⟩
      obtain ⟨hanswers, hexposures⟩ := answers_refresherStep hnot hst
      exact h.mono hanswers (hexposures ▸ List.prefix_rfl)
  · obtain rfl := Option.some.inj hst
    exact h
  · obtain rfl := Option.some.inj hst
    exact h

/-! ## 2. A schedule that meets the condition -/

namespace SnapshotState

/-- The JPEG thread has exposed a frame and not counted it yet. -/
def Counting (s : SnapshotState) : Prop := s.stream = .load ∨ s.stream = .sub

/-- A picture has been exposed since `arrival`. -/
def ExposedSince (s : SnapshotState) (arrival : Nat) : Prop :=
  ∃ i frame, arrival ≤ i ∧ s.exposures[i]? = some frame ∧ 0 < frame.used

/-- What is about to be counted is a picture. -/
def CountsPicture (s : SnapshotState) : Prop :=
  match s.stream with
  | .acquire frame true | .copy _ frame true => 0 < frame.used
  | .release ri true => 0 < (s.items ri).used
  | _ => True

end SnapshotState

/-- No request comes between an exposure and the decrement for it, the JPEG thread exposes no empty
frame and does not give up, and the refresher answers when the ring is empty. -/
def onSchedule (s : SnapshotState) (a : SnapshotAct) : Bool :=
  match a, s.stream with
  | .http (.request _), .load | .http (.request _), .sub => false
  | .stream (.start frame counted), _ => !counted || decide (0 < frame.used)
  | .stream .giveUp, .acquire _ counted => !counted
  | .http (.answer _ _), _ => decide (s.ring.ring.consumer.toList = [])
  | _, _ => true

abbrev OnSchedule (s : SnapshotState) (a : SnapshotAct) : Prop := onSchedule s a = true

theorem not_counting_of_onSchedule {s : SnapshotState} {now : ℚ}
    (h : OnSchedule s (.http (.request now))) : ¬ s.Counting := by
  rintro (hpc | hpc)
  · simp [OnSchedule, onSchedule, hpc] at h
  · simp [OnSchedule, onSchedule, hpc] at h

/-- This client has been counted and not been answered. -/
def SnapshotState.Waits (s : SnapshotState) (client : SnapshotClient) : Prop :=
  client ∈ s.snapshotClients ∨ ∃ todo online, s.http = .send todo online ∧ client ∈ todo

/-- Whoever has seen no picture exposed since it came is still counted. -/
structure ScheduleInv (s : SnapshotState) : Prop where
  waits : ∀ client, s.Waits client → client.arrival ≤ s.exposures.length ∧
    (s.ExposedSince client.arrival ∨ 1 ≤ s.snapshotRequested ∧ ¬ s.Counting)
  requesting : ∀ client, s.http = .request client → client.arrival ≤ s.exposures.length ∧
    (s.ExposedSince client.arrival ∨ ¬ s.Counting)
  counts : s.CountsPicture

namespace ScheduleInv

/-- A step of the HTTP thread that answers or does not, and adds nobody. -/
theorem of_http (h : ScheduleInv s) (hstream : s'.stream = s.stream) (hitems : s'.items = s.items)
    (hexposures : s'.exposures = s.exposures)
    (hrequested : s'.snapshotRequested = s.snapshotRequested)
    (hwaits : ∀ client, s'.Waits client → s.Waits client)
    (hrequest : ∀ client, s'.http ≠ .request client) : ScheduleInv s' := by
  refine ⟨fun client hclient => ?_, fun client hclient => absurd hclient (hrequest client), ?_⟩
  · unfold SnapshotState.ExposedSince SnapshotState.Counting
    rw [hstream, hexposures, hrequested]
    exact h.waits client (hwaits client hclient)
  · unfold SnapshotState.CountsPicture
    rw [hstream, hitems]
    exact h.counts

/-- A step of the stream's thread. -/
theorem of_stream (h : ScheduleInv s) (hhttp : s'.http = s.http)
    (hclients : s'.snapshotClients = s.snapshotClients) (hexposures : s.exposures <+: s'.exposures)
    (hstep : ∀ arrival, arrival ≤ s.exposures.length → ¬ s.Counting → s'.ExposedSince arrival ∨
      s.snapshotRequested ≤ s'.snapshotRequested ∧ ¬ s'.Counting)
    (hcounts : s'.CountsPicture) : ScheduleInv s' := by
  obtain ⟨more, hmore⟩ := hexposures
  have hlen : s.exposures.length ≤ s'.exposures.length := by
    rw [← hmore, List.length_append]
    exact Nat.le_add_right _ _
  have hkept {arrival : Nat} (hseen : s.ExposedSince arrival) : s'.ExposedSince arrival := by
    obtain ⟨i, frame, harrival, hi, hused⟩ := hseen
    have hlt := (List.getElem?_eq_some_iff.mp hi).1
    exact ⟨i, frame, harrival, hmore ▸ (List.getElem?_append_left hlt).trans hi, hused⟩
  refine ⟨fun client hclient => ?_, fun client hclient => ?_, hcounts⟩
  · have hwaits : s.Waits client := by
      unfold SnapshotState.Waits at hclient ⊢
      rwa [hhttp, hclients] at hclient
    obtain ⟨hle, hseen | ⟨hone, hnot⟩⟩ := h.waits client hwaits
    · exact ⟨hle.trans hlen, .inl (hkept hseen)⟩
    · refine ⟨hle.trans hlen, (hstep _ hle hnot).imp_right fun ⟨hle, hnot⟩ => ⟨?_, hnot⟩⟩
      exact hone.trans hle
  · obtain ⟨hle, hseen | hnot⟩ := h.requesting client (hhttp ▸ hclient)
    · exact ⟨hle.trans hlen, .inl (hkept hseen)⟩
    · exact ⟨hle.trans hlen, (hstep _ hle hnot).imp_right And.right⟩

/-- A thread that is at none of these two places has nothing to count. -/
theorem not_counting (hload : s.stream ≠ .load) (hsub : s.stream ≠ .sub) : ¬ s.Counting := by
  rintro (h | h)
  · exact hload h
  · exact hsub h

theorem exposeStep (h : ScheduleInv s) {a : ExposeAct} (hok : OnSchedule s (.stream a))
    (hst : TinyPilotKvm.exposeStep s a = some s') : ScheduleInv s' := by
  have hcounts := h.counts
  unfold TinyPilotKvm.exposeStep at hst
  unfold SnapshotState.CountsPicture at hcounts
  split at hst
  · rename_i frame counted hpc
    obtain rfl := Option.some.inj hst
    refine h.of_stream rfl rfl List.prefix_rfl (fun _ _ _ => .inr ⟨le_refl _,
      not_counting ExposePc.noConfusion ExposePc.noConfusion⟩) ?_
    cases counted
    · trivial
    · have hused : 0 < frame.used := of_decide_eq_true hok
      exact hused
  · rename_i frame counted timedOut hpc
    rw [hpc] at hcounts
    split at hst
    · exact Option.some.inj hst ▸ h
    · split at hst
      · exact Option.some.inj hst ▸ h
      · obtain ⟨ring, -, rfl⟩ := Option.map_eq_some_iff.mp hst
        refine h.of_stream rfl rfl List.prefix_rfl (fun _ _ _ => .inr ⟨le_refl _,
          not_counting ExposePc.noConfusion ExposePc.noConfusion⟩) ?_
        cases counted
        · trivial
        · exact hcounts
  · rename_i frame counted hpc
    split at hst
    · obtain rfl := Option.some.inj hst
      cases counted
      · exact h.of_stream rfl rfl List.prefix_rfl (fun _ _ _ => .inr ⟨le_refl _,
          not_counting ExposePc.noConfusion ExposePc.noConfusion⟩) trivial
      · simp [OnSchedule, onSchedule, hpc] at hok
    · contradiction
  · rename_i ri frame counted hpc
    rw [hpc] at hcounts
    obtain rfl := Option.some.inj hst
    refine h.of_stream rfl rfl List.prefix_rfl (fun _ _ _ => .inr ⟨le_refl _,
      not_counting ExposePc.noConfusion ExposePc.noConfusion⟩) ?_
    cases counted
    · trivial
    · simp only [SnapshotState.CountsPicture, Function.update_self, used_usFrameCopy]
      exact hcounts
  · rename_i ri counted hpc
    rw [hpc] at hcounts
    obtain ⟨ring, -, rfl⟩ := Option.map_eq_some_iff.mp hst
    cases counted
    · exact h.of_stream rfl rfl (List.prefix_append _ _) (fun _ _ _ => .inr ⟨le_refl _,
        not_counting ExposePc.noConfusion ExposePc.noConfusion⟩) trivial
    · refine h.of_stream rfl rfl (List.prefix_append _ _) (fun arrival hle _ => .inl ?_) trivial
      exact ⟨s.exposures.length, s.items ri, hle, List.getElem?_concat_length, hcounts⟩
  · rename_i hpc
    obtain rfl := Option.some.inj hst
    refine h.of_stream rfl rfl List.prefix_rfl (fun _ _ hnot => absurd (.inl hpc) hnot) ?_
    by_cases hpos : 0 < s.snapshotRequested
    · simp only [SnapshotState.CountsPicture, if_pos hpos]
    · simp only [SnapshotState.CountsPicture, if_neg hpos]
  · rename_i hpc
    obtain rfl := Option.some.inj hst
    exact h.of_stream rfl rfl List.prefix_rfl (fun _ _ hnot => absurd (.inr hpc) hnot) trivial
  · contradiction

/-- Without a loop over the clients those that wait are in the list. -/
theorem waits_of_http {client : SnapshotClient} (hclients : s'.snapshotClients = s.snapshotClients)
    (hsend : ∀ todo online, s'.http ≠ .send todo online) (hclient : s'.Waits client) :
    s.Waits client := by
  rcases hclient with hmem | ⟨todo, online, hhttp, -⟩
  · exact .inl (hclients ▸ hmem)
  · exact absurd hhttp (hsend todo online)

theorem sendSnapshot_requested (client : SnapshotClient) (todo : List SnapshotClient)
    (online : Bool) (now : ℚ) (blank : UsFrame) :
    (sendSnapshot s client todo online now blank).snapshotRequested = s.snapshotRequested := by
  simp only [sendSnapshot]
  split <;> rfl

/-- Answering adds nobody. -/
theorem waits_of_sendSnapshot {client other : SnapshotClient} {todo : List SnapshotClient}
    {online : Bool} {now : ℚ} {blank : UsFrame} (hpc : s.http = .send (client :: todo) online)
    (hother : (sendSnapshot s client todo online now blank).Waits other) : s.Waits other := by
  obtain ⟨-, -, -, -, -, hhttp⟩ :=
    SnapshotInv.sendSnapshot_same (s := s) client todo online now blank
  rcases hother with hmem | ⟨todo', online', hsend, hmem⟩
  · refine .inl ?_
    simp only [sendSnapshot] at hmem
    split at hmem
    · exact List.mem_of_mem_erase hmem
    · exact hmem
  · obtain ⟨rfl, -⟩ := RefresherPc.send.inj (hhttp.symm.trans hsend)
    exact .inr ⟨client :: todo, online, hpc, List.mem_cons_of_mem _ hmem⟩

theorem refresherStep (h : ScheduleInv s) {a : RefresherAct} (hok : OnSchedule s (.http a))
    (hst : TinyPilotKvm.refresherStep s a = some s') : ScheduleInv s' := by
  unfold TinyPilotKvm.refresherStep at hst
  split at hst
  · rename_i now hpc
    obtain rfl := Option.some.inj hst
    refine ⟨fun client hclient => ?_, fun client hclient => ?_, h.counts⟩
    · have hwaits : s.Waits client := by
        refine waits_of_http ?_ (fun _ _ => ?_) hclient
        · rfl
        · exact RefresherPc.noConfusion
      exact h.waits client hwaits
    · obtain rfl := RefresherPc.request.inj hclient
      exact ⟨le_refl _, .inr (not_counting_of_onSchedule hok)⟩
  · rename_i client hpc
    obtain rfl := Option.some.inj hst
    refine ⟨fun other hother => ?_, fun other hother => RefresherPc.noConfusion hother, h.counts⟩
    rcases hother with hother | ⟨todo, online, hhttp, -⟩
    · rcases List.mem_append.mp hother with hother | hother
      · obtain ⟨hle, hseen⟩ := h.waits other (.inl hother)
        exact ⟨hle, hseen.imp_right fun ⟨_, hnot⟩ => ⟨Nat.succ_le_succ (Nat.zero_le _), hnot⟩⟩
      · obtain rfl := List.mem_singleton.mp hother
        obtain ⟨hle, hseen⟩ := h.requesting other hpc
        exact ⟨hle, hseen.imp_right fun hnot => ⟨Nat.succ_le_succ (Nat.zero_le _), hnot⟩⟩
    · contradiction
  · have hcaptured : ScheduleInv { s with http := .captured } :=
      h.of_http rfl rfl rfl rfl (fun _ => waits_of_http rfl fun _ _ => RefresherPc.noConfusion)
        fun _ => RefresherPc.noConfusion
    split at hst
    · exact Option.some.inj hst ▸ hcaptured
    · split at hst
      · exact Option.some.inj hst ▸ hcaptured
      · obtain ⟨ring, -, rfl⟩ := Option.map_eq_some_iff.mp hst
        exact h.of_http rfl rfl rfl rfl (fun _ => waits_of_http rfl fun _ _ =>
          RefresherPc.noConfusion) fun _ => RefresherPc.noConfusion
  · obtain rfl := Option.some.inj hst
    obtain ⟨-, hitems, hexposures, hstream⟩ := SnapshotInv.exposeFrame_same s (s.items _)
    obtain ⟨hrequested, hclients⟩ := SnapshotInv.exposeFrame_clients s (s.items _)
    exact h.of_http hstream hitems hexposures hrequested (fun _ => waits_of_http hclients
      fun _ _ => RefresherPc.noConfusion) fun _ => RefresherPc.noConfusion
  · obtain ⟨ring, -, rfl⟩ := Option.map_eq_some_iff.mp hst
    exact h.of_http rfl rfl rfl rfl (fun _ => waits_of_http rfl fun _ _ =>
      RefresherPc.noConfusion) fun _ => RefresherPc.noConfusion
  · obtain rfl := Option.some.inj hst
    refine h.of_http rfl rfl rfl rfl (fun client hclient => ?_) fun _ => RefresherPc.noConfusion
    rcases hclient with hmem | ⟨todo, online, hhttp, hmem⟩
    · exact .inl hmem
    · obtain ⟨rfl, -⟩ := RefresherPc.send.inj hhttp
      exact .inl hmem
  · rename_i client todo online now blank hpc
    obtain rfl := Option.some.inj hst
    obtain ⟨-, hitems, -, hexposures, hstream, hhttp⟩ :=
      SnapshotInv.sendSnapshot_same (s := s) client todo online now blank
    refine h.of_http hstream hitems hexposures (sendSnapshot_requested ..)
      (fun _ => waits_of_sendSnapshot hpc) fun _ => ?_
    rw [hhttp]
    exact RefresherPc.noConfusion
  · rename_i online hpc
    obtain rfl := Option.some.inj hst
    exact h.of_http rfl rfl rfl rfl (fun _ => waits_of_http rfl fun _ _ =>
      RefresherPc.noConfusion) fun _ => RefresherPc.noConfusion
  · contradiction

theorem step (h : ScheduleInv s) {a : SnapshotAct} (hok : OnSchedule s a)
    (hst : snapshotStep s a = some s') : ScheduleInv s' := by
  rcases a with a | a | b | _
  · exact h.exposeStep hok hst
  · exact h.refresherStep hok hst
  · obtain rfl := Option.some.inj hst
    exact ⟨h.waits, h.requesting, h.counts⟩
  · obtain rfl := Option.some.inj hst
    exact ⟨h.waits, h.requesting, h.counts⟩

theorem of_reach {hn : 0 < n} (hr : (snapshotSystem n hn).ReachVia OnSchedule s) :
    ScheduleInv s := by
  refine hr.inv ?_ fun s s' a h hok hst => h.step hok hst
  rintro s ⟨ring, blank, dropSameFrames, errorDelay, -, rfl⟩
  refine ⟨fun client hclient => ?_, fun client hclient => RefresherPc.noConfusion hclient, trivial⟩
  rcases hclient with hmem | ⟨todo, online, hhttp, -⟩
  · exact absurd hmem List.not_mem_nil
  · contradiction

/-- **A zero on schedule is in time**: whoever is still there has seen a picture exposed, and the
ring is empty. -/
theorem answersInTime (h : ScheduleInv s) (hinv : SnapshotInv n s) {a : SnapshotAct}
    (hok : OnSchedule s a) : AnswersInTime s a := by
  unfold AnswersInTime
  split
  · rename_i client todo now blank hpc
    intro hzero
    obtain ⟨-, ⟨i, frame, harrival, hi, hused⟩ | ⟨hone, -⟩⟩ :=
      h.waits client (.inr ⟨_, _, hpc, List.mem_cons_self⟩)
    · have hlt := (List.getElem?_eq_some_iff.mp hi).1
      have hempty : s.ring.ring.consumer.toList = [] := of_decide_eq_true hok
      have hwaiting := hinv.waiting
      rw [hempty, List.map_nil] at hwaiting
      have hle := List.drop_eq_nil_iff.mp hwaiting.symm
      have htaken := SnapshotInv.taken_of_slot (s := s) (by rw [hpc]; rfl)
      exact ⟨i, frame, harrival, by omega, hi, hused⟩
    · omega
  · trivial

/-- A run on schedule meets the condition. -/
theorem reachVia {hn : 0 < n} (hr : (snapshotSystem n hn).ReachVia OnSchedule s) :
    (snapshotSystem n hn).ReachVia AnswersInTime s := by
  induction hr with
  | start hs => exact .start hs
  | step hr hok hst ih =>
    exact .step ih ((of_reach hr).answersInTime (SnapshotInv.of_reach hr) hok) hst

end ScheduleInv

/-! ## 3. Snapshots -/

theorem allFresh_of_reach {hn : 0 < n} (hr : (snapshotSystem n hn).ReachVia AnswersInTime s) :
    AllFresh s := by
  refine hr.inv_of (fun _ => SnapshotInv.of_reach) ?_
    fun s s' a hinv h hok hst => h.step hinv hok hst
  rintro s ⟨ring, blank, dropSameFrames, errorDelay, -, rfl⟩ ans hans
  exact absurd hans List.not_mem_nil

/-- **The freshness of snapshots**: in every run that answers in time, the picture of each answer
that was given because of the counter, with the capture online, was exposed after the request came;
and every run on schedule answers in time. -/
theorem snapshots_fresh {n : Nat} (hn : 0 < n) {s : SnapshotState}
    (hr : (snapshotSystem n hn).ReachVia AnswersInTime s ∨
      (snapshotSystem n hn).ReachVia OnSchedule s) :
    ∀ ans ∈ s.answers, ans.fresh = true → ans.online = true → ans.Fresh s.exposures := by
  rcases hr with hr | hr
  · exact allFresh_of_reach hr
  · exact allFresh_of_reach (ScheduleInv.reachVia hr)

/-- A server with a ring of one frame. -/
def oneFrameServer : SnapshotState :=
  snapshotInit ((usRingInit 1 Nat.one_pos).get rfl) (.ofBytes FrameMeta.zero [0]) 0 0

theorem oneFrameServer_start : (snapshotSystem 1 Nat.one_pos).start oneFrameServer :=
  ⟨_, _, _, _, (Option.some_get _).symm, rfl⟩

/-- The JPEG thread exposes a picture. -/
def exposeOne : List SnapshotAct :=
  [.stream (.start (.ofBytes FrameMeta.zero [1]) true), .stream (.acquire false), .stream .copy,
    .stream .release]

/-- The refresher takes it and shows it. -/
def takeOne : List SnapshotAct :=
  [.http (.acquire false), .http .expose, .http .release, .http .captured]

/-- A request, a picture for it, and the answer. -/
theorem snapshots_fresh_one : ∃ s ans, (snapshotSystem 1 Nat.one_pos).ReachVia OnSchedule s ∧
    s.answers = [ans] ∧ ans.fresh = true ∧ ans.online = true ∧ ans.Fresh s.exposures := by
  have hrun : (((snapshotSystem 1 Nat.one_pos).execVia OnSchedule oneFrameServer
      ([SnapshotAct.online true, .http (.request 0), .http .add] ++ exposeOne
        ++ [SnapshotAct.stream .load, .stream .sub] ++ takeOne
        ++ [SnapshotAct.http (.answer 0 (.ofBytes FrameMeta.zero []))])).any fun s =>
          s.answers.length == 1 && s.answers.all fun ans => ans.fresh && ans.online) = true := by
    decide +kernel
  obtain ⟨s, hexec, hs⟩ := (Option.any_eq_true _ _).mp hrun
  have hr := System.ReachVia.execVia _ (.start oneFrameServer_start) hexec
  obtain ⟨hlength, hall⟩ := Bool.and_eq_true_iff.mp hs
  obtain ⟨ans, hanswers⟩ := List.length_eq_one_iff.mp (eq_of_beq hlength)
  have hmem : ans ∈ s.answers := hanswers ▸ List.mem_singleton_self ans
  obtain ⟨hfresh, honline⟩ := Bool.and_eq_true_iff.mp (List.all_eq_true.mp hall ans hmem)
  exact ⟨s, ans, hr, hanswers, hfresh, honline,
    snapshots_fresh Nat.one_pos (.inr hr) ans hmem hfresh honline⟩

/-- **A stale snapshot.**  The request comes when the picture is exposed, shown and not yet counted;
the JPEG thread then counts it for the request. -/
theorem snapshot_of_an_earlier_picture : ∃ s ans, (snapshotSystem 1 Nat.one_pos).Reach s ∧
    ans ∈ s.answers ∧ ans.fresh = true ∧ ans.online = true ∧ ¬ ans.Fresh s.exposures := by
  have hrun : (((snapshotSystem 1 Nat.one_pos).exec oneFrameServer
      ([SnapshotAct.online true] ++ exposeOne ++ takeOne
        ++ [SnapshotAct.http .finish, .http (.request 0), .http .add, .stream .load, .stream .sub,
          .http (.acquire false), .http .captured,
          .http (.answer 0 (.ofBytes FrameMeta.zero []))])).any fun s =>
          s.answers.any fun ans => ans.fresh && ans.online &&
            decide (s.exposures.length ≤ ans.client.arrival)) = true := by decide +kernel
  obtain ⟨s, hexec, hs⟩ := (Option.any_eq_true _ _).mp hrun
  have hr := System.Reach.exec _ (.start oneFrameServer_start) hexec
  obtain ⟨ans, hmem, hans⟩ := List.any_eq_true.mp hs
  obtain ⟨hflags, hlate⟩ := Bool.and_eq_true_iff.mp hans
  obtain ⟨hfresh, honline⟩ := Bool.and_eq_true_iff.mp hflags
  refine ⟨s, ans, hr, hmem, hfresh, honline, ?_⟩
  rintro ⟨i, frame, harrival, hi, -⟩
  have hlt := (List.getElem?_eq_some_iff.mp hi).1
  have hle := of_decide_eq_true hlate
  omega

end TinyPilotKvm
