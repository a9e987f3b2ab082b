/-
# Is a polling client seen by the server?

The server of a sink produces frames only while `us_memsink_server_check` reports a client.  A
client makes itself known by writing the time of its poll into `last_client_ts`; the server
believes in it for `client_ttl` seconds from then.

`poll_reported_iff` says exactly which polls are reported for their full `client_ttl`.  Those
of the library's client and of the Python client all are.  A poll of the JANUS client is not when it
finds no new frame: `us_memsink_fd_wait_frame` goes back to sleep without writing
`last_client_ts`.  So a server that has paused for want of clients and a Janus client that waits
for a frame can wait for each other; `idle_janus_not_reported` is such a state.

The check makes `flock` calls of its own.  It reports a client when the lock is busy, and reports
none when a call fails in any other way, so the statements are about checks whose
`flock` calls do not fail so (`FlockWorks`).
-/
import Mathlib.Tactic.Linarith
import TinyPilotKvm.Sink.System

namespace TinyPilotKvm

/-! ## 1. Being reported -/

/-- The `flock` calls of a check fail, if at all, with `EWOULDBLOCK`. -/
def FlockWorks (lock : Flock) (unlocked : Bool) : Prop := lock ≠ .failed ∧ unlocked = true

/-- Whatever happens after `s`, each check made before `deadline` reports a client. -/
def ReportedUntil (s : SinkState) (deadline : ℚ) : Prop :=
  ∀ (evs : List SinkEvent) (s' : SinkState), sinkSystem.exec s evs = some s' →
    ∀ (frame : Option UsFrame) (lock : Flock) (unlocked : Bool) (now : ℚ),
      s'.clock ≤ now → now < deadline → FlockWorks lock unlocked →
        (usMemsinkServerCheck s'.server s'.mem frame lock unlocked now).1 = true

/-- A poll of this client that gets the lock on an initialised region writes `last_client_ts`. -/
def Refreshes (client : SinkClient) (mem : UsMemsinkShared) : Prop :=
  match client with
  | .libs _ _ => True
  | .janus frameId _ => mem.id ≠ frameId
  | .python _ => True

/-! ## 2. What one event does to the time stamp -/

/-- Checks and puts keep the server's `client_ttl`. -/
theorem sinkAct_clientTtl (s : SinkState) (now : ℚ) (a : SinkAct) :
    (sinkAct s now a).server.clientTtl = s.server.clientTtl := by
  cases a with
  | serverPut frame lock unlocked id =>
    simp only [sinkAct, usMemsinkServerPut]
    split
    · rfl
    · cases lock <;> rfl
  | serverCheck frame lock unlocked =>
    simp only [sinkAct, usMemsinkServerCheck]
    split
    · rfl
    · split
      · rfl
      · cases lock with
        | wouldBlock => rfl
        | failed => rfl
        | taken =>
          dsimp only
          split
          · rfl
          · split
            · rfl
            · cases frame <;> rfl
  | poll c keyRequired lock unlocked slept => rfl

/-- A client writes `last_client_ts` with the time of its poll, or not at all. -/
theorem poll_lastClientTs (client : SinkClient) (mem : UsMemsinkShared) (keyRequired : Bool)
    (lock : Flock) (unlocked slept : Bool) (now : ℚ) :
    (pollClient client mem keyRequired lock unlocked slept now).2.lastClientTs = now ∨
      (pollClient client mem keyRequired lock unlocked slept now).2.lastClientTs
        = mem.lastClientTs := by
  cases client with
  | libs sink frame =>
    simp only [pollClient, usMemsinkClientGet]
    cases lock with
    | wouldBlock => exact Or.inr rfl
    | failed => exact Or.inr rfl
    | taken =>
      dsimp only
      split
      · exact Or.inr rfl
      · split
        · exact Or.inr rfl
        · split <;> exact Or.inl rfl
  | janus frameId frame =>
    simp only [pollClient]
    split
    · exact Or.inl rfl
    · exact Or.inr rfl
    · exact Or.inr rfl
  | python self =>
    have hturn : (pyWaitFrameTurn self mem lock unlocked slept now).mem.lastClientTs = now ∨
        (pyWaitFrameTurn self mem lock unlocked slept now).mem.lastClientTs
          = mem.lastClientTs := by
      unfold pyWaitFrameTurn
      cases lock with
      | wouldBlock => exact Or.inr rfl
      | failed => exact Or.inr rfl
      | taken =>
        dsimp only
        split
        · exact Or.inr rfl
        · split
          · exact Or.inl rfl
          · split <;> exact Or.inl rfl
    simp only [pollClient]
    split <;> exact hturn

/-- With the lock taken on an initialised region, a refreshing poll writes the time. -/
theorem poll_refreshes {client : SinkClient} {mem : UsMemsinkShared} (keyRequired : Bool)
    (unlocked slept : Bool) (now : ℚ) (hinit : mem.Initialised) (h : Refreshes client mem) :
    (pollClient client mem keyRequired .taken unlocked slept now).2.lastClientTs = now := by
  obtain ⟨hmagic, hversion⟩ := hinit
  cases client with
  | libs sink frame =>
    simp only [pollClient, usMemsinkClientGet, hmagic, hversion, ne_eq, not_true_eq_false,
      if_false]
    split <;> rfl
  | janus frameId frame =>
    have hturn : usMemsinkFdWaitTurn mem frameId .taken unlocked = .found := by
      simp only [usMemsinkFdWaitTurn]
      rw [if_pos ⟨hmagic, hversion, h⟩]
    simp only [pollClient, hturn]
    rfl
  | python self =>
    have hturn : (pyWaitFrameTurn self mem .taken unlocked slept now).mem.lastClientTs = now := by
      simp only [pyWaitFrameTurn, hmagic, hversion, ne_eq, not_true_eq_false, or_self, if_false]
      split
      · rfl
      · split <;> rfl
    simp only [pollClient]
    split <;> exact hturn

/-- A poll that does not refresh leaves the whole region alone. -/
theorem poll_not_refreshes {client : SinkClient} {mem : UsMemsinkShared} (keyRequired : Bool)
    (lock : Flock) (unlocked slept : Bool) (now : ℚ) (h : ¬ Refreshes client mem) :
    (pollClient client mem keyRequired lock unlocked slept now).2 = mem := by
  cases client with
  | libs sink frame => exact absurd trivial h
  | python self => exact absurd trivial h
  | janus frameId frame =>
    have hid : mem.id = frameId := not_not.mp h
    have hturn : usMemsinkFdWaitTurn mem frameId lock unlocked ≠ .found := by
      unfold usMemsinkFdWaitTurn
      cases lock with
      | wouldBlock => simp
      | failed => simp
      | taken => simp only [hid, ne_eq, not_true_eq_false, and_false, if_false]; split <;> simp
    simp only [pollClient]
    split
    · rename_i hf; exact absurd hf hturn
    · rfl
    · rfl

/-! ## 3. A fresh time stamp is reported -/

/-- A client has polled at `t` or later, on an initialised region. -/
structure SeenSince (t : ℚ) (ttl : Nat) (s : SinkState) : Prop where
  initialised : s.mem.Initialised
  seen : t ≤ s.mem.lastClientTs
  clock : t ≤ s.clock
  clientTtl : s.server.clientTtl = ttl

/-- Later events only make the time stamp later. -/
theorem SeenSince.step {t : ℚ} {ttl : Nat} {s s' : SinkState} {e : SinkEvent}
    (h : SeenSince t ttl s) (hs : sinkStep s e = some s') : SeenSince t ttl s' := by
  obtain ⟨hclock, rfl⟩ := sinkStep_eq_some.mp hs
  have hnow : t ≤ e.now := le_trans h.clock hclock
  refine ⟨sinkAct_initialised h.initialised _ _, ?_, hnow,
    (sinkAct_clientTtl _ _ _).trans h.clientTtl⟩
  rw [mem_sinkAfter]
  cases hact : e.act with
  | serverPut frame lock unlocked id =>
    by_cases hst : PutStores s.server frame lock
    · obtain ⟨-, -, -, -, hts, -⟩ := put_stored hst s.mem unlocked id e.now
      exact h.seen.trans_eq hts.symm
    · simp only [sinkAct, put_refused hst]
      exact h.seen
  | serverCheck frame lock unlocked => exact h.seen
  | poll c keyRequired lock unlocked slept =>
    rcases poll_lastClientTs (s.clients c) s.mem keyRequired lock unlocked slept e.now with hp | hp
    · simp only [sinkAct, hp]
      exact hnow
    · simp only [sinkAct, hp]
      exact h.seen

/-- A check within `client_ttl` of a time stamp reports a client. -/
theorem check_reports {sink : UsMemsink} {mem : UsMemsinkShared} {frame : Option UsFrame}
    {lock : Flock} {unlocked : Bool} {now : ℚ} (hnow : now < mem.lastClientTs + sink.clientTtl)
    (hf : FlockWorks lock unlocked) :
    (usMemsinkServerCheck sink mem frame lock unlocked now).1 = true := by
  obtain ⟨hlock, rfl⟩ := hf
  unfold usMemsinkServerCheck
  split
  · rfl
  · split
    · rfl
    · cases lock with
      | wouldBlock => rfl
      | failed => exact absurd rfl hlock
      | taken => simp [hnow]

theorem SeenSince.reported {t : ℚ} {ttl : Nat} {s : SinkState} (h : SeenSince t ttl s) :
    ReportedUntil s (t + ttl) := by
  intro evs s' hexec frame lock unlocked now _ hnow hf
  have h' : SeenSince t ttl s' :=
    System.exec_inv (I := SeenSince t ttl) (fun _ _ _ hI _ hst => hI.step hst) evs h hexec
  refine check_reports ?_ hf
  have := h'.seen
  rw [h'.clientTtl]
  linarith

/-! ## 4. A stale time stamp is not -/

/-- A check of an initialised region takes note of the time stamp. -/
theorem check_notes {sink : UsMemsink} {mem : UsMemsinkShared} {frame : Option UsFrame} {now : ℚ}
    (hinit : mem.Initialised) :
    (usMemsinkServerCheck sink mem frame .taken true now).2.unsafeLastClientTs
      = mem.lastClientTs := by
  unfold usMemsinkServerCheck
  rw [if_neg (not_not.mpr hinit)]
  split
  · rfl
  · rename_i hsame
    simp only [Bool.not_true, Bool.false_eq_true, if_false]
    split
    · exact (not_not.mp hsame).symm
    · cases frame <;> exact (not_not.mp hsame).symm

/-- Once the server has noted a time stamp, a check `client_ttl` after it reports no client. -/
theorem check_reports_none (sink : UsMemsink) (mem : UsMemsinkShared) (now : ℚ)
    (hinit : mem.Initialised) (hnoted : sink.unsafeLastClientTs = mem.lastClientTs)
    (hnow : mem.lastClientTs + sink.clientTtl ≤ now) :
    (usMemsinkServerCheck sink mem none .taken true now).1 = false := by
  unfold usMemsinkServerCheck
  rw [if_neg (not_not.mpr hinit), if_neg (not_not.mpr hnoted.symm)]
  simp [not_lt.mpr hnow]

/-- Two checks are enough to see that a stale client is not reported: the first notes the time
stamp, the second comes after its `client_ttl`. -/
theorem not_reported_of_stale {s : SinkState} {t : ℚ} (hinit : s.mem.Initialised)
    (hclock : s.clock = t) (hstale : s.mem.lastClientTs < t) (httl : s.server.clientTtl ≠ 0) :
    ¬ ReportedUntil s (t + s.server.clientTtl) := by
  intro h
  have hpos : (0 : ℚ) < s.server.clientTtl := by exact_mod_cast Nat.pos_of_ne_zero httl
  have httl' := sinkAct_clientTtl s t (.serverCheck none .taken true)
  have hlast := h [⟨t, .serverCheck none .taken true⟩] _
    (System.exec_cons_eq_some.mpr ⟨_, sinkStep_eq_some.mpr ⟨hclock.le, rfl⟩, rfl⟩)
    none .taken true (max t (s.mem.lastClientTs + s.server.clientTtl)) (le_max_left _ _)
    (max_lt (by linarith) (by linarith)) ⟨by decide, rfl⟩
  have hnone := check_reports_none (sinkAct s t (.serverCheck none .taken true)).server s.mem
    (max t (s.mem.lastClientTs + s.server.clientTtl)) hinit (check_notes hinit)
    (by rw [httl']; exact le_max_right _ _)
  exact absurd (hlast.symm.trans hnone) (by decide)

/-! ## 5. Which polls are reported -/

/-- **Exactly when a polling client is reported for its `client_ttl`.**  A poll that takes the lock
on an initialised region at `t` is reported at every later check before `t + client_ttl` if it
writes its time stamp, as every poll of the library's and of the Python client does and a
poll of the Janus client does when it finds a new frame.  A poll that does not write it is
reported only thanks to another client that has already written one at this very moment or
later, or vacuously, with `client_ttl = 0`. -/
theorem poll_reported_iff {s s' : SinkState} {t : ℚ} {c : Nat} {keyRequired unlocked slept : Bool}
    (hinit : s.mem.Initialised)
    (hstep : sinkStep s ⟨t, .poll c keyRequired .taken unlocked slept⟩ = some s') :
    ReportedUntil s' (t + s.server.clientTtl) ↔
      Refreshes (s.clients c) s.mem ∨ t ≤ s.mem.lastClientTs ∨ s.server.clientTtl = 0 := by
  obtain ⟨hclock, rfl⟩ := sinkStep_eq_some.mp hstep
  have hinit' : (sinkAfter s ⟨t, .poll c keyRequired .taken unlocked slept⟩).mem.Initialised :=
    sinkAct_initialised hinit t _
  constructor
  · intro h
    by_contra hnot
    simp only [not_or, not_le] at hnot
    obtain ⟨href, hstale, httl⟩ := hnot
    have hmem := poll_not_refreshes keyRequired .taken unlocked slept t href
    refine not_reported_of_stale (t := t) hinit' rfl ?_ httl h
    rw [mem_sinkAfter]
    simpa only [sinkAct, hmem] using hstale
  · rintro (href | hlate | httl)
    · exact SeenSince.reported ⟨hinit',
        (poll_refreshes keyRequired unlocked slept t hinit href).ge, le_refl t, rfl⟩
    · refine SeenSince.reported ⟨hinit', ?_, le_refl t, rfl⟩
      rcases poll_lastClientTs (s.clients c) s.mem keyRequired .taken unlocked slept t with hp | hp
      · exact hp.ge
      · exact hlate.trans_eq hp.symm
    · -- no moment is left before the deadline
      intro evs s'' hexec frame lock unlocked' now hnow hlt _
      have hge : t ≤ s''.clock :=
        System.exec_inv (I := fun x => t ≤ x.clock) (fun x y e hx _ hst => by
          obtain ⟨hle, rfl⟩ := sinkStep_eq_some.mp hst
          exact le_trans hx hle) evs (le_refl t) hexec
      rw [httl] at hlt
      simp only [Nat.cast_zero, add_zero] at hlt
      linarith

/-- A region that holds frame 1, untouched by clients since time 0, whose server has seen all
that and trusts a client for ten seconds. -/
def idleSink (client : SinkClient) : SinkState where
  mem := { FrameMeta.zero with
    magic := usMemsinkMagic, version := usMemsinkVersion, id := 1, used := 0,
    lastClientTs := 0, keyRequested := false, data := [] }
  server := ⟨0, 10, 0, true, 0⟩
  clients := fun _ => client
  clock := 0

/-- A library client that has just read frame 1 polls at time 5 and is reported until 15. -/
theorem idle_libs_reported :
    ∃ s', sinkStep (idleSink (.libs ⟨0, 0, 1, false, 0⟩ usFrameInit))
        ⟨5, .poll 0 false .taken true true⟩ = some s' ∧ ReportedUntil s' (5 + (10 : Nat)) := by
  have hclock : (idleSink (.libs ⟨0, 0, 1, false, 0⟩ usFrameInit)).clock ≤ 5 := by
    norm_num [idleSink]
  have hstep : sinkStep _ ⟨5, .poll 0 false .taken true true⟩ = some _ :=
    sinkStep_eq_some.mpr ⟨hclock, rfl⟩
  exact ⟨_, hstep, (poll_reported_iff ⟨rfl, rfl⟩ hstep).mpr (Or.inl trivial)⟩

/-- **A waiting Janus client is not seen.**  The Janus client has read frame 1 and polls for the
next one at time 5, with the lock.  At time 10 the server reports no client, five seconds early.
-/
theorem idle_janus_not_reported :
    ∃ s', sinkStep (idleSink (.janus 1 usFrameInit))
        ⟨5, .poll 0 false .taken true true⟩ = some s' ∧
      ¬ ReportedUntil s' (5 + (10 : Nat)) := by
  have hclock : (idleSink (.janus 1 usFrameInit)).clock ≤ 5 := by norm_num [idleSink]
  refine ⟨_, sinkStep_eq_some.mpr ⟨hclock, rfl⟩, fun h => ?_⟩
  have hcheck := h [] _ rfl none .taken true 10 (by norm_num) (by norm_num) ⟨by decide, rfl⟩
  have hnone := check_reports_none (idleSink (.janus 1 usFrameInit)).server
    (idleSink (.janus 1 usFrameInit)).mem 10 ⟨rfl, rfl⟩ rfl (by norm_num [idleSink])
  exact absurd (hcheck.symm.trans hnone) (by decide)

end TinyPilotKvm
