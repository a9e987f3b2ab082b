/-
# Rate-limited mouse events (`app/static/js/mouse.js`)

A mouse has at most one timer and one queued event.  While the timer runs, a low-priority event is
queued; when it ends, the queued event is sent, which starts the timer again.  A high-priority event
is sent at once and discards both.

A run is a sequence of mouse events, changes of the window, the passing of time, and the timer going
off, which it does at its time or later.  `RunInv` is the invariant, and `rate_limited_mouse` what
follows from it.
-/
import TinyPilotKvm.Transition
import Mathlib.Data.List.Chain

namespace TinyPilotKvm

/-! ## 1. `RateLimitedMouse` -/

inductive MouseEventType
  | mouseDown
  | mouseUp
  | mouseMove
  | wheel
  deriving DecidableEq

/-- A mouse event, with what `parseMouseEvent` makes of it. -/
structure MouseEvent (α : Type) where
  type : MouseEventType
  mouseInfo : α
  deriving DecidableEq

/-- Clicks and releases have high priority. -/
def MouseEvent.isHighPriority {α : Type} (evt : MouseEvent α) : Bool :=
  match evt.type with
  | .mouseDown | .mouseUp => true
  | .mouseMove | .wheel => false

/-- The fields of the mouse; a timer is given by the time at which it is due. -/
structure RateLimitedMouse (α : Type) where
  millisecondsBetweenMouseEvents : Int
  queuedEvent : Option (MouseEvent α) := none
  eventTimer : Option Nat := none

/-- An event that has been sent, when, and for how long a window it opened. -/
structure SentEvent (α : Type) where
  event : MouseEvent α
  time : Nat
  window : Nat
  deriving DecidableEq

namespace RateLimitedMouse

variable {α : Type}

/-- The delay of `setTimeout`: a negative one counts as zero. -/
def window (mouse : RateLimitedMouse α) : Nat := mouse.millisecondsBetweenMouseEvents.toNat

/-- `_startTimeoutWindow`. -/
def startTimeoutWindow (now : Nat) (mouse : RateLimitedMouse α) : RateLimitedMouse α :=
  { mouse with eventTimer := some (now + mouse.window) }

/-- `_emitEvent`, with what it sends. -/
def emitEvent (now : Nat) (mouseInfo : MouseEvent α) (mouse : RateLimitedMouse α) :
    RateLimitedMouse α × List (SentEvent α) :=
  (mouse.startTimeoutWindow now, [⟨mouseInfo, now, mouse.window⟩])

/-- `_isInTimeoutWindow`. -/
def isInTimeoutWindow (mouse : RateLimitedMouse α) : Bool := mouse.eventTimer.isSome

/-- `_processHighPriorityEvent`. -/
def processHighPriorityEvent (now : Nat) (mouseInfo : MouseEvent α) (mouse : RateLimitedMouse α) :
    RateLimitedMouse α × List (SentEvent α) :=
  emitEvent now mouseInfo { mouse with queuedEvent := none }

/-- `_processLowPriorityEvent`. -/
def processLowPriorityEvent (now : Nat) (mouseInfo : MouseEvent α) (mouse : RateLimitedMouse α) :
    RateLimitedMouse α × List (SentEvent α) :=
  if mouse.isInTimeoutWindow then ({ mouse with queuedEvent := some mouseInfo }, [])
  else emitEvent now mouseInfo mouse

/-- `onMouseDown`, `onMouseUp`, `onMouseMove` and `onWheel`. -/
def onMouseEvent (now : Nat) (evt : MouseEvent α) (mouse : RateLimitedMouse α) :
    RateLimitedMouse α × List (SentEvent α) :=
  match evt.type with
  | .mouseDown => mouse.processHighPriorityEvent now evt
  | .mouseUp => mouse.processHighPriorityEvent now evt
  | .mouseMove => mouse.processLowPriorityEvent now evt
  | .wheel => mouse.processLowPriorityEvent now evt

/-- The callback of `setTimeout`. -/
def onTimeout (now : Nat) (mouse : RateLimitedMouse α) :
    RateLimitedMouse α × List (SentEvent α) :=
  let mouse := { mouse with eventTimer := none }
  let r := match mouse.queuedEvent with
    | some evt => mouse.emitEvent now evt
    | none => (mouse, [])
  ({ r.1 with queuedEvent := none }, r.2)

end RateLimitedMouse

/-! ## 2. Runs -/

/-- The mouse, the time, and the events that have occurred and that have been sent. -/
structure MouseRun (α : Type) where
  mouse : RateLimitedMouse α
  now : Nat
  occurred : List (MouseEvent α)
  sent : List (SentEvent α)

inductive MouseAction (α : Type)
  | input (evt : MouseEvent α)
  | setTimeoutWindow (milliseconds : Int)
  | pass (milliseconds : Nat)
  | timeout

section

variable {α : Type}

def mouseSystem (α : Type) : System (MouseRun α) (MouseAction α) where
  start s := s.mouse.queuedEvent = none ∧ s.mouse.eventTimer = none ∧ s.occurred = [] ∧ s.sent = []
  step s
    | .input evt =>
      let r := s.mouse.onMouseEvent s.now evt
      some { s with mouse := r.1, occurred := s.occurred ++ [evt], sent := s.sent ++ r.2 }
    | .setTimeoutWindow milliseconds =>
      some { s with mouse := { s.mouse with millisecondsBetweenMouseEvents := milliseconds } }
    | .pass milliseconds => some { s with now := s.now + milliseconds }
    | .timeout =>
      match s.mouse.eventTimer with
      | none => none
      | some due =>
        if due ≤ s.now then
          let r := s.mouse.onTimeout s.now
          some { s with mouse := r.1, sent := s.sent ++ r.2 }
        else none

/-- An event of low priority is sent after the window of the event before it. -/
def WindowOver (first second : SentEvent α) : Prop :=
  first.time + first.window ≤ second.time ∨ second.event.isHighPriority = true

/-- What holds in every state that is reached. -/
structure RunInv (s : MouseRun α) : Prop where
  /-- What is sent, and then what is queued, has occurred in this order. -/
  order : List.Sublist (s.sent.map SentEvent.event ++ s.mouse.queuedEvent.toList) s.occurred
  /-- The last event is sent or queued. -/
  last : (s.sent.map SentEvent.event ++ s.mouse.queuedEvent.toList).getLast? = s.occurred.getLast?
  windows : s.sent.IsChain WindowOver
  /-- A queued event waits for the timer. -/
  queued : ∀ evt, s.mouse.queuedEvent = some evt → ∃ due, s.mouse.eventTimer = some due
  /-- The timer runs for the window of the last event; without a timer, that window is over. -/
  timer : ∀ sent, s.sent.getLast? = some sent →
    sent.time + sent.window ≤ s.mouse.eventTimer.getD s.now

/-! ## 3. Steps -/

/-- After an event is sent: it is the last one that has occurred, and nothing is queued. -/
theorem runInv_emit {s : MouseRun α} {evt : MouseEvent α} {occurred : List (MouseEvent α)}
    {mouse : RateLimitedMouse α} (hinv : RunInv s)
    (horder : List.Sublist (s.sent.map SentEvent.event ++ [evt]) occurred)
    (hlast : occurred.getLast? = some evt)
    (hover : ∀ sent, s.sent.getLast? = some sent → WindowOver sent ⟨evt, s.now, mouse.window⟩)
    (hqueued : mouse.queuedEvent = none) :
    RunInv { s with
      mouse := mouse.startTimeoutWindow s.now
      occurred := occurred
      sent := s.sent ++ [⟨evt, s.now, mouse.window⟩] } where
  order := by
    simp only [RateLimitedMouse.startTimeoutWindow, hqueued, Option.toList_none, List.append_nil,
      List.map_append, List.map_singleton]
    exact horder
  last := by
    simp [RateLimitedMouse.startTimeoutWindow, hqueued, hlast]
  windows := by
    refine List.isChain_append.mpr ⟨hinv.windows, List.isChain_singleton _, ?_⟩
    intro first hfirst second hsecond
    obtain rfl := Option.some.inj hsecond
    exact hover first hfirst
  queued evt h := by
    simp [RateLimitedMouse.startTimeoutWindow, hqueued] at h
  timer sent h := by
    rw [List.getLast?_concat] at h
    obtain rfl := Option.some.inj h
    exact Nat.le_refl _

theorem runInv_high {s : MouseRun α} (hinv : RunInv s) {evt : MouseEvent α}
    (hhigh : evt.isHighPriority = true) :
    let r := s.mouse.processHighPriorityEvent s.now evt
    RunInv { s with mouse := r.1, occurred := s.occurred ++ [evt], sent := s.sent ++ r.2 } := by
  have hsent : List.Sublist (s.sent.map SentEvent.event) s.occurred :=
    (List.sublist_append_left _ _).trans hinv.order
  exact runInv_emit hinv (hsent.append (List.Sublist.refl _)) List.getLast?_concat
    (fun _ _ => Or.inr hhigh) rfl

theorem runInv_low {s : MouseRun α} (hinv : RunInv s) (evt : MouseEvent α) :
    let r := s.mouse.processLowPriorityEvent s.now evt
    RunInv { s with mouse := r.1, occurred := s.occurred ++ [evt], sent := s.sent ++ r.2 } := by
  have hsent : List.Sublist (s.sent.map SentEvent.event) s.occurred :=
    (List.sublist_append_left _ _).trans hinv.order
  unfold RateLimitedMouse.processLowPriorityEvent RateLimitedMouse.isInTimeoutWindow
  cases htimer : s.mouse.eventTimer with
  | some due =>
    rw [Option.isSome_some, if_pos rfl]
    dsimp only
    rw [List.append_nil]
    have hover := hinv.timer
    rw [htimer] at hover
    refine ⟨hsent.append (List.Sublist.refl _), ?_, hinv.windows, fun _ _ => ⟨due, rfl⟩, hover⟩
    simp
  | none =>
    rw [Option.isSome_none, if_neg Bool.false_ne_true]
    have hfree : s.mouse.queuedEvent = none := by
      cases hq : s.mouse.queuedEvent with
      | none => rfl
      | some evt =>
        obtain ⟨due, hdue⟩ := hinv.queued evt hq
        rw [htimer] at hdue
        cases hdue
    refine runInv_emit hinv (hsent.append (List.Sublist.refl _)) List.getLast?_concat
      (fun sent hlast => Or.inl ?_) hfree
    have hover := hinv.timer sent hlast
    rw [htimer] at hover
    exact hover

theorem runInv_timeout {s : MouseRun α} (hinv : RunInv s) {due : Nat}
    (htimer : s.mouse.eventTimer = some due) (hdue : due ≤ s.now) :
    let r := s.mouse.onTimeout s.now
    RunInv { s with mouse := r.1, sent := s.sent ++ r.2 } := by
  have hover : ∀ sent, s.sent.getLast? = some sent → sent.time + sent.window ≤ s.now := by
    intro sent hlast
    have h := hinv.timer sent hlast
    rw [htimer] at h
    exact h.trans hdue
  unfold RateLimitedMouse.onTimeout
  cases hqueued : s.mouse.queuedEvent with
  | none =>
    dsimp only
    rw [List.append_nil]
    have horder := hinv.order
    have hlast := hinv.last
    rw [hqueued] at horder hlast
    exact ⟨horder, hlast, hinv.windows, fun _ h => absurd h (by simp), hover⟩
  | some evt =>
    have horder := hinv.order
    have hlast := hinv.last
    rw [hqueued] at horder hlast
    have hcurrent : (s.occurred).getLast? = some evt := by
      rw [← hlast]
      simp
    exact @runInv_emit _ s evt _ { s.mouse with eventTimer := none, queuedEvent := none } hinv
      horder hcurrent (fun sent h => Or.inl (hover sent h)) rfl

/-- **Every reachable state.** -/
theorem runInv {s : MouseRun α} (hr : (mouseSystem α).Reach s) : RunInv s := by
  refine hr.inv (fun s hs => ?_) (fun s s' a hinv _ hst => ?_)
  · obtain ⟨hqueued, htimer, hoccurred, hsent⟩ := hs
    refine ⟨?_, ?_, ?_, ?_, ?_⟩
    · simp [hqueued, hsent]
    · simp [hqueued, hsent, hoccurred]
    · simp [hsent]
    · simp [hqueued]
    · simp [hsent]
  · cases a with
    | input evt =>
      obtain rfl := Option.some.inj hst
      obtain ⟨type, mouseInfo⟩ := evt
      cases type with
      | mouseDown => exact runInv_high hinv rfl
      | mouseUp => exact runInv_high hinv rfl
      | mouseMove => exact runInv_low hinv _
      | wheel => exact runInv_low hinv _
    | setTimeoutWindow milliseconds =>
      obtain rfl := Option.some.inj hst
      exact ⟨hinv.order, hinv.last, hinv.windows, hinv.queued, hinv.timer⟩
    | pass milliseconds =>
      obtain rfl := Option.some.inj hst
      refine ⟨hinv.order, hinv.last, hinv.windows, hinv.queued, fun sent hlast => ?_⟩
      have h := hinv.timer sent hlast
      cases htimer : s.mouse.eventTimer with
      | none =>
        rw [htimer] at h
        exact h.trans (Nat.le_add_right _ _)
      | some due =>
        rw [htimer] at h
        exact h
    | timeout =>
      cases htimer : s.mouse.eventTimer with
      | none => simp [mouseSystem, htimer] at hst
      | some due =>
        by_cases hdue : due ≤ s.now
        · simp only [mouseSystem, htimer, if_pos hdue, Option.some.injEq] at hst
          subst hst
          exact runInv_timeout hinv htimer hdue
        · simp [mouseSystem, htimer, hdue] at hst

/-! ## 4. Draining -/

def MouseAction.isInput : MouseAction α → Bool
  | input _ => true
  | _ => false

def MouseAction.isTimeout : MouseAction α → Bool
  | timeout => true
  | _ => false

/-- How often the timer can still go off while no mouse event occurs. -/
def MouseRun.timeoutsLeft (s : MouseRun α) : Nat :=
  s.mouse.eventTimer.toList.length + s.mouse.queuedEvent.toList.length

theorem step_timeout {s : MouseRun α} {due : Nat} (htimer : s.mouse.eventTimer = some due)
    (hdue : due ≤ s.now) :
    (mouseSystem α).step s .timeout = some { s with
      mouse := (s.mouse.onTimeout s.now).1
      sent := s.sent ++ (s.mouse.onTimeout s.now).2 } := by
  simp only [mouseSystem, htimer, if_pos hdue]

theorem exists_due_of_step_timeout {s s' : MouseRun α}
    (hst : (mouseSystem α).step s .timeout = some s') :
    ∃ due, s.mouse.eventTimer = some due ∧ due ≤ s.now := by
  cases htimer : s.mouse.eventTimer with
  | none => simp [mouseSystem, htimer] at hst
  | some due =>
    by_cases hdue : due ≤ s.now
    · exact ⟨due, rfl, hdue⟩
    · simp [mouseSystem, htimer, hdue] at hst

/-- Each time the timer goes off, one time less is left; nothing else counts. -/
theorem timeoutsLeft_step {s s' : MouseRun α} {a : MouseAction α} (hquiet : a.isInput = false)
    (hst : (mouseSystem α).step s a = some s') :
    s.timeoutsLeft = s'.timeoutsLeft + a.isTimeout.toNat ∧ s'.occurred = s.occurred := by
  cases a with
  | input evt => cases hquiet
  | setTimeoutWindow milliseconds =>
    obtain rfl := Option.some.inj hst
    exact ⟨rfl, rfl⟩
  | pass milliseconds =>
    obtain rfl := Option.some.inj hst
    exact ⟨rfl, rfl⟩
  | timeout =>
    obtain ⟨due, htimer, hdue⟩ := exists_due_of_step_timeout hst
    rw [step_timeout htimer hdue] at hst
    obtain rfl := Option.some.inj hst
    refine ⟨?_, rfl⟩
    unfold MouseRun.timeoutsLeft RateLimitedMouse.onTimeout
    cases hqueued : s.mouse.queuedEvent <;>
      simp [htimer, RateLimitedMouse.emitEvent, RateLimitedMouse.startTimeoutWindow,
        MouseAction.isTimeout]

theorem timeoutsLeft_exec : ∀ (as : List (MouseAction α)) {s s' : MouseRun α},
    (∀ a ∈ as, a.isInput = false) → (mouseSystem α).exec s as = some s' →
      s.timeoutsLeft = s'.timeoutsLeft + as.countP MouseAction.isTimeout ∧
        s'.occurred = s.occurred
  | [], s, s', _, h => by
    obtain rfl := Option.some.inj h
    exact ⟨rfl, rfl⟩
  | a :: as, s, s', hquiet, h => by
    obtain ⟨s1, hst, hexec⟩ := System.exec_cons_eq_some.mp h
    obtain ⟨hcount, hsame⟩ := timeoutsLeft_step (hquiet a List.mem_cons_self) hst
    obtain ⟨hcounts, hsames⟩ :=
      timeoutsLeft_exec as (fun b hb => hquiet b (List.mem_cons_of_mem _ hb)) hexec
    refine ⟨?_, hsames.trans hsame⟩
    rw [hcount, hcounts, List.countP_cons]
    cases a.isTimeout with
    | false => simp
    | true =>
      simp only [Bool.toNat_true, if_true]
      omega

theorem timeoutsLeft_le (s : MouseRun α) : s.timeoutsLeft ≤ 2 := by
  unfold MouseRun.timeoutsLeft
  cases s.mouse.eventTimer <;> cases s.mouse.queuedEvent <;> simp

/-- **The timers drain**: time passes, and the timer goes off, until none is left. -/
theorem exists_drained : ∀ (n : Nat) {s : MouseRun α}, s.timeoutsLeft = n →
    ∃ as t, (∀ a ∈ as, a.isInput = false) ∧ (mouseSystem α).exec s as = some t ∧
      t.mouse.eventTimer = none
  | n, s, hn => by
    cases htimer : s.mouse.eventTimer with
    | none => exact ⟨[], s, by simp, rfl, htimer⟩
    | some due =>
      have hpass : (mouseSystem α).step s (.pass due) = some { s with now := s.now + due } := rfl
      have htimeout := step_timeout (s := { s with now := s.now + due }) htimer
        (Nat.le_add_left due s.now)
      obtain ⟨hcount, -⟩ := timeoutsLeft_step rfl htimeout
      cases n with
      | zero =>
        unfold MouseRun.timeoutsLeft at hn
        simp [htimer] at hn
      | succ n =>
        have hleft := Nat.succ.inj (hn.symm.trans hcount)
        obtain ⟨as, t, hquiet, hexec, hnone⟩ := exists_drained n hleft.symm
        refine ⟨.pass due :: .timeout :: as, t, ?_, ?_, hnone⟩
        · intro a ha
          rcases List.mem_cons.mp ha with rfl | ha
          · rfl
          · rcases List.mem_cons.mp ha with rfl | ha
            · rfl
            · exact hquiet a ha
        · rw [System.exec_cons, hpass, Option.bind_some, System.exec_cons, htimeout,
            Option.bind_some]
          exact hexec

/-- **A queued event waits, and is sent when the timer goes off**, if no other event occurs. -/
theorem queued_until_timeout {s t : MouseRun α} {evt : MouseEvent α} {due : Nat}
    (hqueued : s.mouse.queuedEvent = some evt) (htimer : s.mouse.eventTimer = some due)
    (hlead : (mouseSystem α).Leads (fun _ a => a.isInput = false ∧ a.isTimeout = false) s t) :
    t.mouse.queuedEvent = some evt ∧ t.mouse.eventTimer = some due ∧ t.sent = s.sent := by
  refine hlead.inv (I := fun t => t.mouse.queuedEvent = some evt ∧
    t.mouse.eventTimer = some due ∧ t.sent = s.sent) (fun u u' a hu hok hst => ?_)
    ⟨hqueued, htimer, rfl⟩
  cases a with
  | input evt => cases hok.1
  | timeout => cases hok.2
  | setTimeoutWindow milliseconds =>
    obtain rfl := Option.some.inj hst
    exact hu
  | pass milliseconds =>
    obtain rfl := Option.some.inj hst
    exact hu

/-! ## 5. The mouse -/

/-- **Rate-limited mouse events.** -/
theorem rate_limited_mouse {s : MouseRun α} (hr : (mouseSystem α).Reach s) :
    -- what is sent is a subsequence of what has occurred
    List.Sublist (s.sent.map SentEvent.event) s.occurred ∧
    -- an event of high priority is sent at once
    (∀ evt : MouseEvent α, evt.isHighPriority = true → ∃ s',
      (mouseSystem α).step s (.input evt) = some s' ∧
        s'.sent = s.sent ++ [⟨evt, s.now, s.mouse.window⟩]) ∧
    -- no event of low priority is sent within the window of the event before it
    s.sent.IsChain WindowOver ∧
    -- a queued event has a timer that sends it, unless another event occurs
    (∀ evt, s.mouse.queuedEvent = some evt → ∃ due, s.mouse.eventTimer = some due ∧
      ∀ t, (mouseSystem α).Leads (fun _ a => a.isInput = false ∧ a.isTimeout = false) s t →
        t.mouse.eventTimer = some due ∧ (due ≤ t.now → ∃ t',
          (mouseSystem α).step t .timeout = some t' ∧
            t'.sent = s.sent ++ [⟨evt, t.now, t.mouse.window⟩])) ∧
    -- the timers drain
    (∃ as t, (∀ a ∈ as, a.isInput = false) ∧ (mouseSystem α).exec s as = some t ∧
      t.mouse.eventTimer = none) ∧
    (∀ as t, (∀ a ∈ as, a.isInput = false) → (mouseSystem α).exec s as = some t →
      as.countP MouseAction.isTimeout ≤ 2 ∧
        -- and then the last event that has been sent is the last that has occurred
        (t.mouse.eventTimer = none →
          (t.sent.map SentEvent.event).getLast? = s.occurred.getLast?)) := by
  have hinv := runInv hr
  refine ⟨(List.sublist_append_left _ _).trans hinv.order, ?_, hinv.windows, ?_,
    exists_drained _ rfl, ?_⟩
  · intro evt hhigh
    refine ⟨_, rfl, ?_⟩
    obtain ⟨type, mouseInfo⟩ := evt
    cases type with
    | mouseDown => rfl
    | mouseUp => rfl
    | mouseMove => cases hhigh
    | wheel => cases hhigh
  · intro evt hqueued
    obtain ⟨due, htimer⟩ := hinv.queued evt hqueued
    refine ⟨due, htimer, fun t hlead => ?_⟩
    obtain ⟨hq, ht, hsent⟩ := queued_until_timeout hqueued htimer hlead
    refine ⟨ht, fun hdue => ⟨_, step_timeout ht hdue, ?_⟩⟩
    rw [← hsent]
    simp [RateLimitedMouse.onTimeout, hq, RateLimitedMouse.emitEvent, RateLimitedMouse.window]
  · intro as t hquiet hexec
    obtain ⟨hcount, hsame⟩ := timeoutsLeft_exec as hquiet hexec
    refine ⟨?_, fun hnone => ?_⟩
    · have hle := timeoutsLeft_le s
      omega
    · have hinv' := runInv (System.Reach.exec as hr hexec)
      have hfree : t.mouse.queuedEvent = none := by
        cases hq : t.mouse.queuedEvent with
        | none => rfl
        | some evt =>
          obtain ⟨due, hdue⟩ := hinv'.queued evt hq
          rw [hnone] at hdue
          cases hdue
      have hlast := hinv'.last
      rw [hfree, Option.toList_none, List.append_nil, hsame] at hlast
      exact hlast

end

/-- The second of two moves waits for the window of the first. -/
theorem rate_limited_mouse_two_moves : ∃ s : MouseRun Nat, (mouseSystem Nat).Reach s ∧
    s.sent = [⟨⟨.mouseMove, 1⟩, 0, 100⟩, ⟨⟨.mouseMove, 2⟩, 120, 100⟩] ∧
    s.sent.IsChain WindowOver := by
  have h0 : (mouseSystem Nat).Reach ⟨{ millisecondsBetweenMouseEvents := 100 }, 0, [], []⟩ :=
    .start ⟨rfl, rfl, rfl, rfl⟩
  have h1 := h0.exec [.input ⟨.mouseMove, 1⟩, .input ⟨.mouseMove, 2⟩, .pass 120, .timeout] rfl
  exact ⟨_, h1, rfl, (rate_limited_mouse h1).2.2.1⟩

end TinyPilotKvm
