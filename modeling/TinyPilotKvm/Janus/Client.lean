/-
# What a client is sent (`janus/src/client.c`)

`us_janus_client_send` copies a datagram into one of two rings of the client, the one for video or
the one for audio; a thread for each ring takes it out and relays it to the peer.  Both look at the
flags `transmit` and `transmit_acap` by themselves, the one before the ring and the other behind it,
and a full ring drops the datagram.

The two rings have nothing in common but the flags, so a client is a pair of lanes.  A lane's
datagrams are, from the oldest to the newest, those that were relayed, the one in the hands of the
lane's thread, those in the ring, and the one in the hands of the plugin: `ClientLane.accepted`.
A step moves a datagram along, or adds one to the end that the plugin has been called with, or
drops one (`LaneMove`).
-/
import TinyPilotKvm.Janus.Rtp
import TinyPilotKvm.Libs.RingItems

namespace TinyPilotKvm

/-! ## 1. State -/

/-- The two ends of a lane: the thread of the plugin that sends, and the client's own. -/
inductive LaneEnd
  | plugin
  | client
  deriving DecidableEq

/-- Where a call of `us_janus_client_send` is. -/
inductive SendPc
  | idle
  /-- Before `atomic_load(&client->transmit)`. -/
  | transmit (rtp : UsRtp)
  /-- Before `atomic_load(&client->transmit_acap)`. -/
  | transmitAcap (rtp : UsRtp)
  /-- Before `us_ring_producer_acquire`. -/
  | acquire (rtp : UsRtp)
  /-- Before the `memcpy`. -/
  | copy (rtp : UsRtp) (ri : Nat)
  /-- Before `us_ring_producer_release`. -/
  | release (ri : Nat)

/-- Where `_video_or_acap_thread` is. -/
inductive LanePc
  /-- At `!atomic_load(&client->stop)`. -/
  | top
  /-- Before `us_ring_consumer_acquire`. -/
  | acquire
  /-- Before the `memcpy` into the local `rtp`. -/
  | copy (ri : Nat)
  /-- Before `us_ring_consumer_release`. -/
  | release (ri : Nat) (rtp : UsRtp)
  /-- Before `atomic_load(&client->transmit)`. -/
  | transmit (rtp : UsRtp)
  /-- Before `atomic_load(&client->transmit_acap)`. -/
  | transmitAcap (rtp : UsRtp)
  /-- Before `relay_rtp`, with the load of `video_orient`. -/
  | relay (rtp : UsRtp)
  | exited

/-- `janus_plugin_rtp`, as `relay_rtp` is called with it; `buffer` is the datagram it points to.  A
rotation that is not set is `none`. -/
structure RelayedRtp where
  video : Bool
  buffer : List UInt8
  length : Nat
  mindex : Nat
  videoRotation : Option UInt32
  deriving DecidableEq

/-- "The extension rotates the video clockwise, but want it counterclockwise." -/
def videoRotation (videoOrient : UInt32) : Option UInt32 :=
  if videoOrient = 0 then none
  else if videoOrient = 90 then some 270
  else if videoOrient = 270 then some 90
  else some videoOrient

/-- The packet that is made of a datagram. -/
def relayedRtp (rtp : UsRtp) (videoOrient : UInt32) : RelayedRtp where
  video := rtp.video
  buffer := rtp.datagram
  length := rtp.used
  mindex := if rtp.video then 0 else 1
  videoRotation := if rtp.video then videoRotation videoOrient else none

/-- One ring of a client, with its two ends.  `called` are the datagrams that
`us_janus_client_send` has been called with for this ring, and `relayed` those that `relay_rtp` has
been called for, with the orientation at that time. -/
structure ClientLane where
  ring : RingItems LaneEnd UsRtp
  send : SendPc
  thread : LanePc
  called : List UsRtp
  relayed : List (UsRtp × UInt32)

/-- `us_janus_client_s`, as far as it sends; `lane true` is the one for video. -/
structure SendingClient where
  transmit : Bool
  transmitAcap : Bool
  videoOrient : UInt32
  stop : Bool
  lane : Bool → ClientLane

/-! ## 2. Steps -/

namespace ClientLane

/-- The steps of `us_janus_client_send` after its call. -/
def sendStep (client : SendingClient) (l : ClientLane) : Option ClientLane :=
  match l.send with
  | .idle => none
  | .transmit rtp =>
    if client.transmit then
      some { l with send := if rtp.video then .acquire rtp else .transmitAcap rtp }
    else some { l with send := .idle }
  | .transmitAcap rtp =>
    some { l with send := if client.transmitAcap then .acquire rtp else .idle }
  | .acquire rtp =>
    match l.ring.producerAcquire .plugin with
    | none => some { l with send := .idle }
    | some (ri, ring) => some { l with ring := ring, send := .copy rtp ri }
  | .copy rtp ri => some { l with ring := l.ring.fill ri rtp, send := .release ri }
  | .release ri => (l.ring.producerRelease .plugin ri).map fun ring =>
      { l with ring := ring, send := .idle }

/-- `_video_or_acap_thread(client, video)`; `timedOut`: its acquire did not get the ring. -/
def threadStep (client : SendingClient) (video timedOut : Bool) (l : ClientLane) :
    Option ClientLane :=
  match l.thread with
  | .top => some { l with thread := if client.stop then .exited else .acquire }
  | .acquire =>
    if timedOut then some { l with thread := .top }
    else match l.ring.consumerAcquire .client with
      | none => some { l with thread := .top }
      | some (ri, ring) => some { l with ring := ring, thread := .copy ri }
  | .copy ri => some { l with thread := .release ri (l.ring.items ri) }
  | .release ri rtp => (l.ring.consumerRelease .client ri).map fun ring =>
      { l with ring := ring, thread := .transmit rtp }
  | .transmit rtp =>
    if client.transmit then
      some { l with thread := if video then .relay rtp else .transmitAcap rtp }
    else some { l with thread := .top }
  | .transmitAcap rtp =>
    some { l with thread := if client.transmitAcap then .relay rtp else .top }
  | .relay rtp =>
    some { l with relayed := l.relayed ++ [(rtp, client.videoOrient)], thread := .top }
  | .exited => none

end ClientLane

inductive ClientAct
  /-- The plugin calls `us_janus_client_send`. -/
  | call (rtp : UsRtp)
  | send (video : Bool)
  | thread (video timedOut : Bool)
  /-- The plugin's handlers set the flags. -/
  | setTransmit (b : Bool)
  | setWatch (transmitAcap : Bool) (videoOrient : UInt32)
  | stop

def SendingClient.setLane (client : SendingClient) (video : Bool) (l : ClientLane) :
    SendingClient :=
  { client with lane := Function.update client.lane video l }

@[simp] theorem SendingClient.setLane_self (client : SendingClient) (video : Bool)
    (l : ClientLane) : (client.setLane video l).lane video = l := Function.update_self ..

theorem SendingClient.setLane_of_ne (client : SendingClient) {v video : Bool} (hv : v ≠ video)
    (l : ClientLane) : (client.setLane v l).lane video = client.lane video :=
  Function.update_of_ne hv.symm ..

/-- One step.  The plugin's calls for one ring come one after the other: those with video hold
`_g_video_lock`, and those with audio `_g_acap_lock`. -/
def clientStep (client : SendingClient) : ClientAct → Option SendingClient
  | .call rtp =>
    let l := client.lane rtp.video
    match l.send with
    | .idle => some (client.setLane rtp.video
        { l with send := .transmit rtp, called := l.called ++ [rtp] })
    | _ => none
  | .send video => ((client.lane video).sendStep client).map (client.setLane video)
  | .thread video timedOut =>
    ((client.lane video).threadStep client video timedOut).map (client.setLane video)
  | .setTransmit b => some { client with transmit := b }
  | .setWatch transmitAcap videoOrient =>
    some { client with transmitAcap := transmitAcap, videoOrient := videoOrient }
  | .stop => some { client with stop := true }

def ClientLane.init (ring : UsRing) : ClientLane where
  ring := RingItems.init ring UsRtp.init
  send := .idle
  thread := .top
  called := []
  relayed := []

/-- `us_janus_client_init` with rings of `size true` and `size false` items; 2048 and 64 in the
source. -/
def sendingSystem (size : Bool → Nat) (h : ∀ video, 0 < size video) :
    System SendingClient ClientAct where
  start client := ∃ rings : Bool → UsRing,
    (∀ video, usRingInit (size video) (h video) = some (rings video)) ∧
      client = { transmit := false, transmitAcap := false, videoOrient := 0, stop := false,
                 lane := fun video => ClientLane.init (rings video) }
  step := clientStep

/-! ## 3. The datagrams of a lane -/

/-- The datagram in the hands of the plugin. -/
def SendPc.pending (items : Nat → UsRtp) : SendPc → List UsRtp
  | .idle => []
  | .transmit rtp | .transmitAcap rtp | .acquire rtp | .copy rtp _ => [rtp]
  | .release ri => [items ri]

/-- The datagram in the hands of the thread. -/
def LanePc.pending (items : Nat → UsRtp) : LanePc → List UsRtp
  | .top | .acquire | .exited => []
  | .copy ri => [items ri]
  | .release _ rtp | .transmit rtp | .transmitAcap rtp | .relay rtp => [rtp]

def SendPc.slot : SendPc → Option Nat
  | .copy _ ri | .release ri => some ri
  | _ => none

def LanePc.slot : LanePc → Option Nat
  | .copy ri | .release ri _ => some ri
  | _ => none

namespace ClientLane

/-- The datagrams that are on their way to `relay_rtp`. -/
def inFlight (l : ClientLane) : List UsRtp :=
  l.thread.pending l.ring.items ++ l.ring.queued ++ l.send.pending l.ring.items

/-- The datagrams that have not been dropped, the oldest first. -/
def accepted (l : ClientLane) : List UsRtp := l.relayed.map Prod.fst ++ l.inFlight

/-- What holds of a lane with a ring of `n` items, whatever happens. -/
structure Inv (n : Nat) (l : ClientLane) : Prop where
  ring : l.ring.Inv n
  sendHolds : ∀ i, l.send.slot = some i → (LaneEnd.plugin, i) ∈ l.ring.ring.producing
  threadHolds : ∀ i, l.thread.slot = some i → (LaneEnd.client, i) ∈ l.ring.ring.consuming

/-- The next step of `us_janus_client_send` drops its datagram. -/
def sendDrops (client : SendingClient) (l : ClientLane) : Bool :=
  match l.send with
  | .transmit _ => !client.transmit
  | .transmitAcap _ => !client.transmitAcap
  | .acquire _ => (l.ring.producerAcquire .plugin).isNone
  | _ => false

/-- The next step of the thread drops its datagram. -/
def threadDrops (client : SendingClient) (l : ClientLane) : Bool :=
  match l.thread with
  | .transmit _ => !client.transmit
  | .transmitAcap _ => !client.transmitAcap
  | _ => false

/-- What a step of either end does to a lane's datagrams: they move along, and one of them may be
dropped. -/
structure LaneMove (drops : Bool) (l l' : ClientLane) : Prop where
  called : l'.called = l.called
  sublist : l'.accepted.Sublist l.accepted
  kept : drops = false → l'.accepted = l.accepted

section Moves

variable {n : Nat} {client : SendingClient} {l l' : ClientLane}

theorem LaneMove.of_eq {drops : Bool} (hcalled : l'.called = l.called)
    (haccepted : l'.accepted = l.accepted) : LaneMove drops l l' :=
  ⟨hcalled, haccepted ▸ List.Sublist.refl _, fun _ => haccepted⟩

/-- The plugin's end drops its datagram. -/
theorem laneMove_of_idle {drops : Bool} (h : drops = true) :
    LaneMove drops l { l with send := .idle } := by
  refine ⟨rfl, ?_, fun hd => absurd (h.symm.trans hd) (by simp)⟩
  simp only [accepted, inFlight, SendPc.pending, List.append_nil]
  exact (List.Sublist.refl _).append (List.sublist_append_left _ _)

/-- The thread drops its datagram. -/
theorem laneMove_of_top {drops : Bool} (h : drops = true) :
    LaneMove drops l { l with thread := .top } := by
  refine ⟨rfl, ?_, fun hd => absurd (h.symm.trans hd) (by simp)⟩
  simp only [accepted, inFlight, LanePc.pending, List.nil_append]
  refine (List.Sublist.refl _).append ?_
  rw [List.append_assoc]
  exact List.sublist_append_right _ _

/-- A step of the plugin's end that leaves the ring alone. -/
theorem Inv.sendPc (h : Inv n l) {pc : SendPc} (hslot : pc.slot = none) :
    Inv n { l with send := pc } := by
  refine ⟨h.ring, fun i hi => ?_, h.threadHolds⟩
  rw [hslot] at hi
  exact absurd hi (by simp)

theorem Inv.threadPc (h : Inv n l) {pc : LanePc} (hslot : pc.slot = none) :
    Inv n { l with thread := pc } := by
  refine ⟨h.ring, h.sendHolds, fun i hi => ?_⟩
  rw [hslot] at hi
  exact absurd hi (by simp)

/-- The datagram in the hands of an end depends on the items that it holds. -/
theorem pending_thread_congr {items items' : Nat → UsRtp} (pc : LanePc)
    (h : ∀ i, pc.slot = some i → items' i = items i) : pc.pending items' = pc.pending items := by
  cases pc with
  | copy ri => rw [LanePc.pending, LanePc.pending, h ri rfl]
  | _ => rfl

/-- **The plugin's end.** -/
theorem sendStep_move (h : Inv n l) (hs : sendStep client l = some l') :
    Inv n l' ∧ LaneMove (sendDrops client l) l l' := by
  unfold sendStep at hs
  split at hs
  case h_1 => exact absurd hs (by simp)
  case h_2 rtp hpc =>
    split at hs
    · obtain rfl := Option.some.inj hs
      refine ⟨h.sendPc (by split <;> rfl), .of_eq rfl ?_⟩
      simp only [accepted, inFlight, hpc]
      split <;> rfl
    · rename_i hoff
      obtain rfl := Option.some.inj hs
      exact ⟨h.sendPc rfl, laneMove_of_idle (by simp [sendDrops, hpc, hoff])⟩
  case h_3 rtp hpc =>
    obtain rfl := Option.some.inj hs
    by_cases hon : client.transmitAcap = true
    · refine ⟨h.sendPc (by simp only [hon, if_true]; rfl), .of_eq rfl ?_⟩
      simp only [accepted, inFlight, hpc, hon, if_true, SendPc.pending]
    · simp only [hon, Bool.false_eq_true, if_false]
      exact ⟨h.sendPc rfl, laneMove_of_idle (by simp [sendDrops, hpc, hon])⟩
  case h_4 rtp hpc =>
    split at hs
    · rename_i hfull
      obtain rfl := Option.some.inj hs
      exact ⟨h.sendPc rfl, laneMove_of_idle (by simp [sendDrops, hpc, hfull])⟩
    · rename_i ri ring hring
      obtain rfl := Option.some.inj hs
      obtain ⟨hinv, hqueued, hitems, hproducing, hconsuming⟩ := h.ring.producerAcquire hring
      refine ⟨⟨hinv, fun i hi => ?_, fun i hi => ?_⟩, .of_eq rfl ?_⟩
      · obtain rfl : ri = i := Option.some.inj hi
        rw [hproducing]
        exact List.mem_cons_self
      · rw [hconsuming]
        exact h.threadHolds i hi
      · simp only [accepted, inFlight, hpc, hqueued, hitems, SendPc.pending]
  case h_5 rtp ri hpc =>
    obtain rfl := Option.some.inj hs
    have hheld := h.sendHolds ri (by rw [hpc]; rfl)
    obtain ⟨hqueued, hself, hitems⟩ := h.ring.fill hheld rtp
    refine ⟨⟨h.ring, fun i hi => ?_, h.threadHolds⟩, .of_eq rfl ?_⟩
    · obtain rfl : ri = i := Option.some.inj hi
      exact hheld
    · have hthread := pending_thread_congr l.thread
        fun i hi => hitems _ i (h.threadHolds i hi)
      simp only [accepted, inFlight, hpc, hqueued, hthread, SendPc.pending, hself]
  case h_6 ri hpc =>
    obtain ⟨ring, hring, rfl⟩ := Option.map_eq_some_iff.mp hs
    have hheld := h.sendHolds ri (by rw [hpc]; rfl)
    obtain ⟨ring', hring', hinv, hqueued, hitems, -, hconsuming⟩ := h.ring.producerRelease hheld
    obtain rfl := Option.some.inj (hring'.symm.trans hring)
    refine ⟨⟨hinv, fun i hi => absurd hi (by simp [SendPc.slot]), fun i hi => ?_⟩, .of_eq rfl ?_⟩
    · rw [hconsuming]
      exact h.threadHolds i hi
    · simp only [accepted, inFlight, hpc, hqueued, hitems, SendPc.pending, List.append_nil,
        List.append_assoc]

/-- **The client's end.** -/
theorem threadStep_move {video timedOut : Bool} (h : Inv n l)
    (hs : threadStep client video timedOut l = some l') :
    Inv n l' ∧ LaneMove (threadDrops client l) l l' := by
  unfold threadStep at hs
  split at hs
  case h_1 hpc =>
    obtain rfl := Option.some.inj hs
    refine ⟨h.threadPc (by split <;> rfl), .of_eq rfl ?_⟩
    simp only [accepted, inFlight, hpc]
    split <;> rfl
  case h_2 hpc =>
    have htop : Inv n { l with thread := .top } ∧
        LaneMove (threadDrops client l) l { l with thread := .top } :=
      ⟨h.threadPc rfl, .of_eq rfl (by simp only [accepted, inFlight, hpc, LanePc.pending])⟩
    split at hs
    · exact Option.some.inj hs ▸ htop
    · split at hs
      · exact Option.some.inj hs ▸ htop
      · rename_i ri ring hring
        obtain rfl := Option.some.inj hs
        obtain ⟨hinv, hqueued, hitems, hproducing, hconsuming⟩ := h.ring.consumerAcquire hring
        refine ⟨⟨hinv, fun i hi => ?_, fun i hi => ?_⟩, .of_eq rfl ?_⟩
        · rw [hproducing]
          exact h.sendHolds i hi
        · obtain rfl : ri = i := Option.some.inj hi
          rw [hconsuming]
          exact List.mem_cons_self
        · simp only [accepted, inFlight, hpc, hqueued, hitems, LanePc.pending, List.nil_append,
            List.singleton_append]
  case h_3 ri hpc =>
    obtain rfl := Option.some.inj hs
    refine ⟨⟨h.ring, h.sendHolds, fun i hi => ?_⟩, .of_eq rfl ?_⟩
    · refine h.threadHolds i ?_
      rw [hpc]
      exact hi
    · simp only [accepted, inFlight, hpc, LanePc.pending]
  case h_4 ri rtp hpc =>
    obtain ⟨ring, hring, rfl⟩ := Option.map_eq_some_iff.mp hs
    have hheld := h.threadHolds ri (by rw [hpc]; rfl)
    obtain ⟨ring', hring', hinv, hqueued, hitems, hproducing, -⟩ := h.ring.consumerRelease hheld
    obtain rfl := Option.some.inj (hring'.symm.trans hring)
    refine ⟨⟨hinv, fun i hi => ?_, fun i hi => absurd hi (by simp [LanePc.slot])⟩, .of_eq rfl ?_⟩
    · rw [hproducing]
      exact h.sendHolds i hi
    · simp only [accepted, inFlight, hpc, hqueued, hitems, LanePc.pending]
  case h_5 rtp hpc =>
    split at hs
    · obtain rfl := Option.some.inj hs
      refine ⟨h.threadPc (by split <;> rfl), .of_eq rfl ?_⟩
      simp only [accepted, inFlight, hpc]
      split <;> rfl
    · rename_i hoff
      obtain rfl := Option.some.inj hs
      exact ⟨h.threadPc rfl, laneMove_of_top (by simp [threadDrops, hpc, hoff])⟩
  case h_6 rtp hpc =>
    obtain rfl := Option.some.inj hs
    by_cases hon : client.transmitAcap = true
    · refine ⟨h.threadPc (by simp only [hon, if_true]; rfl), .of_eq rfl ?_⟩
      simp only [accepted, inFlight, hpc, hon, if_true, LanePc.pending]
    · simp only [hon, Bool.false_eq_true, if_false]
      exact ⟨h.threadPc rfl, laneMove_of_top (by simp [threadDrops, hpc, hon])⟩
  case h_7 rtp hpc =>
    obtain rfl := Option.some.inj hs
    refine ⟨⟨h.ring, h.sendHolds, fun i hi => absurd hi (by simp [LanePc.slot])⟩, .of_eq rfl ?_⟩
    simp only [accepted, inFlight, hpc, LanePc.pending, List.map_append, List.map_cons,
      List.map_nil, List.nil_append, List.append_assoc, List.cons_append]
  case h_8 => exact absurd hs (by simp)

end Moves

end ClientLane

/-! ## 4. Runs -/

/-- What holds of a client whatever happens to it. -/
structure SendingInv (size : Bool → Nat) (client : SendingClient) : Prop where
  lane : ∀ video, (client.lane video).Inv (size video)
  accepted : ∀ video, (client.lane video).accepted.Sublist (client.lane video).called
  /-- Every lane has the datagrams of its kind. -/
  kind : ∀ video, ∀ rtp ∈ (client.lane video).called, rtp.video = video

/-- The step `a` drops a datagram. -/
def clientDrops (client : SendingClient) : ClientAct → Bool
  | .send video => (client.lane video).sendDrops client
  | .thread video _ => (client.lane video).threadDrops client
  | _ => false

/-- A step that drops nothing: the flags are found set, and the rings have room. -/
abbrev DropsNothing (client : SendingClient) (a : ClientAct) : Prop := clientDrops client a = false

section Runs

variable {size : Bool → Nat} {h : ∀ video, 0 < size video} {client client' : SendingClient}

/-- What a step does to the lane `video`: the plugin is called for it, one of its ends moves, or
nothing happens to it. -/
inductive LaneStep (client : SendingClient) (a : ClientAct) (video : Bool) (l l' : ClientLane) :
    Prop
  | called (rtp : UsRtp) : rtp.video = video → l.send = .idle →
      l' = { l with send := .transmit rtp, called := l.called ++ [rtp] } →
      LaneStep client a video l l'
  | moved : ClientLane.LaneMove (clientDrops client a) l l' → LaneStep client a video l l'
  | same : l' = l → LaneStep client a video l l'

/-- **A step, as a lane sees it.** -/
theorem clientStep_lane (hI : ∀ video, (client.lane video).Inv (size video)) {a : ClientAct}
    (hs : clientStep client a = some client') (video : Bool) :
    (client'.lane video).Inv (size video) ∧
      LaneStep client a video (client.lane video) (client'.lane video) := by
  have hsame : client'.lane video = client.lane video → (client'.lane video).Inv (size video) ∧
      LaneStep client a video (client.lane video) (client'.lane video) := by
    intro hlane
    rw [hlane]
    exact ⟨hI video, .same rfl⟩
  -- a step of the lane `v` leaves the other one alone
  have hother : ∀ v l, client' = client.setLane v l → v ≠ video →
      client'.lane video = client.lane video := by
    rintro v l rfl hv
    exact client.setLane_of_ne hv l
  cases a with
  | call rtp =>
    dsimp only [clientStep] at hs
    split at hs
    · rename_i hidle
      obtain rfl := Option.some.inj hs
      by_cases hv : rtp.video = video
      · subst hv
        rw [SendingClient.setLane_self]
        have hlane := hI rtp.video
        exact ⟨⟨hlane.ring, fun i hi => absurd hi (by simp [SendPc.slot]), hlane.threadHolds⟩,
          .called rtp rfl hidle rfl⟩
      · exact hsame (hother _ _ rfl hv)
    · exact absurd hs (by simp)
  | send v =>
    obtain ⟨l, hl, rfl⟩ := Option.map_eq_some_iff.mp hs
    obtain ⟨hinv, hmove⟩ := ClientLane.sendStep_move (hI v) hl
    by_cases hv : v = video
    · subst hv
      rw [SendingClient.setLane_self]
      exact ⟨hinv, .moved hmove⟩
    · exact hsame (hother _ _ rfl hv)
  | thread v timedOut =>
    obtain ⟨l, hl, rfl⟩ := Option.map_eq_some_iff.mp hs
    obtain ⟨hinv, hmove⟩ := ClientLane.threadStep_move (hI v) hl
    by_cases hv : v = video
    · subst hv
      rw [SendingClient.setLane_self]
      exact ⟨hinv, .moved hmove⟩
    · exact hsame (hother _ _ rfl hv)
  | setTransmit b => exact hsame (Option.some.inj hs ▸ rfl)
  | setWatch transmitAcap videoOrient => exact hsame (Option.some.inj hs ▸ rfl)
  | stop => exact hsame (Option.some.inj hs ▸ rfl)

/-- A call adds its datagram at the end. -/
theorem ClientLane.accepted_call {l : ClientLane} (hidle : l.send = .idle) (rtp : UsRtp) :
    ClientLane.accepted { l with send := .transmit rtp, called := l.called ++ [rtp] }
      = l.accepted ++ [rtp] := by
  simp only [accepted, inFlight, hidle, SendPc.pending, List.append_nil, List.append_assoc]

theorem SendingInv.step (hI : SendingInv size client) {a : ClientAct}
    (hs : clientStep client a = some client') : SendingInv size client' := by
  refine ⟨fun video => (clientStep_lane hI.lane hs video).1, fun video => ?_, fun video => ?_⟩
  · have haccepted := hI.accepted video
    cases (clientStep_lane hI.lane hs video).2 with
    | called rtp hv hidle hl =>
      rw [hl, ClientLane.accepted_call hidle]
      exact haccepted.append (List.Sublist.refl _)
    | moved hmove => exact hmove.called ▸ hmove.sublist.trans haccepted
    | same hl => exact hl ▸ haccepted
  · have hkind := hI.kind video
    cases (clientStep_lane hI.lane hs video).2 with
    | called rtp hv hidle hl =>
      rw [hl]
      exact List.forall_mem_append.mpr ⟨hkind, List.forall_mem_singleton.mpr hv⟩
    | moved hmove => exact hmove.called ▸ hkind
    | same hl => exact hl ▸ hkind

theorem lane_start (hs : (sendingSystem size h).start client) (video : Bool) :
    (client.lane video).Inv (size video) ∧ (client.lane video).called = [] ∧
      (client.lane video).accepted = [] := by
  obtain ⟨rings, hrings, rfl⟩ := hs
  refine ⟨⟨RingItems.inv_init (h video) (hrings video) _, fun i hi => ?_, fun i hi => ?_⟩, rfl, ?_⟩
  · exact absurd hi (by simp [ClientLane.init, SendPc.slot])
  · exact absurd hi (by simp [ClientLane.init, LanePc.slot])
  · simp only [ClientLane.accepted, ClientLane.inFlight, ClientLane.init, LanePc.pending,
      SendPc.pending, RingItems.queued_init (h video) (hrings video), List.map_nil,
      List.append_nil]

theorem sendingInv_of_reach {ok : SendingClient → ClientAct → Prop}
    (hr : (sendingSystem size h).ReachVia ok client) : SendingInv size client := by
  refine hr.inv (fun client hs => ?_) fun client client' a hI _ hst => hI.step hst
  refine ⟨fun video => (lane_start hs video).1, fun video => ?_, fun video => ?_⟩
  · rw [(lane_start hs video).2.2]
    exact List.nil_sublist _
  · rw [(lane_start hs video).2.1]
    exact List.forall_mem_nil _

/-- **What is relayed was sent, in order.**  Whatever the plugin and the client's threads do: the
datagrams that are relayed from a ring and those still on their way are, in order and each once,
among those that the plugin has sent for it; and every packet has the bytes of its datagram and the
stream of its kind. -/
theorem relayed_in_order (hr : (sendingSystem size h).Reach client) (video : Bool) :
    ((client.lane video).relayed.map Prod.fst ++ (client.lane video).inFlight).Sublist
        (client.lane video).called ∧
      (∀ r ∈ (client.lane video).relayed, relayedRtp r.1 r.2 =
        { video := video, buffer := r.1.datagram, length := r.1.used,
          mindex := if video then 0 else 1,
          videoRotation := if video then videoRotation r.2 else none }) ∧
      (client.lane video).ring.ring.aborted = false := by
  have hI := sendingInv_of_reach hr
  refine ⟨hI.accepted video, fun r hmem => ?_, (hI.lane video).ring.not_aborted⟩
  have hkind : r.1.video = video := by
    refine hI.kind video r.1 ((hI.accepted video).subset ?_)
    exact List.mem_append_left _ (List.mem_map_of_mem hmem)
  rw [relayedRtp, hkind]

/-- **Nothing is lost on the way** in a run whose steps drop nothing. -/
theorem accepted_eq_called (hr : (sendingSystem size h).ReachVia DropsNothing client)
    (video : Bool) :
    (client.lane video).relayed.map Prod.fst ++ (client.lane video).inFlight
      = (client.lane video).called := by
  refine System.ReachVia.inv_of (I := fun client => (client.lane video).accepted
    = (client.lane video).called) (fun _ hr => sendingInv_of_reach hr) ?_ ?_ hr
  · intro client hs
    rw [(lane_start hs video).2.1, (lane_start hs video).2.2]
  · intro client client' a hI hall hok hst
    cases (clientStep_lane hI.lane hst video).2 with
    | called rtp hv hidle hl => rw [hl, ClientLane.accepted_call hidle, hall]
    | moved hmove => rw [hmove.kept hok, hmove.called, hall]
    | same hl => rw [hl, hall]

end Runs

theorem usRingInit_one_isSome : (usRingInit 1 Nat.one_pos).isSome = true := rfl

/-- A client with rings of one item. -/
def freshClient : SendingClient where
  transmit := false
  transmitAcap := false
  videoOrient := 0
  stop := false
  lane _ := ClientLane.init ((usRingInit 1 Nat.one_pos).get usRingInit_one_isSome)

theorem freshClient_start :
    (sendingSystem (fun _ => 1) fun _ => Nat.one_pos).start freshClient :=
  ⟨fun _ => (usRingInit 1 Nat.one_pos).get usRingInit_one_isSome,
    fun _ => (Option.some_get _).symm, rfl⟩

/-- A datagram from the plugin's call until the thread is about to relay it. -/
def sendActs (rtp : UsRtp) : List ClientAct :=
  [.setTransmit true, .call rtp, .send true, .send true, .send true, .send true,
    .thread true false, .thread true false, .thread true false, .thread true false,
    .thread true false]

/-- A datagram goes all the way. -/
theorem exists_relayed (rtp : UsRtp) (hvideo : rtp.video = true) :
    ∃ client, (sendingSystem (fun _ => 1) fun _ => Nat.one_pos).ReachVia DropsNothing client ∧
      (client.lane true).called = [rtp] ∧ (client.lane true).relayed = [(rtp, 0)] ∧
      (client.lane true).inFlight = [] := by
  obtain ⟨payload, video, ssrc, seq, datagram, used, zeroPlayoutDelay, hlength⟩ := rtp
  subst hvideo
  have hexec : ((sendingSystem (fun _ => 1) fun _ => Nat.one_pos).execVia DropsNothing freshClient
      (sendActs ⟨payload, true, ssrc, seq, datagram, used, zeroPlayoutDelay, hlength⟩
        ++ [.thread true false])).map (fun client => ((client.lane true).called,
          (client.lane true).relayed, (client.lane true).inFlight))
      = some ([_], [(_, 0)], []) := rfl
  obtain ⟨client, hexec, hlane⟩ := Option.map_eq_some_iff.mp hexec
  simp only [Prod.mk.injEq] at hlane
  obtain ⟨hcalled, hrelayed, hempty⟩ := hlane
  exact ⟨client, System.ReachVia.execVia _ (.start freshClient_start) hexec, hcalled, hrelayed,
    hempty⟩

theorem relayed_in_order_one : ∃ client : SendingClient, ∃ rtp : UsRtp,
    (client.lane true).relayed = [(rtp, 0)] ∧
      [rtp].Sublist (client.lane true).called ∧ (relayedRtp rtp 0).mindex = 0 := by
  obtain ⟨client, hr, -, hrelayed, hempty⟩ :=
    exists_relayed (UsRtp.init.assign usRtpH264Payload true 7) rfl
  obtain ⟨horder, hpackets, -⟩ := relayed_in_order hr.reach true
  rw [hrelayed] at horder hpackets
  rw [hempty] at horder
  exact ⟨client, _, hrelayed, horder,
    congrArg RelayedRtp.mindex (hpackets _ (List.mem_singleton_self _))⟩

/-! ## 5. After a hangup -/

section Runs

variable {size : Bool → Nat} {h : ∀ video, 0 < size video} {client client' : SendingClient}

/-- The datagram for which the thread has passed its test of `transmit`. -/
def LanePc.committed : LanePc → List UsRtp
  | .transmitAcap rtp | .relay rtp => [rtp]
  | _ => []

/-- What the thread has relayed, and may relay without looking at `transmit` again. -/
def ClientLane.committed (l : ClientLane) : List UsRtp :=
  l.relayed.map Prod.fst ++ l.thread.committed

/-- The thread relays at most what it is committed to, and takes on nothing more. -/
structure ClientLane.WindsDown (l l' : ClientLane) : Prop where
  relayed : l.relayed <+: l'.relayed
  committed : l'.committed <+: l.committed

namespace ClientLane.WindsDown

variable {l l' l'' : ClientLane}

theorem refl (l : ClientLane) : WindsDown l l := ⟨List.prefix_rfl, List.prefix_rfl⟩

theorem trans (h : WindsDown l l') (h' : WindsDown l' l'') : WindsDown l l'' :=
  ⟨h.relayed.trans h'.relayed, h'.committed.trans h.committed⟩

/-- Nothing is relayed. -/
theorem of_eq (hrelayed : l'.relayed = l.relayed)
    (hcommitted : l'.thread.committed <+: l.thread.committed) : WindsDown l l' := by
  refine ⟨hrelayed ▸ List.prefix_rfl, ?_⟩
  unfold ClientLane.committed
  rw [hrelayed]
  exact (List.prefix_append_right_inj _).mpr hcommitted

/-- One datagram more at most, the one that the thread was committed to. -/
theorem relayed_eq (h : WindsDown l l') : l'.relayed = l.relayed ∨ ∃ rtp videoOrient,
    l.thread.committed = [rtp] ∧ l'.relayed = l.relayed ++ [(rtp, videoOrient)] := by
  obtain ⟨more, hmore⟩ := h.relayed
  have hprefix : more.map Prod.fst <+: l.thread.committed := by
    have hcommitted := h.committed
    unfold ClientLane.committed at hcommitted
    rw [← hmore, List.map_append, List.append_assoc, List.prefix_append_right_inj] at hcommitted
    exact (List.prefix_append _ _).trans hcommitted
  cases more with
  | nil => exact .inl (by rw [← hmore, List.append_nil])
  | cons r more =>
    have hone : ∀ rtp, l.thread.committed = [rtp] → r.1 = rtp ∧ more = [] := by
      intro rtp hrtp
      rw [hrtp, List.map_cons, List.cons_prefix_cons, List.prefix_nil, List.map_eq_nil_iff]
        at hprefix
      exact hprefix
    have hsome : ∃ rtp, l.thread.committed = [rtp] := by
      cases hpc : l.thread with
      | transmitAcap rtp => exact ⟨rtp, rfl⟩
      | relay rtp => exact ⟨rtp, rfl⟩
      | _ =>
        rw [hpc] at hprefix
        exact absurd (List.prefix_nil.mp hprefix) (by simp)
    obtain ⟨rtp, hrtp⟩ := hsome
    obtain ⟨rfl, rfl⟩ := hone rtp hrtp
    exact .inr ⟨r.1, r.2, hrtp, hmore.symm⟩

end ClientLane.WindsDown

theorem windsDown_sendStep {l l' : ClientLane} (hs : l.sendStep client = some l') :
    l.WindsDown l' := by
  have hsame : ∀ {ring : RingItems LaneEnd UsRtp} {send : SendPc},
      l.WindsDown { l with ring := ring, send := send } := .of_eq rfl List.prefix_rfl
  unfold ClientLane.sendStep at hs
  split at hs
  case h_1 => exact absurd hs (by simp)
  case h_2 => split at hs <;> exact Option.some.inj hs ▸ hsame
  case h_3 => exact Option.some.inj hs ▸ hsame
  case h_4 => split at hs <;> exact Option.some.inj hs ▸ hsame
  case h_5 => exact Option.some.inj hs ▸ hsame
  case h_6 =>
    obtain ⟨ring, -, rfl⟩ := Option.map_eq_some_iff.mp hs
    exact hsame

/-- The thread does not pass its test of `transmit` while that is not set. -/
theorem windsDown_threadStep {l l' : ClientLane} {video timedOut : Bool}
    (hoff : client.transmit = false) (hs : l.threadStep client video timedOut = some l') :
    l.WindsDown l' := by
  -- away from the test, with nothing in hand for which it has been passed
  have hnone : ∀ {ring : RingItems LaneEnd UsRtp} {pc : LanePc}, pc.committed = [] →
      l.WindsDown { l with ring := ring, thread := pc } :=
    fun hpc => .of_eq rfl (hpc ▸ List.nil_prefix)
  unfold ClientLane.threadStep at hs
  split at hs
  case h_1 =>
    obtain rfl := Option.some.inj hs
    exact hnone (by split <;> rfl)
  case h_2 =>
    split at hs
    · exact Option.some.inj hs ▸ hnone rfl
    · split at hs <;> exact Option.some.inj hs ▸ hnone rfl
  case h_3 => exact Option.some.inj hs ▸ hnone rfl
  case h_4 =>
    obtain ⟨ring, -, rfl⟩ := Option.map_eq_some_iff.mp hs
    exact hnone rfl
  case h_5 =>
    rw [hoff, if_neg Bool.false_ne_true] at hs
    exact Option.some.inj hs ▸ hnone rfl
  case h_6 rtp hpc =>
    obtain rfl := Option.some.inj hs
    refine .of_eq rfl ?_
    rw [hpc]
    dsimp only
    split
    · exact List.prefix_rfl
    · exact List.nil_prefix
  case h_7 rtp hpc =>
    obtain rfl := Option.some.inj hs
    have hcommitted : ClientLane.committed { l with
        relayed := l.relayed ++ [(rtp, client.videoOrient)], thread := .top } = l.committed := by
      simp only [ClientLane.committed, hpc, LanePc.committed, List.map_append, List.map_cons,
        List.map_nil, List.append_nil]
    exact ⟨List.prefix_append _ _, hcommitted ▸ List.prefix_rfl⟩
  case h_8 => exact absurd hs (by simp)

/-- A step of a client whose `transmit` is not set, and stays so. -/
abbrev HungUp (client : SendingClient) (a : ClientAct) : Prop :=
  client.transmit = false ∧ a ≠ .setTransmit true

theorem windsDown_clientStep {a : ClientAct} (hoff : HungUp client a)
    (hs : clientStep client a = some client') (video : Bool) :
    (client.lane video).WindsDown (client'.lane video) := by
  have hlane : ∀ v l, client' = client.setLane v l → (client.lane v).WindsDown l →
      (client.lane video).WindsDown (client'.lane video) := by
    rintro v l rfl hdown
    by_cases hv : v = video
    · subst hv
      rw [SendingClient.setLane_self]
      exact hdown
    · rw [SendingClient.setLane_of_ne client hv]
      exact .refl _
  cases a with
  | call rtp =>
    dsimp only [clientStep] at hs
    split at hs
    · exact hlane _ _ (Option.some.inj hs).symm (.of_eq rfl List.prefix_rfl)
    · exact absurd hs (by simp)
  | send v =>
    obtain ⟨l, hl, hs⟩ := Option.map_eq_some_iff.mp hs
    exact hlane v l hs.symm (windsDown_sendStep hl)
  | thread v timedOut =>
    obtain ⟨l, hl, hs⟩ := Option.map_eq_some_iff.mp hs
    exact hlane v l hs.symm (windsDown_threadStep hoff.1 hl)
  | setTransmit b => exact Option.some.inj hs ▸ .refl _
  | setWatch transmitAcap videoOrient => exact Option.some.inj hs ▸ .refl _
  | stop => exact Option.some.inj hs ▸ .refl _

/-- **After a hangup** a lane relays nothing more, or one datagram: the one that its thread had in
its hands and had tested `transmit` for.  So it stays until `transmit` is set again. -/
theorem relayed_after_hangup (hrun : (sendingSystem size h).Leads HungUp client client')
    (video : Bool) :
    (client'.lane video).relayed = (client.lane video).relayed ∨
      ∃ rtp videoOrient, ((client.lane video).thread = .transmitAcap rtp ∨
          (client.lane video).thread = .relay rtp) ∧
        (client'.lane video).relayed
          = (client.lane video).relayed ++ [(rtp, videoOrient)] := by
  have hdown : (client.lane video).WindsDown (client'.lane video) := by
    refine hrun.inv (I := fun c => (client.lane video).WindsDown (c.lane video))
      (fun c c' a hc hok hst => hc.trans (windsDown_clientStep hok hst video)) (.refl _)
  rcases hdown.relayed_eq with hsame | ⟨rtp, videoOrient, hrtp, hmore⟩
  · exact .inl hsame
  · refine .inr ⟨rtp, videoOrient, ?_, hmore⟩
    unfold LanePc.committed at hrtp
    split at hrtp
    · rename_i hpc
      obtain rfl := List.singleton_inj.mp hrtp
      exact .inl hpc
    · rename_i hpc
      obtain rfl := List.singleton_inj.mp hrtp
      exact .inr hpc
    · cases hrtp

end Runs

/-- The thread has the datagram in its hands when the client is hung up, and relays it. -/
theorem relayed_after_hangup_one : ∃ client client' : SendingClient, ∃ rtp : UsRtp,
    client.transmit = false ∧ (client.lane true).thread = .relay rtp ∧
      (client'.lane true).relayed = (client.lane true).relayed ++ [(rtp, 0)] := by
  let rtp := UsRtp.init.assign usRtpH264Payload true 7
  let M := sendingSystem (fun _ => 1) fun _ => Nat.one_pos
  have hexec : (M.exec freshClient (sendActs rtp ++ [.setTransmit false])).isSome = true := rfl
  let client := (M.exec freshClient (sendActs rtp ++ [.setTransmit false])).get hexec
  have hstep : (M.step client (.thread true false)).isSome = true := rfl
  let client' := (M.step client (.thread true false)).get hstep
  have hrun : M.Leads HungUp client client' :=
    .tail .refl ⟨.thread true false, ⟨rfl, by simp⟩, (Option.some_get hstep).symm⟩
  have hthread : (client.lane true).thread = .relay rtp := rfl
  have hlength : (client'.lane true).relayed.length = 1 := rfl
  have hnothing : (client.lane true).relayed = [] := rfl
  have hlast : (client'.lane true).relayed.map Prod.snd = [0] := rfl
  refine ⟨client, client', rtp, rfl, hthread, ?_⟩
  rcases relayed_after_hangup hrun true with hsame | ⟨rtp', videoOrient, hpc, hmore⟩
  · rw [hsame, hnothing] at hlength
    cases hlength
  · rw [hthread] at hpc
    rw [hmore, hnothing] at hlast
    obtain rfl : videoOrient = 0 := List.singleton_inj.mp hlast
    rcases hpc with hpc | hpc
    · cases hpc
    · obtain rfl := LanePc.relay.inj hpc
      exact hmore

end TinyPilotKvm
