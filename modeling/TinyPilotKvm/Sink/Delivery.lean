/-
# What the clients of a sink receive

The history of a sink is kept beside its state: the puts that were stored, in order, and for
each of the library's clients the POSITIONS in that list of the puts it has received.  The
position of a successful get is that of the latest put, so

* "the data, length and metadata of the most recent put" compares the frame returned with the
  last entry of the list (`memsink_delivery`, first part);
* "never the same put twice, never an older put after a newer one" says that the positions a
  client has received increase strictly (second part).

A put counts as soon as it has rewritten the region, whether or not its unlock succeeds.
The clients decide by comparing ids.  If two puts share an id a client may miss the
second of them, and none of the statements is about that: the proof nowhere needs
the ids to be distinct.
-/
import TinyPilotKvm.Sink.System

namespace TinyPilotKvm

/-! ## 1. The history -/

/-- A put that was stored: its id and its picture. -/
structure StoredPut where
  id : UInt64
  bytes : List UInt8
  info : FrameMeta

/-- The picture in the region, as a put. -/
def UsMemsinkShared.asPut (mem : UsMemsinkShared) : StoredPut :=
  ⟨mem.id, mem.bytes, mem.toFrameMeta⟩

/-- The frame holds exactly the data, the length and the metadata of the put. -/
structure CopyOf (put : StoredPut) (frame : UsFrame) : Prop where
  bytes : frame.bytes = put.bytes
  used : frame.used = put.bytes.length
  info : frame.toFrameMeta = put.info

structure SinkHistory where
  state : SinkState
  /-- The stored puts, oldest first. -/
  puts : List StoredPut
  /-- The positions in `puts` of what each library client has received, oldest first. -/
  received : Nat → List Nat

/-- The puts after an event. -/
def putsAfter (h : SinkHistory) : SinkAct → List StoredPut
  | .serverPut frame lock _ id =>
    if PutStores h.state.server frame lock then
      h.puts ++ [⟨id, frame.bytes, frame.toFrameMeta⟩]
    else h.puts
  | .serverCheck _ _ _ => h.puts
  | .poll _ _ _ _ _ => h.puts

/-- The receipts after an event: a get of the library's client that returns 0 has received
the latest put. -/
def receivedAfter (h : SinkHistory) (now : ℚ) : SinkAct → Nat → List Nat
  | .serverPut _ _ _ _ => h.received
  | .serverCheck _ _ _ => h.received
  | .poll c keyRequired lock unlocked _ =>
    match h.state.clients c with
    | .libs sink frame =>
      if (usMemsinkClientGet sink h.state.mem frame keyRequired lock unlocked now).ret = 0 then
        Function.update h.received c (h.received c ++ [h.puts.length - 1])
      else h.received
    | .janus _ _ => h.received
    | .python _ => h.received

def historyAfter (h : SinkHistory) (e : SinkEvent) : SinkHistory where
  state := sinkAfter h.state e
  puts := putsAfter h e.act
  received := receivedAfter h e.now e.act

/-- The sink with its history.  A region that is initialised at the start holds the last put of
an earlier server. -/
def deliverySystem : System SinkHistory SinkEvent where
  start h :=
    h.state.mem.data.length = h.state.server.dataSize ∧
      h.state.mem.used ≤ h.state.server.dataSize ∧
      h.puts = (if h.state.mem.Initialised then [h.state.mem.asPut] else []) ∧
      h.received = fun _ => []
  step h e := if h.state.clock ≤ e.now then some (historyAfter h e) else none

/-! ## 2. What a get returns -/

/-- A get that returns 0 has found an id it had not read, on an initialised region, has
copied the picture and remembers the id. -/
theorem clientGet_ret_zero {sink : UsMemsink} {mem : UsMemsinkShared} {frame : UsFrame}
    {keyRequired : Bool} {lock : Flock} {unlocked : Bool} {now : ℚ}
    (h : (usMemsinkClientGet sink mem frame keyRequired lock unlocked now).ret = 0) :
    mem.Initialised ∧ mem.id ≠ sink.lastReadedId ∧
      (usMemsinkClientGet sink mem frame keyRequired lock unlocked now).frame
        = (usFrameSetData frame mem.data mem.used).copyMeta mem.toFrameMeta ∧
      (usMemsinkClientGet sink mem frame keyRequired lock unlocked now).sink.lastReadedId
        = mem.id := by
  -- an early exit returns an error of its own, or -1 after a failed unlock
  have hearly : ∀ r : Int, r ≠ 0 → (if unlocked then r else -1) ≠ 0 := by
    intro r hr
    cases unlocked with
    | false => simp
    | true => simpa using hr
  unfold usMemsinkClientGet at h ⊢
  cases lock with
  | wouldBlock => exact absurd h (by simp [usErrorNoData])
  | failed => exact absurd h (by simp)
  | taken =>
    dsimp only at h ⊢
    split at h
    · exact absurd h (hearly _ (by decide))
    · rename_i hmagic
      split at h
      · exact absurd h (hearly _ (by decide))
      · rename_i hversion
        split at h
        · exact absurd h (hearly _ (by decide))
        · rename_i hid
          rw [if_neg hmagic, if_neg hversion, if_neg hid]
          exact ⟨⟨not_not.mp hmagic, not_not.mp hversion⟩, hid, rfl, rfl⟩

/-- Whatever a get returns, it remembers the id it had or the id in the region. -/
theorem clientGet_lastReadedId (sink : UsMemsink) (mem : UsMemsinkShared) (frame : UsFrame)
    (keyRequired : Bool) (lock : Flock) (unlocked : Bool) (now : ℚ) :
    (usMemsinkClientGet sink mem frame keyRequired lock unlocked now).sink.lastReadedId
        = sink.lastReadedId ∨
      mem.Initialised ∧
        (usMemsinkClientGet sink mem frame keyRequired lock unlocked now).sink.lastReadedId
          = mem.id := by
  unfold usMemsinkClientGet
  cases lock with
  | wouldBlock => exact Or.inl rfl
  | failed => exact Or.inl rfl
  | taken =>
    dsimp only
    split
    · exact Or.inl rfl
    · rename_i hmagic
      split
      · exact Or.inl rfl
      · rename_i hversion
        split
        · exact Or.inl rfl
        · exact Or.inr ⟨⟨not_not.mp hmagic, not_not.mp hversion⟩, rfl⟩

/-! ## 3. The invariant -/

structure DeliveryInv (h : SinkHistory) : Prop where
  room : h.state.mem.data.length = h.state.server.dataSize
  fits : h.state.mem.used ≤ h.state.server.dataSize
  /-- The region holds the latest put. -/
  latest : h.state.mem.Initialised → h.puts.getLast? = some h.state.mem.asPut
  /-- Each client receives ever newer puts. -/
  ordered : ∀ c, (h.received c).Pairwise (· < ·)
  /-- The id a client remembers is that of a put at or after every put it has received. -/
  remembered : ∀ c sink frame, h.state.clients c = .libs sink frame → ∀ k ∈ h.received c,
    ∃ j put, k ≤ j ∧ h.puts[j]? = some put ∧ put.id = sink.lastReadedId

/-- An event that is not before the clock happens. -/
theorem deliverySystem_step {h : SinkHistory} {e : SinkEvent} (he : h.state.clock ≤ e.now) :
    deliverySystem.step h e = some (historyAfter h e) := by
  simp only [deliverySystem, if_pos he]

theorem deliveryInv_start {h : SinkHistory} (hs : deliverySystem.start h) : DeliveryInv h := by
  obtain ⟨hroom, hfits, hputs, hrec⟩ := hs
  refine ⟨hroom, hfits, fun hinit => ?_, fun c => ?_, fun c sink frame _ k hk => ?_⟩
  · rw [hputs, if_pos hinit]
    rfl
  · rw [hrec]
    exact List.Pairwise.nil
  · rw [hrec] at hk
    exact absurd hk (by simp)

namespace DeliveryInv

variable {h : SinkHistory}

/-- A server check changes nothing the invariant looks at, the data size included. -/
theorem check (hI : DeliveryInv h) (frame : Option UsFrame) (lock : Flock) (unlocked : Bool)
    (now : ℚ) : DeliveryInv (historyAfter h ⟨now, .serverCheck frame lock unlocked⟩) := by
  have hsize : (usMemsinkServerCheck h.state.server h.state.mem frame lock unlocked now).2.dataSize
      = h.state.server.dataSize := by
    unfold usMemsinkServerCheck
    split
    · rfl
    · split
      · rfl
      · cases lock with
        | wouldBlock => rfl
        | failed => rfl
        | taken =>
          dsimp only
          split
          · rfl
          · split
            · rfl
            · cases frame <;> rfl
  exact ⟨hI.room.trans hsize.symm, hI.fits.trans_eq hsize.symm, hI.latest, hI.ordered,
    hI.remembered⟩

theorem put_dataSize (sink : UsMemsink) (mem : UsMemsinkShared) (frame : UsFrame) (lock : Flock)
    (unlocked : Bool) (id : UInt64) (now : ℚ) :
    (usMemsinkServerPut sink mem frame lock unlocked id now).sink.dataSize = sink.dataSize := by
  unfold usMemsinkServerPut
  split
  · rfl
  · cases lock <;> rfl

/-- A stored put becomes the latest one; a refused put changes nothing. -/
theorem put (hI : DeliveryInv h) (frame : UsFrame) (lock : Flock) (unlocked : Bool) (id : UInt64)
    (now : ℚ) : DeliveryInv (historyAfter h ⟨now, .serverPut frame lock unlocked id⟩) := by
  have hsize := put_dataSize h.state.server h.state.mem frame lock unlocked id now
  by_cases hst : PutStores h.state.server frame lock
  · obtain ⟨-, hid, hused, hinfo, -, hdata⟩ := put_stored hst h.state.mem unlocked id now
    have hlen : frame.bytes.length = frame.used := by
      simpa [UsFrame.bytes] using frame.used_le
    have hbytes :
        (usMemsinkServerPut h.state.server h.state.mem frame lock unlocked id now).mem.bytes
          = frame.bytes := by
      rw [UsMemsinkShared.bytes, hused, hdata, ← hlen, take_writeBytes]
    refine ⟨?_, ?_, fun _ => ?_, hI.ordered, ?_⟩
    · show (usMemsinkServerPut _ _ _ _ _ _ _).mem.data.length
        = (usMemsinkServerPut _ _ _ _ _ _ _).sink.dataSize
      rw [hsize, hdata, writeBytes_length (by rw [hlen, hI.room]; exact hst.1), hI.room]
    · show (usMemsinkServerPut _ _ _ _ _ _ _).mem.used
        ≤ (usMemsinkServerPut _ _ _ _ _ _ _).sink.dataSize
      rw [hsize, hused]
      exact hst.1
    · show (putsAfter h (.serverPut frame lock unlocked id)).getLast?
        = some (usMemsinkServerPut _ _ _ _ _ _ _).mem.asPut
      simp only [putsAfter, if_pos hst, List.getLast?_append, List.getLast?_singleton,
        UsMemsinkShared.asPut, hid, hbytes, hinfo, Option.some_or]
    · intro c sink frame' hc k hk
      obtain ⟨j, p, hkj, hp, hpid⟩ := hI.remembered c sink frame' hc k hk
      refine ⟨j, p, hkj, ?_, hpid⟩
      have hj : j < h.puts.length := (List.getElem?_eq_some_iff.mp hp).1
      simp only [historyAfter, putsAfter, if_pos hst]
      rw [List.getElem?_append_left hj, hp]
  · have hmem : (sinkAct h.state now (.serverPut frame lock unlocked id)).mem = h.state.mem :=
      put_refused hst
    have hputs : putsAfter h (.serverPut frame lock unlocked id) = h.puts := if_neg hst
    refine ⟨?_, ?_, fun hinit => ?_, hI.ordered, ?_⟩
    · rw [historyAfter, mem_sinkAfter, hmem, hI.room]
      exact hsize.symm
    · rw [historyAfter, mem_sinkAfter, hmem]
      exact hI.fits.trans_eq hsize.symm
    · simp only [historyAfter, mem_sinkAfter, hmem, hputs] at hinit ⊢
      exact hI.latest hinit
    · simp only [historyAfter, hputs]
      exact hI.remembered

/-- The latest put is the last of the list. -/
theorem latest_getElem (hI : DeliveryInv h) (hinit : h.state.mem.Initialised) :
    h.puts[h.puts.length - 1]? = some h.state.mem.asPut := by
  rw [← List.getLast?_eq_getElem?]
  exact hI.latest hinit

/-- What a client has received is among the puts. -/
theorem received_lt (hI : DeliveryInv h) {c : Nat} {sink : UsMemsink} {frame : UsFrame}
    (hc : h.state.clients c = .libs sink frame) {k : Nat} (hk : k ∈ h.received c) :
    k < h.puts.length := by
  obtain ⟨j, p, hkj, hp, -⟩ := hI.remembered c sink frame hc k hk
  exact lt_of_le_of_lt hkj (List.getElem?_eq_some_iff.mp hp).1

/-- **A new id is a newer put.**  If the region's id is not the one the client remembers, then the
latest put comes after everything the client has received. -/
theorem received_lt_latest (hI : DeliveryInv h) {c : Nat} {sink : UsMemsink} {frame : UsFrame}
    (hc : h.state.clients c = .libs sink frame) (hinit : h.state.mem.Initialised)
    (hid : h.state.mem.id ≠ sink.lastReadedId) {k : Nat} (hk : k ∈ h.received c) :
    k < h.puts.length - 1 := by
  obtain ⟨j, p, hkj, hp, hpid⟩ := hI.remembered c sink frame hc k hk
  have hj : j < h.puts.length := (List.getElem?_eq_some_iff.mp hp).1
  have hne : j ≠ h.puts.length - 1 := by
    rintro rfl
    rw [hI.latest_getElem hinit, Option.some.injEq] at hp
    exact hid (by rw [← hpid, ← hp]; rfl)
  omega

/-- The parts of the invariant that no poll touches. -/
theorem poll_region (hI : DeliveryInv h) (c : Nat) (keyRequired : Bool) (lock : Flock)
    (unlocked slept : Bool) (now : ℚ) :
    let mem' := (sinkAct h.state now (.poll c keyRequired lock unlocked slept)).mem
    mem'.data.length = h.state.server.dataSize ∧ mem'.used ≤ h.state.server.dataSize ∧
      (mem'.Initialised → h.puts.getLast? = some mem'.asPut) := by
  have hsame := poll_samePicture (h.state.clients c) h.state.mem keyRequired lock unlocked slept now
  refine ⟨?_, ?_, fun hinit => ?_⟩
  · exact (congrArg List.length hsame.data).trans hI.room
  · exact hsame.used.le.trans hI.fits
  · have hasPut : (sinkAct h.state now (.poll c keyRequired lock unlocked slept)).mem.asPut
        = h.state.mem.asPut := by
      simp only [sinkAct, UsMemsinkShared.asPut, UsMemsinkShared.bytes, hsame.id, hsame.used,
        hsame.data, hsame.info]
    rw [hasPut]
    exact hI.latest (hsame.initialised.mp hinit)

/-- A poll of a library client. -/
theorem pollLibs (hI : DeliveryInv h) {c : Nat} {sink : UsMemsink} {frame : UsFrame}
    (hc : h.state.clients c = .libs sink frame) (keyRequired : Bool) (lock : Flock)
    (unlocked slept : Bool) (now : ℚ) :
    DeliveryInv (historyAfter h ⟨now, .poll c keyRequired lock unlocked slept⟩) := by
  obtain ⟨hroom, hfits, hlatest⟩ := hI.poll_region c keyRequired lock unlocked slept now
  have hclient : (sinkAct h.state now (.poll c keyRequired lock unlocked slept)).clients c
      = .libs (usMemsinkClientGet sink h.state.mem frame keyRequired lock unlocked now).sink
          (usMemsinkClientGet sink h.state.mem frame keyRequired lock unlocked now).frame := by
    simp only [sinkAct, Function.update_self, hc, pollClient]
  have hother : ∀ d, d ≠ c →
      (sinkAct h.state now (.poll c keyRequired lock unlocked slept)).clients d
        = h.state.clients d := fun d hd => Function.update_of_ne hd _ _
  -- the remembered id is at or after every old receipt, read or not
  have hold : ∀ k ∈ h.received c, ∃ j put, k ≤ j ∧ h.puts[j]? = some put ∧
      put.id = (usMemsinkClientGet sink h.state.mem frame keyRequired lock unlocked
        now).sink.lastReadedId := by
    intro k hk
    rcases clientGet_lastReadedId sink h.state.mem frame keyRequired lock unlocked now with
      hlast | ⟨hinit, hlast⟩
    · rw [hlast]
      exact hI.remembered c sink frame hc k hk
    · rw [hlast]
      have := hI.received_lt hc hk
      exact ⟨_, _, by omega, hI.latest_getElem hinit, rfl⟩
  by_cases hret : (usMemsinkClientGet sink h.state.mem frame keyRequired lock unlocked now).ret = 0
  · have hrec : receivedAfter h now (.poll c keyRequired lock unlocked slept)
        = Function.update h.received c (h.received c ++ [h.puts.length - 1]) := by
      simp only [receivedAfter, hc, if_pos hret]
    obtain ⟨hinit, hid, -, hlast⟩ := clientGet_ret_zero hret
    refine ⟨hroom, hfits, hlatest, fun d => ?_, fun d sink' frame' hd k hk => ?_⟩
    · simp only [historyAfter, hrec]
      by_cases hdc : d = c
      · subst hdc
        rw [Function.update_self]
        exact List.pairwise_append.mpr ⟨hI.ordered d, List.pairwise_singleton _ _,
          fun a ha b hb => List.mem_singleton.mp hb ▸ hI.received_lt_latest hc hinit hid ha⟩
      · rw [Function.update_of_ne hdc]
        exact hI.ordered d
    · simp only [historyAfter, hrec] at hk
      by_cases hdc : d = c
      · subst hdc
        simp only [historyAfter, clients_sinkAfter, hclient, SinkClient.libs.injEq] at hd
        obtain ⟨rfl, -⟩ := hd
        rw [Function.update_self, List.mem_append, List.mem_singleton] at hk
        rcases hk with hk | rfl
        · exact hold k hk
        · exact ⟨_, _, le_refl _, hI.latest_getElem hinit, hlast.symm⟩
      · rw [Function.update_of_ne hdc] at hk
        simp only [historyAfter, clients_sinkAfter, hother d hdc] at hd
        exact hI.remembered d sink' frame' hd k hk
  · have hrec : receivedAfter h now (.poll c keyRequired lock unlocked slept) = h.received := by
      simp only [receivedAfter, hc, if_neg hret]
    refine ⟨hroom, hfits, hlatest, fun d => ?_, fun d sink' frame' hd k hk => ?_⟩
    · simp only [historyAfter, hrec]
      exact hI.ordered d
    · simp only [historyAfter, hrec] at hk
      by_cases hdc : d = c
      · subst hdc
        simp only [historyAfter, clients_sinkAfter, hclient, SinkClient.libs.injEq] at hd
        obtain ⟨rfl, -⟩ := hd
        exact hold k hk
      · simp only [historyAfter, clients_sinkAfter, hother d hdc] at hd
        exact hI.remembered d sink' frame' hd k hk

/-- A client of another kind stays of that kind, and has no receipts to keep. -/
theorem pollOther (hI : DeliveryInv h) {c : Nat}
    (hc : ∀ sink frame, h.state.clients c ≠ .libs sink frame) (keyRequired : Bool) (lock : Flock)
    (unlocked slept : Bool) (now : ℚ) :
    DeliveryInv (historyAfter h ⟨now, .poll c keyRequired lock unlocked slept⟩) := by
  obtain ⟨hroom, hfits, hlatest⟩ := hI.poll_region c keyRequired lock unlocked slept now
  have hrec : receivedAfter h now (.poll c keyRequired lock unlocked slept) = h.received := by
    simp only [receivedAfter]
    cases hcl : h.state.clients c with
    | libs sink frame => exact absurd hcl (hc sink frame)
    | janus frameId frame => rfl
    | python self => rfl
  refine ⟨hroom, hfits, hlatest, fun d => ?_, fun d sink' frame' hd k hk => ?_⟩
  · simp only [historyAfter, hrec]
    exact hI.ordered d
  · simp only [historyAfter, hrec] at hk
    by_cases hdc : d = c
    · subst hdc
      simp only [historyAfter, clients_sinkAfter, sinkAct, Function.update_self] at hd
      cases hcl : h.state.clients d with
      | libs sink frame => exact absurd hcl (hc sink frame)
      | janus frameId frame =>
        rw [hcl, pollClient] at hd
        split at hd <;> exact absurd hd (by simp)
      | python self =>
        rw [hcl, pollClient] at hd
        split at hd <;> exact absurd hd (by simp)
    · simp only [historyAfter, clients_sinkAfter, sinkAct, Function.update_of_ne hdc] at hd
      exact hI.remembered d sink' frame' hd k hk

/-- **The step.**  Every event keeps the invariant. -/
theorem step (hI : DeliveryInv h) (e : SinkEvent) : DeliveryInv (historyAfter h e) := by
  obtain ⟨now, act⟩ := e
  cases act with
  | serverPut frame lock unlocked id => exact hI.put frame lock unlocked id now
  | serverCheck frame lock unlocked => exact hI.check frame lock unlocked now
  | poll c keyRequired lock unlocked slept =>
    cases hc : h.state.clients c with
    | libs sink frame => exact hI.pollLibs hc keyRequired lock unlocked slept now
    | janus frameId frame =>
      exact hI.pollOther (fun _ _ => by simp [hc]) keyRequired lock unlocked slept now
    | python self =>
      exact hI.pollOther (fun _ _ => by simp [hc]) keyRequired lock unlocked slept now

end DeliveryInv

/-- What a get copies out of the region is the put in it. -/
theorem DeliveryInv.copyOf_region {h : SinkHistory} (hI : DeliveryInv h) (frame : UsFrame) :
    CopyOf h.state.mem.asPut
      ((usFrameSetData frame h.state.mem.data h.state.mem.used).copyMeta
        h.state.mem.toFrameMeta) := by
  have hle : h.state.mem.used ≤ h.state.mem.data.length := hI.fits.trans_eq hI.room.symm
  have hbytes : readBytes h.state.mem.data h.state.mem.used = h.state.mem.bytes :=
    readBytes_eq_take hle
  refine ⟨?_, ?_, rfl⟩
  · rw [bytes_copyMeta, bytes_usFrameSetData, hbytes]
    rfl
  · rw [used_copyMeta, used_usFrameSetData]
    simp [UsMemsinkShared.asPut, UsMemsinkShared.bytes, hle]

theorem deliveryInv_of_reach {h : SinkHistory} (hr : deliverySystem.Reach h) : DeliveryInv h := by
  refine System.ReachVia.inv (fun _ hs => deliveryInv_start hs) ?_ hr
  intro h h' e hI _ hst
  simp only [deliverySystem] at hst
  split at hst
  · exact Option.some.inj hst ▸ hI.step e
  · exact absurd hst (by simp)

/-! ## 4. Delivery -/

/-- **Memory-sink delivery.**  In every state that any interleaving of puts, checks and polls
reaches: a get that returns 0 returns a copy of the latest put; every client has received ever
newer puts, so none twice and none out of order; the stored length fits the region; and a put that
is refused leaves the region as it was. -/
theorem memsink_delivery {h : SinkHistory} (hr : deliverySystem.Reach h) :
    (∀ (sink : UsMemsink) (frame : UsFrame) (keyRequired : Bool) (lock : Flock) (unlocked : Bool)
        (now : ℚ),
      (usMemsinkClientGet sink h.state.mem frame keyRequired lock unlocked now).ret = 0 →
        ∃ put, h.puts.getLast? = some put ∧
          CopyOf put
            (usMemsinkClientGet sink h.state.mem frame keyRequired lock unlocked now).frame) ∧
      (∀ c, (h.received c).Pairwise (· < ·)) ∧
      h.state.mem.used ≤ h.state.server.dataSize ∧
      ∀ (frame : UsFrame) (lock : Flock) (unlocked : Bool) (id : UInt64) (now : ℚ),
        ¬ PutStores h.state.server frame lock →
          (usMemsinkServerPut h.state.server h.state.mem frame lock unlocked id now).mem
            = h.state.mem := by
  have hI := deliveryInv_of_reach hr
  refine ⟨fun sink frame keyRequired lock unlocked now hret => ?_, hI.ordered, hI.fits,
    fun frame lock unlocked id now hst => put_refused hst⟩
  obtain ⟨hinit, -, hframe, -⟩ := clientGet_ret_zero hret
  exact ⟨_, hI.latest hinit, hframe ▸ hI.copyOf_region frame⟩

/-- A fresh region of two bytes and a library client. -/
def freshHistory : SinkHistory where
  state :=
    { mem := { FrameMeta.zero with
        magic := 0, version := 0, id := 0, used := 0,
        lastClientTs := 0, keyRequested := false, data := [0, 0] }
      server := ⟨2, 10, 0, false, 0⟩
      clients := fun _ => .libs ⟨2, 10, 0, false, 0⟩ usFrameInit
      clock := 0 }
  puts := []
  received := fun _ => []

/-- A put of two bytes and a get of them. -/
theorem memsink_delivery_once :
    ∃ h, deliverySystem.Reach h ∧ h.received 0 = [0] ∧ h.state.mem.used = 2 ∧
      h.state.mem.used ≤ h.state.server.dataSize := by
  have h0 : deliverySystem.Reach freshHistory := .start ⟨rfl, by decide, rfl, rfl⟩
  have h1 : deliverySystem.Reach (historyAfter freshHistory
      ⟨0, .serverPut (.ofBytes FrameMeta.zero [1, 2]) .taken true 7⟩) :=
    .step h0 trivial (deliverySystem_step (le_refl (0 : ℚ)))
  have h2 := h1.step trivial (deliverySystem_step (e := ⟨0, .poll 0 false .taken true true⟩)
    (le_refl (0 : ℚ)))
  exact ⟨_, h2, rfl, rfl, (memsink_delivery h2).2.2.1⟩

end TinyPilotKvm
