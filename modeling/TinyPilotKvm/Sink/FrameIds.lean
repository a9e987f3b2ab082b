/-
# The ids in a sink

A client takes the picture in the region for one that it has read if the ids are the same, and
begins with the id 0, which is the mark of no id.  The server's ids are made of the clock
(`us_get_now_id`), so that none of them is that mark: whatever has been put, a client that has read
nothing finds it new.
-/
import TinyPilotKvm.Libs.Ids
import TinyPilotKvm.Sink.Delivery

namespace TinyPilotKvm

/-! ## 1. Ids of the clock -/

/-- An id that the clock gives. -/
def ClockId (id : UInt64) : Prop := ∃ ts, id = usGetNowId (usGetNowMonotonicU64 ts)

theorem ClockId.ne_zero {id : UInt64} (h : ClockId id) : id ≠ 0 := by
  obtain ⟨ts, rfl⟩ := h
  exact usGetNowId_ne_zero _

/-- A put has its id from the clock; the other events have none. -/
def ClockedEvent (_ : SinkHistory) (e : SinkEvent) : Prop :=
  match e.act with
  | .serverPut _ _ _ id => ClockId id
  | .serverCheck _ _ _ => True
  | .poll _ _ _ _ _ => True

/-- The sink whose region holds nothing yet, or a put of an earlier server with such an id. -/
def clockedSink : System SinkHistory SinkEvent where
  start h := deliverySystem.start h ∧ ∀ put ∈ h.puts, ClockId put.id
  step := deliverySystem.step

/-- Every put has an id of the clock, and what has been put is in the region. -/
structure ClockedInv (h : SinkHistory) : Prop where
  clocked : ∀ put ∈ h.puts, ClockId put.id
  written : h.puts ≠ [] → h.state.mem.Initialised

variable {h : SinkHistory}

theorem reach_of_clocked (hr : clockedSink.ReachVia ClockedEvent h) : deliverySystem.Reach h := by
  induction hr with
  | start hs => exact .start hs.1
  | step _ _ hst ih => exact ih.step trivial hst

theorem ClockedInv.step (hI : ClockedInv h) {e : SinkEvent} (he : ClockedEvent h e) :
    ClockedInv (historyAfter h e) := by
  obtain ⟨now, act⟩ := e
  cases act with
  | serverPut frame lock unlocked id =>
    by_cases hst : PutStores h.state.server frame lock
    · refine ⟨fun put hput => ?_, fun _ => (put_stored hst h.state.mem unlocked id now).1⟩
      simp only [historyAfter, putsAfter, if_pos hst, List.mem_append, List.mem_singleton] at hput
      rcases hput with hput | rfl
      · exact hI.clocked put hput
      · exact he
    · have hputs : (historyAfter h ⟨now, .serverPut frame lock unlocked id⟩).puts = h.puts :=
        if_neg hst
      refine ⟨fun put hput => hI.clocked put (hputs ▸ hput), fun hne => ?_⟩
      exact sinkAct_initialised (hI.written (hputs ▸ hne)) now _
  | serverCheck frame lock unlocked => exact ⟨hI.clocked, hI.written⟩
  | poll c keyRequired lock unlocked slept =>
    exact ⟨hI.clocked, fun hne => sinkAct_initialised (hI.written hne) now _⟩

theorem clockedInv_start (hs : clockedSink.start h) : ClockedInv h := by
  obtain ⟨⟨-, -, hputs, -⟩, hclocked⟩ := hs
  refine ⟨hclocked, fun hne => ?_⟩
  by_contra hinit
  rw [hputs, if_neg hinit] at hne
  exact hne rfl

theorem clockedInv_of_reach (hr : clockedSink.ReachVia ClockedEvent h) : ClockedInv h := by
  refine System.ReachVia.inv (fun _ hs => clockedInv_start hs) ?_ hr
  intro h h' e hI he hst
  simp only [clockedSink, deliverySystem] at hst
  split at hst
  · exact Option.some.inj hst ▸ hI.step he
  · exact absurd hst (by simp)

/-! ## 2. A client that has read nothing -/

/-- The end of a get that takes what is in the region for new. -/
theorem clientGet_of_new {sink : UsMemsink} {mem : UsMemsinkShared} (hinit : mem.Initialised)
    (hnew : mem.id ≠ sink.lastReadedId) (frame : UsFrame) (keyRequired unlocked : Bool) (now : ℚ) :
    (usMemsinkClientGet sink mem frame keyRequired .taken unlocked now).ret
        = (if unlocked then 0 else -1) ∧
      (usMemsinkClientGet sink mem frame keyRequired .taken unlocked now).frame
        = (usFrameSetData frame mem.data mem.used).copyMeta mem.toFrameMeta := by
  unfold usMemsinkClientGet
  dsimp only
  rw [if_neg (not_not.mpr hinit.1), if_neg (not_not.mpr hinit.2), if_neg hnew]
  exact ⟨rfl, rfl⟩

/-- **Frame ids.**  The mixer is a bijection; the ids of two moments that differ in 32 bits of the
microseconds differ in both halves; no id is 0; a client that has read nothing gets the latest put
of a sink in every state its server and its clients reach; and two different moments less than
2 ^ 32 microseconds apart have different ids. -/
theorem frame_ids :
    Function.Bijective usTripleU32 ∧
      (∀ a b : UInt64, a.toNat % 2 ^ 32 ≠ b.toNat % 2 ^ 32 →
        lowHalf (usGetNowId a) ≠ lowHalf (usGetNowId b) ∧
          highHalf (usGetNowId a) ≠ highHalf (usGetNowId b)) ∧
      (∀ now : UInt64, usGetNowId now ≠ 0) ∧
      (∀ h, clockedSink.ReachVia ClockedEvent h → h.puts ≠ [] →
        ∀ (sink : UsMemsink) (frame : UsFrame) (keyRequired unlocked : Bool) (now : ℚ),
          sink.lastReadedId = 0 →
          (usMemsinkClientGet sink h.state.mem frame keyRequired .taken unlocked now).ret
              = (if unlocked then 0 else -1) ∧
            ∃ put, h.puts.getLast? = some put ∧
              CopyOf put
                (usMemsinkClientGet sink h.state.mem frame keyRequired .taken unlocked now).frame) ∧
      ∀ a b : UInt64, a ≠ b → a.toNat < b.toNat + 2 ^ 32 → b.toNat < a.toNat + 2 ^ 32 →
        usGetNowId a ≠ usGetNowId b := by
  refine ⟨bijective_usTripleU32, fun a b => usGetNowId_halves_ne, usGetNowId_ne_zero, ?_,
    fun a b => usGetNowId_ne⟩
  intro h hr hne sink frame keyRequired unlocked now hfresh
  have hI := clockedInv_of_reach hr
  have hdelivery := deliveryInv_of_reach (reach_of_clocked hr)
  have hinit := hI.written hne
  have hlatest := hdelivery.latest hinit
  have hnew : h.state.mem.id ≠ sink.lastReadedId := by
    rw [hfresh]
    exact (hI.clocked _ (List.mem_of_getLast? hlatest)).ne_zero
  obtain ⟨hret, hframe⟩ := clientGet_of_new hinit hnew frame keyRequired unlocked now
  exact ⟨hret, _, hlatest, hframe ▸ hdelivery.copyOf_region frame⟩

end TinyPilotKvm
