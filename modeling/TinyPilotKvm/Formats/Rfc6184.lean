/-
# H.264 units in RTP payloads (RFC 6184)

Of the packetization modes two are in use: a unit that fits is a payload of its own, and a larger
one is cut into fragmentation units (FU-A), each with an indicator, which has the unit's
`nal_ref_idc`, and a header, which has its type and marks the first and the last fragment.

`packetize` is the sender and `depacketize` the receiver, which drops what it does not understand
and fragments whose start it has not seen.  `depacketize_packetize` is the round trip: whatever
the receiver was in the middle of, it gets the unit back and is ready for the next.
-/
import Mathlib.Data.UInt

namespace TinyPilotKvm.Rfc6184

/-! ## 1. Headers -/

/-- The indicator of a fragment: type 28 with the unit's `nal_ref_idc`. -/
def fuIndicator (header : UInt8) : UInt8 :=
  (28 : UInt8) ||| (((header >>> 5) &&& 3) <<< 5)

/-- The header of a fragment: the unit's type, the start and the end bit. -/
def fuHeader (header : UInt8) (first last : Bool) : UInt8 :=
  (header &&& 0x1F) ||| (if first then 0x80 else 0) ||| (if last then 0x40 else 0)

/-- The header of a unit that may be sent: forbidden bit 0, and one of the types 1..23. -/
def ValidHeader (header : UInt8) : Prop :=
  header &&& 0x80 = 0 ∧ 1 ≤ header &&& 0x1F ∧ header &&& 0x1F ≤ 23

instance (header : UInt8) : Decidable (ValidHeader header) :=
  inferInstanceAs (Decidable (_ ∧ _ ∧ _))

/-- What holds of the 256 bytes holds of every byte. -/
theorem forall_uint8 {P : UInt8 → Prop} (h : ∀ n : Fin 256, P (UInt8.ofNat n)) (x : UInt8) :
    P x := by
  have hx := h ⟨x.toNat, x.toNat_lt⟩
  rwa [UInt8.ofNat_toNat] at hx

theorem type_fuIndicator (header : UInt8) : fuIndicator header &&& 0x1F = 28 := by
  refine forall_uint8 (P := fun header => fuIndicator header &&& 0x1F = 28) ?_ header
  decide +kernel

/-- The unit's header, put together again. -/
theorem header_of_fu (header : UInt8) (first last : Bool) (h : header &&& 0x80 = 0) :
    (fuIndicator header &&& 0xE0) ||| (fuHeader header first last &&& 0x1F) = header := by
  revert h first last
  refine forall_uint8 (P := fun header => ∀ first last : Bool, header &&& 0x80 = 0 →
    (fuIndicator header &&& 0xE0) ||| (fuHeader header first last &&& 0x1F) = header) ?_ header
  decide +kernel

theorem start_fuHeader (header : UInt8) (first last : Bool) :
    fuHeader header first last &&& 0x80 ≠ 0 ↔ first = true := by
  revert first last
  refine forall_uint8 (P := fun header => ∀ first last : Bool,
    fuHeader header first last &&& 0x80 ≠ 0 ↔ first = true) ?_ header
  decide +kernel

theorem end_fuHeader (header : UInt8) (first last : Bool) :
    fuHeader header first last &&& 0x40 ≠ 0 ↔ last = true := by
  revert first last
  refine forall_uint8 (P := fun header => ∀ first last : Bool,
    fuHeader header first last &&& 0x40 ≠ 0 ↔ last = true) ?_ header
  decide +kernel

/-! ## 2. The sender -/

/-- One fragment. -/
def fragment (header : UInt8) (first last : Bool) (bytes : List UInt8) : List UInt8 :=
  fuIndicator header :: fuHeader header first last :: bytes

/-- The fragments of a unit's body, of at most `size` bytes each. -/
def fragments (size : Nat) (hsize : 0 < size) (header : UInt8) (first : Bool) (body : List UInt8) :
    List (List UInt8) :=
  if _h : body.length ≤ size then [fragment header first true body]
  else fragment header first false (body.take size)
    :: fragments size hsize header false (body.drop size)
  termination_by body.length
  decreasing_by
    rw [List.length_drop]
    omega

theorem fragments_ne_nil (size : Nat) (hsize : 0 < size) (header : UInt8) (first : Bool)
    (body : List UInt8) : fragments size hsize header first body ≠ [] := by
  rw [fragments]
  split <;> simp

/-- No payload is longer than the indicator, the header and a full fragment. -/
theorem length_of_mem_fragments {size : Nat} (hsize : 0 < size) (header : UInt8) (first : Bool)
    (body : List UInt8) : ∀ p ∈ fragments size hsize header first body, p.length ≤ size + 2 := by
  induction hn : body.length using Nat.strongRecOn generalizing body first with
  | ind n ih =>
    intro p hp
    rw [fragments] at hp
    split at hp
    · rw [List.mem_singleton.mp hp]
      simp only [fragment, List.length_cons]
      omega
    · rcases List.mem_cons.mp hp with rfl | hp
      · simp only [fragment, List.length_cons, List.length_take]
        omega
      · exact ih _ (by rw [List.length_drop]; omega) false (body.drop size) rfl p hp

/-- The payloads of a unit: one if it has at most `single` bytes. -/
def packetize (single size : Nat) (hsize : 0 < size) (header : UInt8) (body : List UInt8) :
    List (List UInt8) :=
  if body.length + 1 ≤ single then [header :: body]
  else fragments size hsize header true body

/-- No payload is empty. -/
theorem ne_nil_of_mem_fragments {size : Nat} (hsize : 0 < size) (header : UInt8) (first : Bool)
    (body : List UInt8) : ∀ p ∈ fragments size hsize header first body, p ≠ [] := by
  induction hn : body.length using Nat.strongRecOn generalizing body first with
  | ind n ih =>
    intro p hp
    rw [fragments] at hp
    split at hp
    · rw [List.mem_singleton.mp hp]
      exact List.cons_ne_nil _ _
    · rcases List.mem_cons.mp hp with rfl | hp
      · exact List.cons_ne_nil _ _
      · exact ih _ (by rw [List.length_drop]; omega) false (body.drop size) rfl p hp

theorem ne_nil_of_mem_packetize {single size : Nat} (hsize : 0 < size) (header : UInt8)
    (body : List UInt8) : ∀ p ∈ packetize single size hsize header body, p ≠ [] := by
  intro p hp
  unfold packetize at hp
  split at hp
  · rw [List.mem_singleton.mp hp]
    exact List.cons_ne_nil _ _
  · exact ne_nil_of_mem_fragments hsize header true body p hp

theorem packetize_ne_nil (single size : Nat) (hsize : 0 < size) (header : UInt8)
    (body : List UInt8) : packetize single size hsize header body ≠ [] := by
  unfold packetize
  split
  · simp
  · exact fragments_ne_nil size hsize header true body

theorem length_of_mem_packetize {single size : Nat} (hsize : 0 < size) (hle : size + 2 ≤ single)
    (header : UInt8) (body : List UInt8) :
    ∀ p ∈ packetize single size hsize header body, p.length ≤ single := by
  intro p hp
  unfold packetize at hp
  split at hp
  · rename_i hshort
    rw [List.mem_singleton.mp hp]
    exact hshort
  · exact Nat.le_trans (length_of_mem_fragments hsize header true body p hp) hle

/-! ## 3. The receiver -/

/-- What the receiver does with one payload: the unit it is collecting, and the unit that is
complete. -/
def depayStep (pending : Option (List UInt8)) (payload : List UInt8) :
    Option (List UInt8) × Option (List UInt8) :=
  match payload with
  | [] => (none, none)
  | indicator :: rest =>
    let type := indicator &&& 0x1F
    if 1 ≤ type ∧ type ≤ 23 then (none, some (indicator :: rest))
    else if type = 28 then
      match rest with
      | [] => (none, none)
      | fu :: bytes =>
        let collected :=
          if fu &&& 0x80 ≠ 0 then some (((indicator &&& 0xE0) ||| (fu &&& 0x1F)) :: bytes)
          else pending.map (· ++ bytes)
        if fu &&& 0x40 ≠ 0 then (none, collected) else (collected, none)
    else (none, none)

/-- The units in a sequence of payloads. -/
def depacketize (pending : Option (List UInt8)) : List (List UInt8) → List (List UInt8)
  | [] => []
  | payload :: payloads =>
    (depayStep pending payload).2.toList ++ depacketize (depayStep pending payload).1 payloads

/-- A receiver that has some of the payloads has some of the units. -/
theorem depacketize_prefix (pending : Option (List UInt8)) {payloads payloads' : List (List UInt8)}
    (h : payloads <+: payloads') :
    depacketize pending payloads <+: depacketize pending payloads' := by
  induction payloads generalizing pending payloads' with
  | nil => exact List.nil_prefix
  | cons payload payloads ih =>
    obtain ⟨rest, rfl⟩ := h
    rw [List.cons_append, depacketize, depacketize]
    exact List.prefix_append_right_inj _ |>.mpr (ih _ (List.prefix_append _ _))

/-! ## 4. The round trip -/

theorem depayStep_single {header : UInt8} (h : ValidHeader header) (pending : Option (List UInt8))
    (body : List UInt8) : depayStep pending (header :: body) = (none, some (header :: body)) := by
  simp only [depayStep]
  rw [if_pos h.2]

/-- A fragment, at the receiver. -/
theorem depayStep_fragment {header : UInt8} (h : header &&& 0x80 = 0)
    (pending : Option (List UInt8)) (first last : Bool) (bytes : List UInt8) :
    depayStep pending (fragment header first last bytes)
      = let collected := if first then some (header :: bytes) else pending.map (· ++ bytes)
        if last then (none, collected) else (collected, none) := by
  have htype := type_fuIndicator header
  have hnot : ¬ ((1 : UInt8) ≤ 28 ∧ (28 : UInt8) ≤ 23) := by decide
  simp only [depayStep, fragment, htype, if_neg hnot, if_true, header_of_fu header first last h,
    start_fuHeader, end_fuHeader]

/-- The fragments after the first: the receiver has the bytes so far. -/
theorem depacketize_fragments_rest {header : UInt8} (h : header &&& 0x80 = 0) (size : Nat)
    (hsize : 0 < size) (body : List UInt8) (collected : List UInt8) (more : List (List UInt8)) :
    depacketize (some collected) (fragments size hsize header false body ++ more)
      = (collected ++ body) :: depacketize none more := by
  induction hn : body.length using Nat.strongRecOn generalizing body collected with
  | ind n ih =>
    rw [fragments]
    split
    · rw [List.singleton_append, depacketize, depayStep_fragment h]
      rfl
    · rename_i hlong
      rw [List.cons_append, depacketize, depayStep_fragment h]
      have hlen : (body.drop size).length < n := by
        rw [List.length_drop]
        omega
      have hrest := ih _ hlen (body.drop size) (collected ++ body.take size) rfl
      rw [List.append_assoc, List.take_append_drop] at hrest
      exact hrest

/-- **The round trip of one unit**, whatever the receiver was collecting. -/
theorem depacketize_packetize {header : UInt8} (h : ValidHeader header) (single size : Nat)
    (hsize : 0 < size) (body : List UInt8) (pending : Option (List UInt8))
    (more : List (List UInt8)) :
    depacketize pending (packetize single size hsize header body ++ more)
      = (header :: body) :: depacketize none more := by
  unfold packetize
  split
  · rw [List.singleton_append, depacketize, depayStep_single h]
    rfl
  · rw [fragments]
    split
    · rw [List.singleton_append, depacketize, depayStep_fragment h.1]
      rfl
    · rw [List.cons_append, depacketize, depayStep_fragment h.1]
      have hrest := depacketize_fragments_rest h.1 size hsize (body.drop size)
        (header :: body.take size) more
      rw [List.cons_append, List.take_append_drop] at hrest
      exact hrest

/-! ## 5. The bits of the fragments -/

def isFuA (payload : List UInt8) : Bool := payload.head?.any fun b => b &&& 0x1F == 28

def startBit (payload : List UInt8) : Bool := payload[1]?.any fun b => b &&& 0x80 != 0

def endBit (payload : List UInt8) : Bool := payload[1]?.any fun b => b &&& 0x40 != 0

/-- A unit cut into fragments: the start bit is on the first alone and the end bit on the last
alone, and these are two. -/
structure Fragmented (unit : List UInt8) (payloads : List (List UInt8)) : Prop where
  two_le : 2 ≤ payloads.length
  fuA : ∀ p ∈ payloads, isFuA p = true
  start : ∀ i (hi : i < payloads.length), startBit payloads[i] = true ↔ i = 0
  stop : ∀ i (hi : i < payloads.length), endBit payloads[i] = true ↔ i + 1 = payloads.length
  notBoth : ∀ p ∈ payloads, ¬ (startBit p = true ∧ endBit p = true)
  body : payloads.flatMap (·.drop 2) = unit.drop 1

theorem isFuA_fragment (header : UInt8) (first last : Bool) (bytes : List UInt8) :
    isFuA (fragment header first last bytes) = true := by
  show (fuIndicator header &&& 0x1F == 28) = true
  rw [type_fuIndicator]
  rfl

theorem startBit_fragment (header : UInt8) (first last : Bool) (bytes : List UInt8) :
    startBit (fragment header first last bytes) = first := by
  show (fuHeader header first last &&& 0x80 != 0) = first
  rw [← Bool.coe_iff_coe, bne_iff_ne]
  exact start_fuHeader header first last

theorem endBit_fragment (header : UInt8) (first last : Bool) (bytes : List UInt8) :
    endBit (fragment header first last bytes) = last := by
  show (fuHeader header first last &&& 0x40 != 0) = last
  rw [← Bool.coe_iff_coe, bne_iff_ne]
  exact end_fuHeader header first last

/-- The fragments are those of the chunks of the body, by their places. -/
theorem fragments_eq (size : Nat) (hsize : 0 < size) (header : UInt8) (first : Bool)
    (body : List UInt8) : ∃ chunks : List (List UInt8), chunks.flatten = body ∧
      fragments size hsize header first body = chunks.mapIdx fun i chunk =>
        fragment header (first && decide (i = 0)) (decide (i + 1 = chunks.length)) chunk := by
  induction hn : body.length using Nat.strongRecOn generalizing body first with
  | ind n ih =>
    rw [fragments]
    split
    · exact ⟨[body], List.flatten_singleton, by simp⟩
    · obtain ⟨chunks, hflat, hfragments⟩ :=
        ih _ (by rw [List.length_drop]; omega) false (body.drop size) rfl
      have hne : chunks ≠ [] := by
        rintro rfl
        exact fragments_ne_nil _ _ _ _ _ hfragments
      refine ⟨body.take size :: chunks, ?_, ?_⟩
      · rw [List.flatten_cons, hflat, List.take_append_drop]
      · rw [hfragments, List.mapIdx_cons]
        simp [hne]

/-- **A unit that is cut is cut well.** -/
theorem fragmented_fragments {size : Nat} (hsize : 0 < size) (header : UInt8) {body : List UInt8}
    (hlong : size < body.length) :
    Fragmented (header :: body) (fragments size hsize header true body) := by
  have htwo : 2 ≤ (fragments size hsize header true body).length := by
    rw [fragments, dif_neg (Nat.not_le.mpr hlong), List.length_cons]
    exact Nat.succ_le_succ (List.length_pos_iff.mpr (fragments_ne_nil _ _ _ _ _))
  obtain ⟨chunks, hflat, hfragments⟩ := fragments_eq size hsize header true body
  have hlen : (fragments size hsize header true body).length = chunks.length := by
    rw [hfragments, List.length_mapIdx]
  have hget : ∀ i (hi : i < (fragments size hsize header true body).length),
      (fragments size hsize header true body)[i]
        = fragment header (decide (i = 0)) (decide (i + 1 = chunks.length))
          (chunks.get ⟨i, hlen ▸ hi⟩) := by
    intro i hi
    simp only [hfragments, List.getElem_mapIdx, Bool.true_and, List.get_eq_getElem]
  have hstart : ∀ i (hi : i < (fragments size hsize header true body).length),
      startBit (fragments size hsize header true body)[i] = true ↔ i = 0 := by
    intro i hi
    rw [hget i hi, startBit_fragment, decide_eq_true_iff]
  have hstop : ∀ i (hi : i < (fragments size hsize header true body).length),
      endBit (fragments size hsize header true body)[i] = true
        ↔ i + 1 = (fragments size hsize header true body).length := by
    intro i hi
    rw [hget i hi, endBit_fragment, decide_eq_true_iff, hlen]
  refine ⟨htwo, fun p hp => ?_, hstart, hstop, fun p hp hboth => ?_, ?_⟩
  · obtain ⟨i, hi, rfl⟩ := List.mem_iff_getElem.mp hp
    rw [hget i hi]
    exact isFuA_fragment _ _ _ _
  · obtain ⟨i, hi, rfl⟩ := List.mem_iff_getElem.mp hp
    have hfirst := (hstart i hi).mp hboth.1
    have hlast := (hstop i hi).mp hboth.2
    omega
  · rw [hfragments, List.drop_one, List.tail_cons, ← hflat, List.flatMap]
    congr 1
    refine List.ext_getElem (by simp) fun i h1 h2 => ?_
    simp [fragment]

end TinyPilotKvm.Rfc6184
