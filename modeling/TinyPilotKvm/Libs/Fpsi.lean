/-
# The frame rate meter (`libs/fpsi.c`)

`us_fpsi_update` counts frames in `accum`; the first update in a second other than the last one
publishes what has been counted, packed into one word with the metadata of that update, together
with the second it is published in.  `us_fpsi_get` takes the word for fresh if it was published in
this second or the one before.

So the word is as old as its publication, and what was counted may be older: after a pause the count
of the second before the pause is published as new.  And a meter that has been updated in second 0
only has published nothing, since 0 is also what the second of publication starts with.
-/
import TinyPilotKvm.Libs.Tools
import TinyPilotKvm.Transition

namespace TinyPilotKvm

/-! ## 1. The code -/

/-- `us_fpsi_meta_s`. -/
@[ext]
structure UsFpsiMeta where
  width : UInt32
  height : UInt32
  online : Bool
  deriving DecidableEq

/-- `us_fpsi_s`. -/
structure UsFpsi where
  withMeta : Bool
  accum : UInt32
  stateSecTs : Int
  state : UInt64

/-- `us_fpsi_init`. -/
def usFpsiInit (withMeta : Bool) : UsFpsi where
  withMeta := withMeta
  accum := 0
  stateSecTs := 0
  state := 0

/-- The word that is published. -/
def packState (accum : UInt32) (info : Option UsFpsiMeta) : UInt64 :=
  let state := accum.toUInt64 &&& 0xFFFF
  match info with
  | none => state
  | some info =>
    state ||| (info.width &&& 0xFFFF).toUInt64 <<< 16
      ||| (info.height &&& 0xFFFF).toUInt64 <<< 32
      ||| (if info.online then (1 : UInt64) else 0) <<< 48

/-- `us_fpsi_update`.  `none`: its assertion on `info` fails. -/
def usFpsiUpdate (fpsi : UsFpsi) (now : ℚ) (bump : Bool) (info : Option UsFpsiMeta) :
    Option UsFpsi :=
  if info.isSome = fpsi.withMeta then
    let nowSecTs := usFloorMs now
    let fpsi :=
      if fpsi.stateSecTs ≠ nowSecTs then
        { fpsi with state := packState fpsi.accum info, stateSecTs := nowSecTs, accum := 0 }
      else fpsi
    some (if bump then { fpsi with accum := fpsi.accum + 1 } else fpsi)
  else none

/-- The metadata in the word. -/
def unpackMeta (state : UInt64) : UsFpsiMeta where
  width := (state >>> 16 &&& 0xFFFF).toUInt32
  height := (state >>> 32 &&& 0xFFFF).toUInt32
  online := (state >>> 48 &&& 1) != 0

/-- `us_fpsi_get`, of a caller that wants the metadata or not.  `none`: its assertion fails. -/
def usFpsiGet (fpsi : UsFpsi) (now : ℚ) (wanted : Bool) : Option (UInt32 × Option UsFpsiMeta) :=
  if wanted = fpsi.withMeta then
    let nowSecTs := usFloorMs now
    let current := (fpsi.state &&& 0xFFFF).toUInt32
    let info := if fpsi.withMeta then some (unpackMeta fpsi.state) else none
    if fpsi.stateSecTs ≠ nowSecTs ∧ fpsi.stateSecTs + 1 ≠ nowSecTs then some (0, info)
    else some (current, info)
  else none

/-! ## 2. The word -/

/-- A field above another is added to it. -/
theorem toNat_or_shiftLeft {a b s : UInt64} {k : Nat} (hs : s.toNat = k) (hk : k < 64)
    (ha : a.toNat < 2 ^ k) (hb : b.toNat * 2 ^ k < 2 ^ 64) :
    (a ||| b <<< s).toNat = a.toNat + b.toNat * 2 ^ k := by
  rw [UInt64.toNat_or, UInt64.toNat_shiftLeft, hs, Nat.mod_eq_of_lt hk, Nat.shiftLeft_eq,
    Nat.mod_eq_of_lt hb, ← Nat.shiftLeft_eq, Nat.or_comm, ← Nat.shiftLeft_add_eq_or_of_lt ha,
    Nat.add_comm]

theorem toNat_mask (x : UInt32) : (x &&& 0xFFFF).toUInt64.toNat = x.toNat % 65536 := by
  rw [UInt32.toNat_toUInt64, UInt32.toNat_and]
  exact Nat.and_two_pow_sub_one_eq_mod x.toNat 16

theorem toNat_maskAccum (x : UInt32) : (x.toUInt64 &&& 0xFFFF).toNat = x.toNat % 65536 := by
  rw [UInt64.toNat_and, UInt32.toNat_toUInt64]
  exact Nat.and_two_pow_sub_one_eq_mod x.toNat 16

/-- The word is made of four fields. -/
theorem toNat_packState (accum : UInt32) (info : UsFpsiMeta) :
    (packState accum (some info)).toNat = accum.toNat % 65536 + info.width.toNat % 65536 * 2 ^ 16
      + info.height.toNat % 65536 * 2 ^ 32 + info.online.toNat * 2 ^ 48 := by
  have haccum := toNat_maskAccum accum
  have hwidth := toNat_mask info.width
  have hheight := toNat_mask info.height
  have honline : (if info.online then (1 : UInt64) else 0).toNat = info.online.toNat := by
    cases info.online <;> rfl
  have hle := Bool.toNat_le info.online
  have hone := toNat_or_shiftLeft (a := accum.toUInt64 &&& 0xFFFF)
    (b := (info.width &&& 0xFFFF).toUInt64) (s := 16) (k := 16) rfl (by decide) (by omega)
    (by omega)
  rw [haccum, hwidth] at hone
  have htwo := toNat_or_shiftLeft (b := (info.height &&& 0xFFFF).toUInt64) (s := 32) (k := 32) rfl
    (by decide) (hone.trans_lt (by omega)) (by omega)
  rw [hone, hheight] at htwo
  have hthree := toNat_or_shiftLeft (b := if info.online then (1 : UInt64) else 0) (s := 48)
    (k := 48) rfl (by decide) (htwo.trans_lt (by omega)) (by omega)
  rw [htwo, honline] at hthree
  exact hthree

theorem toNat_count (state : UInt64) : (state &&& 0xFFFF).toUInt32.toNat = state.toNat % 65536 := by
  rw [UInt64.toNat_toUInt32, UInt64.toNat_and]
  have hmask : state.toNat &&& (0xFFFF : UInt64).toNat = state.toNat % 65536 :=
    Nat.and_two_pow_sub_one_eq_mod state.toNat 16
  omega

/-- What has been counted comes back modulo 2 ^ 16. -/
theorem count_packState (accum : UInt32) (info : Option UsFpsiMeta) :
    (packState accum info &&& 0xFFFF).toUInt32.toNat = accum.toNat % 65536 := by
  rw [toNat_count]
  cases info with
  | none =>
    rw [packState, toNat_maskAccum, Nat.mod_mod]
  | some info =>
    rw [toNat_packState]
    omega

theorem toNat_field (state : UInt64) {s : UInt64} {k : Nat} (hs : s.toNat = k) (hk : k < 64) :
    (state >>> s &&& 0xFFFF).toUInt32.toNat = state.toNat / 2 ^ k % 65536 := by
  rw [toNat_count, UInt64.toNat_shiftRight, hs, Nat.mod_eq_of_lt hk, Nat.shiftRight_eq_div_pow]

/-- **The metadata comes back** if width and height fit their fields. -/
theorem unpackMeta_packState (accum : UInt32) {info : UsFpsiMeta} (hwidth : info.width < 65536)
    (hheight : info.height < 65536) : unpackMeta (packState accum (some info)) = info := by
  have hw : info.width.toNat < 65536 := hwidth
  have hh : info.height.toNat < 65536 := hheight
  have hstate := toNat_packState accum info
  have hle := Bool.toNat_le info.online
  have h1 : (unpackMeta (packState accum (some info))).width = info.width := by
    apply UInt32.toNat_inj.mp
    rw [unpackMeta, toNat_field _ (k := 16) rfl (by decide), hstate]
    omega
  have h2 : (unpackMeta (packState accum (some info))).height = info.height := by
    apply UInt32.toNat_inj.mp
    rw [unpackMeta, toNat_field _ (k := 32) rfl (by decide), hstate]
    omega
  have h3 : (unpackMeta (packState accum (some info))).online = info.online := by
    have hbit : (packState accum (some info) >>> 48 &&& 1).toNat = info.online.toNat := by
      rw [UInt64.toNat_and, UInt64.toNat_shiftRight, Nat.shiftRight_eq_div_pow, hstate]
      have hone (n : Nat) : n &&& (1 : UInt64).toNat = n % 2 := Nat.and_one_is_mod n
      have hshift : (48 : UInt64).toNat % 64 = 48 := rfl
      rw [hone, hshift]
      omega
    rw [unpackMeta]
    cases honline : info.online with
    | false =>
      rw [honline] at hbit
      rw [UInt64.toNat_inj.mp (hbit.trans UInt64.toNat_zero.symm)]
      rfl
    | true =>
      rw [honline] at hbit
      rw [UInt64.toNat_inj.mp (hbit.trans UInt64.toNat_one.symm)]
      rfl
  exact UsFpsiMeta.ext h1 h2 h3

/-! ## 3. A meter and its updates -/

/-- An update that has been made. -/
structure FpsiUpdate where
  second : Int
  bump : Bool
  info : Option UsFpsiMeta

/-- A meter, the time of the last call, and all updates so far, the oldest first. -/
structure FpsiState where
  fpsi : UsFpsi
  clock : ℚ
  updates : List FpsiUpdate

inductive FpsiAct
  | update (now : ℚ) (bump : Bool) (info : Option UsFpsiMeta)
  | get (now : ℚ) (wanted : Bool)

def fpsiStep (s : FpsiState) : FpsiAct → Option FpsiState
  | .update now bump info =>
    if s.clock ≤ now then
      (usFpsiUpdate s.fpsi now bump info).map fun fpsi =>
        { fpsi := fpsi, clock := now, updates := s.updates ++ [⟨usFloorMs now, bump, info⟩] }
    else none
  | .get now wanted =>
    if s.clock ≤ now then
      (usFpsiGet s.fpsi now wanted).map fun _ => { s with clock := now }
    else none

/-- Meters from `us_fpsi_init` on, with or without metadata. -/
def fpsiSystem : System FpsiState FpsiAct where
  start s := ∃ withMeta, s = { fpsi := usFpsiInit withMeta, clock := 0, updates := [] }
  step := fpsiStep

/-! ## 4. The history -/

section

variable (updates : List FpsiUpdate)

/-- How many bumping updates were made in a second. -/
def bumpsIn (second : Int) : Nat := updates.countP fun u => u.bump && u.second == second

/-- The latest second in which an update was made. -/
def lastSecond : Option Int := updates.getLast?.map (·.second)

/-- The latest second before that in which one was made. -/
def secondBefore : Option Int :=
  (lastSecond updates).bind fun last => lastSecond (updates.filter (·.second != last))

/-- The metadata of the first update of the latest second. -/
def firstOfLast : Option UsFpsiMeta :=
  (lastSecond updates).bind fun last => (updates.find? (·.second == last)).bind (·.info)

/-- The word that a meter with this history holds: what was counted in the second before the last
one, with the metadata of the first update of the last.  Nothing is published in second 0. -/
def published : UInt64 :=
  match lastSecond updates with
  | none => 0
  | some last =>
    if last = 0 then 0
    else packState (UInt32.ofNat (((secondBefore updates).map (bumpsIn updates)).getD 0))
      (firstOfLast updates)

variable {updates : List FpsiUpdate} {u : FpsiUpdate} {last second : Int}

theorem mem_of_lastSecond (h : lastSecond updates = some last) :
    ∃ v ∈ updates, v.second = last := by
  obtain ⟨v, hv, rfl⟩ := Option.map_eq_some_iff.mp h
  exact ⟨v, List.mem_of_getLast? hv, rfl⟩

theorem lastSecond_eq_none_iff : lastSecond updates = none ↔ updates = [] := by
  rw [lastSecond, Option.map_eq_none_iff, List.getLast?_eq_none_iff]

theorem ne_of_secondBefore (hlast : lastSecond updates = some last)
    (h : secondBefore updates = some second) : second ≠ last := by
  rw [secondBefore, hlast] at h
  obtain ⟨v, hv, rfl⟩ := mem_of_lastSecond h
  have hne := (List.mem_filter.mp hv).2
  exact bne_iff_ne.mp hne

theorem le_lastSecond (hsorted : updates.Pairwise fun u v => u.second ≤ v.second)
    (h : lastSecond updates = some last) : ∀ v ∈ updates, v.second ≤ last := by
  obtain ⟨w, hw, rfl⟩ := Option.map_eq_some_iff.mp h
  obtain ⟨before, rfl⟩ := List.getLast?_eq_some_iff.mp hw
  intro v hv
  rcases List.mem_append.mp hv with hbefore | hlast
  · exact (List.pairwise_append.mp hsorted).2.2 v hbefore w (List.mem_singleton.mpr rfl)
  · rw [List.mem_singleton.mp hlast]

theorem bumpsIn_eq_zero (h : ∀ v ∈ updates, v.second ≠ second) : bumpsIn updates second = 0 := by
  refine List.countP_eq_zero.mpr fun v hv hcounted => h v hv ?_
  rw [Bool.and_eq_true, beq_iff_eq] at hcounted
  exact hcounted.2

@[simp] theorem lastSecond_append : lastSecond (updates ++ [u]) = some u.second := by
  rw [lastSecond, List.getLast?_concat]
  rfl

theorem bumpsIn_append :
    bumpsIn (updates ++ [u]) second
      = bumpsIn updates second + (u.bump && u.second == second).toNat := by
  rw [bumpsIn, List.countP_append, List.countP_singleton, bumpsIn]
  cases u.bump && u.second == second <;> rfl

theorem bumpsIn_append_of_ne (h : u.second ≠ second) :
    bumpsIn (updates ++ [u]) second = bumpsIn updates second := by
  rw [bumpsIn_append, beq_eq_false_iff_ne.mpr h, Bool.and_false]
  rfl

theorem published_nil : published [] = 0 := rfl

theorem published_zero (h : lastSecond updates = some 0) : published updates = 0 := by
  rw [published, h]
  rfl

theorem published_of_ne (h : lastSecond updates = some last) (hne : last ≠ 0) :
    published updates
      = packState (UInt32.ofNat (((secondBefore updates).map (bumpsIn updates)).getD 0))
        (firstOfLast updates) := by
  rw [published, h]
  exact if_neg hne

/-- An update in the same second as the last one. -/
theorem published_append_same (h : lastSecond updates = some u.second) :
    published (updates ++ [u]) = published updates := by
  have hbefore : secondBefore (updates ++ [u]) = secondBefore updates := by
    rw [secondBefore, lastSecond_append, secondBefore, h]
    simp
  have hfirst : firstOfLast (updates ++ [u]) = firstOfLast updates := by
    obtain ⟨v, hv, hsecond⟩ := mem_of_lastSecond h
    have hfound : (updates.find? (·.second == u.second)).isSome :=
      List.find?_isSome.mpr ⟨v, hv, beq_iff_eq.mpr hsecond⟩
    rw [firstOfLast, lastSecond_append, firstOfLast, h, Option.bind_some, Option.bind_some,
      List.find?_append, Option.or_of_isSome hfound]
  rw [published, lastSecond_append, published, h, hbefore, hfirst]
  cases hprev : secondBefore updates with
  | none => rfl
  | some p => simp only [Option.map_some, bumpsIn_append_of_ne (ne_of_secondBefore h hprev).symm]

/-- The first update of a second other than 0. -/
theorem published_append_new (hnew : ∀ v ∈ updates, v.second ≠ u.second) (hzero : u.second ≠ 0) :
    published (updates ++ [u])
      = packState (UInt32.ofNat (((lastSecond updates).map (bumpsIn updates)).getD 0)) u.info := by
  have hbefore : secondBefore (updates ++ [u]) = lastSecond updates := by
    have hall : updates.filter (·.second != u.second) = updates :=
      List.filter_eq_self.mpr fun v hv => bne_iff_ne.mpr (hnew v hv)
    rw [secondBefore, lastSecond_append, Option.bind_some, List.filter_append, hall]
    simp
  have hfirst : firstOfLast (updates ++ [u]) = u.info := by
    have hnone : updates.find? (·.second == u.second) = none :=
      List.find?_eq_none.mpr fun v hv => by simpa using hnew v hv
    rw [firstOfLast, lastSecond_append, Option.bind_some, List.find?_append, hnone]
    simp
  rw [published, lastSecond_append, hbefore, hfirst]
  simp only [if_neg hzero]
  cases hlast : lastSecond updates with
  | none => rfl
  | some p =>
    obtain ⟨v, hv, hsecond⟩ := mem_of_lastSecond hlast
    have hne : u.second ≠ p := fun heq => hnew v hv (hsecond.trans heq.symm)
    simp only [Option.map_some, bumpsIn_append_of_ne hne]

end

/-! ## 5. The invariant -/

/-- The meter is what its history makes it. -/
structure FpsiInv (s : FpsiState) : Prop where
  sorted : s.updates.Pairwise fun u v => u.second ≤ v.second
  past : ∀ u ∈ s.updates, 0 ≤ u.second ∧ u.second ≤ usFloorMs s.clock
  info : ∀ u ∈ s.updates, u.info.isSome = s.fpsi.withMeta
  clock : 0 ≤ s.clock
  second : s.fpsi.stateSecTs = (lastSecond s.updates).getD 0
  accum : s.fpsi.accum = UInt32.ofNat (bumpsIn s.updates s.fpsi.stateSecTs)
  state : s.fpsi.state = published s.updates

/-- What an update does to the meter. -/
theorem usFpsiUpdate_eq_some {fpsi fpsi' : UsFpsi} {now : ℚ} {bump : Bool}
    {info : Option UsFpsiMeta} (h : usFpsiUpdate fpsi now bump info = some fpsi') :
    info.isSome = fpsi.withMeta ∧ fpsi'.withMeta = fpsi.withMeta ∧
      fpsi'.stateSecTs = usFloorMs now ∧
      (fpsi.stateSecTs = usFloorMs now → fpsi'.state = fpsi.state ∧
        fpsi'.accum = fpsi.accum + UInt32.ofNat bump.toNat) ∧
      (fpsi.stateSecTs ≠ usFloorMs now → fpsi'.state = packState fpsi.accum info ∧
        fpsi'.accum = UInt32.ofNat bump.toNat) := by
  unfold usFpsiUpdate at h
  split at h
  · rename_i hinfo
    refine ⟨hinfo, ?_⟩
    obtain rfl := Option.some.inj h
    by_cases hsecond : fpsi.stateSecTs = usFloorMs now
    · cases bump <;> simp [hsecond]
    · cases bump <;> simp [hsecond]
  · exact absurd h (by simp)

section

variable {s s' : FpsiState} {now : ℚ}

theorem fpsiStep_update {bump : Bool} {info : Option UsFpsiMeta}
    (h : fpsiStep s (.update now bump info) = some s') :
    s.clock ≤ now ∧ ∃ fpsi, usFpsiUpdate s.fpsi now bump info = some fpsi ∧
      s' = { fpsi, clock := now, updates := s.updates ++ [⟨usFloorMs now, bump, info⟩] } := by
  rw [fpsiStep] at h
  by_cases hclock : s.clock ≤ now
  · rw [if_pos hclock] at h
    obtain ⟨fpsi, hfpsi, heq⟩ := Option.map_eq_some_iff.mp h
    exact ⟨hclock, fpsi, hfpsi, heq.symm⟩
  · rw [if_neg hclock] at h
    exact absurd h (by simp)

theorem fpsiStep_get {wanted : Bool} (h : fpsiStep s (.get now wanted) = some s') :
    s.clock ≤ now ∧ s' = { s with clock := now } := by
  rw [fpsiStep] at h
  by_cases hclock : s.clock ≤ now
  · rw [if_pos hclock] at h
    obtain ⟨r, -, heq⟩ := Option.map_eq_some_iff.mp h
    exact ⟨hclock, heq.symm⟩
  · rw [if_neg hclock] at h
    exact absurd h (by simp)

/-- The last update was in the second that is published, or nothing has been published. -/
theorem FpsiInv.lastSecond_cases (h : FpsiInv s) :
    lastSecond s.updates = some s.fpsi.stateSecTs ∨
      (s.updates = [] ∧ s.fpsi.stateSecTs = 0) := by
  have hsecond := h.second
  cases hlast : lastSecond s.updates with
  | none =>
    rw [hlast] at hsecond
    exact .inr ⟨lastSecond_eq_none_iff.mp hlast, hsecond⟩
  | some last =>
    rw [hlast] at hsecond
    exact .inl (congrArg some hsecond.symm)

theorem FpsiInv.secondBefore_lt (h : FpsiInv s) {last before : Int}
    (hlast : lastSecond s.updates = some last) (hbefore : secondBefore s.updates = some before) :
    0 ≤ before ∧ before < last := by
  have hne := ne_of_secondBefore hlast hbefore
  rw [secondBefore, hlast, Option.bind_some] at hbefore
  obtain ⟨v, hv, rfl⟩ := mem_of_lastSecond hbefore
  have hv := (List.mem_filter.mp hv).1
  exact ⟨(h.past v hv).1, lt_of_le_of_ne (le_lastSecond h.sorted hlast v hv) hne⟩

/-- What has been counted is of the last second. -/
theorem FpsiInv.accum_eq (h : FpsiInv s) :
    s.fpsi.accum
      = UInt32.ofNat (((lastSecond s.updates).map (bumpsIn s.updates)).getD 0) := by
  have haccum := h.accum
  rcases h.lastSecond_cases with hlast | ⟨hnil, -⟩
  · rw [haccum, hlast]
    rfl
  · rw [haccum, hnil]
    rfl

/-- All updates were in other seconds than one that is not the published one. -/
theorem FpsiInv.ne_second (h : FpsiInv s) (hclock : s.clock ≤ now)
    (hne : s.fpsi.stateSecTs ≠ usFloorMs now) : ∀ v ∈ s.updates, v.second ≠ usFloorMs now := by
  intro v hv heq
  rcases h.lastSecond_cases with hlast | ⟨hnil, -⟩
  · have hle := le_lastSecond h.sorted hlast v hv
    obtain ⟨w, hw, hwsecond⟩ := mem_of_lastSecond hlast
    have hpast := (h.past w hw).2.trans (usFloorMs_mono hclock)
    omega
  · rw [hnil] at hv
    exact absurd hv List.not_mem_nil

theorem FpsiInv.update (h : FpsiInv s) {bump : Bool} {info : Option UsFpsiMeta}
    (hst : fpsiStep s (.update now bump info) = some s') : FpsiInv s' := by
  obtain ⟨hclock, fpsi, hfpsi, rfl⟩ := fpsiStep_update hst
  obtain ⟨hinfo, hmeta, hsecond, hsame, hnew⟩ := usFpsiUpdate_eq_some hfpsi
  have hnow := usFloorMs_mono hclock
  have hpast : ∀ v ∈ s.updates, v.second ≤ usFloorMs now := fun v hv =>
    (h.past v hv).2.trans hnow
  have hclock' : 0 ≤ now := h.clock.trans hclock
  constructor
  · refine List.pairwise_append.mpr ⟨h.sorted, List.pairwise_singleton _ _, ?_⟩
    intro v hv w hw
    rw [List.mem_singleton.mp hw]
    exact hpast v hv
  · intro v hv
    rcases List.mem_append.mp hv with hold | hlast
    · exact ⟨(h.past v hold).1, hpast v hold⟩
    · rw [List.mem_singleton.mp hlast]
      exact ⟨usFloorMs_nonneg hclock', le_rfl⟩
  · intro v hv
    dsimp only
    rw [hmeta]
    rcases List.mem_append.mp hv with hold | hlast
    · exact h.info v hold
    · rw [List.mem_singleton.mp hlast]
      exact hinfo
  · exact hclock'
  · dsimp only
    rw [lastSecond_append, hsecond]
    rfl
  · dsimp only
    rw [hsecond, bumpsIn_append, beq_self_eq_true, Bool.and_true]
    by_cases heq : s.fpsi.stateSecTs = usFloorMs now
    · rw [(hsame heq).2, h.accum, heq, UInt32.ofNat_add]
    · rw [(hnew heq).2, bumpsIn_eq_zero (h.ne_second hclock heq), Nat.zero_add]
  · dsimp only
    by_cases heq : s.fpsi.stateSecTs = usFloorMs now
    · rw [(hsame heq).1, h.state]
      rcases h.lastSecond_cases with hlast | ⟨hnil, hzero⟩
      · rw [published_append_same (hlast.trans (congrArg some heq))]
      · have hfirst : (lastSecond ([⟨usFloorMs now, bump, info⟩] : List FpsiUpdate)) = some 0 :=
          congrArg some (heq ▸ hzero)
        rw [hnil, List.nil_append, published_nil, published_zero hfirst]
    · have hzero : usFloorMs now ≠ 0 := by
        intro hzero
        have hnonneg : 0 ≤ s.fpsi.stateSecTs ∧ s.fpsi.stateSecTs ≤ usFloorMs now := by
          rcases h.lastSecond_cases with hlast | ⟨-, hstart⟩
          · obtain ⟨w, hw, hwsecond⟩ := mem_of_lastSecond hlast
            exact hwsecond ▸ ⟨(h.past w hw).1, hpast w hw⟩
          · omega
        omega
      rw [(hnew heq).1, published_append_new (h.ne_second hclock heq) hzero, h.accum_eq]

theorem fpsiInv_of_reach (hr : fpsiSystem.Reach s) : FpsiInv s := by
  refine System.ReachVia.inv ?_ ?_ hr
  · rintro _ ⟨withMeta, rfl⟩
    exact {
      sorted := List.Pairwise.nil
      past := fun u hu => absurd hu List.not_mem_nil
      info := fun u hu => absurd hu List.not_mem_nil
      clock := le_rfl
      second := rfl
      accum := rfl
      state := rfl }
  · intro s s' act hI _ hst
    cases act with
    | update now bump info => exact hI.update hst
    | get now wanted =>
      obtain ⟨hclock, rfl⟩ := fpsiStep_get hst
      exact { hI with
        past := fun u hu =>
          ⟨(hI.past u hu).1, (hI.past u hu).2.trans (usFloorMs_mono hclock)⟩
        clock := hI.clock.trans hclock }

/-! ## 6. What is read -/

/-- The count that is published is that of the second before the last one, modulo 2 ^ 16. -/
theorem FpsiInv.count_eq (h : FpsiInv s) :
    (s.fpsi.state &&& 0xFFFF).toUInt32.toNat
      = ((secondBefore s.updates).map fun p => bumpsIn s.updates p % 65536).getD 0 := by
  rw [h.state]
  cases hlast : lastSecond s.updates with
  | none =>
    rw [lastSecond_eq_none_iff.mp hlast]
    rfl
  | some last =>
    by_cases hzero : last = 0
    · have hnone : secondBefore s.updates = none := by
        refine Option.eq_none_iff_forall_ne_some.mpr fun p hp => ?_
        have hlt := h.secondBefore_lt hlast hp
        omega
      rw [published_zero (hzero ▸ hlast), hnone]
      rfl
    · rw [published_of_ne hlast hzero, count_packState]
      cases hbefore : secondBefore s.updates with
      | none => rfl
      | some p =>
        rw [Option.map_some, Option.map_some, Option.getD_some, Option.getD_some,
          UInt32.toNat_ofNat']
        omega

/-- What `us_fpsi_get` returns. -/
theorem usFpsiGet_eq_some {fpsi : UsFpsi} {wanted : Bool} {r : UInt32 × Option UsFpsiMeta} :
    usFpsiGet fpsi now wanted = some r ↔ wanted = fpsi.withMeta ∧
      r = (if fpsi.stateSecTs = usFloorMs now ∨ fpsi.stateSecTs + 1 = usFloorMs now then
          (fpsi.state &&& 0xFFFF).toUInt32 else 0,
        if fpsi.withMeta then some (unpackMeta fpsi.state) else none) := by
  rw [usFpsiGet]
  by_cases hwanted : wanted = fpsi.withMeta
  · rw [if_pos hwanted, and_iff_right hwanted]
    by_cases hfresh : fpsi.stateSecTs = usFloorMs now ∨ fpsi.stateSecTs + 1 = usFloorMs now
    · rw [if_neg (not_and_or.mpr (hfresh.imp not_not.mpr not_not.mpr)), if_pos hfresh]
      exact Option.some_inj.trans eq_comm
    · rw [if_pos (not_or.mp hfresh), if_neg hfresh]
      exact Option.some_inj.trans eq_comm
  · rw [if_neg hwanted]
    exact ⟨fun h => absurd h (by simp), fun h => absurd h.1 hwanted⟩

section

variable (updates : List FpsiUpdate) (now : ℚ)

/-- No more than has been counted in the two seconds before. -/
def CountFresh (count : UInt32) : Prop :=
  count.toNat ≤ bumpsIn updates (usFloorMs now - 2) + bumpsIn updates (usFloorMs now - 1)

/-- The metadata of the first update of the latest second, if its fields fit. -/
def MetaFresh (info : Option UsFpsiMeta) : Prop :=
  ∀ first, firstOfLast updates = some first → first.width < 65536 → first.height < 65536 →
    info = some first

/-- If the last update was in this second or the one before, and the second of updates before it
lies further back than two, no more was counted there than in the two seconds before. -/
def NoPause : Prop :=
  ∀ last before, lastSecond updates = some last → usFloorMs now ≤ last + 1 →
    secondBefore updates = some before → before < usFloorMs now - 2 →
      bumpsIn updates before % 65536
        ≤ bumpsIn updates (usFloorMs now - 2) + bumpsIn updates (usFloorMs now - 1)

/-- If all updates were in second 0, the first of them brought nothing. -/
def NotSecondZero : Prop :=
  lastSecond updates = some 0 → ∀ first, firstOfLast updates = some first →
    first.width < 65536 → first.height < 65536 → first = ⟨0, 0, false⟩

end

/-- What is read is fresh. -/
def GetsFresh (s : FpsiState) : FpsiAct → Prop
  | .update _ _ _ => True
  | .get now wanted => s.clock ≤ now → ∀ count info,
      usFpsiGet s.fpsi now wanted = some (count, info) →
        CountFresh s.updates now count ∧ MetaFresh s.updates info

/-- What is read is read neither after a pause nor in the first second. -/
def GetsSteady (s : FpsiState) : FpsiAct → Prop
  | .update _ _ _ => True
  | .get now wanted => s.clock ≤ now → wanted = s.fpsi.withMeta →
      NoPause s.updates now ∧ NotSecondZero s.updates

/-- The count. -/
theorem FpsiInv.countFresh_iff (h : FpsiInv s) (hclock : s.clock ≤ now) :
    CountFresh s.updates now
        (if s.fpsi.stateSecTs = usFloorMs now ∨ s.fpsi.stateSecTs + 1 = usFloorMs now then
          (s.fpsi.state &&& 0xFFFF).toUInt32 else 0) ↔
      NoPause s.updates now := by
  have hcount := h.count_eq
  constructor
  · intro hfresh last before hlast hrecent hbefore hold
    have hsecond : s.fpsi.stateSecTs = last := by rw [h.second, hlast]; rfl
    obtain ⟨w, hw, hwsecond⟩ := mem_of_lastSecond hlast
    have hpast := (h.past w hw).2.trans (usFloorMs_mono hclock)
    rw [CountFresh, if_pos (by omega), hcount, hbefore] at hfresh
    exact hfresh
  · intro hpause
    rw [CountFresh]
    split
    · rename_i hrecent
      rw [hcount]
      cases hbefore : secondBefore s.updates with
      | none => exact Nat.zero_le _
      | some before =>
        obtain ⟨last, hlast⟩ : ∃ last, lastSecond s.updates = some last := by
          rw [secondBefore] at hbefore
          obtain ⟨last, hlast, -⟩ := Option.bind_eq_some_iff.mp hbefore
          exact ⟨last, hlast⟩
        have hsecond : s.fpsi.stateSecTs = last := by rw [h.second, hlast]; rfl
        obtain ⟨-, hlt⟩ := h.secondBefore_lt hlast hbefore
        rw [Option.map_some, Option.getD_some]
        by_cases hold : before < usFloorMs now - 2
        · exact hpause last before hlast (by omega) hbefore hold
        · have hmod := Nat.mod_le (bumpsIn s.updates before) 65536
          have htwo : before = usFloorMs now - 2 ∨ before = usFloorMs now - 1 := by omega
          rcases htwo with heq | heq
          · rw [← heq]
            omega
          · rw [← heq]
            omega
    · exact Nat.zero_le _

/-- The metadata. -/
theorem FpsiInv.metaFresh_iff (h : FpsiInv s) :
    MetaFresh s.updates (if s.fpsi.withMeta then some (unpackMeta s.fpsi.state) else none) ↔
      NotSecondZero s.updates := by
  have hfirst : ∀ first, firstOfLast s.updates = some first → s.fpsi.withMeta = true := by
    intro first hfirst
    obtain ⟨last, hlast, hfound⟩ := Option.bind_eq_some_iff.mp hfirst
    obtain ⟨u, hu, hinfo⟩ := Option.bind_eq_some_iff.mp hfound
    rw [← h.info u (List.mem_of_find?_eq_some hu), hinfo]
    rfl
  constructor
  · intro hfresh hzero first hfirst' hwidth hheight
    have hread := hfresh first hfirst' hwidth hheight
    rw [if_pos (hfirst first hfirst'), h.state, published_zero hzero] at hread
    exact (Option.some.inj hread).symm
  · intro hnot first hfirst' hwidth hheight
    obtain ⟨last, hlast, -⟩ := Option.bind_eq_some_iff.mp hfirst'
    rw [if_pos (hfirst first hfirst'), h.state]
    by_cases hzero : last = 0
    · rw [hnot (hzero ▸ hlast) first hfirst' hwidth hheight, published_zero (hzero ▸ hlast)]
      rfl
    · rw [published_of_ne hlast hzero, hfirst', unpackMeta_packState _ hwidth hheight]

/-- **One call.** -/
theorem FpsiInv.getsFresh_iff (h : FpsiInv s) (act : FpsiAct) :
    GetsFresh s act ↔ GetsSteady s act := by
  cases act with
  | update now bump info => exact Iff.rfl
  | get now wanted =>
    constructor
    · intro hfresh hclock hwanted
      have hget := hfresh hclock _ _ (usFpsiGet_eq_some.mpr ⟨hwanted, rfl⟩)
      exact ⟨(h.countFresh_iff hclock).mp hget.1, h.metaFresh_iff.mp hget.2⟩
    · intro hsteady hclock count info hget
      obtain ⟨hwanted, heq⟩ := usFpsiGet_eq_some.mp hget
      obtain ⟨hpause, hzero⟩ := hsteady hclock hwanted
      obtain ⟨rfl, rfl⟩ := Prod.mk.inj heq
      exact ⟨(h.countFresh_iff hclock).mpr hpause, h.metaFresh_iff.mpr hzero⟩

end

/-- **Frame rates.**  In a run from `us_fpsi_init` on whatever is read is fresh exactly if nothing
is read after a pause or before the meter's first publication. -/
theorem fpsi_fresh_iff {s : FpsiState} (hs : fpsiSystem.start s) (acts : List FpsiAct) :
    fpsiSystem.Along (fun _ => True) GetsFresh s acts ↔
      fpsiSystem.Along (fun _ => True) GetsSteady s acts :=
  System.along_congr (fun _ _ => ⟨trivial, trivial⟩)
    (fun _ act hr => (fpsiInv_of_reach hr).getsFresh_iff act) acts (.start hs)

/-- A meter without metadata. -/
def plainMeter : FpsiState := { fpsi := usFpsiInit false, clock := 0, updates := [] }

theorem plainMeter_start : fpsiSystem.start plainMeter := ⟨false, rfl⟩

/-- A frame in second 10, one in second 11, and a read. -/
theorem fpsi_fresh_iff_steady :
    fpsiSystem.start plainMeter ∧ fpsiSystem.Along (fun _ => True) GetsFresh plainMeter
      [.update 10 true none, .update 11 true none, .get 11 false] := by
  refine ⟨plainMeter_start, (fpsi_fresh_iff plainMeter_start _).mpr ?_⟩
  refine ⟨trivial, trivial, fun _ h => ?_⟩
  obtain rfl := Option.some.inj h
  refine ⟨trivial, trivial, fun _ h => ?_⟩
  obtain rfl := Option.some.inj h
  refine ⟨trivial, fun _ _ => ⟨?_, ?_⟩, fun _ _ => trivial⟩
  · intro last before hlast hrecent hbefore hold
    obtain rfl := Option.some.inj hbefore
    exact absurd hold (by decide +kernel)
  · intro hzero
    exact absurd hzero (by decide +kernel)

/-- Three frames in second 10, one in second 20, and a read: the three are still reported. -/
theorem old_count_published :
    fpsiSystem.start plainMeter ∧ ¬fpsiSystem.Along (fun _ => True) GetsFresh plainMeter
      [.update 10 true none, .update 10 true none, .update 10 true none, .update 20 true none,
        .get 20 false] := by
  refine ⟨plainMeter_start, fun h => ?_⟩
  obtain ⟨-, -, h⟩ := h
  obtain ⟨-, -, h⟩ := h _ rfl
  obtain ⟨-, -, h⟩ := h _ rfl
  obtain ⟨-, -, h⟩ := h _ rfl
  obtain ⟨-, h, -⟩ := h _ rfl
  have hcount := (h (by decide +kernel) 3 none (by decide +kernel)).1
  exact absurd hcount (by rw [CountFresh]; decide +kernel)

end TinyPilotKvm
