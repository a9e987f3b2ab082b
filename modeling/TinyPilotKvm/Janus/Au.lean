/-
# Mixing sound (`janus/src/au.c`)

`us_au_pcm_mix` adds the samples of one buffer to those of another by a formula in two branches,
computed in `int`.  Two things are wrong with it:

* its loop runs over the number of BYTES of the source and takes each for the index of a sample, so
  it also mixes as many samples behind the valid ones;
* the product of two shifted samples does not fit an `int` if both are loud.

Arithmetic that does not fit an `int` is `none` here, as an access outside the buffer is.
-/
import Mathlib.Tactic.Linarith
import Mathlib.Tactic.Ring
import TinyPilotKvm.Libs.Tools

namespace TinyPilotKvm

/-! ## 1. The code -/

/-- `US_RTP_OPUS_CH`. -/
def usRtpOpusCh : Nat := 2

/-- `US_RTP_OPUS_HZ`. -/
def usRtpOpusHz : Nat := 48000

/-- `US_AU_HZ_TO_FRAMES`: the frames of 20 ms. -/
def usAuHzToFrames (hz : Nat) : Nat := hz / 50

/-- `US_AU_HZ_TO_BUF16`. -/
def usAuHzToBuf16 (hz : Nat) : Nat := usAuHzToFrames hz * usRtpOpusCh

/-- `US_AU_MAX_BUF16`. -/
def usAuMaxBuf16 : Nat := usAuHzToBuf16 192000

/-- `us_au_pcm_s`. -/
structure UsAuPcm where
  data : Vector Int16 usAuMaxBuf16
  frames : Nat

/-- The result of an operation on `int`s.  `none`: it does not fit. -/
def cInt32 (x : Int) : Option Int := if -2147483648 ≤ x ∧ x ≤ 2147483647 then some x else none

/-- The two branches of the formula, of shifted samples. -/
def mixShifted (a b : Int) : Option Int :=
  if a < 32768 ∧ b < 32768 then do
    let product ← cInt32 (a * b)
    cInt32 (product.tdiv 32768)
  else do
    let sum ← cInt32 (a + b)
    let double ← cInt32 (2 * sum)
    let product ← cInt32 (a * b)
    let difference ← cInt32 (double - product.tdiv 32768)
    cInt32 (difference - 65536)

/-- The mixed value of two samples. -/
def mixSample (a b : Int16) : Option Int := do
  let a ← cInt32 (a.toInt + 32768)
  let b ← cInt32 (b.toInt + 32768)
  let m ← mixShifted a b
  let m := if m = 65536 then 65535 else m
  cInt32 (m - 32768)

/-- The body of the loop. -/
def mixTurn (src dest : Vector Int16 usAuMaxBuf16) (index : Nat) :
    Option (Vector Int16 usAuMaxBuf16) := do
  let a ← dest[index]?
  let b ← src[index]?
  let m ← mixSample a b
  return dest.setIfInBounds index (Int16.ofInt m)

/-- The loop, `turns` of it from `index` on: the samples, and the indices of those that it has
mixed. -/
def mixLoop (src : Vector Int16 usAuMaxBuf16) : Nat → Nat → Vector Int16 usAuMaxBuf16 →
    Option (Vector Int16 usAuMaxBuf16 × List Nat)
  | 0, _, dest => some (dest, [])
  | turns + 1, index, dest => do
    let dest ← mixTurn src dest index
    let (dest, mixed) ← mixLoop src turns (index + 1) dest
    return (dest, index :: mixed)

/-- `memcpy` of `size` bytes between two buffers. -/
def copySamples (dest src : Vector Int16 usAuMaxBuf16) (size : Nat) :
    Option (Vector Int16 usAuMaxBuf16) :=
  if size ≤ 2 * usAuMaxBuf16 then
    some (Vector.ofFn fun i => if i.val < size / 2 then src[i] else dest[i])
  else none

/-- `us_au_pcm_mix`: the destination after it, and the indices of the samples that are mixed. -/
def usAuPcmMix (dest src : UsAuPcm) : Option (UsAuPcm × List Nat) :=
  let size := src.frames * usRtpOpusCh * 2
  if src.frames = 0 then some (dest, [])
  else if dest.frames = 0 then
    (copySamples dest.data src.data size).map fun data => (⟨data, src.frames⟩, [])
  else if dest.frames = src.frames then
    (mixLoop src.data size 0 dest.data).map fun r => (⟨r.1, dest.frames⟩, r.2)
  else some (dest, [])

/-! ## 2. The formula -/

/-- The two branches over the integers: the product form when both shifted samples are below 32768,
the complementary form otherwise. -/
def mixBranches (p q : Int) : Int :=
  if p < 32768 ∧ q < 32768 then p * q / 32768 else 2 * (p + q) - p * q / 32768 - 65536

/-- The formula over the integers: the samples are shifted, the result is clamped at 65535 and
shifted back. -/
def mixFormula (a b : Int) : Int := min (mixBranches (a + 32768) (b + 32768)) 65535 - 32768

/-- The product of the shifted samples is an `int`. -/
def ProductFits (a b : Int16) : Prop := (a.toInt + 32768) * (b.toInt + 32768) ≤ 2147483647

instance (a b : Int16) : Decidable (ProductFits a b) := inferInstanceAs (Decidable (_ ≤ _))

/-- A sample that is shifted. -/
def IsShifted (p : Int) : Prop := 0 ≤ p ∧ p ≤ 65535

theorem isShifted (a : Int16) : IsShifted (a.toInt + 32768) := by
  have hlow := a.le_toInt
  have hhigh := a.toInt_lt
  exact ⟨by omega, by omega⟩

theorem cInt32_of_le {x : Int} (hlow : -2147483648 ≤ x) (hhigh : x ≤ 2147483647) :
    cInt32 x = some x := if_pos ⟨hlow, hhigh⟩

section

variable {p q : Int}

/-- The product form is below 32768. -/
theorem product_bounds (hp : IsShifted p) (hq : IsShifted q) (h : p < 32768 ∧ q < 32768) :
    0 ≤ p * q / 32768 ∧ p * q / 32768 < 32768 := by
  have hproduct : p * q ≤ 32767 * 32767 :=
    mul_le_mul (Int.le_sub_one_of_lt h.1) (Int.le_sub_one_of_lt h.2) hq.1 (by decide)
  have hnonneg : 0 ≤ p * q := mul_nonneg hp.1 hq.1
  omega

/-- The complementary form is the product form of what is missing to 65536, so it is at most
65536. -/
theorem complement_bounds (hp : IsShifted p) (hq : IsShifted q) (h : ¬(p < 32768 ∧ q < 32768)) :
    0 ≤ 2 * (p + q) - p * q / 32768 - 65536 ∧ 2 * (p + q) - p * q / 32768 - 65536 ≤ 65536 := by
  obtain ⟨hp0, hp1⟩ := hp
  obtain ⟨hq0, hq1⟩ := hq
  have hexpand : (65536 - p) * (65536 - q) = 4294967296 - 65536 * (p + q) + p * q := by ring
  have hnonneg : 0 ≤ (65536 - p) * (65536 - q) := mul_nonneg (by omega) (by omega)
  have hle : (65536 - p) * (65536 - q) ≤ 65536 * 32768 := by
    by_cases hsmall : p < 32768
    · exact mul_le_mul (by omega) (by omega) (by omega) (by omega)
    · rw [mul_comm]
      exact mul_le_mul (by omega) (by omega) (by omega) (by omega)
  omega

theorem mixBranches_bounds (hp : IsShifted p) (hq : IsShifted q) :
    0 ≤ mixBranches p q ∧ mixBranches p q ≤ 65536 := by
  unfold mixBranches
  split
  · rename_i h
    have hbounds := product_bounds hp hq h
    omega
  · rename_i h
    exact complement_bounds hp hq h

/-- A sum or a difference of the formula fits; its product fits or not. -/
theorem mixShifted_eq (hp : IsShifted p) (hq : IsShifted q) :
    mixShifted p q = if p * q ≤ 2147483647 then some (mixBranches p q) else none := by
  have hnonneg : 0 ≤ p * q := mul_nonneg hp.1 hq.1
  have hdiv : (p * q).tdiv 32768 = p * q / 32768 := Int.tdiv_eq_ediv_of_nonneg hnonneg
  unfold mixShifted mixBranches
  by_cases hsmall : p < 32768 ∧ q < 32768
  · have hbounds := product_bounds hp hq hsmall
    have hfits : p * q ≤ 2147483647 := by omega
    rw [if_pos hsmall, if_pos hsmall, if_pos hfits, cInt32_of_le (by omega) hfits]
    show cInt32 ((p * q).tdiv 32768) = _
    rw [hdiv, cInt32_of_le (by omega) (by omega)]
  · have hbounds := complement_bounds hp hq hsmall
    obtain ⟨hp0, hp1⟩ := hp
    obtain ⟨hq0, hq1⟩ := hq
    rw [if_neg hsmall, if_neg hsmall, cInt32_of_le (by omega) (by omega), Option.bind_eq_bind,
      Option.bind_some, cInt32_of_le (by omega) (by omega), Option.bind_some]
    by_cases hfits : p * q ≤ 2147483647
    · rw [if_pos hfits, cInt32_of_le (by omega) hfits, Option.bind_some, hdiv,
        cInt32_of_le (by omega) (by omega), Option.bind_some, cInt32_of_le (by omega) (by omega)]
    · rw [if_neg hfits, cInt32, if_neg (by omega), Option.bind_none]

end

theorem mixFormula_bounds (a b : Int16) :
    -32768 ≤ mixFormula a.toInt b.toInt ∧ mixFormula a.toInt b.toInt ≤ 32767 := by
  have hbounds := mixBranches_bounds (isShifted a) (isShifted b)
  unfold mixFormula
  omega

/-- **A sample.**  Nothing but the product of the shifted samples can be too large, and if it is
not, the value is that of the formula. -/
theorem mixSample_eq (a b : Int16) :
    mixSample a b = if ProductFits a b then some (mixFormula a.toInt b.toInt) else none := by
  have ha := isShifted a
  have hb := isShifted b
  have hbounds := mixBranches_bounds ha hb
  have hclamp : (if mixBranches (a.toInt + 32768) (b.toInt + 32768) = 65536 then 65535
      else mixBranches (a.toInt + 32768) (b.toInt + 32768))
      = min (mixBranches (a.toInt + 32768) (b.toInt + 32768)) 65535 := by
    split <;> omega
  unfold mixSample
  rw [cInt32_of_le (by have := ha.1; omega) (by have := ha.2; omega), Option.bind_eq_bind,
    Option.bind_some, cInt32_of_le (by have := hb.1; omega) (by have := hb.2; omega),
    Option.bind_some, mixShifted_eq ha hb]
  by_cases hfits : ProductFits a b
  · rw [if_pos hfits, if_pos (show _ ≤ _ from hfits), Option.bind_some]
    dsimp only
    rw [hclamp]
    exact cInt32_of_le (by omega) (by omega)
  · rw [if_neg hfits, if_neg (show ¬ _ ≤ _ from hfits), Option.bind_none]

/-! ## 3. The loop -/

section

variable {dest src : Vector Int16 usAuMaxBuf16}

/-- The value of the formula at an index. -/
def mixedAt (dest src : Vector Int16 usAuMaxBuf16) (i : Nat) : Option Int16 := do
  let a ← dest[i]?
  let b ← src[i]?
  return Int16.ofInt (mixFormula a.toInt b.toInt)

/-- The product of the samples at an index is an `int`. -/
def FitsAt (dest src : Vector Int16 usAuMaxBuf16) (i : Nat) : Prop :=
  ∀ a b, dest[i]? = some a → src[i]? = some b → ProductFits a b

/-- A turn at an index of the buffers. -/
theorem mixTurn_eq {i : Nat} (hi : i < usAuMaxBuf16) :
    mixTurn src dest i =
      if ProductFits dest[i] src[i] then
        some (dest.setIfInBounds i (Int16.ofInt (mixFormula dest[i].toInt src[i].toInt)))
      else none := by
  rw [mixTurn, Vector.getElem?_eq_getElem hi, Vector.getElem?_eq_getElem hi]
  simp only [bind, Option.bind_some, mixSample_eq]
  split
  · rfl
  · rfl

theorem fitsAt_iff {i : Nat} (hi : i < usAuMaxBuf16) :
    FitsAt dest src i ↔ ProductFits dest[i] src[i] := by
  unfold FitsAt
  rw [Vector.getElem?_eq_getElem hi, Vector.getElem?_eq_getElem hi]
  constructor
  · intro h
    exact h _ _ rfl rfl
  · rintro h a b ha hb
    rw [← Option.some.inj ha, ← Option.some.inj hb]
    exact h

/-- What the loop has mixed after its turns: the indices one after the other, each by the formula,
and nothing else. -/
structure Mixed (dest src : Vector Int16 usAuMaxBuf16) (index turns : Nat)
    (r : Vector Int16 usAuMaxBuf16 × List Nat) : Prop where
  indices : r.2 = List.range' index turns
  inside : ∀ i, index ≤ i → i < index + turns → r.1[i]? = mixedAt dest src i
  outside : ∀ i, i < index ∨ index + turns ≤ i → r.1[i]? = dest[i]?

theorem getElem?_set_ne {index i : Nat} (h : index ≠ i) (x : Int16) :
    (dest.setIfInBounds index x)[i]? = dest[i]? := Vector.getElem?_setIfInBounds_ne h

theorem mixedAt_set {index i : Nat} (h : index ≠ i) (x : Int16) :
    mixedAt (dest.setIfInBounds index x) src i = mixedAt dest src i := by
  rw [mixedAt, mixedAt, getElem?_set_ne h]

theorem fitsAt_set {index i : Nat} (h : index ≠ i) (x : Int16) :
    FitsAt (dest.setIfInBounds index x) src i ↔ FitsAt dest src i := by
  rw [FitsAt, FitsAt, getElem?_set_ne h]

/-- A turn, and the loop from the next index on. -/
theorem Mixed.cons {index turns : Nat} (hi : index < usAuMaxBuf16)
    {r : Vector Int16 usAuMaxBuf16 × List Nat}
    (h : Mixed (dest.setIfInBounds index
      (Int16.ofInt (mixFormula dest[index].toInt src[index].toInt))) src (index + 1) turns r) :
    Mixed dest src index (turns + 1) (r.1, index :: r.2) := by
  refine ⟨?_, fun i hlow hhigh => ?_, fun i hi' => ?_⟩
  · rw [h.indices, List.range'_succ]
  · by_cases hfirst : index = i
    · subst hfirst
      rw [h.outside index (.inl (Nat.lt_succ_self index)),
        Vector.getElem?_setIfInBounds_self_of_lt hi,
        mixedAt, Vector.getElem?_eq_getElem hi, Vector.getElem?_eq_getElem hi]
      rfl
    · rw [h.inside i (by omega) (by omega), mixedAt_set hfirst]
  · rw [h.outside i (by omega), getElem?_set_ne (by omega)]

/-- **The loop.**  It ends if all its products fit, and then it has mixed. -/
theorem mixLoop_spec : ∀ (turns : Nat) {index : Nat} {dest : Vector Int16 usAuMaxBuf16},
    index + turns ≤ usAuMaxBuf16 → (∀ i, index ≤ i → i < index + turns → FitsAt dest src i) →
    ∃ r, mixLoop src turns index dest = some r ∧ Mixed dest src index turns r
  | 0, index, dest, _, _ => by
    refine ⟨_, rfl, rfl, fun i hlow hhigh => ?_, fun i _ => rfl⟩
    omega
  | turns + 1, index, dest, hroom, hfits => by
    have hi : index < usAuMaxBuf16 := by omega
    have hfirst := (fitsAt_iff hi).mp (hfits index (Nat.le_refl _) (by omega))
    have hlater : ∀ i, index + 1 ≤ i → i < index + 1 + turns →
        FitsAt (dest.setIfInBounds index
          (Int16.ofInt (mixFormula dest[index].toInt src[index].toInt))) src i := by
      intro i hlow hhigh
      exact (fitsAt_set (by omega) _).mpr (hfits i (by omega) (by omega))
    obtain ⟨r, hr, hmixed⟩ := mixLoop_spec turns (by omega) hlater
    refine ⟨_, ?_, hmixed.cons hi⟩
    rw [mixLoop, mixTurn_eq hi, if_pos hfirst, Option.bind_eq_bind, Option.bind_some, hr]
    rfl

/-- It overflows if one of them does not. -/
theorem mixLoop_eq_none : ∀ (turns : Nat) {index : Nat} {dest : Vector Int16 usAuMaxBuf16},
    index + turns ≤ usAuMaxBuf16 → (∃ i, index ≤ i ∧ i < index + turns ∧ ¬FitsAt dest src i) →
    mixLoop src turns index dest = none
  | 0, index, dest, _, hloud => by
    obtain ⟨i, hlow, hhigh, -⟩ := hloud
    omega
  | turns + 1, index, dest, hroom, hloud => by
    have hi : index < usAuMaxBuf16 := by omega
    obtain ⟨i, hlow, hhigh, hloud⟩ := hloud
    rw [mixLoop, mixTurn_eq hi]
    split
    · rename_i hfirst
      have hlater : index ≠ i := by
        rintro rfl
        exact hloud ((fitsAt_iff hi).mpr hfirst)
      rw [Option.bind_eq_bind, Option.bind_some, mixLoop_eq_none turns (by omega)
        ⟨i, by omega, by omega, fun h => hloud ((fitsAt_set hlater _).mp h)⟩]
      rfl
    · rfl

end

/-! ## 4. The mixing of two buffers -/

/-- Two buffers that are mixed: equally many frames, at least one, at most those of 20 ms. -/
structure Mixable (dest src : UsAuPcm) : Prop where
  frames : dest.frames = src.frames
  pos : 0 < src.frames
  le : src.frames ≤ usAuHzToFrames usRtpOpusHz

variable {dest src : UsAuPcm}

theorem Mixable.usAuPcmMix_eq (h : Mixable dest src) :
    usAuPcmMix dest src =
      (mixLoop src.data (4 * src.frames) 0 dest.data).map fun r => (⟨r.1, dest.frames⟩, r.2) := by
  have hsize : src.frames * usRtpOpusCh * 2 = 4 * src.frames := by
    show src.frames * 2 * 2 = 4 * src.frames
    omega
  have hpos := h.pos
  rw [usAuPcmMix, if_neg (by omega), if_neg (by rw [h.frames]; omega), if_pos h.frames, hsize]

theorem Mixable.room (h : Mixable dest src) : 0 + 4 * src.frames ≤ usAuMaxBuf16 := by
  have hle : src.frames ≤ 960 := h.le
  show 0 + 4 * src.frames ≤ 7680
  omega

/-- The sample at `i` of `out` is that of the formula. -/
def EqualsFormula (dest src out : UsAuPcm) (i : Nat) : Prop :=
  ∃ a b m, dest.data[i]? = some a ∧ src.data[i]? = some b ∧ out.data[i]? = some m ∧
    m.toInt = mixFormula a.toInt b.toInt

/-- No arithmetic overflows, the samples of the frames are mixed and no others, and each is that of
the formula. -/
def MixesValidOnly (dest src : UsAuPcm) : Prop :=
  ∃ out mixed, usAuPcmMix dest src = some (out, mixed) ∧
    mixed = List.range (src.frames * usRtpOpusCh) ∧ ∀ i ∈ mixed, EqualsFormula dest src out i

/-- What comes of two buffers whose products fit. -/
theorem Mixable.mixed_of_eq_some (h : Mixable dest src) {out : UsAuPcm} {mixed : List Nat}
    (hmix : usAuPcmMix dest src = some (out, mixed)) :
    out.frames = dest.frames ∧
      Mixed dest.data src.data 0 (4 * src.frames) (out.data, mixed) := by
  rw [h.usAuPcmMix_eq] at hmix
  obtain ⟨r, hr, heq⟩ := Option.map_eq_some_iff.mp hmix
  obtain ⟨rfl, rfl⟩ := Prod.mk.inj heq
  refine ⟨rfl, ?_⟩
  by_cases hfits : ∀ i, 0 ≤ i → i < 0 + 4 * src.frames → FitsAt dest.data src.data i
  · obtain ⟨r', hr', hmixed⟩ := mixLoop_spec _ h.room hfits
    rw [hr] at hr'
    exact Option.some.inj hr' ▸ hmixed
  · simp only [not_forall] at hfits
    obtain ⟨i, hlow, hhigh, hloud⟩ := hfits
    rw [mixLoop_eq_none _ h.room ⟨i, hlow, hhigh, hloud⟩] at hr
    exact absurd hr (by simp)

theorem Mixable.isSome_iff (h : Mixable dest src) :
    (usAuPcmMix dest src).isSome ↔ ∀ i < 4 * src.frames, FitsAt dest.data src.data i := by
  rw [h.usAuPcmMix_eq, Option.isSome_map]
  constructor
  · intro hsome i hi
    by_contra hloud
    rw [mixLoop_eq_none _ h.room ⟨i, Nat.zero_le _, by omega, hloud⟩] at hsome
    exact absurd hsome (by simp)
  · intro hfits
    obtain ⟨r, hr, -⟩ := mixLoop_spec _ h.room fun i _ hi => hfits i (by omega)
    rw [hr]
    rfl

theorem equalsFormula_of_mixed {out : UsAuPcm} {i : Nat} (hi : i < usAuMaxBuf16)
    (h : out.data[i]? = mixedAt dest.data src.data i) : EqualsFormula dest src out i := by
  have hdest : dest.data[i]? = some dest.data[i] := Vector.getElem?_eq_getElem hi
  have hsrc : src.data[i]? = some src.data[i] := Vector.getElem?_eq_getElem hi
  rw [mixedAt, hdest, hsrc] at h
  obtain ⟨hlow, hhigh⟩ := mixFormula_bounds dest.data[i] src.data[i]
  refine ⟨_, _, _, Vector.getElem?_eq_getElem hi, Vector.getElem?_eq_getElem hi, h, ?_⟩
  exact Int16.toInt_ofInt_of_le (by omega) (by omega)

/-- **Mixing.**  On no input are the valid samples mixed and no others: the loop takes as many
behind them.  It overflows unless the products of all it takes fit an `int`; if they do, each value
is that of the formula, and what is behind the valid samples is left as it was just if the formula
gives it back. -/
theorem pcm_mixing (h : Mixable dest src) :
    ¬MixesValidOnly dest src ∧
      ((usAuPcmMix dest src).isSome ↔ ∀ i < 4 * src.frames, FitsAt dest.data src.data i) ∧
      ∀ out mixed, usAuPcmMix dest src = some (out, mixed) →
        mixed = List.range (4 * src.frames) ∧ out.frames = dest.frames ∧
          (∀ i < 4 * src.frames, EqualsFormula dest src out i) ∧
          (∀ i, 4 * src.frames ≤ i → out.data[i]? = dest.data[i]?) ∧
          ((∀ i, 2 * src.frames ≤ i → out.data[i]? = dest.data[i]?) ↔
            ∀ i, 2 * src.frames ≤ i → i < 4 * src.frames → ∀ a b, dest.data[i]? = some a →
              src.data[i]? = some b → mixFormula a.toInt b.toInt = a.toInt) := by
  have hroom := h.room
  refine ⟨?_, h.isSome_iff, fun out mixed hmix => ?_⟩
  · rintro ⟨out, mixed, hmix, hmixed, -⟩
    obtain ⟨-, hloop⟩ := h.mixed_of_eq_some hmix
    have hlength := congrArg List.length (hmixed.symm.trans hloop.indices)
    rw [List.length_range, List.length_range'] at hlength
    have hpos := h.pos
    have hch : src.frames * usRtpOpusCh = 2 * src.frames := Nat.mul_comm _ _
    omega
  · obtain ⟨hframes, hloop⟩ := h.mixed_of_eq_some hmix
    have hformula : ∀ i < 4 * src.frames, EqualsFormula dest src out i := fun i hi =>
      equalsFormula_of_mixed (by omega) (hloop.inside i (Nat.zero_le i) (by omega))
    have hbehind : ∀ i, 4 * src.frames ≤ i → out.data[i]? = dest.data[i]? := fun i hi =>
      hloop.outside i (.inr (by omega))
    refine ⟨hloop.indices.trans (List.range_eq_range' ..).symm, hframes, hformula, hbehind, ?_⟩
    constructor
    · intro hkept i hlow hhigh a b ha hb
      obtain ⟨a', b', m, ha', hb', hm, hvalue⟩ := hformula i hhigh
      obtain rfl := Option.some.inj (ha'.symm.trans ha)
      obtain rfl := Option.some.inj (hb'.symm.trans hb)
      have hsame : m = a' := Option.some.inj (hm.symm.trans ((hkept i hlow).trans ha))
      rw [← hvalue, hsame]
    · intro hkept i hlow
      by_cases hhigh : i < 4 * src.frames
      · obtain ⟨a, b, m, ha, hb, hm, hvalue⟩ := hformula i hhigh
        rw [hm, ha, Int16.toInt_inj.mp (hvalue.trans (hkept i hlow hhigh a b ha hb))]
      · exact hbehind i (by omega)

/-- A frame of the same sample all over. -/
def pcmFrameOf (x : Int16) : UsAuPcm := ⟨Vector.replicate _ x, 1⟩

theorem mixable_pcmFrameOf (x y : Int16) : Mixable (pcmFrameOf x) (pcmFrameOf y) :=
  ⟨rfl, Nat.one_pos, (by decide : 1 ≤ usAuHzToFrames usRtpOpusHz)⟩

/-- Two frames of silence: four samples are mixed. -/
theorem pcm_mixing_silence :
    Mixable (pcmFrameOf 0) (pcmFrameOf 0) ∧ ¬MixesValidOnly (pcmFrameOf 0) (pcmFrameOf 0) ∧
      ∀ out mixed, usAuPcmMix (pcmFrameOf 0) (pcmFrameOf 0) = some (out, mixed) →
        mixed = [0, 1, 2, 3] := by
  have hmixing := pcm_mixing (mixable_pcmFrameOf 0 0)
  exact ⟨mixable_pcmFrameOf 0 0, hmixing.1, fun out mixed h => (hmixing.2.2 out mixed h).1⟩

/-- Two frames of the loudest samples: the product of the first two is too large. -/
theorem loud_pair_overflows :
    Mixable (pcmFrameOf 32767) (pcmFrameOf 32767) ∧
      usAuPcmMix (pcmFrameOf 32767) (pcmFrameOf 32767) = none ∧
      ¬MixesValidOnly (pcmFrameOf 32767) (pcmFrameOf 32767) := by
  have hmixable := mixable_pcmFrameOf 32767 32767
  have hsize : 0 < usAuMaxBuf16 := by decide
  have hloud : ¬FitsAt (pcmFrameOf 32767).data (pcmFrameOf 32767).data 0 := by
    intro h
    have hfits := (fitsAt_iff hsize).mp h
    simp only [pcmFrameOf, Vector.getElem_replicate] at hfits
    exact absurd hfits (by decide)
  have hnone : usAuPcmMix (pcmFrameOf 32767) (pcmFrameOf 32767) = none := by
    rw [hmixable.usAuPcmMix_eq, mixLoop_eq_none _ hmixable.room ⟨0, by decide, by decide, hloud⟩]
    rfl
  refine ⟨hmixable, hnone, ?_⟩
  rintro ⟨out, mixed, hmix, -⟩
  rw [hnone] at hmix
  exact absurd hmix (by simp)

end TinyPilotKvm
