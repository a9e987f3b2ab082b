/-
# The Annex B byte stream

H.264 units are joined into one stream by start codes: three bytes `00 00 01`, or four with one more
zero before them.  `find` is the first start code of a stream; the lemmas say where it is when
the bytes before it contain none.

Any bytes at all are cut by their start codes into pieces (`exists_joined`), and every piece but
the last gives one zero at its end to the next start code (`pieceUnits`).  No unit is left empty
exactly when the start codes keep apart (`filled_iff`).
-/
import Mathlib.Data.List.Infix

namespace TinyPilotKvm.AnnexB

/-! ## 1. Start codes -/

def startCode : List UInt8 := [0, 0, 1]

/-- The three-byte and the four-byte form. -/
inductive Prefix
  | short
  | long
  deriving DecidableEq

/-- What stands before `startCode`. -/
def Prefix.pad : Prefix → List UInt8
  | .short => []
  | .long => [0]

/-- A stream of units, each after its start code. -/
def stream : List (Prefix × List UInt8) → List UInt8
  | [] => []
  | (p, unit) :: units => p.pad ++ startCode ++ unit ++ stream units

/-- The offset of the first start code. -/
def find : List UInt8 → Option Nat
  | [] => none
  | b :: bs => if startCode <+: b :: bs then some 0 else (find bs).map (· + 1)

/-! ## 2. Where it is -/

theorem find_eq_none_iff {xs : List UInt8} : find xs = none ↔ ¬ startCode <:+: xs := by
  induction xs with
  | nil =>
    rw [List.infix_nil]
    exact ⟨fun _ => by decide, fun _ => rfl⟩
  | cons b bs ih =>
    rw [find, List.infix_cons_iff, not_or]
    by_cases h : startCode <+: b :: bs
    · rw [if_pos h]
      exact ⟨fun h0 => absurd h0 (by simp), fun h0 => absurd h h0.1⟩
    · rw [if_neg h, Option.map_eq_none_iff, ih]
      exact ⟨fun h0 => ⟨h, h0⟩, fun h0 => h0.2⟩

/-- A zero completes no start code. -/
theorem not_infix_append_pad {xs : List UInt8} (h : ¬ startCode <:+: xs) (p : Prefix) :
    ¬ startCode <:+: xs ++ p.pad := by
  cases p with
  | short => simpa only [Prefix.pad, List.append_nil] using h
  | long =>
    intro hpart
    rw [Prefix.pad, List.infix_concat_iff] at hpart
    rcases hpart with hsuffix | hpart
    · obtain ⟨ys, hys⟩ := hsuffix
      have hlast := congrArg List.getLast? hys
      rw [List.getLast?_concat, List.getLast?_append_of_ne_nil _ (by decide)] at hlast
      exact absurd hlast (by decide)
    · exact h hpart

/-- A start code does not begin in the bytes before one and end in it. -/
theorem not_prefix_append_startCode {b : UInt8} {bs : List UInt8} (h : ¬ startCode <+: b :: bs)
    (rest : List UInt8) : ¬ startCode <+: b :: (bs ++ startCode ++ rest) := by
  rintro ⟨t, ht⟩
  -- The third byte would be a zero of the next start code, unless all three stand in `b :: bs`.
  match bs, ht with
  | [], ht => simp [startCode] at ht
  | [c], ht => simp [startCode] at ht
  | c :: d :: bs, ht =>
    simp only [startCode, List.cons_append, List.cons.injEq, List.nil_append] at ht
    obtain ⟨rfl, rfl, rfl, -⟩ := ht
    exact h ⟨bs, rfl⟩

/-- **The first start code after bytes without one** is where these end: no start code
overlaps the next. -/
theorem find_append_startCode {xs : List UInt8} (h : ¬ startCode <:+: xs) (rest : List UInt8) :
    find (xs ++ startCode ++ rest) = some xs.length := by
  induction xs with
  | nil =>
    show find (0 :: 0 :: 1 :: rest) = some 0
    rw [find, if_pos ⟨rest, rfl⟩]
  | cons b bs ih =>
    rw [List.infix_cons_iff, not_or] at h
    obtain ⟨hstart, hpart⟩ := h
    have hnot := not_prefix_append_startCode hstart rest
    rw [List.cons_append, List.cons_append, find, if_neg hnot, ih hpart, Option.map_some,
      List.length_cons]

theorem find_eq_zero_of_isPrefix {xs : List UInt8} (h : startCode <+: xs) : find xs = some 0 := by
  cases xs with
  | nil => exact absurd h (by decide)
  | cons b bs => rw [find, if_pos h]

/-- Bytes with a start code, cut at the first. -/
theorem exists_append_startCode {xs : List UInt8} (h : startCode <:+: xs) :
    ∃ before rest, xs = before ++ startCode ++ rest ∧ ¬ startCode <:+: before := by
  induction xs with
  | nil => exact absurd h (by decide)
  | cons b bs ih =>
    by_cases hstart : startCode <+: b :: bs
    · obtain ⟨rest, hrest⟩ := hstart
      exact ⟨[], rest, hrest.symm, by decide⟩
    · obtain ⟨before, rest, rfl, hfree⟩ := ih ((List.infix_cons_iff.mp h).resolve_left hstart)
      refine ⟨b :: before, rest, rfl, fun hpart => ?_⟩
      rcases List.infix_cons_iff.mp hpart with hprefix | hpart
      · obtain ⟨t, ht⟩ := hprefix
        exact hstart ⟨t ++ (startCode ++ rest), by
          rw [← List.append_assoc, ht, List.cons_append, List.append_assoc]⟩
      · exact hfree hpart

/-! ## 3. Pieces -/

/-- Pieces, each behind a start code. -/
def joined (pieces : List (List UInt8)) : List UInt8 := pieces.flatMap (startCode ++ ·)

theorem joined_cons (piece : List UInt8) (pieces : List (List UInt8)) :
    joined (piece :: pieces) = startCode ++ (piece ++ joined pieces) := by
  rw [joined, List.flatMap_cons, List.append_assoc]
  rfl

/-- **Any bytes are pieces without start codes**, joined by start codes. -/
theorem exists_joined (xs : List UInt8) : ∃ before pieces, xs = before ++ joined pieces ∧
    ∀ piece ∈ before :: pieces, ¬ startCode <:+: piece := by
  induction hn : xs.length using Nat.strongRecOn generalizing xs with
  | ind n ih =>
    by_cases h : startCode <:+: xs
    · obtain ⟨before, rest, hxs, hfree⟩ := exists_append_startCode h
      have hlt : rest.length < n := by
        rw [← hn, hxs, List.length_append, List.length_append]
        exact Nat.lt_add_of_pos_left (Nat.add_pos_right _ (by decide))
      obtain ⟨piece, pieces, rfl, hpieces⟩ := ih rest.length hlt rest rfl
      refine ⟨before, piece :: pieces, ?_, List.forall_mem_cons.mpr ⟨hfree, hpieces⟩⟩
      rw [hxs, joined_cons, List.append_assoc]
    · exact ⟨xs, [], (List.append_nil xs).symm, by simpa using h⟩

/-- Less one zero at the end. -/
def withoutLastZero (piece : List UInt8) : List UInt8 :=
  if piece.getLast? = some 0 then piece.dropLast else piece

/-- The units of the pieces: the zero of a four-byte start code is not the unit's before it. -/
def pieceUnits : List (List UInt8) → List (List UInt8)
  | [] => []
  | [piece] => [piece]
  | piece :: next :: pieces => withoutLastZero piece :: pieceUnits (next :: pieces)

theorem withoutLastZero_eq_nil_iff {piece : List UInt8} :
    withoutLastZero piece = [] ↔ piece = [] ∨ piece = [0] := by
  unfold withoutLastZero
  rcases List.eq_nil_or_concat piece with rfl | ⟨bytes, b, rfl⟩
  · simp
  · rw [List.concat_eq_append, List.getLast?_concat, List.dropLast_concat]
    by_cases hb : b = 0
    · subst hb
      cases bytes <;> simp
    · rw [if_neg (by simpa using hb)]
      cases bytes <;> simp [hb]

theorem withoutLastZero_append_pad {unit : List UInt8} (p : Prefix) :
    withoutLastZero (unit ++ p.pad) = unit ∨ withoutLastZero (unit ++ p.pad) ++ [0] = unit := by
  cases p with
  | long =>
    left
    rw [withoutLastZero, Prefix.pad, List.getLast?_concat, if_pos rfl, List.dropLast_concat]
  | short =>
    rw [Prefix.pad, List.append_nil, withoutLastZero]
    split
    · rename_i hlast
      exact Or.inr (List.dropLast_append_getLast? 0 hlast)
    · exact Or.inl rfl

/-! ## 4. The pieces of a stream -/

/-- The pieces of a stream: the pad of a start code stands behind the unit before it. -/
def piecesOf : List (Prefix × List UInt8) → List (List UInt8)
  | [] => []
  | [(_, unit)] => [unit]
  | (_, unit) :: (p, next) :: units => (unit ++ p.pad) :: piecesOf ((p, next) :: units)

theorem stream_eq_joined (p : Prefix) (unit : List UInt8) (units : List (Prefix × List UInt8)) :
    stream ((p, unit) :: units) = p.pad ++ joined (piecesOf ((p, unit) :: units)) := by
  induction units generalizing p unit with
  | nil =>
    rw [piecesOf, joined_cons, stream, stream, joined, List.flatMap_nil, List.append_nil,
      List.append_nil, List.append_assoc]
  | cons next units ih =>
    rw [piecesOf, joined_cons, stream, ih]
    simp only [List.append_assoc]

/-- Units without start codes make pieces without. -/
theorem not_infix_of_mem_piecesOf {units : List (Prefix × List UInt8)}
    (h : ∀ u ∈ units, ¬ startCode <:+: u.2) : ∀ piece ∈ piecesOf units, ¬ startCode <:+: piece := by
  induction units with
  | nil => exact fun piece hp => absurd hp List.not_mem_nil
  | cons u units ih =>
    obtain ⟨hunit, hunits⟩ := List.forall_mem_cons.mp h
    cases units with
    | nil => exact List.forall_mem_singleton.mpr hunit
    | cons next units =>
      exact List.forall_mem_cons.mpr ⟨not_infix_append_pad hunit next.1, ih hunits⟩

theorem nil_not_mem_piecesOf {units : List (Prefix × List UInt8)} (h : ∀ u ∈ units, u.2 ≠ []) :
    [] ∉ piecesOf units := by
  induction units with
  | nil => exact List.not_mem_nil
  | cons u units ih =>
    obtain ⟨hunit, hunits⟩ := List.forall_mem_cons.mp h
    cases units with
    | nil => exact fun h0 => hunit (List.mem_singleton.mp h0).symm
    | cons next units =>
      rw [piecesOf, List.mem_cons, not_or]
      exact ⟨fun h0 => hunit (List.append_eq_nil_iff.mp h0.symm).1, ih hunits⟩

/-- The units of a stream's pieces are the stream's, but for a zero at the end of some. -/
theorem pieceUnits_piecesOf (units : List (Prefix × List UInt8)) :
    List.Forall₂ (fun u bytes => bytes = u.2 ∨ bytes ++ [0] = u.2) units
      (pieceUnits (piecesOf units)) := by
  induction units with
  | nil => exact List.Forall₂.nil
  | cons u units ih =>
    cases units with
    | nil => exact List.Forall₂.cons (Or.inl rfl) List.Forall₂.nil
    | cons next units =>
      obtain ⟨piece, pieces, hpieces⟩ :
          ∃ piece pieces, piecesOf (next :: units) = piece :: pieces := by
        cases units with
        | nil => exact ⟨_, _, rfl⟩
        | cons _ _ => exact ⟨_, _, rfl⟩
      rw [hpieces] at ih
      rw [piecesOf, hpieces, pieceUnits]
      exact List.Forall₂.cons (withoutLastZero_append_pad next.1) ih

/-! ## 5. Start codes that keep apart -/

/-- No start code right behind another one or behind one zero more, and none at the end. -/
def Filled (xs : List UInt8) : Prop :=
  ¬ startCode ++ startCode <:+: xs ∧ ¬ startCode ++ ([0] ++ startCode) <:+: xs ∧ ¬ startCode <:+ xs

instance (xs : List UInt8) : Decidable (Filled xs) :=
  inferInstanceAs (Decidable (_ ∧ _ ∧ _))

theorem filled_of_not_infix {xs : List UInt8} (h : ¬ startCode <:+: xs) : Filled xs :=
  ⟨fun h0 => h ((List.prefix_append _ _).isInfix.trans h0),
    fun h0 => h ((List.prefix_append _ _).isInfix.trans h0), fun h0 => h h0.isInfix⟩

/-- What begins with a start code begins at the first, or stands behind it. -/
theorem infix_append_startCode_iff {xs : List UInt8} (h : ¬ startCode <:+: xs)
    (w rest : List UInt8) :
    startCode ++ w <:+: xs ++ startCode ++ rest ↔ w <+: rest ∨ startCode ++ w <:+: rest := by
  induction xs with
  | nil =>
    have hone : ¬ startCode ++ w <+: 0 :: 1 :: rest := by simp [startCode]
    have htwo : ¬ startCode ++ w <+: 1 :: rest := by simp [startCode]
    have hzero : startCode ++ w <+: startCode ++ rest ↔ w <+: rest := List.prefix_append_right_inj _
    rw [List.nil_append]
    show startCode ++ w <:+: 0 :: 0 :: 1 :: rest ↔ _
    rw [List.infix_cons_iff, List.infix_cons_iff, List.infix_cons_iff, or_iff_right hone,
      or_iff_right htwo]
    exact or_congr hzero Iff.rfl
  | cons b bs ih =>
    rw [List.infix_cons_iff, not_or] at h
    have hnot : ¬ startCode ++ w <+: b :: (bs ++ startCode ++ rest) := fun h0 =>
      not_prefix_append_startCode h.1 rest ((List.prefix_append _ _).trans h0)
    rw [List.cons_append, List.cons_append, List.infix_cons_iff, or_iff_right hnot]
    exact ih h.2

/-- A start code at the end is the first or stands behind it. -/
theorem suffix_append_startCode_iff (xs rest : List UInt8) :
    startCode <:+ xs ++ startCode ++ rest ↔ rest = [] ∨ startCode <:+ rest := by
  constructor
  · intro h
    match rest, h with
    | [], _ => exact Or.inl rfl
    | [a], h =>
      have hback := List.reverse_prefix.mpr h
      simp [startCode] at hback
    | [a, b], h =>
      have hback := List.reverse_prefix.mpr h
      simp [startCode] at hback
    | a :: b :: c :: rest, h =>
      exact Or.inr (List.suffix_of_suffix_length_le h (List.suffix_append _ _)
        (by simp [startCode]))
  · rintro (rfl | h)
    · rw [List.append_nil]
      exact List.suffix_append _ _
    · exact h.trans (List.suffix_append _ _)

theorem startCode_prefix_iff {xs : List UInt8} (h : ¬ startCode <:+: xs) (rest : List UInt8) :
    startCode <+: xs ++ startCode ++ rest ↔ xs = [] := by
  constructor
  · intro h0
    have hfind := (find_append_startCode h rest).symm.trans (find_eq_zero_of_isPrefix h0)
    exact List.length_eq_zero_iff.mp (Option.some.inj hfind)
  · rintro rfl
    exact ⟨rest, rfl⟩

theorem zero_startCode_prefix_iff {xs : List UInt8} (h : ¬ startCode <:+: xs) (rest : List UInt8) :
    [0] ++ startCode <+: xs ++ startCode ++ rest ↔ xs = [0] := by
  cases xs with
  | nil => simp [startCode]
  | cons b bs =>
    have hbs : ¬ startCode <:+: bs := fun h0 => h (List.infix_cons_iff.mpr (Or.inr h0))
    have hcons : [0] ++ startCode <+: b :: (bs ++ startCode ++ rest)
        ↔ 0 = b ∧ startCode <+: bs ++ startCode ++ rest := List.cons_prefix_cons
    show [0] ++ startCode <+: b :: (bs ++ startCode ++ rest) ↔ _
    rw [hcons, startCode_prefix_iff hbs, List.cons.injEq]
    exact and_congr_left' eq_comm

/-- **The units are filled exactly when the start codes keep apart.** -/
theorem filled_iff {before : List UInt8} {pieces : List (List UInt8)}
    (hfree : ∀ piece ∈ before :: pieces, ¬ startCode <:+: piece) :
    Filled (before ++ joined pieces) ↔ [] ∉ pieceUnits pieces := by
  induction pieces generalizing before with
  | nil =>
    rw [joined, List.flatMap_nil, List.append_nil]
    exact ⟨fun _ => List.not_mem_nil,
      fun _ => filled_of_not_infix (hfree before List.mem_cons_self)⟩
  | cons piece pieces ih =>
    obtain ⟨hbefore, hpieces⟩ := List.forall_mem_cons.mp hfree
    have hpiece := hpieces piece List.mem_cons_self
    have hrec := ih hpieces
    rw [joined_cons, ← List.append_assoc, Filled, infix_append_startCode_iff hbefore,
      infix_append_startCode_iff hbefore, suffix_append_startCode_iff]
    cases pieces with
    | nil =>
      have hstart : ¬ startCode <+: piece := fun h0 => hpiece h0.isInfix
      have hzero : ¬ [0] ++ startCode <+: piece := fun h0 =>
        hpiece ((List.suffix_append _ _).isInfix.trans h0.isInfix)
      obtain ⟨hcodes, hcodes0, hlast⟩ := filled_of_not_infix hpiece
      rw [joined, List.flatMap_nil, List.append_nil]
      simp only [hstart, hzero, hcodes, hcodes0, hlast, or_false, not_false_eq_true, true_and,
        pieceUnits, List.mem_singleton]
      exact not_congr eq_comm
    | cons next pieces =>
      rw [joined_cons, ← List.append_assoc] at hrec ⊢
      rw [startCode_prefix_iff hpiece, zero_startCode_prefix_iff hpiece]
      have hne : piece ++ startCode ++ (next ++ joined pieces) ≠ [] := by
        simp [startCode]
      have hunit : [] = withoutLastZero piece ↔ piece = [] ∨ piece = [0] :=
        eq_comm.trans withoutLastZero_eq_nil_iff
      rw [Filled] at hrec
      rw [pieceUnits, List.mem_cons, hunit]
      grind

end TinyPilotKvm.AnnexB
