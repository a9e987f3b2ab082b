/-
# What the simplification of a path computes

`us_simplify_request_path` works on characters; this module says what it does to components.
Split the path at its slashes: what stands before the first slash, and then one component for every
slash.  What has been written at the end of a token is always a `Kept`: a beginning
without a slash and a list of components, neither empty nor `.` nor `..`.  A component is
dropped, pushed, or pops the one before.

`pathLoop_components` is the correspondence: from the end of a token the main loop ends, never
leaves its memory, and writes what `Kept.finish` says of the remaining components.  A token is one
induction over its characters (`pathLoop_token`), the components are another.
-/
import Mathlib.Data.List.Induction
import TinyPilotKvm.Formats.LexicalPath
import TinyPilotKvm.Ustreamer.Http.Path

namespace TinyPilotKvm

/-! ## 1. Components -/

/-- Components, each behind a slash. -/
def joinSlash (comps : List (List UInt8)) : List UInt8 := LexicalPath.join chSlash comps

@[simp] theorem joinSlash_nil : joinSlash [] = [] := rfl

@[simp] theorem joinSlash_cons (c : List UInt8) (cs : List (List UInt8)) :
    joinSlash (c :: cs) = chSlash :: (c ++ joinSlash cs) := rfl

theorem joinSlash_append (cs ds : List (List UInt8)) :
    joinSlash (cs ++ ds) = joinSlash cs ++ joinSlash ds := LexicalPath.join_append chSlash cs ds

/-- What has been kept of a path so far. -/
structure Kept where
  /-- What stands before the first slash. -/
  first : List UInt8
  comps : List (List UInt8)

namespace Kept

/-- What has been kept of an absolute path before its first component. -/
def empty : Kept := ⟨[], []⟩

def bytes (k : Kept) : List UInt8 := k.first ++ joinSlash k.comps

/-- The effect of `/..`. -/
def pop (k : Kept) : Kept :=
  if k.comps = [] then empty else { k with comps := k.comps.dropLast }

/-- The effect of a component that is not the last. -/
def comp (k : Kept) (c : List UInt8) : Kept :=
  if c = [] ∨ c = [chDot] then k
  else if c = [chDot, chDot] then k.pop
  else { k with comps := k.comps ++ [c] }

/-- What is left by `/..` at the end.  The byte behind the write pointer is kept: the slash of the
component that is removed, or the FIRST BYTE of a relative path of one component. -/
def lastUp (k : Kept) : List UInt8 :=
  if k.comps = [] then [k.first.headD chSlash] else k.pop.bytes ++ [chSlash]

/-- The effect of the last component. -/
def last (k : Kept) (c : List UInt8) : List UInt8 :=
  if c = [] ∨ c = [chDot] then k.bytes ++ [chSlash]
  else if c = [chDot, chDot] then k.lastUp
  else (k.comp c).bytes

/-- The effect of the components `c :: cs`. -/
def finish (k : Kept) (c : List UInt8) : List (List UInt8) → List UInt8
  | [] => k.last c
  | c' :: cs => (k.comp c).finish c' cs

end Kept

/-- The characters of a component. -/
def Plain (c : List UInt8) : Prop := chSlash ∉ c ∧ (0 : UInt8) ∉ c

/-- A component that is pushed. -/
def IsName (c : List UInt8) : Prop := Plain c ∧ c ≠ [] ∧ c ≠ [chDot] ∧ c ≠ [chDot, chDot]

/-- A `Kept` that the loop can have written: its first part is no component that is dropped. -/
structure Kept.Wf (k : Kept) : Prop where
  first : k.first = [] ∨ IsName k.first
  comps : ∀ c ∈ k.comps, IsName c

namespace Kept

variable {k : Kept} {c : List UInt8}

theorem wf_empty : empty.Wf := ⟨Or.inl rfl, fun c hc => absurd hc (by simp [empty])⟩

theorem Wf.pop (h : k.Wf) : k.pop.Wf := by
  unfold Kept.pop
  split
  · exact wf_empty
  · exact ⟨h.first, fun c hc => h.comps c (List.dropLast_subset _ hc)⟩

theorem Wf.comp (h : k.Wf) (hc : Plain c) : (k.comp c).Wf := by
  unfold Kept.comp
  split
  · exact h
  split
  · exact h.pop
  · rename_i hdot hdots
    rw [not_or] at hdot
    refine ⟨h.first, fun d hd => ?_⟩
    rcases List.mem_append.mp hd with hd | hd
    · exact h.comps d hd
    · rw [List.mem_singleton.mp hd]
      exact ⟨hc, hdot.1, hdot.2, hdots⟩

end Kept

/-! ## 2. The end of a token -/

section EndToken

variable {buf : List UInt8} {k : Kept} {c : List UInt8} {pre2 pre1 p0 : UInt8}

theorem joinSlash_concat (cs : List (List UInt8)) (c : List UInt8) :
    joinSlash (cs ++ [c]) = joinSlash cs ++ chSlash :: c := by
  rw [joinSlash_append, joinSlash_cons, joinSlash_nil, List.append_nil]

/-- A `Kept` whose last component is `c`. -/
theorem Kept.eq_concat (h : k.comps ≠ []) : ∃ cs c, k.comps = cs ++ [c] ∧ c ∈ k.comps ∧
    k.bytes = k.pop.bytes ++ chSlash :: c := by
  refine ⟨k.comps.dropLast, k.comps.getLast h, (List.dropLast_concat_getLast h).symm,
    List.getLast_mem h, ?_⟩
  have hpop : k.pop.bytes = k.first ++ joinSlash k.comps.dropLast := by
    unfold Kept.pop
    rw [if_neg h]
    rfl
  calc k.bytes
      = k.first ++ joinSlash (k.comps.dropLast ++ [k.comps.getLast h]) := by
        rw [List.dropLast_concat_getLast h]
        rfl
    _ = k.pop.bytes ++ chSlash :: k.comps.getLast h := by
        rw [joinSlash_concat, hpop, List.append_assoc]

theorem Kept.pop_of_nil (h : k.comps = []) : k.pop.bytes = [] := by
  unfold Kept.pop
  rw [if_pos h]
  rfl

theorem Kept.bytes_of_nil (h : k.comps = []) : k.bytes = k.first := by
  unfold Kept.bytes
  rw [h, joinSlash_nil, List.append_nil]

theorem Kept.pop_prefix (k : Kept) : k.pop.bytes <+: k.bytes := by
  by_cases h : k.comps = []
  · rw [Kept.pop_of_nil h]
    exact List.nil_prefix
  · obtain ⟨cs, c, -, -, hbytes⟩ := Kept.eq_concat h
    rw [hbytes]
    exact List.prefix_append _ _

/-- **The scan back** over characters that are no slashes stops at the slash before them. -/
theorem backToSlash_eq {pre : List UInt8} (hbuf : pre ++ chSlash :: c <+: buf) (hc : chSlash ∉ c) :
    backToSlash buf (pre.length + c.length) = some pre.length := by
  induction c using List.reverseRecOn with
  | nil =>
    rw [List.length_nil, Nat.add_zero]
    have hread : buf[pre.length]? = some chSlash := by
      rw [getElem?_of_isPrefix hbuf (by simp), List.getElem?_append_right (Nat.le_refl _)]
      simp
    cases hpre : pre.length with
    | zero => rfl
    | succ n =>
      rw [hpre] at hread
      simp [backToSlash, hread]
  | append_singleton c x ih =>
    have hx : x ≠ chSlash := fun h => hc (by simp [h])
    have hread : buf[pre.length + c.length + 1]? = some x := by
      have hoff : pre.length + c.length + 1 - pre.length = c.length + 1 := by omega
      rw [getElem?_of_isPrefix hbuf (by simp; omega), List.getElem?_append_right (by omega), hoff]
      simp
    have hrest := ih ((List.prefix_append _ [x]).trans (by simpa using hbuf))
      (fun h => hc (by simp [h]))
    rw [List.length_append, List.length_singleton, ← Nat.add_assoc]
    simp [backToSlash, hread, hx, hrest]

/-- Without a slash before them it stops at the start. -/
theorem backToSlash_start (hbuf : c <+: buf) (hc : chSlash ∉ c) :
    backToSlash buf (c.length - 1) = some 0 := by
  induction c using List.reverseRecOn with
  | nil => rfl
  | append_singleton c x ih =>
    have hx : x ≠ chSlash := fun h => hc (by simp [h])
    have hrest := ih ((List.prefix_append _ [x]).trans hbuf) (fun h => hc (by simp [h]))
    rw [List.length_append, List.length_singleton, Nat.add_sub_cancel]
    cases hlen : c.length with
    | zero => rfl
    | succ n =>
      have hread : buf[n + 1]? = some x := by
        have hoff : n + 1 - c.length = 0 := by omega
        rw [getElem?_of_isPrefix hbuf (by simp; omega), List.getElem?_append_right (by omega), hoff]
        simp
      rw [hlen, Nat.add_sub_cancel] at hrest
      simp [backToSlash, hread, hx, hrest]

/-- `/..` takes the write pointer back over the last component. -/
theorem overComponent_kept (hk : k.Wf) (hbuf : k.bytes <+: buf) :
    overComponent buf k.bytes.length = some k.pop.bytes.length := by
  unfold overComponent
  by_cases h : k.comps = []
  · rw [Kept.pop_of_nil h, List.length_nil]
    split
    · refine backToSlash_start hbuf ?_
      rw [Kept.bytes_of_nil h]
      rcases hk.first with hnil | hname
      · rw [hnil]
        exact List.not_mem_nil
      · exact hname.1.1
    · rename_i hlen
      exact congrArg some (by omega)
  · obtain ⟨cs, c, -, hmem, hbytes⟩ := Kept.eq_concat h
    have hlen : k.bytes.length = k.pop.bytes.length + c.length + 1 := by
      rw [hbytes, List.length_append, List.length_cons, Nat.add_assoc]
    rw [if_pos (by omega), hlen, Nat.add_sub_cancel]
    exact backToSlash_eq (hbytes ▸ hbuf) (hk.comps c hmem).1.1

/-- The last two characters of a list. -/
def LastTwo (l : List UInt8) (pre2 pre1 : UInt8) : Prop := ∃ front, l = front ++ [pre2, pre1]

/-- A component by its last two characters, the slash before it included. -/
theorem LastTwo.cases (h : LastTwo (p0 :: chSlash :: c) pre2 pre1) :
    c = [] ∧ pre1 = chSlash ∨ c = [pre1] ∧ pre2 = chSlash ∨ ∃ front, c = front ++ [pre2, pre1] := by
  obtain ⟨front, hfront⟩ := h
  rcases front with - | ⟨a, front⟩
  · simp only [List.nil_append, List.cons.injEq] at hfront
    exact Or.inl ⟨hfront.2.2, hfront.2.1.symm⟩
  rcases front with - | ⟨b, front⟩
  · simp only [List.cons_append, List.nil_append, List.cons.injEq] at hfront
    exact Or.inr (Or.inl ⟨hfront.2.2, hfront.2.1.symm⟩)
  · simp only [List.cons_append, List.cons.injEq] at hfront
    exact Or.inr (Or.inr ⟨front, hfront.2.2⟩)

theorem chSlash_ne_zero : chSlash ≠ 0 := by decide

theorem dotDot_iff (hlast : LastTwo (p0 :: chSlash :: c) pre2 pre1) :
    (c.length + 1 = 3 ∧ pre2 = chDot ∧ pre1 = chDot) ↔ c = [chDot, chDot] := by
  rcases hlast.cases with ⟨rfl, rfl⟩ | ⟨rfl, rfl⟩ | ⟨front, rfl⟩
  · simp
  · simp
  · constructor
    · rintro ⟨hlen, rfl, rfl⟩
      have hnil : front = [] := List.length_eq_zero_iff.mp (by simpa using hlen)
      rw [hnil, List.nil_append]
    · intro h
      have hnil : front = [] := by
        have := congrArg List.length h
        exact List.length_eq_zero_iff.mp (by simpa using this)
      rw [hnil, List.nil_append, List.cons.injEq, List.cons.injEq] at h
      exact ⟨by simp [hnil], h.1, h.2.1⟩

theorem same_iff (hc : Plain c) (hlast : LastTwo (p0 :: chSlash :: c) pre2 pre1) :
    (c.length + 1 = 1 ∨ (pre2 = chSlash ∧ pre1 = chDot)) ↔ c = [] ∨ c = [chDot] := by
  rcases hlast.cases with ⟨rfl, rfl⟩ | ⟨rfl, rfl⟩ | ⟨front, rfl⟩
  · simp
  · simp
  · have hne : pre2 ≠ chSlash := fun h => hc.1 (by simp [h])
    have hlen : (front ++ [pre2, pre1]).length ≠ 1 := by simp
    constructor
    · rintro (h | ⟨h, -⟩)
      · simp at h
      · exact absurd h hne
    · rintro (h | h)
      · simp at h
      · exact absurd (congrArg List.length h) hlen

theorem Kept.length_lastUp (k : Kept) : k.lastUp.length = k.pop.bytes.length + 1 := by
  unfold Kept.lastUp
  split
  · rename_i h
    rw [Kept.pop_of_nil h]
    rfl
  · rw [List.length_append, List.length_singleton]

/-- What `/..` at the end leaves stands in the block already. -/
theorem Kept.lastUp_prefix (k : Kept) (c : List UInt8) : k.lastUp <+: k.bytes ++ chSlash :: c := by
  unfold Kept.lastUp
  split
  · rename_i h
    rw [Kept.bytes_of_nil h]
    cases k.first with
    | nil => exact ⟨c, rfl⟩
    | cons x xs => exact ⟨xs ++ chSlash :: c, rfl⟩
  · rename_i h
    obtain ⟨cs, d, -, -, hbytes⟩ := Kept.eq_concat h
    exact ⟨d ++ chSlash :: c, by simp [hbytes]⟩

theorem Kept.bytes_push (k : Kept) (c : List UInt8) :
    ({ k with comps := k.comps ++ [c] } : Kept).bytes = k.bytes ++ chSlash :: c := by
  unfold Kept.bytes
  rw [joinSlash_concat, List.append_assoc]

/-- The write pointer after a token, when `inner` is kept in the path and `final` at its end. -/
def outAfter (ch : UInt8) (inner final : List UInt8) : Nat :=
  if ch = 0 then final.length else inner.length

/-- **The end of a component.** -/
theorem endToken_comp (hk : k.Wf) (hc : Plain c) (hbuf : k.bytes ++ chSlash :: c <+: buf)
    (hlast : LastTwo (p0 :: chSlash :: c) pre2 pre1) (ch : UInt8) :
    endToken buf k.bytes.length (k.bytes.length + (c.length + 1)) pre2 pre1 ch
      = some (outAfter ch (k.comp c).bytes (k.last c)) := by
  have hlen : tokenLength k.bytes.length (k.bytes.length + (c.length + 1))
      = some (c.length + 1) := by
    unfold tokenLength
    rw [if_pos (Nat.le_add_right _ _), Nat.add_sub_cancel_left]
  have hread : buf[k.bytes.length]? = some chSlash := by
    rw [getElem?_of_isPrefix hbuf (by simp), List.getElem?_append_right (Nat.le_refl _)]
    simp
  simp only [endToken, hlen, dotDotAt, dotDot_iff hlast, same_iff hc hlast, bind,
    Option.bind_some]
  by_cases hup : c = [chDot, chDot]
  · have hkept := overComponent_kept hk ((List.prefix_append _ _).trans hbuf)
    have hnot : ¬ (c = [] ∨ c = [chDot]) := by simp [hup]
    simp only [if_pos hup, hread, Option.map_some, Option.bind_some, beq_self_eq_true, if_true,
      hkept, outAfter, Kept.last, Kept.comp, if_neg hnot, Kept.length_lastUp]
    rfl
  · simp only [if_neg hup, Option.bind_some, Bool.false_eq_true, if_false, outAfter, Kept.last,
      Kept.comp]
    by_cases hsame : c = [] ∨ c = [chDot]
    · simp only [if_pos hsame, List.length_append, List.length_singleton]
      rfl
    · simp only [if_neg hsame, Kept.bytes_push, List.length_append, List.length_cons, ite_self]
      rfl

theorem Kept.comp_prefix (k : Kept) (c : List UInt8) :
    (k.comp c).bytes <+: k.bytes ++ chSlash :: c := by
  unfold Kept.comp
  split
  · exact List.prefix_append _ _
  split
  · exact k.pop_prefix.trans (List.prefix_append _ _)
  · exact ⟨[], by rw [List.append_nil, Kept.bytes_push]⟩

theorem Kept.last_prefix (k : Kept) (c : List UInt8) : k.last c <+: k.bytes ++ chSlash :: c := by
  unfold Kept.last
  split
  · exact ⟨c, by simp⟩
  split
  · exact k.lastUp_prefix c
  · exact k.comp_prefix c

end EndToken

/-! ## 3. The characters of a token -/

section Loop

variable {mem base acc tail : List UInt8} {p0 stop : UInt8} {s : PathState}

/-- The loop is in the middle of a token: `base` is kept, `acc` of the token is written. -/
structure InToken (mem base acc : List UInt8) (p0 : UInt8) (s : PathState) : Prop where
  out : s.out = base.length + acc.length
  slash : s.slash = base.length
  written : base ++ acc <+: s.simplified
  pre1 : ∃ front, p0 :: acc = front ++ [s.pre1]
  length : s.simplified.length = mem.length
  room : s.out < s.str

/-- Each turn writes the current character behind what is written. -/
theorem InToken.store (h : InToken mem base acc p0 s) (hlt : s.str < mem.length) :
    ∃ buf, store s.simplified s.out s.ch = some buf ∧ base ++ (acc ++ [s.ch]) <+: buf ∧
      buf.length = mem.length := by
  have hstore : TinyPilotKvm.store s.simplified s.out s.ch = some (s.simplified.set s.out s.ch) :=
    store_of_lt (by have := h.room; rw [h.length]; omega) s.ch
  refine ⟨_, hstore, ?_, (length_store hstore).trans h.length⟩
  rw [h.out, ← List.length_append] at hstore ⊢
  have hpre := prefix_store h.written hstore
  rwa [List.append_assoc] at hpre

theorem InToken.lastTwo (h : InToken mem base acc p0 s) :
    LastTwo (p0 :: (acc ++ [s.ch])) s.pre1 s.ch := by
  obtain ⟨front, hfront⟩ := h.pre1
  refine ⟨front, ?_⟩
  rw [← List.cons_append, hfront, List.append_assoc]
  rfl

/-- **A token**: its characters are copied, and then it ends. -/
theorem pathLoop_token (hstop : stop = chSlash ∨ stop = 0) (xs : List UInt8) (hxs : Plain xs)
    (h : InToken mem base acc p0 s) (hch : s.ch ≠ 0) (hrest : mem.drop s.str = xs ++ stop :: tail)
    (turns : Nat) :
    ∃ buf pre2 pre1, base ++ (acc ++ s.ch :: xs) <+: buf ∧ buf.length = mem.length ∧
      LastTwo (p0 :: (acc ++ s.ch :: xs)) pre2 pre1 ∧
      pathLoop mem (xs.length + 1 + turns) s
        = (endToken buf base.length (base.length + (acc ++ s.ch :: xs).length) pre2 pre1 stop).bind
            fun out => pathLoop mem turns
              { simplified := buf, str := s.str + xs.length + 1, out := out, slash := out,
                pre1 := pre1, ch := stop } := by
  have hlt : s.str < mem.length := by
    have hlen := congrArg List.length hrest
    rw [List.length_drop, List.length_append, List.length_cons] at hlen
    omega
  have hread : mem[s.str]? = (xs ++ stop :: tail)[0]? := by
    rw [← hrest, List.getElem?_drop, Nat.add_zero]
  obtain ⟨buf, hbuf, hpre, hlen⟩ := h.store hlt
  induction xs generalizing s acc buf with
  | nil =>
    refine ⟨buf, s.pre1, s.ch, hpre, hlen, h.lastTwo, ?_⟩
    have hturns : ([] : List UInt8).length + 1 + turns = turns + 1 := by
      rw [List.length_nil]
      omega
    have hout : base.length + (acc ++ [s.ch]).length = s.out + 1 := by
      rw [h.out, List.length_append, List.length_singleton]
      omega
    rw [hturns, pathLoop, if_neg hch, hout]
    simp only [pathTurn, hread, hbuf, List.nil_append, List.getElem?_cons_zero, bind,
      Option.bind_some, if_pos hstop, h.slash, List.length_nil, Nat.add_zero]
    cases endToken buf base.length (s.out + 1) s.pre1 s.ch stop with
    | none => rfl
    | some out => rfl
  | cons x xs ih =>
    have hx : x ≠ chSlash ∧ x ≠ 0 :=
      ⟨fun hx => hxs.1 (by simp [hx]), fun hx => hxs.2 (by simp [hx])⟩
    have hturn : pathTurn mem s
        = some { simplified := buf, str := s.str + 1, out := s.out + 1, slash := s.slash,
                 pre1 := s.ch, ch := x } := by
      simp only [pathTurn, hread, hbuf, List.cons_append, List.getElem?_cons_zero, bind,
        Option.bind_some, if_neg (not_or.mpr hx)]
      rfl
    have hdrop : mem.drop (s.str + 1) = xs ++ stop :: tail := by
      rw [← List.drop_drop, hrest]
      rfl
    have hlt' : s.str + 1 < mem.length := by
      have hlen' := congrArg List.length hdrop
      rw [List.length_drop, List.length_append, List.length_cons] at hlen'
      omega
    have hnext : InToken mem base (acc ++ [s.ch]) p0
        { simplified := buf, str := s.str + 1, out := s.out + 1, slash := s.slash,
          pre1 := s.ch, ch := x } := by
      obtain ⟨front, hfront⟩ := h.pre1
      refine ⟨?_, h.slash, hpre, ⟨front ++ [s.pre1], ?_⟩, hlen, Nat.add_lt_add_right h.room 1⟩
      · dsimp only
        rw [h.out, List.length_append, List.length_singleton, Nat.add_assoc]
      · rw [← hfront]
        rfl
    obtain ⟨buf', hbuf', hpre', hlen'⟩ := hnext.store hlt'
    obtain ⟨buf'', pre2, pre1, h1, h2, h3, h4⟩ := ih
      ⟨fun hm => hxs.1 (List.mem_cons_of_mem _ hm), fun hm => hxs.2 (List.mem_cons_of_mem _ hm)⟩
      hnext hx.2 hdrop hlt'
        (by rw [← hdrop, List.getElem?_drop, Nat.add_zero]) buf' hbuf' hpre' hlen'
    have hassoc : acc ++ [s.ch] ++ x :: xs = acc ++ s.ch :: x :: xs := by
      rw [List.append_assoc]
      rfl
    rw [hassoc] at h1 h3 h4
    refine ⟨buf'', pre2, pre1, h1, h2, h3, ?_⟩
    have hturns : (x :: xs).length + 1 + turns = xs.length + 1 + turns + 1 := by
      rw [List.length_cons]
      omega
    have hstr : s.str + (x :: xs).length + 1 = s.str + 1 + xs.length + 1 := by
      rw [List.length_cons]
      omega
    rw [hturns, pathLoop, if_neg hch, hturn, Option.bind_some, h4, hstr]

/-! ## 4. The components of a path -/

/-- The loop is at the slash of a component. -/
structure AtComponent (mem : List UInt8) (k : Kept) (s : PathState) : Prop where
  ch : s.ch = chSlash
  out : s.out = k.bytes.length
  slash : s.slash = k.bytes.length
  written : k.bytes <+: s.simplified
  length : s.simplified.length = mem.length
  room : s.out < s.str

theorem AtComponent.inToken {k : Kept} (h : AtComponent mem k s) :
    InToken mem k.bytes [] s.pre1 s :=
  ⟨h.out, h.slash, by simpa using h.written, ⟨[], rfl⟩, h.length, h.room⟩

/-- The loop ends with `path` written. -/
def EndsWith (mem : List UInt8) (turns : Nat) (s : PathState) (path : List UInt8) : Prop :=
  ∃ s', pathLoop mem turns s = some s' ∧ s'.out = path.length ∧ path <+: s'.simplified ∧
    s'.simplified.length = mem.length

theorem pathLoop_of_nul (h : s.ch = 0) (turns : Nat) : pathLoop mem turns s = some s := by
  cases turns with
  | zero => rw [pathLoop, if_pos h]
  | succ turns => rw [pathLoop, if_pos h]

/-- **The components.** -/
theorem pathLoop_components (cs : List (List UInt8)) {c : List UInt8} {k : Kept} (hk : k.Wf)
    (hs : AtComponent mem k s) (hc : Plain c) (hcs : ∀ d ∈ cs, Plain d)
    (hrest : mem.drop s.str = c ++ joinSlash cs ++ [0]) {turns : Nat}
    (hturns : (c ++ joinSlash cs).length < turns) : EndsWith mem turns s (k.finish c cs) := by
  have hch : s.ch ≠ 0 := by
    rw [hs.ch]
    exact chSlash_ne_zero
  induction cs generalizing c k s turns with
  | nil =>
    rw [joinSlash_nil, List.append_nil] at hrest hturns
    obtain ⟨t, rfl⟩ := Nat.exists_eq_add_of_le hturns
    obtain ⟨buf, pre2, pre1, hpre, hlen, hlast, hloop⟩ :=
      pathLoop_token (Or.inr rfl) c hc hs.inToken hch hrest t
    simp only [List.nil_append, hs.ch, List.length_cons] at hpre hlast hloop
    have hend := endToken_comp hk hc hpre hlast 0
    refine ⟨{ simplified := buf, str := s.str + c.length + 1, out := (k.last c).length,
              slash := (k.last c).length, pre1 := pre1, ch := 0 }, ?_, rfl,
      (k.last_prefix c).trans hpre, hlen⟩
    rw [Nat.succ_eq_add_one, hloop, hend, Option.bind_some]
    exact pathLoop_of_nul rfl t
  | cons d cs ih =>
    have hd : Plain d := hcs d List.mem_cons_self
    have hrest' : mem.drop s.str = c ++ chSlash :: (d ++ joinSlash cs ++ [0]) := by
      rw [hrest, joinSlash_cons]
      simp
    rw [joinSlash_cons, List.length_append, List.length_cons] at hturns
    obtain ⟨t, rfl⟩ := Nat.exists_eq_add_of_le (show c.length + 1 ≤ turns by omega)
    obtain ⟨buf, pre2, pre1, hpre, hlen, hlast, hloop⟩ :=
      pathLoop_token (Or.inl rfl) c hc hs.inToken hch hrest' t
    simp only [List.nil_append, hs.ch, List.length_cons] at hpre hlast hloop
    have hend := endToken_comp hk hc hpre hlast chSlash
    have hle : (k.comp c).bytes.length ≤ k.bytes.length + (c.length + 1) := by
      have := (k.comp_prefix c).length_le
      rwa [List.length_append, List.length_cons] at this
    have hout : outAfter chSlash (k.comp c).bytes (k.last c) = (k.comp c).bytes.length :=
      if_neg (by decide)
    have hnext : AtComponent mem (k.comp c)
        { simplified := buf, str := s.str + c.length + 1, out := (k.comp c).bytes.length,
          slash := (k.comp c).bytes.length, pre1 := pre1, ch := chSlash } := by
      refine ⟨rfl, rfl, rfl, (k.comp_prefix c).trans hpre, hlen, ?_⟩
      have := hs.room
      have := hs.out
      dsimp only
      omega
    have hdrop : mem.drop (s.str + c.length + 1) = d ++ joinSlash cs ++ [0] := by
      rw [Nat.add_assoc, ← List.drop_drop, hrest', ← List.singleton_append, ← List.append_assoc]
      exact List.drop_left' (by simp)
    obtain ⟨s', h1, h2⟩ := ih (hk.comp hc) hnext hd
      (fun e he => hcs e (List.mem_cons_of_mem _ he)) hdrop
      (show (d ++ joinSlash cs).length < t by omega) chSlash_ne_zero
    refine ⟨s', ?_, h2⟩
    rw [hloop, hend, Option.bind_some, hout]
    exact h1

end Loop

/-! ## 5. The whole path -/

/-- `.` and `..` at the beginning of a relative path are skipped. -/
def firstOf (c : List UInt8) : List UInt8 :=
  if c = [chDot] ∨ c = [chDot, chDot] then [] else c

/-- The path whose beginning is `first` and whose components are `cs`.  A beginning of ONE
character is dropped if a slash follows: its length is that of a slash alone. -/
def simplifiedFrom (first : List UInt8) : List (List UInt8) → List UInt8
  | [] => first
  | c :: cs => (Kept.mk (if first.length = 1 then [] else first) []).finish c cs

/-- What is kept of a beginning that a slash follows. -/
def Kept.ofFirst (first : List UInt8) : Kept := ⟨if first.length = 1 then [] else first, []⟩

/-- What `us_simplify_request_path` makes of a path. -/
def simplifiedPath (path : List UInt8) : List UInt8 :=
  match (path.dropWhile (· = chSpace)).splitOn chSlash with
  | [] => []
  | c :: cs => simplifiedFrom (firstOf c) cs

section Whole

variable {mem : List UInt8} {i : Nat} {first c : List UInt8} {cs : List (List UInt8)}

theorem skipSpaces_eq {xs : List UInt8} (hmem : mem.drop i = xs ++ [0]) {turns : Nat}
    (hturns : xs.length < turns) :
    ∃ j, skipSpaces mem turns i = some j ∧ mem.drop j = xs.dropWhile (· = chSpace) ++ [0] ∧
      i ≤ j := by
  have hread : mem[i]? = (xs ++ [0])[0]? := by
    rw [← hmem, List.getElem?_drop, Nat.add_zero]
  induction xs generalizing i turns with
  | nil =>
    obtain ⟨t, rfl⟩ := Nat.exists_eq_add_of_lt hturns
    have hne : (0 : UInt8) ≠ chSpace := by decide
    refine ⟨i, ?_, hmem, Nat.le_refl i⟩
    simp [skipSpaces, hread, hne]
  | cons x xs ih =>
    obtain ⟨t, rfl⟩ := Nat.exists_eq_add_of_lt hturns
    rw [List.length_cons] at *
    by_cases hx : x = chSpace
    · have hdrop : mem.drop (i + 1) = xs ++ [0] := by
        rw [← List.drop_drop, hmem]
        rfl
      obtain ⟨j, h1, h2, h3⟩ := ih hdrop (show xs.length < xs.length + 1 + t by omega)
        (by rw [← hdrop, List.getElem?_drop, Nat.add_zero])
      refine ⟨j, ?_, ?_, by omega⟩
      · simp only [skipSpaces, hread, List.cons_append, List.getElem?_cons_zero, bind,
          Option.bind_some, if_pos hx]
        exact h1
      · rw [h2, List.dropWhile_cons_of_pos (by simpa using hx)]
    · refine ⟨i, ?_, ?_, Nat.le_refl i⟩
      · simp only [skipSpaces, hread, List.cons_append, List.getElem?_cons_zero, bind,
          Option.bind_some, if_neg hx]
        rfl
      · rw [hmem, List.dropWhile_cons_of_neg (by simpa using hx)]

/-- What follows the beginning of a path. -/
theorem after_first (cs : List (List UInt8)) :
    ∃ x rest, joinSlash cs ++ [0] = x :: rest ∧ (x = chSlash ∨ x = 0) := by
  cases cs with
  | nil => exact ⟨0, [], rfl, Or.inr rfl⟩
  | cons d cs => exact ⟨chSlash, d ++ joinSlash cs ++ [0], rfl, Or.inl rfl⟩

theorem skipDots_eq (hc : Plain c) (hmem : mem.drop i = c ++ joinSlash cs ++ [0]) :
    ∃ j, skipDots mem i = some j ∧ mem.drop j = firstOf c ++ joinSlash cs ++ [0] ∧ i ≤ j := by
  obtain ⟨x, rest, hrest, hx⟩ := after_first cs
  have hread : ∀ j, mem[i + j]? = (c ++ (x :: rest))[j]? := by
    intro j
    rw [← List.getElem?_drop, hmem, List.append_assoc, hrest]
  have h0 := hread 0
  have h1 := hread 1
  have h2 := hread 2
  have hxdot : x ≠ chDot := by
    rcases hx with rfl | rfl <;> decide
  -- the dots are skipped if they are the whole of `c`
  have hskip : ∀ d, c = d → (d = [chDot] ∨ d = [chDot, chDot]) →
      mem.drop (i + d.length) = firstOf c ++ joinSlash cs ++ [0] := by
    rintro d rfl hd
    rw [← List.drop_drop, hmem, firstOf, if_pos hd, List.append_assoc, List.drop_left]
    rfl
  have hstay : ¬ (c = [chDot] ∨ c = [chDot, chDot]) →
      mem.drop i = firstOf c ++ joinSlash cs ++ [0] := by
    intro h
    rw [hmem, firstOf, if_neg h]
  have hplain : ∀ y ∈ c, ¬ (y = chSlash ∨ y = 0) := by
    rintro y hy (rfl | rfl)
    · exact hc.1 hy
    · exact hc.2 hy
  rcases c with - | ⟨a, c⟩
  · refine ⟨i, ?_, hstay (by simp), Nat.le_refl i⟩
    simp only [Nat.add_zero, List.nil_append, List.getElem?_cons_zero] at h0
    simp [skipDots, h0, hxdot]
  by_cases ha : a = chDot
  · subst ha
    simp only [Nat.add_zero, List.cons_append, List.getElem?_cons_zero] at h0
    rcases c with - | ⟨b, c⟩
    · refine ⟨i + 1, ?_, hskip [chDot] rfl (Or.inl rfl), by omega⟩
      simp only [List.cons_append, List.nil_append, List.getElem?_cons_succ,
        List.getElem?_cons_zero] at h1
      simp [skipDots, h0, h1, hx]
    · have hb := hplain b (by simp)
      simp only [List.cons_append, List.getElem?_cons_succ, List.getElem?_cons_zero] at h1
      by_cases hb' : b = chDot
      · subst hb'
        rcases c with - | ⟨d, c⟩
        · refine ⟨i + 2, ?_, hskip [chDot, chDot] rfl (Or.inr rfl), by omega⟩
          simp only [List.cons_append, List.nil_append, List.getElem?_cons_succ,
            List.getElem?_cons_zero] at h2
          simp [skipDots, h0, h1, h2, hx, hb]
        · have hd := hplain d (by simp)
          simp only [List.cons_append, List.getElem?_cons_succ, List.getElem?_cons_zero] at h2
          refine ⟨i, ?_, hstay (by simp), Nat.le_refl i⟩
          simp [skipDots, h0, h1, h2, hb, hd]
      · refine ⟨i, ?_, hstay (by simp [hb']), Nat.le_refl i⟩
        simp [skipDots, h0, h1, hb, hb']
  · refine ⟨i, ?_, hstay (by simp [ha]), Nat.le_refl i⟩
    simp only [Nat.add_zero, List.cons_append, List.getElem?_cons_zero] at h0
    simp [skipDots, h0, ha]

/-- A beginning that is kept by `firstOf`. -/
theorem firstOf_spec (hc : Plain c) : firstOf c = [] ∨ IsName (firstOf c) := by
  unfold firstOf
  split
  · exact Or.inl rfl
  · rename_i h
    rw [not_or] at h
    by_cases hnil : c = []
    · exact Or.inl hnil
    · exact Or.inr ⟨hc, hnil, h.1, h.2⟩

/-- The end of a beginning without a slash. -/
theorem endToken_first {buf : List UInt8} {pre2 pre1 : UInt8} (hf : IsName first)
    (hbuf : first <+: buf) (hlast : LastTwo (0 :: first) pre2 pre1) (ch : UInt8) :
    endToken buf 0 first.length pre2 pre1 ch
      = some (if first.length = 1 ∧ ch ≠ 0 then 0 else first.length) := by
  obtain ⟨⟨hslash, -⟩, hnil, -⟩ := hf
  have hpre2 : pre2 ≠ chSlash := by
    obtain ⟨front, hfront⟩ := hlast
    rintro rfl
    have hmem : chSlash ∈ (0 : UInt8) :: first := by
      rw [hfront]
      simp
    rcases List.mem_cons.mp hmem with h | h
    · exact chSlash_ne_zero h
    · exact hslash h
  have hdots : dotDotAt buf 0 first.length pre2 pre1 = some false := by
    obtain ⟨x, xs, rfl⟩ := List.exists_cons_of_ne_nil hnil
    have hread : buf[0]? = some x := by
      rw [getElem?_of_isPrefix hbuf (by simp)]
      rfl
    have hx : x ≠ chSlash := fun h => hslash (by simp [h])
    unfold dotDotAt
    split
    · simp [hread, hx]
    · rfl
  have hlen : tokenLength 0 first.length = some first.length := if_pos (Nat.zero_le _)
  simp only [endToken, hlen, hdots, hpre2, false_and, or_false, bind,
    Option.bind_some, Bool.false_eq_true, if_false]
  by_cases hone : first.length = 1
  · by_cases hch : ch = 0
    · simp [hone, hch]
    · simp [hone, hch]
  · simp [hone]

/-- The state before the main loop. -/
def pathStart (mem : List UInt8) (i : Nat) (ch : UInt8) : PathState :=
  { simplified := List.replicate mem.length 0, str := i + 1, out := 0, slash := 0, pre1 := 0,
    ch := ch }

/-- The write pointer after a beginning. -/
def firstOut (first : List UInt8) (stop : UInt8) : Nat :=
  if first.length = 1 ∧ stop ≠ 0 then 0 else first.length

/-- The loop over the beginning of a path. -/
theorem pathLoop_first {x stop : UInt8} {xs tail : List UInt8} (hstop : stop = chSlash ∨ stop = 0)
    (hf : IsName (x :: xs)) (hmem : mem.drop i = (x :: xs) ++ stop :: tail) (turns : Nat) :
    ∃ buf pre1, x :: xs <+: buf ∧ buf.length = mem.length ∧
      pathLoop mem (xs.length + 1 + turns) (pathStart mem i x)
        = pathLoop mem turns
            { simplified := buf, str := i + 1 + xs.length + 1, out := firstOut (x :: xs) stop,
              slash := firstOut (x :: xs) stop, pre1 := pre1, ch := stop } := by
  have hxs : Plain xs := ⟨fun h => hf.1.1 (List.mem_cons_of_mem _ h),
    fun h => hf.1.2 (List.mem_cons_of_mem _ h)⟩
  have hx : (pathStart mem i x).ch ≠ 0 := fun h => hf.1.2 (h ▸ List.mem_cons_self)
  have hin : InToken mem [] [] 0 (pathStart mem i x) :=
    ⟨rfl, rfl, List.nil_prefix, ⟨[], rfl⟩, List.length_replicate, Nat.zero_lt_succ i⟩
  have hdrop : mem.drop (pathStart mem i x).str = xs ++ stop :: tail := by
    have hstr : (pathStart mem i x).str = i + 1 := rfl
    rw [hstr, ← List.drop_drop, hmem]
    rfl
  obtain ⟨buf, pre2, pre1, hpre, hlen, hlast, hloop⟩ :=
    pathLoop_token hstop xs hxs hin hx hdrop turns
  rw [List.nil_append, List.nil_append] at hpre
  rw [List.nil_append] at hlast
  rw [List.nil_append, List.length_nil, Nat.zero_add] at hloop
  have hend : endToken buf 0 ((pathStart mem i x).ch :: xs).length pre2 pre1 stop
      = some (firstOut (x :: xs) stop) := endToken_first hf hpre hlast stop
  refine ⟨buf, pre1, hpre, hlen, ?_⟩
  rw [hloop, hend]
  rfl

theorem Kept.wf_ofFirst (hf : first = [] ∨ IsName first) : (Kept.ofFirst first).Wf := by
  refine ⟨?_, fun d hd => absurd hd List.not_mem_nil⟩
  unfold Kept.ofFirst
  dsimp only
  split
  · exact Or.inl rfl
  · exact hf

theorem Kept.bytes_ofFirst (first : List UInt8) :
    (Kept.ofFirst first).bytes = if first.length = 1 then [] else first := List.append_nil _

theorem Kept.bytes_ofFirst_prefix (first : List UInt8) : (Kept.ofFirst first).bytes <+: first := by
  rw [Kept.bytes_ofFirst]
  split
  · exact List.nil_prefix
  · exact List.prefix_rfl

theorem firstOut_chSlash (first : List UInt8) :
    firstOut first chSlash = (Kept.ofFirst first).bytes.length := by
  rw [Kept.bytes_ofFirst]
  unfold firstOut
  by_cases hone : first.length = 1
  · rw [if_pos ⟨hone, chSlash_ne_zero⟩, if_pos hone]
    rfl
  · rw [if_neg (fun h => hone h.1), if_neg hone]

/-- The main loop, if nothing is before the first slash. -/
theorem pathLoop_start_nil (hcs : ∀ d ∈ cs, Plain d) {ch : UInt8}
    (hmem : mem.drop i = joinSlash cs ++ [0]) (hread : (joinSlash cs ++ [0])[0]? = some ch)
    {turns : Nat} (hturns : (joinSlash cs).length < turns) :
    EndsWith mem turns (pathStart mem i ch) (simplifiedFrom [] cs) := by
  cases cs with
  | nil =>
    obtain rfl : 0 = ch := Option.some.inj hread
    exact ⟨_, pathLoop_of_nul rfl turns, rfl, List.nil_prefix, List.length_replicate⟩
  | cons c cs =>
    obtain rfl : chSlash = ch := Option.some.inj hread
    have hdrop : mem.drop (i + 1) = c ++ joinSlash cs ++ [0] := by
      rw [← List.drop_drop, hmem, joinSlash_cons]
      rfl
    rw [joinSlash_cons, List.length_cons] at hturns
    exact pathLoop_components cs Kept.wf_empty
      ⟨rfl, rfl, rfl, List.nil_prefix, List.length_replicate, Nat.zero_lt_succ i⟩
      (hcs c List.mem_cons_self) (fun d hd => hcs d (List.mem_cons_of_mem _ hd)) hdrop (by omega)

/-- The main loop, if a name is before the first slash. -/
theorem pathLoop_start_name {x : UInt8} {xs : List UInt8} (hf : IsName (x :: xs))
    (hcs : ∀ d ∈ cs, Plain d) (hmem : mem.drop i = (x :: xs) ++ joinSlash cs ++ [0]) {turns : Nat}
    (hturns : (joinSlash cs).length < turns) :
    EndsWith mem (xs.length + 1 + turns) (pathStart mem i x) (simplifiedFrom (x :: xs) cs) := by
  cases cs with
  | nil =>
    obtain ⟨buf, pre1, hpre, hlen, hloop⟩ := pathLoop_first (Or.inr rfl) hf
      (by rw [hmem, joinSlash_nil, List.append_nil]) turns
    have hout : firstOut (x :: xs) 0 = (x :: xs).length := if_neg (by simp)
    rw [hout] at hloop
    refine ⟨{ simplified := buf, str := i + 1 + xs.length + 1, out := (x :: xs).length,
              slash := (x :: xs).length, pre1 := pre1, ch := 0 }, ?_, rfl, hpre, hlen⟩
    rw [hloop]
    exact pathLoop_of_nul rfl turns
  | cons c cs =>
    have hfirst : mem.drop i = (x :: xs) ++ chSlash :: (c ++ joinSlash cs ++ [0]) := by
      rw [hmem, joinSlash_cons, List.append_assoc]
      rfl
    obtain ⟨buf, pre1, hpre, hlen, hloop⟩ := pathLoop_first (Or.inl rfl) hf hfirst turns
    have hdrop : mem.drop (i + 1 + xs.length + 1) = c ++ joinSlash cs ++ [0] := by
      have hsum : i + 1 + xs.length + 1 = i + (x :: xs ++ [chSlash]).length := by
        simp only [List.length_append, List.length_cons, List.length_nil]
        omega
      have hassoc : x :: xs ++ joinSlash (c :: cs) ++ [0]
          = (x :: xs ++ [chSlash]) ++ (c ++ joinSlash cs ++ [0]) := by simp
      rw [hsum, ← List.drop_drop, hmem, hassoc, List.drop_left]
    have hout := firstOut_chSlash (x :: xs)
    have hpre0 := Kept.bytes_ofFirst_prefix (x :: xs)
    have hat : AtComponent mem (Kept.ofFirst (x :: xs))
        { simplified := buf, str := i + 1 + xs.length + 1, out := firstOut (x :: xs) chSlash,
          slash := firstOut (x :: xs) chSlash, pre1 := pre1, ch := chSlash } := by
      refine ⟨rfl, hout, hout, hpre0.trans hpre, hlen, ?_⟩
      have hle := hpre0.length_le
      rw [List.length_cons] at hle
      dsimp only
      omega
    rw [joinSlash_cons, List.length_cons] at hturns
    obtain ⟨s', h1, h2⟩ := pathLoop_components cs (Kept.wf_ofFirst (Or.inr hf)) hat
      (hcs c List.mem_cons_self) (fun d hd => hcs d (List.mem_cons_of_mem _ hd)) hdrop
      (show (c ++ joinSlash cs).length < turns by omega)
    exact ⟨s', hloop.trans h1, h2⟩

/-- **The main loop** from the beginning of a path. -/
theorem pathLoop_start (hf : first = [] ∨ IsName first) (hcs : ∀ d ∈ cs, Plain d) {ch : UInt8}
    (hmem : mem.drop i = first ++ joinSlash cs ++ [0]) (hch : mem[i]? = some ch) {turns : Nat}
    (hturns : (first ++ joinSlash cs).length < turns) :
    EndsWith mem turns (pathStart mem i ch) (simplifiedFrom first cs) := by
  have hread : (first ++ joinSlash cs ++ [0])[0]? = some ch := by
    rw [← hmem, List.getElem?_drop, Nat.add_zero, hch]
  rcases hf with rfl | hf
  · exact pathLoop_start_nil hcs hmem hread hturns
  · obtain ⟨x, xs, rfl⟩ := List.exists_cons_of_ne_nil hf.2.1
    obtain rfl : x = ch := Option.some.inj hread
    rw [List.length_append, List.length_cons] at hturns
    obtain ⟨t, rfl⟩ := Nat.exists_eq_add_of_le (show xs.length + 1 ≤ turns by omega)
    exact pathLoop_start_name hf hcs hmem (by omega)

end Whole

/-! ## 6. The function -/

/-- The shapes of a simplified path. -/
inductive Simplified : List UInt8 → Prop
  | kept {k : Kept} : k.Wf → Simplified k.bytes
  | slash {k : Kept} : k.Wf → Simplified (k.bytes ++ [chSlash])
  /-- What `/..` leaves of a relative path of one component. -/
  | single {x : UInt8} : x ≠ chSlash → x ≠ 0 → Simplified [x]

section Shape

variable {k : Kept} {c first path : List UInt8} {cs : List (List UInt8)}

theorem Kept.Wf.simplified_lastUp (hk : k.Wf) : Simplified k.lastUp := by
  unfold Kept.lastUp
  split
  · rcases hk.first with hnil | hname
    · rw [hnil]
      exact .slash Kept.wf_empty
    · obtain ⟨x, xs, hx⟩ := List.exists_cons_of_ne_nil hname.2.1
      rw [hx] at hname ⊢
      refine .single (fun h => hname.1.1 ?_) (fun h => hname.1.2 ?_)
      · exact List.mem_cons.mpr (Or.inl h.symm)
      · exact List.mem_cons.mpr (Or.inl h.symm)
  · exact .slash hk.pop

theorem Kept.Wf.simplified_finish (hk : k.Wf) (hc : Plain c) (hcs : ∀ d ∈ cs, Plain d) :
    Simplified (k.finish c cs) := by
  induction cs generalizing k c with
  | nil =>
    unfold Kept.finish Kept.last
    split
    · exact .slash hk
    split
    · exact hk.simplified_lastUp
    · exact .kept (hk.comp hc)
  | cons d cs ih =>
    exact ih (hk.comp hc) (hcs d List.mem_cons_self) fun e he => hcs e (List.mem_cons_of_mem _ he)

theorem simplified_from (hf : first = [] ∨ IsName first) (hcs : ∀ d ∈ cs, Plain d) :
    Simplified (simplifiedFrom first cs) := by
  cases cs with
  | nil =>
    have hk : (Kept.mk first []).Wf := ⟨hf, fun c hc => absurd hc List.not_mem_nil⟩
    have hbytes : (Kept.mk first []).bytes = first := List.append_nil _
    have h := Simplified.kept hk
    rwa [hbytes] at h
  | cons c cs =>
    exact (Kept.wf_ofFirst hf).simplified_finish (hcs c List.mem_cons_self)
      fun d hd => hcs d (List.mem_cons_of_mem _ hd)

/-- A path, read as a beginning and components. -/
theorem simplifiedPath_spec (path : List UInt8) (h0 : (0 : UInt8) ∉ path) :
    ∃ c cs, path.dropWhile (· = chSpace) = c ++ joinSlash cs ∧ Plain c ∧ (∀ d ∈ cs, Plain d) ∧
      simplifiedPath path = simplifiedFrom (firstOf c) cs := by
  obtain ⟨c, cs, hsplit, hjoin, hmem⟩ :=
    LexicalPath.exists_join chSlash (path.dropWhile (· = chSpace))
  have hplain : ∀ d ∈ c :: cs, Plain d := fun d hd =>
    ⟨(hmem d hd).1, fun h => h0 ((List.dropWhile_sublist _).subset ((hmem d hd).2 _ h))⟩
  refine ⟨c, cs, hjoin, hplain c List.mem_cons_self,
    fun d hd => hplain d (List.mem_cons_of_mem _ hd), ?_⟩
  unfold simplifiedPath
  rw [hsplit]

theorem simplified_path (h0 : (0 : UInt8) ∉ path) : Simplified (simplifiedPath path) := by
  obtain ⟨c, cs, -, hc, hcs, heq⟩ := simplifiedPath_spec path h0
  rw [heq]
  exact simplified_from (firstOf_spec hc) hcs

theorem Kept.Wf.noNul (hk : k.Wf) : (0 : UInt8) ∉ k.bytes := by
  intro h
  rcases List.mem_append.mp h with h | h
  · rcases hk.first with hnil | hname
    · rw [hnil] at h
      exact List.not_mem_nil h
    · exact hname.1.2 h
  · obtain ⟨c, hc, h⟩ := List.mem_flatMap.mp h
    rcases List.mem_cons.mp h with h | h
    · exact chSlash_ne_zero h.symm
    · exact (hk.comps c hc).1.2 h

theorem Simplified.noNul (h : Simplified path) : (0 : UInt8) ∉ path := by
  cases h with
  | kept hk => exact hk.noNul
  | slash hk =>
    intro h
    rcases List.mem_append.mp h with h | h
    · exact hk.noNul h
    · exact chSlash_ne_zero (List.mem_singleton.mp h).symm
  | single hslash hnul => exact fun h => hnul (List.mem_singleton.mp h).symm

/-- The components written are no more than the components read. -/
theorem Kept.length_finish (k : Kept) (c : List UInt8) (cs : List (List UInt8)) :
    (k.finish c cs).length ≤ k.bytes.length + (joinSlash (c :: cs)).length := by
  induction cs generalizing k c with
  | nil =>
    have hle := (k.last_prefix c).length_le
    rw [List.length_append] at hle
    rwa [joinSlash_cons, joinSlash_nil, List.append_nil]
  | cons d cs ih =>
    have hle := (k.comp_prefix c).length_le
    have hih := ih (k.comp c) d
    rw [List.length_append, List.length_cons] at hle
    rw [joinSlash_cons, List.length_cons, List.length_append]
    calc ((k.comp c).finish d cs).length
        ≤ (k.comp c).bytes.length + (joinSlash (d :: cs)).length := hih
      _ ≤ k.bytes.length + (c.length + (joinSlash (d :: cs)).length + 1) := by omega

theorem length_simplifiedFrom (first : List UInt8) (cs : List (List UInt8)) :
    (simplifiedFrom first cs).length ≤ (first ++ joinSlash cs).length := by
  cases cs with
  | nil =>
    rw [joinSlash_nil, List.append_nil]
    exact Nat.le_refl _
  | cons c cs =>
    refine Nat.le_trans ((Kept.ofFirst first).length_finish c cs) ?_
    rw [List.length_append]
    exact Nat.add_le_add_right (Kept.bytes_ofFirst_prefix first).length_le _

theorem length_firstOf (c : List UInt8) : (firstOf c).length ≤ c.length := by
  unfold firstOf
  split
  · exact Nat.zero_le _
  · exact Nat.le_refl _

theorem length_simplifiedPath (h0 : (0 : UInt8) ∉ path) :
    (simplifiedPath path).length ≤ path.length := by
  obtain ⟨c, cs, hjoin, -, -, heq⟩ := simplifiedPath_spec path h0
  have hdrop := (List.dropWhile_sublist (l := path) (· = chSpace)).length_le
  have hfirst := length_firstOf c
  have hfrom := length_simplifiedFrom (firstOf c) cs
  rw [hjoin, List.length_append] at hdrop
  rw [List.length_append] at hfrom
  rw [heq]
  omega

end Shape

/-- **What the code computes.**  For every string `us_simplify_request_path` ends, stays in its
memory and returns `simplifiedPath` of it. -/
theorem usSimplifyRequestPath_eq (str : CString) :
    usSimplifyRequestPath str = some (simplifiedPath str.bytes) := by
  obtain ⟨c, cs, hjoin, hc, hcs, heq⟩ := simplifiedPath_spec str.bytes str.noNul
  have hlen : str.memory.length = str.bytes.length + 1 := List.length_append
  obtain ⟨c0, hc0⟩ : ∃ c0, str.memory[0]? = some c0 :=
    ⟨_, List.getElem?_eq_getElem (by omega)⟩
  unfold usSimplifyRequestPath
  simp only [hc0, bind, Option.bind_some]
  split
  · rename_i hzero
    have hnil : str.bytes = [] := by
      by_contra hne
      obtain ⟨x, xs, hx⟩ := List.exists_cons_of_ne_nil hne
      have hmem : str.memory[0]? = some x := by
        unfold CString.memory
        rw [hx]
        rfl
      have hx0 : x = 0 := (Option.some.inj (hmem.symm.trans hc0)).trans hzero
      exact str.noNul (by rw [hx, hx0]; exact List.mem_cons_self)
    rw [hnil]
    unfold CString.memory
    rw [hnil]
    rfl
  · have hstart : str.memory.drop 0 = str.bytes ++ [0] := rfl
    obtain ⟨i, hi, hmemi, hle⟩ :=
      skipSpaces_eq hstart (show str.bytes.length < str.memory.length by omega)
    rw [hjoin] at hmemi
    obtain ⟨j, hj, hmemj, hij⟩ := skipDots_eq hc hmemi
    have hlenj := congrArg List.length hmemj
    rw [List.length_drop, List.length_append, List.length_singleton] at hlenj
    obtain ⟨ch, hch⟩ : ∃ ch, str.memory[j]? = some ch :=
      ⟨_, List.getElem?_eq_getElem (by omega)⟩
    obtain ⟨s, hs, hout, hpre, hbuf⟩ := pathLoop_start (firstOf_spec hc) hcs hmemj hch
      (show (firstOf c ++ joinSlash cs).length < str.memory.length by omega)
    have hpath := length_simplifiedPath str.noNul
    rw [heq] at hpath
    have hstore : store s.simplified s.out 0 = some (s.simplified.set s.out 0) :=
      store_of_lt (by omega) 0
    have hpre' := hpre
    rw [hout] at hstore
    have hwritten := prefix_store hpre' hstore
    have hnul : (0 : UInt8) ∉ simplifiedFrom (firstOf c) cs :=
      (simplified_from (firstOf_spec hc) hcs).noNul
    unfold pathStart at hs
    simp only [hi, hj, hch, hs, hout, hstore, Option.bind_some, heq]
    exact congrArg some (cStringAt_of_isPrefix hnul hwritten)

end TinyPilotKvm
