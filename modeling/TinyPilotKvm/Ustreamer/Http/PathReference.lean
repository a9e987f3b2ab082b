/-
# Simplified paths, absolute and relative

What the simplification is for: an absolute path becomes a slash and the names that its components
resolve to, with a slash at the end if the last component names a directory by itself
(`simplify_is_resolution`).

A relative path is meant to give the same names as the path with a slash before it.  It does not
where the loop takes the first component for a slash and a component: a first component of ONE
character is lost, and one that the last `/..` removes leaves its first character
(`relative_like_absolute_iff`).
-/
import TinyPilotKvm.Formats.Ascii
import TinyPilotKvm.Ustreamer.Http.PathComponents

namespace TinyPilotKvm

/-! ## 1. Resolution -/

/-- A last component that leaves a slash. -/
def leavesSlash (c : List UInt8) : Bool := c == [] || c == [chDot] || c == [chDot, chDot]

/-- An absolute path from its names. -/
def absolutePath (names : List (List UInt8)) (slash : Bool) : List UInt8 :=
  chSlash :: ([chSlash].intercalate names ++ if names ≠ [] ∧ slash then [chSlash] else [])

/-- **What an absolute path is to become**; `rest` is what stands behind its first slash. -/
def resolvedPath (rest : List UInt8) : List UInt8 :=
  absolutePath (LexicalPath.walk chSlash chDot [] rest)
    ((rest.splitOn chSlash).getLast?.any leavesSlash)

theorem intercalate_cons (c : List UInt8) (cs : List (List UInt8)) :
    [chSlash].intercalate (c :: cs) = c ++ joinSlash cs := by
  induction cs generalizing c with
  | nil => rw [List.intercalate_singleton, joinSlash_nil, List.append_nil]
  | cons d cs ih =>
    rw [List.intercalate_cons_cons, ih, joinSlash_cons, List.append_assoc]
    rfl

theorem absolutePath_cons (c : List UInt8) (cs : List (List UInt8)) (slash : Bool) :
    absolutePath (c :: cs) slash = joinSlash (c :: cs) ++ if slash then [chSlash] else [] := by
  rw [absolutePath, intercalate_cons, joinSlash_cons, List.cons_append]
  simp only [ne_eq, reduceCtorEq, not_false_eq_true, true_and]

/-! ## 2. Absolute paths -/

section

variable {c : List UInt8} {cs comps : List (List UInt8)}

/-- Below the root a component is a step of the walk. -/
theorem Kept.comp_root (comps : List (List UInt8)) (c : List UInt8) :
    (Kept.mk [] comps).comp c = ⟨[], LexicalPath.walkStep chDot comps c⟩ := by
  unfold Kept.comp Kept.pop LexicalPath.walkStep
  dsimp only
  by_cases hstay : c = [] ∨ c = [chDot]
  · rw [if_pos hstay, if_pos hstay]
  · rw [if_neg hstay, if_neg hstay]
    by_cases hup : c = [chDot, chDot]
    · rw [if_pos hup, if_pos hup]
      by_cases hnil : comps = []
      · rw [if_pos hnil, hnil]
        rfl
      · rw [if_neg hnil]
    · rw [if_neg hup, if_neg hup]

/-- The last component below the root. -/
theorem Kept.last_root (comps : List (List UInt8)) (c : List UInt8) :
    (Kept.mk [] comps).last c
      = absolutePath (LexicalPath.walkStep chDot comps c) (leavesSlash c) := by
  have hslash : ∀ names : List (List UInt8),
      joinSlash names ++ [chSlash] = absolutePath names true := by
    intro names
    cases names with
    | nil => rfl
    | cons n ns =>
      rw [absolutePath_cons]
      rfl
  unfold Kept.last
  by_cases hstay : c = [] ∨ c = [chDot]
  · have hleaves : leavesSlash c = true := by
      rcases hstay with rfl | rfl <;> rfl
    rw [if_pos hstay, hleaves, LexicalPath.walkStep, if_pos hstay]
    exact hslash comps
  · rw [if_neg hstay]
    by_cases hup : c = [chDot, chDot]
    · have hleaves : leavesSlash c = true := by rw [hup]; rfl
      rw [if_pos hup, hleaves, LexicalPath.walkStep, if_neg hstay, if_pos hup, ← hslash]
      unfold Kept.lastUp Kept.pop
      dsimp only
      by_cases hnil : comps = []
      · rw [if_pos hnil, hnil]
        rfl
      · rw [if_neg hnil, if_neg hnil]
        rfl
    · have hleaves : leavesSlash c = false := by
        rw [not_or] at hstay
        simp [leavesSlash, hstay, hup]
      rw [if_neg hup, hleaves, Kept.comp_root, LexicalPath.walkStep, if_neg hstay, if_neg hup]
      cases comps with
      | nil =>
        rw [List.nil_append, absolutePath_cons]
        exact (List.append_nil _).symm
      | cons d ds =>
        rw [List.cons_append, absolutePath_cons]
        exact (List.append_nil _).symm

/-- The components below the root are walked. -/
theorem Kept.finish_root (comps : List (List UInt8)) (c : List UInt8) (cs : List (List UInt8)) :
    (Kept.mk [] comps).finish c cs
      = absolutePath ((c :: cs).foldl (LexicalPath.walkStep chDot) comps)
        ((c :: cs).getLast?.any leavesSlash) := by
  induction cs generalizing comps c with
  | nil => exact Kept.last_root comps c
  | cons d cs ih =>
    have hlast : (c :: d :: cs).getLast? = (d :: cs).getLast? := List.getLast?_cons_cons
    rw [Kept.finish, Kept.comp_root, ih, hlast]
    rfl

theorem simplifiedPath_absolute {path rest : List UInt8}
    (h : path.dropWhile (· = chSpace) = chSlash :: rest) :
    simplifiedPath path = resolvedPath rest := by
  obtain ⟨c, cs, hsplit, -, -⟩ := LexicalPath.exists_join chSlash rest
  have hcons : (chSlash :: rest).splitOn chSlash = [] :: rest.splitOn chSlash := by
    rw [← List.nil_append (chSlash :: rest), List.splitOn_append_cons_self, List.splitOn_nil]
    rfl
  unfold simplifiedPath resolvedPath LexicalPath.walk
  rw [h, hcons, hsplit]
  exact Kept.finish_root [] c cs

/-! ## 3. Once is enough -/

theorem walk_names {path : List UInt8} (h0 : (0 : UInt8) ∉ path) :
    ∀ c ∈ LexicalPath.walk chSlash chDot [] path, IsName c := by
  obtain ⟨c, cs, hsplit, -, hmem⟩ := LexicalPath.exists_join chSlash path
  unfold LexicalPath.walk
  refine LexicalPath.forall_foldl_walkStep chDot _ ?_ [] (List.forall_mem_nil _)
  intro d hd hne hdot hup
  rw [hsplit] at hd
  exact ⟨⟨(hmem d hd).1, fun hnul => h0 ((hmem d hd).2 0 hnul)⟩, hne, hdot, hup⟩

theorem leavesSlash_name (h : IsName c) : leavesSlash c = false := by
  obtain ⟨-, hne, hdot, hup⟩ := h
  simp [leavesSlash, hne, hdot, hup]

/-- Names resolve to themselves. -/
theorem resolvedPath_names (hc : IsName c) (hcs : ∀ d ∈ cs, IsName d) (slash : Bool) :
    resolvedPath (c ++ joinSlash cs ++ if slash then [chSlash] else [])
      = absolutePath (c :: cs) slash := by
  have hstay : LexicalPath.walkStep chDot (c :: cs) [] = c :: cs := if_pos (Or.inl rfl)
  have hwalk : (c :: cs).foldl (LexicalPath.walkStep chDot) [] = c :: cs :=
    LexicalPath.foldl_walkStep_names chDot (c :: cs)
      (List.forall_mem_cons.mpr ⟨hc.2, fun d hd => (hcs d hd).2⟩) []
  unfold resolvedPath LexicalPath.walk
  cases slash with
  | true =>
    have hjoin : c ++ joinSlash cs ++ [chSlash] = c ++ joinSlash (cs ++ [[]]) := by
      rw [joinSlash_append, List.append_assoc]
      rfl
    have hplain : ∀ d ∈ cs ++ [[]], chSlash ∉ d := by
      intro d hd
      rcases List.mem_append.mp hd with hd | hd
      · exact (hcs d hd).1.1
      · rw [List.mem_singleton.mp hd]
        exact List.not_mem_nil
    have hsplit : (c ++ joinSlash (cs ++ [[]])).splitOn chSlash = (c :: cs) ++ [[]] :=
      LexicalPath.splitOn_join chSlash hc.1.1 hplain
    rw [if_pos rfl, hjoin, hsplit, List.foldl_append, hwalk, List.getLast?_concat]
    exact congrArg (absolutePath · true) hstay
  | false =>
    have hsplit : (c ++ joinSlash cs).splitOn chSlash = c :: cs :=
      LexicalPath.splitOn_join chSlash hc.1.1 fun d hd => (hcs d hd).1.1
    have hlast : (c :: cs).getLast?.any leavesSlash = false := by
      cases hget : (c :: cs).getLast? with
      | none => rfl
      | some d =>
        have hd : IsName d :=
          (List.forall_mem_cons.mpr ⟨hc, hcs⟩ : ∀ d ∈ c :: cs, IsName d) d
            (List.mem_of_getLast? hget)
        exact leavesSlash_name hd
    rw [if_neg (by decide), List.append_nil, hsplit, hwalk, hlast]

/-- A resolved path begins with a slash, and what follows resolves to it. -/
theorem resolvedPath_again {rest : List UInt8} (h0 : (0 : UInt8) ∉ rest) :
    ∃ rest', resolvedPath rest = chSlash :: rest' ∧ resolvedPath rest' = resolvedPath rest := by
  have hnames := walk_names h0
  refine ⟨_, rfl, ?_⟩
  unfold resolvedPath
  generalize LexicalPath.walk chSlash chDot [] rest = names at hnames
  cases names with
  | nil => rfl
  | cons c cs =>
    obtain ⟨hc, hcs⟩ := List.forall_mem_cons.mp hnames
    rw [intercalate_cons]
    simp only [ne_eq, reduceCtorEq, not_false_eq_true, true_and]
    exact resolvedPath_names hc hcs _

/-- **Absolute paths are resolved**, and a path that has been simplified stays as it is. -/
theorem simplify_is_resolution (str : CString) {rest : List UInt8}
    (h : str.bytes.dropWhile (· = chSpace) = chSlash :: rest) :
    ∃ out : CString, usSimplifyRequestPath str = some out.bytes ∧
      out.bytes = resolvedPath rest ∧ usSimplifyRequestPath out = some out.bytes := by
  have hpath := simplifiedPath_absolute h
  have hrest : (0 : UInt8) ∉ rest := by
    intro hnul
    have hin : (0 : UInt8) ∈ str.bytes.dropWhile (· = chSpace) := by
      rw [h]
      exact List.mem_cons_of_mem _ hnul
    exact str.noNul ((List.dropWhile_sublist _).subset hin)
  have hout : (0 : UInt8) ∉ resolvedPath rest := hpath ▸ (simplified_path str.noNul).noNul
  obtain ⟨rest', hcons, hagain⟩ := resolvedPath_again hrest
  refine ⟨⟨resolvedPath rest, hout⟩, ?_, rfl, ?_⟩
  · rw [usSimplifyRequestPath_eq, hpath]
  · have hdrop : (resolvedPath rest).dropWhile (· = chSpace) = chSlash :: rest' := by
      rw [hcons]
      exact List.dropWhile_cons_of_neg (by decide)
    rw [usSimplifyRequestPath_eq, simplifiedPath_absolute hdrop, hagain]

end

theorem simplify_is_resolution_blank :
    ∃ out : CString, usSimplifyRequestPath ⟨ascii " /a//b/../c/.", by decide⟩ = some out.bytes ∧
      out.bytes = ascii "/a/c/" ∧ usSimplifyRequestPath out = some out.bytes := by
  have hdrop : (ascii " /a//b/../c/.").dropWhile (· = chSpace)
      = chSlash :: ascii "a//b/../c/." := rfl
  obtain ⟨out, hout, heq, hagain⟩ :=
    simplify_is_resolution ⟨ascii " /a//b/../c/.", by decide⟩ hdrop
  exact ⟨out, hout, heq.trans (by decide), hagain⟩

/-! ## 4. Relative paths -/

/-- The components that are not empty. -/
def nonemptyComponents (path : List UInt8) : List (List UInt8) :=
  (path.splitOn chSlash).filter (· ≠ [])

/-- The last component is the `..` that leaves the first one, which has `n` names behind it. -/
def LeavesFirstLast (n : Nat) (cs : List (List UInt8)) : Prop :=
  ∃ before, cs = before ++ [[chDot, chDot]] ∧
    before.foldl (LexicalPath.behindFirst chDot) (some n) = some 0

/-- **Where a relative path is like the absolute one**: there is no slash in it; or its first
component has one character, and a `..` leaves it; or it has more, and the last component does not
leave it. -/
def LikeAbsolute (path : List UInt8) : Prop :=
  ∃ first cs, path.splitOn chSlash = first :: cs ∧
    (cs = [] ∨
      first.length = 1 ∧ cs.foldl (LexicalPath.behindFirst chDot) (some 0) = none ∨
      first.length ≠ 1 ∧ ¬ LeavesFirstLast 0 cs)

section

variable {first c : List UInt8} {cs comps : List (List UInt8)}

theorem filter_names (hcs : ∀ d ∈ cs, IsName d) : cs.filter (· ≠ []) = cs := by
  refine List.filter_eq_self.mpr fun d hd => ?_
  exact decide_eq_true (hcs d hd).2.1

theorem nonemptyComponents_join (hc : Plain c) (hcs : ∀ d ∈ cs, Plain d) :
    nonemptyComponents (c ++ joinSlash cs) = (c :: cs).filter (· ≠ []) := by
  have hsplit : (c ++ joinSlash cs).splitOn chSlash = c :: cs :=
    LexicalPath.splitOn_join chSlash hc.1 fun d hd => (hcs d hd).1
  rw [nonemptyComponents, hsplit]

theorem plain_nil : Plain [] := ⟨List.not_mem_nil, List.not_mem_nil⟩

/-- A slash at the end is no component. -/
theorem nonemptyComponents_slash (hc : Plain c) (hcs : ∀ d ∈ cs, Plain d) (slash : Bool) :
    nonemptyComponents (c ++ joinSlash cs ++ if slash then [chSlash] else [])
      = (c :: cs).filter (· ≠ []) := by
  cases slash with
  | false =>
    rw [if_neg (by decide), List.append_nil]
    exact nonemptyComponents_join hc hcs
  | true =>
    have hjoin : c ++ joinSlash cs ++ [chSlash] = c ++ joinSlash (cs ++ [[]]) := by
      rw [joinSlash_append, List.append_assoc]
      rfl
    have hplain : ∀ d ∈ cs ++ [[]], Plain d := by
      intro d hd
      rcases List.mem_append.mp hd with hd | hd
      · exact hcs d hd
      · rw [List.mem_singleton.mp hd]
        exact plain_nil
    rw [if_pos rfl, hjoin, nonemptyComponents_join hc hplain, ← List.cons_append,
      List.filter_append]
    exact List.append_nil _

theorem nonemptyComponents_absolutePath (hcs : ∀ d ∈ cs, IsName d) (slash : Bool) :
    nonemptyComponents (absolutePath cs slash) = cs := by
  cases cs with
  | nil => rfl
  | cons c cs =>
    have hplain := nonemptyComponents_slash plain_nil (fun d hd => (hcs d hd).1) slash
    rw [absolutePath_cons, ← List.nil_append (joinSlash (c :: cs)), hplain,
      List.filter_cons_of_neg (by decide), filter_names hcs]

/-- Where nothing is before the first slash, the names are walked from the root. -/
theorem nonemptyComponents_empty (hc : Plain c) (hcs : ∀ d ∈ cs, Plain d) :
    nonemptyComponents (Kept.empty.finish c cs)
      = (c :: cs).foldl (LexicalPath.walkStep chDot) [] := by
  have hwalk : ∀ e ∈ (c :: cs).foldl (LexicalPath.walkStep chDot) [], IsName e :=
    LexicalPath.forall_foldl_walkStep chDot _
      (fun e he hne hdot hdots =>
        ⟨(List.forall_mem_cons.mpr ⟨hc, hcs⟩ : ∀ d ∈ c :: cs, Plain d) e he, hne, hdot, hdots⟩)
      [] (List.forall_mem_nil _)
  rw [Kept.empty, Kept.finish_root]
  exact nonemptyComponents_absolutePath hwalk _

theorem leavesFirstLast_singleton (n : Nat) (c : List UInt8) :
    LeavesFirstLast n [c] ↔ c = [chDot, chDot] ∧ n = 0 := by
  constructor
  · rintro ⟨before, heq, hfold⟩
    cases before with
    | nil => exact ⟨(List.cons.inj heq).1, Option.some.inj hfold⟩
    | cons b before =>
      have hlen := congrArg List.length heq
      simp at hlen
  · rintro ⟨rfl, rfl⟩
    exact ⟨[], rfl, rfl⟩

theorem leavesFirstLast_cons (n : Nat) (c d : List UInt8) (cs : List (List UInt8)) :
    LeavesFirstLast n (c :: d :: cs) ↔
      ∃ m, LexicalPath.behindFirst chDot (some n) c = some m ∧ LeavesFirstLast m (d :: cs) := by
  constructor
  · rintro ⟨before, heq, hfold⟩
    cases before with
    | nil => exact absurd (List.cons.inj heq).2 (List.cons_ne_nil d cs)
    | cons b before =>
      obtain ⟨rfl, hrest⟩ := List.cons.inj heq
      rw [List.foldl_cons] at hfold
      cases hstep : LexicalPath.behindFirst chDot (some n) c with
      | none =>
        rw [hstep, LexicalPath.foldl_behindFirst_none] at hfold
        exact absurd hfold.symm (Option.some_ne_none 0)
      | some m =>
        rw [hstep] at hfold
        exact ⟨m, rfl, before, hrest, hfold⟩
  · rintro ⟨m, hstep, before, hrest, hfold⟩
    refine ⟨c :: before, by rw [hrest]; rfl, ?_⟩
    rw [List.foldl_cons, hstep]
    exact hfold

theorem forall_isName_concat (hcomps : ∀ d ∈ comps, IsName d) (hc : Plain c)
    (hstay : ¬ (c = [] ∨ c = [chDot])) (hup : c ≠ [chDot, chDot]) :
    ∀ d ∈ comps ++ [c], IsName d := by
  intro d hd
  rcases List.mem_append.mp hd with hd | hd
  · exact hcomps d hd
  · rw [not_or] at hstay
    rw [List.mem_singleton.mp hd]
    exact ⟨hc, hstay.1, hstay.2, hup⟩

/-- The last component. -/
theorem nonemptyComponents_last (hf : IsName first) (hcomps : ∀ d ∈ comps, IsName d)
    (hc : Plain c) :
    LeavesFirstLast comps.length [c] ∧
        nonemptyComponents ((Kept.mk first comps).finish c []) = [[first.headD chSlash]] ∨
      ¬ LeavesFirstLast comps.length [c] ∧
        nonemptyComponents ((Kept.mk first comps).finish c [])
          = [c].foldl (LexicalPath.walkStep chDot) (first :: comps) := by
  have hfirst : Plain first := hf.1
  have hfilter : ∀ {ds : List (List UInt8)}, (∀ d ∈ ds, IsName d) →
      (first :: ds).filter (· ≠ []) = first :: ds := fun hds =>
    filter_names (List.forall_mem_cons.mpr ⟨hf, hds⟩)
  rw [leavesFirstLast_singleton, Kept.finish, Kept.last, List.foldl_cons, List.foldl_nil,
    LexicalPath.walkStep]
  by_cases hstay : c = [] ∨ c = [chDot]
  · rw [if_pos hstay, if_pos hstay]
    refine .inr ⟨?_, ?_⟩
    · rintro ⟨rfl, -⟩
      exact absurd hstay (by decide)
    · exact (nonemptyComponents_slash hfirst (fun d hd => (hcomps d hd).1) true).trans
        (hfilter hcomps)
  · rw [if_neg hstay, if_neg hstay]
    by_cases hup : c = [chDot, chDot]
    · rw [if_pos hup, if_pos hup, Kept.lastUp, Kept.pop]
      dsimp only
      cases comps with
      | nil =>
        obtain ⟨x, xs, rfl⟩ := List.exists_cons_of_ne_nil hf.2.1
        have hx : Plain [x] := by
          refine ⟨fun h => hfirst.1 ?_, fun h => hfirst.2 ?_⟩
          · exact List.mem_cons.mpr (.inl (List.mem_singleton.mp h))
          · exact List.mem_cons.mpr (.inl (List.mem_singleton.mp h))
        refine .inl ⟨⟨hup, rfl⟩, ?_⟩
        exact nonemptyComponents_join hx (List.forall_mem_nil _)
      | cons e es =>
        have hdrop : ∀ d ∈ (e :: es).dropLast, IsName d := fun d hd =>
          hcomps d (List.dropLast_subset _ hd)
        rw [if_neg (List.cons_ne_nil e es), if_neg (List.cons_ne_nil e es)]
        refine .inr ⟨fun h => Nat.succ_ne_zero _ h.2, ?_⟩
        exact (nonemptyComponents_slash hfirst (fun d hd => (hdrop d hd).1) true).trans
          (hfilter hdrop)
    · have hname := forall_isName_concat hcomps hc hstay hup
      rw [if_neg hup, if_neg hup, Kept.comp, if_neg hstay, if_neg hup]
      refine .inr ⟨fun h => hup h.1, ?_⟩
      exact (nonemptyComponents_join hfirst fun d hd => (hname d hd).1).trans (hfilter hname)

/-- **A beginning of more than one character** stays in front of the walk, but if the last component
leaves it there is still its first character. -/
theorem nonemptyComponents_finish (hf : IsName first) (hcomps : ∀ d ∈ comps, IsName d)
    (hc : Plain c) (hcs : ∀ d ∈ cs, Plain d) :
    LeavesFirstLast comps.length (c :: cs) ∧
        nonemptyComponents ((Kept.mk first comps).finish c cs) = [[first.headD chSlash]] ∨
      ¬ LeavesFirstLast comps.length (c :: cs) ∧
        nonemptyComponents ((Kept.mk first comps).finish c cs)
          = (c :: cs).foldl (LexicalPath.walkStep chDot) (first :: comps) := by
  induction cs generalizing comps c with
  | nil =>
    exact nonemptyComponents_last hf hcomps hc
  | cons d cs ih =>
    obtain ⟨hd, hrest⟩ := List.forall_mem_cons.mp hcs
    rw [leavesFirstLast_cons, Kept.finish, List.foldl_cons, Kept.comp, LexicalPath.behindFirst,
      LexicalPath.walkStep]
    by_cases hstay : c = [] ∨ c = [chDot]
    · rw [if_pos hstay, if_pos hstay, if_pos hstay]
      simp only [Option.some.injEq, exists_eq_left']
      exact ih hcomps hd hrest
    · rw [if_neg hstay, if_neg hstay, if_neg hstay]
      by_cases hup : c = [chDot, chDot]
      · rw [if_pos hup, if_pos hup, if_pos hup, Kept.pop]
        dsimp only
        cases comps with
        | nil =>
          -- the beginning is gone: from here on the path is absolute
          rw [if_pos rfl, List.length_nil, if_pos rfl]
          refine .inr ⟨?_, ?_⟩
          · rintro ⟨m, h, -⟩
            exact Option.some_ne_none m h.symm
          · exact nonemptyComponents_empty hd hrest
        | cons e es =>
          have hdrop : ∀ d ∈ (e :: es).dropLast, IsName d := fun d hd =>
            hcomps d (List.dropLast_subset _ hd)
          have hlen : ((e :: es).dropLast).length = (e :: es).length - 1 := List.length_dropLast
          rw [if_neg (List.cons_ne_nil e es),
            if_neg (show (e :: es).length ≠ 0 from Nat.succ_ne_zero _), ← hlen]
          simp only [Option.some.injEq, exists_eq_left']
          exact ih hdrop hd hrest
      · have hname := forall_isName_concat hcomps hc hstay hup
        have hlen : (comps ++ [c]).length = comps.length + 1 := by
          rw [List.length_append, List.length_singleton]
        rw [if_neg hup, if_neg hup, if_neg hup, ← hlen]
        simp only [Option.some.injEq, exists_eq_left']
        exact ih hname hd hrest

/-- Where the last component leaves the first one, nothing is left. -/
theorem walk_leavesFirstLast (h : LeavesFirstLast 0 cs) :
    cs.foldl (LexicalPath.walkStep chDot) [first] = [] := by
  obtain ⟨before, rfl, hfold⟩ := h
  have hbefore : before.foldl (LexicalPath.walkStep chDot) [] = [] :=
    List.length_eq_zero_iff.mp (LexicalPath.length_foldl_walkStep chDot before hfold)
  have hlast : (before ++ [[chDot, chDot]]).foldl (LexicalPath.behindFirst chDot) (some 0)
      = none := by
    rw [List.foldl_append, hfold]
    rfl
  have hcons := LexicalPath.foldl_walkStep_cons chDot first (before ++ [[chDot, chDot]]) []
  rw [List.length_nil, hlast] at hcons
  rw [hcons, List.foldl_append]
  dsimp only
  rw [hbefore]
  rfl

/-- **The components of a relative path**, against the walk from its first one. -/
theorem nonemptyComponents_from (hf : IsName first) (hcs : ∀ d ∈ cs, Plain d) :
    nonemptyComponents (simplifiedFrom first cs)
        = cs.foldl (LexicalPath.walkStep chDot) [first] ↔
      (cs = [] ∨
        first.length = 1 ∧ cs.foldl (LexicalPath.behindFirst chDot) (some 0) = none ∨
        first.length ≠ 1 ∧ ¬ LeavesFirstLast 0 cs) := by
  cases cs with
  | nil =>
    have hself : nonemptyComponents first = [first] := by
      have hjoin := nonemptyComponents_join hf.1 (List.forall_mem_nil _)
      rw [joinSlash_nil, List.append_nil] at hjoin
      rw [hjoin]
      exact filter_names (List.forall_mem_singleton.mpr hf)
    exact ⟨fun _ => .inl rfl, fun _ => hself⟩
  | cons c cs =>
    obtain ⟨hc, hrest⟩ := List.forall_mem_cons.mp hcs
    rw [simplifiedFrom]
    by_cases hone : first.length = 1
    · have hempty := nonemptyComponents_empty hc hrest
      have hcons := LexicalPath.foldl_walkStep_cons chDot first (c :: cs) []
      rw [List.length_nil] at hcons
      rw [if_pos hone, ← Kept.empty, hempty, hcons]
      cases hfold : (c :: cs).foldl (LexicalPath.behindFirst chDot) (some 0) with
      | none => exact ⟨fun _ => .inr (.inl ⟨hone, rfl⟩), fun _ => rfl⟩
      | some n =>
        constructor
        · intro h
          exact absurd (congrArg List.length h) (Nat.ne_of_lt (Nat.lt_succ_self _))
        · rintro (h | ⟨-, h⟩ | ⟨h, -⟩)
          · exact absurd h (List.cons_ne_nil c cs)
          · exact absurd h (Option.some_ne_none n)
          · exact absurd hone h
    · rw [if_neg hone]
      rcases nonemptyComponents_finish hf (List.forall_mem_nil _) hc hrest with
        ⟨hleaves, heq⟩ | ⟨hstays, heq⟩
      · rw [heq, walk_leavesFirstLast hleaves]
        constructor
        · intro h
          exact absurd h (List.cons_ne_nil _ _)
        · rintro (h | ⟨h, -⟩ | ⟨-, h⟩)
          · exact absurd h (List.cons_ne_nil c cs)
          · exact absurd h hone
          · exact absurd hleaves h
      · exact ⟨fun _ => .inr (.inr ⟨hone, hstays⟩), fun _ => heq⟩

end

/-- **Relative paths like absolute ones.**  A path that begins with a name has the components of the
same path behind a slash exactly if `LikeAbsolute` holds. -/
theorem relative_like_absolute_iff (p : CString) (abs : CString)
    (habs : abs.bytes = chSlash :: p.bytes) (hne : p.bytes ≠ [])
    (hhead : ∀ x, p.bytes.head? = some x → x ≠ chSpace ∧ x ≠ chDot ∧ x ≠ chSlash) :
    ∃ relative absolute, usSimplifyRequestPath p = some relative ∧
      usSimplifyRequestPath abs = some absolute ∧
      (nonemptyComponents relative = nonemptyComponents absolute ↔ LikeAbsolute p.bytes) := by
  obtain ⟨x, xs, hp⟩ := List.exists_cons_of_ne_nil hne
  obtain ⟨hspace, hdot, hslash⟩ := hhead x (by rw [hp]; rfl)
  have hdrop : p.bytes.dropWhile (· = chSpace) = p.bytes := by
    rw [hp]
    exact List.dropWhile_cons_of_neg (by simpa using hspace)
  have hdropAbs : abs.bytes.dropWhile (· = chSpace) = chSlash :: p.bytes := by
    rw [habs]
    exact List.dropWhile_cons_of_neg (by decide)
  obtain ⟨first, cs, hsplit, hjoin, hmem⟩ := LexicalPath.exists_join chSlash p.bytes
  have hplain : ∀ d ∈ first :: cs, Plain d := fun d hd =>
    ⟨(hmem d hd).1, fun hnul => p.noNul ((hmem d hd).2 0 hnul)⟩
  have hcs : ∀ d ∈ cs, Plain d := fun d hd => hplain d (List.mem_cons_of_mem _ hd)
  -- the first component begins with the first character
  obtain ⟨ys, rfl⟩ : ∃ ys, first = x :: ys := by
    cases first with
    | nil =>
      cases cs with
      | nil => exact absurd hjoin hne
      | cons d ds =>
        rw [hp] at hjoin
        exact absurd (List.cons.inj hjoin).1 hslash
    | cons y ys =>
      rw [hp] at hjoin
      rw [(List.cons.inj hjoin).1]
      exact ⟨ys, rfl⟩
  have hf : IsName (x :: ys) := by
    refine ⟨hplain _ List.mem_cons_self, List.cons_ne_nil x ys, ?_, ?_⟩
    · exact fun h => hdot (List.cons.inj h).1
    · exact fun h => hdot (List.cons.inj h).1
  have hfirst : firstOf (x :: ys) = x :: ys := by
    rw [firstOf, if_neg]
    rintro (h | h)
    · exact hdot (List.cons.inj h).1
    · exact hdot (List.cons.inj h).1
  have hrel : simplifiedPath p.bytes = simplifiedFrom (x :: ys) cs := by
    unfold simplifiedPath
    rw [hdrop, hsplit]
    dsimp only
    rw [hfirst]
  have hwalk : LexicalPath.walk chSlash chDot [] p.bytes
      = cs.foldl (LexicalPath.walkStep chDot) [x :: ys] := by
    have hpush : LexicalPath.walkStep chDot [] (x :: ys) = [x :: ys] := by
      rw [LexicalPath.walkStep, if_neg (not_or.mpr ⟨hf.2.1, hf.2.2.1⟩), if_neg hf.2.2.2]
      rfl
    rw [LexicalPath.walk, hsplit, List.foldl_cons, hpush]
  refine ⟨_, _, usSimplifyRequestPath_eq p, usSimplifyRequestPath_eq abs, ?_⟩
  rw [hrel, simplifiedPath_absolute hdropAbs, resolvedPath,
    nonemptyComponents_absolutePath (walk_names p.noNul), hwalk, nonemptyComponents_from hf hcs]
  constructor
  · intro h
    exact ⟨x :: ys, cs, hsplit, h⟩
  · rintro ⟨first', cs', hsplit', h⟩
    rw [hsplit] at hsplit'
    obtain ⟨rfl, rfl⟩ := List.cons.inj hsplit'
    exact h

theorem relative_like_absolute_iff_up :
    ∃ relative absolute, usSimplifyRequestPath ⟨ascii "ab/../c", by decide⟩ = some relative ∧
      usSimplifyRequestPath ⟨ascii "/ab/../c", by decide⟩ = some absolute ∧
      (nonemptyComponents relative = nonemptyComponents absolute ↔
        LikeAbsolute (ascii "ab/../c")) :=
  relative_like_absolute_iff ⟨ascii "ab/../c", by decide⟩ ⟨ascii "/ab/../c", by decide⟩ rfl
    (by decide) (by
      intro x hx
      rw [← Option.some.inj hx]
      decide)

/-- `a/b` is simplified to `/b`, but `/a/b` to itself. -/
theorem relative_not_like_absolute :
    usSimplifyRequestPath ⟨ascii "a/b", by decide⟩ = some (ascii "/b") ∧
      usSimplifyRequestPath ⟨ascii "/a/b", by decide⟩ = some (ascii "/a/b") ∧
      nonemptyComponents (ascii "/b") ≠ nonemptyComponents (ascii "/a/b") := by
  refine ⟨?_, ?_, by decide⟩
  · decide +kernel
  · decide +kernel

end TinyPilotKvm
