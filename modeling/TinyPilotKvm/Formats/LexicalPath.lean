/-
# Paths as text

A path is a list of symbols, read as components between separators.  `walk` follows the components
from a directory, which is the list of the names on the way to it: an empty component and `.` stay,
`..` goes up (and stays at the top), and a name goes down.  This is the meaning of a path in a
tree without links.

A path without a component `..` only goes down, so what it names is below where it started
(`prefix_walk`).
-/
import Mathlib.Data.List.Basic

namespace TinyPilotKvm
namespace LexicalPath

variable {α : Type} [DecidableEq α] (sep dot : α)

/-! ## 1. Components and text -/

/-- Components, each behind a separator. -/
def join (comps : List (List α)) : List α := comps.flatMap (sep :: ·)

omit [DecidableEq α] in
@[simp] theorem join_nil : join sep [] = [] := rfl

omit [DecidableEq α] in
@[simp] theorem join_cons (c : List α) (cs : List (List α)) :
    join sep (c :: cs) = sep :: (c ++ join sep cs) := rfl

omit [DecidableEq α] in
theorem join_append (cs ds : List (List α)) : join sep (cs ++ ds) = join sep cs ++ join sep ds :=
  List.flatMap_append

/-- Splitting what has been joined. -/
theorem splitOn_join {c : List α} {cs : List (List α)} (hc : sep ∉ c) (hcs : ∀ d ∈ cs, sep ∉ d) :
    (c ++ join sep cs).splitOn sep = c :: cs := by
  induction cs generalizing c with
  | nil => rw [join_nil, List.append_nil, List.splitOn_eq_singleton hc]
  | cons d cs ih =>
    rw [join_cons, List.splitOn_append_cons_self, List.splitOn_eq_singleton hc,
      ih (hcs d List.mem_cons_self) fun e he => hcs e (List.mem_cons_of_mem _ he)]
    rfl

/-- Joining what has been split. -/
theorem exists_join (path : List α) : ∃ c cs, path.splitOn sep = c :: cs ∧
    path = c ++ join sep cs ∧ ∀ d ∈ c :: cs, sep ∉ d ∧ ∀ x ∈ d, x ∈ path := by
  induction path with
  | nil => exact ⟨[], [], rfl, rfl, by simp⟩
  | cons x path ih =>
    obtain ⟨c, cs, hsplit, hpath, hmem⟩ := ih
    rw [List.splitOn_cons_eq_if_modifyHead, hsplit]
    by_cases hx : x = sep
    · subst hx
      refine ⟨[], c :: cs, by simp, by rw [hpath]; rfl, fun d hd => ?_⟩
      rcases List.mem_cons.mp hd with rfl | hd
      · exact ⟨List.not_mem_nil, fun y hy => absurd hy List.not_mem_nil⟩
      · exact ⟨(hmem d hd).1, fun y hy => List.mem_cons_of_mem _ ((hmem d hd).2 y hy)⟩
    · refine ⟨x :: c, cs, by simp [hx], by rw [hpath]; rfl, fun d hd => ?_⟩
      rcases List.mem_cons.mp hd with rfl | hd
      · obtain ⟨hsep, hin⟩ := hmem c List.mem_cons_self
        refine ⟨fun h => ?_, fun y hy => ?_⟩
        · rcases List.mem_cons.mp h with h | h
          · exact hx h.symm
          · exact hsep h
        · rcases List.mem_cons.mp hy with rfl | hy
          · exact List.mem_cons_self
          · exact List.mem_cons_of_mem _ (hin y hy)
      · obtain ⟨hsep, hin⟩ := hmem d (List.mem_cons_of_mem _ hd)
        exact ⟨hsep, fun y hy => List.mem_cons_of_mem _ (hin y hy)⟩

/-- Two separators in a row are an empty component with a component on either side. -/
theorem splitOn_of_double {path : List α} (h : [sep, sep] <:+: path) :
    ∃ before after, before ≠ [] ∧ after ≠ [] ∧ path.splitOn sep = before ++ [] :: after := by
  obtain ⟨pre, post, rfl⟩ := h
  refine ⟨pre.splitOn sep, post.splitOn sep, List.splitOn_ne_nil _ _, List.splitOn_ne_nil _ _, ?_⟩
  have hassoc : pre ++ [sep, sep] ++ post = pre ++ sep :: ([] ++ sep :: post) := by simp
  rw [hassoc, List.splitOn_append_cons_self, List.splitOn_append_cons_self, List.splitOn_nil]
  rfl

/-! ## 2. Walking -/

/-- One component, from a directory. -/
def walkStep (dir : List (List α)) (c : List α) : List (List α) :=
  if c = [] ∨ c = [dot] then dir
  else if c = [dot, dot] then dir.dropLast
  else dir ++ [c]

/-- What a path names, from a directory. -/
def walk (dir : List (List α)) (path : List α) : List (List α) :=
  (path.splitOn sep).foldl (walkStep dot) dir

/-- A component that is not `..` does not go up. -/
theorem prefix_walkStep {c : List α} (h : c ≠ [dot, dot]) (dir : List (List α)) :
    dir <+: walkStep dot dir c := by
  unfold walkStep
  split
  · exact List.prefix_rfl
  · exact List.prefix_append _ _

theorem prefix_foldl_walkStep (cs : List (List α)) (h : [dot, dot] ∉ cs) (dir : List (List α)) :
    dir <+: cs.foldl (walkStep dot) dir := by
  induction cs generalizing dir with
  | nil => exact List.prefix_rfl
  | cons c cs ih =>
    have hne : c ≠ [dot, dot] := fun hc => h (by simp [hc])
    exact (prefix_walkStep dot hne dir).trans (ih (fun hc => h (List.mem_cons_of_mem _ hc)) _)

theorem walk_append_sep (dir : List (List α)) (path rest : List α) :
    walk sep dot dir (path ++ sep :: rest) = walk sep dot (walk sep dot dir path) rest := by
  unfold walk
  rw [List.splitOn_append_cons_self, List.foldl_append]

/-- **Without `..` a path stays below.** -/
theorem prefix_walk {path : List α} (h : [dot, dot] ∉ path.splitOn sep) (dir : List (List α)) :
    dir <+: walk sep dot dir path :=
  prefix_foldl_walkStep dot _ h dir

/-! ## 3. The first name on the way -/

/-- How many names stand behind the first one; `none`: it has been left. -/
def behindFirst : Option Nat → List α → Option Nat
  | none, _ => none
  | some n, c =>
    if c = [] ∨ c = [dot] then some n
    else if c = [dot, dot] then (if n = 0 then none else some (n - 1))
    else some (n + 1)

theorem foldl_behindFirst_none (cs : List (List α)) : cs.foldl (behindFirst dot) none = none := by
  induction cs with
  | nil => rfl
  | cons c cs ih => exact ih

/-- **A walk from below a name** is the walk without the name, under the name as long as it has not
been left. -/
theorem foldl_walkStep_cons (first : List α) (cs : List (List α)) (dir : List (List α)) :
    cs.foldl (walkStep dot) (first :: dir)
      = match cs.foldl (behindFirst dot) (some dir.length) with
        | none => cs.foldl (walkStep dot) dir
        | some _ => first :: cs.foldl (walkStep dot) dir := by
  induction cs generalizing dir with
  | nil => rfl
  | cons c cs ih =>
    rw [List.foldl_cons, List.foldl_cons, List.foldl_cons, walkStep, walkStep, behindFirst]
    by_cases hstay : c = [] ∨ c = [dot]
    · rw [if_pos hstay, if_pos hstay, if_pos hstay]
      exact ih dir
    · rw [if_neg hstay, if_neg hstay, if_neg hstay]
      by_cases hup : c = [dot, dot]
      · rw [if_pos hup, if_pos hup, if_pos hup]
        cases dir with
        | nil => rw [List.length_nil, if_pos rfl, foldl_behindFirst_none]; rfl
        | cons d dir =>
          have hlen : ((d :: dir).dropLast).length = (d :: dir).length - 1 := List.length_dropLast
          rw [List.dropLast_cons_of_ne_nil (List.cons_ne_nil d dir),
            if_neg (show (d :: dir).length ≠ 0 from Nat.succ_ne_zero _), ← hlen]
          exact ih _
      · have hlen : (dir ++ [c]).length = dir.length + 1 := by
          rw [List.length_append, List.length_singleton]
        rw [if_neg hup, if_neg hup, if_neg hup, ← hlen, List.cons_append]
        exact ih _

/-- While the first name stands, it is known how many are behind it. -/
theorem length_foldl_walkStep (cs : List (List α)) {dir : List (List α)} {n : Nat}
    (h : cs.foldl (behindFirst dot) (some dir.length) = some n) :
    (cs.foldl (walkStep dot) dir).length = n := by
  induction cs generalizing dir with
  | nil => exact Option.some.inj h
  | cons c cs ih =>
    rw [List.foldl_cons, behindFirst] at h
    rw [List.foldl_cons, walkStep]
    by_cases hstay : c = [] ∨ c = [dot]
    · rw [if_pos hstay] at h ⊢
      exact ih h
    · rw [if_neg hstay] at h ⊢
      by_cases hup : c = [dot, dot]
      · rw [if_pos hup] at h ⊢
        by_cases hzero : dir.length = 0
        · rw [if_pos hzero, foldl_behindFirst_none] at h
          exact absurd h.symm (Option.some_ne_none n)
        · rw [if_neg hzero, ← List.length_dropLast] at h
          exact ih h
      · rw [if_neg hup] at h ⊢
        refine ih ?_
        rw [List.length_append, List.length_singleton]
        exact h

/-- The names on the way are names. -/
theorem forall_foldl_walkStep {p : List α → Prop} (cs : List (List α))
    (hcs : ∀ c ∈ cs, c ≠ [] → c ≠ [dot] → c ≠ [dot, dot] → p c) (dir : List (List α))
    (hdir : ∀ c ∈ dir, p c) : ∀ c ∈ cs.foldl (walkStep dot) dir, p c := by
  induction cs generalizing dir with
  | nil => exact hdir
  | cons c cs ih =>
    rw [List.foldl_cons]
    refine ih (fun d hd => hcs d (List.mem_cons_of_mem c hd)) _ ?_
    intro d hd
    rw [walkStep] at hd
    by_cases hstay : c = [] ∨ c = [dot]
    · rw [if_pos hstay] at hd
      exact hdir d hd
    · rw [if_neg hstay] at hd
      by_cases hup : c = [dot, dot]
      · rw [if_pos hup] at hd
        exact hdir d (List.dropLast_subset dir hd)
      · rw [if_neg hup] at hd
        rw [not_or] at hstay
        rcases List.mem_append.mp hd with hold | hnew
        · exact hdir d hold
        · rw [List.mem_singleton.mp hnew]
          exact hcs c List.mem_cons_self hstay.1 hstay.2 hup

/-- Names go down. -/
theorem foldl_walkStep_names (cs : List (List α))
    (hcs : ∀ c ∈ cs, c ≠ [] ∧ c ≠ [dot] ∧ c ≠ [dot, dot]) (dir : List (List α)) :
    cs.foldl (walkStep dot) dir = dir ++ cs := by
  induction cs generalizing dir with
  | nil => exact (List.append_nil dir).symm
  | cons c cs ih =>
    obtain ⟨hne, hdot, hup⟩ := hcs c List.mem_cons_self
    have hstep : walkStep dot dir c = dir ++ [c] := by
      rw [walkStep, if_neg (not_or.mpr ⟨hne, hdot⟩), if_neg hup]
    rw [List.foldl_cons, hstep, ih fun d hd => hcs d (List.mem_cons_of_mem c hd),
      List.append_assoc, List.singleton_append]

end LexicalPath
end TinyPilotKvm
