/-
# Static files (`ustreamer/http/static.c`)

`us_find_static_file_path` looks a request up below the root: it puts the root, a slash and the
simplified request together, and appends `/index.html` if that is a directory.  Whatever the
request, neither path leaves the root, read as text: a simplified path has no component `..` to
leave it with (`Simplified.noDotDot`).
-/
import TinyPilotKvm.Ustreamer.Http.PathComponents

namespace TinyPilotKvm

/-! ## 1. The code -/

/-- What `lstat` says of a path. -/
inductive FileMode
  | dir
  | reg
  | other
  deriving DecidableEq

def indexName : List UInt8 :=
  ['i', 'n', 'd', 'e', 'x', '.', 'h', 't', 'm', 'l'].map Char.toUInt8

/-- `/index.html`. -/
def indexHtml : List UInt8 := chSlash :: indexName

/-- `us_find_static_file_path`, with the answers of the file system.  The outer `none` is an access
outside the memory, the inner one the null pointer. -/
def usFindStaticFilePath (rootPath requestPath : CString)
    (lstat lstatIndex : List UInt8 → Option FileMode) (readable : List UInt8 → Bool) :
    Option (Option (List UInt8)) := do
  let simplifiedPath ← usSimplifyRequestPath requestPath
  if simplifiedPath = [] then return none
  let path := List.replicate (rootPath.bytes.length + simplifiedPath.length + 16) 0
  let path ← storeAll path 0 (rootPath.bytes ++ chSlash :: simplifiedPath ++ [0])
  let st := lstat (cStringAt path)
  if st = some .dir then
    let path ← storeAll path (cStringAt path).length (indexHtml ++ [0])
    let st := lstatIndex (cStringAt path)
    return if st = some .reg ∧ readable (cStringAt path) then some (cStringAt path) else none
  else
    return if st = some .reg ∧ readable (cStringAt path) then some (cStringAt path) else none

/-- The two paths that are looked up. -/
def builtPaths (root path : List UInt8) : List (List UInt8) :=
  [root ++ chSlash :: path, root ++ chSlash :: path ++ indexHtml]

/-! ## 2. Simplified paths -/

section Simplified

variable {path : List UInt8}

theorem Kept.Wf.splitOn {k : Kept} (hk : k.Wf) : k.bytes.splitOn chSlash = k.first :: k.comps := by
  refine LexicalPath.splitOn_join chSlash ?_ fun c hc => (hk.comps c hc).1.1
  rcases hk.first with hnil | hname
  · rw [hnil]
    exact List.not_mem_nil
  · exact hname.1.1

theorem Kept.Wf.splitOn_slash {k : Kept} (hk : k.Wf) :
    (k.bytes ++ [chSlash]).splitOn chSlash = k.first :: (k.comps ++ [[]]) := by
  rw [List.splitOn_append_cons_self, hk.splitOn, List.splitOn_nil]
  rfl

theorem Kept.Wf.noDotDot {k : Kept} (hk : k.Wf) : [chDot, chDot] ∉ k.first :: k.comps := by
  intro h
  rcases List.mem_cons.mp h with h | h
  · rcases hk.first with hnil | hname
    · rw [hnil] at h
      exact absurd h (by simp)
    · exact hname.2.2.2 h.symm
  · exact (hk.comps _ h).2.2.2 rfl

/-- **No component `..`.** -/
theorem Simplified.noDotDot (h : Simplified path) : [chDot, chDot] ∉ path.splitOn chSlash := by
  cases h with
  | kept hk =>
    rw [hk.splitOn]
    exact hk.noDotDot
  | slash hk =>
    rw [hk.splitOn_slash, ← List.cons_append]
    intro h
    rcases List.mem_append.mp h with h | h
    · exact hk.noDotDot h
    · simp at h
  | single hslash hnul =>
    rw [List.splitOn_eq_singleton (by simpa using hslash.symm)]
    simp

/-- **No empty component between two slashes.** -/
theorem Simplified.noDouble (h : Simplified path) : ¬ [chSlash, chSlash] <:+: path := by
  intro hdouble
  obtain ⟨before, after, hbefore, hafter, hsplit⟩ := LexicalPath.splitOn_of_double chSlash hdouble
  obtain ⟨b, before, rfl⟩ := List.exists_cons_of_ne_nil hbefore
  rw [List.cons_append] at hsplit
  cases h with
  | kept hk =>
    rw [hk.splitOn] at hsplit
    have hmem := (List.cons.inj hsplit).2 ▸ List.mem_append_right before List.mem_cons_self
    exact (hk.comps [] hmem).2.1 rfl
  | slash hk =>
    rw [hk.splitOn_slash] at hsplit
    have hdrop := congrArg List.dropLast (List.cons.inj hsplit).2
    rw [List.dropLast_concat, List.dropLast_append_of_ne_nil (by simp),
      List.dropLast_cons_of_ne_nil hafter] at hdrop
    have hmem := hdrop ▸ List.mem_append_right before List.mem_cons_self
    exact (hk.comps [] hmem).2.1 rfl
  | single hslash hnul =>
    rw [List.splitOn_eq_singleton (by simpa using hslash.symm)] at hsplit
    have hlen := congrArg List.length hsplit
    simp at hlen

end Simplified

/-! ## 3. Containment -/

/-- `path` names something below what `root` names, from any directory. -/
def LexicallyInside (root path : List UInt8) : Prop :=
  ∀ dir, LexicalPath.walk chSlash chDot dir root <+: LexicalPath.walk chSlash chDot dir path

/-- What is below the root in a simplified path is below the root. -/
theorem lexicallyInside_append {root path : List UInt8}
    (h : [chDot, chDot] ∉ path.splitOn chSlash) :
    LexicallyInside root (root ++ chSlash :: path) := by
  intro dir
  rw [LexicalPath.walk_append_sep]
  exact LexicalPath.prefix_walk chSlash chDot h _

theorem noDotDot_index {path : List UInt8} (h : [chDot, chDot] ∉ path.splitOn chSlash) :
    [chDot, chDot] ∉ (path ++ indexHtml).splitOn chSlash := by
  have hname : chSlash ∉ indexName := by decide
  unfold indexHtml
  rw [List.splitOn_append_cons_self, List.splitOn_eq_singleton hname]
  intro hmem
  rcases List.mem_append.mp hmem with hmem | hmem
  · exact h hmem
  · exact absurd (List.mem_singleton.mp hmem) (by decide)

theorem inside_of_built {root path p : List UInt8} (h : [chDot, chDot] ∉ path.splitOn chSlash)
    (hp : p ∈ builtPaths root path) : LexicallyInside root p := by
  rcases List.mem_cons.mp hp with rfl | hp
  · exact lexicallyInside_append h
  · rw [List.mem_singleton.mp hp, List.append_assoc, List.cons_append]
    exact lexicallyInside_append (noDotDot_index h)

/-- The two paths fit, and nothing else is returned. -/
theorem usFindStaticFilePath_spec {root request : CString} {path : List UInt8}
    (hpath : usSimplifyRequestPath request = some path) (h0 : (0 : UInt8) ∉ path)
    (lstat lstatIndex : List UInt8 → Option FileMode) (readable : List UInt8 → Bool) :
    ∃ found, usFindStaticFilePath root request lstat lstatIndex readable = some found ∧
      ∀ p, found = some p → p ∈ builtPaths root.bytes path := by
  unfold usFindStaticFilePath
  simp only [hpath, bind, Option.bind_some]
  by_cases hnil : path = []
  · rw [if_pos hnil]
    exact ⟨none, rfl, fun p hp => absurd hp (by simp)⟩
  rw [if_neg hnil]
  have hfull : (0 : UInt8) ∉ root.bytes ++ chSlash :: path := by
    intro h
    rcases List.mem_append.mp h with h | h
    · exact root.noNul h
    · rcases List.mem_cons.mp h with h | h
      · exact chSlash_ne_zero h.symm
      · exact h0 h
  obtain ⟨buf, hbuf, hstr⟩ : ∃ buf,
      storeAll (List.replicate (root.bytes.length + path.length + 16) 0) 0
        (root.bytes ++ chSlash :: path ++ [0]) = some buf ∧
      root.bytes ++ chSlash :: path ++ [0] <+: buf := by
    refine ⟨_, storeAll_eq_some_iff.mpr ⟨?_, rfl⟩, ?_⟩
    · simp only [List.length_append, List.length_cons, List.length_nil, List.length_replicate]
      omega
    · exact ⟨_, rfl⟩
  have hlen : buf.length = root.bytes.length + path.length + 16 :=
    (length_storeAll hbuf).trans List.length_replicate
  have hcstr := cStringAt_of_isPrefix hfull hstr
  simp only [hbuf, Option.bind_some, hcstr]
  split
  · have hindex : (0 : UInt8) ∉ root.bytes ++ chSlash :: path ++ indexHtml := by
      intro h
      rcases List.mem_append.mp h with h | h
      · exact hfull h
      · exact absurd h (by decide)
    obtain ⟨buf2, hbuf2, hstr2⟩ : ∃ buf2,
        storeAll buf (root.bytes ++ chSlash :: path).length (indexHtml ++ [0]) = some buf2 ∧
        root.bytes ++ chSlash :: path ++ indexHtml ++ [0] <+: buf2 := by
      have htake : buf.take (root.bytes ++ chSlash :: path).length
          = root.bytes ++ chSlash :: path := by
        obtain ⟨rest, rfl⟩ := hstr
        rw [List.append_assoc, List.take_left]
      refine ⟨_, storeAll_eq_some_iff.mpr ⟨?_, rfl⟩, ?_⟩
      · have hname : indexName.length = 10 := rfl
        simp only [hlen, indexHtml, List.length_append, List.length_cons, List.length_nil, hname]
        omega
      · rw [htake, ← List.append_assoc]
        exact List.prefix_append _ _
    have hcstr2 := cStringAt_of_isPrefix hindex hstr2
    simp only [hbuf2, Option.bind_some, hcstr2]
    refine ⟨_, rfl, fun p hp => ?_⟩
    split at hp
    · rw [← Option.some.inj hp]
      exact List.mem_cons_of_mem _ List.mem_cons_self
    · exact absurd hp (by simp)
  · refine ⟨_, rfl, fun p hp => ?_⟩
    split at hp
    · rw [← Option.some.inj hp]
      exact List.mem_cons_self
    · exact absurd hp (by simp)

/-- **Containment.**  For every request the simplification ends, stays in its memory and returns a
string that is no longer than the request, without a component `..` and without an empty component
between two slashes; and for every root, whatever the file system answers, the paths that are
looked up, of which one is returned or none, are lexically inside the root. -/
theorem static_path_containment (request : CString) :
    ∃ path, usSimplifyRequestPath request = some path ∧
      path.length ≤ request.bytes.length ∧
      [chDot, chDot] ∉ path.splitOn chSlash ∧
      ¬ [chSlash, chSlash] <:+: path ∧
      ∀ (root : CString) (lstat lstatIndex : List UInt8 → Option FileMode)
        (readable : List UInt8 → Bool),
        (∀ p ∈ builtPaths root.bytes path, LexicallyInside root.bytes p) ∧
        ∃ found, usFindStaticFilePath root request lstat lstatIndex readable = some found ∧
          ∀ p, found = some p → p ∈ builtPaths root.bytes path := by
  have hsimple := simplified_path request.noNul
  refine ⟨_, usSimplifyRequestPath_eq request, length_simplifiedPath request.noNul,
    hsimple.noDotDot, hsimple.noDouble, fun root lstat lstatIndex readable => ⟨?_, ?_⟩⟩
  · exact fun p hp => inside_of_built hsimple.noDotDot hp
  · exact usFindStaticFilePath_spec (usSimplifyRequestPath_eq request) hsimple.noNul lstat
      lstatIndex readable

end TinyPilotKvm
