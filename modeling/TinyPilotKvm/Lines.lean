/-
# Splitting a text into lines

`xs.splitOn a` are the pieces of `xs` between the occurrences of `a`.  No piece has an `a`
(`notMem_of_mem_splitOn`), each is a part of the text (`infix_of_mem_splitOn`), and text before or
after goes to the first or the last piece.
-/
import Mathlib.Data.List.Infix

namespace TinyPilotKvm

variable {α : Type}

/-- A part without `c` of a text with a `c` is on one side of it. -/
theorem infix_append_cons {c : α} {m before after : List α} (hc : c ∉ m)
    (h : m <:+: before ++ c :: after) : m <:+: before ∨ m <:+: after := by
  obtain ⟨s, t, heq⟩ := h
  rw [List.append_assoc] at heq
  rcases List.append_eq_append_iff.mp heq with ⟨rest, hbefore, hmt⟩ | ⟨rest, hs, hafter⟩
  · rcases List.append_eq_append_iff.mp hmt with ⟨rest', hrest, -⟩ | ⟨rest', hm, hct⟩
    · exact Or.inl ⟨s, rest', by rw [hbefore, hrest, List.append_assoc]⟩
    · cases rest' with
      | nil => exact Or.inl ⟨s, [], by rw [hbefore, hm]; simp⟩
      | cons d rest' =>
        obtain ⟨rfl, -⟩ := List.cons.inj hct
        exact absurd (by rw [hm]; simp) hc
  · cases rest with
    | nil =>
      cases m with
      | nil => exact Or.inr (List.nil_infix)
      | cons d m =>
        obtain ⟨rfl, -⟩ := List.cons.inj hafter
        exact absurd List.mem_cons_self hc
    | cons d rest =>
      obtain ⟨-, hafter⟩ := List.cons.inj hafter
      exact Or.inr ⟨rest, t, by rw [List.append_assoc]; exact hafter.symm⟩

/-- A part that begins with `c` begins after all text without it. -/
theorem infix_of_infix_append_left {c : α} {m before after : List α} (hc : c ∉ before)
    (h : c :: m <:+: before ++ after) : c :: m <:+: after := by
  obtain ⟨s, t, heq⟩ := h
  rw [List.append_assoc] at heq
  rcases List.append_eq_append_iff.mp heq with ⟨rest, hbefore, hmt⟩ | ⟨rest, -, hafter⟩
  · cases rest with
    | nil => exact ⟨[], t, by simpa using hmt⟩
    | cons d rest =>
      obtain ⟨rfl, -⟩ := List.cons.inj hmt
      exact absurd (by rw [hbefore]; simp) hc
  · exact ⟨rest, t, by rw [List.append_assoc]; exact hafter.symm⟩

/-- A part that ends with `c` ends before all text without it. -/
theorem infix_of_infix_append_right {c : α} {m before after : List α} (hc : c ∉ after)
    (h : m ++ [c] <:+: before ++ after) : m ++ [c] <:+: before := by
  rw [← List.reverse_infix, List.reverse_append] at h ⊢
  rw [List.reverse_append] at h
  exact infix_of_infix_append_left (by rwa [List.mem_reverse]) h

variable [DecidableEq α] {a : α}

theorem notMem_of_mem_splitOn : ∀ {xs l : List α}, l ∈ xs.splitOn a → a ∉ l
  | [], l, h => by
    rw [List.splitOn_nil, List.mem_singleton] at h
    rw [h]
    exact List.not_mem_nil
  | x :: xs, l, h => by
    have ih : ∀ l ∈ xs.splitOn a, a ∉ l := fun l hl => notMem_of_mem_splitOn hl
    rw [List.splitOn_cons_eq_if_modifyHead] at h
    split at h
    · rcases List.mem_cons.mp h with rfl | h
      · exact List.not_mem_nil
      · exact ih l h
    · rename_i hx
      cases hsplit : xs.splitOn a with
      | nil => exact absurd hsplit (List.splitOn_ne_nil a xs)
      | cons first rest =>
        rw [hsplit] at h ih
        rcases List.mem_cons.mp h with rfl | h
        · rintro (_ | ⟨_, hmem⟩)
          · exact hx (beq_self_eq_true a)
          · exact ih first List.mem_cons_self hmem
        · exact ih l (List.mem_cons_of_mem _ h)

/-- Text before goes to the first piece. -/
theorem splitOn_append_of_notMem : ∀ {before : List α}, a ∉ before → ∀ xs : List α,
    (before ++ xs).splitOn a = (xs.splitOn a).modifyHead (before ++ ·)
  | [], _, xs => by
    cases h : xs.splitOn a <;> simp [h]
  | b :: before, hb, xs => by
    have hne : ¬ (b == a) = true := by
      intro he
      exact hb ((beq_iff_eq.mp he) ▸ List.mem_cons_self)
    have ih := splitOn_append_of_notMem (fun h => hb (List.mem_cons_of_mem _ h)) xs
    rw [List.cons_append, List.splitOn_cons_eq_if_modifyHead, if_neg hne, ih]
    cases xs.splitOn a <;> rfl

/-- Text after goes to the last piece. -/
theorem splitOn_append_of_notMem_right {after : List α} (ha : a ∉ after) : ∀ xs : List α,
    ∃ pieces last, xs.splitOn a = pieces ++ [last] ∧
      (xs ++ after).splitOn a = pieces ++ [last ++ after]
  | [] => ⟨[], [], List.splitOn_nil a, List.splitOn_eq_singleton ha⟩
  | x :: xs => by
    obtain ⟨pieces, last, hsplit, happend⟩ := splitOn_append_of_notMem_right ha xs
    rw [List.cons_append, List.splitOn_cons_eq_if_modifyHead, List.splitOn_cons_eq_if_modifyHead,
      hsplit, happend]
    split
    · exact ⟨[] :: pieces, last, rfl, rfl⟩
    · cases pieces with
      | nil => exact ⟨[], x :: last, rfl, rfl⟩
      | cons first rest => exact ⟨(x :: first) :: rest, last, rfl, rfl⟩

/-- The first piece begins the text, and the others are parts of it. -/
theorem splitOn_eq_cons : ∀ xs : List α, ∃ first rest, xs.splitOn a = first :: rest ∧
    first <+: xs ∧ ∀ l ∈ rest, l <:+: xs
  | [] => ⟨[], [], List.splitOn_nil a, List.nil_prefix, by simp⟩
  | x :: xs => by
    obtain ⟨first, rest, hsplit, hfirst, hrest⟩ := splitOn_eq_cons xs
    have hpart : ∀ l, l <:+: xs → l <:+: x :: xs :=
      fun l h => h.trans (List.suffix_cons x xs).isInfix
    rw [List.splitOn_cons_eq_if_modifyHead, hsplit]
    split
    · refine ⟨[], first :: rest, rfl, List.nil_prefix, ?_⟩
      rintro l (_ | ⟨_, hl⟩)
      · exact hpart first hfirst.isInfix
      · exact hpart l (hrest l hl)
    · exact ⟨x :: first, rest, rfl, List.cons_prefix_cons.mpr ⟨rfl, hfirst⟩,
        fun l hl => hpart l (hrest l hl)⟩

/-- A piece is a part of the text. -/
theorem infix_of_mem_splitOn {xs l : List α} (h : l ∈ xs.splitOn a) : l <:+: xs := by
  obtain ⟨first, rest, hsplit, hfirst, hrest⟩ := splitOn_eq_cons (a := a) xs
  rw [hsplit] at h
  rcases List.mem_cons.mp h with rfl | h
  · exact hfirst.isInfix
  · exact hrest l h

/-- Everything but the separators is in the pieces. -/
theorem eq_or_mem_splitOn (a : α) {xs : List α} {c : α} (h : c ∈ xs) :
    c = a ∨ ∃ l ∈ xs.splitOn a, c ∈ l := by
  induction xs with
  | nil => exact absurd h List.not_mem_nil
  | cons x xs ih =>
    obtain ⟨first, rest, hsplit, -, -⟩ := splitOn_eq_cons (a := a) xs
    rw [List.splitOn_cons_eq_if_modifyHead, hsplit]
    rw [hsplit] at ih
    by_cases hx : (x == a) = true
    · rw [if_pos hx]
      rcases List.mem_cons.mp h with rfl | h
      · exact Or.inl (beq_iff_eq.mp hx)
      · refine (ih h).imp_right ?_
        rintro ⟨l, hl, hc⟩
        exact ⟨l, List.mem_cons_of_mem _ hl, hc⟩
    · rw [if_neg hx]
      rcases List.mem_cons.mp h with rfl | h
      · exact Or.inr ⟨c :: first, List.mem_cons_self, List.mem_cons_self⟩
      · refine (ih h).imp_right ?_
        rintro ⟨l, hl, hc⟩
        rcases List.mem_cons.mp hl with rfl | hl
        · exact ⟨x :: l, List.mem_cons_self, List.mem_cons_of_mem _ hc⟩
        · exact ⟨l, List.mem_cons_of_mem _ hl, hc⟩

theorem splitOn_injective {xs ys : List α} (h : xs.splitOn a = ys.splitOn a) : xs = ys := by
  have hxs : [a].intercalate (xs.splitOn a) = xs := List.intercalate_splitOn a
  rw [← hxs, h, List.intercalate_splitOn]

end TinyPilotKvm
