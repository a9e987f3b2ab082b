/-
# The intrusive lists (`libs/list.h`)

The nodes of a list are structures with a `prev` and a `next` of their own, anywhere in memory.  The
macros follow these links, so they are modelled on a heap of nodes, where a null pointer, a node
that was freed and an assertion that fails are faults.  The loop of `US_LIST_APPEND` runs as long as
there is a next node; here it is given a number of turns, and running out of it is a fault too.
`Libs/ListRuns.lean` has `US_LIST_ITERATE`, the other loop.

Section 2 says what a list is for: a sequence of nodes, with the nodes that are in no list at hand.
`Represents` is what a heap has to do with it, and section 4 follows the one with the other.

`us_stream_client_s` is the only structure with a count, an `unsigned`.  The count is a type of its
own in this module, because the macros leave it open.
-/
import Mathlib.Data.Finset.Basic
import TinyPilotKvm.LinkedLists
import TinyPilotKvm.Simulation

namespace TinyPilotKvm

/-! ## 1. The macros -/

/-- What stops an operation on a list. -/
inductive ListFault
  /-- A pointer to no node is followed. -/
  | invalidAccess
  | assertFailed
  /-- The loop has more turns than it was given. -/
  | unfinished
  deriving DecidableEq

/-- The nodes in memory, and `x_first`. -/
structure UsList (α : Type) where
  heap : LinkHeap α
  first : Option α

/-- The same with `x_count`. -/
structure UsCountedList (α κ : Type) extends UsList α where
  count : κ

variable {α κ : Type} [DecidableEq α]

namespace UsList

/-- `item->prev` and `item->next`. -/
def links (s : UsList α) (item : α) : Except ListFault (Links α) :=
  match s.heap item with
  | none => .error .invalidAccess
  | some links => .ok links

def writePrev (s : UsList α) (item : α) (link : Option α) : Except ListFault (UsList α) := do
  let _ ← s.links item
  return { s with heap := s.heap.setPrev item link }

def writeNext (s : UsList α) (item : α) (link : Option α) : Except ListFault (UsList α) := do
  let _ ← s.links item
  return { s with heap := s.heap.setNext item link }

/-- `US_CALLOC` of a node. -/
def calloc (s : UsList α) (item : α) : UsList α :=
  { s with heap := Function.update s.heap item (some ⟨none, none⟩) }

/-- `free()` of a node. -/
def free (s : UsList α) (item : α) : Except ListFault (UsList α) := do
  let _ ← s.links item
  return { s with heap := Function.update s.heap item none }

end UsList

/-- `for (; m_last->next != NULL; m_last = m_last->next);` -/
def usListLast (s : UsList α) : Nat → α → Except ListFault α
  | 0, _ => .error .unfinished
  | fuel + 1, mLast => do
    match (← s.links mLast).next with
    | none => return mLast
    | some next => usListLast s fuel next

/-- `US_LIST_APPEND`. -/
def usListAppend (fuel : Nat) (s : UsList α) (item : α) : Except ListFault (UsList α) := do
  let s ← match s.first with
    | none => pure { s with first := some item }
    | some first => do
      let mLast ← usListLast s fuel first
      let s ← s.writePrev item (some mLast)
      s.writeNext mLast (some item)
  s.writeNext item none

/-- `US_LIST_APPEND_C`. -/
def usListAppendC [Add κ] [OfNat κ 1] (fuel : Nat) (s : UsCountedList α κ) (item : α) :
    Except ListFault (UsCountedList α κ) := do
  let list ← usListAppend fuel s.toUsList item
  return ⟨list, s.count + 1⟩

/-- `US_LIST_REMOVE`. -/
def usListRemove (s : UsList α) (item : α) : Except ListFault (UsList α) := do
  let links ← s.links item
  let s ← match links.prev with
    | none => pure { s with first := links.next }
    | some mPrev => s.writeNext mPrev links.next
  let links ← s.links item
  let s ← match links.next with
    | none => pure s
    | some mNext => s.writePrev mNext links.prev
  let s ← s.writePrev item none
  s.writeNext item none

/-- `US_LIST_REMOVE_C`. -/
def usListRemoveC [Sub κ] [OfNat κ 1] [LE κ] [DecidableLE κ] (s : UsCountedList α κ) (item : α) :
    Except ListFault (UsCountedList α κ) := do
  let list ← usListRemove s.toUsList item
  if 1 ≤ s.count then return ⟨list, s.count - 1⟩ else throw .assertFailed

/-! ## 2. What a list is for -/

/-- The nodes of a list, and those that are ready to be put into one. -/
structure ListSpec (α : Type) where
  items : List α
  spare : Finset α
  deriving DecidableEq

/-- The node is one of the list's or ready for it. -/
def ListSpec.Owns (l : ListSpec α) (x : α) : Prop := x ∈ l.items ∨ x ∈ l.spare

/-- What is done to the nodes. -/
inductive ListOp (α : Type)
  | calloc (item : α)
  | append (item : α)
  | remove (item : α)
  | free (item : α)
  deriving DecidableEq

/-- A new node has an address where there is none, a node that is put into the list or freed is in
no list, and a node that is taken out is in the list.  `others` are the nodes of other lists. -/
def listSystem (others : LinkHeap α) : System (ListSpec α) (ListOp α) where
  start l := l.items = [] ∧ l.spare = ∅
  step l
    | .calloc item =>
      if item ∉ l.items ∧ item ∉ l.spare ∧ others item = none then
        some { l with spare := insert item l.spare }
      else none
    | .append item =>
      if item ∈ l.spare then some ⟨l.items ++ [item], l.spare.erase item⟩ else none
    | .remove item =>
      if item ∈ l.items then some ⟨l.items.erase item, insert item l.spare⟩ else none
    | .free item =>
      if item ∈ l.spare then some { l with spare := l.spare.erase item } else none

/-- The heap holds the list, the zeroed nodes that are ready for it and the others, each node in
one of the three. -/
structure Represents (others : LinkHeap α) (s : UsList α) (l : ListSpec α) : Prop where
  linked : Linked s.heap none l.items none
  first_eq : s.first = l.items.head?
  spare_zeroed : ∀ x ∈ l.spare, s.heap x = some ⟨none, none⟩
  spare_out : ∀ x ∈ l.spare, x ∉ l.items
  others_eq : ∀ x, ¬ l.Owns x → s.heap x = others x
  others_out : ∀ x, l.Owns x → others x = none

/-- The count, whose value is `val`, is the number of the nodes. -/
def RepresentsC (val : κ → Nat) (others : LinkHeap α) (s : UsCountedList α κ) (l : ListSpec α) :
    Prop :=
  Represents others s.toUsList l ∧ val s.count = l.items.length

/-- The macros without a count. -/
def usListStep (fuel : Nat) (s : UsList α) : ListOp α → Except ListFault (UsList α)
  | .calloc item => return s.calloc item
  | .append item => usListAppend fuel s item
  | .remove item => usListRemove s item
  | .free item => s.free item

/-- The macros with a count. -/
def usListStepC [Add κ] [Sub κ] [OfNat κ 1] [LE κ] [DecidableLE κ] (fuel : Nat)
    (s : UsCountedList α κ) : ListOp α → Except ListFault (UsCountedList α κ)
  | .calloc item => return { s with toUsList := s.toUsList.calloc item }
  | .append item => usListAppendC fuel s item
  | .remove item => usListRemoveC s item
  | .free item => do
    let list ← s.toUsList.free item
    return { s with toUsList := list }

/-! ## 3. What the macros do to a list -/

section Macros

variable {heap : LinkHeap α} {first link : Option α} {item : α} {links : Links α}
  {items xs ys : List α} {fuel : Nat}

namespace UsList

omit [DecidableEq α] in
theorem links_eq_ok (h : heap item = some links) :
    (⟨heap, first⟩ : UsList α).links item = .ok links := by
  simp only [UsList.links, h]

theorem writePrev_eq_ok (h : heap item = some links) :
    (⟨heap, first⟩ : UsList α).writePrev item link = .ok ⟨heap.setPrev item link, first⟩ := by
  rw [writePrev, links_eq_ok h]
  rfl

theorem writeNext_eq_ok (h : heap item = some links) :
    (⟨heap, first⟩ : UsList α).writeNext item link = .ok ⟨heap.setNext item link, first⟩ := by
  rw [writeNext, links_eq_ok h]
  rfl

theorem free_eq_ok (h : heap item = some links) :
    (⟨heap, first⟩ : UsList α).free item = .ok ⟨Function.update heap item none, first⟩ := by
  rw [free, links_eq_ok h]
  rfl

end UsList

omit [DecidableEq α] in
/-- The loop to the last node, from a node on. -/
theorem usListLast_eq_ok (first : Option α) {mLast : α} {rest : List α} {before : Option α}
    (h : Linked heap before (mLast :: rest) none) (hfuel : rest.length < fuel) :
    ∃ last, usListLast ⟨heap, first⟩ fuel mLast = .ok last ∧
      (mLast :: rest).getLast? = some last := by
  induction rest generalizing mLast before fuel with
  | nil =>
    obtain ⟨fuel, rfl⟩ := Nat.exists_eq_succ_of_ne_zero (Nat.ne_zero_of_lt hfuel)
    refine ⟨mLast, ?_, rfl⟩
    rw [usListLast, UsList.links_eq_ok h.1]
    rfl
  | cons next rest ih =>
    obtain ⟨fuel, rfl⟩ := Nat.exists_eq_succ_of_ne_zero (Nat.ne_zero_of_lt hfuel)
    obtain ⟨last, hlast, hget⟩ := ih h.2 (Nat.lt_of_succ_lt_succ hfuel)
    refine ⟨last, ?_, ?_⟩
    · rw [usListLast, UsList.links_eq_ok h.1]
      exact hlast
    · rw [List.getLast?_cons_cons, hget]

/-- `US_LIST_APPEND` of a zeroed node.  The node gets its `prev` from the last one, if there is one,
and keeps its null pointer otherwise. -/
theorem usListAppend_eq_ok (h : Linked heap none items none)
    (hitem : heap item = some ⟨none, none⟩) (hnew : item ∉ items) (hfuel : items.length ≤ fuel) :
    ∃ heap', usListAppend fuel ⟨heap, items.head?⟩ item = .ok ⟨heap', (items ++ [item]).head?⟩ ∧
      Linked heap' none (items ++ [item]) none ∧
      ∀ x, x ≠ item → x ∉ items → heap' x = heap x := by
  cases items with
  | nil =>
    refine ⟨heap.setNext item none, UsList.writeNext_eq_ok hitem, ?_, ?_⟩
    · exact ⟨LinkHeap.setNext_self hitem, linked_nil⟩
    · exact fun x hx _ => LinkHeap.setNext_of_ne hx
  | cons mFirst rest =>
    obtain ⟨mLast, hwalk, hlast⟩ := usListLast_eq_ok (some mFirst) h hfuel
    have hmem : mLast ∈ mFirst :: rest := List.mem_of_getLast? hlast
    have hne : item ≠ mLast := fun heq => hnew (heq ▸ hmem)
    have hbehind : heap.setPrev item (some mLast) item = some ⟨some mLast, none⟩ :=
      LinkHeap.setPrev_self hitem
    have hsame : Linked (heap.setPrev item (some mLast)) none (mFirst :: rest) none :=
      h.congr fun x hx => LinkHeap.setPrev_of_ne fun heq => hnew (heq ▸ hx)
    have hend := hsame.concat_end hnew (hlast ▸ hbehind)
    rw [hlast] at hend
    have hnull : (heap.setPrev item (some mLast)).setNext mLast (some item) item = _ :=
      (LinkHeap.setNext_of_ne hne).trans hbehind
    obtain ⟨links, hlinks⟩ := hsame.exists_links hmem
    refine ⟨(heap.setPrev item (some mLast)).setNext mLast (some item), ?_, hend, ?_⟩
    · have hwrites : usListAppend fuel ⟨heap, some mFirst⟩ item =
          .ok ⟨((heap.setPrev item (some mLast)).setNext mLast (some item)).setNext item none,
            some mFirst⟩ := by
        refine (bind_of_ok hwalk).trans ?_
        refine (bind_of_ok (UsList.writePrev_eq_ok hitem)).trans ?_
        refine (bind_of_ok (UsList.writeNext_eq_ok hlinks)).trans ?_
        exact UsList.writeNext_eq_ok hnull
      rw [List.head?_cons, hwrites, LinkHeap.setNext_eq_self hnull]
      rfl
    · intro x hx hout
      have hx' : x ≠ mLast := fun heq => hout (heq ▸ hmem)
      rw [LinkHeap.setNext_of_ne hx', LinkHeap.setPrev_of_ne hx]

/-- The writes of `US_LIST_REMOVE` to a node, whose neighbours are other nodes. -/
theorem usListRemove_writes (first : Option α) {prev next : Option α}
    (hitem : heap item = some ⟨prev, next⟩)
    (hprev : ∀ m ∈ prev, m ≠ item ∧ ∃ links, heap m = some links)
    (hnext : ∀ m ∈ next, m ≠ item ∧ ∃ links, (heap.setNextAt prev next) m = some links) :
    ∃ heap', usListRemove ⟨heap, first⟩ item = .ok ⟨heap', prev.elim next fun _ => first⟩ ∧
      heap' item = some ⟨none, none⟩ ∧
      ∀ x, x ≠ item → heap' x = ((heap.setNextAt prev next).setPrevAt next prev) x := by
  have hitem₁ : (heap.setNextAt prev next) item = some ⟨prev, next⟩ :=
    (LinkHeap.setNextAt_of_ne fun h => (hprev item h).1 rfl).trans hitem
  have hitem₂ : ((heap.setNextAt prev next).setPrevAt next prev) item = some ⟨prev, next⟩ :=
    (LinkHeap.setPrevAt_of_ne fun h => (hnext item h).1 rfl).trans hitem₁
  have hitem₃ : (((heap.setNextAt prev next).setPrevAt next prev).setPrev item none) item =
      some ⟨none, next⟩ := LinkHeap.setPrev_self hitem₂
  refine ⟨_, ?_, LinkHeap.setNext_self hitem₃, fun x hx =>
    (LinkHeap.setNext_of_ne hx).trans (LinkHeap.setPrev_of_ne hx)⟩
  refine (bind_of_ok (UsList.links_eq_ok hitem)).trans ?_
  -- The first node has no `prev` and the last one no `next`; the only node has neither.
  cases prev with
  | none =>
    refine (bind_of_ok (UsList.links_eq_ok hitem₁)).trans ?_
    cases next with
    | none =>
      refine (bind_of_ok (UsList.writePrev_eq_ok hitem₂)).trans ?_
      exact UsList.writeNext_eq_ok hitem₃
    | some mNext =>
      obtain ⟨-, links, hlinks⟩ := hnext mNext rfl
      refine (bind_of_ok (UsList.writePrev_eq_ok hlinks)).trans ?_
      refine (bind_of_ok (UsList.writePrev_eq_ok hitem₂)).trans ?_
      exact UsList.writeNext_eq_ok hitem₃
  | some mPrev =>
    obtain ⟨-, links, hlinks⟩ := hprev mPrev rfl
    refine (bind_of_ok (UsList.writeNext_eq_ok hlinks)).trans ?_
    refine (bind_of_ok (UsList.links_eq_ok hitem₁)).trans ?_
    cases next with
    | none =>
      refine (bind_of_ok (UsList.writePrev_eq_ok hitem₂)).trans ?_
      exact UsList.writeNext_eq_ok hitem₃
    | some mNext =>
      obtain ⟨-, links, hlinks⟩ := hnext mNext rfl
      refine (bind_of_ok (UsList.writePrev_eq_ok hlinks)).trans ?_
      refine (bind_of_ok (UsList.writePrev_eq_ok hitem₂)).trans ?_
      exact UsList.writeNext_eq_ok hitem₃

/-- `US_LIST_REMOVE` of a node of the list, wherever it stands. -/
theorem usListRemove_eq_ok (h : Linked heap none (xs ++ item :: ys) none) :
    ∃ heap', usListRemove ⟨heap, (xs ++ item :: ys).head?⟩ item = .ok ⟨heap', (xs ++ ys).head?⟩ ∧
      Linked heap' none (xs ++ ys) none ∧ heap' item = some ⟨none, none⟩ ∧
      ∀ x, x ∉ xs ++ item :: ys → heap' x = heap x := by
  obtain ⟨hxs, hys, hdisjoint⟩ := List.nodup_append.mp h.nodup
  have hout : item ∉ ys := (List.nodup_cons.mp hys).1
  have hprev : ∀ m ∈ xs.getLast?, m ∈ xs ∧ m ≠ item := fun m hm =>
    ⟨List.mem_of_getLast? hm, hdisjoint m (List.mem_of_getLast? hm) item List.mem_cons_self⟩
  have hnext : ∀ m ∈ ys.head?, m ∈ ys ∧ m ≠ item ∧ xs.getLast? ≠ some m := by
    intro m hm
    have hmem : m ∈ ys := List.mem_of_head? hm
    refine ⟨hmem, fun heq => hout (heq ▸ hmem), fun hlast => ?_⟩
    exact hdisjoint m (List.mem_of_getLast? hlast) m (List.mem_cons_of_mem item hmem) rfl
  have hfirst : (xs.getLast?.elim ys.head? fun _ => (xs ++ item :: ys).head?) =
      (xs ++ ys).head? := by
    cases xs with
    | nil => rfl
    | cons x xs => rw [List.getLast?_cons]; rfl
  obtain ⟨heap', hrun, hitem, hsame⟩ := usListRemove_writes (xs ++ item :: ys).head? h.links_eq
    (fun m hm => ⟨(hprev m hm).2, h.exists_links (List.mem_append_left _ (hprev m hm).1)⟩)
    (fun m hm => by
      obtain ⟨hmem, hne, hlast⟩ := hnext m hm
      rw [LinkHeap.setNextAt_of_ne hlast]
      exact ⟨hne, h.exists_links (List.mem_append_right _ (List.mem_cons_of_mem item hmem))⟩)
  refine ⟨heap', hfirst ▸ hrun, h.unlink.congr fun x hx => hsame x ?_, hitem, fun x hx => ?_⟩
  · rintro rfl
    rcases List.mem_append.mp hx with hx | hx
    · exact hdisjoint x hx x List.mem_cons_self rfl
    · exact hout hx
  · obtain ⟨hxs, hitems⟩ := not_or.mp (mt List.mem_append.mpr hx)
    obtain ⟨hne, hys⟩ := List.ne_and_not_mem_of_not_mem_cons hitems
    rw [hsame x hne, LinkHeap.setPrevAt_of_ne, LinkHeap.setNextAt_of_ne]
    · exact fun hlast => hxs (List.mem_of_getLast? hlast)
    · exact fun hhead => hys (List.mem_of_head? hhead)

end Macros

/-! ## 4. The macros follow the list -/

section Following

variable {others : LinkHeap α} {heap : LinkHeap α} {first : Option α} {s : UsList α}
  {l : ListSpec α} {item : α} {fuel : Nat}

/-- Any list in any heap, with any zeroed nodes beside it; the others are what is left. -/
theorem exists_represents (hlinked : Linked s.heap none l.items none)
    (hfirst : s.first = l.items.head?) (hzeroed : ∀ x ∈ l.spare, s.heap x = some ⟨none, none⟩)
    (hout : ∀ x ∈ l.spare, x ∉ l.items) : ∃ others, Represents others s l := by
  refine ⟨fun x => if x ∈ l.items ∨ x ∈ l.spare then none else s.heap x, hlinked, hfirst, hzeroed,
    hout, fun x hx => ?_, fun x hx => ?_⟩
  · exact (if_neg hx).symm
  · exact if_pos hx

omit [DecidableEq α] in
theorem Represents.nodup (hs : Represents others s l) : l.items.Nodup := hs.linked.nodup

/-- A new node. -/
theorem Represents.calloc (hs : Represents others s l) (hnew : ¬ l.Owns item)
    (hout : others item = none) :
    Represents others (s.calloc item) { l with spare := insert item l.spare } := by
  obtain ⟨hitems, hspare⟩ := not_or.mp hnew
  have hne : ∀ x ∈ l.items, x ≠ item := fun x hx heq => hitems (heq ▸ hx)
  refine ⟨hs.linked.congr fun x hx => Function.update_of_ne (hne x hx) _ _, hs.first_eq, ?_, ?_,
    ?_, ?_⟩
  · intro x hx
    rcases Finset.mem_insert.mp hx with rfl | hx
    · exact Function.update_self _ _ _
    · exact (Function.update_of_ne (fun heq : x = item => hspare (heq ▸ hx)) _ _).trans
        (hs.spare_zeroed x hx)
  · intro x hx
    rcases Finset.mem_insert.mp hx with rfl | hx
    · exact hitems
    · exact hs.spare_out x hx
  · intro x hx
    obtain ⟨hx, hx'⟩ := not_or.mp hx
    obtain ⟨hxne, hx'⟩ := not_or.mp (mt Finset.mem_insert.mpr hx')
    exact (Function.update_of_ne hxne _ _).trans (hs.others_eq x (not_or.mpr ⟨hx, hx'⟩))
  · rintro x (hx | hx)
    · exact hs.others_out x (Or.inl hx)
    · rcases Finset.mem_insert.mp hx with rfl | hx
      · exact hout
      · exact hs.others_out x (Or.inr hx)

/-- A node that is given back. -/
theorem Represents.free (hs : Represents others s l) (hitem : item ∈ l.spare) :
    ∃ s', s.free item = .ok s' ∧
      Represents others s' { l with spare := l.spare.erase item } := by
  refine ⟨_, UsList.free_eq_ok (hs.spare_zeroed item hitem), ?_⟩
  have hne : ∀ x ∈ l.items, x ≠ item := fun x hx heq => hs.spare_out item hitem (heq ▸ hx)
  refine ⟨hs.linked.congr fun x hx => Function.update_of_ne (hne x hx) _ _, hs.first_eq, ?_, ?_,
    ?_, ?_⟩
  · intro x hx
    obtain ⟨hxne, hx⟩ := Finset.mem_erase.mp hx
    exact (Function.update_of_ne hxne _ _).trans (hs.spare_zeroed x hx)
  · exact fun x hx => hs.spare_out x (Finset.mem_of_mem_erase hx)
  · intro x hx
    by_cases hxne : x = item
    · subst hxne
      exact (Function.update_self _ _ _).trans (hs.others_out x (Or.inr hitem)).symm
    · refine (Function.update_of_ne hxne _ _).trans (hs.others_eq x fun hown => hx ?_)
      exact hown.imp_right fun hmem => Finset.mem_erase.mpr ⟨hxne, hmem⟩
  · exact fun x hx => hs.others_out x (hx.imp_right Finset.mem_of_mem_erase)

/-- `US_LIST_APPEND` of a node that is ready. -/
theorem Represents.append (hs : Represents others s l) (hitem : item ∈ l.spare)
    (hfuel : l.items.length ≤ fuel) :
    ∃ s', usListAppend fuel s item = .ok s' ∧
      Represents others s' ⟨l.items ++ [item], l.spare.erase item⟩ := by
  obtain ⟨heap, first⟩ := s
  obtain rfl : first = l.items.head? := hs.first_eq
  obtain ⟨heap', hrun, hlinked, hsame⟩ := usListAppend_eq_ok hs.linked
    (hs.spare_zeroed item hitem) (hs.spare_out item hitem) hfuel
  have howns : ∀ x, ListSpec.Owns ⟨l.items ++ [item], l.spare.erase item⟩ x ↔ l.Owns x := by
    intro x
    by_cases hx : x = item
    · simp [ListSpec.Owns, hx, hitem]
    · simp [ListSpec.Owns, hx]
  refine ⟨_, hrun, hlinked, rfl, ?_, ?_, ?_, ?_⟩
  · intro x hx
    obtain ⟨hxne, hx⟩ := Finset.mem_erase.mp hx
    exact (hsame x hxne (hs.spare_out x hx)).trans (hs.spare_zeroed x hx)
  · intro x hx hmem
    obtain ⟨hxne, hx⟩ := Finset.mem_erase.mp hx
    rcases List.mem_append.mp hmem with hmem | hmem
    · exact hs.spare_out x hx hmem
    · exact hxne (List.mem_singleton.mp hmem)
  · intro x hx
    rw [howns] at hx
    have hxne : x ≠ item := fun heq => hx (heq ▸ Or.inr hitem)
    exact (hsame x hxne fun hmem => hx (Or.inl hmem)).trans (hs.others_eq x hx)
  · exact fun x hx => hs.others_out x ((howns x).mp hx)

theorem erase_append_cons {xs ys : List α} (h : (xs ++ item :: ys).Nodup) :
    (xs ++ item :: ys).erase item = xs ++ ys := by
  have hout : item ∉ xs := fun hmem =>
    (List.nodup_append.mp h).2.2 item hmem item List.mem_cons_self rfl
  rw [List.erase_append_right _ hout, List.erase_cons_head]

/-- `US_LIST_REMOVE` of a node of the list. -/
theorem Represents.remove (hs : Represents others s l) (hitem : item ∈ l.items) :
    ∃ s', usListRemove s item = .ok s' ∧
      Represents others s' ⟨l.items.erase item, insert item l.spare⟩ := by
  obtain ⟨heap, first⟩ := s
  obtain rfl : first = l.items.head? := hs.first_eq
  obtain ⟨xs, ys, hitems⟩ := List.append_of_mem hitem
  have hlinked := hs.linked
  have hnodup := hs.nodup
  rw [hitems] at hlinked hnodup
  have hout : item ∉ xs := fun hmem =>
    (List.nodup_append.mp hnodup).2.2 item hmem item List.mem_cons_self rfl
  obtain ⟨hys, hnodup'⟩ := List.nodup_cons.mp (List.nodup_append.mp hnodup).2.1
  obtain ⟨heap', hrun, hlinked', hzeroed, hsame⟩ := usListRemove_eq_ok hlinked
  rw [← hitems] at hrun hsame
  have howns : ∀ x, ListSpec.Owns ⟨xs ++ ys, insert item l.spare⟩ x ↔ l.Owns x := by
    intro x
    by_cases hx : x = item
    · simp [ListSpec.Owns, hx, hitem]
    · simp [ListSpec.Owns, hitems, hx]
  have hrest : ∀ x ∈ l.spare, x ∉ xs ++ ys := by
    intro x hx hmem
    refine hs.spare_out x hx ?_
    rw [hitems]
    exact (List.Sublist.append_left (List.sublist_cons_self item ys) xs).subset hmem
  have herase : l.items.erase item = xs ++ ys := by rw [hitems, erase_append_cons hnodup]
  rw [herase]
  refine ⟨_, hrun, hlinked', rfl, ?_, ?_, ?_, ?_⟩
  · intro x hx
    rcases Finset.mem_insert.mp hx with rfl | hx
    · exact hzeroed
    · exact (hsame x (hs.spare_out x hx)).trans (hs.spare_zeroed x hx)
  · intro x hx
    rcases Finset.mem_insert.mp hx with rfl | hx
    · exact fun hmem => (List.mem_append.mp hmem).elim hout hys
    · exact hrest x hx
  · intro x hx
    rw [howns] at hx
    exact (hsame x fun hmem => hx (Or.inl hmem)).trans (hs.others_eq x hx)
  · exact fun x hx => hs.others_out x ((howns x).mp hx)

/-- What can be done to the nodes. -/
theorem listSystem_step_cases {l' : ListSpec α} {op : ListOp α}
    (h : (listSystem others).step l op = some l') :
    (∃ item, op = .calloc item ∧ ¬ l.Owns item ∧ others item = none ∧
      l' = { l with spare := insert item l.spare }) ∨
    (∃ item, op = .append item ∧ item ∈ l.spare ∧
      l' = ⟨l.items ++ [item], l.spare.erase item⟩) ∨
    (∃ item, op = .remove item ∧ item ∈ l.items ∧
      l' = ⟨l.items.erase item, insert item l.spare⟩) ∨
    (∃ item, op = .free item ∧ item ∈ l.spare ∧
      l' = { l with spare := l.spare.erase item }) := by
  cases op with
  | calloc item =>
    simp only [listSystem, Option.ite_none_right_eq_some, Option.some.injEq] at h
    obtain ⟨⟨hitems, hspare, hout⟩, rfl⟩ := h
    exact Or.inl ⟨item, rfl, not_or.mpr ⟨hitems, hspare⟩, hout, rfl⟩
  | append item =>
    simp only [listSystem, Option.ite_none_right_eq_some, Option.some.injEq] at h
    exact Or.inr (Or.inl ⟨item, rfl, h.1, h.2.symm⟩)
  | remove item =>
    simp only [listSystem, Option.ite_none_right_eq_some, Option.some.injEq] at h
    exact Or.inr (Or.inr (Or.inl ⟨item, rfl, h.1, h.2.symm⟩))
  | free item =>
    simp only [listSystem, Option.ite_none_right_eq_some, Option.some.injEq] at h
    exact Or.inr (Or.inr (Or.inr ⟨item, rfl, h.1, h.2.symm⟩))

/-- **The macros without a count follow the list.** -/
theorem usListStep_follows (fuel : Nat) :
    (listSystem others).FollowedBy (fun l => l.items.length ≤ fuel) (usListStep fuel)
      (Represents others) := by
  intro s l l' op hs hfuel _ hstep
  rcases listSystem_step_cases hstep with ⟨item, rfl, hnew, hout, rfl⟩ | ⟨item, rfl, hitem, rfl⟩ |
    ⟨item, rfl, hitem, rfl⟩ | ⟨item, rfl, hitem, rfl⟩
  · exact ⟨_, rfl, hs.calloc hnew hout⟩
  · exact hs.append hitem hfuel
  · exact hs.remove hitem
  · exact hs.free hitem

/-- What `++`, `--` and the assertion do to a count, as long as its value is `small`. -/
structure Counts [Add κ] [Sub κ] [OfNat κ 1] [LE κ] (val : κ → Nat) (small : Nat → Prop) :
    Prop where
  succ : ∀ c, small (val c + 1) → val (c + 1) = val c + 1
  one_le : ∀ c, 1 ≤ val c → 1 ≤ c
  pred : ∀ c, 1 ≤ val c → val (c - 1) = val c - 1

theorem nat_counts : Counts (fun c : Nat => c) fun _ => True where
  succ _ _ := rfl
  one_le _ h := h
  pred _ _ := rfl

theorem uint_counts : Counts UInt32.toNat fun n => n < UInt32.size where
  succ c hsmall := by
    rw [UInt32.toNat_add]
    exact Nat.mod_eq_of_lt hsmall
  one_le c h := UInt32.le_iff_toNat_le.mpr h
  pred c h := UInt32.toNat_sub_of_le c 1 (UInt32.le_iff_toNat_le.mpr h)

/-- **The macros with a count follow the list**, while the number of the nodes is `small`. -/
theorem usListStepC_follows [Add κ] [Sub κ] [OfNat κ 1] [LE κ] [DecidableLE κ] {val : κ → Nat}
    {small : Nat → Prop} (hcount : Counts val small) (fuel : Nat) :
    (listSystem others).FollowedBy (fun l => l.items.length ≤ fuel ∧ small l.items.length)
      (usListStepC fuel) (RepresentsC val others) := by
  rintro ⟨s, count⟩ l l' op ⟨hs, hlength⟩ ⟨hfuel, -⟩ ⟨-, hsmall⟩ hstep
  change val count = l.items.length at hlength
  rcases listSystem_step_cases hstep with ⟨item, rfl, hnew, hout, rfl⟩ | ⟨item, rfl, hitem, rfl⟩ |
    ⟨item, rfl, hitem, rfl⟩ | ⟨item, rfl, hitem, rfl⟩
  · exact ⟨_, rfl, hs.calloc hnew hout, hlength⟩
  · obtain ⟨s', hrun, hs'⟩ := hs.append hitem hfuel
    rw [List.length_append, ← hlength] at hsmall
    refine ⟨⟨s', count + 1⟩, bind_of_ok hrun, hs', ?_⟩
    rw [List.length_append, ← hlength]
    exact hcount.succ count hsmall
  · obtain ⟨s', hrun, hs'⟩ := hs.remove hitem
    have hone : 1 ≤ val count := by
      rw [hlength]
      exact List.length_pos_of_mem hitem
    refine ⟨⟨s', count - 1⟩, (bind_of_ok hrun).trans (if_pos (hcount.one_le count hone)), hs', ?_⟩
    rw [List.length_erase_of_mem hitem, ← hlength]
    exact hcount.pred count hone
  · obtain ⟨s', hrun, hs'⟩ := hs.free hitem
    exact ⟨⟨s', count⟩, bind_of_ok hrun, hs', hlength⟩

end Following
end TinyPilotKvm
