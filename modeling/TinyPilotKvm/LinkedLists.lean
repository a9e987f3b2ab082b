/-
# Doubly linked lists in a heap

A heap gives every node its two links, or `none` where there is no node.  `Linked heap before items
after` says that `items` follow each other in it: the first comes after `before`, the last in front
of `after`, and every node between two others points to both.  It says nothing of `before` and
`after` themselves, so a list can be cut anywhere (`linked_append`) and a change of the heap only
concerns the part it is made in.

* The heap determines the list (`Linked.unique`), and so no node is in it twice (`Linked.nodup`).
* `Linked.concat_end` and `Linked.unlink` are the two changes: a node put behind the last one, and
  a node taken out, wherever it stands.
-/
import Mathlib.Data.List.Nodup
import Mathlib.Logic.Function.Basic

namespace TinyPilotKvm

/-! ## 1. Links -/

/-- The links of a node; `none` is the null pointer. -/
structure Links (α : Type) where
  prev : Option α
  next : Option α
  deriving DecidableEq

/-- `none`: there is no node here. -/
abbrev LinkHeap (α : Type) : Type := α → Option (Links α)

variable {α : Type}

/-- The nodes `items` are linked to each other in both directions, between `before` and `after`. -/
def Linked (heap : LinkHeap α) : Option α → List α → Option α → Prop
  | _, [], _ => True
  | before, item :: rest, after =>
    heap item = some ⟨before, rest.head?.or after⟩ ∧ Linked heap (some item) rest after

section Segments

variable {heap heap' : LinkHeap α} {before after : Option α} {item : α} {items rest xs ys : List α}

@[simp] theorem linked_nil : Linked heap before [] after := trivial

@[simp] theorem linked_cons :
    Linked heap before (item :: rest) after ↔
      heap item = some ⟨before, rest.head?.or after⟩ ∧ Linked heap (some item) rest after :=
  Iff.rfl

/-- A list is linked iff its two parts are, each seen from the other. -/
theorem linked_append {before : Option α} :
    Linked heap before (xs ++ ys) after ↔
      Linked heap before xs (ys.head?.or after) ∧ Linked heap (xs.getLast?.or before) ys after := by
  induction xs generalizing before with
  | nil => simp
  | cons x xs ih =>
    rw [List.cons_append, linked_cons, linked_cons, ih, List.head?_append, Option.or_assoc,
      List.getLast?_cons, and_assoc]
    cases xs.getLast? <;> rfl

/-- Only the nodes of the list are read. -/
theorem Linked.congr {before : Option α} (h : Linked heap before items after)
    (hsame : ∀ x ∈ items, heap' x = heap x) : Linked heap' before items after := by
  induction items generalizing before with
  | nil => exact linked_nil
  | cons item rest ih =>
    obtain ⟨hitem, hrest⟩ := h
    refine ⟨(hsame item List.mem_cons_self).trans hitem, ih hrest fun x hx => ?_⟩
    exact hsame x (List.mem_cons_of_mem item hx)

/-- Every node of the list is a node of the heap. -/
theorem Linked.exists_links (h : Linked heap before items after) {x : α} (hx : x ∈ items) :
    ∃ links, heap x = some links := by
  obtain ⟨xs, ys, rfl⟩ := List.append_of_mem hx
  exact ⟨_, (linked_append.mp h).2.1⟩

/-- The heap determines the list from its first node on. -/
theorem Linked.unique {before before' : Option α} (hxs : Linked heap before xs none)
    (hys : Linked heap before' ys none) (hhead : xs.head? = ys.head?) : xs = ys := by
  induction xs generalizing before before' ys with
  | nil => exact (List.head?_eq_none_iff.mp hhead.symm).symm
  | cons x xs ih =>
    cases ys with
    | nil => cases hhead
    | cons y ys =>
      obtain rfl : x = y := Option.some.inj hhead
      obtain ⟨hx, hxs⟩ := hxs
      obtain ⟨hy, hys⟩ := hys
      have hlinks := (Links.mk.inj (Option.some.inj (hx.symm.trans hy))).2
      rw [Option.or_none, Option.or_none] at hlinks
      rw [ih hxs hys hlinks]

/-- No node is in a list twice: the list behind it would be the same both times. -/
theorem Linked.nodup {before : Option α} (h : Linked heap before items none) : items.Nodup := by
  induction items generalizing before with
  | nil => exact List.nodup_nil
  | cons item rest ih =>
    obtain ⟨-, hrest⟩ := id h
    refine List.nodup_cons.mpr ⟨fun hmem => ?_, ih hrest⟩
    obtain ⟨xs, ys, rfl⟩ := List.append_of_mem hmem
    have hagain := (linked_append.mp hrest).2
    have hlength := congrArg List.length (h.unique hagain rfl)
    simp at hlength
    omega

/-- What a node of a list points to. -/
theorem Linked.links_eq (h : Linked heap none (xs ++ item :: ys) none) :
    heap item = some ⟨xs.getLast?, ys.head?⟩ := by
  have hitem := (linked_append.mp h).2.1
  rwa [Option.or_none, Option.or_none] at hitem

end Segments

/-! ## 2. Changes of the links -/

section Changes

variable [DecidableEq α]

namespace LinkHeap

def setPrev (heap : LinkHeap α) (item : α) (link : Option α) : LinkHeap α :=
  Function.update heap item ((heap item).map fun links => { links with prev := link })

def setNext (heap : LinkHeap α) (item : α) (link : Option α) : LinkHeap α :=
  Function.update heap item ((heap item).map fun links => { links with next := link })

/-- `setPrev` through a pointer that may be null. -/
def setPrevAt (heap : LinkHeap α) (pointer link : Option α) : LinkHeap α :=
  match pointer with
  | none => heap
  | some item => heap.setPrev item link

/-- `setNext` through a pointer that may be null. -/
def setNextAt (heap : LinkHeap α) (pointer link : Option α) : LinkHeap α :=
  match pointer with
  | none => heap
  | some item => heap.setNext item link

variable {heap : LinkHeap α} {item x : α} {pointer link : Option α} {links : Links α}

theorem setPrev_self (h : heap item = some links) :
    heap.setPrev item link item = some ⟨link, links.next⟩ := by
  rw [setPrev, Function.update_self, h, Option.map_some]

theorem setNext_self (h : heap item = some links) :
    heap.setNext item link item = some ⟨links.prev, link⟩ := by
  rw [setNext, Function.update_self, h, Option.map_some]

theorem setPrev_of_ne (h : x ≠ item) : heap.setPrev item link x = heap x :=
  Function.update_of_ne h _ _

theorem setNext_of_ne (h : x ≠ item) : heap.setNext item link x = heap x :=
  Function.update_of_ne h _ _

theorem setNext_eq_self (h : heap item = some links) : heap.setNext item links.next = heap := by
  rw [setNext, h]
  exact Function.update_eq_self_iff.mpr h.symm

theorem setPrevAt_of_ne (h : pointer ≠ some x) : heap.setPrevAt pointer link x = heap x := by
  cases pointer with
  | none => rfl
  | some item => exact setPrev_of_ne fun hx => h (congrArg some hx.symm)

theorem setNextAt_of_ne (h : pointer ≠ some x) : heap.setNextAt pointer link x = heap x := by
  cases pointer with
  | none => rfl
  | some item => exact setNext_of_ne fun hx => h (congrArg some hx.symm)

end LinkHeap

variable {heap : LinkHeap α} {before after pointer link : Option α} {item : α}
  {items xs ys : List α}

theorem Linked.setPrevAt_of_notMem (h : Linked heap before items after)
    (hout : ∀ x ∈ pointer, x ∉ items) : Linked (heap.setPrevAt pointer link) before items after :=
  h.congr fun x hx => LinkHeap.setPrevAt_of_ne fun hpointer => hout x hpointer hx

theorem Linked.setNextAt_of_notMem (h : Linked heap before items after)
    (hout : ∀ x ∈ pointer, x ∉ items) : Linked (heap.setNextAt pointer link) before items after :=
  h.congr fun x hx => LinkHeap.setNextAt_of_ne fun hpointer => hout x hpointer hx

/-- Redirecting the first node's `prev` moves the list behind another node. -/
theorem Linked.setPrevAt_head? (h : Linked heap before items after) (hnodup : items.Nodup) :
    Linked (heap.setPrevAt items.head? link) link items after := by
  cases items with
  | nil => exact linked_nil
  | cons item rest =>
    have hout : ∀ x ∈ rest, x ≠ item := by
      rintro x hx rfl
      exact (List.nodup_cons.mp hnodup).1 hx
    exact ⟨LinkHeap.setPrev_self h.1, h.2.congr fun x hx => LinkHeap.setPrev_of_ne (hout x hx)⟩

/-- Redirecting the last node's `next` moves the list in front of another node. -/
theorem Linked.setNextAt_getLast? (h : Linked heap before items after) (hnodup : items.Nodup) :
    Linked (heap.setNextAt items.getLast? link) before items link := by
  rcases List.eq_nil_or_concat items with rfl | ⟨init, last, rfl⟩
  · exact linked_nil
  · rw [List.concat_eq_append] at h hnodup ⊢
    rw [List.getLast?_concat]
    obtain ⟨hinit, hlast, -⟩ := linked_append.mp h
    have hout : ∀ x ∈ init, x ≠ last := by
      rintro x hx rfl
      exact (List.nodup_append.mp hnodup).2.2 x hx x List.mem_cons_self rfl
    refine linked_append.mpr ⟨?_, ?_⟩
    · exact hinit.congr fun x hx => LinkHeap.setNext_of_ne (hout x hx)
    · exact ⟨LinkHeap.setNext_self hlast, linked_nil⟩

/-- **Putting a node behind the last one.** -/
theorem Linked.concat_end (h : Linked heap none items none) (hnew : item ∉ items)
    (hitem : heap item = some ⟨items.getLast?, none⟩) :
    Linked (heap.setNextAt items.getLast? (some item)) none (items ++ [item]) none := by
  refine linked_append.mpr ⟨h.setNextAt_getLast? h.nodup, ?_, linked_nil⟩
  have hne : items.getLast? ≠ some item := fun hlast => hnew (List.mem_of_getLast? hlast)
  rw [LinkHeap.setNextAt_of_ne hne, hitem, Option.or_none]
  rfl

/-- **Taking a node out**: its neighbours, where it has them, are linked to each other. -/
theorem Linked.unlink (h : Linked heap none (xs ++ item :: ys) none) :
    Linked ((heap.setNextAt xs.getLast? ys.head?).setPrevAt ys.head? xs.getLast?)
      none (xs ++ ys) none := by
  have hnodup : (xs ++ ys).Nodup :=
    h.nodup.sublist (List.Sublist.append_left (List.sublist_cons_self item ys) xs)
  obtain ⟨hxs, hys, hdisjoint⟩ := List.nodup_append.mp hnodup
  obtain ⟨hbefore, -, hbehind⟩ := linked_append.mp h
  have hhead : ∀ x ∈ ys.head?, x ∉ xs :=
    fun x hx hmem => hdisjoint x hmem x (List.mem_of_head? hx) rfl
  have hlast : ∀ x ∈ xs.getLast?, x ∉ ys :=
    fun x hx hmem => hdisjoint x (List.mem_of_getLast? hx) x hmem rfl
  refine linked_append.mpr ⟨?_, ?_⟩
  · rw [Option.or_none]
    exact (hbefore.setNextAt_getLast? hxs).setPrevAt_of_notMem hhead
  · rw [Option.or_none]
    exact (hbehind.setNextAt_of_notMem hlast).setPrevAt_head? hys

end Changes

end TinyPilotKvm
