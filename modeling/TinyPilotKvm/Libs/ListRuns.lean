/-
# Iterations over the intrusive lists, and runs (`libs/list.h`)

`US_LIST_ITERATE` reads the next node before the body runs, so that the body may take the node it is
at out of the list and free it.  `usListIterate_rule` is the rule of the loop for any body;
`usListIterate_visits` is about the bodies that decide, node by node, to keep the node, to remove
it, or to remove and free it, and `usListIterate_free` about those that give back a whole list.
The runs of section 3 are sequences of operations with an iteration after them.
-/
import TinyPilotKvm.Libs.List

namespace TinyPilotKvm

variable {α κ τ σ : Type} [DecidableEq α]

/-! ## 1. The loop -/

/-- `US_LIST_ITERATE`, from the node `item` on.  `τ` is the memory the body works on. -/
def usListIterate (listOf : τ → UsList α) (body : α → τ → Except ListFault τ) :
    Nat → Option α → τ → Except ListFault τ
  | _, none, t => return t
  | 0, some _, _ => throw .unfinished
  | fuel + 1, some item, t => do
    let mNext := (← (listOf t).links item).next
    let t ← body item t
    usListIterate listOf body fuel mNext t

/-- What the body of a loop does with the node it is at. -/
inductive Visit
  | keep
  | remove
  | removeAndFree
  deriving DecidableEq

def Visit.ops : Visit → α → List (ListOp α)
  | .keep, _ => []
  | .remove, item => [.remove item]
  | .removeAndFree, item => [.remove item, .free item]

/-- The memory of a loop: the list, what was done with the nodes visited so far, and the variables
of the body. -/
structure Iteration (α τ σ : Type) where
  list : τ
  visits : List (α × Visit)
  vars : σ

/-- A turn of the loop.  The body may look at the node, the list and its variables. -/
def visitTurn (step : τ → ListOp α → Except ListFault τ) (body : α → τ → σ → Visit × σ) (item : α)
    (t : Iteration α τ σ) : Except ListFault (Iteration α τ σ) := do
  let (visit, vars) := body item t.list t.vars
  let list ← (visit.ops item).foldlM step t.list
  return ⟨list, t.visits ++ [(item, visit)], vars⟩

/-- The operations of some visits. -/
def visitOps (visits : List (α × Visit)) : List (ListOp α) :=
  visits.flatMap fun v => v.2.ops v.1

/-- The nodes that were kept. -/
def keptItems (visits : List (α × Visit)) : List α :=
  (visits.filter fun v => v.2 = .keep).map Prod.fst

/-- Where an iteration over `l` stands: `done` were visited, as the body said, and `rest` are still
in the list, behind those that were kept. -/
structure Visited (others : LinkHeap α) (ok : ListSpec α → Prop) (R : τ → ListSpec α → Prop)
    (body : α → τ → σ → Visit × σ) (l : ListSpec α) (done rest : List α) (r : Iteration α τ σ) :
    Prop where
  visits_eq : r.visits.map Prod.fst = done
  decided : ∀ v ∈ r.visits, ∃ list vars, (body v.1 list vars).1 = v.2
  list_eq : ∃ l₁, (listSystem others).exec l (visitOps r.visits) = some l₁ ∧
    l₁.items = keptItems r.visits ++ rest ∧ ok l₁ ∧ R r.list l₁

/-! ## 2. What it visits -/

section Iterating

variable {others : LinkHeap α} {l : ListSpec α} {item : α} {fuel : Nat} {listOf : τ → UsList α}

omit [DecidableEq α] in
/-- **The rule of the loop.**  `I done rest` relates the nodes visited, those to come and the
memory: a node points to the next of those to come when its turn begins, and the body keeps the
invariant whatever it does to the node. -/
theorem usListIterate_rule {body : α → τ → Except ListFault τ} {I : List α → List α → τ → Prop}
    (hnext : ∀ done item rest t, I done (item :: rest) t →
      ∃ prev, (listOf t).heap item = some ⟨prev, rest.head?⟩)
    (hbody : ∀ done item rest t, I done (item :: rest) t →
      ∃ t', body item t = .ok t' ∧ I (done ++ [item]) rest t')
    {done rest : List α} {t : τ} (ht : I done rest t) (hfuel : rest.length ≤ fuel) :
    ∃ t', usListIterate listOf body fuel rest.head? t = .ok t' ∧ I (done ++ rest) [] t' := by
  -- The next node is read while the invariant still speaks of the one that is visited.
  induction rest generalizing done t fuel with
  | nil =>
    refine ⟨t, ?_, by rwa [List.append_nil]⟩
    cases fuel <;> rfl
  | cons item rest ih =>
    obtain ⟨fuel, rfl⟩ := Nat.exists_eq_succ_of_ne_zero (Nat.ne_zero_of_lt hfuel)
    obtain ⟨prev, hitem⟩ := hnext done item rest t ht
    obtain ⟨t₁, hturn, ht₁⟩ := hbody done item rest t ht
    obtain ⟨t', hrest, ht'⟩ := ih ht₁ (Nat.le_of_succ_le_succ hfuel)
    refine ⟨t', ?_, ?_⟩
    · refine (bind_of_ok (UsList.links_eq_ok hitem)).trans ?_
      exact (bind_of_ok hturn).trans hrest
    · rwa [List.append_assoc] at ht'

/-- The list after a visit. -/
theorem exec_visit (others : LinkHeap α) {xs ys : List α} (hitems : l.items = xs ++ item :: ys)
    (hnodup : l.items.Nodup) (visit : Visit) :
    ∃ l', (listSystem others).exec l (visit.ops item) = some l' ∧
      l'.items = xs ++ keptItems [(item, visit)] ++ ys := by
  have hmem : item ∈ l.items := by
    rw [hitems]
    exact List.mem_append_right xs List.mem_cons_self
  have herase : l.items.erase item = xs ++ ys := by
    rw [hitems] at hnodup ⊢
    exact erase_append_cons hnodup
  have hremove : (listSystem others).step l (.remove item) =
      some ⟨l.items.erase item, insert item l.spare⟩ := if_pos hmem
  cases visit with
  | keep => exact ⟨l, rfl, by rw [hitems]; simp [keptItems]⟩
  | remove =>
    refine ⟨_, System.exec_cons_eq_some.mpr ⟨_, hremove, rfl⟩, ?_⟩
    rw [herase]
    simp [keptItems]
  | removeAndFree =>
    have hfree : (listSystem others).step ⟨l.items.erase item, insert item l.spare⟩ (.free item) =
        some ⟨l.items.erase item, (insert item l.spare).erase item⟩ :=
      if_pos (Finset.mem_insert_self item l.spare)
    refine ⟨_, System.exec_cons_eq_some.mpr ⟨_, hremove,
      System.exec_cons_eq_some.mpr ⟨_, hfree, rfl⟩⟩, ?_⟩
    rw [herase]
    simp [keptItems]

/-- A visit makes the list no longer. -/
theorem step_visit_length {visit : Visit} {l l' : ListSpec α} {op : ListOp α}
    (hop : op ∈ visit.ops item) (h : (listSystem others).step l op = some l') :
    l'.items.length ≤ l.items.length := by
  rcases listSystem_step_cases h with ⟨x, rfl, -, -, rfl⟩ | ⟨x, rfl, -, -⟩ | ⟨x, rfl, -, rfl⟩ |
    ⟨x, rfl, -, rfl⟩
  · exact le_rfl
  · cases visit <;> simp [Visit.ops] at hop
  · exact List.length_erase_le
  · exact le_rfl

variable {R : τ → ListSpec α → Prop} {ok : ListSpec α → Prop}
  {step : τ → ListOp α → Except ListFault τ}

/-- A turn of the loop. -/
theorem Visited.turn (hlist : ∀ t l, R t l → Represents others (listOf t) l)
    (hstep : (listSystem others).FollowedBy ok step R)
    (hshorter : ∀ l l', l'.items.length ≤ l.items.length → ok l → ok l')
    {body : α → τ → σ → Visit × σ} {done rest : List α} {r : Iteration α τ σ}
    (h : Visited others ok R body l done (item :: rest) r) :
    ∃ r', visitTurn step body item r = .ok r' ∧
      Visited others ok R body l (done ++ [item]) rest r' := by
  obtain ⟨hdone, hdecided, l₁, hexec, hitems, hok, hr⟩ := h
  rcases hvisit : body item r.list r.vars with ⟨visit, vars⟩
  obtain ⟨l₂, hexec', hitems'⟩ := exec_visit others hitems (hlist r.list l₁ hr).nodup visit
  have hkeep : ∀ op ∈ visit.ops item, ∀ l l', ok l → (listSystem others).step l op = some l' →
      ok l' := fun op hop l l' hl hl' => hshorter l l' (step_visit_length hop hl') hl
  have halong := System.allAlong_of_forall hkeep hok
  obtain ⟨t', hrun, ht'⟩ := System.exec_followed hstep hr halong hexec'
  refine ⟨⟨t', r.visits ++ [(item, visit)], vars⟩, ?_, ?_, ?_, l₂, ?_, ?_, halong.last hexec', ht'⟩
  · rw [visitTurn, hvisit]
    exact bind_of_ok hrun
  · rw [List.map_append, hdone]
    rfl
  · intro v hv
    rcases List.mem_append.mp hv with hv | hv
    · exact hdecided v hv
    · obtain rfl := List.mem_singleton.mp hv
      exact ⟨r.list, r.vars, congrArg Prod.fst hvisit⟩
  · rw [visitOps, List.flatMap_append]
    exact System.exec_append hexec (by simpa [visitOps] using hexec')
  · rw [hitems']
    simp [keptItems]

/-- **An iteration visits every node of the list once, in order**, and what is left is the nodes
that were kept. -/
theorem usListIterate_visits (hlist : ∀ t l, R t l → Represents others (listOf t) l)
    (hstep : (listSystem others).FollowedBy ok step R)
    (hshorter : ∀ l l', l'.items.length ≤ l.items.length → ok l → ok l') {t : τ} (ht : R t l)
    (hok : ok l) (hfuel : l.items.length ≤ fuel) (body : α → τ → σ → Visit × σ) (vars : σ) :
    ∃ r, usListIterate (fun r => listOf r.list) (visitTurn step body) fuel (listOf t).first
        ⟨t, [], vars⟩ = .ok r ∧
      r.visits.map Prod.fst = l.items ∧
      (∀ v ∈ r.visits, ∃ list vars, (body v.1 list vars).1 = v.2) ∧
      ∃ l', (listSystem others).exec l (visitOps r.visits) = some l' ∧
        l'.items = keptItems r.visits ∧ R r.list l' := by
  have hnext : ∀ done item rest (r : Iteration α τ σ),
      Visited others ok R body l done (item :: rest) r →
      ∃ prev, (listOf r.list).heap item = some ⟨prev, rest.head?⟩ := by
    rintro done item rest r ⟨-, -, l₁, -, hitems, -, hr⟩
    have hlinked := (hlist r.list l₁ hr).linked
    rw [hitems] at hlinked
    exact ⟨_, hlinked.links_eq⟩
  have hstart : Visited others ok R body l [] l.items ⟨t, [], vars⟩ :=
    ⟨rfl, fun v hv => absurd hv List.not_mem_nil, l, rfl, rfl, hok, ht⟩
  obtain ⟨r, hrun, hvisits, hdecided, l', hexec, hitems, -, hr⟩ :=
    usListIterate_rule hnext (fun _ _ _ _ => Visited.turn hlist hstep hshorter) hstart hfuel
  rw [List.append_nil] at hitems
  rw [(hlist t l ht).first_eq]
  exact ⟨r, hrun, hvisits, hdecided, l', hexec, hitems, hr⟩

/-- The list with some of its nodes freed, and nothing else changed. -/
def UsList.freed (s : UsList α) (items : List α) : UsList α :=
  { s with heap := fun x => if x ∈ items then none else s.heap x }

theorem UsList.free_freed {s : UsList α} {items : List α} {links : Links α}
    (h : (s.freed items).heap item = some links) :
    (s.freed items).free item = .ok (s.freed (items ++ [item])) := by
  have hheap : Function.update (s.freed items).heap item none =
      (s.freed (items ++ [item])).heap := by
    funext x
    by_cases hx : x = item
    · simp [UsList.freed, hx]
    · simp [UsList.freed, hx]
  rw [UsList.free_eq_ok h, hheap]
  rfl

/-- The loops that give the whole list back free every node without taking it out first. -/
theorem usListIterate_free {s : UsList α} (hs : Represents others s l)
    (hfuel : l.items.length ≤ fuel) :
    usListIterate (fun s => s) (fun item s => s.free item) fuel s.first s =
      .ok (s.freed l.items) := by
  have hlinks : ∀ done item rest s', l.items = done ++ item :: rest ∧ s' = s.freed done →
      s'.heap item = some ⟨done.getLast?, rest.head?⟩ := by
    rintro done item rest _ ⟨hitems, rfl⟩
    have hlinked := hs.linked
    rw [hitems] at hlinked
    have hout : item ∉ done := fun hmem =>
      (List.nodup_append.mp hlinked.nodup).2.2 item hmem item List.mem_cons_self rfl
    exact (if_neg hout).trans hlinked.links_eq
  have hturn : ∀ done item rest s', l.items = done ++ item :: rest ∧ s' = s.freed done →
      ∃ s'', s'.free item = .ok s'' ∧
        l.items = done ++ [item] ++ rest ∧ s'' = s.freed (done ++ [item]) := by
    rintro done item rest s' ⟨hitems, rfl⟩
    have hfree := UsList.free_freed (hlinks done item rest _ ⟨hitems, rfl⟩)
    exact ⟨_, hfree, by rw [List.append_assoc]; exact hitems, rfl⟩
  have hstart : l.items = [] ++ l.items ∧ s = s.freed [] := ⟨rfl, by simp [UsList.freed]⟩
  obtain ⟨s', hrun, -, rfl⟩ := usListIterate_rule
    (I := fun done rest s' => l.items = done ++ rest ∧ s' = s.freed done)
    (fun done item rest s' h => ⟨_, hlinks done item rest s' h⟩) hturn hstart hfuel
  rw [hs.first_eq]
  exact hrun

end Iterating

/-! ## 3. Runs -/

/-- The operations `ops`, and an iteration after them, on a list that is `l'` after the operations:
nothing stops them, and the iteration visits `l'` and leaves the nodes its body kept. -/
def RunsExactly (others : LinkHeap α) (fuel : Nat) (step : τ → ListOp α → Except ListFault τ)
    (listOf : τ → UsList α) (R : τ → ListSpec α → Prop) (ops : List (ListOp α)) (l' : ListSpec α)
    (t : τ) : Prop :=
  ∃ t', ops.foldlM step t = .ok t' ∧ R t' l' ∧ l'.items.Nodup ∧
    ∀ (σ : Type) (body : α → τ → σ → Visit × σ) (vars : σ),
      ∃ r, usListIterate (fun r => listOf r.list) (visitTurn step body) fuel (listOf t').first
          ⟨t', [], vars⟩ = .ok r ∧
        r.visits.map Prod.fst = l'.items ∧
        (∀ v ∈ r.visits, ∃ list vars, (body v.1 list vars).1 = v.2) ∧
        ∃ l₁, (listSystem others).exec l' (visitOps r.visits) = some l₁ ∧
          l₁.items = keptItems r.visits ∧ R r.list l₁

section Runs

variable {others : LinkHeap α} {l l' : ListSpec α} {ops : List (ListOp α)} {fuel : Nat}

/-- An operation makes the list longer by one node at most. -/
theorem step_length {op : ListOp α} (h : (listSystem others).step l op = some l') :
    l'.items.length ≤ l.items.length + 1 := by
  rcases listSystem_step_cases h with ⟨x, -, -, -, rfl⟩ | ⟨x, -, -, rfl⟩ | ⟨x, -, -, rfl⟩ |
    ⟨x, -, -, rfl⟩
  · exact Nat.le_succ _
  · exact (List.length_append ..).le
  · exact List.length_erase_le.trans (Nat.le_succ _)
  · exact Nat.le_succ _

/-- So some number of turns is enough for any sequence of operations. -/
theorem allAlong_length (others : LinkHeap α) (hfuel : l.items.length + ops.length ≤ fuel) :
    (listSystem others).AllAlong (fun l => l.items.length ≤ fuel) l ops := by
  induction ops generalizing l with
  | nil => exact hfuel
  | cons op ops ih =>
    refine ⟨Nat.le_of_add_right_le hfuel, trivial, fun l₁ h => ih ?_⟩
    have hlength := step_length h
    rw [List.length_cons] at hfuel
    omega

/-- The three kinds of lists below differ in what they represent only. -/
theorem runsExactly {R : τ → ListSpec α → Prop} {ok : ListSpec α → Prop} {listOf : τ → UsList α}
    {step : τ → ListOp α → Except ListFault τ} {t : τ}
    (hlist : ∀ t l, R t l → Represents others (listOf t) l)
    (hstep : (listSystem others).FollowedBy ok step R)
    (hshorter : ∀ l l', l'.items.length ≤ l.items.length → ok l → ok l')
    (hfuel : ∀ l, ok l → l.items.length ≤ fuel) (halong : (listSystem others).AllAlong ok l ops)
    (hexec : (listSystem others).exec l ops = some l') (ht : R t l) :
    RunsExactly others fuel step listOf R ops l' t := by
  obtain ⟨t', hrun, ht'⟩ := System.exec_followed hstep ht halong hexec
  have hok := halong.last hexec
  refine ⟨t', hrun, ht', (hlist t' l' ht').nodup, fun σ body vars => ?_⟩
  exact usListIterate_visits hlist hstep hshorter ht' hok (hfuel l' hok) body vars

/-- **The lists are exact.**  Whatever is appended and removed, the heap goes on holding the list
that appending and erasing makes, no pointer goes wrong and no assertion fails, and an iteration
visits the nodes in order, even if it removes and frees them.  The count is the number of the
nodes; an `unsigned` count is, as long as there are fewer than `2 ^ 32` of them. -/
theorem usList_exact (hexec : (listSystem others).exec l ops = some l')
    (hfuel : l.items.length + ops.length ≤ fuel) :
    (∀ s, Represents others s l →
      RunsExactly others fuel (usListStep fuel) (fun s => s) (Represents others) ops l' s) ∧
    (∀ s : UsCountedList α Nat, RepresentsC (fun c => c) others s l →
      RunsExactly others fuel (usListStepC fuel) UsCountedList.toUsList
        (RepresentsC (fun c => c) others) ops l' s) ∧
    ((listSystem others).AllAlong (fun l => l.items.length < UInt32.size) l ops →
      ∀ s : UsCountedList α UInt32, RepresentsC UInt32.toNat others s l →
        RunsExactly others fuel (usListStepC fuel) UsCountedList.toUsList
          (RepresentsC UInt32.toNat others) ops l' s) := by
  have halong := allAlong_length others hfuel
  refine ⟨fun s hs => ?_, fun s hs => ?_, fun hsmall s hs => ?_⟩
  · exact runsExactly (fun _ _ h => h) (usListStep_follows fuel) (fun _ _ h => h.trans)
      (fun _ h => h) halong hexec hs
  · exact runsExactly (fun _ _ h => h.1) (usListStepC_follows nat_counts fuel)
      (fun _ _ h hok => ⟨h.trans hok.1, trivial⟩) (fun _ h => h.1)
      (halong.and (System.allAlong_of_forall (fun _ _ _ _ _ _ => trivial) trivial)) hexec hs
  · exact runsExactly (fun _ _ h => h.1) (usListStepC_follows uint_counts fuel)
      (fun _ _ h hok => ⟨h.trans hok.1, h.trans_lt hok.2⟩) (fun _ h => h.1) (halong.and hsmall)
      hexec hs

/-- Two clients come and the first one leaves and comes again, in a heap with nothing else. -/
theorem usList_exact_two_clients :
    RunsExactly (fun _ => none) 6 (usListStep 6) (fun s => s) (Represents fun _ => none)
        [.calloc 1, .calloc 2, .append 1, .append 2, .remove 1, .append 1] ⟨[2, 1], ∅⟩
        (⟨fun _ => none, none⟩ : UsList Nat) ∧
      RunsExactly (fun _ => none) 6 (usListStepC 6) UsCountedList.toUsList
        (RepresentsC UInt32.toNat fun _ => none)
        [.calloc 1, .calloc 2, .append 1, .append 2, .remove 1, .append 1] ⟨[2, 1], ∅⟩
        (⟨⟨fun _ => none, none⟩, 0⟩ : UsCountedList Nat UInt32) := by
  have hempty : Represents (fun _ => none) (⟨fun _ => none, none⟩ : UsList Nat) ⟨[], ∅⟩ :=
    ⟨linked_nil, rfl, by simp, by simp, fun _ _ => rfl, fun _ _ => rfl⟩
  have hexec : (listSystem fun _ : Nat => none).exec ⟨[], ∅⟩
      [.calloc 1, .calloc 2, .append 1, .append 2, .remove 1, .append 1] = some ⟨[2, 1], ∅⟩ := by
    decide
  obtain ⟨hplain, -, huint⟩ := usList_exact hexec (le_refl 6)
  refine ⟨hplain _ hempty, huint ?_ _ ⟨hempty, rfl⟩⟩
  exact (allAlong_length _ (le_refl 6)).mono fun l h => h.trans_lt (by decide)

end Runs

end TinyPilotKvm
