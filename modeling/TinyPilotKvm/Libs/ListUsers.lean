/-
# Where the intrusive lists are used

The pool of workers, the stream clients and the clients of the Janus plugin are plain lists in the
models of those parts.  In memory they are intrusive lists, and this module says that the macros do
there what the models do with the plain lists.  A node stands for the structure it is in: the
workers by their numbers, the clients by what `client` says is stored at the node.
-/
import TinyPilotKvm.Janus.Watchers
import TinyPilotKvm.Libs.ListRuns
import TinyPilotKvm.Ustreamer.Http.Server
import TinyPilotKvm.Ustreamer.Workers

namespace TinyPilotKvm

variable {α β : Type} [DecidableEq α] {others : LinkHeap α} {spare : Finset α} {fuel : Nat}

/-! ## 1. The pool of workers (`ustreamer/workers.c`) -/

/-- The loop of `us_workers_pool_init`. -/
def usWorkersPoolInitOps (nWorkers : Nat) : List (ListOp Nat) :=
  (List.range nWorkers).flatMap fun wr => [.calloc wr, .append wr]

/-- The list the pool begins with. -/
theorem exec_usWorkersPoolInitOps {others : LinkHeap Nat} (nWorkers : Nat)
    (hout : ∀ wr < nWorkers, others wr = none) :
    (listSystem others).exec ⟨[], ∅⟩ (usWorkersPoolInitOps nWorkers) =
      some ⟨(usWorkersPoolInit nWorkers).workers, ∅⟩ := by
  induction nWorkers with
  | zero => rfl
  | succ n ih =>
    have hinit := ih fun wr hwr => hout wr (Nat.lt_succ_of_lt hwr)
    have hcalloc : (listSystem others).step ⟨List.range n, ∅⟩ (.calloc n) =
        some ⟨List.range n, insert n ∅⟩ :=
      if_pos ⟨List.not_mem_range_self, Finset.notMem_empty n, hout n (Nat.lt_succ_self n)⟩
    have happend : (listSystem others).step ⟨List.range n, insert n ∅⟩ (.append n) =
        some ⟨List.range n ++ [n], (insert n ∅ : Finset Nat).erase n⟩ :=
      if_pos (Finset.mem_insert_self n ∅)
    rw [Finset.erase_insert (Finset.notMem_empty n)] at happend
    rw [usWorkersPoolInitOps, List.range_succ, List.flatMap_append]
    refine System.exec_append hinit ?_
    have hlast : (usWorkersPoolInit (n + 1)).workers = List.range n ++ [n] := List.range_succ
    rw [hlast]
    exact System.exec_cons_eq_some.mpr ⟨_, hcalloc,
      System.exec_cons_eq_some.mpr ⟨_, happend, rfl⟩⟩

/-- The end of `us_workers_pool_wait`. -/
def moveToEnd (fuel : Nat) (s : UsList α) (found : α) : Except ListFault (UsList α) := do
  let s ← usListRemove s found
  usListAppend fuel s found

/-- The worker that was found goes to the end of the list. -/
theorem moveToEnd_chooseWorker {others : LinkHeap Nat} {spare : Finset Nat} {pool : PoolState}
    {s : UsList Nat} {wr : Nat} (hs : Represents others s ⟨pool.workers, spare⟩)
    (hwr : wr ∈ pool.workers) (hfuel : pool.workers.length ≤ fuel) :
    ∃ s', moveToEnd fuel s wr = .ok s' ∧
      Represents others s' ⟨(pool.chooseWorker wr).workers, spare⟩ := by
  obtain ⟨s₁, hremove, hs₁⟩ := hs.remove hwr
  obtain ⟨s₂, happend, hs₂⟩ := hs₁.append (Finset.mem_insert_self wr spare)
    (List.length_erase_le.trans hfuel)
  have hspare : wr ∉ spare := fun hmem => hs.spare_out wr hmem hwr
  rw [Finset.erase_insert hspare] at hs₂
  exact ⟨s₂, (bind_of_ok hremove).trans happend, hs₂⟩

/-! ## 2. The stream clients (`ustreamer/http/server.c`) -/

/-- The list in memory holds the clients. -/
def HoldsClients (others : LinkHeap α) (client : α → β) (s : UsCountedList α Nat)
    (spare : Finset α) (clients : CountedList β) : Prop :=
  ∃ nodes, Represents others s.toUsList ⟨nodes, spare⟩ ∧ nodes.map client = clients.items ∧
    s.count = clients.count

section StreamClients

variable {client : α → β} {s : UsCountedList α Nat} {clients clients' : CountedList β} {node : α}

/-- The list of `_http_callback_stream`. -/
theorem HoldsClients.append (h : HoldsClients others client s spare clients)
    (hnode : node ∈ spare) (hfuel : clients.count ≤ fuel) :
    ∃ s', usListAppendC fuel s node = .ok s' ∧
      HoldsClients others client s' (spare.erase node) (clients.append (client node)) := by
  obtain ⟨nodes, hs, hitems, hcount⟩ := h
  have hlength : nodes.length ≤ fuel := by
    rwa [clients.count_eq, ← hitems, List.length_map] at hfuel
  obtain ⟨s', hrun, hs'⟩ := hs.append hnode hlength
  refine ⟨⟨s', s.count + 1⟩, bind_of_ok hrun, nodes ++ [node], hs', ?_, ?_⟩
  · rw [List.map_append, hitems]
    rfl
  · rw [hcount]
    rfl

/-- The list of `_http_callback_stream_error`: the client's node is taken out and freed. -/
theorem HoldsClients.remove (h : HoldsClients others client s spare clients) {i : Nat}
    (hremove : clients.remove i = some clients') :
    ∃ node s', clients.items[i]? = some (client node) ∧
      [.remove node, .free node].foldlM (usListStepC fuel) s = .ok s' ∧
      HoldsClients others client s' spare clients' := by
  obtain ⟨nodes, hs, hitems, hcount⟩ := h
  unfold CountedList.remove at hremove
  split at hremove
  · rename_i hi
    obtain rfl := Option.some.inj hremove
    have hi' : i < nodes.length := by rwa [← hitems, List.length_map] at hi
    have hmem : nodes[i] ∈ nodes := List.getElem_mem hi'
    obtain ⟨s₁, htaken, hs₁⟩ := hs.remove hmem
    obtain ⟨s₂, hfreed, hs₂⟩ := hs₁.free (Finset.mem_insert_self nodes[i] spare)
    have hspare : nodes[i] ∉ spare := fun hnode => hs.spare_out _ hnode hmem
    have hone : 1 ≤ s.count := by
      rw [hcount, clients.count_eq]
      exact Nat.lt_of_le_of_lt (Nat.zero_le i) hi
    have hremoveC : usListRemoveC s nodes[i] = .ok ⟨s₁, s.count - 1⟩ :=
      (bind_of_ok htaken).trans (if_pos hone)
    have hfreeC : usListStepC fuel ⟨s₁, s.count - 1⟩ (.free nodes[i]) = .ok ⟨s₂, s.count - 1⟩ :=
      bind_of_ok hfreed
    refine ⟨nodes[i], ⟨s₂, s.count - 1⟩, ?_, ?_, nodes.eraseIdx i, ?_, ?_, ?_⟩
    · rw [← hitems, List.getElem?_map, List.getElem?_eq_getElem hi']
      rfl
    · exact (bind_of_ok hremoveC).trans ((bind_of_ok hfreeC).trans rfl)
    · rw [← hs.nodup.erase_getElem i hi', ← Finset.erase_insert hspare]
      exact hs₂
    · rw [← List.eraseIdx_map, hitems]
    · rw [hcount]
  · cases hremove

end StreamClients

/-! ## 3. The clients of the Janus plugin (`janus/src/plugin.c`) -/

section JanusClients

variable {client : α → UsJanusClient} {s : UsList α} {l : ListSpec α} {g : JanusPlugin}

/-- The body of the loop in `_plugin_destroy_session`, less the flags. -/
def destroySessionBody (client : α → UsJanusClient) (session : Nat) (node : α) (_ : UsList α)
    (_ : Unit) : Visit × Unit :=
  (if (client node).session = session then .removeAndFree else .keep, ())

omit [DecidableEq α] in
/-- What is kept, where the nodes decide. -/
theorem keptItems_eq_filter {visits : List (α × Visit)} {p : α → Prop} [DecidablePred p]
    (h : ∀ v ∈ visits, v.2 = .keep ↔ p v.1) :
    keptItems visits = (visits.map Prod.fst).filter p := by
  rw [List.filter_map]
  refine congrArg (List.map Prod.fst) (List.filter_congr fun v hv => ?_)
  exact decide_eq_decide.mpr (h v hv)

/-- The list of `_plugin_destroy_session`. -/
theorem pluginDestroySession_nodes (hg : g.disabled = false) (hs : Represents others s l)
    (hclients : l.items.map client = g.clients) (hfuel : l.items.length ≤ fuel) (session : Nat) :
    ∃ r l', usListIterate (fun r => r.list)
        (visitTurn (usListStep fuel) (destroySessionBody client session)) fuel s.first
        ⟨s, [], ()⟩ = .ok r ∧
      Represents others r.list l' ∧
      l'.items.map client = (pluginDestroySession g session).1.clients := by
  obtain ⟨r, hrun, hvisits, hdecided, l', -, hitems, hr⟩ := usListIterate_visits
    (fun _ _ h => h) (usListStep_follows fuel) (fun _ _ h => h.trans) hs
    hfuel hfuel (destroySessionBody client session) ()
  refine ⟨r, l', hrun, hr, ?_⟩
  have hkept : keptItems r.visits = l.items.filter fun node => (client node).session ≠ session := by
    rw [keptItems_eq_filter (p := fun node => (client node).session ≠ session), hvisits]
    intro v hv
    obtain ⟨list, vars, hvisit⟩ := hdecided v hv
    rw [← hvisit, destroySessionBody]
    by_cases hsession : (client v.1).session = session
    · simp [hsession]
    · simp [hsession]
  have hothers : (pluginDestroySession g session).1.clients =
      g.clients.filter fun c => c.session ≠ session := by
    rw [pluginDestroySession, if_neg (by simp [hg]), foldl_destroyTurn]
    rfl
  rw [hitems, hkept, hothers, ← hclients, List.filter_map]
  rfl

end JanusClients

end TinyPilotKvm
