/-
# What the calls keep of the database file

`StoreInv` says what a file holds after any run of calls whose transactions are up to date: the data
is what the scripts from the first counter to the present one make of the first data, and every call
knows where it is.  The one condition is `CounterCurrent`: the statement with which the transaction
of migration `i` comes about finds the file unlocked and the counter at `i`.
-/
import Mathlib.Data.List.Infix
import TinyPilotKvm.App.Db.Store

namespace TinyPilotKvm

variable {ι σ : Type}

/-! ## 1. Lists of scripts -/

theorem applyScript_nil (data : σ) : applyScript [] data = some data := rfl

theorem applyScript_append (script script' : Script σ) (data : σ) :
    applyScript (script ++ script') data = (applyScript script data).bind (applyScript script') :=
  List.foldlM_append

theorem applyScript_singleton (statement : Statement σ) (data : σ) :
    applyScript [statement] data = applyStatement statement data := by
  unfold applyScript
  simp only [List.foldlM_cons, List.foldlM_nil, bind_pure]

theorem applyScripts_append (scripts scripts' : List (Script σ)) (data : σ) :
    applyScripts (scripts ++ scripts') data
      = (applyScripts scripts data).bind (applyScripts scripts') :=
  List.foldlM_append

theorem applyScripts_singleton (script : Script σ) (data : σ) :
    applyScripts [script] data = applyScript script data := by
  unfold applyScripts
  simp only [List.foldlM_cons, List.foldlM_nil, bind_pure]

/-- The migrations that lead from the counter `v` to the counter `w`. -/
def migrationsBetween (migrations : List (Script σ)) (v w : Nat) : List (Script σ) :=
  (migrations.take w).drop v

theorem migrationsBetween_self (migrations : List (Script σ)) (v : Nat) :
    migrationsBetween migrations v v = [] :=
  List.drop_eq_nil_of_le (List.length_take_le _ _)

theorem migrationsBetween_succ {migrations : List (Script σ)} {v w : Nat} (hvw : v ≤ w)
    (hw : w < migrations.length) :
    migrationsBetween migrations v (w + 1)
      = migrationsBetween migrations v w ++ [migrations.getD w []] := by
  unfold migrationsBetween
  have hlen : v ≤ (migrations.take w).length := by
    rw [List.length_take]
    omega
  rw [List.take_add_one, List.getElem?_eq_getElem hw, Option.toList_some,
    List.drop_append_of_le_length hlen, List.getD_eq_getElem _ _ hw]

/-- The scripts of an older app are among those of a newer one. -/
theorem getD_of_isPrefix {migrations history : List (Script σ)} (h : migrations <+: history)
    {i : Nat} (hi : i < migrations.length) : migrations.getD i [] = history.getD i [] := by
  obtain ⟨rest, rfl⟩ := h
  rw [List.getD_append _ _ _ _ hi]

/-! ## 2. The only transaction -/

/-- Nobody but `p` has the file locked. -/
def StoreState.Alone (s : StoreState ι σ) (p : ι) : Prop :=
  (∀ tx ∈ s.txs, tx.1 = p) ∧ (s.writer = none ∨ s.writer = some p)

/-- With its own transaction, a call is still alone. -/
theorem StoreState.Alone.own {p : ι} {writer : Option ι} (hwriter : writer = none ∨ writer = some p)
    (s : StoreState ι σ) (work : DbFile σ) :
    ({ s with txs := [(p, work)], writer := writer } : StoreState ι σ).Alone p :=
  ⟨fun _ htx => congrArg Prod.fst (List.mem_singleton.mp htx), hwriter⟩

section Alone

variable [DecidableEq ι] {s : StoreState ι σ} {p : ι}

namespace StoreState.Alone

theorem otherTxs_eq (h : s.Alone p) : s.otherTxs p = [] :=
  List.filter_eq_nil_iff.mpr fun tx htx => by
    simpa only [decide_eq_true_eq, not_not] using h.1 tx htx

/-- Its statements need not wait. -/
theorem write_eq (h : s.Alone p) (work : DbFile σ) (pc : OpenPc σ) :
    s.write p work pc = some { s.setPc p pc with txs := [(p, work)], writer := some p } := by
  rw [write, if_pos h.2, h.otherTxs_eq]

theorem runStatement_eq (h : s.Alone p) (i : Nat) {work : DbFile σ} {statement : Statement σ}
    (rest : Script σ) {data : σ} (hdata : applyStatement statement work.data = some data) :
    ∃ writer, (writer = none ∨ writer = some p) ∧
      s.runStatement p i work (statement :: rest) = some { s.setPc p (.script i rest) with
        txs := [(p, { work with data := data })]
        writer := writer } := by
  obtain ⟨written, hwritten, rfl⟩ := Option.map_eq_some_iff.mp hdata
  simp only [runStatement, hwritten]
  cases written with
  | none =>
    rw [h.otherTxs_eq]
    exact ⟨s.writer, h.2, rfl⟩
  | some data => exact ⟨some p, .inr rfl, h.write_eq _ _⟩

/-- When its call ends early, nobody has the file locked. -/
theorem abort (h : s.Alone p) {outcome : OpenOutcome} : (s.abort p outcome).Alone p := by
  refine ⟨fun tx htx => h.1 tx (List.mem_filter.mp htx).1, .inl ?_⟩
  show (if s.writer = some p then none else s.writer) = none
  split
  · rfl
  · rename_i hne
    exact h.2.resolve_right hne

/-- The commit need not wait either. -/
theorem commit_eq (h : s.Alone p) {i : Nat} {work : DbFile σ} (hpc : (s.calls p).pc = .commit i)
    (htxs : s.txs = [(p, work)]) :
    storeAdvance s p = some { s.setPc p (nextMigration (s.calls p).migrations (i + 1)) with
      file := work, txs := [], writer := none, commits := s.commits ++ [i] } := by
  simp only [storeAdvance, hpc, h.otherTxs_eq, htxs, if_true, List.lookup_cons_self,
    Option.map_some]

end StoreState.Alone

theorem runStatement_of_none {i : Nat} {work : DbFile σ} {statement : Statement σ}
    {rest : Script σ} (hdata : applyStatement statement work.data = none) :
    s.runStatement p i work (statement :: rest) = some (s.abort p (.scriptError i)) := by
  simp only [StoreState.runStatement, Option.map_eq_none_iff.mp hdata]

end Alone

/-! ## 3. The invariant -/

/-- Every process has the scripts of some version of the app, and a transaction for migration `i`
comes about while there is none and the counter is `i`. -/
def CounterCurrent (history : List (Script σ)) (s : StoreState ι σ) : StoreAct ι σ → Prop
  | .call _ migrations => migrations <+: history
  | .step p => ∀ i, (s.calls p).pc = .begun i → s.txs = [] ∧ s.file.userVersion = i
  | _ => True

/-- What is known at each point of a call, from the file as it was first. -/
def CallOk (history : List (Script σ)) (first file : DbFile σ) (txs : List (ι × DbFile σ)) (p : ι)
    (c : OpenCall σ) : Prop :=
  match c.pc with
  | .compare v => first.userVersion ≤ v ∧ v ≤ file.userVersion
  | .begin i | .begun i =>
    i < c.migrations.length ∧ first.userVersion ≤ i ∧ i ≤ file.userVersion
  | .script i rest => i = file.userVersion ∧ i < c.migrations.length ∧
      ∃ work done, txs = [(p, work)] ∧ history.getD i [] = done ++ rest ∧
        applyScript done file.data = some work.data
  | .commit i => i = file.userVersion ∧ i < c.migrations.length ∧
      ∃ work, txs = [(p, work)] ∧ work.userVersion = i + 1 ∧
        applyScript (history.getD i []) file.data = some work.data
  | .done .returned => c.migrations.length ≤ file.userVersion
  | .done .incompatible => c.migrations.length < file.userVersion
  | .done (.scriptError i) => i < c.migrations.length ∧ first.userVersion ≤ i ∧ ∃ data,
      applyScripts (migrationsBetween history first.userVersion i) first.data = some data ∧
        applyScript (history.getD i []) data = none
  | .done .locked => False
  | _ => True

/-- The call is inside a transaction. -/
def OpenPc.inTx : OpenPc σ → Prop
  | .script _ _ => True
  | .commit _ => True
  | _ => False

/-- The invariant, from the file as it was before the first call. -/
structure StoreInv (history : List (Script σ)) (first : DbFile σ) (s : StoreState ι σ) : Prop where
  commits : s.commits = List.range' first.userVersion s.commits.length
  /-- **The counter counts what is committed.** -/
  version : s.file.userVersion = first.userVersion + s.commits.length
  /-- **The data is what the migrations up to the counter make of the first data.** -/
  data : applyScripts (migrationsBetween history first.userVersion s.file.userVersion) first.data
    = some s.file.data
  lists : ∀ p, (s.calls p).migrations <+: history
  calls : ∀ p, CallOk history first s.file s.txs p (s.calls p)
  owners : ∀ tx ∈ s.txs, (s.calls tx.1).pc.inTx
  writer : ∀ p, s.writer = some p → (s.calls p).pc.inTx

variable {history : List (Script σ)} {first : DbFile σ}

/-- What is known of a call survives the steps of the others. -/
theorem CallOk.frame {file file' : DbFile σ} {txs txs' : List (ι × DbFile σ)} {p : ι}
    {c : OpenCall σ} (h : CallOk history first file txs p c)
    (hle : file.userVersion ≤ file'.userVersion)
    (htx : c.pc.inTx → file' = file ∧ ∀ work, txs = [(p, work)] → txs' = [(p, work)]) :
    CallOk history first file' txs' p c := by
  obtain ⟨migrations, pc⟩ := c
  cases pc with
  | idle => trivial
  | readCounter => trivial
  | compare v => exact ⟨h.1, Nat.le_trans h.2 hle⟩
  | begin i => exact ⟨h.1, h.2.1, Nat.le_trans h.2.2 hle⟩
  | begun i => exact ⟨h.1, h.2.1, Nat.le_trans h.2.2 hle⟩
  | script i rest =>
    obtain ⟨hi, hlt, work, done, hwork, hdone⟩ := h
    obtain ⟨rfl, hkeep⟩ := htx trivial
    exact ⟨hi, hlt, work, done, hkeep work hwork, hdone⟩
  | commit i =>
    obtain ⟨hi, hlt, work, hwork, hdone⟩ := h
    obtain ⟨rfl, hkeep⟩ := htx trivial
    exact ⟨hi, hlt, work, hkeep work hwork, hdone⟩
  | done outcome =>
    cases outcome with
    | returned => exact Nat.le_trans h hle
    | incompatible => exact Nat.lt_of_lt_of_le h hle
    | scriptError i => exact h
    | locked => exact h
    | failed => trivial
    | died => trivial

/-- **A call inside a transaction has the only one.** -/
theorem CallOk.owner {file : DbFile σ} {txs : List (ι × DbFile σ)} {p : ι} {c : OpenCall σ}
    (h : CallOk history first file txs p c) (hin : c.pc.inTx) : ∃ work, txs = [(p, work)] := by
  obtain ⟨migrations, pc⟩ := c
  cases pc with
  | script i rest =>
    obtain ⟨-, -, work, -, hwork, -⟩ := h
    exact ⟨work, hwork⟩
  | commit i =>
    obtain ⟨-, -, work, hwork, -⟩ := h
    exact ⟨work, hwork⟩
  | idle => exact hin.elim
  | readCounter => exact hin.elim
  | compare v => exact hin.elim
  | begin i => exact hin.elim
  | begun i => exact hin.elim
  | done outcome => exact hin.elim

/-- The next turn of the loop is in step with the file. -/
theorem callOk_nextMigration {p : ι} {txs : List (ι × DbFile σ)} {migrations : List (Script σ)}
    {i : Nat} (file : DbFile σ) (hfirst : first.userVersion ≤ i) (hle : i ≤ file.userVersion) :
    CallOk history first file txs p ⟨migrations, nextMigration migrations i⟩ := by
  unfold nextMigration
  split
  · rename_i hlt
    exact ⟨hlt, hfirst, hle⟩
  · rename_i hge
    exact Nat.le_trans (Nat.le_of_not_lt hge) hle

namespace StoreInv

/-- The counter never falls below the first one. -/
theorem first_le {s : StoreState ι σ} (h : StoreInv history first s) :
    first.userVersion ≤ s.file.userVersion := by
  rw [h.version]
  exact Nat.le_add_right _ _

/-- What is known at the point where a call is. -/
theorem callOk {s : StoreState ι σ} {p : ι} (h : StoreInv history first s) {pc : OpenPc σ}
    (hpc : (s.calls p).pc = pc) :
    CallOk history first s.file s.txs p { s.calls p with pc := pc } := hpc ▸ h.calls p

/-- The transaction of a call inside one is alone. -/
theorem alone_of_inTx {s : StoreState ι σ} {p : ι} (h : StoreInv history first s)
    (hin : (s.calls p).pc.inTx) : s.Alone p := by
  obtain ⟨work, htxs⟩ := (h.calls p).owner hin
  constructor
  · intro tx htx
    rw [htxs] at htx
    exact congrArg Prod.fst (List.mem_singleton.mp htx)
  · cases hwriter : s.writer with
    | none => exact .inl rfl
    | some q =>
      obtain ⟨work', htxs'⟩ := (h.calls q).owner (h.writer q hwriter)
      rw [htxs] at htxs'
      exact .inr (congrArg some (Prod.mk.inj (List.cons.inj htxs').1).1.symm)

/-- Without a transaction nobody writes. -/
theorem alone_of_nil {s : StoreState ι σ} {p : ι} (h : StoreInv history first s)
    (htxs : s.txs = []) : s.Alone p := by
  constructor
  · intro tx htx
    exact absurd (htxs ▸ htx) List.not_mem_nil
  · cases hwriter : s.writer with
    | none => exact .inl rfl
    | some q =>
      obtain ⟨work, htxs'⟩ := (h.calls q).owner (h.writer q hwriter)
      exact absurd (htxs.symm.trans htxs') (List.cons_ne_nil _ _).symm

variable [DecidableEq ι] {s s' : StoreState ι σ} {p : ι}

/-- A call moves on without a commit: the file stays, and what it locks is the caller's. -/
theorem move (h : StoreInv history first s) {c : OpenCall σ} {txs : List (ι × DbFile σ)}
    {writer : Option ι} (hlist : c.migrations <+: history)
    (hc : CallOk history first s.file txs p c)
    (hothers : ∀ q, q ≠ p → ∀ work, s.txs = [(q, work)] → txs = [(q, work)])
    (howners : ∀ tx ∈ txs, (tx.1 = p ∧ c.pc.inTx) ∨ (tx.1 ≠ p ∧ tx ∈ s.txs))
    (hwriter : ∀ q, writer = some q → (q = p ∧ c.pc.inTx) ∨ (q ≠ p ∧ s.writer = some q)) :
    StoreInv history first
      { s with calls := Function.update s.calls p c, txs := txs, writer := writer } where
  commits := h.commits
  version := h.version
  data := h.data
  lists q := by
    dsimp only
    rw [Function.update_apply]
    split
    · exact hlist
    · exact h.lists q
  calls q := by
    dsimp only
    rw [Function.update_apply]
    split
    · rename_i hq
      exact hq ▸ hc
    · rename_i hq
      exact (h.calls q).frame (Nat.le_refl _) fun _ => ⟨rfl, hothers q hq⟩
  owners tx htx := by
    dsimp only
    rcases howners tx htx with ⟨heq, hin⟩ | ⟨hne, hold⟩
    · rw [heq, Function.update_self]
      exact hin
    · rw [Function.update_of_ne hne]
      exact h.owners tx hold
  writer q hq := by
    dsimp only
    rcases hwriter q hq with ⟨rfl, hin⟩ | ⟨hne, hold⟩
    · rw [Function.update_self]
      exact hin
    · rw [Function.update_of_ne hne]
      exact h.writer q hold

/-- A step outside of transactions. -/
theorem moveOutside (h : StoreInv history first s) (hout : ¬ (s.calls p).pc.inTx) {c : OpenCall σ}
    (hlist : c.migrations <+: history) (hc : CallOk history first s.file s.txs p c) :
    StoreInv history first { s with calls := Function.update s.calls p c } := by
  refine h.move hlist hc (fun _ _ _ htxs => htxs) (fun tx htx => .inr ⟨?_, htx⟩)
    fun q hq => .inr ⟨?_, hq⟩
  · rintro rfl
    exact hout (h.owners tx htx)
  · rintro rfl
    exact hout (h.writer q hq)

/-- **A call that ends early leaves the file as it was.** -/
theorem abort (h : StoreInv history first s) {outcome : OpenOutcome}
    (hc : CallOk history first s.file [] p { s.calls p with pc := .done outcome }) :
    StoreInv history first (s.abort p outcome) := by
  refine h.move (h.lists p) (hc.frame (Nat.le_refl _) fun hin => hin.elim) ?_ ?_ ?_
  · intro q hq work htxs
    simp only [StoreState.otherTxs, htxs, ne_eq, hq, not_false_eq_true, decide_true,
      List.filter_cons_of_pos, List.filter_nil]
  · intro tx htx
    obtain ⟨hold, hne⟩ := List.mem_filter.mp htx
    exact .inr ⟨of_decide_eq_true hne, hold⟩
  · intro q hq
    split at hq
    · exact absurd hq (by simp)
    · rename_i hne
      refine .inr ⟨?_, hq⟩
      rintro rfl
      exact hne hq

theorem call (h : StoreInv history first s) {migrations : List (Script σ)}
    (hok : migrations <+: history) (hst : storeCall s p migrations = some s') :
    StoreInv history first s' := by
  unfold storeCall at hst
  split at hst
  · rename_i hpc
    obtain rfl := Option.some.inj hst
    exact h.moveOutside (by rw [hpc]; exact id) hok trivial
  · rename_i hpc
    obtain rfl := Option.some.inj hst
    exact h.moveOutside (by rw [hpc]; exact id) hok trivial
  · exact absurd hst (by simp)

/-- The caller's own transaction changes, or comes about while there is none. -/
theorem moveInside (h : StoreInv history first s) (halone : s.Alone p) {work : DbFile σ}
    {pc : OpenPc σ} {writer : Option ι} (hwriter : writer = none ∨ writer = some p) (hin : pc.inTx)
    (hc : CallOk history first s.file [(p, work)] p { s.calls p with pc := pc }) :
    StoreInv history first { s.setPc p pc with txs := [(p, work)], writer := writer } := by
  refine h.move (h.lists p) hc ?_ ?_ ?_
  · intro q hq w htxs
    exact absurd (halone.1 (q, w) (htxs ▸ List.mem_singleton_self _)) hq
  · intro tx htx
    exact .inl ⟨congrArg Prod.fst (List.mem_singleton.mp htx), hin⟩
  · intro q hq
    rcases hwriter with hnone | hsome
    · exact absurd (hnone.symm.trans hq) (by simp)
    · exact .inl ⟨(Option.some.inj (hsome.symm.trans hq)).symm, hin⟩

/-- **A statement of a script**, on the copy that the statements before it have made of the file. -/
theorem runStatement (h : StoreInv history first s) (halone : s.Alone p) {i : Nat}
    {work : DbFile σ} {done rest : Script σ} (hi : i = s.file.userVersion)
    (hlt : i < (s.calls p).migrations.length) (hscript : history.getD i [] = done ++ rest)
    (hdata : applyScript done s.file.data = some work.data)
    (hst : s.runStatement p i work rest = some s') : StoreInv history first s' := by
  cases rest with
  | nil =>
    rw [StoreState.runStatement, halone.write_eq] at hst
    obtain rfl := Option.some.inj hst
    refine h.moveInside halone (.inr rfl) trivial ⟨hi, hlt, _, rfl, rfl, ?_⟩
    rw [hscript, List.append_nil]
    exact hdata
  | cons statement rest =>
    have hscript' : history.getD i [] = (done ++ [statement]) ++ rest := by
      rw [hscript, List.append_assoc]
      rfl
    have hdone : applyScript (done ++ [statement]) s.file.data
        = applyStatement statement work.data := by
      rw [applyScript_append, hdata, Option.bind_some, applyScript_singleton]
    cases hstatement : applyStatement statement work.data with
    | some data =>
      obtain ⟨writer, hwriter, heq⟩ := halone.runStatement_eq i rest hstatement
      obtain rfl := Option.some.inj (heq.symm.trans hst)
      exact h.moveInside halone hwriter trivial
        ⟨hi, hlt, _, done ++ [statement], rfl, hscript', hdone.trans hstatement⟩
    | none =>
      have hfirst : first.userVersion ≤ i := hi ▸ h.first_le
      rw [runStatement_of_none hstatement] at hst
      obtain rfl := Option.some.inj hst
      refine h.abort ⟨hlt, hfirst, s.file.data, ?_, ?_⟩
      · rw [hi]
        exact h.data
      · rw [hscript', applyScript_append, hdone, hstatement, Option.bind_none]

/-- **The commit**: the file has one migration more. -/
theorem commitTx (h : StoreInv history first s) {i : Nat} {work : DbFile σ}
    (hpc : (s.calls p).pc = .commit i) (htxs : s.txs = [(p, work)]) :
    StoreInv history first { s.setPc p (nextMigration (s.calls p).migrations (i + 1)) with
      file := work, txs := [], writer := none, commits := s.commits ++ [i] } := by
  obtain ⟨hi, hlt, work', htxs', hv, hdata⟩ := h.callOk hpc
  obtain rfl : work = work' := (Prod.mk.inj (List.cons.inj (htxs.symm.trans htxs')).1).2
  have hlen : i < history.length := Nat.lt_of_lt_of_le hlt (h.lists p).length_le
  have hfirst : first.userVersion ≤ i := hi ▸ h.first_le
  have hle : s.file.userVersion ≤ work.userVersion := by omega
  constructor
  case commits =>
    dsimp only
    rw [List.length_append, List.length_singleton, List.range'_concat, ← h.commits, Nat.one_mul,
      ← h.version, ← hi]
  case version =>
    dsimp only
    rw [List.length_append, List.length_singleton, hv]
    have := h.version
    omega
  case data =>
    dsimp only
    rw [hv, migrationsBetween_succ hfirst hlen, applyScripts_append, hi, h.data, Option.bind_some,
      applyScripts_singleton, ← hi]
    exact hdata
  case lists =>
    intro q
    dsimp only [StoreState.setPc]
    rw [Function.update_apply]
    split
    · exact h.lists p
    · exact h.lists q
  case calls =>
    intro q
    dsimp only [StoreState.setPc]
    rw [Function.update_apply]
    split
    · rename_i hq
      exact callOk_nextMigration work (Nat.le_succ_of_le hfirst) (Nat.le_of_eq hv.symm)
    · rename_i hq
      refine (h.calls q).frame hle fun hin => ?_
      obtain ⟨w, hw⟩ := (h.calls q).owner hin
      exact absurd (Prod.mk.inj (List.cons.inj (htxs.symm.trans hw)).1).1.symm hq
  case owners => exact fun tx htx => absurd htx List.not_mem_nil
  case writer => exact fun q hq => absurd hq (by simp)

/-- **A statement of a call keeps the invariant**, if its transaction is up to date. -/
theorem advance (h : StoreInv history first s)
    (hok : ∀ i, (s.calls p).pc = .begun i → s.txs = [] ∧ s.file.userVersion = i)
    (hst : storeAdvance s p = some s') : StoreInv history first s' := by
  unfold storeAdvance at hst
  dsimp only at hst
  split at hst
  · rename_i hpc
    obtain rfl := Option.some.inj hst
    exact h.moveOutside (by rw [hpc]; exact id) (h.lists p) ⟨h.first_le, Nat.le_refl _⟩
  · rename_i v hpc
    have hout : ¬ (s.calls p).pc.inTx := by rw [hpc]; exact id
    obtain ⟨hfirst, hle⟩ := h.callOk hpc
    split at hst
    · rename_i hv
      obtain rfl := Option.some.inj hst
      have hret : (s.calls p).migrations.length ≤ s.file.userVersion := hv ▸ hle
      exact h.moveOutside hout (h.lists p) hret
    · split at hst
      · rename_i hv
        obtain rfl := Option.some.inj hst
        exact h.moveOutside hout (h.lists p) (Nat.lt_of_lt_of_le hv hle)
      · obtain rfl := Option.some.inj hst
        exact h.moveOutside hout (h.lists p) (callOk_nextMigration s.file hfirst hle)
  · rename_i i hpc
    obtain ⟨hlt, hfirst, hle⟩ := h.callOk hpc
    obtain rfl := Option.some.inj hst
    exact h.moveOutside (by rw [hpc]; exact id) (h.lists p) ⟨hlt, hfirst, hle⟩
  · rename_i i hpc
    obtain ⟨htxs, hversion⟩ := hok i hpc
    have hlt : i < (s.calls p).migrations.length := (h.callOk hpc).1
    -- the copy is the file, and the counter is the migration's index
    refine h.runStatement (h.alone_of_nil htxs) hversion.symm hlt ?_ (applyScript_nil _) hst
    rw [List.nil_append, getD_of_isPrefix (h.lists p) hlt]
  · rename_i i rest hpc
    have halone : s.Alone p := h.alone_of_inTx (by rw [hpc]; trivial)
    obtain ⟨hi, hlt, work, done, htxs, hdone, hdata⟩ := h.callOk hpc
    rw [htxs, List.lookup_cons_self, Option.bind_some] at hst
    exact h.runStatement halone hi hlt hdone hdata hst
  · rename_i i hpc
    have hin : (s.calls p).pc.inTx := by rw [hpc]; trivial
    obtain ⟨work, htxs⟩ := (h.calls p).owner hin
    rw [if_pos (h.alone_of_inTx hin).otherTxs_eq, htxs, List.lookup_cons_self,
      Option.map_some] at hst
    obtain rfl := Option.some.inj hst
    exact h.commitTx hpc htxs
  · exact absurd hst (by simp)
  · exact absurd hst (by simp)

theorem step (h : StoreInv history first s) {a : StoreAct ι σ} (hok : CounterCurrent history s a)
    (hst : storeStep s a = some s') : StoreInv history first s' := by
  have hends : ∀ {p : ι} {outcome : OpenOutcome}, outcome = .failed ∨ outcome = .died →
      storeAbort s p outcome = some s' → StoreInv history first s' := by
    intro p outcome ho he
    unfold storeAbort at he
    split at he
    · exact absurd he (by simp)
    · exact absurd he (by simp)
    · obtain rfl := Option.some.inj he
      refine h.abort ?_
      rcases ho with rfl | rfl <;> trivial
  cases a with
  | call p migrations => exact h.call hok hst
  | step p => exact h.advance hok hst
  | fail p => exact hends (Or.inl rfl) hst
  | die p => exact hends (Or.inr rfl) hst

end StoreInv

theorem storeInv_init (history : List (Script σ)) (first : DbFile σ) :
    StoreInv history first (storeInit first : StoreState ι σ) where
  commits := rfl
  version := rfl
  data := by
    dsimp only [storeInit]
    rw [migrationsBetween_self]
    rfl
  lists _ := List.nil_prefix
  calls _ := trivial
  owners _ htx := absurd htx List.not_mem_nil
  writer _ hq := absurd hq (by simp [storeInit])

/-- **The invariant holds after every run whose transactions are up to date.** -/
theorem storeInv_of_reach [DecidableEq ι] {s : StoreState ι σ}
    (hr : (storeSystem first).ReachVia (CounterCurrent history) s) :
    StoreInv history first s := by
  refine System.ReachVia.inv ?_ ?_ hr
  · rintro s rfl
    exact storeInv_init history first
  · intro s s' a h hok hst
    exact h.step hok hst

end TinyPilotKvm
