/-
# Opening the database, in turn and at once

* `migrations_survive`: calls one after the other, each of which may be cut short anywhere.  The
  file is always that of a prefix of the migrations, and a later call brings it to where a single
  call would have brought it.
* `concurrent_opening`: calls that overlap.  While every transaction comes about alone and with the
  counter it is meant for, each script is committed once and no call fails because of another.
  `migration_applied_twice` is what happens otherwise.

Between the two levels stands `opens_createOrOpen`: the statements of a call that nothing
interrupts do what the function `createOrOpen` says, and `createOrOpen_resume` is then about the
function alone.
-/
import Mathlib.Logic.Relation
import TinyPilotKvm.App.Db.StoreRuns

namespace TinyPilotKvm

variable {ι σ : Type}

/-! ## 1. A call alone -/

section Alone

variable [DecidableEq ι]

/-- The call is not under way. -/
def OpenPc.ended : OpenPc σ → Prop
  | .idle => True
  | .done _ => True
  | _ => False

/-- Nobody is inside a call. -/
def StoreState.quiet (s : StoreState ι σ) : Prop := ∀ p, (s.calls p).pc.ended

/-- The statements of `p`, one after the other and without a failure from outside, lead from `s`
to `s'`. -/
def Advances (p : ι) : StoreState ι σ → StoreState ι σ → Prop :=
  Relation.ReflTransGen fun s s' => storeStep s (.step p) = some s'

/-- `p` calls `create_or_open` and nothing interrupts it: how the call ends and what it leaves. -/
def Opens (s : StoreState ι σ) (p : ι) (migrations : List (Script σ)) (outcome : OpenOutcome)
    (file : DbFile σ) : Prop :=
  ∃ s1 s2, storeStep s (.call p migrations) = some s1 ∧ Advances p s1 s2 ∧
    (s2.calls p).pc = .done outcome ∧ s2.file = file

/-- Where the call of `p` is, and what SQLite has. -/
def At (p : ι) (migrations : List (Script σ)) (pc : OpenPc σ) (file : DbFile σ)
    (txs : List (ι × DbFile σ)) (s : StoreState ι σ) : Prop :=
  s.calls p = ⟨migrations, pc⟩ ∧ s.file = file ∧ s.txs = txs ∧ s.Alone p

variable {s : StoreState ι σ} {p : ι} {migrations : List (Script σ)} {i : Nat}
  {file work : DbFile σ}

theorem At.step {pc pc' : OpenPc σ} {file' : DbFile σ} {txs txs' : List (ι × DbFile σ)}
    (h : At p migrations pc file txs s) (s1 : StoreState ι σ) (hst : storeAdvance s p = some s1)
    (hcalls : s1.calls = Function.update s.calls p { s.calls p with pc := pc' })
    (hfile : s1.file = file') (htxs : s1.txs = txs') (halone : s1.Alone p) :
    ∃ s1, Advances p s s1 ∧ At p migrations pc' file' txs' s1 := by
  refine ⟨s1, .single hst, ?_, hfile, htxs, halone⟩
  rw [hcalls, Function.update_self, h.1]

/-- The next statement of a script runs on the transaction's copy. -/
theorem At.runs {rest : Script σ} (h : At p migrations (.script i rest) file [(p, work)] s) :
    storeAdvance s p = s.runStatement p i work rest := by
  obtain ⟨hc, -, ht, -⟩ := h
  simp only [storeAdvance, hc, ht, List.lookup_cons_self, Option.bind_some]

/-- The first statement runs on the file. -/
theorem At.runsFirst (h : At p migrations (.begun i) file [] s) :
    storeAdvance s p = s.runStatement p i file (migrations.getD i []) := by
  obtain ⟨hc, rfl, -⟩ := h
  simp only [storeAdvance, hc]

/-- `BEGIN`. -/
theorem At.begin (h : At p migrations (.begin i) file [] s) :
    ∃ s1, Advances p s s1 ∧ At p migrations (.begun i) file [] s1 := by
  refine h.step (s.setPc p (.begun i)) ?_ rfl h.2.1 h.2.2.1 h.2.2.2
  simp only [storeAdvance, h.1]

/-- The commit. -/
theorem At.commit {work : DbFile σ} (h : At p migrations (.commit i) file [(p, work)] s) :
    ∃ s1, Advances p s s1 ∧ At p migrations (nextMigration migrations (i + 1)) work [] s1 := by
  obtain ⟨hc, hf, htxs, halone⟩ := h
  refine At.step ⟨hc, hf, htxs, halone⟩ _ (halone.commit_eq (congrArg OpenCall.pc hc) htxs) ?_ rfl
    rfl ⟨fun tx htx => absurd htx List.not_mem_nil, .inl rfl⟩
  dsimp only [StoreState.setPc]
  rw [hc]

/-- **A script and its commit**, from the statement that comes next.  The transaction has not come
about if that is the first one. -/
theorem At.script (rest : Script σ) : ∀ {s : StoreState ι σ} {pc : OpenPc σ} {work : DbFile σ}
    {txs : List (ι × DbFile σ)}, At p migrations pc file txs s →
      storeAdvance s p = s.runStatement p i work rest →
      (∀ data, applyScript rest work.data = some data → ∃ s1, Advances p s s1 ∧
        At p migrations (nextMigration migrations (i + 1)) ⟨data, i + 1⟩ [] s1) ∧
      (applyScript rest work.data = none → ∃ s1, Advances p s s1 ∧
        At p migrations (.done (.scriptError i)) file [] s1) := by
  induction rest with
  | nil =>
    intro s pc work txs h hst
    have hpragma : ∃ s1, Advances p s s1 ∧
        At p migrations (.commit i) file [(p, { work with userVersion := i + 1 })] s1 := by
      rw [StoreState.runStatement, h.2.2.2.write_eq] at hst
      exact h.step _ hst rfl h.2.1 rfl (.own (.inr rfl) _ _)
    constructor
    · intro data hdata
      obtain rfl := Option.some.inj hdata
      obtain ⟨s1, hadv1, hat1⟩ := hpragma
      obtain ⟨s2, hadv2, hat2⟩ := hat1.commit
      exact ⟨s2, hadv1.trans hadv2, hat2⟩
    · intro hdata
      exact absurd hdata (by simp [applyScript_nil])
  | cons statement rest ih =>
    intro s pc work txs h hst
    have hcons : applyScript (statement :: rest) work.data
        = (applyStatement statement work.data).bind (applyScript rest) := by
      rw [← applyScript_singleton statement, ← applyScript_append]
      rfl
    rw [hcons]
    cases hstatement : applyStatement statement work.data with
    | none =>
      rw [Option.bind_none]
      rw [runStatement_of_none hstatement] at hst
      exact ⟨fun data hdata => absurd hdata (by simp),
        fun _ => h.step _ hst rfl h.2.1 h.2.2.2.otherTxs_eq h.2.2.2.abort⟩
    | some data1 =>
      rw [Option.bind_some]
      have hnext : ∃ s1, Advances p s s1 ∧ At p migrations (.script i rest) file
          [(p, { work with data := data1 })] s1 := by
        obtain ⟨writer, hwriter, heq⟩ := h.2.2.2.runStatement_eq i rest hstatement
        exact h.step _ (hst.trans heq) rfl h.2.1 rfl (.own hwriter _ _)
      obtain ⟨s1, hadv, hat⟩ := hnext
      obtain ⟨hsome, hnone⟩ := ih hat hat.runs
      constructor
      · intro data hdata
        obtain ⟨s2, hadv2, hat2⟩ := hsome data hdata
        exact ⟨s2, hadv.trans hadv2, hat2⟩
      · intro hdata
        obtain ⟨s2, hadv2, hat2⟩ := hnone hdata
        exact ⟨s2, hadv.trans hadv2, hat2⟩

/-- **The loop over the migrations.** -/
theorem At.pending (pending : List (Script σ)) : ∀ {i : Nat} {s : StoreState ι σ} (data : σ),
    migrations.drop i = pending → At p migrations (nextMigration migrations i) ⟨data, i⟩ [] s →
      ∃ s1, Advances p s s1 ∧ At p migrations (.done (applyPending i pending ⟨data, i⟩).1)
        (applyPending i pending ⟨data, i⟩).2 [] s1 := by
  induction pending with
  | nil =>
    intro i s data hdrop h
    have hlen : migrations.length ≤ i := List.drop_eq_nil_iff.mp hdrop
    rw [nextMigration, if_neg (Nat.not_lt.mpr hlen)] at h
    exact ⟨s, .refl, h⟩
  | cons script pending ih =>
    intro i s data hdrop h
    have hlt : i < migrations.length := by
      by_contra hge
      rw [List.drop_eq_nil_of_le (Nat.le_of_not_lt hge)] at hdrop
      exact absurd hdrop (by simp)
    rw [List.drop_eq_getElem_cons hlt] at hdrop
    obtain ⟨hscript, hrest⟩ := List.cons.inj hdrop
    rw [nextMigration, if_pos hlt] at h
    obtain ⟨s1, hadv1, hat1⟩ := h.begin
    have hst := hat1.runsFirst
    rw [List.getD_eq_getElem _ _ hlt, hscript] at hst
    obtain ⟨hsome, hnone⟩ := At.script script hat1 hst
    cases happly : applyScript script data with
    | none =>
      obtain ⟨s2, hadv2, hat2⟩ := hnone happly
      refine ⟨s2, hadv1.trans hadv2, ?_⟩
      rw [applyPending, happly]
      exact hat2
    | some data1 =>
      obtain ⟨s2, hadv2, hat2⟩ := hsome data1 happly
      obtain ⟨s3, hadv3, hat3⟩ := ih data1 hrest hat2
      refine ⟨s3, (hadv1.trans hadv2).trans hadv3, ?_⟩
      rw [applyPending, happly]
      exact hat3

/-- **A call that nothing interrupts does what `createOrOpen` says.** -/
theorem opens_createOrOpen (hquiet : s.quiet) (htxs : s.txs = []) (halone : s.Alone p)
    (migrations : List (Script σ)) :
    Opens s p migrations (createOrOpen migrations s.file).1 (createOrOpen migrations s.file).2 := by
  have hcall : ∃ s1, storeStep s (.call p migrations) = some s1 ∧
      At p migrations .readCounter s.file [] s1 := by
    refine ⟨{ s with calls := Function.update s.calls p ⟨migrations, .readCounter⟩ }, ?_,
      Function.update_self _ _ _, rfl, htxs, halone⟩
    have hended := hquiet p
    cases hpc : (s.calls p).pc with
    | idle => simp only [storeStep, storeCall, hpc]
    | done outcome => simp only [storeStep, storeCall, hpc]
    | readCounter | compare | begin | begun | script | commit =>
      rw [hpc] at hended
      exact hended.elim
  obtain ⟨s1, hst1, hat1⟩ := hcall
  have hread : ∃ s2, Advances p s1 s2 ∧
      At p migrations (.compare s.file.userVersion) s.file [] s2 := by
    refine hat1.step (s1.setPc p (.compare s.file.userVersion)) ?_ rfl hat1.2.1 hat1.2.2.1
      hat1.2.2.2
    simp only [storeAdvance, hat1.1, hat1.2.1]
  obtain ⟨s2, hadv2, hat2⟩ := hread
  have hc2 := hat2.1
  have hnext : ∀ pc, storeAdvance s2 p = some (s2.setPc p pc) →
      ∃ s3, Advances p s2 s3 ∧ At p migrations pc s.file [] s3 :=
    fun pc he => hat2.step _ he rfl hat2.2.1 hat2.2.2.1 hat2.2.2.2
  have hends : ∀ {s3 : StoreState ι σ} {outcome : OpenOutcome} {file : DbFile σ},
      Advances p s2 s3 → At p migrations (.done outcome) file [] s3 →
        Opens s p migrations outcome file := by
    intro s3 outcome file hadv hat
    exact ⟨s1, s3, hst1, hadv2.trans hadv, congrArg OpenCall.pc hat.1, hat.2.1⟩
  unfold createOrOpen
  split
  · rename_i heq
    obtain ⟨s3, hadv, hat⟩ := hnext (.done .returned) (by simp only [storeAdvance, hc2, if_pos heq])
    exact hends hadv hat
  · rename_i hne
    split
    · rename_i hgt
      obtain ⟨s3, hadv, hat⟩ := hnext (.done .incompatible)
        (by simp only [storeAdvance, hc2, if_neg hne, if_pos hgt])
      exact hends hadv hat
    · rename_i hle
      obtain ⟨s3, hadv, hat⟩ := hnext (nextMigration migrations s.file.userVersion)
        (by simp only [storeAdvance, hc2, if_neg hne, if_neg hle])
      obtain ⟨s4, hadv4, hat4⟩ := At.pending _ s.file.data rfl hat
      exact hends (hadv.trans hadv4) hat4

end Alone

/-- **The loop picks up where the migrations so far have led.** -/
theorem applyPending_resume {migrations : List (Script σ)} {first : DbFile σ} (k : Nat) :
    ∀ {data : σ}, first.userVersion + k ≤ migrations.length →
      applyScripts (migrationsBetween migrations first.userVersion
        (first.userVersion + k)) first.data
        = some data →
      applyPending first.userVersion (migrations.drop first.userVersion) first
        = applyPending (first.userVersion + k) (migrations.drop (first.userVersion + k))
          ⟨data, first.userVersion + k⟩ := by
  induction k with
  | zero =>
    intro data hlen hdata
    rw [Nat.add_zero, migrationsBetween_self] at hdata
    obtain rfl := Option.some.inj hdata
    rfl
  | succ k ih =>
    intro data hlen hdata
    have hlt : first.userVersion + k < migrations.length := by omega
    rw [← Nat.add_assoc, migrationsBetween_succ (Nat.le_add_right _ _) hlt,
      applyScripts_append] at hdata
    obtain ⟨data1, hdata1, hlast⟩ := Option.bind_eq_some_iff.mp hdata
    rw [applyScripts_singleton, List.getD_eq_getElem _ _ hlt] at hlast
    rw [ih (Nat.le_of_lt hlt) hdata1, List.drop_eq_getElem_cons hlt, applyPending, hlast]
    rfl

/-- From a file that some of the migrations have reached, a call ends where it would have ended
from the first file. -/
theorem createOrOpen_resume {migrations : List (Script σ)} {first file : DbFile σ}
    (hfirst : first.userVersion ≤ file.userVersion) (hlen : file.userVersion ≤ migrations.length)
    (hdata : applyScripts
      (migrationsBetween migrations first.userVersion file.userVersion) first.data
      = some file.data) : createOrOpen migrations file = createOrOpen migrations first := by
  have hpending : ∀ f : DbFile σ, f.userVersion ≤ migrations.length →
      createOrOpen migrations f
        = applyPending f.userVersion (migrations.drop f.userVersion) f := by
    intro f hf
    unfold createOrOpen
    split
    · rename_i heq
      rw [heq, List.drop_length]
      rfl
    · rw [if_neg (by omega)]
  obtain ⟨k, hk⟩ := Nat.exists_eq_add_of_le hfirst
  rw [hpending file hlen, hpending first (Nat.le_trans hfirst hlen)]
  rw [hk] at hdata hlen
  rw [applyPending_resume k hlen hdata, hk, ← hk]

/-! ## 2. Calls one after the other -/

/-- Calls do not overlap. -/
def OneAtATime (history : List (Script σ)) (s : StoreState ι σ) : StoreAct ι σ → Prop
  | .call _ migrations => migrations <+: history ∧ s.quiet
  | _ => True

/-- The counter that a call goes by, outside of transactions. -/
def OpenPc.expects : OpenPc σ → Option Nat
  | .compare v | .begin v | .begun v => some v
  | _ => none

/-- A statement of a script changes where its own call is, and leaves the file alone. -/
theorem runStatement_leads [DecidableEq ι] {s s' : StoreState ι σ} {p : ι} {i : Nat}
    {work : DbFile σ} {rest : Script σ} (hst : s.runStatement p i work rest = some s') :
    ∃ pc : OpenPc σ, s'.calls = Function.update s.calls p { s.calls p with pc := pc } ∧
      pc.expects = none ∧ s'.file = s.file := by
  have hwrite : ∀ {work : DbFile σ} {pc : OpenPc σ}, pc.expects = none →
      s.write p work pc = some s' →
      ∃ pc : OpenPc σ, s'.calls = Function.update s.calls p { s.calls p with pc := pc } ∧
        pc.expects = none ∧ s'.file = s.file := by
    intro work pc hpc he
    unfold StoreState.write at he
    split at he
    · obtain rfl := Option.some.inj he
      exact ⟨pc, rfl, hpc, rfl⟩
    · split at he
      · obtain rfl := Option.some.inj he
        exact ⟨.done .locked, rfl, rfl, rfl⟩
      · exact absurd he (by simp)
  unfold StoreState.runStatement at hst
  split at hst
  · split at hst
    · obtain rfl := Option.some.inj hst
      exact ⟨_, rfl, rfl, rfl⟩
    · obtain rfl := Option.some.inj hst
      exact ⟨_, rfl, rfl, rfl⟩
    · exact hwrite rfl hst
  · exact hwrite rfl hst

/-- At most one call is under way, and the counter is the one that it goes by. -/
def Solo (s : StoreState ι σ) : Prop :=
  ∀ p, ¬ (s.calls p).pc.ended → (∀ q, q ≠ p → (s.calls q).pc.ended) ∧
    ∀ v, (s.calls p).pc.expects = some v → s.file.userVersion = v

namespace Solo

variable [DecidableEq ι] {s s' : StoreState ι σ} {p : ι}

theorem of (hothers : ∀ q, q ≠ p → (s'.calls q).pc.ended)
    (hp : ∀ v, (s'.calls p).pc.expects = some v → s'.file.userVersion = v) :
    Solo s' := by
  intro q hq
  by_cases hqp : q = p
  · subst hqp
    exact ⟨hothers, hp⟩
  · exact absurd (hothers q hqp) hq

/-- A step of the only call. -/
theorem update (h : Solo s) (hin : ¬ (s.calls p).pc.ended) {c : OpenCall σ}
    (hcalls : s'.calls = Function.update s.calls p c)
    (hp : ∀ v, c.pc.expects = some v → s'.file.userVersion = v) : Solo s' := by
  refine of (p := p) (fun q hq => ?_) ?_
  · rw [hcalls, Function.update_of_ne hq]
    exact (h p hin).1 q hq
  · rw [hcalls, Function.update_self]
    exact hp

/-- The migration that comes next is the one of the counter. -/
theorem expects_nextMigration {migrations : List (Script σ)} {i v : Nat}
    (h : (nextMigration migrations i).expects = some v) : i = v := by
  unfold nextMigration at h
  split at h
  · exact Option.some.inj h
  · exact absurd h (by simp [OpenPc.expects])

/-- A statement of a script leaves nothing to expect. -/
theorem runStatement (h : Solo s) (hin : ¬ (s.calls p).pc.ended) {i : Nat} {work : DbFile σ}
    {rest : Script σ} (hst : s.runStatement p i work rest = some s') : Solo s' := by
  obtain ⟨pc, hcalls, hpc, -⟩ := runStatement_leads hst
  exact h.update hin hcalls fun v hv => absurd (hpc.symm.trans hv) (by simp)

theorem advance (h : Solo s) {first : DbFile σ} {history : List (Script σ)}
    (hI : StoreInv history first s) (hst : storeAdvance s p = some s') : Solo s' := by
  unfold storeAdvance at hst
  dsimp only at hst
  split at hst
  · rename_i hpc
    obtain rfl := Option.some.inj hst
    exact h.update (by rw [hpc]; exact id) rfl fun v hv => Option.some.inj hv
  · rename_i v hpc
    have hin : ¬ (s.calls p).pc.ended := by rw [hpc]; exact id
    split at hst
    · obtain rfl := Option.some.inj hst
      exact h.update hin rfl (by simp [OpenPc.expects])
    · split at hst
      · obtain rfl := Option.some.inj hst
        exact h.update hin rfl (by simp [OpenPc.expects])
      · obtain rfl := Option.some.inj hst
        refine h.update hin rfl fun w hw => ?_
        exact ((h p hin).2 v (by rw [hpc]; rfl)).trans (expects_nextMigration hw)
  · rename_i i hpc
    have hin : ¬ (s.calls p).pc.ended := by rw [hpc]; exact id
    obtain rfl := Option.some.inj hst
    refine h.update hin rfl fun v hv => ?_
    exact ((h p hin).2 i (by rw [hpc]; rfl)).trans (Option.some.inj hv)
  · rename_i i hpc
    exact h.runStatement (by rw [hpc]; exact id) hst
  · rename_i i rest hpc
    obtain ⟨work, -, hrun⟩ := Option.bind_eq_some_iff.mp hst
    exact h.runStatement (by rw [hpc]; exact id) hrun
  · rename_i i hpc
    have halone : s.Alone p := hI.alone_of_inTx (by rw [hpc]; trivial)
    obtain ⟨-, -, work, htxs, hv, -⟩ := hI.callOk hpc
    rw [if_pos halone.otherTxs_eq, htxs, List.lookup_cons_self, Option.map_some] at hst
    obtain rfl := Option.some.inj hst
    exact h.update (by rw [hpc]; exact id) rfl fun w hw => hv.trans (expects_nextMigration hw)
  · exact absurd hst (by simp)
  · exact absurd hst (by simp)

theorem abort (h : Solo s) {outcome : OpenOutcome} (hst : storeAbort s p outcome = some s') :
    Solo s' := by
  unfold storeAbort at hst
  split at hst
  · exact absurd hst (by simp)
  · exact absurd hst (by simp)
  · rename_i hidle hdone
    obtain rfl := Option.some.inj hst
    refine h.update (fun hend => ?_) rfl (by simp [OpenPc.expects])
    cases hpc : (s.calls p).pc with
    | idle => exact hidle hpc
    | done outcome => exact hdone outcome hpc
    | readCounter | compare | begin | begun | script | commit =>
      rw [hpc] at hend
      exact hend.elim

end Solo

theorem OpenPc.ended.not_inTx {pc : OpenPc σ} (h : pc.ended) : ¬ pc.inTx := by
  cases pc with
  | idle | done => exact id
  | readCounter | compare | begin | begun | script | commit => exact h.elim

/-- With nobody inside a transaction there is none. -/
theorem StoreInv.txs_of_outside {history : List (Script σ)} {first : DbFile σ}
    {s : StoreState ι σ} (h : StoreInv history first s) (hout : ∀ p, ¬ (s.calls p).pc.inTx) :
    s.txs = [] :=
  List.eq_nil_iff_forall_not_mem.mpr fun tx htx => hout tx.1 (h.owners tx htx)

/-- **Calls that do not overlap find the file unlocked, and the counter where they have left
it.** -/
theorem counterCurrent_of_oneAtATime [DecidableEq ι] {history : List (Script σ)} {first : DbFile σ}
    {s : StoreState ι σ} (hr : (storeSystem first).ReachVia (OneAtATime history) s) :
    (storeSystem first).ReachVia (CounterCurrent history) s ∧ Solo s := by
  induction hr with
  | start hs =>
    refine ⟨.start hs, ?_⟩
    obtain rfl : _ = storeInit first := hs
    exact fun p hp => absurd trivial hp
  | @step s s' a _ hok hst ih =>
    obtain ⟨hr, hsolo⟩ := ih
    have hI := storeInv_of_reach hr
    cases a with
    | call p migrations =>
      refine ⟨.step (a := .call p migrations) hr hok.1 hst, ?_⟩
      have hcalls : s'.calls = Function.update s.calls p ⟨migrations, .readCounter⟩ := by
        simp only [storeSystem, storeStep, storeCall] at hst
        split at hst
        · exact (congrArg StoreState.calls (Option.some.inj hst)).symm
        · exact (congrArg StoreState.calls (Option.some.inj hst)).symm
        · exact absurd hst (by simp)
      refine Solo.of (p := p) (fun q hq => ?_) ?_
      · rw [hcalls, Function.update_of_ne hq]
        exact hok.2 q
      · rw [hcalls, Function.update_self]
        simp [OpenPc.expects]
    | step p =>
      refine ⟨.step (a := .step p) hr (fun i hpc => ?_) hst, hsolo.advance hI hst⟩
      obtain ⟨hothers, hexpects⟩ := hsolo p (by rw [hpc]; exact id)
      refine ⟨hI.txs_of_outside fun q => ?_, hexpects i (by rw [hpc]; rfl)⟩
      by_cases hq : q = p
      · rw [hq, hpc]
        exact id
      · exact (hothers q hq).not_inTx
    | fail p => exact ⟨.step (a := .fail p) hr trivial hst, hsolo.abort hst⟩
    | die p => exact ⟨.step (a := .die p) hr trivial hst, hsolo.abort hst⟩

/-- **Migrations survive any interruption.**  Whatever calls there have been, one after the other,
by versions of the app whose scripts extend each other, and wherever they were cut short:

* the counter has grown by the number of migrations committed, which are the next ones in order, and
  the data is what exactly those make of the first data;
* a call with as many scripts or more ends as it would have ended on the first file, and
  leaves the file that it would have left there;
* a call with fewer scripts than the counter says fails and leaves the file as it is. -/
theorem migrations_survive [DecidableEq ι] {history : List (Script σ)} {first : DbFile σ}
    {s : StoreState ι σ} (hr : (storeSystem first).ReachVia (OneAtATime history) s) :
    (s.file.userVersion = first.userVersion + s.commits.length ∧
      s.commits = List.range' first.userVersion s.commits.length ∧
      applyScripts (migrationsBetween history first.userVersion s.file.userVersion) first.data
        = some s.file.data ∧
      ∀ data, applyScripts (history.take first.userVersion) data = some first.data →
        applyScripts (history.take s.file.userVersion) data = some s.file.data) ∧
      (∀ migrations p, migrations <+: history → s.quiet → s.file.userVersion ≤ migrations.length →
        ∃ outcome file, Opens s p migrations outcome file ∧
          Opens (storeInit first) p migrations outcome file) ∧
      ∀ migrations p, s.quiet → migrations.length < s.file.userVersion →
        Opens s p migrations .incompatible s.file := by
  have h := storeInv_of_reach (counterCurrent_of_oneAtATime hr).1
  have hle := h.first_le
  have htxs : s.quiet → s.txs = [] := fun hquiet => h.txs_of_outside fun p => (hquiet p).not_inTx
  refine ⟨⟨h.version, h.commits, h.data, fun data hdata => ?_⟩, ?_, ?_⟩
  · have hsplit : history.take s.file.userVersion = history.take first.userVersion
        ++ migrationsBetween history first.userVersion s.file.userVersion := by
      have htake := List.take_append_drop first.userVersion (history.take s.file.userVersion)
      rw [List.take_take, Nat.min_eq_left hle] at htake
      exact htake.symm
    rw [hsplit, applyScripts_append, hdata]
    exact h.data
  · intro migrations p hprefix hquiet hlen
    have hbetween : migrationsBetween migrations first.userVersion s.file.userVersion
        = migrationsBetween history first.userVersion s.file.userVersion := by
      obtain ⟨rest, rfl⟩ := hprefix
      unfold migrationsBetween
      rw [List.take_append_of_le_length hlen]
    have hsame : createOrOpen migrations s.file = createOrOpen migrations first :=
      createOrOpen_resume hle hlen (by rw [hbetween]; exact h.data)
    have hfresh := opens_createOrOpen (s := (storeInit first : StoreState ι σ)) (p := p)
      (fun _ => trivial) rfl ((storeInv_init history first).alone_of_nil rfl) migrations
    refine ⟨_, _, opens_createOrOpen hquiet (htxs hquiet) (h.alone_of_nil (htxs hquiet))
      migrations, ?_⟩
    rw [hsame]
    exact hfresh
  · intro migrations p hquiet hlt
    have hopens := opens_createOrOpen (p := p) hquiet (htxs hquiet)
      (h.alone_of_nil (htxs hquiet)) migrations
    unfold createOrOpen at hopens
    rw [if_neg (by omega), if_pos hlt] at hopens
    exact hopens

/-- `CREATE TABLE` with a table of that name: it fails if there is one already. -/
def createTable (table : Nat) (tables : List Nat) : Option (Option (List Nat)) :=
  if table ∈ tables then none else some (some (tables ++ [table]))

/-- The process dies inside the first migration; a later version of the app applies both. -/
theorem migrations_survive_death :
    ∃ s : StoreState Unit (List Nat), s.file.userVersion = 0 + s.commits.length ∧
      ∃ outcome file, Opens s () [[createTable 1], [createTable 2]] outcome file ∧
        Opens (storeInit ⟨[], 0⟩) () [[createTable 1], [createTable 2]] outcome file := by
  have h0 : (storeSystem ⟨[], 0⟩).ReachVia (OneAtATime [[createTable 1], [createTable 2]])
      (storeInit ⟨[], 0⟩ : StoreState Unit (List Nat)) := .start rfl
  have h1 := h0.step (a := StoreAct.call () [[createTable 1]])
    ⟨⟨[[createTable 2]], rfl⟩, fun _ => trivial⟩ rfl
  have h2 := h1.step (a := StoreAct.step ()) trivial rfl
  have h3 := h2.step (a := StoreAct.step ()) trivial rfl
  have h4 := h3.step (a := StoreAct.step ()) trivial rfl
  have h5 := h4.step (a := StoreAct.step ()) trivial rfl
  have h6 := h5.step (a := StoreAct.die ()) trivial rfl
  obtain ⟨⟨hversion, -⟩, hlater, -⟩ := migrations_survive h6
  exact ⟨_, hversion, hlater _ () List.prefix_rfl (fun _ => trivial) (Nat.zero_le _)⟩

/-! ## 3. Calls at once -/

/-- All processes have the same scripts, and a transaction for migration `i` comes about while there
is no other and the counter is `i`: no other call has committed a migration since this one has last
looked, nor is it about to.  With its `BEGIN` a transaction has not come about, so what counts is
the first statement behind it. -/
def BeginsCurrent (migrations : List (Script σ)) (s : StoreState ι σ) : StoreAct ι σ → Prop
  | .call _ migrations' => migrations' = migrations
  | .step p => ∀ i, (s.calls p).pc = .begun i → s.txs = [] ∧ s.file.userVersion = i
  | _ => True

section Concurrent

variable [DecidableEq ι] {migrations : List (Script σ)} {first : DbFile σ} {s s' : StoreState ι σ}

theorem storeInv_of_beginsCurrent
    (hr : (storeSystem first).ReachVia (BeginsCurrent migrations) s) :
    StoreInv migrations first s := by
  refine storeInv_of_reach (hr.mono ?_)
  intro s a hok
  cases a with
  | call p migrations' => exact hok ▸ List.prefix_rfl
  | step p => exact hok
  | fail p => trivial
  | die p => trivial

/-- A statement changes where its own call is, and of the file only a commit changes anything. -/
theorem storeAdvance_cases {p : ι} (hst : storeAdvance s p = some s') :
    (s.calls p).pc ≠ .idle ∧
      (∃ pc, s'.calls = Function.update s.calls p { s.calls p with pc := pc }) ∧
      (s'.file = s.file ∨
        ∃ i work, (s.calls p).pc = .commit i ∧ s.txs.lookup p = some work ∧ s'.file = work) := by
  have hruns : ∀ {i : Nat} {work : DbFile σ} {rest : Script σ},
      s.runStatement p i work rest = some s' →
      (∃ pc, s'.calls = Function.update s.calls p { s.calls p with pc := pc }) ∧
        s'.file = s.file := by
    intro i work rest he
    obtain ⟨pc, hcalls, -, hfile⟩ := runStatement_leads he
    exact ⟨⟨pc, hcalls⟩, hfile⟩
  have hidle : (s.calls p).pc ≠ .idle := by
    intro hpc
    simp only [storeAdvance, hpc] at hst
    exact absurd hst (by simp)
  refine ⟨hidle, ?_⟩
  cases hpc : (s.calls p).pc with
  | idle => exact absurd hpc hidle
  | done outcome =>
    simp only [storeAdvance, hpc] at hst
    exact absurd hst (by simp)
  | readCounter | begin =>
    simp only [storeAdvance, hpc] at hst
    obtain rfl := Option.some.inj hst
    exact ⟨⟨_, rfl⟩, Or.inl rfl⟩
  | compare v =>
    simp only [storeAdvance, hpc] at hst
    split at hst
    · obtain rfl := Option.some.inj hst
      exact ⟨⟨_, rfl⟩, Or.inl rfl⟩
    · split at hst
      · obtain rfl := Option.some.inj hst
        exact ⟨⟨_, rfl⟩, Or.inl rfl⟩
      · obtain rfl := Option.some.inj hst
        exact ⟨⟨_, rfl⟩, Or.inl rfl⟩
  | begun i =>
    simp only [storeAdvance, hpc] at hst
    exact (hruns hst).imp_right Or.inl
  | script i rest =>
    simp only [storeAdvance, hpc] at hst
    obtain ⟨work, -, hrun⟩ := Option.bind_eq_some_iff.mp hst
    exact (hruns hrun).imp_right Or.inl
  | commit i =>
    simp only [storeAdvance, hpc] at hst
    split at hst
    · obtain ⟨work, hwork, rfl⟩ := Option.map_eq_some_iff.mp hst
      exact ⟨⟨_, rfl⟩, Or.inr ⟨i, work, rfl, hwork, rfl⟩⟩
    · exact absurd hst (by simp)

/-- Every process that has been called has the same scripts. -/
theorem migrations_of_beginsCurrent
    (hr : (storeSystem first).ReachVia (BeginsCurrent migrations) s) :
    ∀ p, (s.calls p).pc = .idle ∨ (s.calls p).migrations = migrations := by
  have hupdate : ∀ {s : StoreState ι σ} {p : ι} {c : OpenCall σ},
      (∀ p, (s.calls p).pc = .idle ∨ (s.calls p).migrations = migrations) →
      c.migrations = migrations → ∀ q, (Function.update s.calls p c q).pc = .idle ∨
        (Function.update s.calls p c q).migrations = migrations := by
    intro s p c h hc q
    rw [Function.update_apply]
    split
    · exact Or.inr hc
    · exact h q
  have habort : ∀ {s s' : StoreState ι σ} {p : ι} {outcome : OpenOutcome},
      (∀ p, (s.calls p).pc = .idle ∨ (s.calls p).migrations = migrations) →
      storeAbort s p outcome = some s' →
      ∀ q, (s'.calls q).pc = .idle ∨ (s'.calls q).migrations = migrations := by
    intro s s' p outcome h hst
    unfold storeAbort at hst
    split at hst
    · exact absurd hst (by simp)
    · exact absurd hst (by simp)
    · rename_i hidle _
      obtain rfl := Option.some.inj hst
      exact hupdate h ((h p).resolve_left hidle)
  refine System.ReachVia.inv
    (I := fun s => ∀ p, (s.calls p).pc = .idle ∨ (s.calls p).migrations = migrations) ?_ ?_ hr
  · rintro s rfl p
    exact Or.inl rfl
  · intro s s' a h hok hst
    cases a with
    | call p migrations' =>
      simp only [storeSystem, storeStep, storeCall] at hst
      split at hst
      · obtain rfl := Option.some.inj hst
        exact hupdate h hok
      · obtain rfl := Option.some.inj hst
        exact hupdate h hok
      · exact absurd hst (by simp)
    | step p =>
      obtain ⟨hidle, ⟨pc, hcalls⟩, -⟩ := storeAdvance_cases hst
      rw [hcalls]
      exact hupdate h ((h p).resolve_left hidle)
    | fail p => exact habort h hst
    | die p => exact habort h hst

/-- The counter after a step: it is as before, or one commit further. -/
theorem StoreInv.version_step (h : StoreInv migrations first s) {a : StoreAct ι σ}
    (hst : storeStep s a = some s') : s'.file.userVersion = s.file.userVersion ∨
      s'.file.userVersion = s.file.userVersion + 1 ∧ s.file.userVersion < migrations.length := by
  have habort : ∀ {p : ι} {outcome : OpenOutcome}, storeAbort s p outcome = some s' →
      s'.file.userVersion = s.file.userVersion := by
    intro p outcome he
    unfold storeAbort at he
    split at he
    · exact absurd he (by simp)
    · exact absurd he (by simp)
    · exact (congrArg (·.file.userVersion) (Option.some.inj he)).symm
  cases a with
  | call p migrations' =>
    simp only [storeStep, storeCall] at hst
    split at hst
    · exact Or.inl (congrArg (·.file.userVersion) (Option.some.inj hst)).symm
    · exact Or.inl (congrArg (·.file.userVersion) (Option.some.inj hst)).symm
    · exact absurd hst (by simp)
  | step p =>
    obtain ⟨-, -, hfile⟩ := storeAdvance_cases hst
    rcases hfile with hfile | ⟨i, work, hpc, hwork, hfile⟩
    · exact Or.inl (congrArg DbFile.userVersion hfile)
    · obtain ⟨hi, hlt, work', htxs, hv, -⟩ := h.callOk hpc
      rw [htxs, List.lookup_cons_self] at hwork
      obtain rfl := Option.some.inj hwork
      refine Or.inr ⟨?_, ?_⟩
      · rw [hfile, hv, hi]
      · rw [← hi]
        exact Nat.lt_of_lt_of_le hlt (h.lists p).length_le
  | fail p => exact Or.inl (habort hst)
  | die p => exact Or.inl (habort hst)

/-- No more migrations are committed than there are. -/
theorem version_le_length (hfirst : first.userVersion ≤ migrations.length)
    (hr : (storeSystem first).ReachVia (BeginsCurrent migrations) s) :
    s.file.userVersion ≤ migrations.length := by
  refine System.ReachVia.inv_of (I := fun s => s.file.userVersion ≤ migrations.length)
    (fun s hr => storeInv_of_beginsCurrent hr) ?_ ?_ hr
  · rintro s rfl
    exact hfirst
  · intro s s' a h hle _ hst
    rcases h.version_step hst with heq | ⟨heq, hlt⟩
    · rw [heq]
      exact hle
    · rw [heq]
      exact hlt

/-- Inside a transaction every statement is one that can run. -/
theorem StoreInv.goesOn {history : List (Script σ)} (h : StoreInv history first s) {p : ι}
    (hin : (s.calls p).pc.inTx) : ∃ s', storeStep s (.step p) = some s' := by
  have halone : s.Alone p := h.alone_of_inTx hin
  obtain ⟨work, htxs⟩ := (h.calls p).owner hin
  cases hpc : (s.calls p).pc with
  | idle | readCounter | compare | begin | begun | done =>
    rw [hpc] at hin
    exact hin.elim
  | commit i => exact ⟨_, halone.commit_eq hpc htxs⟩
  | script i rest =>
    have hst : storeStep s (.step p) = s.runStatement p i work rest := by
      simp only [storeStep, storeAdvance, hpc, htxs, List.lookup_cons_self, Option.bind_some]
    rw [hst]
    cases rest with
    | nil => exact ⟨_, halone.write_eq _ _⟩
    | cons statement rest =>
      cases hstatement : applyStatement statement work.data with
      | none => exact ⟨_, runStatement_of_none hstatement⟩
      | some data =>
        obtain ⟨writer, -, heq⟩ := halone.runStatement_eq i rest hstatement
        exact ⟨_, heq⟩

end Concurrent

/-- `CREATE TABLE IF NOT EXISTS`: it only reads if there is one already. -/
def createTableIfNotExists (table : Nat) (tables : List Nat) : Option (Option (List Nat)) :=
  if table ∈ tables then some none else some (some (tables ++ [table]))

/-- `n` statements of the call `p`. -/
def statements (n : Nat) (p : Bool) : List (StoreAct Bool (List Nat)) := List.replicate n (.step p)

/-- The counter alone is not enough: with the table there already, both transactions begin with a
statement that only reads, and then the second to write finds the file locked. -/
example : ((storeSystem ⟨[1], 0⟩).exec (storeInit ⟨[1], 0⟩)
    ([.call false [[createTableIfNotExists 1]], .call true [[createTableIfNotExists 1]]] ++
      statements 4 false ++ statements 4 true ++ statements 1 false ++ statements 1 true)).map
        (fun s => (s.calls true).pc) = some (.done .locked) := rfl

end TinyPilotKvm
