/-
# Systems of atomic steps, their runs, and what a run preserves

Everything concurrent in this development is a `System`: a predicate on initial states and
a PARTIAL step function, `none` where an action is not enabled.  The steps are the atomic
sections of the threads involved, so a list of actions is one interleaving, and `exec` runs it.

Two readings of "in every state reached" are used:

* `Reach`: any interleaving at all;
* `ReachVia ok`: the interleavings all of whose steps meet `ok`, a condition on the state
  BEFORE the step and on the action.  It is how a result that fails for some runs is stated
  for the runs that avoid the failing step.

`ReachVia.inv` is the induction rule both use: what holds initially and survives one step
holds of every state reached.  `ReachVia.inv_of` is the same with an invariant already in hand.

`Leads ok s s'` is a run from one state to another, which is how "from then on, until" is said:
`ok` are the steps that are not what is waited for.
-/
import Mathlib.Logic.Basic
import Mathlib.Logic.Relation
import Mathlib.Data.Option.Basic

namespace TinyPilotKvm

/-- A system of atomic steps over the states `σ` with the actions `α`. -/
structure System (σ α : Type) where
  /-- The states a run may start in. -/
  start : σ → Prop
  /-- The state after an action; `none` if the action is not enabled. -/
  step : σ → α → Option σ

namespace System

variable {σ α : Type} (M : System σ α)

/-- The states reached by runs all of whose steps meet `ok`. -/
inductive ReachVia (ok : σ → α → Prop) : σ → Prop
  | start {s : σ} : M.start s → ReachVia ok s
  | step {s s' : σ} {a : α} : ReachVia ok s → ok s a → M.step s a = some s' → ReachVia ok s'

/-- The states reached by any run. -/
abbrev Reach : σ → Prop := M.ReachVia fun _ _ => True

/-- `Preserves ok I`: a step that meets `ok` keeps `I`. -/
def Preserves (ok : σ → α → Prop) (I : σ → Prop) : Prop :=
  ∀ s s' a, I s → ok s a → M.step s a = some s' → I s'

/-- Run a list of actions; `none` as soon as one of them is not enabled. -/
def exec : σ → List α → Option σ
  | s, [] => some s
  | s, a :: as => (M.step s a).bind fun s' => exec s' as

variable {M} {ok ok' : σ → α → Prop} {I J : σ → Prop}

/-- **The induction rule.**  What holds initially and is kept by every admitted step holds
in every state those steps reach. -/
theorem ReachVia.inv (h0 : ∀ s, M.start s → I s) (hstep : M.Preserves ok I) {s : σ}
    (h : M.ReachVia ok s) : I s := by
  induction h with
  | start hs => exact h0 _ hs
  | step _ hok hst ih => exact hstep _ _ _ ih hok hst

/-- The induction rule relative to an invariant `J` that is known already. -/
theorem ReachVia.inv_of (hJ : ∀ s, M.ReachVia ok s → J s) (h0 : ∀ s, M.start s → I s)
    (hstep : ∀ s s' a, J s → I s → ok s a → M.step s a = some s' → I s') {s : σ}
    (h : M.ReachVia ok s) : I s := by
  induction h with
  | start hs => exact h0 _ hs
  | step hr hok hst ih => exact hstep _ _ _ (hJ _ hr) ih hok hst

/-- A weaker condition on the steps reaches more. -/
theorem ReachVia.mono (h : ∀ s a, ok s a → ok' s a) {s : σ} (hr : M.ReachVia ok s) :
    M.ReachVia ok' s := by
  induction hr with
  | start hs => exact .start hs
  | step _ hok hst ih => exact .step ih (h _ _ hok) hst

/-- Whatever a guarded run reaches is reached. -/
theorem ReachVia.reach {s : σ} (hr : M.ReachVia ok s) : M.Reach s :=
  hr.mono fun _ _ _ => trivial

variable (M) in
/-- `s'` is reached from `s` by steps that meet `ok`. -/
def Leads (ok : σ → α → Prop) : σ → σ → Prop :=
  Relation.ReflTransGen fun s s' => ∃ a, ok s a ∧ M.step s a = some s'

/-- What the steps that meet `ok` keep, a run of them keeps. -/
theorem Leads.inv (hstep : M.Preserves ok I) {s s' : σ} (h : M.Leads ok s s') (hs : I s) :
    I s' := by
  induction h with
  | refl => exact hs
  | tail _ hst ih =>
    obtain ⟨a, hok, hst⟩ := hst
    exact hstep _ _ a ih hok hst

/-- A run from a state that is reached reaches. -/
theorem Leads.reach {s s' : σ} (h : M.Leads ok s s') (hr : M.Reach s) : M.Reach s' := by
  induction h with
  | refl => exact hr
  | tail _ hst ih =>
    obtain ⟨a, -, hst⟩ := hst
    exact ih.step trivial hst

@[simp] theorem exec_nil (s : σ) : M.exec s [] = some s := rfl

theorem exec_cons (s : σ) (a : α) (as : List α) :
    M.exec s (a :: as) = (M.step s a).bind fun s' => M.exec s' as := rfl

/-- A run of `a :: as` is a step followed by a run. -/
theorem exec_cons_eq_some {s s'' : σ} {a : α} {as : List α} :
    M.exec s (a :: as) = some s'' ↔ ∃ s', M.step s a = some s' ∧ M.exec s' as = some s'' := by
  rw [exec_cons, Option.bind_eq_some_iff]

/-- An invariant of the steps is an invariant of the runs, from any state that has it. -/
theorem exec_inv (hstep : M.Preserves (fun _ _ => True) I) :
    ∀ (as : List α) {s s' : σ}, I s → M.exec s as = some s' → I s'
  | [], s, s', hI, h => by
    rw [exec_nil, Option.some.injEq] at h
    exact h ▸ hI
  | a :: as, s, s', hI, h => by
    obtain ⟨s1, h1, h2⟩ := exec_cons_eq_some.mp h
    exact exec_inv hstep as (hstep _ _ _ hI trivial h1) h2

/-- Running a list of actions from a reached state reaches. -/
theorem Reach.exec : ∀ (as : List α) {s s' : σ}, M.Reach s → M.exec s as = some s' → M.Reach s'
  | [], s, s', hr, h => by
    rw [exec_nil, Option.some.injEq] at h
    exact h ▸ hr
  | a :: as, s, s', hr, h => by
    obtain ⟨s1, h1, h2⟩ := exec_cons_eq_some.mp h
    exact Reach.exec as (.step hr trivial h1) h2

/-- The same for a condition that all the actions meet. -/
theorem ReachVia.exec : ∀ (as : List α) {s s' : σ}, (∀ a ∈ as, ∀ t, ok t a) → M.ReachVia ok s →
    M.exec s as = some s' → M.ReachVia ok s'
  | [], s, s', _, hr, h => by
    rw [exec_nil, Option.some.injEq] at h
    exact h ▸ hr
  | a :: as, s, s', hok, hr, h => by
    obtain ⟨s1, h1, h2⟩ := exec_cons_eq_some.mp h
    have hfirst := hok a List.mem_cons_self s
    exact ReachVia.exec as (fun b hb => hok b (List.mem_cons_of_mem a hb)) (.step hr hfirst h1) h2

/-- Run a list of actions; `none` as soon as one is not enabled or does not meet `ok`. -/
def execVia (M : System σ α) (ok : σ → α → Prop) [∀ s a, Decidable (ok s a)] :
    σ → List α → Option σ
  | s, [] => some s
  | s, a :: as => if ok s a then (M.step s a).bind fun s' => execVia M ok s' as else none

/-- What is run so from a state that is reached so is reached so. -/
theorem ReachVia.execVia [∀ s a, Decidable (ok s a)] :
    ∀ (as : List α) {s s' : σ}, M.ReachVia ok s → M.execVia ok s as = some s' → M.ReachVia ok s'
  | [], s, s', hr, h => Option.some.inj h ▸ hr
  | a :: as, s, s', hr, h => by
    unfold System.execVia at h
    split at h
    · rename_i hok
      obtain ⟨s1, h1, h2⟩ := Option.bind_eq_some_iff.mp h
      exact ReachVia.execVia as (.step hr hok h1) h2
    · exact absurd h (by simp)

variable (M) in
/-- Along a run every state has `I`, and every action meets `P` in the state it is taken in. -/
def Along (I : σ → Prop) (P : σ → α → Prop) : σ → List α → Prop
  | s, [] => I s
  | s, a :: as => I s ∧ P s a ∧ ∀ s', M.step s a = some s' → Along I P s' as

/-- What holds along a run is met by each of its actions. -/
theorem Along.of_exec {P : σ → α → Prop} {a : α} : ∀ {as : List α} {s s' : σ},
    M.Along I P s (as ++ [a]) → M.exec s as = some s' → P s' a ∧ I s'
  | [], s, s', h, hexec => by
    obtain rfl := Option.some.inj hexec
    exact ⟨h.2.1, h.1⟩
  | b :: as, s, s', h, hexec => by
    obtain ⟨s₁, hst, hexec⟩ := exec_cons_eq_some.mp hexec
    exact Along.of_exec (h.2.2 s₁ hst) hexec

/-- A run that can be made with `P` has it all along. -/
theorem along_of_execVia {P : σ → α → Prop} [∀ s a, Decidable (P s a)] : ∀ (as : List α) {s : σ},
    (M.execVia P s as).isSome = true → M.Along (fun _ => True) P s as
  | [], _, _ => trivial
  | a :: as, s, h => by
    unfold System.execVia at h
    split at h
    · rename_i hP
      refine ⟨trivial, hP, fun s' hst => along_of_execVia as ?_⟩
      rw [hst] at h
      exact h
    · exact absurd h (by simp)

/-- Two conditions that agree in the states a run may reach hold along the same runs. -/
theorem along_congr {P P' : σ → α → Prop} (hI : ∀ s, M.Reach s → I s ∧ J s)
    (hP : ∀ s a, M.Reach s → (P s a ↔ P' s a)) :
    ∀ (as : List α) {s : σ}, M.Reach s → (M.Along I P s as ↔ M.Along J P' s as)
  | [], s, hs => ⟨fun _ => (hI s hs).2, fun _ => (hI s hs).1⟩
  | a :: as, s, hs => by
    have hlater : ∀ s', M.step s a = some s' → (M.Along I P s' as ↔ M.Along J P' s' as) :=
      fun s' h => along_congr hI hP as (.step hs trivial h)
    constructor
    · rintro ⟨-, ha, hnext⟩
      exact ⟨(hI s hs).2, (hP s a hs).mp ha, fun s' h => (hlater s' h).mp (hnext s' h)⟩
    · rintro ⟨-, ha, hnext⟩
      exact ⟨(hI s hs).1, (hP s a hs).mpr ha, fun s' h => (hlater s' h).mpr (hnext s' h)⟩

/-- The same for two conditions that agree wherever `J` holds, if the steps that meet one of them
keep `J`. -/
theorem along_congr_of_inv {P P' : σ → α → Prop}
    (hstep : ∀ s s' a, J s → P s a → M.step s a = some s' → J s')
    (hP : ∀ s a, J s → (P s a ↔ P' s a)) :
    ∀ (as : List α) {s : σ}, J s → (M.Along I P s as ↔ M.Along I P' s as)
  | [], _, _ => Iff.rfl
  | a :: as, s, hs => by
    constructor
    · rintro ⟨hI, ha, hnext⟩
      refine ⟨hI, (hP s a hs).mp ha, fun s' h => ?_⟩
      exact (along_congr_of_inv hstep hP as (hstep s s' a hs ha h)).mp (hnext s' h)
    · rintro ⟨hI, ha, hnext⟩
      have ha' := (hP s a hs).mpr ha
      refine ⟨hI, ha', fun s' h => ?_⟩
      exact (along_congr_of_inv hstep hP as (hstep s s' a hs ha' h)).mpr (hnext s' h)

end System

end TinyPilotKvm
