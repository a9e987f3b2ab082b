/-
# Programs that follow a system

A program with a state of its own and steps that may stop with an error follows a `System` if,
wherever the system takes a step, the program takes it too and its state goes on standing for the
system's.  `System.exec_followed` carries this from one step to a run.

Between two systems it is `System.Reach.refines`: if `abs` takes each step of the one to a step of
the other, or to no step, it takes what the one reaches to what the other reaches.
-/
import TinyPilotKvm.Fallible
import TinyPilotKvm.Transition

namespace TinyPilotKvm

namespace System

variable {σ α τ ε : Type} {M : System σ α} {ok ok' : σ → Prop} {step : τ → α → Except ε τ}
  {R : τ → σ → Prop}

variable (M) in
/-- Between states that are `ok`, `step` takes every step of `M`; `R` is what a state of the
program stands for. -/
def FollowedBy (ok : σ → Prop) (step : τ → α → Except ε τ) (R : τ → σ → Prop) : Prop :=
  ∀ t s s' a, R t s → ok s → ok s' → M.step s a = some s' → ∃ t', step t a = .ok t' ∧ R t' s'

variable (M) in
/-- Every state of a run is `ok`. -/
abbrev AllAlong (ok : σ → Prop) : σ → List α → Prop := M.Along ok fun _ _ => True

theorem Along.head {P : σ → α → Prop} {as : List α} {s : σ} (h : M.Along ok P s as) : ok s := by
  cases as with
  | nil => exact h
  | cons a as => exact h.1

theorem Along.last {P : σ → α → Prop} {as : List α} {s s' : σ} (h : M.Along ok P s as)
    (hexec : M.exec s as = some s') : ok s' := by
  induction as generalizing s with
  | nil =>
    obtain rfl := Option.some.inj hexec
    exact h
  | cons a as ih =>
    obtain ⟨s₁, hs₁, hexec⟩ := exec_cons_eq_some.mp hexec
    exact ih (h.2.2 s₁ hs₁) hexec

/-- **What follows every step follows a run.** -/
theorem exec_followed (hstep : M.FollowedBy ok step R) {as : List α} {t : τ} {s s' : σ}
    (ht : R t s) (hok : M.AllAlong ok s as) (h : M.exec s as = some s') :
    ∃ t', as.foldlM step t = .ok t' ∧ R t' s' := by
  induction as generalizing t s with
  | nil =>
    obtain rfl := Option.some.inj h
    exact ⟨t, rfl, ht⟩
  | cons a as ih =>
    obtain ⟨s₁, hs₁, h⟩ := exec_cons_eq_some.mp h
    obtain ⟨hs, -, hlater⟩ := hok
    obtain ⟨t₁, hrun, ht₁⟩ := hstep t s s₁ a ht hs (hlater s₁ hs₁).head hs₁
    obtain ⟨t', hlast, ht'⟩ := ih ht₁ (hlater s₁ hs₁) h
    refine ⟨t', ?_, ht'⟩
    rw [List.foldlM_cons, hrun]
    exact hlast

theorem AllAlong.mono (hle : ∀ s, ok s → ok' s) {as : List α} {s : σ} (h : M.AllAlong ok s as) :
    M.AllAlong ok' s as := by
  induction as generalizing s with
  | nil => exact hle s h
  | cons a as ih =>
    obtain ⟨hs, -, hlater⟩ := h
    exact ⟨hle s hs, trivial, fun s₁ hs₁ => ih (hlater s₁ hs₁)⟩

/-- A run of which every state is `ok` and every state is `ok'`. -/
theorem AllAlong.and {as : List α} {s : σ} (h : M.AllAlong ok s as) (h' : M.AllAlong ok' s as) :
    M.AllAlong (fun s => ok s ∧ ok' s) s as := by
  induction as generalizing s with
  | nil => exact ⟨h, h'⟩
  | cons a as ih =>
    obtain ⟨hs, -, hlater⟩ := h
    obtain ⟨hs', -, hlater'⟩ := h'
    exact ⟨⟨hs, hs'⟩, trivial, fun s₁ hs₁ => ih (hlater s₁ hs₁) (hlater' s₁ hs₁)⟩

/-- What every one of the actions keeps holds all along. -/
theorem allAlong_of_forall {as : List α} {s : σ}
    (hstep : ∀ a ∈ as, ∀ s s', ok s → M.step s a = some s' → ok s') (hs : ok s) :
    M.AllAlong ok s as := by
  induction as generalizing s with
  | nil => exact hs
  | cons a as ih =>
    refine ⟨hs, trivial, fun s' hs' => ?_⟩
    have hlater : ∀ b ∈ as, ∀ s s', ok s → M.step s b = some s' → ok s' :=
      fun b hb => hstep b (List.mem_cons_of_mem a hb)
    exact ih hlater (hstep a List.mem_cons_self s s' hs hs')

/-- Two runs, one after the other. -/
theorem exec_append {as bs : List α} {s s₁ s' : σ} (h : M.exec s as = some s₁)
    (h' : M.exec s₁ bs = some s') : M.exec s (as ++ bs) = some s' := by
  induction as generalizing s with
  | nil =>
    obtain rfl := Option.some.inj h
    exact h'
  | cons a as ih =>
    obtain ⟨s₂, hs₂, h⟩ := exec_cons_eq_some.mp h
    exact exec_cons_eq_some.mpr ⟨s₂, hs₂, ih h⟩

/-- **A refinement.**  `abs` need not be one outside `ok`, if no step leads back to `ok`. -/
theorem Reach.refines {β : Type} {N : System τ β} (ok : σ → Prop) (abs : σ → τ)
    (hstart : ∀ s, M.start s → N.start (abs s))
    (hback : ∀ s s' a, M.step s a = some s' → ok s' → ok s)
    (hstep : ∀ s s' a, M.Reach s → ok s' → M.step s a = some s' →
      abs s' = abs s ∨ ∃ b, N.step (abs s) b = some (abs s'))
    {s : σ} (hr : M.Reach s) (hok : ok s) : N.Reach (abs s) := by
  induction hr with
  | start hs => exact .start (hstart _ hs)
  | step hr _ hst ih =>
    have hreach := ih (hback _ _ _ hst hok)
    rcases hstep _ _ _ hr hok hst with hsame | ⟨b, hb⟩
    · rw [hsame]
      exact hreach
    · exact .step hreach trivial hb

end System

end TinyPilotKvm
