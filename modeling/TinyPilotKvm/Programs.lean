/-
# Programs that call their environment

A program over the states `σ` makes CALLS of its environment.  Each is written down with the answer
it got, in the order in which they are made (`World.calls`).  A program ends in one of three ways:
with a value; FAILED, by the exit its author gave it for an answer it cannot go on with; or in a
FAULT `φ`, which is an access or an assertion that goes wrong.  The environment's answers are
arguments of the program, so that a statement for all of them is one about every environment.

`wp x Q E F w` is what a run of `x` from `w` ends in: `Q` where it returns, `E` where it fails and
`F` where it faults.  A program's `wp` is EQUIVALENT to one about its parts (section 2), so that
`simp` turns a question about a program into one about its answers, and nothing is lost by it.
-/
import Mathlib.Data.List.Basic
import Mathlib.Order.Defs.Unbundled

namespace TinyPilotKvm

/-! ## 1. Programs -/

/-- The two ways of stopping without a value. -/
inductive Stop (φ : Type)
  | failed
  | fault (f : φ)
  deriving DecidableEq

/-- The state of a program, and the calls made so far. -/
structure World (σ ε : Type) where
  state : σ
  calls : List ε

abbrev Program (σ ε φ α : Type) : Type := EStateM (Stop φ) (World σ ε) α

variable {σ ε φ α β : Type}

/-- The world after some more calls. -/
def World.after (w : World σ ε) (es : List ε) : World σ ε := { w with calls := w.calls ++ es }

/-- The world with another state. -/
def World.withState (w : World σ ε) (s : σ) : World σ ε := { w with state := s }

@[simp] theorem World.state_after (w : World σ ε) (es : List ε) : (w.after es).state = w.state :=
  rfl

@[simp] theorem World.calls_after (w : World σ ε) (es : List ε) :
    (w.after es).calls = w.calls ++ es := rfl

@[simp] theorem World.state_withState (w : World σ ε) (s : σ) : (w.withState s).state = s := rfl

@[simp] theorem World.calls_withState (w : World σ ε) (s : σ) :
    (w.withState s).calls = w.calls := rfl

namespace Program

def current : Program σ ε φ σ := fun w => .ok w.state w

def update (f : σ → σ) : Program σ ε φ Unit := fun w => .ok () (w.withState (f w.state))

/-- Calls whose answers change nothing. -/
def say (es : List ε) : Program σ ε φ Unit := fun w => .ok () (w.after es)

/-- A call that gives something, or fails. -/
def ask (e : Option α → ε) (answer : Option α) : Program σ ε φ α := fun w =>
  match answer with
  | some a => .ok a (w.after [e answer])
  | none => .error .failed (w.after [e answer])

/-- A call that succeeds or fails. -/
def call (e : Bool → ε) (ok : Bool) : Program σ ε φ Unit := fun w =>
  if ok then .ok () (w.after [e ok]) else .error .failed (w.after [e ok])

def fail : Program σ ε φ α := fun w => .error .failed w

def fault (f : φ) : Program σ ε φ α := fun w => .error (.fault f) w

/-- The program fails unless `c`. -/
def check (c : Prop) [Decidable c] : Program σ ε φ Unit := if c then pure () else fail

/-- The program faults unless `c`. -/
def require (c : Prop) [Decidable c] (f : φ) : Program σ ε φ Unit :=
  if c then pure () else fault f

/-- A turn for each of the items, until one says that the loop is left. -/
def loop : List α → (α → Program σ ε φ Bool) → Program σ ε φ Unit
  | [], _ => pure ()
  | a :: as, turn => do
    if ← turn a then loop as turn else pure ()

/-- Whether `x` returns or fails; its faults remain. -/
def attempt (x : Program σ ε φ Unit) : Program σ ε φ Bool := fun w =>
  match x w with
  | .ok _ w' => .ok true w'
  | .error .failed w' => .ok false w'
  | .error (.fault f) w' => .error (.fault f) w'

/-! ## 2. What a run ends in -/

/-- The three postconditions of a run of `x` from `w`. -/
def wp (x : Program σ ε φ α) (Q : α → World σ ε → Prop) (E : World σ ε → Prop)
    (F : φ → World σ ε → Prop) (w : World σ ε) : Prop :=
  match x w with
  | .ok a w' => Q a w'
  | .error .failed w' => E w'
  | .error (.fault f) w' => F f w'

variable {x : Program σ ε φ α} {Q Q' : α → World σ ε → Prop} {E E' : World σ ε → Prop}
  {F F' : φ → World σ ε → Prop} {w w' : World σ ε} {a : α}

@[simp] theorem wp_pure : wp (pure a) Q E F w ↔ Q a w := Iff.rfl

@[simp] theorem wp_bind {f : α → Program σ ε φ β} {Q : β → World σ ε → Prop} :
    wp (x >>= f) Q E F w ↔ wp x (fun a => wp (f a) Q E F) E F w := by
  simp only [wp, bind, EStateM.bind]
  cases x w with
  | ok a w' => rfl
  | error s w' => cases s <;> rfl

@[simp] theorem wp_current {Q : σ → World σ ε → Prop} :
    wp current Q E F w ↔ Q w.state w := Iff.rfl

@[simp] theorem wp_update {f : σ → σ} {Q : Unit → World σ ε → Prop} :
    wp (update f) Q E F w ↔ Q () (w.withState (f w.state)) := Iff.rfl

@[simp] theorem wp_say {es : List ε} {Q : Unit → World σ ε → Prop} :
    wp (say es) Q E F w ↔ Q () (w.after es) := Iff.rfl

@[simp] theorem wp_ask {e : Option α → ε} {answer : Option α} :
    wp (ask e answer) Q E F w ↔
      (∀ a, answer = some a → Q a (w.after [e answer])) ∧
      (answer = none → E (w.after [e answer])) := by
  cases answer with
  | none => simp [wp, ask]
  | some a => simp [wp, ask]

@[simp] theorem wp_call {e : Bool → ε} {ok : Bool} {Q : Unit → World σ ε → Prop} :
    wp (call e ok) Q E F w ↔
      (ok = true → Q () (w.after [e ok])) ∧ (ok = false → E (w.after [e ok])) := by
  cases ok with
  | false => simp [wp, call]
  | true => simp [wp, call]

@[simp] theorem wp_fail : wp (fail : Program σ ε φ α) Q E F w ↔ E w := Iff.rfl

@[simp] theorem wp_fault {f : φ} : wp (fault f : Program σ ε φ α) Q E F w ↔ F f w := Iff.rfl

@[simp] theorem wp_check {c : Prop} [Decidable c] {Q : Unit → World σ ε → Prop} :
    wp (check c) Q E F w ↔ (c → Q () w) ∧ (¬c → E w) := by
  unfold check
  split
  · rename_i h
    simp [h]
  · rename_i h
    simp [h]

theorem wp_check_of_pos {c : Prop} [Decidable c] (h : c) {Q : Unit → World σ ε → Prop} :
    wp (check c) Q E F w ↔ Q () w := by
  rw [wp_check]
  exact ⟨fun hw => hw.1 h, fun hw => ⟨fun _ => hw, fun hnot => absurd h hnot⟩⟩

theorem wp_check_of_neg {c : Prop} [Decidable c] (h : ¬c) {Q : Unit → World σ ε → Prop} :
    wp (check c) Q E F w ↔ E w := by
  rw [wp_check]
  exact ⟨fun hw => hw.2 h, fun hw => ⟨fun hc => absurd hc h, fun _ => hw⟩⟩

@[simp] theorem wp_require {c : Prop} [Decidable c] {f : φ} {Q : Unit → World σ ε → Prop} :
    wp (require c f) Q E F w ↔ (c → Q () w) ∧ (¬c → F f w) := by
  unfold require
  split
  · rename_i h
    simp [h]
  · rename_i h
    simp [h]

theorem wp_require_of_pos {c : Prop} [Decidable c] (h : c) {f : φ}
    {Q : Unit → World σ ε → Prop} : wp (require c f) Q E F w ↔ Q () w := by
  rw [wp_require]
  exact ⟨fun hw => hw.1 h, fun hw => ⟨fun _ => hw, fun hnot => absurd h hnot⟩⟩

@[simp] theorem wp_attempt {x : Program σ ε φ Unit} {Q : Bool → World σ ε → Prop} :
    wp (attempt x) Q E F w ↔ wp x (fun _ => Q true) (Q false) F w := by
  simp only [wp, attempt]
  cases x w with
  | ok a w' => rfl
  | error s w' => cases s <;> rfl

@[simp] theorem wp_ite {c : Prop} [Decidable c] {x y : Program σ ε φ α} :
    wp (if c then x else y) Q E F w ↔ (c → wp x Q E F w) ∧ (¬c → wp y Q E F w) := by
  split
  · rename_i h
    simp [h]
  · rename_i h
    simp [h]

/-! ## 3. Using it -/

/-- Weaker postconditions hold as well. -/
theorem wp_mono (hQ : ∀ a w', Q a w' → Q' a w') (hE : ∀ w', E w' → E' w')
    (hF : ∀ f w', F f w' → F' f w') (h : wp x Q E F w) : wp x Q' E' F' w := by
  unfold wp at h ⊢
  cases hx : x w with
  | ok a w' =>
    rw [hx] at h
    exact hQ a w' h
  | error s w' =>
    rw [hx] at h
    cases s with
    | failed => exact hE w' h
    | fault f => exact hF f w' h

/-- A weaker postcondition of what is returned. -/
theorem wp_post (hQ : ∀ a w', Q a w' → Q' a w') (h : wp x Q E F w) : wp x Q' E F w :=
  wp_mono hQ (fun _ hE => hE) (fun _ _ hF => hF) h

/-- Two facts about the ends of a run. -/
theorem wp_and (h : wp x Q E F w) (h' : wp x Q' E' F' w) :
    wp x (fun a w' => Q a w' ∧ Q' a w') (fun w' => E w' ∧ E' w') (fun f w' => F f w' ∧ F' f w')
      w := by
  unfold wp at h h' ⊢
  cases hx : x w with
  | ok a w' =>
    rw [hx] at h h'
    exact ⟨h, h'⟩
  | error s w' =>
    rw [hx] at h h'
    cases s with
    | failed => exact ⟨h, h'⟩
    | fault f => exact ⟨h, h'⟩

/-- Postconditions that agree on what a run may return. -/
theorem wp_congr_of {I : α → World σ ε → Prop}
    (hI : wp x I (fun _ => True) (fun _ _ => True) w) (h : ∀ a w', I a w' → (Q a w' ↔ Q' a w')) :
    wp x Q E F w ↔ wp x Q' E F w := by
  unfold wp at hI ⊢
  cases hx : x w with
  | ok a w' =>
    rw [hx] at hI
    exact h a w' hI
  | error s w' =>
    cases s with
    | failed => exact Iff.rfl
    | fault f => exact Iff.rfl

/-- What the last part of a program returns, the program returns. -/
theorem wp_bind_of_last {f : α → Program σ ε φ β} {Q : β → World σ ε → Prop}
    (h : ∀ a w', wp (f a) Q (fun _ => True) (fun _ _ => True) w') :
    wp (x >>= f) Q (fun _ => True) (fun _ _ => True) w := by
  rw [wp_bind]
  unfold wp
  cases x w with
  | ok a w' => exact h a w'
  | error s w' =>
    cases s with
    | failed => trivial
    | fault f => trivial

/-- **The rule of loops**: what every turn keeps, the loop keeps. -/
theorem wp_loop {as : List α} {turn : α → Program σ ε φ Bool} {I : World σ ε → Prop}
    (hturn : ∀ a ∈ as, ∀ w, I w → wp (turn a) (fun _ => I) E F w) (h : I w) :
    wp (loop as turn) (fun _ => I) E F w := by
  induction as generalizing w with
  | nil => exact h
  | cons a as ih =>
    rw [loop, wp_bind]
    refine wp_post (fun goesOn w' hw' => ?_) (hturn a List.mem_cons_self w h)
    rw [wp_ite]
    exact ⟨fun _ => ih (fun b hb => hturn b (List.mem_cons_of_mem a hb)) hw', fun _ => hw'⟩

/-- What a run that returns has, read off its `wp`. -/
theorem wp_ok (h : wp x Q E F w) (hx : x w = .ok a w') : Q a w' := by
  unfold wp at h
  rwa [hx] at h

/-- After a part whose end is known, the rest is run from there. -/
theorem wp_of_ok (hx : x w = .ok a w') : wp x Q E F w ↔ Q a w' := by
  unfold wp
  rw [hx]

/-- A run that neither faults nor fails returns. -/
theorem exists_ok_of_wp (h : wp x Q (fun _ => False) (fun _ _ => False) w) :
    ∃ a w', x w = .ok a w' ∧ Q a w' := by
  unfold wp at h
  cases hx : x w with
  | ok a w' =>
    rw [hx] at h
    exact ⟨a, w', rfl, h⟩
  | error s w' =>
    rw [hx] at h
    cases s with
    | failed => exact h.elim
    | fault f => exact h.elim

/-- The calls made by the end of a run, whichever end that is. -/
def callsBy (x : Program σ ε φ α) (w : World σ ε) : List ε :=
  match x w with
  | .ok _ w' => w'.calls
  | .error _ w' => w'.calls

/-- What all the ends of a run have. -/
theorem callsBy_of_wp {P : List ε → Prop}
    (h : wp x (fun _ w' => P w'.calls) (fun w' => P w'.calls) (fun _ w' => P w'.calls) w) :
    P (callsBy x w) := by
  unfold wp at h
  unfold callsBy
  cases hx : x w with
  | ok a w' =>
    rw [hx] at h
    exact h
  | error s w' =>
    rw [hx] at h
    cases s with
    | failed => exact h
    | fault f => exact h

/-! ## 4. What a program leaves alone

A relation between the world before and the world after, that every step of a program keeps, is
kept by the program however it ends. -/

/-- Every run of `x`, however it ends, leads from a world to one that `R` relates to it. -/
def Keeps (R : World σ ε → World σ ε → Prop) (x : Program σ ε φ α) : Prop :=
  ∀ w, wp x (fun _ => R w) (R w) (fun _ => R w) w

section

variable {R : World σ ε → World σ ε → Prop}

theorem Keeps.bind [IsTrans _ R] {f : α → Program σ ε φ β} (hx : Keeps R x)
    (hf : ∀ a, Keeps R (f a)) : Keeps R (x >>= f) := by
  intro w
  rw [wp_bind]
  refine wp_mono (fun a w1 h1 => ?_) (fun _ h => h) (fun _ _ h => h) (hx w)
  exact wp_mono (fun _ _ h2 => trans_of R h1 h2) (fun _ h2 => trans_of R h1 h2)
    (fun _ _ h2 => trans_of R h1 h2) (hf a w1)

theorem Keeps.ite {c : Prop} [Decidable c] {x y : Program σ ε φ α} (hx : Keeps R x)
    (hy : Keeps R y) : Keeps R (if c then x else y) := by
  split
  · exact hx
  · exact hy

theorem Keeps.attempt {x : Program σ ε φ Unit} (hx : Keeps R x) : Keeps R (attempt x) := by
  intro w
  rw [wp_attempt]
  exact hx w

theorem Keeps.ask {e : Option α → ε} {answer : Option α}
    (hafter : ∀ w, R w (w.after [e answer])) : Keeps R (ask e answer : Program σ ε φ α) := by
  intro w
  rw [wp_ask]
  exact ⟨fun _ _ => hafter w, fun _ => hafter w⟩

theorem Keeps.call {e : Bool → ε} {ok : Bool} (hafter : ∀ w, R w (w.after [e ok])) :
    Keeps R (call e ok : Program σ ε φ Unit) := by
  intro w
  rw [wp_call]
  exact ⟨fun _ => hafter w, fun _ => hafter w⟩

variable [Std.Refl R]

theorem Keeps.pure (a : α) : Keeps R (pure a : Program σ ε φ α) := fun w => refl_of R w

theorem Keeps.current : Keeps R (current : Program σ ε φ σ) := fun w => refl_of R w

theorem Keeps.fail : Keeps R (fail : Program σ ε φ α) := fun w => refl_of R w

theorem Keeps.fault (f : φ) : Keeps R (fault f : Program σ ε φ α) := fun w => refl_of R w

theorem Keeps.check (c : Prop) [Decidable c] : Keeps R (check c : Program σ ε φ Unit) :=
  Keeps.ite (Keeps.pure ()) Keeps.fail

theorem Keeps.require (c : Prop) [Decidable c] (f : φ) :
    Keeps R (require c f : Program σ ε φ Unit) :=
  Keeps.ite (Keeps.pure ()) (Keeps.fault f)

end

/-! ## 5. Programs that are safe -/

/-- From every world with `I`, `x` returns, and leaves `I`. -/
def Safe (I : World σ ε → Prop) (x : Program σ ε φ α) : Prop :=
  ∀ w, I w → wp x (fun _ => I) (fun _ => False) (fun _ _ => False) w

section

variable {I : World σ ε → Prop}

theorem Safe.pure (a : α) : Safe I (pure a : Program σ ε φ α) := fun _ hw => hw

theorem Safe.bind {f : α → Program σ ε φ β} (hx : Safe I x) (hf : ∀ a, Safe I (f a)) :
    Safe I (x >>= f) := by
  intro w hw
  rw [wp_bind]
  exact wp_post (fun a w' hw' => hf a w' hw') (hx w hw)

theorem Safe.loop {as : List α} {turn : α → Program σ ε φ Bool}
    (hturn : ∀ a ∈ as, Safe I (turn a)) : Safe I (loop as turn) :=
  fun _ hw => wp_loop hturn hw

/-- A safe program does not fault. -/
theorem Safe.returns (hx : Safe I x) (hw : I w) : ∃ a w', x w = .ok a w' ∧ I w' :=
  exists_ok_of_wp (hx w hw)

end

end Program

end TinyPilotKvm
