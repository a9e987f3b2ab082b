/-
# The page's keyboard follows the browser's modifiers (`app/static/js/keyboardstate.js`)

Key events may be missed, so the marks of the modifiers are put right by the flags of each key-down
of another key.  `keyboard_follows_modifiers`: this holds after any events, and the key-ups of the
`blur` handler leave no key marked.

Codes are those of keys; a name that every object inherits (`__proto__`) is none.

The second part rests on `Recorded`: no mark is under a name that `keystrokeToCanonicalCode` would
change, so the key-up of a marked code clears that mark and no other.
-/
import TinyPilotKvm.App.Page.HeldModifiers

namespace TinyPilotKvm

/-! ## 1. Events and groups -/

inductive KeyEvent
  | down (evt : KeyboardEvent)
  | up (evt : KeyboardEvent)

/-- The properties in `modifierPropToKeyCodesMapping`. -/
inductive ModifierGroup
  | altKey
  | metaKey
  | ctrlKey
  | shiftKey
  deriving DecidableEq

namespace ModifierGroup

def flag (evt : KeyboardEvent) : ModifierGroup → Bool
  | altKey => evt.altKey
  | metaKey => evt.metaKey
  | ctrlKey => evt.ctrlKey
  | shiftKey => evt.shiftKey

def left : ModifierGroup → Modifier
  | altKey => .altLeft
  | metaKey => .metaLeft
  | ctrlKey => .ctrlLeft
  | shiftKey => .shiftLeft

def right : ModifierGroup → Modifier
  | altKey => .altRight
  | metaKey => .metaRight
  | ctrlKey => .ctrlRight
  | shiftKey => .shiftRight

end ModifierGroup

namespace KeyboardState

def handleKey (state : KeyboardState) : KeyEvent → KeyboardState
  | .down evt => state.onKeyDown evt
  | .up evt => state.onKeyUp evt

/-- A new `KeyboardState`, after some events. -/
def after (events : List KeyEvent) : KeyboardState := events.foldl handleKey []

/-- A key-up with nothing but a code. -/
def keyUp (state : KeyboardState) (keyCode : PyStr) : KeyboardState :=
  state.onKeyUp { code := keyCode }

/-- A key-up for every code of `getAllPressedKeys`. -/
def releaseAll (state : KeyboardState) : KeyboardState := state.getAllPressedKeys.foldl keyUp state

/-- Some key of the group is marked. -/
def HasPressed (state : KeyboardState) (g : ModifierGroup) : Prop :=
  state.isKeyPressed g.left.code = true ∨ state.isKeyPressed g.right.code = true

/-- What the key-down of a key other than a modifier should do. -/
structure FollowsModifiers (evt : KeyboardEvent) (state state' : KeyboardState) : Prop where
  groups : ∀ g, state'.HasPressed g ↔ g.flag evt = true
  own : state'.isKeyPressed (keystrokeToCanonicalCode evt) = true
  others : ∀ code, isModifierCode code = false → code ≠ keystrokeToCanonicalCode evt →
    state'.isKeyPressed code = state.isKeyPressed code
  /-- A choice between left and right is kept. -/
  sides : ∀ g, g.flag evt = true → state.HasPressed g →
    state'.isKeyPressed g.left.code = state.isKeyPressed g.left.code ∧
      state'.isKeyPressed g.right.code = state.isKeyPressed g.right.code

/-! ## 2. The loop over the groups -/

/-- A round changes the two keys of its group only. -/
theorem fixModifier_of_ne (isModifierPressed : Bool) {left right code : PyStr}
    (hl : code ≠ left) (hr : code ≠ right) (state : KeyboardState) :
    (fixModifier isModifierPressed left right state).isKeyPressed code
      = state.isKeyPressed code := by
  unfold fixModifier
  split
  · rw [isKeyPressed_assign, isKeyPressed_assign, if_neg hr, if_neg hl]
  · split
    · rfl
    · rw [isKeyPressed_assign, if_neg hl]

/-- The left key is marked if the flag is set, and not the right key only. -/
theorem fixModifier_left (isModifierPressed : Bool) {left right : PyStr} (hne : left ≠ right)
    (state : KeyboardState) :
    (fixModifier isModifierPressed left right state).isKeyPressed left
      = (isModifierPressed && (state.isKeyPressed left || !state.isKeyPressed right)) := by
  unfold fixModifier
  cases isModifierPressed with
  | false => simp [hne]
  | true =>
    cases hl : state.isKeyPressed left <;> cases hr : state.isKeyPressed right <;> simp [hl]

/-- The right key is never guessed. -/
theorem fixModifier_right (isModifierPressed : Bool) {left right : PyStr} (hne : left ≠ right)
    (state : KeyboardState) :
    (fixModifier isModifierPressed left right state).isKeyPressed right
      = (isModifierPressed && state.isKeyPressed right) := by
  unfold fixModifier
  cases isModifierPressed with
  | false => simp
  | true =>
    cases hl : state.isKeyPressed left <;> cases hr : state.isKeyPressed right <;>
      simp [hr, hne.symm]

theorem left_ne_right (g : ModifierGroup) : g.left.code ≠ g.right.code := by
  cases g <;> decide

/-- Two groups have no key in common. -/
theorem ne_of_ne {g g' : ModifierGroup} (h : g ≠ g') :
    (g.left.code ≠ g'.left.code ∧ g.left.code ≠ g'.right.code) ∧
      g.right.code ≠ g'.left.code ∧ g.right.code ≠ g'.right.code := by
  cases g <;> cases g' <;> first | exact absurd rfl h | decide

/-- A round of the loop. -/
def fixGroup (evt : KeyboardEvent) (state : KeyboardState) (g : ModifierGroup) : KeyboardState :=
  fixModifier (g.flag evt) g.left.code g.right.code state

theorem fixInternalModifierStates_eq (evt : KeyboardEvent) (state : KeyboardState) :
    fixInternalModifierStates evt state
      = [ModifierGroup.altKey, .metaKey, .ctrlKey, .shiftKey].foldl (fixGroup evt) state := rfl

/-- Rounds for other groups leave the keys of a group as they were. -/
theorem foldl_fixGroup_of_notMem (evt : KeyboardEvent) (g : ModifierGroup) :
    ∀ (gs : List ModifierGroup) (state : KeyboardState), g ∉ gs →
      (gs.foldl (fixGroup evt) state).isKeyPressed g.left.code = state.isKeyPressed g.left.code ∧
        (gs.foldl (fixGroup evt) state).isKeyPressed g.right.code
          = state.isKeyPressed g.right.code := by
  intro gs
  induction gs with
  | nil => exact fun _ _ => ⟨rfl, rfl⟩
  | cons g' gs ih =>
    intro state hnot
    rw [List.mem_cons, not_or] at hnot
    obtain ⟨⟨hll, hlr⟩, hrl, hrr⟩ := ne_of_ne hnot.1
    obtain ⟨hleft, hright⟩ := ih (fixGroup evt state g') hnot.2
    rw [List.foldl_cons, hleft, hright]
    exact ⟨fixModifier_of_ne _ hll hlr state, fixModifier_of_ne _ hrl hrr state⟩

/-- The loop as a whole: each group is as its own round leaves it. -/
theorem foldl_fixGroup_of_mem (evt : KeyboardEvent) (g : ModifierGroup) :
    ∀ (gs : List ModifierGroup) (state : KeyboardState), gs.Nodup → g ∈ gs →
      (gs.foldl (fixGroup evt) state).isKeyPressed g.left.code
          = (g.flag evt && (state.isKeyPressed g.left.code || !state.isKeyPressed g.right.code)) ∧
        (gs.foldl (fixGroup evt) state).isKeyPressed g.right.code
          = (g.flag evt && state.isKeyPressed g.right.code) := by
  intro gs
  induction gs with
  | nil => exact fun _ _ hmem => absurd hmem List.not_mem_nil
  | cons g' gs ih =>
    intro state hnodup hmem
    obtain ⟨hnot, hnodup⟩ := List.nodup_cons.mp hnodup
    rw [List.foldl_cons]
    by_cases hg : g = g'
    · subst hg
      obtain ⟨hleft, hright⟩ := foldl_fixGroup_of_notMem evt g gs (fixGroup evt state g) hnot
      rw [hleft, hright]
      exact ⟨fixModifier_left _ (left_ne_right g) state,
        fixModifier_right _ (left_ne_right g) state⟩
    · obtain ⟨⟨hll, hlr⟩, hrl, hrr⟩ := ne_of_ne hg
      obtain ⟨hleft, hright⟩ :=
        ih (fixGroup evt state g') hnodup ((List.mem_cons.mp hmem).resolve_left hg)
      rw [hleft, hright]
      unfold fixGroup
      rw [fixModifier_of_ne _ hll hlr, fixModifier_of_ne _ hrl hrr]
      exact ⟨rfl, rfl⟩

theorem foldl_fixGroup_of_not_modifier (evt : KeyboardEvent) {code : PyStr}
    (hcode : isModifierCode code = false) : ∀ (gs : List ModifierGroup) (state : KeyboardState),
      (gs.foldl (fixGroup evt) state).isKeyPressed code = state.isKeyPressed code := by
  intro gs
  have hne (m : Modifier) : code ≠ m.code := by
    rintro rfl
    simp at hcode
  induction gs with
  | nil => exact fun _ => rfl
  | cons g gs ih =>
    intro state
    rw [List.foldl_cons, ih]
    exact fixModifier_of_ne _ (hne g.left) (hne g.right) state

/-! ## 3. A key-down -/

/-- The key-down of a key other than a modifier, for the keys of a group. -/
theorem onKeyDown_group {evt : KeyboardEvent}
    (hmod : isModifierCode (keystrokeToCanonicalCode evt) = false) (state : KeyboardState)
    (g : ModifierGroup) :
    (state.onKeyDown evt).isKeyPressed g.left.code
        = (g.flag evt && (state.isKeyPressed g.left.code || !state.isKeyPressed g.right.code)) ∧
      (state.onKeyDown evt).isKeyPressed g.right.code
        = (g.flag evt && state.isKeyPressed g.right.code) := by
  have hmem : g ∈ [ModifierGroup.altKey, .metaKey, .ctrlKey, .shiftKey] := by
    cases g <;> decide
  have hne (m : Modifier) : m.code ≠ keystrokeToCanonicalCode evt := by
    intro h
    rw [← h, Modifier.isModifierCode_code] at hmod
    exact Bool.noConfusion hmod
  obtain ⟨hleft, hright⟩ := foldl_fixGroup_of_mem evt g _
    (assign (keystrokeToCanonicalCode evt) true state) (by decide) hmem
  rw [onKeyDown_of_not_modifier hmod, fixInternalModifierStates_eq, hleft, hright,
    isKeyPressed_assign, isKeyPressed_assign, if_neg (hne g.left), if_neg (hne g.right)]
  exact ⟨rfl, rfl⟩

theorem onKeyDown_of_not_modifierCode {evt : KeyboardEvent}
    (hmod : isModifierCode (keystrokeToCanonicalCode evt) = false) (state : KeyboardState)
    {code : PyStr} (hcode : isModifierCode code = false) :
    (state.onKeyDown evt).isKeyPressed code
      = if code = keystrokeToCanonicalCode evt then true else state.isKeyPressed code := by
  rw [onKeyDown_of_not_modifier hmod, fixInternalModifierStates_eq,
    foldl_fixGroup_of_not_modifier evt hcode, isKeyPressed_assign]

/-- **A key-down puts the modifiers right**, whatever was marked before. -/
theorem followsModifiers {evt : KeyboardEvent}
    (hmod : isModifierCode (keystrokeToCanonicalCode evt) = false) (state : KeyboardState) :
    FollowsModifiers evt state (state.onKeyDown evt) where
  groups g := by
    obtain ⟨hleft, hright⟩ := onKeyDown_group hmod state g
    unfold HasPressed
    rw [hleft, hright]
    cases g.flag evt <;> cases state.isKeyPressed g.left.code <;>
      cases state.isKeyPressed g.right.code <;> decide
  own := by rw [onKeyDown_of_not_modifierCode hmod state hmod, if_pos rfl]
  others code hcode hne := by rw [onKeyDown_of_not_modifierCode hmod state hcode, if_neg hne]
  sides g hflag hpressed := by
    obtain ⟨hleft, hright⟩ := onKeyDown_group hmod state g
    rw [hleft, hright, hflag]
    unfold HasPressed at hpressed
    cases hl : state.isKeyPressed g.left.code with
    | true => simp
    | false =>
      have hr : state.isKeyPressed g.right.code = true := hpressed.resolve_left (by simp [hl])
      rw [hr]
      decide

/-! ## 4. The key-ups of the `blur` handler -/

/-- No mark is under a name that only some browsers use. -/
def Recorded (state : KeyboardState) : Prop :=
  ∀ entry ∈ state, keystrokeToCanonicalCode { code := entry.1 } = entry.1

/-- A name that is the same in all browsers. -/
theorem canonicalCode_of_ne {code : PyStr} (hleft : code ≠ py "OSLeft")
    (hright : code ≠ py "OSRight") : keystrokeToCanonicalCode { code := code } = code := by
  have hkey : ¬ (([] : PyStr) = py "Alt" ∧ code = []) := fun h => absurd h.1 (by decide)
  unfold keystrokeToCanonicalCode
  dsimp only
  rw [if_neg hkey, if_neg hleft, if_neg hright]

theorem canonicalCode_canonicalCode (evt : KeyboardEvent) :
    keystrokeToCanonicalCode { code := keystrokeToCanonicalCode evt }
      = keystrokeToCanonicalCode evt := by
  have hleft : keystrokeToCanonicalCode evt ≠ py "OSLeft" := by
    unfold keystrokeToCanonicalCode
    split_ifs with h1 h2 h3
    · decide
    · decide
    · decide
    · exact h2
  have hright : keystrokeToCanonicalCode evt ≠ py "OSRight" := by
    unfold keystrokeToCanonicalCode
    split_ifs with h1 h2 h3
    · decide
    · decide
    · decide
    · exact h3
  exact canonicalCode_of_ne hleft hright

theorem Recorded.assign {code : PyStr}
    (hcode : keystrokeToCanonicalCode { code := code } = code) (isPressed : Bool) :
    ∀ {state : KeyboardState}, Recorded state → Recorded (assign code isPressed state) := by
  intro state
  induction state with
  | nil =>
    rintro - entry hentry
    rw [KeyboardState.assign, List.mem_singleton] at hentry
    rw [hentry]
    exact hcode
  | cons first entries ih =>
    intro h
    obtain ⟨hfirst, hrest⟩ := List.forall_mem_cons.mp h
    unfold KeyboardState.assign
    split
    · exact List.forall_mem_cons.mpr ⟨hcode, hrest⟩
    · exact List.forall_mem_cons.mpr ⟨hfirst, ih hrest⟩

theorem Recorded.fixGroup {state : KeyboardState} (h : Recorded state) (evt : KeyboardEvent)
    (g : ModifierGroup) : Recorded (fixGroup evt state g) := by
  have hcode (m : Modifier) : keystrokeToCanonicalCode { code := m.code } = m.code := by
    cases m <;> decide
  unfold KeyboardState.fixGroup fixModifier
  split
  · exact (h.assign (hcode g.left) false).assign (hcode g.right) false
  · split
    · exact h
    · exact h.assign (hcode g.left) true

theorem Recorded.handleKey {state : KeyboardState} (h : Recorded state) (event : KeyEvent) :
    Recorded (state.handleKey event) := by
  cases event with
  | down evt =>
    have hassign := h.assign (canonicalCode_canonicalCode evt) true
    show Recorded (state.onKeyDown evt)
    unfold onKeyDown
    dsimp only
    split
    · exact (((hassign.fixGroup evt .altKey).fixGroup evt .metaKey).fixGroup evt .ctrlKey).fixGroup
        evt .shiftKey
    · exact hassign
  | up evt => exact h.assign (canonicalCode_canonicalCode evt) false

theorem Recorded.foldl {state : KeyboardState} (h : Recorded state) (events : List KeyEvent) :
    Recorded (events.foldl KeyboardState.handleKey state) := by
  induction events generalizing state with
  | nil => exact h
  | cons event events ih => exact ih (h.handleKey event)

theorem recorded_after (events : List KeyEvent) : Recorded (after events) :=
  Recorded.foldl (fun _ hentry => absurd hentry List.not_mem_nil) events

/-- Key-ups clear the marks of their codes. -/
theorem foldl_keyUp : ∀ (codes : List PyStr) (state : KeyboardState),
    (∀ code ∈ codes, keystrokeToCanonicalCode { code := code } = code) → ∀ code : PyStr,
      (codes.foldl keyUp state).isKeyPressed code
        = if code ∈ codes then false else state.isKeyPressed code := by
  intro codes
  induction codes with
  | nil => exact fun _ _ _ => rfl
  | cons first codes ih =>
    intro state hcodes code
    obtain ⟨hfirst, hcodes⟩ := List.forall_mem_cons.mp hcodes
    rw [List.foldl_cons, ih _ hcodes]
    unfold keyUp onKeyUp
    rw [hfirst, isKeyPressed_assign]
    by_cases hmem : code ∈ codes
    · rw [if_pos hmem, if_pos (List.mem_cons_of_mem _ hmem)]
    · rw [if_neg hmem]
      by_cases heq : code = first
      · rw [if_pos heq, if_pos (heq ▸ List.mem_cons_self)]
      · rw [if_neg heq, if_neg (fun h => (List.mem_cons.mp h).elim heq hmem)]

/-- No key is marked after a key-up for each of them. -/
theorem isKeyPressed_releaseAll {state : KeyboardState} (h : Recorded state) (code : PyStr) :
    state.releaseAll.isKeyPressed code = false := by
  have hcodes : ∀ code ∈ state.getAllPressedKeys,
      keystrokeToCanonicalCode { code := code } = code := by
    intro code hcode
    obtain ⟨entry, hentry, rfl⟩ := List.mem_map.mp hcode
    exact h entry (List.mem_of_mem_filter hentry)
  unfold releaseAll
  rw [foldl_keyUp _ _ hcodes]
  split
  · rfl
  · rename_i hnot
    cases hpressed : state.isKeyPressed code with
    | false => rfl
    | true => exact absurd (mem_getAllPressedKeys hpressed) hnot

/-- The `blur` handler of the page processes these key-ups. -/
theorem onKeyUps_keyboardState (keyCodes : List PyStr) (page : Page) :
    (Page.onKeyUps keyCodes page).1.keyboardState = keyCodes.foldl keyUp page.keyboardState := by
  induction keyCodes generalizing page with
  | nil => rfl
  | cons keyCode keyCodes ih => exact ih (page.onKeyUp { code := keyCode }).1

end KeyboardState

open KeyboardState

/-- **The keyboard state follows the browser**, after any key events: a key-down of another key puts
the modifiers right and changes no other key, and the key-ups for all pressed keys leave none. -/
theorem keyboard_follows_modifiers (events : List KeyEvent) :
    (∀ evt, isModifierCode (keystrokeToCanonicalCode evt) = false →
        FollowsModifiers evt (after events) (after (events ++ [.down evt]))) ∧
      ∀ code, (after events).releaseAll.isKeyPressed code = false := by
  constructor
  · intro evt hmod
    have hlast : after (events ++ [.down evt]) = (after events).onKeyDown evt := by
      simp [after, handleKey]
    rw [hlast]
    exact followsModifiers hmod (after events)
  · intro code
    exact isKeyPressed_releaseAll (recorded_after events) code

end TinyPilotKvm
