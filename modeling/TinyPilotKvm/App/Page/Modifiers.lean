/-
# The eight modifiers, from the page to the host

A modifier has a code in the browser, a flag in a keystroke and a bit in a report.  The server
accepts the page's message if it knows the code.  **A modifier that goes down stays pressed if no
other one is marked** (`leaves_modifier`), and any other key releases everything (`leaves_key`).
-/
import TinyPilotKvm.App.Page.Keyboard

namespace TinyPilotKvm

/-! ## 1. The eight modifiers -/

inductive Modifier
  | altLeft
  | altRight
  | ctrlLeft
  | ctrlRight
  | metaLeft
  | metaRight
  | shiftLeft
  | shiftRight
  deriving DecidableEq

namespace Modifier

def all : List Modifier :=
  [ctrlLeft, ctrlRight, shiftLeft, shiftRight, altLeft, altRight, metaLeft, metaRight]

/-- Its code in the browser. -/
def code : Modifier → PyStr
  | altLeft => py "AltLeft"
  | altRight => py "AltRight"
  | ctrlLeft => py "ControlLeft"
  | ctrlRight => py "ControlRight"
  | metaLeft => py "MetaLeft"
  | metaRight => py "MetaRight"
  | shiftLeft => py "ShiftLeft"
  | shiftRight => py "ShiftRight"

/-- Its bit in a report. -/
def bit : Modifier → UInt8
  | altLeft => modifierLeftAlt
  | altRight => modifierRightAlt
  | ctrlLeft => modifierLeftCtrl
  | ctrlRight => modifierRightCtrl
  | metaLeft => modifierLeftMeta
  | metaRight => modifierRightMeta
  | shiftLeft => modifierLeftShift
  | shiftRight => modifierRightShift

/-- Its flag in a keystroke. -/
def flag (keystroke : JsKeystroke) : Modifier → Bool
  | altLeft => keystroke.leftAltModifier
  | altRight => keystroke.rightAltModifier
  | ctrlLeft => keystroke.leftCtrlModifier
  | ctrlRight => keystroke.rightCtrlModifier
  | metaLeft => keystroke.leftMetaModifier
  | metaRight => keystroke.rightMetaModifier
  | shiftLeft => keystroke.leftShiftModifier
  | shiftRight => keystroke.rightShiftModifier

/-- Its property of a keyboard event, which is the same on both sides. -/
def prop (evt : KeyboardEvent) : Modifier → Bool
  | altLeft | altRight => evt.altKey
  | ctrlLeft | ctrlRight => evt.ctrlKey
  | metaLeft | metaRight => evt.metaKey
  | shiftLeft | shiftRight => evt.shiftKey

theorem mem_all (m : Modifier) : m ∈ all := by
  cases m <;> decide

@[simp] theorem isModifierCode_code (m : Modifier) : isModifierCode m.code = true := by
  cases m <;> decide

theorem exists_of_isModifierCode {code : PyStr} (h : isModifierCode code = true) :
    ∃ m : Modifier, m.code = code := by
  simp only [isModifierCode, List.contains_cons, List.contains_nil, Bool.or_eq_true, beq_iff_eq,
    Bool.or_false] at h
  rcases h with rfl | rfl | rfl | rfl | rfl | rfl | rfl | rfl
  exacts [⟨altLeft, rfl⟩, ⟨altRight, rfl⟩, ⟨ctrlLeft, rfl⟩, ⟨ctrlRight, rfl⟩, ⟨metaLeft, rfl⟩,
    ⟨metaRight, rfl⟩, ⟨shiftLeft, rfl⟩, ⟨shiftRight, rfl⟩]

/-- The bitmask has the bits of the flags. -/
theorem mapModifierKeys_and_bit (keystroke : JsKeystroke) (m : Modifier) :
    mapModifierKeys keystroke &&& m.bit ≠ 0 ↔ m.flag keystroke = true := by
  obtain ⟨a, b, c, d, e, f, g, i, key, code⟩ := keystroke
  have hall : ∀ m ∈ all, ∀ a b c d e f g i : Bool,
      mapModifierKeys ⟨a, b, c, d, e, f, g, i, .null, []⟩ &&& m.bit ≠ 0 ↔
        m.flag ⟨a, b, c, d, e, f, g, i, .null, []⟩ = true := by
    decide +kernel
  have h := hall m (mem_all m) a b c d e f g i
  cases m <;> exact h

theorem length_filter_cons (p : Modifier → Bool) (m : Modifier) (ms : List Modifier) :
    ((m :: ms).filter p).length = (p m).toNat + (ms.filter p).length := by
  cases hp : p m
  · rw [List.filter_cons_of_neg (by simp [hp]), Bool.toNat_false, Nat.zero_add]
  · rw [List.filter_cons_of_pos hp, List.length_cons, Bool.toNat_true, Nat.add_comm]

theorem countModifiers_eq (keystroke : JsKeystroke) :
    countModifiers keystroke = (all.filter fun m => m.flag keystroke).length := by
  simp only [all, length_filter_cons, flag, List.filter_nil, List.length_nil, countModifiers,
    Nat.add_assoc, Nat.add_zero]

/-- A single flag. -/
theorem eq_of_countModifiers {keystroke : JsKeystroke} (h : countModifiers keystroke = 1)
    {m m' : Modifier} (hm : m.flag keystroke = true) (hm' : m'.flag keystroke = true) :
    m = m' := by
  rw [countModifiers_eq] at h
  obtain ⟨m0, heq⟩ := List.length_eq_one_iff.mp h
  have hsingle : ∀ m : Modifier, m.flag keystroke = true → m = m0 := by
    intro m hm
    have hmem : m ∈ all.filter fun m => m.flag keystroke :=
      List.mem_filter.mpr ⟨mem_all m, hm⟩
    rw [heq] at hmem
    exact List.mem_singleton.mp hmem
  exact (hsingle m hm).trans (hsingle m' hm').symm

end Modifier

/-! ## 2. What the server makes of the page's keystrokes -/

/-- The keystroke that the server parses. -/
def pageKeystroke (state : KeyboardState) (key code : PyStr) : JsKeystroke where
  leftCtrlModifier := state.isKeyPressed (py "ControlLeft")
  rightCtrlModifier := state.isKeyPressed (py "ControlRight")
  leftShiftModifier := state.isKeyPressed (py "ShiftLeft")
  rightShiftModifier := state.isKeyPressed (py "ShiftRight")
  leftAltModifier := state.isKeyPressed (py "AltLeft")
  rightAltModifier := state.isKeyPressed (py "AltRight")
  leftMetaModifier := state.isKeyPressed (py "MetaLeft")
  rightMetaModifier := state.isKeyPressed (py "MetaRight")
  key := .str key
  code := code

@[simp] theorem flag_pageKeystroke (state : KeyboardState) (key code : PyStr) (m : Modifier) :
    m.flag (pageKeystroke state key code) = state.isKeyPressed m.code := by
  cases m <;> rfl

/-- The page's message without modifiers from the on-screen keyboard. -/
def pageMessage (state : KeyboardState) (key code : PyStr) : Json :=
  .dict (keystrokeMessage state (fun _ => false) key code)

theorem parseKeystroke_pageMessage (state : KeyboardState) (key code : PyStr) :
    parseKeystroke (pageMessage state key code)
      = (parseCode (.str code)).map (pageKeystroke state key) := by
  simp only [pageMessage, keystrokeMessage, Bool.or_false]
  rfl

theorem length_le_of_lookup {code : PyStr} {keycode : UInt8}
    (h : mapping.lookup code = some keycode) : ¬ code.length > 30 := by
  have hall : ∀ entry ∈ mapping, ¬ entry.1.length > 30 := by decide +kernel
  obtain ⟨before, after, heq, -⟩ := List.lookup_eq_some_iff.mp h
  exact hall (code, keycode) (by rw [heq]; simp)

/-- A code that the server knows is accepted. -/
theorem acceptedKeystroke_of_lookup {code : PyStr} {keycode : UInt8}
    (h : mapping.lookup code = some keycode) (state : KeyboardState) (key : PyStr) :
    acceptedKeystroke (pageMessage state key code)
      = some ⟨if (pageKeystroke state key code).IsLoneModifier then keycodeNone else keycode,
          mapModifierKeys (pageKeystroke state key code)⟩ := by
  have hcode : (pageKeystroke state key code).code = code := rfl
  rw [acceptedKeystroke, parseKeystroke_pageMessage, parseCode, if_neg (length_le_of_lookup h)]
  dsimp only [Except.map]
  by_cases hlone : (pageKeystroke state key code).IsLoneModifier
  · rw [convert_of_isLoneModifier hlone, if_pos hlone]
    rfl
  · rw [convert_of_not_isLoneModifier hlone, if_neg hlone, hcode, h]
    rfl

/-- A code that it does not know is rejected. -/
theorem acceptedKeystroke_of_lookup_none {code : PyStr} (h : mapping.lookup code = none)
    (hmodifier : code ∉ modifierKeycodes) (state : KeyboardState) (key : PyStr) :
    acceptedKeystroke (pageMessage state key code) = none := by
  have hcode : (pageKeystroke state key code).code = code := rfl
  have hlone : ¬ (pageKeystroke state key code).IsLoneModifier := fun hl => hmodifier hl.1
  rw [acceptedKeystroke, parseKeystroke_pageMessage, parseCode]
  by_cases hlong : code.length > 30
  · rw [if_pos hlong]
    rfl
  · rw [if_neg hlong]
    dsimp only [Except.map]
    rw [convert_of_not_isLoneModifier hlone, hcode, h]
    rfl

/-- **A modifier stays pressed exactly if it is the only one.** -/
theorem leaves_modifier (m : Modifier) (state : KeyboardState) (key : PyStr) :
    (SocketMessage.keystroke (pageMessage state key m.code)).leaves
      = some (if countModifiers (pageKeystroke state key m.code) = 1 then
          mapModifierKeys (pageKeystroke state key m.code) else 0) := by
  have hknown : ∃ keycode, mapping.lookup m.code = some keycode := by
    cases m
    exacts [⟨_, rfl⟩, ⟨_, rfl⟩, ⟨_, rfl⟩, ⟨_, rfl⟩, ⟨_, rfl⟩, ⟨_, rfl⟩, ⟨_, rfl⟩, ⟨_, rfl⟩]
  have hmem : m.code ∈ modifierKeycodes := by
    cases m <;> decide
  obtain ⟨keycode, h⟩ := hknown
  rw [SocketMessage.leaves, acceptedKeystroke_of_lookup h, Option.map_some]
  dsimp only
  by_cases hcount : countModifiers (pageKeystroke state key m.code) = 1
  · have hlone : (pageKeystroke state key m.code).IsLoneModifier := ⟨hmem, hcount⟩
    rw [if_pos hlone, if_pos hcount, if_neg (not_not.mpr rfl)]
  · have hlone : ¬ (pageKeystroke state key m.code).IsLoneModifier := fun hl => hcount hl.2
    rw [if_neg hlone, if_neg hcount, if_pos (lookup_ne_none h)]

theorem notMem_modifierKeycodes {code : PyStr} (h : isModifierCode code = false) :
    code ∉ modifierKeycodes := by
  intro hmem
  have hcontains : isModifierCode code = true := List.contains_iff_mem.mpr hmem
  rw [h] at hcontains
  cases hcontains

/-- **Any other key is released, and all modifiers with it**, if the server knows it. -/
theorem leaves_key {code : PyStr} (h : isModifierCode code = false) (state : KeyboardState)
    (key : PyStr) :
    (SocketMessage.keystroke (pageMessage state key code)).leaves
      = if mapping.lookup code = none then none else some 0 := by
  have hmem := notMem_modifierKeycodes h
  cases hlookup : mapping.lookup code with
  | none =>
    rw [SocketMessage.leaves, acceptedKeystroke_of_lookup_none hlookup hmem]
    rfl
  | some keycode =>
    have hlone : ¬ (pageKeystroke state key code).IsLoneModifier := fun hl => hmem hl.1
    rw [SocketMessage.leaves, acceptedKeystroke_of_lookup hlookup, if_neg hlone, Option.map_some]
    dsimp only
    rw [if_pos (lookup_ne_none hlookup)]
    rfl

end TinyPilotKvm
