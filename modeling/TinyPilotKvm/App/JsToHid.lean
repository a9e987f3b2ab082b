/-
# From a browser's keystroke to a HID keystroke (`app/request_parsers/keystroke.py`,
`app/js_to_hid.py`)

A message is any JSON value.  An accepted one has eight modifier flags and a code, and the code is
looked up in one table.  **A modifier that is pressed alone is the exception**: its keycode becomes
`KEYCODE_NONE`, and `convert_ok` says that this is the only way to get it.
-/
import TinyPilotKvm.App.TextToHid
import TinyPilotKvm.Python.Values

namespace TinyPilotKvm

/-! ## 1. The parser -/

/-- `Keystroke` of the parser. -/
structure JsKeystroke where
  leftCtrlModifier : Bool
  rightCtrlModifier : Bool
  leftShiftModifier : Bool
  rightShiftModifier : Bool
  leftAltModifier : Bool
  rightAltModifier : Bool
  leftMetaModifier : Bool
  rightMetaModifier : Bool
  /-- Only used for debugging; it is not checked. -/
  key : Json
  code : PyStr

/-- `Error` of the parser, with its text; the value at fault stands at the end of the text. -/
inductive KeystrokeError
  | missingFieldErrorError (text : String)
  | invalidModifierKeyError (text : String) (value : Json)
  | invalidKeyCodeError (text : String) (value : Json)

/-- `_merge_message_with_defaults`. -/
def mergeMessageWithDefaults (message : PyDict) : PyDict :=
  PyDict.update
    [(py "ctrlLeft", .bool false), (py "ctrlRight", .bool false), (py "shiftLeft", .bool false),
     (py "shiftRight", .bool false), (py "altLeft", .bool false), (py "altRight", .bool false),
     (py "metaLeft", .bool false), (py "metaRight", .bool false), (py "key", .str [])]
    message

/-- `_parse_modifier_key`. -/
def parseModifierKey : Json → Except KeystrokeError Bool
  | .bool b => .ok b
  | modifierKey => .error (.invalidModifierKeyError "Modifier keys must be boolean values: "
      modifierKey)

/-- `_parse_code`. -/
def parseCode : Json → Except KeystrokeError PyStr
  | .str code =>
    if code.length > 30 then
      .error (.invalidKeyCodeError "Key code is too long: " (.str code))
    else .ok code
  | code => .error (.invalidKeyCodeError "Key code must be a string: " code)

/-- `parse_keystroke`.  The defaults make every lookup but that of `code` succeed. -/
def parseKeystroke : Json → Except KeystrokeError JsKeystroke
  | .dict message =>
    match PyDict.get? message "code" with
    | none => .error (.missingFieldErrorError "Keystroke request is missing required field: code")
    | some _ => do
      let props (name : String) : Json :=
        (PyDict.get? (mergeMessageWithDefaults message) name).getD .null
      return {
        leftCtrlModifier := ← parseModifierKey (props "ctrlLeft")
        rightCtrlModifier := ← parseModifierKey (props "ctrlRight")
        leftShiftModifier := ← parseModifierKey (props "shiftLeft")
        rightShiftModifier := ← parseModifierKey (props "shiftRight")
        leftAltModifier := ← parseModifierKey (props "altLeft")
        rightAltModifier := ← parseModifierKey (props "altRight")
        leftMetaModifier := ← parseModifierKey (props "metaLeft")
        rightMetaModifier := ← parseModifierKey (props "metaRight")
        key := props "key"
        code := ← parseCode (props "code") }
  | _ => .error (.missingFieldErrorError
      "Keystroke parameter is invalid, expecting a dictionary data type")

/-! ## 2. Keycodes (`app/hid/keycodes.py`), those that the layouts do not use -/

def modifierLeftCtrl : UInt8 := 0x01
def modifierLeftAlt : UInt8 := 0x04
def modifierLeftMeta : UInt8 := 0x08
def modifierRightCtrl : UInt8 := 0x10
def modifierRightShift : UInt8 := 0x20
def modifierRightAlt : UInt8 := 0x40
def modifierRightMeta : UInt8 := 0x80
def keycodeNone : UInt8 := 0
def keycodeLeftAlt : UInt8 := 0xe2
def keycodeRightAlt : UInt8 := 0xe6
def keycodeDownArrow : UInt8 := 0x51
def keycodeLeftArrow : UInt8 := 0x50
def keycodeRightArrow : UInt8 := 0x4f
def keycodeUpArrow : UInt8 := 0x52
def keycodeBackspaceDelete : UInt8 := 0x2a
def keycodeCapsLock : UInt8 := 0x39
def keycodeContextMenu : UInt8 := 0x65
def keycodeLeftCtrl : UInt8 := 0xe0
def keycodeRightCtrl : UInt8 := 0xe4
def keycodeDelete : UInt8 := 0x4c
def keycodeEnd : UInt8 := 0x4d
def keycodeEscape : UInt8 := 0x29
def keycodeF1 : UInt8 := 0x3a
def keycodeF2 : UInt8 := 0x3b
def keycodeF3 : UInt8 := 0x3c
def keycodeF4 : UInt8 := 0x3d
def keycodeF5 : UInt8 := 0x3e
def keycodeF6 : UInt8 := 0x3f
def keycodeF7 : UInt8 := 0x40
def keycodeF8 : UInt8 := 0x41
def keycodeF9 : UInt8 := 0x42
def keycodeF10 : UInt8 := 0x43
def keycodeF11 : UInt8 := 0x44
def keycodeF12 : UInt8 := 0x45
def keycodeF13 : UInt8 := 0x68
def keycodeF14 : UInt8 := 0x69
def keycodeF15 : UInt8 := 0x6a
def keycodeF16 : UInt8 := 0x6b
def keycodeF17 : UInt8 := 0x6c
def keycodeF18 : UInt8 := 0x6d
def keycodeF19 : UInt8 := 0x6e
def keycodeF20 : UInt8 := 0x6f
def keycodeF21 : UInt8 := 0x70
def keycodeF22 : UInt8 := 0x71
def keycodeF23 : UInt8 := 0x72
def keycodeHome : UInt8 := 0x4a
def keycodeInsert : UInt8 := 0x49
def keycodeIntlRo : UInt8 := 0x87
def keycodeIntlYen : UInt8 := 0x89
def keycodeLeftMeta : UInt8 := 0xe3
def keycodeRightMeta : UInt8 := 0xe7
def keycodeNumpad0 : UInt8 := 0x62
def keycodeNumpad1 : UInt8 := 0x59
def keycodeNumpad2 : UInt8 := 0x5a
def keycodeNumpad3 : UInt8 := 0x5b
def keycodeNumpad4 : UInt8 := 0x5c
def keycodeNumpad5 : UInt8 := 0x5d
def keycodeNumpad6 : UInt8 := 0x5e
def keycodeNumpad7 : UInt8 := 0x5f
def keycodeNumpad8 : UInt8 := 0x60
def keycodeNumpad9 : UInt8 := 0x61
def keycodeNumpadMultiply : UInt8 := 0x55
def keycodeNumpadPlus : UInt8 := 0x57
def keycodeNumpadMinus : UInt8 := 0x56
def keycodeNumpadDot : UInt8 := 0x63
def keycodeNumpadDivide : UInt8 := 0x54
def keycodeNumpadEnter : UInt8 := 0x58
def keycodeNumLock : UInt8 := 0x53
def keycodePageUp : UInt8 := 0x4b
def keycodePageDown : UInt8 := 0x4e
def keycodePauseBreak : UInt8 := 0x48
def keycodePrintScreen : UInt8 := 0x46
def keycodeScrollLock : UInt8 := 0x47
def keycodeSelect : UInt8 := 0x77
def keycodeLeftShift : UInt8 := 0xe1
def keycodeRightShift : UInt8 := 0xe5

/-! ## 3. The conversion -/

/-- `_MODIFIER_KEYCODES`. -/
def modifierKeycodes : List PyStr :=
  [py "AltLeft", py "AltRight", py "ControlLeft", py "ControlRight", py "MetaLeft",
   py "MetaRight", py "ShiftLeft", py "ShiftRight"]

/-- `_MAPPING`. -/
def mapping : List (PyStr × UInt8) :=
  [(py "AltLeft", keycodeLeftAlt), (py "AltRight", keycodeRightAlt),
   (py "ArrowDown", keycodeDownArrow), (py "ArrowLeft", keycodeLeftArrow),
   (py "ArrowRight", keycodeRightArrow), (py "ArrowUp", keycodeUpArrow),
   (py "Backquote", keycodeAccentGrave), (py "Backslash", keycodeBackslash),
   (py "Backspace", keycodeBackspaceDelete), (py "BracketLeft", keycodeLeftBracket),
   (py "BracketRight", keycodeRightBracket), (py "CapsLock", keycodeCapsLock),
   (py "Comma", keycodeComma), (py "ContextMenu", keycodeContextMenu),
   (py "ControlLeft", keycodeLeftCtrl), (py "ControlRight", keycodeRightCtrl),
   (py "Delete", keycodeDelete), (py "Digit0", keycodeNumber0), (py "Digit1", keycodeNumber1),
   (py "Digit2", keycodeNumber2), (py "Digit3", keycodeNumber3), (py "Digit4", keycodeNumber4),
   (py "Digit5", keycodeNumber5), (py "Digit6", keycodeNumber6), (py "Digit7", keycodeNumber7),
   (py "Digit8", keycodeNumber8), (py "Digit9", keycodeNumber9), (py "End", keycodeEnd),
   (py "Enter", keycodeEnter), (py "Equal", keycodeEqualSign), (py "Escape", keycodeEscape),
   (py "F1", keycodeF1), (py "F2", keycodeF2), (py "F3", keycodeF3), (py "F4", keycodeF4),
   (py "F5", keycodeF5), (py "F6", keycodeF6), (py "F7", keycodeF7), (py "F8", keycodeF8),
   (py "F9", keycodeF9), (py "F10", keycodeF10), (py "F11", keycodeF11), (py "F12", keycodeF12),
   (py "F13", keycodeF13), (py "F14", keycodeF14), (py "F15", keycodeF15), (py "F16", keycodeF16),
   (py "F17", keycodeF17), (py "F18", keycodeF18), (py "F19", keycodeF19), (py "F20", keycodeF20),
   (py "F21", keycodeF21), (py "F22", keycodeF22), (py "F23", keycodeF23), (py "Home", keycodeHome),
   (py "Insert", keycodeInsert), (py "IntlBackslash", keycode102nd), (py "IntlRo", keycodeIntlRo),
   (py "IntlYen", keycodeIntlYen), (py "KeyA", keycodeA), (py "KeyB", keycodeB),
   (py "KeyC", keycodeC), (py "KeyD", keycodeD), (py "KeyE", keycodeE), (py "KeyF", keycodeF),
   (py "KeyG", keycodeG), (py "KeyH", keycodeH), (py "KeyI", keycodeI), (py "KeyJ", keycodeJ),
   (py "KeyK", keycodeK), (py "KeyL", keycodeL), (py "KeyM", keycodeM), (py "KeyN", keycodeN),
   (py "KeyO", keycodeO), (py "KeyP", keycodeP), (py "KeyQ", keycodeQ), (py "KeyR", keycodeR),
   (py "KeyS", keycodeS), (py "KeyT", keycodeT), (py "KeyU", keycodeU), (py "KeyV", keycodeV),
   (py "KeyW", keycodeW), (py "KeyX", keycodeX), (py "KeyY", keycodeY), (py "KeyZ", keycodeZ),
   (py "MetaLeft", keycodeLeftMeta), (py "MetaRight", keycodeRightMeta), (py "Minus", keycodeMinus),
   (py "Numpad0", keycodeNumpad0), (py "Numpad1", keycodeNumpad1), (py "Numpad2", keycodeNumpad2),
   (py "Numpad3", keycodeNumpad3), (py "Numpad4", keycodeNumpad4), (py "Numpad5", keycodeNumpad5),
   (py "Numpad6", keycodeNumpad6), (py "Numpad7", keycodeNumpad7), (py "Numpad8", keycodeNumpad8),
   (py "Numpad9", keycodeNumpad9), (py "NumpadMultiply", keycodeNumpadMultiply),
   (py "NumpadAdd", keycodeNumpadPlus), (py "NumpadSubtract", keycodeNumpadMinus),
   (py "NumpadDecimal", keycodeNumpadDot), (py "NumpadDivide", keycodeNumpadDivide),
   (py "NumpadEnter", keycodeNumpadEnter), (py "NumLock", keycodeNumLock),
   (py "OSLeft", keycodeLeftMeta), (py "OSRight", keycodeRightMeta), (py "PageUp", keycodePageUp),
   (py "PageDown", keycodePageDown), (py "Pause", keycodePauseBreak), (py "Period", keycodePeriod),
   (py "PrintScreen", keycodePrintScreen), (py "Quote", keycodeSingleQuote),
   (py "ScrollLock", keycodeScrollLock), (py "Select", keycodeSelect),
   (py "Semicolon", keycodeSemicolon), (py "ShiftLeft", keycodeLeftShift),
   (py "ShiftRight", keycodeRightShift), (py "Space", keycodeSpacebar),
   (py "Slash", keycodeForwardSlash), (py "Tab", keycodeTab)]

/-- `UnrecognizedKeyCodeError`; its text ends with the two values. -/
structure UnrecognizedKeyCodeError where
  key : Json
  code : PyStr

/-- `_count_modifiers`. -/
def countModifiers (keystroke : JsKeystroke) : Nat :=
  keystroke.leftCtrlModifier.toNat + keystroke.rightCtrlModifier.toNat +
    keystroke.leftShiftModifier.toNat + keystroke.rightShiftModifier.toNat +
    keystroke.leftAltModifier.toNat + keystroke.rightAltModifier.toNat +
    keystroke.leftMetaModifier.toNat + keystroke.rightMetaModifier.toNat

/-- `_map_keycode`. -/
def mapKeycode (keystroke : JsKeystroke) : Except UnrecognizedKeyCodeError UInt8 :=
  if keystroke.code ∈ modifierKeycodes ∧ countModifiers keystroke = 1 then .ok keycodeNone
  else
    match mapping.lookup keystroke.code with
    | some keycode => .ok keycode
    | none => .error ⟨keystroke.key, keystroke.code⟩

/-- `if flag: bitmask |= modifier`. -/
def orIf (flag : Bool) (modifier bitmask : UInt8) : UInt8 :=
  if flag then bitmask ||| modifier else bitmask

/-- `_map_modifier_keys`. -/
def mapModifierKeys (keystroke : JsKeystroke) : UInt8 :=
  let bitmask := orIf keystroke.leftCtrlModifier modifierLeftCtrl 0
  let bitmask := orIf keystroke.rightCtrlModifier modifierRightCtrl bitmask
  let bitmask := orIf keystroke.leftShiftModifier modifierLeftShift bitmask
  let bitmask := orIf keystroke.rightShiftModifier modifierRightShift bitmask
  let bitmask := orIf keystroke.leftAltModifier modifierLeftAlt bitmask
  let bitmask := orIf keystroke.rightAltModifier modifierRightAlt bitmask
  let bitmask := orIf keystroke.leftMetaModifier modifierLeftMeta bitmask
  orIf keystroke.rightMetaModifier modifierRightMeta bitmask

/-- `convert`. -/
def JsKeystroke.convert (keystroke : JsKeystroke) : Except UnrecognizedKeyCodeError Keystroke := do
  return { keycode := ← mapKeycode keystroke, modifier := mapModifierKeys keystroke }

/-! ## 4. Standalone modifiers -/

/-- A modifier's code, and exactly one modifier pressed. -/
def JsKeystroke.IsLoneModifier (keystroke : JsKeystroke) : Prop :=
  keystroke.code ∈ modifierKeycodes ∧ countModifiers keystroke = 1

instance (keystroke : JsKeystroke) : Decidable keystroke.IsLoneModifier :=
  inferInstanceAs (Decidable (_ ∧ _))

/-- The bits of the eight modifiers. -/
def modifierBits : List UInt8 :=
  [modifierLeftCtrl, modifierLeftShift, modifierLeftAlt, modifierLeftMeta, modifierRightCtrl,
   modifierRightShift, modifierRightAlt, modifierRightMeta]

theorem mapping_ne_none : ∀ entry ∈ mapping, entry.2 ≠ keycodeNone := by decide +kernel

theorem lookup_ne_none {code : PyStr} {keycode : UInt8} (h : mapping.lookup code = some keycode) :
    keycode ≠ keycodeNone := by
  obtain ⟨before, after, heq, -⟩ := List.lookup_eq_some_iff.mp h
  exact mapping_ne_none (code, keycode) (by rw [heq]; simp)

/-- A lone modifier is converted, whatever its code. -/
theorem convert_of_isLoneModifier {keystroke : JsKeystroke} (h : keystroke.IsLoneModifier) :
    keystroke.convert = .ok ⟨keycodeNone, mapModifierKeys keystroke⟩ := by
  unfold JsKeystroke.convert mapKeycode
  rw [if_pos (And.intro h.1 h.2)]
  rfl

/-- Anything else is looked up. -/
theorem convert_of_not_isLoneModifier {keystroke : JsKeystroke} (h : ¬ keystroke.IsLoneModifier) :
    keystroke.convert =
      match mapping.lookup keystroke.code with
      | some keycode => .ok ⟨keycode, mapModifierKeys keystroke⟩
      | none => .error ⟨keystroke.key, keystroke.code⟩ := by
  unfold JsKeystroke.convert mapKeycode
  rw [if_neg fun hlone => h ⟨hlone.1, hlone.2⟩]
  cases mapping.lookup keystroke.code <;> rfl

/-- **Only a lone modifier becomes `KEYCODE_NONE`.** -/
theorem convert_ok {keystroke : JsKeystroke} {hid : Keystroke} (h : keystroke.convert = .ok hid) :
    hid.modifier = mapModifierKeys keystroke ∧
      (hid.keycode = keycodeNone ↔ keystroke.IsLoneModifier) := by
  by_cases hlone : keystroke.IsLoneModifier
  · rw [convert_of_isLoneModifier hlone] at h
    obtain rfl := Except.ok.inj h
    exact ⟨rfl, fun _ => hlone, fun _ => rfl⟩
  · rw [convert_of_not_isLoneModifier hlone] at h
    cases hlookup : mapping.lookup keystroke.code with
    | none =>
      rw [hlookup] at h
      cases h
    | some keycode =>
      rw [hlookup] at h
      obtain rfl := Except.ok.inj h
      exact ⟨rfl, fun he => absurd he (lookup_ne_none hlookup), fun he => absurd he hlone⟩

/-- One flag is one bit. -/
theorem mapModifierKeys_of_count {keystroke : JsKeystroke} (h : countModifiers keystroke = 1) :
    mapModifierKeys keystroke ∈ modifierBits := by
  obtain ⟨a, b, c, d, e, f, g, i, key, code⟩ := keystroke
  have hall : ∀ a b c d e f g i : Bool,
      a.toNat + b.toNat + c.toNat + d.toNat + e.toNat + f.toNat + g.toNat + i.toNat = 1 →
        orIf i modifierRightMeta (orIf g modifierLeftMeta (orIf f modifierRightAlt
          (orIf e modifierLeftAlt (orIf d modifierRightShift (orIf c modifierLeftShift
            (orIf b modifierRightCtrl (orIf a modifierLeftCtrl 0))))))) ∈ modifierBits := by
    decide
  exact hall a b c d e f g i h

end TinyPilotKvm
