/-
# The page's keyboard (`app/static/js/app.js`, `keyboardstate.js`, `keycodes.js`, `keystrokes.js`)

The page marks the keys that are pressed, and sends a key that goes down together with the eight
modifiers as they are marked.  It sends a release when a modifier goes up, and both only while the
socket is connected.
-/
import TinyPilotKvm.App.SocketApi

namespace TinyPilotKvm

/-! ## 1. Key codes -/

/-- `KeyboardEvent`, as far as the page reads it.  The strings are given by their code points. -/
structure KeyboardEvent where
  key : PyStr := []
  code : PyStr
  altKey : Bool := false
  metaKey : Bool := false
  ctrlKey : Bool := false
  shiftKey : Bool := false

/-- `keystrokeToCanonicalCode`. -/
def keystrokeToCanonicalCode (keystroke : KeyboardEvent) : PyStr :=
  if keystroke.key = py "Alt" ∧ keystroke.code = [] then py "AltRight"
  else if keystroke.code = py "OSLeft" then py "MetaLeft"
  else if keystroke.code = py "OSRight" then py "MetaRight"
  else keystroke.code

/-- `isModifierCode`. -/
def isModifierCode (code : PyStr) : Bool :=
  [py "AltLeft", py "AltRight", py "ControlLeft", py "ControlRight", py "MetaLeft",
    py "MetaRight", py "ShiftLeft", py "ShiftRight"].contains code

/-! ## 2. `KeyboardState` -/

/-- The entries of `_isKeyPressed`. -/
abbrev KeyboardState : Type := List (PyStr × Bool)

namespace KeyboardState

/-- `this._isKeyPressed[code] = isPressed`. -/
def assign (code : PyStr) (isPressed : Bool) : KeyboardState → KeyboardState
  | [] => [(code, isPressed)]
  | entry :: entries =>
    if entry.1 = code then (code, isPressed) :: entries
    else entry :: assign code isPressed entries

/-- `isKeyPressed`.  The `in` of the source also finds the names that every object has, such as
`toString`; no key has such a code. -/
def isKeyPressed (state : KeyboardState) (canonicalCode : PyStr) : Bool :=
  (state.lookup canonicalCode).getD false

/-- One round of the loop of `_fixInternalModifierStates`, with the left and the right code. -/
def fixModifier (isModifierPressed : Bool) (left right : PyStr) (state : KeyboardState) :
    KeyboardState :=
  if !isModifierPressed then assign right false (assign left false state)
  else if state.isKeyPressed left || state.isKeyPressed right then state
  else assign left true state

/-- `_fixInternalModifierStates`. -/
def fixInternalModifierStates (evt : KeyboardEvent) (state : KeyboardState) : KeyboardState :=
  let state := fixModifier evt.altKey (py "AltLeft") (py "AltRight") state
  let state := fixModifier evt.metaKey (py "MetaLeft") (py "MetaRight") state
  let state := fixModifier evt.ctrlKey (py "ControlLeft") (py "ControlRight") state
  fixModifier evt.shiftKey (py "ShiftLeft") (py "ShiftRight") state

/-- `onKeyDown`. -/
def onKeyDown (evt : KeyboardEvent) (state : KeyboardState) : KeyboardState :=
  let canonicalCode := keystrokeToCanonicalCode evt
  let state := assign canonicalCode true state
  if !isModifierCode canonicalCode then fixInternalModifierStates evt state else state

/-- `onKeyUp`. -/
def onKeyUp (evt : KeyboardEvent) (state : KeyboardState) : KeyboardState :=
  assign (keystrokeToCanonicalCode evt) false state

/-- `getAllPressedKeys`. -/
def getAllPressedKeys (state : KeyboardState) : List PyStr :=
  (state.filter fun entry => entry.2).map fun entry => entry.1

@[simp] theorem isKeyPressed_nil (code : PyStr) : isKeyPressed [] code = false := rfl

theorem isKeyPressed_cons (c : PyStr) (b : Bool) (entries : KeyboardState) (code : PyStr) :
    isKeyPressed ((c, b) :: entries) code = if code = c then b else isKeyPressed entries code := by
  by_cases h : code = c
  · simp [isKeyPressed, h]
  · have hne : (code == c) = false := by simpa using h
    simp [isKeyPressed, List.lookup_cons, h, hne]

@[simp] theorem isKeyPressed_assign (code : PyStr) (isPressed : Bool) (code' : PyStr) :
    ∀ state : KeyboardState, (assign code isPressed state).isKeyPressed code'
      = if code' = code then isPressed else state.isKeyPressed code'
  | [] => isKeyPressed_cons code isPressed [] code'
  | (c, b) :: entries => by
    have ih := isKeyPressed_assign code isPressed code' entries
    unfold assign
    by_cases hc : c = code
    · subst hc
      rw [if_pos rfl, isKeyPressed_cons, isKeyPressed_cons]
      split <;> rfl
    · rw [if_neg hc, isKeyPressed_cons, isKeyPressed_cons, ih]
      by_cases h : code' = c
      · rw [if_pos h, if_pos h, if_neg (h ▸ hc)]
      · rw [if_neg h, if_neg h]

theorem mem_getAllPressedKeys {code : PyStr} : ∀ {state : KeyboardState},
    state.isKeyPressed code = true → code ∈ state.getAllPressedKeys
  | [], h => absurd h (by simp)
  | (c, b) :: entries, h => by
    rw [isKeyPressed_cons] at h
    unfold getAllPressedKeys
    rw [List.filter_cons]
    by_cases hc : code = c
    · rw [if_pos hc] at h
      simp [h, hc]
    · rw [if_neg hc] at h
      have hmem := mem_getAllPressedKeys h
      unfold getAllPressedKeys at hmem
      split
      · exact List.mem_cons_of_mem _ hmem
      · exact hmem

end KeyboardState

/-! ## 3. The page -/

/-- The page's state.  An overlay is known by its element's id. -/
structure Page where
  connectedToServer : Bool := false
  keyboardState : KeyboardState := []
  currentOverlays : List PyStr := []

/-- What happens to the page. -/
inductive PageEvent
  | keyDown (evt : KeyboardEvent)
  | keyUp (evt : KeyboardEvent)
  | blur
  | overlayToggled (overlay : PyStr) (isShown : Bool)
  | connect
  | disconnect

/-- `processKeystroke`: the message. -/
def processKeystroke (keystroke : PyDict) : List SocketMessage :=
  match PyDict.get? keystroke "keyCode" with
  | some (.int 229) => []
  | _ => [.keystroke (.dict keystroke)]

/-- The argument of `processKeystroke` in `onKeyDown`. -/
def keystrokeMessage (state : KeyboardState) (onScreenKeyboard : PyStr → Bool)
    (key code : PyStr) : PyDict :=
  let pressed (modifier : String) : Json :=
    .bool (state.isKeyPressed (py modifier) || onScreenKeyboard (py modifier))
  [(py "metaLeft", pressed "MetaLeft"), (py "metaRight", pressed "MetaRight"),
   (py "altLeft", pressed "AltLeft"), (py "altRight", pressed "AltRight"),
   (py "shiftLeft", pressed "ShiftLeft"), (py "shiftRight", pressed "ShiftRight"),
   (py "ctrlLeft", pressed "ControlLeft"), (py "ctrlRight", pressed "ControlRight"),
   (py "key", .str key), (py "code", .str code)]

namespace Page

/-- `isIgnoredKeystroke`. -/
def isIgnoredKeystroke (page : Page) (code : PyStr) : Bool :=
  isModifierCode code && page.keyboardState.isKeyPressed code

/-- `onKeyDown`: the page after it, and what it sends. -/
def onKeyDown (onScreenKeyboard : PyStr → Bool) (evt : KeyboardEvent) (page : Page) :
    Page × List SocketMessage :=
  if page.currentOverlays ≠ [] then (page, [])
  else
    let canonicalCode := keystrokeToCanonicalCode evt
    if page.isIgnoredKeystroke canonicalCode then (page, [])
    else
      let state := page.keyboardState.onKeyDown evt
      ({ page with keyboardState := state },
        if !page.connectedToServer then []
        else processKeystroke (keystrokeMessage state onScreenKeyboard evt.key canonicalCode))

/-- `onKeyUp`. -/
def onKeyUp (evt : KeyboardEvent) (page : Page) : Page × List SocketMessage :=
  ({ page with keyboardState := page.keyboardState.onKeyUp evt },
    if page.connectedToServer && isModifierCode (keystrokeToCanonicalCode evt) then [.keyRelease]
    else [])

/-- The loop of the `blur` handler. -/
def onKeyUps : List PyStr → Page → Page × List SocketMessage
  | [], page => (page, [])
  | keyCode :: keyCodes, page =>
    let r := page.onKeyUp { code := keyCode }
    let r' := onKeyUps keyCodes r.1
    (r'.1, r.2 ++ r'.2)

/-- `onSocketConnect`.  Where the page is reloaded, it starts anew. -/
def onSocketConnect (page : Page) : Page :=
  if page.currentOverlays.contains (py "shutdown-overlay") then {}
  else { page with connectedToServer := true }

/-- `trackStatus`. -/
def trackStatus (overlay : PyStr) (isShown : Bool) (page : Page) : Page :=
  { page with
    currentOverlays :=
      if isShown then page.currentOverlays.insert overlay
      else page.currentOverlays.erase overlay }

/-- What the page does on an event. -/
def handle (onScreenKeyboard : PyStr → Bool) (page : Page) : PageEvent → Page × List SocketMessage
  | .keyDown evt => page.onKeyDown onScreenKeyboard evt
  | .keyUp evt => page.onKeyUp evt
  | .blur => onKeyUps page.keyboardState.getAllPressedKeys page
  | .overlayToggled overlay isShown => (page.trackStatus overlay isShown, [])
  | .connect => (page.onSocketConnect, [])
  | .disconnect => ({ page with connectedToServer := false }, [])

end Page

end TinyPilotKvm
