/-
# The socket's mouse messages (`app/request_parsers/mouse_event.py`, `app/socket_api.py`)

A message is parsed, scaled to the range of the device and written.  A boolean counts as a number,
as it does in Python, and a float that is not finite is in no range.

The numbers of an accepted message always make a report of bytes (`byteArray_mouseBuffer`).  What
may go wrong is the write: **an error of the device is either taken for a success or raised in the
handler**.  `mouse_event_iff` says when all is well.
-/
import TinyPilotKvm.App.Hid.Mouse
import TinyPilotKvm.Fallible
import TinyPilotKvm.Python.Values

namespace TinyPilotKvm

/-! ## 1. The request -/

/-- The errors of the parser.  A message that ends with the value is given without it. -/
inductive MouseRequestError
  | missingFieldErrorError (message : String)
  | invalidButtonStateError (message : String) (value : Json)
  | invalidRelativePositionError (message : String) (value : Json)
  | invalidWheelValueError (message : String) (value : Json)

/-- `MouseEvent`, as the parser returns it. -/
structure MouseEventRequest where
  buttons : Int
  relativeX : ℚ
  relativeY : ℚ
  verticalWheelDelta : Int
  horizontalWheelDelta : Int

/-- A value that is an `int`, as a number. -/
def intValue : Json → Option Int
  | .int n => some n
  | .bool b => some b.toInt
  | _ => none

/-- `_MAX_BUTTON_STATE`. -/
def maxButtonState : Int := 2 ^ 5 - 1

/-- `_parse_button_state`. -/
def parseButtonState (buttons : Json) : Except MouseRequestError Int :=
  checkValue (intValue buttons) (fun n => 0 ≤ n ∧ n ≤ maxButtonState)
    (.invalidButtonStateError "Button state must be an integer value: " buttons)
    (.invalidButtonStateError "Button state must be <= 0x1f: " buttons)

/-- `_parse_wheel_value`. -/
def parseWheelValue (wheelValue : Json) : Except MouseRequestError Int :=
  checkValue (intValue wheelValue) (fun n => n = -1 ∨ n = 0 ∨ n = 1)
    (.invalidWheelValueError "Wheel value must be a int: " wheelValue)
    (.invalidWheelValueError "Wheel value must be -1, 0, or 1: " wheelValue)

/-- `message[field]`, if it is there. -/
def mouseField (message : PyDict) (field : String) : Except MouseRequestError Json :=
  match PyDict.get? message field with
  | some value => .ok value
  | none =>
    .error (.missingFieldErrorError ("Mouse event request is missing required field: " ++ field))

section

-- the number that a float is; `none`: it is not finite
variable (floatValue : PyStr → Option ℚ)

/-- A value that is an `int` or a `float`, as a number. -/
def rationalValue : Json → Option ℚ
  | .float repr => floatValue repr
  | value => (intValue value).map fun n => n

/-- `_parse_relative_position`. -/
def parseRelativePosition (relativePosition : Json) : Except MouseRequestError ℚ :=
  checkValue (rationalValue floatValue relativePosition) (fun q => 0 ≤ q ∧ q ≤ 1)
    (.invalidRelativePositionError
      "Relative position must be a float between 0.0 and 1.0: " relativePosition)
    (.invalidRelativePositionError
      "Relative position must be a float between 0.0 and 1.0: " relativePosition)

/-- `parse_mouse_event`. -/
def parseMouseEvent : Json → Except MouseRequestError MouseEventRequest
  | .dict message => do
    let buttons ← mouseField message "buttons"
    let relativeX ← mouseField message "relativeX"
    let relativeY ← mouseField message "relativeY"
    let verticalWheelDelta ← mouseField message "verticalWheelDelta"
    let horizontalWheelDelta ← mouseField message "horizontalWheelDelta"
    let buttons ← parseButtonState buttons
    let relativeX ← parseRelativePosition floatValue relativeX
    let relativeY ← parseRelativePosition floatValue relativeY
    let verticalWheelDelta ← parseWheelValue verticalWheelDelta
    let horizontalWheelDelta ← parseWheelValue horizontalWheelDelta
    return { buttons, relativeX, relativeY, verticalWheelDelta, horizontalWheelDelta }
  | _ => .error (.missingFieldErrorError
      "Mouse event parameter is invalid, expecting a dictionary data type")

/-- `on_mouse_event`: the value of `success`, or the exception, and what the device gets. -/
def onMouseEvent (mousePath : String) (message : Json) (outcome : HidWriteOutcome) :
    Except HidException Bool × List Report :=
  match parseMouseEvent floatValue message with
  | .error _ => (.ok false, [])
  | .ok event =>
    match sendMouseEvent mousePath event.buttons event.relativeX event.relativeY
        event.verticalWheelDelta event.horizontalWheelDelta outcome with
    | (.ok (), reports) => (.ok true, reports)
    | (.error (.writeError _), reports) => (.ok false, reports)
    | (.error e, reports) => (.error e, reports)

/-! ## 2. What should come of a message -/

/-- The numbers of a message. -/
structure MessageNumbers (message : Json) (event : MouseEventRequest) : Prop where
  fields : ∃ fields, message = .dict fields ∧
    (PyDict.get? fields "buttons").bind intValue = some event.buttons ∧
    (PyDict.get? fields "relativeX").bind (rationalValue floatValue) = some event.relativeX ∧
    (PyDict.get? fields "relativeY").bind (rationalValue floatValue) = some event.relativeY ∧
    (PyDict.get? fields "verticalWheelDelta").bind intValue = some event.verticalWheelDelta ∧
    (PyDict.get? fields "horizontalWheelDelta").bind intValue = some event.horizontalWheelDelta
  ranges : MouseNumbers event.buttons event.relativeX event.relativeY event.verticalWheelDelta
    event.horizontalWheelDelta

/-- No exception, and one report of the message's numbers, or none and a failure. -/
def EndsWell (message : Json) (r : Except HidException Bool × List Report) : Prop :=
  (∃ success, r.1 = .ok success) ∧
    ((r.1 = .ok false ∧ r.2 = []) ∨
      ∃ event report, MessageNumbers floatValue message event ∧
        IsMouseReport event.buttons event.relativeX event.relativeY event.verticalWheelDelta
          event.horizontalWheelDelta report ∧ r.2 = [report])

/-! ## 3. What the parser accepts -/

theorem parseButtonState_eq_ok {value : Json} {n : Int} :
    parseButtonState value = .ok n ↔ intValue value = some n ∧ 0 ≤ n ∧ n ≤ 31 :=
  checkValue_eq_ok

theorem parseWheelValue_eq_ok {value : Json} {n : Int} :
    parseWheelValue value = .ok n ↔ intValue value = some n ∧ (n = -1 ∨ n = 0 ∨ n = 1) :=
  checkValue_eq_ok

variable {floatValue}

theorem parseRelativePosition_eq_ok {value : Json} {q : ℚ} :
    parseRelativePosition floatValue value = .ok q ↔
      rationalValue floatValue value = some q ∧ 0 ≤ q ∧ q ≤ 1 :=
  checkValue_eq_ok

theorem mouseField_eq_ok {message : PyDict} {field : String} {value : Json} :
    mouseField message field = .ok value ↔ PyDict.get? message field = some value := by
  unfold mouseField
  cases PyDict.get? message field with
  | none => simp
  | some found => simp

/-- **The messages that are accepted** have their numbers, in their ranges. -/
theorem parseMouseEvent_eq_ok {message : Json} {event : MouseEventRequest} :
    parseMouseEvent floatValue message = .ok event ↔ MessageNumbers floatValue message event := by
  constructor
  · intro h
    cases message with
    | dict fields =>
      obtain ⟨buttons, hbuttons, h⟩ := bind_eq_ok h
      obtain ⟨relativeX, hrelativeX, h⟩ := bind_eq_ok h
      obtain ⟨relativeY, hrelativeY, h⟩ := bind_eq_ok h
      obtain ⟨vertical, hvertical, h⟩ := bind_eq_ok h
      obtain ⟨horizontal, hhorizontal, h⟩ := bind_eq_ok h
      obtain ⟨b, hb, h⟩ := bind_eq_ok h
      obtain ⟨x, hx, h⟩ := bind_eq_ok h
      obtain ⟨y, hy, h⟩ := bind_eq_ok h
      obtain ⟨v, hv, h⟩ := bind_eq_ok h
      obtain ⟨z, hz, h⟩ := bind_eq_ok h
      cases h
      obtain ⟨hb, hbRange⟩ := parseButtonState_eq_ok.mp hb
      obtain ⟨hx, hxRange⟩ := parseRelativePosition_eq_ok.mp hx
      obtain ⟨hy, hyRange⟩ := parseRelativePosition_eq_ok.mp hy
      obtain ⟨hv, hvRange⟩ := parseWheelValue_eq_ok.mp hv
      obtain ⟨hz, hzRange⟩ := parseWheelValue_eq_ok.mp hz
      refine ⟨⟨fields, rfl, ?_⟩, ⟨hbRange, hxRange, hyRange, hvRange, hzRange⟩⟩
      rw [mouseField_eq_ok.mp hbuttons, mouseField_eq_ok.mp hrelativeX,
        mouseField_eq_ok.mp hrelativeY, mouseField_eq_ok.mp hvertical,
        mouseField_eq_ok.mp hhorizontal]
      exact ⟨hb, hx, hy, hv, hz⟩
    | null | bool | int | float | str | list => cases h
  · rintro ⟨⟨fields, rfl, hb, hx, hy, hv, hz⟩, ranges⟩
    obtain ⟨buttons, hbuttons, hb⟩ := Option.bind_eq_some_iff.mp hb
    obtain ⟨relativeX, hrelativeX, hx⟩ := Option.bind_eq_some_iff.mp hx
    obtain ⟨relativeY, hrelativeY, hy⟩ := Option.bind_eq_some_iff.mp hy
    obtain ⟨vertical, hvertical, hv⟩ := Option.bind_eq_some_iff.mp hv
    obtain ⟨horizontal, hhorizontal, hz⟩ := Option.bind_eq_some_iff.mp hz
    have hb := parseButtonState_eq_ok.mpr ⟨hb, ranges.buttons⟩
    have hx := parseRelativePosition_eq_ok.mpr ⟨hx, ranges.relativeX⟩
    have hy := parseRelativePosition_eq_ok.mpr ⟨hy, ranges.relativeY⟩
    have hv := parseWheelValue_eq_ok.mpr ⟨hv, ranges.vertical⟩
    have hz := parseWheelValue_eq_ok.mpr ⟨hz, ranges.horizontal⟩
    simp only [parseMouseEvent, mouseField_eq_ok.mpr hbuttons, mouseField_eq_ok.mpr hrelativeX,
      mouseField_eq_ok.mpr hrelativeY, mouseField_eq_ok.mpr hvertical,
      mouseField_eq_ok.mpr hhorizontal, bind, Except.bind, hb, hx, hy, hv, hz]
    rfl

/-! ## 4. The handler -/

/-- What the handler makes of the end of a write. -/
def handlerResult (mousePath : String) (outcome : HidWriteOutcome) : Except HidException Bool :=
  match writeResult mousePath outcome with
  | .ok () => .ok true
  | .error (.writeError _) => .ok false
  | .error e => .error e

theorem onMouseEvent_of_ok {mousePath : String} {message : Json} {event : MouseEventRequest}
    (h : parseMouseEvent floatValue message = .ok event) (outcome : HidWriteOutcome) :
    ∃ report, IsMouseReport event.buttons event.relativeX event.relativeY
        event.verticalWheelDelta event.horizontalWheelDelta report ∧
      onMouseEvent floatValue mousePath message outcome
        = (handlerResult mousePath outcome, if outcome = .delivered then [report] else []) := by
  obtain ⟨report, hbytes, hreport⟩ := byteArray_mouseBuffer (parseMouseEvent_eq_ok.mp h).ranges
  refine ⟨report, hreport, ?_⟩
  unfold onMouseEvent sendMouseEvent handlerResult
  rw [h]
  dsimp only
  rw [writeReport_eq mousePath hbytes]
  rcases writeResult mousePath outcome with (e | ⟨⟩)
  · cases e <;> rfl
  · rfl

/-- The ends of a write after which all is well. -/
def GoodOutcome (outcome : HidWriteOutcome) : Prop :=
  outcome = .delivered ∨ outcome = .hangs ∨ outcome = .fails eTimedOut

/-- A write error that is no timeout is a success or an exception. -/
theorem handlerResult_fails (mousePath : String) {errno : Nat} (h : errno ≠ eTimedOut) :
    handlerResult mousePath (.fails errno) = .ok true ∨
      ∃ e, handlerResult mousePath (.fails errno) = .error e := by
  unfold handlerResult writeResult
  dsimp only
  rcases osErrorOf_cases errno with hclass | hclass | hclass
  · rw [hclass]
    exact Or.inl rfl
  · unfold osErrorOf at hclass
    split_ifs at hclass
  · rw [hclass]
    exact Or.inr ⟨_, rfl⟩

/-- A rejected message: a failure, and nothing is written. -/
theorem endsWell_of_error {mousePath : String} {message : Json} {e : MouseRequestError}
    (h : parseMouseEvent floatValue message = .error e) (outcome : HidWriteOutcome) :
    EndsWell floatValue message (onMouseEvent floatValue mousePath message outcome) := by
  unfold onMouseEvent
  rw [h]
  exact ⟨⟨false, rfl⟩, Or.inl ⟨rfl, rfl⟩⟩

/-- An accepted message. -/
theorem endsWell_of_ok_iff {mousePath : String} {message : Json} {event : MouseEventRequest}
    (h : parseMouseEvent floatValue message = .ok event) (outcome : HidWriteOutcome) :
    EndsWell floatValue message (onMouseEvent floatValue mousePath message outcome) ↔
      GoodOutcome outcome := by
  obtain ⟨report, hreport, hrun⟩ := onMouseEvent_of_ok h outcome
  rw [hrun]
  constructor
  · rintro ⟨⟨success, hsuccess⟩, hend⟩
    cases outcome with
    | delivered => exact Or.inl rfl
    | hangs => exact Or.inr (Or.inl rfl)
    | fails errno =>
      by_cases hout : errno = eTimedOut
      · exact Or.inr (Or.inr (by rw [hout]))
      · -- nothing is written, so that only a failure would do
        rcases hend with ⟨hfalse, -⟩ | ⟨_, _, -, -, hwritten⟩
        · rcases handlerResult_fails mousePath hout with htrue | ⟨e, he⟩
          · rw [htrue] at hfalse
            cases hfalse
          · rw [he] at hfalse
            cases hfalse
        · cases hwritten
  · rintro (rfl | rfl | rfl)
    · exact ⟨⟨true, rfl⟩, Or.inr ⟨event, report, parseMouseEvent_eq_ok.mp h, hreport, rfl⟩⟩
    · exact ⟨⟨false, rfl⟩, Or.inl ⟨rfl, rfl⟩⟩
    · exact ⟨⟨false, rfl⟩, Or.inl ⟨rfl, rfl⟩⟩

/-- **A mouse message ends well** if and only if it has no numbers in their ranges, or the write is
delivered, hangs or times out. -/
theorem mouse_event_iff (floatValue : PyStr → Option ℚ) (mousePath : String) (message : Json)
    (outcome : HidWriteOutcome) :
    EndsWell floatValue message (onMouseEvent floatValue mousePath message outcome) ↔
      (¬ ∃ event, MessageNumbers floatValue message event) ∨ GoodOutcome outcome := by
  cases hparse : parseMouseEvent floatValue message with
  | error e =>
    refine iff_of_true (endsWell_of_error hparse outcome) (Or.inl ?_)
    rintro ⟨event, hnumbers⟩
    rw [parseMouseEvent_eq_ok.mpr hnumbers] at hparse
    cases hparse
  | ok event =>
    have hnumbers := parseMouseEvent_eq_ok.mp hparse
    rw [endsWell_of_ok_iff hparse]
    constructor
    · intro h
      exact Or.inr h
    · rintro (h | h)
      · exact absurd ⟨event, hnumbers⟩ h
      · exact h

/-- A click in the middle of the screen: with the cable out it is a success though nothing is
written, and with the host asleep the handler raises. -/
theorem click_lost_or_raised :
    let floatValue : PyStr → Option ℚ := fun repr => if repr = py "0.5" then some (1 / 2) else none
    let message : Json := .dict [(py "buttons", .int 1), (py "relativeX", .float (py "0.5")),
      (py "relativeY", .float (py "0.5")), (py "verticalWheelDelta", .int 0),
      (py "horizontalWheelDelta", .int 0)]
    onMouseEvent floatValue "/dev/hidg1" message (.fails eAgain) = (.ok true, []) ∧
      onMouseEvent floatValue "/dev/hidg1" message (.fails eShutdown)
        = (.error (.osError eShutdown), []) ∧
      ¬ EndsWell floatValue message
        (onMouseEvent floatValue "/dev/hidg1" message (.fails eAgain)) ∧
      ¬ EndsWell floatValue message
        (onMouseEvent floatValue "/dev/hidg1" message (.fails eShutdown)) := by
  intro floatValue message
  have hhalf : parseRelativePosition floatValue (.float (py "0.5")) = .ok (1 / 2) := by
    have hvalue : rationalValue floatValue (.float (py "0.5")) = some (1 / 2) := by
      change floatValue (py "0.5") = _
      exact if_pos rfl
    exact parseRelativePosition_eq_ok.mpr ⟨hvalue, by norm_num⟩
  have hparse : parseMouseEvent floatValue message = .ok ⟨1, 1 / 2, 1 / 2, 0, 0⟩ := by
    change (do
      let relativeX ← parseRelativePosition floatValue (.float (py "0.5"))
      let relativeY ← parseRelativePosition floatValue (.float (py "0.5"))
      Except.ok (MouseEventRequest.mk 1 relativeX relativeY 0 0)) = _
    rw [hhalf]
    rfl
  have hagain : onMouseEvent floatValue "/dev/hidg1" message (.fails eAgain) = (.ok true, []) := by
    obtain ⟨_, -, hrun⟩ := onMouseEvent_of_ok hparse (.fails eAgain)
    exact hrun
  have hshutdown : onMouseEvent floatValue "/dev/hidg1" message (.fails eShutdown)
      = (.error (.osError eShutdown), []) := by
    obtain ⟨_, -, hrun⟩ := onMouseEvent_of_ok hparse (.fails eShutdown)
    exact hrun
  refine ⟨hagain, hshutdown, ?_, ?_⟩
  · rw [hagain]
    rintro ⟨-, ⟨hfalse, -⟩ | ⟨_, _, -, -, hwritten⟩⟩
    · cases hfalse
    · cases hwritten
  · rw [hshutdown]
    rintro ⟨⟨_, hraised⟩, -⟩
    cases hraised

end

end TinyPilotKvm
