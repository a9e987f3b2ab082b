/-
# Writing mouse events to the device (`app/hid/mouse.py`, `app/hid/write.py`)

A mouse event is one report of seven bytes.  The write is that of the keyboard, with more ways to
end: a number that is no byte, and any error of the device.  What comes of an error depends on the
class that Python gives it: one that would block is logged and nothing more, a timeout becomes a
`WriteError`, and **any other**, such as `ESHUTDOWN` when no host is connected, **is raised in the
caller as it is**.

`writeReport_writeToHidInterface` is the link to the model of the keyboard's writes.
-/
import Mathlib.Data.Rat.Floor
import Mathlib.Tactic.SplitIfs
import TinyPilotKvm.App.Hid.Keyboard

namespace TinyPilotKvm

/-! ## 1. Writing -/

/-- How a write to a device that can be opened ends. -/
inductive HidWriteOutcome
  | delivered
  | fails (errno : Nat)
  | hangs
  deriving DecidableEq

inductive HidException
  | blockingIOError
  | timeoutError
  /-- Any other `OSError`. -/
  | osError (errno : Nat)
  /-- `bytearray` of a number that is no byte. -/
  | valueError
  | writeError (message : String)
  deriving DecidableEq

def eAgain : Nat := 11
def eShutdown : Nat := 108
def eTimedOut : Nat := 110
def eAlready : Nat := 114
def eInProgress : Nat := 115

/-- The class of an `OSError`. -/
def osErrorOf (errno : Nat) : HidException :=
  if errno = eAgain ∨ errno = eAlready ∨ errno = eInProgress then .blockingIOError
  else if errno = eTimedOut then .timeoutError
  else .osError errno

/-- `bytearray(buffer)`. -/
def byteArray (buffer : List Int) : Option Report :=
  if ∀ n ∈ buffer, 0 ≤ n ∧ n < 256 then some (buffer.map fun n => n.toNat.toUInt8) else none

/-- `open` and `write`, and what the device gets; `none`: it does not end. -/
def openAndWriteReport (buffer : List Int) (outcome : HidWriteOutcome) :
    Option (Except HidException Unit) × List Report :=
  match byteArray buffer with
  | none => (some (.error .valueError), [])
  | some report =>
    match outcome with
    | .delivered => (some (.ok ()), [report])
    | .fails errno => (some (.error (osErrorOf errno)), [])
    | .hangs => (none, [])

/-- `_write_to_hid_interface_immediately`. -/
def writeReportImmediately (buffer : List Int) (outcome : HidWriteOutcome) :
    Option (Except HidException Unit) × List Report :=
  match openAndWriteReport buffer outcome with
  | (some (.error .blockingIOError), reports) => (some (.ok ()), reports)
  | r => r

/-- `execute.with_timeout`: an exception of the helper is raised again. -/
def withTimeoutResult : Option (Except HidException Unit) → Except HidException Unit
  | none => .error .timeoutError
  | some result => result

/-- `write_to_hid_interface`. -/
def writeReport (hidPath : String) (buffer : List Int) (outcome : HidWriteOutcome) :
    Except HidException Unit × List Report :=
  let r := writeReportImmediately buffer outcome
  match withTimeoutResult r.1 with
  | .error .timeoutError => (.error (.writeError (writeErrorMessage hidPath)), r.2)
  | result => (result, r.2)

/-- What a write comes to. -/
def writeResult (hidPath : String) : HidWriteOutcome → Except HidException Unit
  | .delivered => .ok ()
  | .hangs => .error (.writeError (writeErrorMessage hidPath))
  | .fails errno =>
    match osErrorOf errno with
    | .blockingIOError => .ok ()
    | .timeoutError => .error (.writeError (writeErrorMessage hidPath))
    | e => .error e

theorem osErrorOf_cases (errno : Nat) : osErrorOf errno = .blockingIOError ∨
    osErrorOf errno = .timeoutError ∨ osErrorOf errno = .osError errno := by
  unfold osErrorOf
  split_ifs
  · exact Or.inl rfl
  · exact Or.inr (Or.inl rfl)
  · exact Or.inr (Or.inr rfl)

/-- **A write of bytes**: only one that is delivered reaches the device. -/
theorem writeReport_eq (hidPath : String) {buffer : List Int} {report : Report}
    (hbytes : byteArray buffer = some report) (outcome : HidWriteOutcome) :
    writeReport hidPath buffer outcome
      = (writeResult hidPath outcome, if outcome = .delivered then [report] else []) := by
  unfold writeReport writeReportImmediately openAndWriteReport
  rw [hbytes]
  cases outcome with
  | delivered => rfl
  | hangs => rfl
  | fails errno =>
    rw [writeResult]
    dsimp only
    rcases osErrorOf_cases errno with h | h | h <;> rw [h] <;> rfl

/-- The outcomes that the keyboard's model has. -/
def WriteOutcome.toHid : WriteOutcome → HidWriteOutcome
  | .delivered => .delivered
  | .wouldBlock => .fails eAgain
  | .hangs => .hangs

def PyException.toHid : PyException → HidException
  | .blockingIOError => .blockingIOError
  | .timeoutError => .timeoutError
  | .writeError message => .writeError message

/-- **The same write as the keyboard's**, where that model has the outcome. -/
theorem writeReport_writeToHidInterface (hidPath : String) {buffer : List Int} {report : Report}
    (hbytes : byteArray buffer = some report) (dev : HidDevice) :
    (writeReport hidPath buffer (dev.outcome dev.writes).toHid).1
        = (writeToHidInterface hidPath report dev).1.mapError PyException.toHid ∧
      (writeToHidInterface hidPath report dev).2.received
        = dev.received ++ (writeReport hidPath buffer (dev.outcome dev.writes).toHid).2 := by
  rw [writeToHidInterface_eq, writeReport_eq hidPath hbytes]
  unfold HidDevice.after
  cases dev.outcome dev.writes <;> exact ⟨rfl, rfl⟩

/-! ## 2. Mouse events -/

/-- `int` of a float. -/
def truncate (q : ℚ) : Int := if 0 ≤ q then ⌊q⌋ else ⌈q⌉

/-- `n & 0xff`. -/
def lowByte (n : Int) : Int := n % 256

/-- `_scale_mouse_coordinates`. -/
def scaleMouseCoordinates (relativeX relativeY : ℚ) : Int × Int :=
  let maxHidValue : ℚ := 32767
  (truncate (relativeX * maxHidValue), truncate (relativeY * maxHidValue))

/-- `_translate_vertical_wheel_delta`. -/
def translateVerticalWheelDelta (verticalWheelDelta : Int) : Int := verticalWheelDelta * -1

/-- The buffer of `send_mouse_event`. -/
def mouseBuffer (buttons : Int) (relativeX relativeY : ℚ)
    (verticalWheelDelta horizontalWheelDelta : Int) : List Int :=
  let (x, y) := scaleMouseCoordinates relativeX relativeY
  [buttons, lowByte x, lowByte (x >>> (8 : Nat)), lowByte y, lowByte (y >>> (8 : Nat)),
    lowByte (translateVerticalWheelDelta verticalWheelDelta), lowByte horizontalWheelDelta]

/-- `send_mouse_event`. -/
def sendMouseEvent (mousePath : String) (buttons : Int) (relativeX relativeY : ℚ)
    (verticalWheelDelta horizontalWheelDelta : Int) (outcome : HidWriteOutcome) :
    Except HidException Unit × List Report :=
  writeReport mousePath
    (mouseBuffer buttons relativeX relativeY verticalWheelDelta horizontalWheelDelta) outcome

/-! ## 3. The report -/

/-- The numbers of an event that the parser accepts. -/
structure MouseNumbers (buttons : Int) (relativeX relativeY : ℚ)
    (verticalWheelDelta horizontalWheelDelta : Int) : Prop where
  buttons : 0 ≤ buttons ∧ buttons ≤ 31
  relativeX : 0 ≤ relativeX ∧ relativeX ≤ 1
  relativeY : 0 ≤ relativeY ∧ relativeY ≤ 1
  vertical : verticalWheelDelta = -1 ∨ verticalWheelDelta = 0 ∨ verticalWheelDelta = 1
  horizontal : horizontalWheelDelta = -1 ∨ horizontalWheelDelta = 0 ∨ horizontalWheelDelta = 1

/-- What a report of an event should be. -/
def IsMouseReport (buttons : Int) (relativeX relativeY : ℚ)
    (verticalWheelDelta horizontalWheelDelta : Int) (report : Report) : Prop :=
  ∃ b0 b1 b2 b3 b4 b5 b6 : UInt8, report = [b0, b1, b2, b3, b4, b5, b6] ∧
    (b0.toNat : Int) = buttons ∧
    (b1.toNat + 256 * b2.toNat : Int) = ⌊relativeX * 32767⌋ ∧ ⌊relativeX * 32767⌋ ≤ 32767 ∧
    (b3.toNat + 256 * b4.toNat : Int) = ⌊relativeY * 32767⌋ ∧ ⌊relativeY * 32767⌋ ≤ 32767 ∧
    b5.toInt8.toInt = -verticalWheelDelta ∧ b6.toInt8.toInt = horizontalWheelDelta

/-- A scaled coordinate. -/
theorem truncate_scaled {q : ℚ} (h0 : 0 ≤ q) (h1 : q ≤ 1) :
    truncate (q * 32767) = ⌊q * 32767⌋ ∧ 0 ≤ ⌊q * 32767⌋ ∧ ⌊q * 32767⌋ ≤ 32767 := by
  have hnonneg : 0 ≤ q * 32767 := mul_nonneg h0 (by norm_num)
  have hle : q * 32767 ≤ 32767 := by linarith
  refine ⟨if_pos hnonneg, Int.floor_nonneg.mpr hnonneg, ?_⟩
  have hmono := Int.floor_mono hle
  rwa [show ⌊(32767 : ℚ)⌋ = 32767 from Int.floor_ofNat 32767] at hmono

theorem toNat_toUInt8 {n : Int} (h0 : 0 ≤ n) (h1 : n < 256) :
    ((n.toNat.toUInt8).toNat : Int) = n := by
  rw [Nat.toUInt8, UInt8.toNat_ofNat', Nat.mod_eq_of_lt (by omega), Int.toNat_of_nonneg h0]

theorem lowByte_range (n : Int) : 0 ≤ lowByte n ∧ lowByte n < 256 := by
  unfold lowByte
  omega

/-- The two bytes of a coordinate. -/
theorem lowByte_pair {n : Int} (h0 : 0 ≤ n) (h1 : n ≤ 32767) :
    lowByte n + (256 : Int) * lowByte (n >>> (8 : Nat)) = n := by
  unfold lowByte
  rw [Int.shiftRight_eq_div_pow]
  omega

/-- The byte of a wheel delta. -/
theorem toInt8_lowByte {n : Int} (h : n = -1 ∨ n = 0 ∨ n = 1) :
    (lowByte n).toNat.toUInt8.toInt8.toInt = n := by
  rcases h with rfl | rfl | rfl <;> decide

section

variable {buttons verticalWheelDelta horizontalWheelDelta : Int} {relativeX relativeY : ℚ}

/-- **The buffer of an accepted event is a report of it.** -/
theorem byteArray_mouseBuffer (h : MouseNumbers buttons relativeX relativeY verticalWheelDelta
      horizontalWheelDelta) :
    ∃ report, byteArray (mouseBuffer buttons relativeX relativeY verticalWheelDelta
        horizontalWheelDelta) = some report ∧
      IsMouseReport buttons relativeX relativeY verticalWheelDelta horizontalWheelDelta report := by
  obtain ⟨hx, hx0, hx1⟩ := truncate_scaled h.relativeX.1 h.relativeX.2
  obtain ⟨hy, hy0, hy1⟩ := truncate_scaled h.relativeY.1 h.relativeY.2
  have hbytes : ∀ n ∈ mouseBuffer buttons relativeX relativeY verticalWheelDelta
      horizontalWheelDelta, 0 ≤ n ∧ n < 256 := by
    intro n hn
    simp only [mouseBuffer, List.mem_cons, List.not_mem_nil, or_false] at hn
    have hbuttons := h.buttons
    rcases hn with rfl | rfl | rfl | rfl | rfl | rfl | rfl
    · omega
    all_goals exact lowByte_range _
  have hvertical : translateVerticalWheelDelta verticalWheelDelta = -verticalWheelDelta := by
    unfold translateVerticalWheelDelta
    omega
  refine ⟨_, if_pos hbytes, _, _, _, _, _, _, _, rfl, ?_, ?_, hx1, ?_, hy1, ?_, ?_⟩
  · exact toNat_toUInt8 h.buttons.1 (by have := h.buttons.2; omega)
  · rw [toNat_toUInt8 (lowByte_range _).1 (lowByte_range _).2,
      toNat_toUInt8 (lowByte_range _).1 (lowByte_range _).2, hx]
    exact lowByte_pair hx0 hx1
  · rw [toNat_toUInt8 (lowByte_range _).1 (lowByte_range _).2,
      toNat_toUInt8 (lowByte_range _).1 (lowByte_range _).2, hy]
    exact lowByte_pair hy0 hy1
  · rw [hvertical]
    exact toInt8_lowByte (by have := h.vertical; omega)
  · exact toInt8_lowByte h.horizontal

end

end TinyPilotKvm
