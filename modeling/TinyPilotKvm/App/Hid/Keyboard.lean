/-
# Writing keystrokes to the keyboard device (`app/hid/write.py`, `app/hid/keyboard.py`)

A keystroke is a report of eight bytes, and, unless it is a standalone modifier, a second one that
releases all keys.  Each report is written by a helper process of its own, which gets half a
second. The device decides how each write ends: it takes the report, it would block, or the write
hangs until the helper is killed.

The outcome passes through the helper's exception handler, the result object of
`execute.with_timeout` and the translation of `TimeoutError`.  `writeToHidInterface_eq` is what
comes out at the other end: **a write that would block is logged and counts as a success**.
-/
import Mathlib.Data.List.Basic

namespace TinyPilotKvm

/-! ## 1. Reports -/

/-- `Keystroke`.  Every keycode and modifier of the app is a byte. -/
structure Keystroke where
  keycode : UInt8
  modifier : UInt8 := 0
  deriving DecidableEq

abbrev Report : Type := List UInt8

/-- The buffer of `send_keystroke`. -/
def Keystroke.press (keystroke : Keystroke) : Report :=
  ((List.replicate 8 0).set 0 keystroke.modifier).set 2 keystroke.keycode

/-- The buffer of `release_keys`. -/
def releaseReport : Report := List.replicate 8 0

/-! ## 2. The device and the helper process -/

/-- How a write to the device ends. -/
inductive WriteOutcome
  | delivered
  | wouldBlock
  | hangs
  deriving DecidableEq

/-- The device: how its `n`th write ends, how many there have been, and what the host has got. -/
structure HidDevice where
  outcome : Nat → WriteOutcome
  writes : Nat
  received : List Report

inductive PyException
  | blockingIOError
  | timeoutError
  | writeError (message : String)
  deriving DecidableEq

/-- `with open(hid_path, 'ab+') as hid_handle: hid_handle.write(bytearray(buffer))`.  `none`: it
does not end. -/
def openAndWrite (dev : HidDevice) (buffer : Report) :
    Option (Except PyException Unit) × HidDevice :=
  let dev' := { dev with writes := dev.writes + 1 }
  match dev.outcome dev.writes with
  | .delivered => (some (.ok ()), { dev' with received := dev.received ++ [buffer] })
  | .wouldBlock => (some (.error .blockingIOError), dev')
  | .hangs => (none, dev')

/-- `_write_to_hid_interface_immediately`. -/
def writeToHidInterfaceImmediately (dev : HidDevice) (buffer : Report) :
    Option (Except PyException Unit) × HidDevice :=
  match openAndWrite dev buffer with
  | (some (.error .blockingIOError), dev) => (some (.ok ()), dev)
  | r => r

/-- `ProcessResult`; it was successful if it has no exception. -/
structure ProcessResult (α : Type) where
  returnValue : Option α := none
  exception : Option PyException := none

/-- What `ProcessWithResult.run` sends to its parent. -/
def processRun {α : Type} : Except PyException α → ProcessResult α
  | .ok a => { returnValue := some a }
  | .error e => { exception := some e }

/-- `execute.with_timeout`, once the helper is gone; `none`: it has sent no result. -/
def withTimeout {α : Type} (result : Option (ProcessResult α)) : Except PyException (Option α) :=
  match result with
  | none => .error .timeoutError
  | some result =>
    match result.exception with
    | some e => .error e
    | none => .ok result.returnValue

/-- The message of the `WriteError`. -/
def writeErrorMessage (hidPath : String) : String :=
  "Failed to write to HID interface: " ++ hidPath ++ ". Is USB cable connected?"

/-- `write_to_hid_interface`. -/
def writeToHidInterface (hidPath : String) (buffer : Report) (dev : HidDevice) :
    Except PyException Unit × HidDevice :=
  let r := writeToHidInterfaceImmediately dev buffer
  match withTimeout (r.1.map processRun) with
  | .ok _ => (.ok (), r.2)
  | .error .timeoutError => (.error (.writeError (writeErrorMessage hidPath)), r.2)
  | .error e => (.error e, r.2)

/-! ## 3. Keystrokes -/

/-- `release_keys`. -/
def releaseKeys (keyboardPath : String) (dev : HidDevice) : Except PyException Unit × HidDevice :=
  writeToHidInterface keyboardPath releaseReport dev

/-- `send_keystroke`. -/
def sendKeystroke (keyboardPath : String) (keystroke : Keystroke) (dev : HidDevice) :
    Except PyException Unit × HidDevice :=
  match writeToHidInterface keyboardPath keystroke.press dev with
  | (.error e, dev) => (.error e, dev)
  | (.ok (), dev) =>
    if keystroke.keycode ≠ 0 then releaseKeys keyboardPath dev else (.ok (), dev)

/-- `send_keystrokes`. -/
def sendKeystrokes (keyboardPath : String) : List Keystroke → HidDevice →
    Except PyException Unit × HidDevice
  | [], dev => (.ok (), dev)
  | keystroke :: keystrokes, dev =>
    match sendKeystroke keyboardPath keystroke dev with
    | (.error e, dev) => (.error e, dev)
    | (.ok (), dev) => sendKeystrokes keyboardPath keystrokes dev

/-! ## 4. What is written -/

/-- The reports of a keystroke: a standalone modifier stays pressed. -/
def Keystroke.reports (keystroke : Keystroke) : List Report :=
  if keystroke.keycode ≠ 0 then [keystroke.press, releaseReport] else [keystroke.press]

/-- One report after the other, until a write fails. -/
def sendReports (keyboardPath : String) :
    List Report → HidDevice → Except PyException Unit × HidDevice
  | [], dev => (.ok (), dev)
  | report :: reports, dev =>
    match writeToHidInterface keyboardPath report dev with
    | (.error e, dev) => (.error e, dev)
    | (.ok (), dev) => sendReports keyboardPath reports dev

/-- The device after a write. -/
def HidDevice.after (dev : HidDevice) (report : Report) : HidDevice where
  outcome := dev.outcome
  writes := dev.writes + 1
  received := dev.received ++ if dev.outcome dev.writes = .delivered then [report] else []

section

variable {keyboardPath : String}

/-- **What a write comes to**: only one that hangs is an error. -/
theorem writeToHidInterface_eq (report : Report) (dev : HidDevice) :
    writeToHidInterface keyboardPath report dev =
      (if dev.outcome dev.writes = .hangs then
        .error (.writeError (writeErrorMessage keyboardPath)) else .ok (), dev.after report) := by
  unfold writeToHidInterface writeToHidInterfaceImmediately openAndWrite HidDevice.after
  cases h : dev.outcome dev.writes <;> simp [processRun, withTimeout]

theorem sendReports_append (reports reports' : List Report) (dev : HidDevice) :
    sendReports keyboardPath (reports ++ reports') dev =
      match sendReports keyboardPath reports dev with
      | (.error e, dev) => (.error e, dev)
      | (.ok (), dev) => sendReports keyboardPath reports' dev := by
  induction reports generalizing dev with
  | nil => rfl
  | cons report reports ih =>
    rw [List.cons_append, sendReports, sendReports, writeToHidInterface_eq]
    by_cases h : dev.outcome dev.writes = .hangs
    · rw [if_pos h]
    · rw [if_neg h]
      exact ih _

/-- A keystroke sends its reports. -/
theorem sendKeystroke_eq (keystroke : Keystroke) (dev : HidDevice) :
    sendKeystroke keyboardPath keystroke dev = sendReports keyboardPath keystroke.reports dev := by
  unfold sendKeystroke Keystroke.reports releaseKeys
  by_cases hk : keystroke.keycode ≠ 0
  · simp only [if_pos hk, sendReports]
    simp only [writeToHidInterface_eq]
    split <;> rename_i heq
    · rfl
    · split <;> rfl
  · simp only [if_neg hk, sendReports]

theorem sendKeystrokes_eq (keystrokes : List Keystroke) (dev : HidDevice) :
    sendKeystrokes keyboardPath keystrokes dev
      = sendReports keyboardPath (keystrokes.flatMap Keystroke.reports) dev := by
  induction keystrokes generalizing dev with
  | nil => rfl
  | cons keystroke keystrokes ih =>
    rw [List.flatMap_cons, sendReports_append, sendKeystrokes, sendKeystroke_eq]
    split
    · rfl
    · exact ih _

/-- A property of the outcomes of the writes to come, after one write. -/
theorem outcome_after (dev : HidDevice) (report : Report) (i : Nat) :
    (dev.after report).outcome ((dev.after report).writes + i)
      = dev.outcome (dev.writes + (i + 1)) := by
  unfold HidDevice.after
  rw [Nat.add_assoc, Nat.add_comm 1 i]

/-- **Sending ends without an error exactly if no write hangs.** -/
theorem sendReports_fst (keyboardPath : String) (reports : List Report) (dev : HidDevice) :
    (sendReports keyboardPath reports dev).1 =
      if ∃ i < reports.length, dev.outcome (dev.writes + i) = .hangs then
        .error (.writeError (writeErrorMessage keyboardPath)) else .ok () := by
  induction reports generalizing dev with
  | nil =>
    rw [if_neg (by simp)]
    rfl
  | cons report reports ih =>
    rw [sendReports, writeToHidInterface_eq]
    by_cases h : dev.outcome dev.writes = .hangs
    · rw [if_pos h, if_pos ⟨0, by simp, h⟩]
    · rw [if_neg h]
      refine (ih (dev.after report)).trans ?_
      simp only [outcome_after, List.length_cons]
      refine if_congr ?_ rfl rfl
      constructor
      · rintro ⟨i, hi, hhang⟩
        exact ⟨i + 1, Nat.succ_lt_succ hi, hhang⟩
      · rintro ⟨i, hi, hhang⟩
        cases i with
        | zero => exact absurd hhang h
        | succ i => exact ⟨i, Nat.lt_of_succ_lt_succ hi, hhang⟩

/-- One write brings at most one report. -/
theorem length_received_after_le (dev : HidDevice) (report : Report) :
    (dev.after report).received.length ≤ dev.received.length + 1 := by
  unfold HidDevice.after
  rw [List.length_append]
  split <;> simp

/-- The host gets at most what is sent. -/
theorem sendReports_length_le (keyboardPath : String) (reports : List Report) (dev : HidDevice) :
    (sendReports keyboardPath reports dev).2.received.length
      ≤ dev.received.length + reports.length := by
  induction reports generalizing dev with
  | nil => exact Nat.le_refl _
  | cons report reports ih =>
    have h1 := length_received_after_le dev report
    have h2 := ih (dev.after report)
    rw [sendReports, writeToHidInterface_eq, List.length_cons]
    by_cases h : dev.outcome dev.writes = .hangs
    · rw [if_pos h]
      dsimp only
      omega
    · rw [if_neg h]
      dsimp only
      omega

/-- **The host gets everything exactly if no write blocks**, among writes that do not hang. -/
theorem sendReports_received_iff (keyboardPath : String) (reports : List Report) (dev : HidDevice)
    (h : ∀ i < reports.length, dev.outcome (dev.writes + i) ≠ .hangs) :
    (sendReports keyboardPath reports dev).2.received = dev.received ++ reports ↔
      ∀ i < reports.length, dev.outcome (dev.writes + i) ≠ .wouldBlock := by
  induction reports generalizing dev with
  | nil => simp [sendReports]
  | cons report reports ih =>
    have hfirst : dev.outcome dev.writes ≠ .hangs := h 0 (by simp)
    have hrest := ih (dev.after report) fun i hi => by
      rw [outcome_after]
      exact h (i + 1) (Nat.succ_lt_succ hi)
    rw [sendReports, writeToHidInterface_eq, if_neg hfirst]
    dsimp only
    simp only [outcome_after] at hrest
    by_cases hb : dev.outcome dev.writes = .wouldBlock
    · have hle := sendReports_length_le keyboardPath reports (dev.after report)
      have hsame : (dev.after report).received = dev.received := by
        simp only [HidDevice.after, hb]
        exact List.append_nil _
      constructor
      · intro heq
        rw [heq, hsame, List.length_append, List.length_cons] at hle
        omega
      · intro hall
        exact absurd hb (hall 0 (by simp))
    · have hdelivered : dev.outcome dev.writes = .delivered := by
        cases hc : dev.outcome dev.writes with
        | delivered => rfl
        | wouldBlock => exact absurd hc hb
        | hangs => exact absurd hc hfirst
      have hmore : dev.received ++ report :: reports = (dev.after report).received ++ reports := by
        simp only [HidDevice.after, hdelivered, if_true, List.append_assoc, List.singleton_append]
      rw [hmore, hrest]
      constructor
      · intro hall i hi
        cases i with
        | zero => exact hb
        | succ i => exact hall i (Nat.lt_of_succ_lt_succ hi)
      · intro hall i hi
        exact hall (i + 1) (Nat.succ_lt_succ hi)

/-- A device that takes every report. -/
theorem sendReports_of_delivered (keyboardPath : String) (reports : List Report) (dev : HidDevice)
    (h : ∀ n, dev.outcome n = .delivered) :
    (sendReports keyboardPath reports dev).1 = .ok () ∧
      (sendReports keyboardPath reports dev).2.outcome = dev.outcome ∧
      (sendReports keyboardPath reports dev).2.received = dev.received ++ reports := by
  induction reports generalizing dev with
  | nil => exact ⟨rfl, rfl, (List.append_nil _).symm⟩
  | cons report reports ih =>
    obtain ⟨hok, houtcome, hreceived⟩ := ih (dev.after report) h
    have hne : dev.outcome dev.writes ≠ .hangs := by simp [h]
    rw [sendReports, writeToHidInterface_eq, if_neg hne]
    refine ⟨hok, houtcome, hreceived.trans ?_⟩
    simp [HidDevice.after, h]

end

/-! ## 5. Delivery or error -/

/-- What a call promises: a normal return means that the host has got these reports, and any other
end is a `WriteError`. -/
def DeliveredOrError (dev : HidDevice) (reports : List Report)
    (r : Except PyException Unit × HidDevice) : Prop :=
  (r.1 = .ok () → r.2.received = dev.received ++ reports) ∧
    ∀ e, r.1 = .error e → ∃ message, e = .writeError message

/-- One of the next `n` writes hangs, or none of them would block. -/
def HangsOrNeverBlocks (dev : HidDevice) (n : Nat) : Prop :=
  (∃ i < n, dev.outcome (dev.writes + i) = .hangs) ∨
    ∀ i < n, dev.outcome (dev.writes + i) ≠ .wouldBlock

theorem sendReports_deliveredOrError_iff (keyboardPath : String) (reports : List Report)
    (dev : HidDevice) :
    DeliveredOrError dev reports (sendReports keyboardPath reports dev) ↔
      HangsOrNeverBlocks dev reports.length := by
  have hfst := sendReports_fst keyboardPath reports dev
  unfold DeliveredOrError HangsOrNeverBlocks
  by_cases hhang : ∃ i < reports.length, dev.outcome (dev.writes + i) = .hangs
  · rw [if_pos hhang] at hfst
    constructor
    · exact fun _ => Or.inl hhang
    · refine fun _ => ⟨fun hok => ?_, fun e he => ?_⟩
      · rw [hfst] at hok
        exact absurd hok (by simp)
      · exact ⟨_, (Except.error.inj (hfst.symm.trans he)).symm⟩
  · rw [if_neg hhang] at hfst
    have hnone : ∀ i < reports.length, dev.outcome (dev.writes + i) ≠ .hangs :=
      fun i hi he => hhang ⟨i, hi, he⟩
    have hiff := sendReports_received_iff keyboardPath reports dev hnone
    constructor
    · exact fun hprom => Or.inr (hiff.mp (hprom.1 hfst))
    · rintro (hh | hall)
      · exact absurd hh hhang
      · refine ⟨fun _ => hiff.mpr hall, fun e he => ?_⟩
        rw [hfst] at he
        exact absurd he (by simp)

/-- **Keystrokes are delivered or an error is raised exactly if one of their writes hangs or
none would block.**  For `send_keystrokes` and for `send_keystroke`. -/
theorem keystrokes_delivered_iff (keyboardPath : String) (dev : HidDevice) :
    (∀ keystrokes, DeliveredOrError dev (keystrokes.flatMap Keystroke.reports)
        (sendKeystrokes keyboardPath keystrokes dev) ↔
      HangsOrNeverBlocks dev (keystrokes.flatMap Keystroke.reports).length) ∧
      ∀ keystroke, DeliveredOrError dev keystroke.reports
        (sendKeystroke keyboardPath keystroke dev) ↔
        HangsOrNeverBlocks dev keystroke.reports.length := by
  constructor
  · intro keystrokes
    rw [sendKeystrokes_eq]
    exact sendReports_deliveredOrError_iff keyboardPath _ dev
  · intro keystroke
    rw [sendKeystroke_eq]
    exact sendReports_deliveredOrError_iff keyboardPath _ dev

/-- A device that blocks at the second write. -/
def blockedRelease : HidDevice where
  outcome n := if n = 1 then .wouldBlock else .delivered
  writes := 0
  received := []

/-- The write of the release would block: the call returns normally, and the key stays pressed. -/
theorem blocked_release_is_swallowed :
    (sendKeystrokes "/dev/hidg0" [⟨0x04, 0⟩] blockedRelease).1 = .ok () ∧
      (sendKeystrokes "/dev/hidg0" [⟨0x04, 0⟩] blockedRelease).2.received
        = [[0, 0, 4, 0, 0, 0, 0, 0]] ∧
      ¬ DeliveredOrError blockedRelease ([⟨0x04, 0⟩].flatMap Keystroke.reports)
        (sendKeystrokes "/dev/hidg0" [⟨0x04, 0⟩] blockedRelease) := by
  have hgot : (sendKeystrokes "/dev/hidg0" [⟨0x04, 0⟩] blockedRelease).2.received
      = [[0, 0, 4, 0, 0, 0, 0, 0]] := by decide
  refine ⟨by decide, hgot, fun hprom => ?_⟩
  have hall := hprom.1 (by decide)
  rw [hgot] at hall
  exact absurd hall (by decide)

end TinyPilotKvm
