/-
# The socket's keyboard messages (`app/socket_api.py`)

A `keystroke` message is parsed, converted and written; a `keyRelease` message releases everything.
A keystroke of a lone modifier is not followed by a release, so the host goes on holding it.

`held_handle` says what one message does to the keys that the host holds, and
`keys_released` what any sequence of them does: **the host never holds more than the modifier of
the last lone-modifier keystroke**.
-/
import TinyPilotKvm.App.JsToHid

namespace TinyPilotKvm

/-! ## 1. The handlers -/

/-- What the page sends about keys. -/
inductive SocketMessage
  | keystroke (message : Json)
  | keyRelease

/-- `on_keystroke`, with the value of `success` in its answer. -/
def onKeystroke (keyboardPath : String) (message : Json) (dev : HidDevice) :
    Except PyException Bool × HidDevice :=
  match parseKeystroke message with
  | .error _ => (.ok false, dev)
  | .ok keystroke =>
    match keystroke.convert with
    | .error _ => (.ok false, dev)
    | .ok hidKeystroke =>
      match sendKeystroke keyboardPath hidKeystroke dev with
      | (.ok (), dev) => (.ok true, dev)
      | (.error (.writeError _), dev) => (.ok false, dev)
      | (.error e, dev) => (.error e, dev)

/-- `on_key_release`. -/
def onKeyRelease (keyboardPath : String) (dev : HidDevice) :
    Except PyException Unit × HidDevice :=
  match releaseKeys keyboardPath dev with
  | (.error (.writeError _), dev) => (.ok (), dev)
  | r => r

/-- The device after a message. -/
def SocketMessage.handle (keyboardPath : String) (dev : HidDevice) : SocketMessage → HidDevice
  | .keystroke message => (onKeystroke keyboardPath message dev).2
  | .keyRelease => (onKeyRelease keyboardPath dev).2

/-- The device after some messages. -/
def handleAll (keyboardPath : String) (messages : List SocketMessage) (dev : HidDevice) :
    HidDevice :=
  messages.foldl (SocketMessage.handle keyboardPath) dev

/-! ## 2. What the host holds -/

/-- The host holds the keys of the last report. -/
def HidDevice.held (dev : HidDevice) : Report := dev.received.getLastD releaseReport

/-- The byte of a report that has the modifiers. -/
def Report.modifier (report : Report) : UInt8 := report.headD 0

/-- The keycodes of a report; the second byte is reserved. -/
def Report.keycodes (report : Report) : List UInt8 := report.drop 2

/-- A report that presses modifiers only. -/
def modifierReport (modifier : UInt8) : Report := Keystroke.press ⟨keycodeNone, modifier⟩

/-- The keystroke of a message that is not rejected. -/
def acceptedKeystroke (message : Json) : Option Keystroke :=
  match parseKeystroke message with
  | .error _ => none
  | .ok keystroke => keystroke.convert.toOption

/-- The modifiers that a message leaves pressed; `none`: it is rejected, and nothing is written. -/
def SocketMessage.leaves : SocketMessage → Option UInt8
  | .keyRelease => some 0
  | .keystroke message =>
    (acceptedKeystroke message).map fun hid =>
      if hid.keycode ≠ keycodeNone then 0 else hid.modifier

@[simp] theorem modifier_modifierReport (m : UInt8) : (modifierReport m).modifier = m := rfl

theorem modifierReport_zero : modifierReport 0 = releaseReport := rfl

theorem acceptedKeystroke_eq_some {message : Json} {hid : Keystroke}
    (h : acceptedKeystroke message = some hid) :
    ∃ keystroke, parseKeystroke message = .ok keystroke ∧ keystroke.convert = .ok hid := by
  unfold acceptedKeystroke at h
  cases hparse : parseKeystroke message with
  | error e =>
    rw [hparse] at h
    cases h
  | ok keystroke =>
    rw [hparse] at h
    dsimp only at h
    cases hconvert : keystroke.convert with
    | error e =>
      rw [hconvert] at h
      cases h
    | ok hid' =>
      rw [hconvert] at h
      obtain rfl := Option.some.inj h
      exact ⟨keystroke, rfl, hconvert⟩

section

variable {keyboardPath : String}

theorem handle_keystroke_of_none {message : Json} (h : acceptedKeystroke message = none)
    (dev : HidDevice) : (SocketMessage.keystroke message).handle keyboardPath dev = dev := by
  unfold acceptedKeystroke at h
  rw [SocketMessage.handle, onKeystroke]
  cases hparse : parseKeystroke message with
  | error e => rfl
  | ok keystroke =>
    rw [hparse] at h
    dsimp only at h ⊢
    cases hconvert : keystroke.convert with
    | error e => rfl
    | ok hid =>
      rw [hconvert] at h
      cases h

theorem handle_keystroke_of_some {message : Json} {hid : Keystroke}
    (h : acceptedKeystroke message = some hid) (dev : HidDevice) :
    (SocketMessage.keystroke message).handle keyboardPath dev
      = (sendReports keyboardPath hid.reports dev).2 := by
  obtain ⟨keystroke, hparse, hconvert⟩ := acceptedKeystroke_eq_some h
  rw [SocketMessage.handle, onKeystroke, hparse]
  dsimp only
  rw [hconvert, ← sendKeystroke_eq]
  dsimp only
  split <;> simp [*]

theorem handle_keyRelease (dev : HidDevice) :
    SocketMessage.keyRelease.handle keyboardPath dev
      = (sendReports keyboardPath [releaseReport] dev).2 := by
  simp only [SocketMessage.handle, onKeyRelease, releaseKeys, sendReports, writeToHidInterface_eq]
  by_cases h : dev.outcome dev.writes = .hangs
  · rw [if_pos h]
  · rw [if_neg h]

/-- The last report of a keystroke. -/
theorem reports_eq_concat (hid : Keystroke) :
    ∃ before, hid.reports
      = before ++ [modifierReport (if hid.keycode ≠ keycodeNone then 0 else hid.modifier)] := by
  unfold Keystroke.reports keycodeNone
  by_cases hkey : hid.keycode ≠ 0
  · rw [if_pos hkey, if_pos hkey]
    exact ⟨[hid.press], rfl⟩
  · rw [if_neg hkey, if_neg hkey, modifierReport, keycodeNone, ← not_not.mp hkey]
    exact ⟨[], rfl⟩

/-- **What one message does to the host.** -/
theorem held_handle (keyboardPath : String) {dev : HidDevice}
    (hdelivered : ∀ n, dev.outcome n = .delivered)
    (message : SocketMessage) :
    (message.handle keyboardPath dev).outcome = dev.outcome ∧
      (message.handle keyboardPath dev).held
        = (message.leaves.map modifierReport).getD dev.held := by
  cases message with
  | keyRelease =>
    obtain ⟨-, houtcome, hreceived⟩ :=
      sendReports_of_delivered keyboardPath [releaseReport] dev hdelivered
    rw [handle_keyRelease]
    refine ⟨houtcome, ?_⟩
    rw [HidDevice.held, hreceived, List.getLastD_concat]
    rfl
  | keystroke message =>
    cases haccepted : acceptedKeystroke message with
    | none =>
      rw [handle_keystroke_of_none haccepted, SocketMessage.leaves, haccepted]
      exact ⟨rfl, rfl⟩
    | some hid =>
      obtain ⟨-, houtcome, hreceived⟩ :=
        sendReports_of_delivered keyboardPath hid.reports dev hdelivered
      obtain ⟨before, hlast⟩ := reports_eq_concat hid
      rw [handle_keystroke_of_some haccepted]
      refine ⟨houtcome, ?_⟩
      rw [HidDevice.held, hreceived, hlast, ← List.append_assoc, List.getLastD_concat,
        SocketMessage.leaves, haccepted]
      rfl

/-- The same for some messages: the modifiers that are pressed after them. -/
def leavesAll (messages : List SocketMessage) (modifier : UInt8) : UInt8 :=
  messages.foldl (fun m message => message.leaves.getD m) modifier

theorem held_handleAll (keyboardPath : String) (messages : List SocketMessage)
    {dev : HidDevice} {m : UInt8} (hdelivered : ∀ n, dev.outcome n = .delivered)
    (hheld : dev.held = modifierReport m) :
    (handleAll keyboardPath messages dev).held = modifierReport (leavesAll messages m) := by
  induction messages generalizing dev m with
  | nil => exact hheld
  | cons message messages ih =>
    obtain ⟨houtcome, hstep⟩ := held_handle keyboardPath hdelivered message
    refine ih (fun n => (congrFun houtcome n).trans (hdelivered n)) ?_
    rw [hstep, hheld, Option.getD_map]

/-! ## 3. The release discipline -/

/-- A rejected message writes nothing, on any device. -/
theorem handle_of_leaves_none {message : SocketMessage} (h : message.leaves = none)
    (dev : HidDevice) : message.handle keyboardPath dev = dev := by
  cases message with
  | keyRelease => cases h
  | keystroke message => exact handle_keystroke_of_none (Option.map_eq_none_iff.mp h) dev

end

/-- What stays pressed is one modifier, that of a lone-modifier keystroke. -/
theorem leaves_ne_zero {message : SocketMessage} {m : UInt8} (h : message.leaves = some m)
    (hm : m ≠ 0) :
    ∃ json keystroke, message = .keystroke json ∧ parseKeystroke json = .ok keystroke ∧
      keystroke.IsLoneModifier ∧ m = mapModifierKeys keystroke := by
  cases message with
  | keyRelease => exact absurd (Option.some.inj h).symm hm
  | keystroke json =>
    obtain ⟨hid, haccepted, hleft⟩ := Option.map_eq_some_iff.mp h
    obtain ⟨keystroke, hparse, hconvert⟩ := acceptedKeystroke_eq_some haccepted
    obtain ⟨hmodifier, hnone⟩ := convert_ok hconvert
    by_cases hkey : hid.keycode ≠ keycodeNone
    · rw [if_pos hkey] at hleft
      exact absurd hleft.symm hm
    · rw [if_neg hkey] at hleft
      exact ⟨json, keystroke, rfl, hparse, hnone.mp (not_not.mp hkey), hleft.symm.trans hmodifier⟩

/-- The last message that is not rejected decides. -/
theorem leavesAll_cases : ∀ (messages : List SocketMessage) (m : UInt8),
    ((∀ msg ∈ messages, msg.leaves = none) ∧ leavesAll messages m = m) ∨
      ∃ before message after, messages = before ++ message :: after ∧
        message.leaves = some (leavesAll messages m) ∧ ∀ msg ∈ after, msg.leaves = none
  | [], _ => Or.inl ⟨fun _ h => absurd h List.not_mem_nil, rfl⟩
  | message :: messages, m => by
    have hstep : leavesAll (message :: messages) m
        = leavesAll messages (message.leaves.getD m) := rfl
    rw [hstep]
    rcases leavesAll_cases messages (message.leaves.getD m) with
      ⟨hnone, hsame⟩ | ⟨before, msg, after, heq, hmsg, hafter⟩
    · cases hleaves : message.leaves with
      | none =>
        rw [hleaves] at hsame
        refine Or.inl ⟨?_, hsame⟩
        rintro msg (_ | ⟨_, hmem⟩)
        · exact hleaves
        · exact hnone msg hmem
      | some m' =>
        rw [hleaves] at hsame
        exact Or.inr ⟨[], message, messages, rfl, by rw [hleaves, hsame]; rfl, hnone⟩
    · exact Or.inr ⟨message :: before, msg, after, by rw [heq]; rfl, hmsg, hafter⟩

/-- **The host holds no key but the modifier of the last lone-modifier keystroke.**  The messages
after that keystroke are rejected: they write nothing. -/
theorem keys_released {keyboardPath : String} {dev : HidDevice}
    (hdelivered : ∀ n, dev.outcome n = .delivered) (hfree : dev.held = releaseReport)
    (messages : List SocketMessage) :
    (∀ keycode ∈ (handleAll keyboardPath messages dev).held.keycodes, keycode = 0) ∧
      (messages.getLast? = some .keyRelease →
        (handleAll keyboardPath messages dev).held = releaseReport) ∧
      ((handleAll keyboardPath messages dev).held.modifier ≠ 0 →
        ∃ before json after keystroke, messages = before ++ .keystroke json :: after ∧
          parseKeystroke json = .ok keystroke ∧ keystroke.IsLoneModifier ∧
          (handleAll keyboardPath messages dev).held.modifier = mapModifierKeys keystroke ∧
          mapModifierKeys keystroke ∈ modifierBits ∧
          ∀ message ∈ after, ∀ dev', message.handle keyboardPath dev' = dev') := by
  have hheld := held_handleAll keyboardPath messages hdelivered
    (hfree.trans modifierReport_zero.symm)
  rw [hheld, modifier_modifierReport]
  refine ⟨?_, ?_, ?_⟩
  · simp [Report.keycodes, modifierReport, Keystroke.press, keycodeNone]
  · intro hlast
    obtain ⟨before, rfl⟩ := List.getLast?_eq_some_iff.mp hlast
    rw [leavesAll, List.foldl_append]
    rfl
  · intro hm
    rcases leavesAll_cases messages 0 with ⟨-, hsame⟩ | ⟨before, message, after, heq, hmsg, hafter⟩
    · exact absurd hsame hm
    · obtain ⟨json, keystroke, rfl, hparse, hlone, hmodifier⟩ := leaves_ne_zero hmsg hm
      exact ⟨before, json, after, keystroke, heq, hparse, hlone, hmodifier,
        mapModifierKeys_of_count hlone.2,
        fun msg hmem dev' => handle_of_leaves_none (hafter msg hmem) dev'⟩

/-- The left control key goes down. -/
def leftCtrlDown : Json :=
  .dict [(py "ctrlLeft", .bool true), (py "key", .str (py "Control")),
    (py "code", .str (py "ControlLeft"))]

/-- A message that is no dictionary does not release it. -/
theorem keys_released_left_ctrl :
    let dev := handleAll "/dev/hidg0" [.keystroke leftCtrlDown, .keystroke .null]
      ⟨fun _ => .delivered, 0, []⟩
    dev.held.modifier = modifierLeftCtrl ∧ ∀ keycode ∈ dev.held.keycodes, keycode = 0 :=
  ⟨by decide +kernel, (keys_released (fun _ => rfl) rfl _).1⟩

end TinyPilotKvm
