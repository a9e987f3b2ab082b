/-
# From text to keystrokes (`app/text_to_hid.py`, `app/request_parsers/paste.py`)

A layout is a table from characters to keystrokes: one part is common to all layouts, and each
layout adds its own.  A carriage return has no keystroke and is skipped; a character that is not
in the table makes the whole request fail.
-/
import TinyPilotKvm.App.Hid.Keyboard

namespace TinyPilotKvm

/-! ## 1. Keycodes (`app/hid/keycodes.py`), those that the layouts use -/

def modifierLeftShift : UInt8 := 0x02
def keycodeA : UInt8 := 0x04
def keycodeB : UInt8 := 0x05
def keycodeC : UInt8 := 0x06
def keycodeD : UInt8 := 0x07
def keycodeE : UInt8 := 0x08
def keycodeF : UInt8 := 0x09
def keycodeG : UInt8 := 0x0a
def keycodeH : UInt8 := 0x0b
def keycodeI : UInt8 := 0x0c
def keycodeJ : UInt8 := 0x0d
def keycodeK : UInt8 := 0x0e
def keycodeL : UInt8 := 0x0f
def keycodeM : UInt8 := 0x10
def keycodeN : UInt8 := 0x11
def keycodeO : UInt8 := 0x12
def keycodeP : UInt8 := 0x13
def keycodeQ : UInt8 := 0x14
def keycodeR : UInt8 := 0x15
def keycodeS : UInt8 := 0x16
def keycodeT : UInt8 := 0x17
def keycodeU : UInt8 := 0x18
def keycodeV : UInt8 := 0x19
def keycodeW : UInt8 := 0x1a
def keycodeX : UInt8 := 0x1b
def keycodeY : UInt8 := 0x1c
def keycodeZ : UInt8 := 0x1d
def keycodeNumber1 : UInt8 := 0x1e
def keycodeNumber2 : UInt8 := 0x1f
def keycodeNumber3 : UInt8 := 0x20
def keycodeNumber4 : UInt8 := 0x21
def keycodeNumber5 : UInt8 := 0x22
def keycodeNumber6 : UInt8 := 0x23
def keycodeNumber7 : UInt8 := 0x24
def keycodeNumber8 : UInt8 := 0x25
def keycodeNumber9 : UInt8 := 0x26
def keycodeNumber0 : UInt8 := 0x27
def keycodeEnter : UInt8 := 0x28
def keycodeTab : UInt8 := 0x2b
def keycodeSpacebar : UInt8 := 0x2c
def keycodeMinus : UInt8 := 0x2d
def keycodeEqualSign : UInt8 := 0x2e
def keycodeLeftBracket : UInt8 := 0x2f
def keycodeRightBracket : UInt8 := 0x30
def keycodeBackslash : UInt8 := 0x31
def keycodeSemicolon : UInt8 := 0x33
def keycodeSingleQuote : UInt8 := 0x34
def keycodeAccentGrave : UInt8 := 0x35
def keycodeComma : UInt8 := 0x36
def keycodePeriod : UInt8 := 0x37
def keycodeForwardSlash : UInt8 := 0x38
def keycode102nd : UInt8 := 0x64

/-! ## 2. Layouts -/

/-- A Python dictionary from characters to keystrokes, `None` included. -/
abbrev CharMap : Type := List (Char × Option Keystroke)

/-- `_COMMON_CHAR_TO_HID_MAP`. -/
def commonCharToHidMap : CharMap :=
  [('\r', none), ('\t', some ⟨keycodeTab, 0⟩), ('\n', some ⟨keycodeEnter, 0⟩),
   (' ', some ⟨keycodeSpacebar, 0⟩), ('1', some ⟨keycodeNumber1, 0⟩),
   ('2', some ⟨keycodeNumber2, 0⟩), ('3', some ⟨keycodeNumber3, 0⟩),
   ('4', some ⟨keycodeNumber4, 0⟩), ('5', some ⟨keycodeNumber5, 0⟩),
   ('6', some ⟨keycodeNumber6, 0⟩), ('7', some ⟨keycodeNumber7, 0⟩),
   ('8', some ⟨keycodeNumber8, 0⟩), ('9', some ⟨keycodeNumber9, 0⟩),
   ('0', some ⟨keycodeNumber0, 0⟩), ('$', some ⟨keycodeNumber4, modifierLeftShift⟩),
   ('!', some ⟨keycodeNumber1, modifierLeftShift⟩), ('%', some ⟨keycodeNumber5, modifierLeftShift⟩),
   ('^', some ⟨keycodeNumber6, modifierLeftShift⟩), ('&', some ⟨keycodeNumber7, modifierLeftShift⟩),
   ('*', some ⟨keycodeNumber8, modifierLeftShift⟩), ('(', some ⟨keycodeNumber9, modifierLeftShift⟩),
   (')', some ⟨keycodeNumber0, modifierLeftShift⟩), ('_', some ⟨keycodeMinus, modifierLeftShift⟩),
   ('-', some ⟨keycodeMinus, 0⟩), ('+', some ⟨keycodeEqualSign, modifierLeftShift⟩),
   ('=', some ⟨keycodeEqualSign, 0⟩), (':', some ⟨keycodeSemicolon, modifierLeftShift⟩),
   (';', some ⟨keycodeSemicolon, 0⟩), ('a', some ⟨keycodeA, 0⟩), ('b', some ⟨keycodeB, 0⟩),
   ('c', some ⟨keycodeC, 0⟩), ('d', some ⟨keycodeD, 0⟩), ('e', some ⟨keycodeE, 0⟩),
   ('f', some ⟨keycodeF, 0⟩), ('g', some ⟨keycodeG, 0⟩), ('h', some ⟨keycodeH, 0⟩),
   ('i', some ⟨keycodeI, 0⟩), ('j', some ⟨keycodeJ, 0⟩), ('k', some ⟨keycodeK, 0⟩),
   ('l', some ⟨keycodeL, 0⟩), ('m', some ⟨keycodeM, 0⟩), ('n', some ⟨keycodeN, 0⟩),
   ('o', some ⟨keycodeO, 0⟩), ('p', some ⟨keycodeP, 0⟩), ('q', some ⟨keycodeQ, 0⟩),
   ('r', some ⟨keycodeR, 0⟩), ('s', some ⟨keycodeS, 0⟩), ('t', some ⟨keycodeT, 0⟩),
   ('u', some ⟨keycodeU, 0⟩), ('v', some ⟨keycodeV, 0⟩), ('w', some ⟨keycodeW, 0⟩),
   ('x', some ⟨keycodeX, 0⟩), ('y', some ⟨keycodeY, 0⟩), ('z', some ⟨keycodeZ, 0⟩),
   ('A', some ⟨keycodeA, modifierLeftShift⟩), ('B', some ⟨keycodeB, modifierLeftShift⟩),
   ('C', some ⟨keycodeC, modifierLeftShift⟩), ('D', some ⟨keycodeD, modifierLeftShift⟩),
   ('E', some ⟨keycodeE, modifierLeftShift⟩), ('F', some ⟨keycodeF, modifierLeftShift⟩),
   ('G', some ⟨keycodeG, modifierLeftShift⟩), ('H', some ⟨keycodeH, modifierLeftShift⟩),
   ('I', some ⟨keycodeI, modifierLeftShift⟩), ('J', some ⟨keycodeJ, modifierLeftShift⟩),
   ('K', some ⟨keycodeK, modifierLeftShift⟩), ('L', some ⟨keycodeL, modifierLeftShift⟩),
   ('M', some ⟨keycodeM, modifierLeftShift⟩), ('N', some ⟨keycodeN, modifierLeftShift⟩),
   ('O', some ⟨keycodeO, modifierLeftShift⟩), ('P', some ⟨keycodeP, modifierLeftShift⟩),
   ('Q', some ⟨keycodeQ, modifierLeftShift⟩), ('R', some ⟨keycodeR, modifierLeftShift⟩),
   ('S', some ⟨keycodeS, modifierLeftShift⟩), ('T', some ⟨keycodeT, modifierLeftShift⟩),
   ('U', some ⟨keycodeU, modifierLeftShift⟩), ('V', some ⟨keycodeV, modifierLeftShift⟩),
   ('W', some ⟨keycodeW, modifierLeftShift⟩), ('X', some ⟨keycodeX, modifierLeftShift⟩),
   ('Y', some ⟨keycodeY, modifierLeftShift⟩), ('Z', some ⟨keycodeZ, modifierLeftShift⟩),
   (',', some ⟨keycodeComma, 0⟩), ('<', some ⟨keycodeComma, modifierLeftShift⟩),
   ('.', some ⟨keycodePeriod, 0⟩), ('>', some ⟨keycodePeriod, modifierLeftShift⟩),
   ('/', some ⟨keycodeForwardSlash, 0⟩), ('?', some ⟨keycodeForwardSlash, modifierLeftShift⟩),
   ('[', some ⟨keycodeLeftBracket, 0⟩), ('\x7b', some ⟨keycodeLeftBracket, modifierLeftShift⟩),
   (']', some ⟨keycodeRightBracket, 0⟩), ('\x7d', some ⟨keycodeRightBracket, modifierLeftShift⟩),
   ('\'', some ⟨keycodeSingleQuote, 0⟩)]

/-- `_US_CHAR_TO_HID_MAP`: in a union of dictionaries the right one wins. -/
def usCharToHidMap : CharMap :=
  [('@', some ⟨keycodeNumber2, modifierLeftShift⟩), ('#', some ⟨keycodeNumber3, modifierLeftShift⟩),
   ('~', some ⟨keycodeAccentGrave, modifierLeftShift⟩), ('\x60', some ⟨keycodeAccentGrave, 0⟩),
   ('\\', some ⟨keycodeBackslash, 0⟩), ('|', some ⟨keycodeBackslash, modifierLeftShift⟩),
   ('\x22', some ⟨keycodeSingleQuote, modifierLeftShift⟩)]
    ++ commonCharToHidMap

/-- `_GB_CHAR_TO_HID_MAP`. -/
def gbCharToHidMap : CharMap :=
  [('\x22', some ⟨keycodeNumber2, modifierLeftShift⟩),
    ('£', some ⟨keycodeNumber3, modifierLeftShift⟩),
   ('\\', some ⟨keycode102nd, 0⟩), ('|', some ⟨keycode102nd, modifierLeftShift⟩),
   ('~', some ⟨keycodeBackslash, modifierLeftShift⟩),
   ('#', some ⟨keycodeBackslash, modifierLeftShift⟩), ('\x60', some ⟨keycodeAccentGrave, 0⟩),
   ('¬', some ⟨keycodeAccentGrave, modifierLeftShift⟩),
   ('@', some ⟨keycodeSingleQuote, modifierLeftShift⟩)]
    ++ commonCharToHidMap

/-- The `language_map` of `convert`. -/
def languageMap (language : String) : CharMap :=
  match [("en-GB", gbCharToHidMap), ("en-US", usCharToHidMap)].lookup language with
  | some map => map
  | none => usCharToHidMap

/-- `UnsupportedCharacterError`. -/
structure UnsupportedCharacterError where
  message : String

/-- `convert`. -/
def convert (char : Char) (language : String) :
    Except UnsupportedCharacterError (Option Keystroke) :=
  match (languageMap language).lookup char with
  | some hidKeystroke => .ok hidKeystroke
  | none => .error ⟨"Unsupported character " ++ String.singleton char⟩

/-! ## 3. A pasted text -/

/-- The loop of `parse_keystrokes`: the keystrokes so far, and the keys of
`unsupported_chars_found`. -/
def parseChars (language : String) : List Char → List Keystroke → List Char →
    List Keystroke × List Char
  | [], keystrokes, unsupported => (keystrokes, unsupported)
  | char :: text, keystrokes, unsupported =>
    match convert char language with
    | .error _ =>
      parseChars language text keystrokes
        (if char ∈ unsupported then unsupported else unsupported ++ [char])
    | .ok none => parseChars language text keystrokes unsupported
    | .ok (some keystroke) => parseChars language text (keystrokes ++ [keystroke]) unsupported

/-- The message of `UnsupportedPastedCharacterError`; `repr` is Python's. -/
def unsupportedMessage (repr : Char → String) (unsupported : List Char) : String :=
  "These characters are not supported: " ++ ", ".intercalate (unsupported.map repr)

/-- `parse_keystrokes`, on the fields of the request. -/
def parseKeystrokes (repr : Char → String) (text : List Char) (language : String) :
    Except String (List Keystroke) :=
  let found := parseChars language text [] []
  if found.2 ≠ [] then .error (unsupportedMessage repr found.2) else .ok found.1

end TinyPilotKvm
