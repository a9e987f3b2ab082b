/-
# Simplification of request paths (`ustreamer/http/path.c`)

`us_simplify_request_path` copies a path into a block of `strlen(str) + 1` bytes, character by
character, and at each end of a token (a slash and what follows it) may set the write pointer
back: over the token if it is `/` or `/.`, and over the token before as well if it is `/..`.

The pointers are indices, into `mem`, the memory of the argument, or into `simplified`.  Every
access is checked, and the two loops over the argument have a bound on their turns: `none` is an
access outside the memory, or a loop that has not ended.
-/
import TinyPilotKvm.Libs.Memory

namespace TinyPilotKvm

def chSlash : UInt8 := '/'.toUInt8
def chDot : UInt8 := '.'.toUInt8
def chSpace : UInt8 := ' '.toUInt8

/-- The variables of the main loop. -/
structure PathState where
  simplified : List UInt8
  str : Nat
  out : Nat
  slash : Nat
  /-- The one before. -/
  pre1 : UInt8
  /-- Current character. -/
  ch : UInt8

/-- "Skip leading spaces." -/
def skipSpaces (mem : List UInt8) : Nat → Nat → Option Nat
  | 0, _ => none
  | turns + 1, str => do
    let c ← mem[str]?
    if c = chSpace then skipSpaces mem turns (str + 1) else return str

/-- The dots at the beginning of a relative path. -/
def skipDots (mem : List UInt8) (str : Nat) : Option Nat := do
  let c0 ← mem[str]?
  if c0 ≠ chDot then return str
  let c1 ← mem[str + 1]?
  if c1 = chSlash ∨ c1 = 0 then return str + 1
  if c1 ≠ chDot then return str
  let c2 ← mem[str + 2]?
  if c2 = chSlash ∨ c2 = 0 then return str + 2 else return str

/-- `for (; out > start && *out != '/'; --out);`. -/
def backToSlash (simplified : List UInt8) : Nat → Option Nat
  | 0 => some 0
  | out + 1 => do
    let c ← simplified[out + 1]?
    if c = chSlash then return out + 1 else backToSlash simplified out

/-- `*slash == '/'`, which is read after a token of three characters that ends in two dots. -/
def dotDotAt (simplified : List UInt8) (slash toklen : Nat) (pre2 pre1 : UInt8) : Option Bool :=
  if toklen = 3 ∧ pre2 = chDot ∧ pre1 = chDot then
    simplified[slash]?.map fun c => c == chSlash
  else some false

/-- `out = slash`, and back over the component before, "if there is something before". -/
def overComponent (simplified : List UInt8) (slash : Nat) : Option Nat :=
  if slash > 0 then backToSlash simplified (slash - 1) else some slash

/-- `out - slash`, the difference of two pointers as a size. -/
def tokenLength (slash out : Nat) : Option Nat := if slash ≤ out then some (out - slash) else none

/-- What the end of a token does to `out`. -/
def endToken (simplified : List UInt8) (slash out : Nat) (pre2 pre1 ch : UInt8) : Option Nat := do
  let toklen ← tokenLength slash out
  if ← dotDotAt simplified slash toklen pre2 pre1 then
    let out ← overComponent simplified slash
    return if ch = 0 then out + 1 else out
  else if toklen = 1 ∨ (pre2 = chSlash ∧ pre1 = chDot) then
    return if ch = 0 then slash + 1 else slash
  else return out

/-- One turn of the main loop. -/
def pathTurn (mem : List UInt8) (s : PathState) : Option PathState := do
  let pre2 := s.pre1
  let pre1 := s.ch
  let ch ← mem[s.str]?
  let simplified ← store s.simplified s.out pre1
  let out := s.out + 1
  let str := s.str + 1
  if ch = chSlash ∨ ch = 0 then
    let out ← endToken simplified s.slash out pre2 pre1 ch
    return { simplified := simplified, str := str, out := out, slash := out, pre1 := pre1,
             ch := ch }
  else
    return { simplified := simplified, str := str, out := out, slash := s.slash, pre1 := pre1,
             ch := ch }

/-- The main loop. -/
def pathLoop (mem : List UInt8) : Nat → PathState → Option PathState
  | 0, s => if s.ch = 0 then some s else none
  | turns + 1, s => if s.ch = 0 then some s else (pathTurn mem s).bind (pathLoop mem turns)

/-- `us_simplify_request_path`, up to the string at the pointer it returns. -/
def usSimplifyRequestPath (str : CString) : Option (List UInt8) := do
  let mem := str.memory
  let simplified := List.replicate mem.length 0
  let c0 ← mem[0]?
  if c0 = 0 then
    let simplified ← store simplified 0 0
    return cStringAt simplified
  let i ← skipSpaces mem mem.length 0
  let i ← skipDots mem i
  let ch ← mem[i]?
  let s ← pathLoop mem mem.length
    { simplified := simplified, str := i + 1, out := 0, slash := 0, pre1 := 0, ch := ch }
  let simplified ← store s.simplified s.out 0
  return cStringAt simplified

end TinyPilotKvm
