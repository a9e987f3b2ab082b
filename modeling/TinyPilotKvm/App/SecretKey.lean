/-
# The secret key of the session cookies (`secret_key.py`, `atomic_file.py`)

At every start the app takes its key from a file, and makes a new one if there is none or if the
file is not as `_create` leaves it.  A start can be killed between any two operations and any
operation can raise an `OSError`, so the file of a later start is whatever an earlier one has left.

`shutil.move` renames, or copies byte by byte where the temporary folder is on another file system:
then a start that is killed leaves a part of a key behind.  The check of the permissions and the
length is what keeps a part from being taken for a key (`secret_key_persists`), and such a file is
made anew (`start_returns_key`).

The server is one process, so the starts come one after another.
-/
import Mathlib.Data.List.Basic
import Mathlib.Logic.Function.Basic
import TinyPilotKvm.Transition

namespace TinyPilotKvm

/-! ## 1. The model -/

/-- `_SECRET_KEY_FILE_PERMS`. -/
def secretKeyFilePerms : Nat := 0o600

/-- `_SECRET_KEY_BYTE_LENGTH`. -/
def secretKeyByteLength : Nat := 32

structure KeyFile where
  /-- `stat.S_IMODE(st_mode)`. -/
  perms : Nat
  content : List UInt8
  deriving DecidableEq

/-- The next operation of a start. -/
inductive SecretKeyPc
  | idle
  -- `_get`
  | openKey
  | statKey
  | readKey
  -- the corrupt file, in `get_or_create`
  | removeKey
  -- `_create`
  | urandom
  -- `atomic_file.create`
  | mkstemp (secretKey : List UInt8)
  | writeTemp (secretKey : List UInt8) (temp : Nat)
  | chmodTemp (secretKey : List UInt8) (temp : Nat)
  -- `shutil.move`: a rename, or else a copy
  | rename (secretKey : List UInt8) (temp : Nat)
  | copyOpen (secretKey : List UInt8) (temp : Nat)
  | copyBytes (secretKey : List UInt8) (temp : Nat)
  | copyStat (secretKey : List UInt8) (temp : Nat)
  | unlinkTemp (secretKey : List UInt8) (temp : Nat)
  -- `_remove_if_exists` in `finally`, with what `_create` returns if nothing was raised
  | removeTemp (result : Option (List UInt8)) (temp : Nat)
  deriving DecidableEq

/-- The files, the start that is under way, and what has happened: the keys that `os.urandom` has
given, and those that Flask has been given. -/
structure SecretKeyState where
  keyFile : Option KeyFile
  temps : Nat → Option KeyFile
  pc : SecretKeyPc
  generated : List (List UInt8)
  returned : List (List UInt8)

namespace SecretKeyState

variable (s : SecretKeyState)

def setTemp (temp : Nat) (file : Option KeyFile) : SecretKeyState :=
  { s with temps := Function.update s.temps temp file }

/-- The start ends, with a key or with what was raised. -/
def finish (result : Option (List UInt8)) : SecretKeyState :=
  { s with pc := .idle, returned := s.returned ++ result.toList }

@[simp] theorem finish_pc (result : Option (List UInt8)) : (s.finish result).pc = .idle := rfl

/-- The operation succeeds. -/
def succeed (umask : Nat) : Option SecretKeyState :=
  match s.pc with
  | .openKey => s.keyFile.map fun _ => { s with pc := .statKey }
  | .statKey => s.keyFile.map fun file =>
    { s with pc := if file.perms = secretKeyFilePerms then .readKey else .removeKey }
  | .readKey => s.keyFile.map fun file =>
    if file.content.length = secretKeyByteLength then s.finish file.content
    else { s with pc := .removeKey }
  | .removeKey => s.keyFile.map fun _ => { s with keyFile := none, pc := .urandom }
  | .writeTemp secretKey temp => (s.temps temp).map fun file =>
    { s.setTemp temp (some { file with content := secretKey }) with
      pc := .chmodTemp secretKey temp }
  | .chmodTemp secretKey temp => (s.temps temp).map fun file =>
    { s.setTemp temp (some { file with perms := secretKeyFilePerms }) with
      pc := .rename secretKey temp }
  | .rename secretKey temp => (s.temps temp).map fun file =>
    { s.setTemp temp none with keyFile := some file, pc := .removeTemp (some secretKey) temp }
  | .copyOpen secretKey temp =>
    -- `open(dst, 'wb')` keeps the permissions of a file that is there
    let perms := (s.keyFile.map (·.perms)).getD (0o666 &&& (0o777 ^^^ umask))
    some { s with keyFile := some ⟨perms, []⟩, pc := .copyBytes secretKey temp }
  | .copyBytes secretKey temp => s.keyFile.bind fun file => (s.temps temp).bind fun tempFile =>
    if file.content.length = tempFile.content.length then
      some { s with pc := .copyStat secretKey temp }
    else none
  | .copyStat secretKey temp => s.keyFile.bind fun file => (s.temps temp).map fun tempFile =>
    { s with keyFile := some { file with perms := tempFile.perms }
             pc := .unlinkTemp secretKey temp }
  | .unlinkTemp secretKey temp => (s.temps temp).map fun _ =>
    { s.setTemp temp none with pc := .removeTemp (some secretKey) temp }
  | .removeTemp result temp => (s.temps temp).map fun _ => (s.setTemp temp none).finish result
  | .idle | .urandom | .mkstemp _ => none

/-- The operation raises an `OSError`; a write may have written `n` bytes. -/
def raise (n : Nat) : Option SecretKeyState :=
  match s.pc with
  | .openKey | .statKey | .readKey => some { s with pc := .urandom }
  | .removeKey | .urandom | .mkstemp _ => some (s.finish none)
  | .writeTemp secretKey temp => (s.temps temp).map fun file =>
    { s.setTemp temp (some { file with content := secretKey.take n }) with
      pc := .removeTemp none temp }
  | .rename secretKey temp => some { s with pc := .copyOpen secretKey temp }
  | .chmodTemp _ temp | .copyOpen _ temp | .copyBytes _ temp | .copyStat _ temp
  | .unlinkTemp _ temp => some { s with pc := .removeTemp none temp }
  -- a missing file is passed over, and any other error is logged
  | .removeTemp result _ => some (s.finish result)
  | .idle => none

/-- `copyfile` has copied up to `n` bytes more. -/
def copy (n : Nat) : Option SecretKeyState :=
  match s.pc with
  | .copyBytes _ temp => s.keyFile.bind fun file => (s.temps temp).bind fun tempFile =>
    if 0 < n ∧ file.content.length < tempFile.content.length then
      let content := tempFile.content.take (file.content.length + n)
      some { s with keyFile := some { file with content := content } }
    else none
  | _ => none

end SecretKeyState

inductive SecretKeyAct
  | start
  | succeed
  | raise (n : Nat)
  | random (secretKey : List UInt8)
  | mkstemp (temp : Nat)
  | copy (n : Nat)
  | kill

def secretKeyStep (umask : Nat) (s : SecretKeyState) : SecretKeyAct → Option SecretKeyState
  | .start => if s.pc = .idle then some { s with pc := .openKey } else none
  | .succeed => s.succeed umask
  | .raise n => s.raise n
  | .random secretKey =>
    if s.pc = .urandom ∧ secretKey.length = secretKeyByteLength then
      some { s with pc := .mkstemp secretKey, generated := s.generated ++ [secretKey] }
    else none
  | .mkstemp temp =>
    match s.pc with
    | .mkstemp secretKey =>
      if s.temps temp = none then
        some { s.setTemp temp (some ⟨0o600, []⟩) with pc := .writeTemp secretKey temp }
      else none
    | _ => none
  | .copy n => s.copy n
  | .kill => if s.pc = .idle then none else some { s with pc := .idle }

/-- The starts from the file `first` on. -/
def secretKeySystem (umask : Nat) (first : Option KeyFile) :
    System SecretKeyState SecretKeyAct where
  start s := s = ⟨first, fun _ => none, .idle, [], []⟩
  step := secretKeyStep umask

/-! ## 2. What a step can do -/

/-- In `_get`. -/
def SecretKeyPc.reads : SecretKeyPc → Bool
  | .openKey | .statKey | .readKey => true
  | _ => false

/-- The temporary file of a start that can still fail and clean up. -/
def SecretKeyPc.temp? : SecretKeyPc → Option Nat
  | .chmodTemp _ temp | .copyOpen _ temp | .copyBytes _ temp | .copyStat _ temp
  | .unlinkTemp _ temp => some temp
  | _ => none

theorem SecretKeyPc.not_reads_of_temp? {pc : SecretKeyPc} {temp : Nat}
    (h : pc.temp? = some temp) : ¬ (pc = .idle ∨ pc.reads = true) := by
  cases pc <;> simp [temp?, reads] at h ⊢

/-- The steps, one by one. -/
inductive SecretKeyMove (s : SecretKeyState) : SecretKeyAct → SecretKeyState → Prop
  | start (hpc : s.pc = .idle) : SecretKeyMove s .start { s with pc := .openKey }
  | opened {file : KeyFile} (hpc : s.pc = .openKey) (hfile : s.keyFile = some file) :
    SecretKeyMove s .succeed { s with pc := .statKey }
  | permsFit {file : KeyFile} (hpc : s.pc = .statKey) (hfile : s.keyFile = some file)
    (hperms : file.perms = secretKeyFilePerms) :
    SecretKeyMove s .succeed { s with pc := .readKey }
  | corrupt {file : KeyFile} (hpc : s.pc = .statKey ∨ s.pc = .readKey)
    (hfile : s.keyFile = some file)
    (hcorrupt : file.perms ≠ secretKeyFilePerms ∨ file.content.length ≠ secretKeyByteLength) :
    SecretKeyMove s .succeed { s with pc := .removeKey }
  | got {file : KeyFile} (hpc : s.pc = .readKey) (hfile : s.keyFile = some file)
    (hlength : file.content.length = secretKeyByteLength) :
    SecretKeyMove s .succeed (s.finish file.content)
  | removed (hpc : s.pc = .removeKey) :
    SecretKeyMove s .succeed { s with keyFile := none, pc := .urandom }
  | unread {n : Nat} (hpc : s.pc.reads = true) :
    SecretKeyMove s (.raise n) { s with pc := .urandom }
  | random {secretKey : List UInt8} (hpc : s.pc = .urandom)
    (hlength : secretKey.length = secretKeyByteLength) :
    SecretKeyMove s (.random secretKey)
      { s with pc := .mkstemp secretKey, generated := s.generated ++ [secretKey] }
  | mkstemp {secretKey : List UInt8} {temp : Nat} (hpc : s.pc = .mkstemp secretKey)
    (hfree : s.temps temp = none) :
    SecretKeyMove s (.mkstemp temp)
      { s.setTemp temp (some ⟨0o600, []⟩) with pc := .writeTemp secretKey temp }
  | written {secretKey : List UInt8} {temp : Nat} {file : KeyFile}
    (hpc : s.pc = .writeTemp secretKey temp) (hfile : s.temps temp = some file) :
    SecretKeyMove s .succeed
      { s.setTemp temp (some ⟨file.perms, secretKey⟩) with pc := .chmodTemp secretKey temp }
  | chmodded {secretKey : List UInt8} {temp : Nat} {file : KeyFile}
    (hpc : s.pc = .chmodTemp secretKey temp) (hfile : s.temps temp = some file) :
    SecretKeyMove s .succeed
      { s.setTemp temp (some ⟨secretKeyFilePerms, file.content⟩) with pc := .rename secretKey temp }
  | renamed {secretKey : List UInt8} {temp : Nat} {file : KeyFile}
    (hpc : s.pc = .rename secretKey temp) (hfile : s.temps temp = some file) :
    SecretKeyMove s .succeed
      { s.setTemp temp none with keyFile := some file, pc := .removeTemp (some secretKey) temp }
  | otherDevice {secretKey : List UInt8} {temp n : Nat} (hpc : s.pc = .rename secretKey temp) :
    SecretKeyMove s (.raise n) { s with pc := .copyOpen secretKey temp }
  | copyOpened {secretKey : List UInt8} {temp : Nat} (perms : Nat)
    (hpc : s.pc = .copyOpen secretKey temp) :
    SecretKeyMove s .succeed
      { s with keyFile := some ⟨perms, []⟩, pc := .copyBytes secretKey temp }
  | copied {secretKey : List UInt8} {temp n : Nat} {file tempFile : KeyFile}
    (hpc : s.pc = .copyBytes secretKey temp) (hfile : s.keyFile = some file)
    (htemp : s.temps temp = some tempFile) (hn : 0 < n)
    (hlt : file.content.length < tempFile.content.length) :
    SecretKeyMove s (.copy n) { s with
      keyFile := some ⟨file.perms, tempFile.content.take (file.content.length + n)⟩ }
  | copiedAll {secretKey : List UInt8} {temp : Nat} {file tempFile : KeyFile}
    (hpc : s.pc = .copyBytes secretKey temp) (hfile : s.keyFile = some file)
    (htemp : s.temps temp = some tempFile)
    (hlength : file.content.length = tempFile.content.length) :
    SecretKeyMove s .succeed { s with pc := .copyStat secretKey temp }
  | copiedStat {secretKey : List UInt8} {temp : Nat} {file tempFile : KeyFile}
    (hpc : s.pc = .copyStat secretKey temp) (hfile : s.keyFile = some file)
    (htemp : s.temps temp = some tempFile) :
    SecretKeyMove s .succeed
      { s with keyFile := some ⟨tempFile.perms, file.content⟩, pc := .unlinkTemp secretKey temp }
  | unlinked {secretKey : List UInt8} {temp : Nat} (hpc : s.pc = .unlinkTemp secretKey temp) :
    SecretKeyMove s .succeed
      { s.setTemp temp none with pc := .removeTemp (some secretKey) temp }
  | failed {n : Nat} (hpc : s.pc = .removeKey ∨ s.pc = .urandom ∨ ∃ key, s.pc = .mkstemp key) :
    SecretKeyMove s (.raise n) (s.finish none)
  | unwritten {secretKey : List UInt8} {temp n : Nat} {file : KeyFile}
    (hpc : s.pc = .writeTemp secretKey temp) (hfile : s.temps temp = some file) :
    SecretKeyMove s (.raise n)
      { s.setTemp temp (some ⟨file.perms, secretKey.take n⟩) with pc := .removeTemp none temp }
  | raised {temp n : Nat} (hpc : s.pc.temp? = some temp) :
    SecretKeyMove s (.raise n) { s with pc := .removeTemp none temp }
  | cleaned {result : Option (List UInt8)} {temp : Nat} (hpc : s.pc = .removeTemp result temp)
    (htemp : (s.temps temp).isSome = true) :
    SecretKeyMove s .succeed ((s.setTemp temp none).finish result)
  | left {result : Option (List UInt8)} {temp n : Nat} (hpc : s.pc = .removeTemp result temp) :
    SecretKeyMove s (.raise n) (s.finish result)
  | kill (hpc : s.pc ≠ .idle) : SecretKeyMove s .kill { s with pc := .idle }

section

variable {umask : Nat} {first : Option KeyFile} {s s' : SecretKeyState} {a : SecretKeyAct}

theorem SecretKeyMove.of_succeed (h : s.succeed umask = some s') : SecretKeyMove s .succeed s' := by
  unfold SecretKeyState.succeed at h
  cases hpc : s.pc <;> simp only [hpc, Option.map_eq_some_iff, Option.bind_eq_some_iff,
    Option.some.injEq, reduceCtorEq] at h
  case openKey =>
    obtain ⟨file, hfile, rfl⟩ := h
    exact .opened hpc hfile
  case statKey =>
    obtain ⟨file, hfile, rfl⟩ := h
    split
    · exact .permsFit hpc hfile ‹_›
    · exact .corrupt (.inl hpc) hfile (.inl ‹_›)
  case readKey =>
    obtain ⟨file, hfile, rfl⟩ := h
    split
    · exact .got hpc hfile ‹_›
    · exact .corrupt (.inr hpc) hfile (.inr ‹_›)
  case removeKey =>
    obtain ⟨file, hfile, rfl⟩ := h
    exact .removed hpc
  case writeTemp =>
    obtain ⟨file, hfile, rfl⟩ := h
    exact .written hpc hfile
  case chmodTemp =>
    obtain ⟨file, hfile, rfl⟩ := h
    exact .chmodded hpc hfile
  case rename =>
    obtain ⟨file, hfile, rfl⟩ := h
    exact .renamed hpc hfile
  case copyOpen =>
    subst h
    exact .copyOpened _ hpc
  case copyBytes =>
    obtain ⟨file, hfile, tempFile, htemp, h⟩ := h
    split at h
    · obtain rfl := Option.some.inj h
      exact .copiedAll hpc hfile htemp ‹_›
    · cases h
  case copyStat =>
    obtain ⟨file, hfile, tempFile, htemp, rfl⟩ := h
    exact .copiedStat hpc hfile htemp
  case unlinkTemp =>
    obtain ⟨file, hfile, rfl⟩ := h
    exact .unlinked hpc
  case removeTemp =>
    obtain ⟨file, hfile, rfl⟩ := h
    exact .cleaned hpc (by rw [hfile]; rfl)

theorem SecretKeyMove.of_raise {n : Nat} (h : s.raise n = some s') :
    SecretKeyMove s (.raise n) s' := by
  unfold SecretKeyState.raise at h
  cases hpc : s.pc <;> simp only [hpc, Option.map_eq_some_iff, Option.some.injEq,
    reduceCtorEq] at h
  case writeTemp =>
    obtain ⟨file, hfile, rfl⟩ := h
    exact .unwritten hpc hfile
  all_goals subst h
  case openKey => exact .unread (by rw [hpc]; rfl)
  case statKey => exact .unread (by rw [hpc]; rfl)
  case readKey => exact .unread (by rw [hpc]; rfl)
  case removeKey => exact .failed (.inl hpc)
  case urandom => exact .failed (.inr (.inl hpc))
  case mkstemp secretKey => exact .failed (.inr (.inr ⟨secretKey, hpc⟩))
  case rename => exact .otherDevice hpc
  case removeTemp => exact .left hpc
  all_goals exact .raised (by rw [hpc]; rfl)

/-- **A step** is one of these. -/
theorem SecretKeyMove.of_step (h : secretKeyStep umask s a = some s') : SecretKeyMove s a s' := by
  cases a with
  | start =>
    simp only [secretKeyStep] at h
    split at h
    · obtain rfl := Option.some.inj h
      exact .start ‹_›
    · cases h
  | succeed => exact .of_succeed h
  | raise n => exact .of_raise h
  | random secretKey =>
    simp only [secretKeyStep] at h
    split at h
    · obtain rfl := Option.some.inj h
      rename_i hboth
      exact .random hboth.1 hboth.2
    · cases h
  | mkstemp temp =>
    simp only [secretKeyStep] at h
    split at h
    · split at h
      · obtain rfl := Option.some.inj h
        exact .mkstemp ‹_› ‹_›
      · cases h
    · cases h
  | copy n =>
    simp only [secretKeyStep, SecretKeyState.copy] at h
    split at h
    · rename_i secretKey temp hpc
      obtain ⟨file, hfile, h⟩ := Option.bind_eq_some_iff.mp h
      obtain ⟨tempFile, htemp, h⟩ := Option.bind_eq_some_iff.mp h
      split at h
      · rename_i hboth
        obtain rfl := Option.some.inj h
        exact .copied hpc hfile htemp hboth.1 hboth.2
      · cases h
    · cases h
  | kill =>
    simp only [secretKeyStep] at h
    split at h
    · cases h
    · obtain rfl := Option.some.inj h
      exact .kill ‹_›

/-! ## 3. The files -/

/-- What is known where a start stands. -/
def SecretKeyPc.Knows (s : SecretKeyState) : SecretKeyPc → Prop
  | .idle | .openKey | .urandom => True
  | .statKey | .removeKey => s.keyFile.isSome = true
  | .readKey => ∃ content, s.keyFile = some ⟨secretKeyFilePerms, content⟩
  | .mkstemp key => key ∈ s.generated
  | .writeTemp key temp => key ∈ s.generated ∧ (s.temps temp).isSome = true
  | .chmodTemp key temp => key ∈ s.generated ∧ ∃ perms, s.temps temp = some ⟨perms, key⟩
  | .rename key temp | .copyOpen key temp =>
    key ∈ s.generated ∧ s.temps temp = some ⟨secretKeyFilePerms, key⟩
  | .copyBytes key temp => key ∈ s.generated ∧ s.temps temp = some ⟨secretKeyFilePerms, key⟩ ∧
    ∃ perms content, s.keyFile = some ⟨perms, content⟩ ∧ content <+: key
  | .copyStat key temp => key ∈ s.generated ∧ s.temps temp = some ⟨secretKeyFilePerms, key⟩ ∧
    ∃ perms, s.keyFile = some ⟨perms, key⟩
  | .unlinkTemp key temp => key ∈ s.generated ∧ (s.temps temp).isSome = true ∧
    s.keyFile = some ⟨secretKeyFilePerms, key⟩
  | .removeTemp result _ => ∀ key ∈ result,
    key ∈ s.generated ∧ s.keyFile = some ⟨secretKeyFilePerms, key⟩

/-- The file is the first one, or it holds a key or the beginning of one. -/
structure SecretKeyInv (first : Option KeyFile) (s : SecretKeyState) : Prop where
  lengths : ∀ key ∈ s.generated, key.length = secretKeyByteLength
  whole : ∀ file, s.keyFile = some file →
    (∃ file', first = some file' ∧ file'.content = file.content) ∨
      ∃ key ∈ s.generated, file.content <+: key
  returned : ∀ key ∈ s.returned, key.length = secretKeyByteLength ∧
    ((∃ file, first = some file ∧ file.content = key) ∨ key ∈ s.generated)
  knows : s.pc.Knows s
  free : ∃ n, ∀ temp, n ≤ temp → s.temps temp = none

namespace SecretKeyInv

theorem goTo (h : SecretKeyInv first s) (pc : SecretKeyPc) (hpc : pc.Knows s) :
    SecretKeyInv first { s with pc := pc } := by
  refine ⟨h.lengths, h.whole, h.returned, ?_, h.free⟩
  cases pc <;> exact hpc

theorem setTemp (h : SecretKeyInv first s) (temp : Nat) (file : Option KeyFile)
    (pc : SecretKeyPc) (hpc : pc.Knows (s.setTemp temp file)) :
    SecretKeyInv first { s.setTemp temp file with pc := pc } := by
  refine ⟨h.lengths, h.whole, h.returned, ?_, ?_⟩
  · cases pc <;> exact hpc
  · obtain ⟨n, hfree⟩ := h.free
    refine ⟨max n (temp + 1), fun temp' hle => ?_⟩
    show Function.update s.temps temp file temp' = none
    rw [Function.update_of_ne (by omega)]
    exact hfree temp' (by omega)

/-- A part of a key, or all of it, is in the file. -/
theorem setKeyFile (h : SecretKeyInv first s) {key : List UInt8} (hkey : key ∈ s.generated)
    {file : KeyFile} (hfile : file.content <+: key) (pc : SecretKeyPc)
    (hpc : pc.Knows { s with keyFile := some file }) :
    SecretKeyInv first { s with keyFile := some file, pc := pc } := by
  refine ⟨h.lengths, ?_, h.returned, ?_, h.free⟩
  · intro file' hfile'
    obtain rfl := Option.some.inj hfile'
    exact .inr ⟨key, hkey, hfile⟩
  · cases pc <;> exact hpc

/-- The key that the start ends with is one that it may return. -/
theorem finish (h : SecretKeyInv first s) (result : Option (List UInt8))
    (hresult : ∀ key ∈ result, key.length = secretKeyByteLength ∧
      ((∃ file, first = some file ∧ file.content = key) ∨ key ∈ s.generated)) :
    SecretKeyInv first (s.finish result) := by
  refine ⟨h.lengths, h.whole, ?_, trivial, h.free⟩
  intro key hkey
  rcases List.mem_append.mp hkey with hkey | hkey
  · exact h.returned key hkey
  · exact hresult key (Option.mem_toList.mp hkey)

/-- What is in the file is a key if it has the length of one. -/
theorem genuine (h : SecretKeyInv first s) {file : KeyFile} (hfile : s.keyFile = some file)
    (hlength : file.content.length = secretKeyByteLength) :
    (∃ file', first = some file' ∧ file'.content = file.content) ∨ file.content ∈ s.generated := by
  rcases h.whole file hfile with hfirst | ⟨key, hkey, hpart⟩
  · exact .inl hfirst
  · rw [hpart.eq_of_length (hlength.trans (h.lengths key hkey).symm)]
    exact .inr hkey

/-- **A step.** -/
theorem step (h : SecretKeyInv first s) (hst : secretKeyStep umask s a = some s') :
    SecretKeyInv first s' := by
  have hknows := h.knows
  cases SecretKeyMove.of_step hst with
  | start hpc => exact h.goTo _ trivial
  | opened hpc hfile => exact h.goTo .statKey (by rw [SecretKeyPc.Knows, hfile]; rfl)
  | permsFit hpc hfile hperms => exact h.goTo .readKey ⟨_, by rw [hfile, ← hperms]⟩
  | corrupt hpc hfile _ => exact h.goTo .removeKey (by rw [SecretKeyPc.Knows, hfile]; rfl)
  | got hpc hfile hlength =>
    refine h.finish _ fun key hkey => ?_
    obtain rfl := Option.some.inj hkey
    exact ⟨hlength, h.genuine hfile hlength⟩
  | removed hpc =>
    exact ⟨h.lengths, fun file hfile => absurd hfile (by simp), h.returned, trivial, h.free⟩
  | unread hpc => exact h.goTo _ trivial
  | @random secretKey hpc hlength =>
    refine ⟨?_, ?_, ?_, List.mem_append_right _ List.mem_cons_self, h.free⟩
    · intro key hkey
      rcases List.mem_append.mp hkey with hkey | hkey
      · exact h.lengths key hkey
      · rw [List.mem_singleton.mp hkey, hlength]
    · intro file hfile
      refine (h.whole file hfile).imp id ?_
      rintro ⟨key, hkey, hpart⟩
      exact ⟨key, List.mem_append_left _ hkey, hpart⟩
    · intro key hkey
      exact (h.returned key hkey).imp id (.imp id (List.mem_append_left _))
  | mkstemp hpc hfree =>
    rw [hpc] at hknows
    exact h.setTemp _ _ (.writeTemp _ _) ⟨hknows, by simp [SecretKeyState.setTemp]⟩
  | written hpc hfile =>
    rw [hpc] at hknows
    exact h.setTemp _ _ (.chmodTemp _ _) ⟨hknows.1, _, Function.update_self ..⟩
  | chmodded hpc hfile =>
    rw [hpc] at hknows
    obtain ⟨hkey, perms, htemp⟩ := hknows
    obtain rfl := Option.some.inj (htemp.symm.trans hfile)
    exact h.setTemp _ _ (.rename _ _) ⟨hkey, Function.update_self ..⟩
  | @renamed secretKey temp file hpc hfile =>
    rw [hpc] at hknows
    obtain ⟨hkey, htemp⟩ := hknows
    obtain rfl := Option.some.inj (htemp.symm.trans hfile)
    have hset : SecretKeyInv first
        { s with keyFile := some ⟨secretKeyFilePerms, secretKey⟩, pc := .idle } :=
      h.setKeyFile hkey (List.prefix_refl _) .idle trivial
    refine hset.setTemp _ none (.removeTemp _ _) fun key hkey' => ?_
    obtain rfl := Option.some.inj hkey'
    exact ⟨hkey, rfl⟩
  | otherDevice hpc =>
    rw [hpc] at hknows
    exact h.goTo (.copyOpen _ _) hknows
  | copyOpened perms hpc =>
    rw [hpc] at hknows
    exact h.setKeyFile hknows.1 List.nil_prefix (.copyBytes _ _)
      ⟨hknows.1, hknows.2, perms, [], rfl, List.nil_prefix⟩
  | copied hpc hfile htemp hn hlt =>
    rw [hpc] at hknows
    obtain ⟨hkey, htemp', -⟩ := hknows
    obtain rfl := Option.some.inj (htemp'.symm.trans htemp)
    refine h.setKeyFile hkey (List.take_prefix _ _) s.pc ?_
    rw [hpc]
    exact ⟨hkey, htemp', _, _, rfl, List.take_prefix _ _⟩
  | copiedAll hpc hfile htemp hlength =>
    rw [hpc] at hknows
    obtain ⟨hkey, htemp', perms, content, hfile', hpart⟩ := hknows
    obtain rfl := Option.some.inj (htemp'.symm.trans htemp)
    obtain rfl := Option.some.inj (hfile'.symm.trans hfile)
    rw [hpart.eq_of_length hlength] at hfile'
    exact h.goTo (.copyStat _ _) ⟨hkey, htemp', perms, hfile'⟩
  | copiedStat hpc hfile htemp =>
    rw [hpc] at hknows
    obtain ⟨hkey, htemp', perms, hfile'⟩ := hknows
    obtain rfl := Option.some.inj (htemp'.symm.trans htemp)
    obtain rfl := Option.some.inj (hfile'.symm.trans hfile)
    exact h.setKeyFile hkey (List.prefix_refl _) (.unlinkTemp _ _) ⟨hkey, by simp [htemp'], rfl⟩
  | unlinked hpc =>
    rw [hpc] at hknows
    obtain ⟨hkey, -, hfile⟩ := hknows
    refine h.setTemp _ _ (.removeTemp _ _) fun key hkey' => ?_
    obtain rfl := Option.some.inj hkey'
    exact ⟨hkey, hfile⟩
  | failed hpc => exact h.finish none fun key hkey => absurd hkey (by simp)
  | unwritten hpc hfile =>
    exact h.setTemp _ _ (.removeTemp none _) fun key hkey => absurd hkey (by simp)
  | raised hpc => exact h.goTo (.removeTemp none _) fun key hkey => absurd hkey (by simp)
  | @cleaned result temp hpc htemp =>
    rw [hpc] at hknows
    refine (h.setTemp temp none .idle trivial).finish result fun key hkey => ?_
    exact ⟨h.lengths key (hknows key hkey).1, .inr (hknows key hkey).1⟩
  | left hpc =>
    rw [hpc] at hknows
    refine h.finish _ fun key hkey => ?_
    exact ⟨h.lengths key (hknows key hkey).1, .inr (hknows key hkey).1⟩
  | kill hpc => exact h.goTo .idle trivial

end SecretKeyInv

/-- Of any run. -/
theorem SecretKeyInv.of_reach (hr : (secretKeySystem umask first).Reach s) :
    SecretKeyInv first s := by
  refine System.ReachVia.inv ?_ (fun s s' a h _ hst => h.step hst) hr
  rintro s rfl
  exact ⟨fun _ h => absurd h (by simp), fun file hfile => .inl ⟨file, hfile, rfl⟩,
    fun _ h => absurd h (by simp), trivial, 0, fun _ _ => rfl⟩

/-! ## 4. One key for good -/

def SecretKeyAct.raises : SecretKeyAct → Bool
  | .raise _ => true
  | _ => false

/-- `_get` does not fail on a file that is there. -/
def ReadsKey (s : SecretKeyState) (a : SecretKeyAct) : Prop :=
  s.pc.reads = true → s.keyFile.isSome = true → a.raises = false

instance (s : SecretKeyState) (a : SecretKeyAct) : Decidable (ReadsKey s a) :=
  inferInstanceAs (Decidable (_ → _ → _))

/-- The keys that have been returned are in the file, which nobody is about to change. -/
def KeepsKey (s : SecretKeyState) : Prop :=
  ∀ key ∈ s.returned,
    s.keyFile = some ⟨secretKeyFilePerms, key⟩ ∧ (s.pc = .idle ∨ s.pc.reads = true)

theorem KeepsKey.step (h : KeepsKey s) (hI : SecretKeyInv first s) (hok : ReadsKey s a)
    (hst : secretKeyStep umask s a = some s') : KeepsKey s' := by
  have hknows := hI.knows
  intro key hkey
  cases SecretKeyMove.of_step hst with
  | start hpc => exact ⟨(h key hkey).1, .inr rfl⟩
  | opened hpc hfile => exact ⟨(h key hkey).1, .inr rfl⟩
  | permsFit hpc hfile hperms => exact ⟨(h key hkey).1, .inr rfl⟩
  | corrupt hpc hfile hcorrupt =>
    obtain rfl := Option.some.inj ((h key hkey).1.symm.trans hfile)
    exact absurd (hI.returned key hkey).1 (hcorrupt.resolve_left (not_not_intro rfl))
  | got hpc hfile hlength =>
    rcases List.mem_append.mp hkey with hkey | hkey
    · exact ⟨(h key hkey).1, .inl rfl⟩
    · rw [hpc] at hknows
      obtain ⟨content, hknows⟩ := hknows
      obtain rfl := Option.some.inj (hknows.symm.trans hfile)
      rw [List.mem_singleton.mp hkey]
      exact ⟨hknows, .inl rfl⟩
  | unread hpc =>
    exact absurd (hok hpc (by rw [(h key hkey).1]; rfl)) (by simp [SecretKeyAct.raises])
  | @cleaned result temp hpc htemp =>
    rw [hpc] at hknows
    rcases List.mem_append.mp hkey with hkey | hkey
    · exact absurd (h key hkey).2 (by simp [hpc, SecretKeyPc.reads])
    · exact ⟨(hknows key (Option.mem_toList.mp hkey)).2, .inl rfl⟩
  | left hpc =>
    rw [hpc] at hknows
    rcases List.mem_append.mp hkey with hkey | hkey
    · exact absurd (h key hkey).2 (by simp [hpc, SecretKeyPc.reads])
    · exact ⟨(hknows key (Option.mem_toList.mp hkey)).2, .inl rfl⟩
  | failed hpc =>
    have hkey : key ∈ s.returned := by simpa [SecretKeyState.finish] using hkey
    rcases hpc with hpc | hpc | ⟨secretKey, hpc⟩ <;>
      exact absurd (h key hkey).2 (by simp [hpc, SecretKeyPc.reads])
  | raised hpc => exact absurd (h key hkey).2 (SecretKeyPc.not_reads_of_temp? hpc)
  | kill hpc => exact ⟨(h key hkey).1, .inl rfl⟩
  -- nothing has been returned: the start is making a key
  | _ => exact absurd (h key hkey).2 (by simp [*, SecretKeyPc.reads])

/-- **A key is kept.**  In every run of starts in which `_get` can read the file when there is one,
wherever they are killed and whatever else raises: all of them return one key.  It has its full
length, `os.urandom` gave it or it was there at first, and the file holds it with permissions that
`_get` accepts. -/
theorem secret_key_persists
    (hr : (secretKeySystem umask first).ReachVia ReadsKey s) :
    ∀ key ∈ s.returned, (∀ key' ∈ s.returned, key' = key) ∧ key.length = secretKeyByteLength ∧
      ((∃ file, first = some file ∧ file.content = key) ∨ key ∈ s.generated) ∧
      s.keyFile = some ⟨secretKeyFilePerms, key⟩ := by
  have hI := SecretKeyInv.of_reach hr.reach
  have hkeeps : KeepsKey s := by
    refine System.ReachVia.inv_of (I := KeepsKey) (J := SecretKeyInv first)
      (fun s hr => SecretKeyInv.of_reach hr.reach) ?_ ?_ hr
    · rintro s rfl key hkey
      exact absurd hkey (by simp)
    · exact fun s s' a hI h hok hst => h.step hI hok hst
  intro key hkey
  refine ⟨fun key' hkey' => ?_, (hI.returned key hkey).1, (hI.returned key hkey).2,
    (hkeeps key hkey).1⟩
  have hsame := (hkeeps key' hkey').1.symm.trans (hkeeps key hkey).1
  exact congrArg KeyFile.content (Option.some.inj hsame)

/-- The temporary folder is on another file system.  The first start is killed while it copies its
key; the second one finds a part of it and makes another one, which the third one reads. -/
def killedStarts : List SecretKeyAct :=
  [.start, .raise 0, .random (List.replicate 32 0), .mkstemp 0, .succeed, .succeed, .raise 0,
    .succeed, .copy 20, .kill,
    .start, .succeed, .succeed, .succeed, .random (List.replicate 32 1), .mkstemp 1, .succeed,
    .succeed, .raise 0, .succeed, .copy 32, .succeed, .succeed, .succeed, .raise 0,
    .start, .succeed, .succeed, .succeed]

theorem secret_key_persists_killed : ∃ (s : SecretKeyState) (key : List UInt8),
    s.returned = [key, key] ∧ s.generated.length = 2 ∧ s.keyFile = some ⟨0o600, key⟩ := by
  have hrun : ((secretKeySystem 0o22 none).execVia ReadsKey ⟨none, fun _ => none, .idle, [], []⟩
      killedStarts).any (fun s =>
        decide (s.returned.length = 2 ∧ s.generated.length = 2)) = true := by decide +kernel
  obtain ⟨s, hexec, hs⟩ := (Option.any_eq_true _ _).mp hrun
  obtain ⟨hreturned, hgenerated⟩ := of_decide_eq_true hs
  obtain ⟨key, key', hboth⟩ := List.length_eq_two.mp hreturned
  have hr := System.ReachVia.execVia _ (.start rfl) hexec
  obtain ⟨hsame, -, -, hfile⟩ := secret_key_persists hr key (by simp [hboth])
  refine ⟨s, key, ?_, hgenerated, hfile⟩
  rw [hboth, hsame key' (by simp [hboth])]

/-! ## 5. A start that nothing disturbs -/

/-- No operation fails but those that may: to open a file that is not there, to rename across file
systems, and to remove a file that has been moved. -/
def Undisturbed (s : SecretKeyState) : SecretKeyAct → Prop
  | .start | .kill => False
  | .raise _ =>
    match s.pc with
    | .openKey => s.keyFile = none
    | .rename _ _ => True
    | .removeTemp _ temp => s.temps temp = none
    | _ => False
  | _ => True

/-- The steps that are left, a byte of a copy counting for one. -/
def SecretKeyState.rank (s : SecretKeyState) : Nat :=
  match s.pc with
  | .openKey => 46
  | .statKey => 45
  | .readKey => 44
  | .removeKey => 43
  | .urandom => 42
  | .mkstemp _ => 41
  | .writeTemp _ _ => 40
  | .chmodTemp _ _ => 39
  | .rename _ _ => 38
  | .copyOpen _ _ => 37
  | .copyBytes _ _ =>
    4 + (secretKeyByteLength - s.keyFile.elim 0 fun file => file.content.length)
  | .copyStat _ _ => 3
  | .unlinkTemp _ _ => 2
  | .removeTemp _ _ => 1
  | .idle => 0

/-- What a start has done since it began in the state `s₀`. -/
def StartDone (s₀ s : SecretKeyState) : Prop :=
  match s.pc with
  | .idle => s.temps = s₀.temps ∧ ∃ key, s.returned = s₀.returned ++ [key] ∧
    key.length = secretKeyByteLength ∧ s.keyFile = some ⟨secretKeyFilePerms, key⟩
  | .writeTemp _ temp | .chmodTemp _ temp | .rename _ temp | .copyOpen _ temp | .copyBytes _ temp
  | .copyStat _ temp | .unlinkTemp _ temp =>
    s.returned = s₀.returned ∧ Function.update s.temps temp none = s₀.temps
  | .removeTemp result temp => s.returned = s₀.returned ∧ s.temps = s₀.temps ∧
    result.isSome = true ∧ s.temps temp = none
  | _ => s.returned = s₀.returned ∧ s.temps = s₀.temps

/-- **A step** of it. -/
theorem StartDone.step {s₀ : SecretKeyState} (h : StartDone s₀ s) (hI : SecretKeyInv first s)
    (hundisturbed : Undisturbed s a) (hst : secretKeyStep umask s a = some s') :
    StartDone s₀ s' ∧ s'.rank + 1 ≤ s.rank := by
  have hknows := hI.knows
  unfold StartDone at h
  unfold SecretKeyState.rank
  cases SecretKeyMove.of_step hst with
  | start hpc => exact absurd hundisturbed (by simp [Undisturbed])
  | kill hpc => exact absurd hundisturbed (by simp [Undisturbed])
  | unwritten hpc hfile => exact absurd hundisturbed (by simp [Undisturbed, hpc])
  | failed hpc =>
    rcases hpc with hpc | hpc | ⟨key, hpc⟩ <;>
      exact absurd hundisturbed (by simp [Undisturbed, hpc])
  | raised hpc =>
    cases hs : s.pc <;> simp [hs, Undisturbed, SecretKeyPc.temp?] at hundisturbed hpc
  | opened hpc hfile =>
    rw [hpc] at h ⊢
    exact ⟨h, by simp⟩
  | permsFit hpc hfile hperms =>
    rw [hpc] at h ⊢
    exact ⟨h, by simp⟩
  | corrupt hpc hfile hcorrupt =>
    rcases hpc with hpc | hpc <;> rw [hpc] at h ⊢ <;> exact ⟨h, by simp⟩
  | got hpc hfile hlength =>
    rw [hpc] at h hknows ⊢
    obtain ⟨content, hknows⟩ := hknows
    obtain rfl := Option.some.inj (hknows.symm.trans hfile)
    exact ⟨⟨h.2, content, congrArg (· ++ [content]) h.1, hlength, hknows⟩, by simp⟩
  | removed hpc =>
    rw [hpc] at h ⊢
    exact ⟨h, by simp⟩
  | unread hreads =>
    have hpc : s.pc = .openKey := by
      cases hpc : s.pc <;> simp [hpc, Undisturbed, SecretKeyPc.reads] at hundisturbed hreads ⊢
    rw [hpc] at h ⊢
    exact ⟨h, by simp⟩
  | random hpc hlength =>
    rw [hpc] at h ⊢
    exact ⟨h, by simp⟩
  | @mkstemp secretKey temp hpc hfree =>
    rw [hpc] at h ⊢
    refine ⟨⟨h.1, ?_⟩, by simp⟩
    show Function.update (Function.update s.temps temp _) temp none = s₀.temps
    rw [Function.update_idem, ← hfree, Function.update_eq_self, h.2]
  | written hpc hfile =>
    rw [hpc] at h ⊢
    exact ⟨⟨h.1, (Function.update_idem ..).trans h.2⟩, by simp⟩
  | chmodded hpc hfile =>
    rw [hpc] at h ⊢
    exact ⟨⟨h.1, (Function.update_idem ..).trans h.2⟩, by simp⟩
  | renamed hpc hfile =>
    rw [hpc] at h ⊢
    exact ⟨⟨h.1, h.2, rfl, Function.update_self ..⟩, by simp⟩
  | otherDevice hpc =>
    rw [hpc] at h ⊢
    exact ⟨h, by simp⟩
  | copyOpened perms hpc =>
    rw [hpc] at h ⊢
    exact ⟨h, by simp [secretKeyByteLength]⟩
  | copied hpc hfile htemp hn hlt =>
    rw [hpc] at h hknows
    obtain ⟨hkey, htemp', -⟩ := hknows
    obtain rfl := Option.some.inj (htemp'.symm.trans htemp)
    have hlength := hI.lengths _ hkey
    simp only [StartDone, hpc, hfile, Option.elim_some, List.length_take]
    refine ⟨h, ?_⟩
    simp only at hlt
    omega
  | copiedAll hpc hfile htemp hlength =>
    rw [hpc] at h ⊢
    exact ⟨h, by simp⟩
  | copiedStat hpc hfile htemp =>
    rw [hpc] at h ⊢
    exact ⟨h, by simp⟩
  | unlinked hpc =>
    rw [hpc] at h ⊢
    exact ⟨⟨h.1, h.2, rfl, Function.update_self ..⟩, by simp⟩
  | cleaned hpc htemp =>
    rw [hpc] at h
    exact absurd htemp (by simp [h.2.2.2])
  | @left result temp n hpc =>
    rw [hpc] at h hknows ⊢
    obtain ⟨hreturned, htemps, hsome, -⟩ := h
    obtain ⟨key, rfl⟩ := Option.isSome_iff_exists.mp hsome
    obtain ⟨hkey, hfile⟩ := hknows key rfl
    exact ⟨⟨htemps, key, congrArg (· ++ [key]) hreturned, hI.lengths key hkey, hfile⟩, by simp⟩

/-- It can always go on. -/
theorem StartDone.exists_step {s₀ : SecretKeyState} (umask : Nat) (h : StartDone s₀ s)
    (hI : SecretKeyInv first s) (hpc : s.pc ≠ .idle) :
    ∃ a, Undisturbed s a ∧ (secretKeyStep umask s a).isSome = true := by
  have hknows := hI.knows
  cases hcase : s.pc with
  | idle => exact absurd hcase hpc
  | openKey =>
    cases hfile : s.keyFile with
    | none => exact ⟨.raise 0, by simp [Undisturbed, hcase, hfile],
        by simp [secretKeyStep, SecretKeyState.raise, hcase]⟩
    | some file => exact ⟨.succeed, trivial,
        by simp [secretKeyStep, SecretKeyState.succeed, hcase, hfile]⟩
  | urandom => exact ⟨.random (List.replicate secretKeyByteLength 0), trivial,
      by simp [secretKeyStep, hcase]⟩
  | mkstemp key =>
    obtain ⟨n, hfree⟩ := hI.free
    exact ⟨.mkstemp n, trivial, by simp [secretKeyStep, hcase, hfree n (Nat.le_refl n)]⟩
  | copyBytes key temp =>
    rw [hcase] at hknows
    obtain ⟨-, htemp, perms, content, hfile, hpart⟩ := hknows
    rcases Nat.lt_or_eq_of_le hpart.length_le with hlt | hlength
    · exact ⟨.copy 1, trivial,
        by simp [secretKeyStep, SecretKeyState.copy, hcase, hfile, htemp, hlt]⟩
    · exact ⟨.succeed, trivial,
        by simp [secretKeyStep, SecretKeyState.succeed, hcase, hfile, htemp, hlength]⟩
  | removeTemp result temp =>
    rw [StartDone, hcase] at h
    exact ⟨.raise 0, by simp [Undisturbed, hcase, h.2.2.2],
      by simp [secretKeyStep, SecretKeyState.raise, hcase]⟩
  | readKey =>
    rw [hcase] at hknows
    obtain ⟨content, hfile⟩ := hknows
    exact ⟨.succeed, trivial, by simp [secretKeyStep, SecretKeyState.succeed, hcase, hfile]⟩
  | chmodTemp key temp =>
    rw [hcase] at hknows
    obtain ⟨-, perms, htemp⟩ := hknows
    exact ⟨.succeed, trivial, by simp [secretKeyStep, SecretKeyState.succeed, hcase, htemp]⟩
  | copyStat key temp =>
    rw [hcase] at hknows
    obtain ⟨-, htemp, perms, hfile⟩ := hknows
    exact ⟨.succeed, trivial, by simp [secretKeyStep, SecretKeyState.succeed, hcase, hfile, htemp]⟩
  | _ =>
    -- the file that the operation is about is there
    rw [hcase] at hknows
    refine ⟨.succeed, trivial, ?_⟩
    simp only [SecretKeyPc.Knows] at hknows
    simp [secretKeyStep, SecretKeyState.succeed, hcase, hknows]

/-- **A run** of it. -/
theorem StartDone.exec {s₀ : SecretKeyState} : ∀ {acts : List SecretKeyAct} {s : SecretKeyState},
    StartDone s₀ s → SecretKeyInv first s →
    (secretKeySystem umask first).Along (fun _ => True) Undisturbed s acts →
    (secretKeySystem umask first).exec s acts = some s' →
      StartDone s₀ s' ∧ SecretKeyInv first s' ∧ acts.length + s'.rank ≤ s.rank
  | [], s, h, hI, _, hexec => by
    obtain rfl := Option.some.inj hexec
    exact ⟨h, hI, by simp⟩
  | a :: acts, s, h, hI, ⟨_, hundisturbed, hlater⟩, hexec => by
    obtain ⟨t, hst, hexec⟩ := System.exec_cons_eq_some.mp hexec
    obtain ⟨ht, hrank⟩ := h.step hI hundisturbed hst
    obtain ⟨hs', hI', hle⟩ := ht.exec (hI.step hst) (hlater t hst) hexec
    refine ⟨hs', hI', ?_⟩
    rw [List.length_cons]
    omega

/-- **A start returns a key**, whatever file it finds: one that it has not made, what a start has
left that was killed, or none.  If it is not disturbed it makes at most 46 steps, and when it can
make no more it has returned a key of full length, which the file holds with permissions that `_get`
accepts; the temporary folder is as it was. -/
theorem start_returns_key {s₀ : SecretKeyState} (hr : (secretKeySystem umask first).Reach s₀)
    (hstart : secretKeyStep umask s₀ .start = some s) {acts : List SecretKeyAct}
    (hundisturbed : (secretKeySystem umask first).Along (fun _ => True) Undisturbed s acts)
    (hexec : (secretKeySystem umask first).exec s acts = some s') :
    acts.length ≤ 46 ∧
      ((∀ a, Undisturbed s' a → secretKeyStep umask s' a = none) →
        s'.pc = .idle ∧ s'.temps = s₀.temps ∧ ∃ key, s'.returned = s₀.returned ++ [key] ∧
          key.length = secretKeyByteLength ∧ s'.keyFile = some ⟨secretKeyFilePerms, key⟩) := by
  have hI := (SecretKeyInv.of_reach hr).step hstart
  have hfirst : StartDone s₀ s ∧ s.rank = 46 := by
    cases SecretKeyMove.of_step hstart with
    | start hpc => exact ⟨⟨rfl, rfl⟩, rfl⟩
  obtain ⟨hdone, hI', hlength⟩ := hfirst.1.exec hI hundisturbed hexec
  refine ⟨by omega, fun hsettled => ?_⟩
  have hidle : s'.pc = .idle := by
    by_contra hpc
    obtain ⟨a, ha, hstep⟩ := hdone.exists_step umask hI' hpc
    rw [hsettled a ha] at hstep
    exact absurd hstep (by simp)
  rw [StartDone, hidle] at hdone
  exact ⟨hidle, hdone⟩

/-- Over three bytes that everybody can read. -/
theorem start_returns_key_corrupt : ∃ s' : SecretKeyState, ∃ key, s'.returned = [key] ∧
    key.length = 32 ∧ s'.keyFile = some ⟨0o600, key⟩ := by
  let s₀ : SecretKeyState := ⟨some ⟨0o644, [1, 2, 3]⟩, fun _ => none, .idle, [], []⟩
  let acts : List SecretKeyAct := [.succeed, .succeed, .succeed, .random (List.replicate 32 5),
    .mkstemp 0, .succeed, .succeed, .succeed, .raise 0]
  have hundisturbed : (secretKeySystem 0o22 s₀.keyFile).Along (fun _ => True) Undisturbed
      { s₀ with pc := .openKey } acts := by
    iterate 8
      refine ⟨trivial, trivial, fun s hs => ?_⟩
      obtain rfl := Option.some.inj hs
    exact ⟨trivial, rfl, fun _ _ => trivial⟩
  obtain ⟨-, hreturns⟩ := start_returns_key (.start rfl) rfl hundisturbed rfl
  obtain ⟨-, -, key, hreturned, hlength, hfile⟩ := hreturns fun a ha => by
    cases a with
    | start | kill => exact absurd ha (by simp [Undisturbed])
    | _ => rfl
  exact ⟨_, key, hreturned, hlength, hfile⟩

end

end TinyPilotKvm
