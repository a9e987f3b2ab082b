/-
# Opening the database (`app/db/store.py`)

`create_or_open` brings the database file to the newest schema: it reads the counter
`user_version` and then runs the migration scripts from that index on, each in a transaction of
its own together with the write of the new counter.

SQLite is what its transactions promise.  The file is what was committed last, and a transaction
works on a copy that only its owner sees and that either becomes the file or vanishes.  A plain
`BEGIN` is deferred, so it takes nothing: **the file is locked by the statement that comes next**.
The lock is shared as long as a transaction only reads.  To write, it takes a lock that one of them
has at a time: the first statement of a transaction waits for that, and a later one fails at once
(`SQLITE_BUSY`).  A commit waits until nobody else has the file locked.

A statement of a script is any partial function on the schema and the data, or one that only reads
them, so a script may fail at any of its statements.

`createOrOpen` is a call that nothing interrupts.  In `storeSystem` a call is taken apart into the
statements it sends to SQLite, so calls can interleave anywhere.  Besides, any statement can fail
for a reason of its own, such as a full disk or too long a wait (`fail`), and the process of a call
can die anywhere (`die`).
-/
import Mathlib.Data.List.GetD
import Mathlib.Logic.Function.Basic
import TinyPilotKvm.Transition

namespace TinyPilotKvm

/-! ## 1. Files and scripts -/

/-- The database file: schema and data, and the property `user_version`. -/
structure DbFile (σ : Type) where
  data : σ
  userVersion : Nat
  deriving DecidableEq

/-- An SQL statement.  `none`: it fails; `some none`: it only reads; otherwise, what it makes of the
schema and the data. -/
abbrev Statement (σ : Type) : Type := σ → Option (Option σ)

/-- The statements of a migration script. -/
abbrev Script (σ : Type) : Type := List (Statement σ)

section

variable {σ : Type}

/-- The schema and the data after a statement. -/
def applyStatement (statement : Statement σ) (data : σ) : Option σ :=
  (statement data).map fun written => written.getD data

/-- What a whole script does.  `none`: one of its statements fails. -/
def applyScript (script : Script σ) (data : σ) : Option σ :=
  script.foldlM (fun data statement => applyStatement statement data) data

/-- What a list of scripts does. -/
def applyScripts (scripts : List (Script σ)) (data : σ) : Option σ :=
  scripts.foldlM (fun data script => applyScript script data) data

/-- How a call ends. -/
inductive OpenOutcome
  | returned
  /-- `AssertionError`: the file is newer than the app. -/
  | incompatible
  /-- A statement of migration `i` fails on the data. -/
  | scriptError (i : Nat)
  /-- A statement finds the file locked by another transaction. -/
  | locked
  /-- A statement fails for a reason of its own. -/
  | failed
  /-- The process dies. -/
  | died
  deriving DecidableEq

/-- The loop over the migrations from index `i` on. -/
def applyPending (i : Nat) : List (Script σ) → DbFile σ → OpenOutcome × DbFile σ
  | [], file => (.returned, file)
  | script :: pending, file =>
    match applyScript script file.data with
    | none => (.scriptError i, file)
    | some data => applyPending (i + 1) pending ⟨data, i + 1⟩

/-- `create_or_open`, if nothing interrupts it and nobody else uses the file. -/
def createOrOpen (migrations : List (Script σ)) (file : DbFile σ) : OpenOutcome × DbFile σ :=
  if file.userVersion = migrations.length then (.returned, file)
  else if file.userVersion > migrations.length then (.incompatible, file)
  else applyPending file.userVersion (migrations.drop file.userVersion) file

end

/-! ## 2. Calls, statement by statement -/

/-- The next statement of a call of `create_or_open`. -/
inductive OpenPc (σ : Type)
  /-- Not called yet. -/
  | idle
  /-- `PRAGMA user_version`. -/
  | readCounter
  /-- The comparison of the counter with the number of migrations. -/
  | compare (initialMigrationsCounter : Nat)
  /-- The `BEGIN` of migration `i`. -/
  | begin (i : Nat)
  /-- The first statement behind that `BEGIN`, which locks the file. -/
  | begun (i : Nat)
  /-- The statements left of migration `i`, and then `PRAGMA user_version={i+1}`. -/
  | script (i : Nat) (rest : Script σ)
  /-- The commit at the end of the `with` block. -/
  | commit (i : Nat)
  | done (outcome : OpenOutcome)

/-- A call, with the scripts its process has read from the disk. -/
structure OpenCall (σ : Type) where
  migrations : List (Script σ)
  pc : OpenPc σ

/-- The file; the transactions that have it locked, each with its copy, and the one of them that
writes; the calls; and the migrations committed so far. -/
structure StoreState (ι σ : Type) where
  file : DbFile σ
  txs : List (ι × DbFile σ)
  writer : Option ι
  calls : ι → OpenCall σ
  commits : List Nat

inductive StoreAct (ι σ : Type)
  | call (p : ι) (migrations : List (Script σ))
  | step (p : ι)
  | fail (p : ι)
  | die (p : ι)

section

variable {ι σ : Type} [DecidableEq ι]

namespace StoreState

def setPc (s : StoreState ι σ) (p : ι) (pc : OpenPc σ) : StoreState ι σ :=
  { s with calls := Function.update s.calls p { s.calls p with pc := pc } }

/-- The transactions of the others. -/
def otherTxs (s : StoreState ι σ) (p : ι) : List (ι × DbFile σ) := s.txs.filter (·.1 ≠ p)

/-- The end of a call by an exception or a death: a transaction of its own is rolled back. -/
def abort (s : StoreState ι σ) (p : ι) (outcome : OpenOutcome) : StoreState ι σ :=
  { s.setPc p (.done outcome) with
    txs := s.otherTxs p
    writer := if s.writer = some p then none else s.writer }

/-- A statement that writes, with the copy that it leaves.  If somebody else writes, it waits unless
its transaction has read already. -/
def write (s : StoreState ι σ) (p : ι) (work : DbFile σ) (pc : OpenPc σ) :
    Option (StoreState ι σ) :=
  if s.writer = none ∨ s.writer = some p then
    some { s.setPc p pc with txs := (p, work) :: s.otherTxs p, writer := some p }
  else if s.txs.any (·.1 = p) then some (s.abort p .locked)
  else none

/-- The next statement of migration `i`, on the copy `work`: the first of those left, or the
`PRAGMA`. -/
def runStatement (s : StoreState ι σ) (p : ι) (i : Nat) (work : DbFile σ) :
    Script σ → Option (StoreState ι σ)
  | statement :: rest =>
    match statement work.data with
    | none => some (s.abort p (.scriptError i))
    | some none => some { s.setPc p (.script i rest) with txs := (p, work) :: s.otherTxs p }
    | some (some data) => s.write p { work with data := data } (.script i rest)
  | [] => s.write p { work with userVersion := i + 1 } (.commit i)

end StoreState

/-- `create_or_open` is called. -/
def storeCall (s : StoreState ι σ) (p : ι) (migrations : List (Script σ)) :
    Option (StoreState ι σ) :=
  match (s.calls p).pc with
  | .idle | .done _ =>
    some { s with calls := Function.update s.calls p ⟨migrations, .readCounter⟩ }
  | _ => none

/-- The next turn of the loop, or the return. -/
def nextMigration (migrations : List (Script σ)) (i : Nat) : OpenPc σ :=
  if i < migrations.length then .begin i else .done .returned

/-- The next statement of a call. -/
def storeAdvance (s : StoreState ι σ) (p : ι) : Option (StoreState ι σ) :=
  let migrations := (s.calls p).migrations
  match (s.calls p).pc with
  | .readCounter => some (s.setPc p (.compare s.file.userVersion))
  | .compare initialMigrationsCounter =>
    if initialMigrationsCounter = migrations.length then some (s.setPc p (.done .returned))
    else if initialMigrationsCounter > migrations.length then
      some (s.setPc p (.done .incompatible))
    else some (s.setPc p (nextMigration migrations initialMigrationsCounter))
  | .begin i => some (s.setPc p (.begun i))
  | .begun i => s.runStatement p i s.file (migrations.getD i [])
  | .script i rest => (s.txs.lookup p).bind fun work => s.runStatement p i work rest
  | .commit i =>
    if s.otherTxs p = [] then
      (s.txs.lookup p).map fun work =>
        { s.setPc p (nextMigration migrations (i + 1)) with
          file := work
          txs := []
          writer := none
          commits := s.commits ++ [i] }
    else none
  | .idle | .done _ => none

/-- A call that is under way ends early. -/
def storeAbort (s : StoreState ι σ) (p : ι) (outcome : OpenOutcome) : Option (StoreState ι σ) :=
  match (s.calls p).pc with
  | .idle | .done _ => none
  | _ => some (s.abort p outcome)

def storeStep (s : StoreState ι σ) : StoreAct ι σ → Option (StoreState ι σ)
  | .call p migrations => storeCall s p migrations
  | .step p => storeAdvance s p
  | .fail p => storeAbort s p .failed
  | .die p => storeAbort s p .died

/-- Before the first call. -/
def storeInit (file : DbFile σ) : StoreState ι σ where
  file := file
  txs := []
  writer := none
  calls _ := ⟨[], .idle⟩
  commits := []

/-- The calls on a file. -/
def storeSystem (file : DbFile σ) : System (StoreState ι σ) (StoreAct ι σ) where
  start s := s = storeInit file
  step := storeStep

end

end TinyPilotKvm
