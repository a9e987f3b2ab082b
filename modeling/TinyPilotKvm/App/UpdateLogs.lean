/-
# Streaming the update log (`update_logs.py`)

A `start` message turns its handler into a polling loop: read the whole log, send every client what
is new in it since `prev_logs`, sleep half a second, until the flag `is_streaming` is down.  A
`stop`, or the last client's leaving, takes the flag down; the loop sees that when it wakes up.

The handlers run between the steps of the loops, so the state holds, beside the namespace's own
fields, where each loop stands and the log as `read` would find it.  A read that fails raises out of
its loop, and the flag stays up.

A `start` that comes while the flag is down begins a loop, whether or not the old one has noticed.
In the runs where that does not happen there is one loop, and what it has sent is a prefix of the
log (`update_logs_once_iff`).
-/
import TinyPilotKvm.Transition
import Mathlib.Data.List.Infix

namespace TinyPilotKvm

/-! ## 1. What is new in a log -/

section

variable {α : Type} [DecidableEq α]

/-- `os.path.commonprefix` of two texts. -/
def commonPrefix : List α → List α → List α
  | a :: as, b :: bs => if a = b then a :: commonPrefix as bs else []
  | _, _ => []

/-- `get_new_logs`. -/
def getNewLogs (prevLogs nextLogs : List α) : List α :=
  nextLogs.drop (commonPrefix prevLogs nextLogs).length

theorem commonPrefix_isPrefix : ∀ as bs : List α, commonPrefix as bs <+: bs
  | [], bs => by
    rw [commonPrefix]
    · exact List.nil_prefix
    · simp
  | _ :: _, [] => by
    rw [commonPrefix]
    · simp
  | a :: as, b :: bs => by
    rw [commonPrefix]
    split
    · rename_i hab
      rw [hab]
      exact List.prefix_cons_inj b |>.mpr (commonPrefix_isPrefix as bs)
    · exact List.nil_prefix

theorem commonPrefix_append : ∀ as bs : List α, commonPrefix as (as ++ bs) = as
  | [], _ => by simp [commonPrefix]
  | a :: as, bs => by
    rw [List.cons_append, commonPrefix, if_pos rfl, commonPrefix_append as bs]

/-- The new logs end the text they are found in. -/
theorem commonPrefix_append_getNewLogs (prevLogs nextLogs : List α) :
    commonPrefix prevLogs nextLogs ++ getNewLogs prevLogs nextLogs = nextLogs := by
  have htake := List.prefix_iff_eq_take.mp (commonPrefix_isPrefix prevLogs nextLogs)
  calc commonPrefix prevLogs nextLogs ++ getNewLogs prevLogs nextLogs
      = nextLogs.take (commonPrefix prevLogs nextLogs).length
        ++ nextLogs.drop (commonPrefix prevLogs nextLogs).length := by rw [← htake, getNewLogs]
    _ = nextLogs := List.take_append_drop _ _

/-- Of a text that has grown they are what it has grown by. -/
theorem append_getNewLogs {prevLogs nextLogs : List α} (h : prevLogs <+: nextLogs) :
    prevLogs ++ getNewLogs prevLogs nextLogs = nextLogs := by
  obtain ⟨rest, rfl⟩ := h
  have hall := commonPrefix_append_getNewLogs prevLogs (prevLogs ++ rest)
  rwa [commonPrefix_append] at hall

end

example : getNewLogs "01234".toList "56789".toList = "56789".toList := by decide

/-! ## 2. The namespace and its loops -/

/-- Where the loop of an `on_start` stands. -/
inductive StreamPc
  | check
  | read
  | emit (logs : List Char)
  | remember (logs : List Char)
  | reschedule
  deriving DecidableEq

/-- `update_logs.Namespace`, with the loops that have not ended, the log, and all that has been
broadcast. -/
structure UpdateLogs where
  isStreaming : Bool
  prevLogs : List Char
  clientCount : Int
  loops : List StreamPc
  log : List Char
  broadcast : List (List Char)
  deriving DecidableEq

/-- `Namespace.__init__`. -/
def updateLogsInit (log : List Char) : UpdateLogs := ⟨false, [], 0, [], log, []⟩

namespace UpdateLogs

/-- `on_start`, as far as its loop. -/
def onStart (s : UpdateLogs) : UpdateLogs :=
  if s.isStreaming then s
  else { s with isStreaming := true, loops := s.loops ++ [.check] }

/-- `on_stop`. -/
def onStop (s : UpdateLogs) : UpdateLogs := { s with isStreaming := false }

/-- `on_connect`. -/
def onConnect (s : UpdateLogs) : UpdateLogs := { s with clientCount := s.clientCount + 1 }

/-- `on_disconnect`. -/
def onDisconnect (s : UpdateLogs) : UpdateLogs :=
  let s := { s with clientCount := s.clientCount - 1 }
  if s.clientCount = 0 then { s with isStreaming := false } else s

/-- One step of the loop of `on_start`: what it does to the namespace, and where it goes on, `none`
if it ends. -/
def turn (s : UpdateLogs) (readOk : Bool) : StreamPc → UpdateLogs × Option StreamPc
  | .check => (s, if s.isStreaming then some .read else none)
  | .read => (s, if readOk then some (.emit s.log) else none)
  | .emit logs =>
    let newLogs := getNewLogs s.prevLogs logs
    if newLogs = [] then (s, some .reschedule)
    else ({ s with broadcast := s.broadcast ++ [newLogs] }, some (.remember logs))
  | .remember logs => ({ s with prevLogs := logs }, some .reschedule)
  | .reschedule => (s, some .check)

/-- The `i`-th loop goes on at `pc`. -/
def goOn (i : Nat) : UpdateLogs × Option StreamPc → UpdateLogs
  | (s, some pc) => { s with loops := s.loops.set i pc }
  | (s, none) => { s with loops := s.loops.eraseIdx i }

end UpdateLogs

inductive UpdateLogsAct
  | connect
  | disconnect
  | start
  | stop
  | grow (more : List Char)
  | turn (i : Nat) (readOk : Bool)

def updateLogsStep (s : UpdateLogs) : UpdateLogsAct → Option UpdateLogs
  | .connect => some s.onConnect
  | .disconnect => some s.onDisconnect
  | .start => some s.onStart
  | .stop => some s.onStop
  | .grow more => some { s with log := s.log ++ more }
  | .turn i readOk => s.loops[i]?.map fun pc => UpdateLogs.goOn i (s.turn readOk pc)

/-- Any log to begin with. -/
def updateLogsSystem : System UpdateLogs UpdateLogsAct where
  start s := ∃ log, s = updateLogsInit log
  step := updateLogsStep

/-! ## 3. One loop -/

/-- **Every character once**: no two loops, and what has been sent is the beginning of the log. -/
structure UpdateLogs.Once (s : UpdateLogs) : Prop where
  oneLoop : s.loops.length ≤ 1
  inOrder : s.broadcast.flatten <+: s.log

/-- No `start` meets a loop that has not noticed a stop. -/
def StartOk (s : UpdateLogs) : UpdateLogsAct → Prop
  | .start => s.isStreaming = false → s.loops = []
  | _ => True

instance (s : UpdateLogs) (a : UpdateLogsAct) : Decidable (StartOk s a) := by
  cases a <;> unfold StartOk <;> infer_instance

namespace UpdateLogs

/-- What is true of a loop at `pc`: how much has been sent when it stands there, and that the text
in its hands lies between `prev_logs` and the log. -/
def LoopOk (s : UpdateLogs) : StreamPc → Prop
  | .emit logs =>
    s.broadcast.flatten = s.prevLogs ∧ s.prevLogs <+: logs ∧ logs <+: s.log
  | .remember logs => s.broadcast.flatten = logs ∧ logs <+: s.log
  | _ => s.broadcast.flatten = s.prevLogs ∧ s.prevLogs <+: s.log

/-- With no loop it is as between the turns of one. -/
def LogsInv (s : UpdateLogs) : Prop :=
  (s.loops = [] ∧ s.LoopOk .check) ∨ ∃ pc, s.loops = [pc] ∧ s.LoopOk pc

variable {s : UpdateLogs}

/-- Nothing that is sent runs ahead of the log. -/
theorem LoopOk.inOrder {pc : StreamPc} (h : s.LoopOk pc) : s.broadcast.flatten <+: s.log := by
  cases pc with
  | emit logs => exact h.1 ▸ h.2.1.trans h.2.2
  | remember logs => exact h.1 ▸ h.2
  | check => exact h.1 ▸ h.2
  | read => exact h.1 ▸ h.2
  | reschedule => exact h.1 ▸ h.2

theorem LogsInv.once (h : s.LogsInv) : s.Once := by
  rcases h with ⟨hnil, hpc⟩ | ⟨pc, hone, hpc⟩
  · exact ⟨by rw [hnil]; exact Nat.zero_le 1, hpc.inOrder⟩
  · exact ⟨by rw [hone]; exact Nat.le_refl 1, hpc.inOrder⟩

/-- A handler that leaves the loops, the texts and what is sent alone keeps the invariant, and so
does the log when it grows. -/
theorem LogsInv.of_same (h : s.LogsInv) {s' : UpdateLogs} (hloops : s'.loops = s.loops)
    (hprev : s'.prevLogs = s.prevLogs) (hlog : s.log <+: s'.log)
    (hsent : s'.broadcast = s.broadcast) : s'.LogsInv := by
  have hloop : ∀ pc, s.LoopOk pc → s'.LoopOk pc := by
    intro pc hpc
    cases pc <;> simp only [LoopOk, hprev, hsent] at hpc ⊢
    case emit => exact ⟨hpc.1, hpc.2.1, hpc.2.2.trans hlog⟩
    all_goals exact ⟨hpc.1, hpc.2.trans hlog⟩
  rw [LogsInv, hloops]
  rcases h with ⟨hnil, hpc⟩ | ⟨pc, hone, hpc⟩
  · exact .inl ⟨hnil, hloop _ hpc⟩
  · exact .inr ⟨pc, hone, hloop _ hpc⟩

theorem LogsInv.onDisconnect (h : s.LogsInv) : s.onDisconnect.LogsInv := by
  unfold UpdateLogs.onDisconnect
  dsimp only
  split <;> exact h.of_same rfl rfl (List.prefix_refl _) rfl

/-- A `start` that does not meet an old loop begins the only one. -/
theorem LogsInv.onStart (h : s.LogsInv) (hok : s.isStreaming = false → s.loops = []) :
    s.onStart.LogsInv := by
  unfold UpdateLogs.onStart
  split
  · exact h
  · rename_i hstopped
    have hnil := hok (by simpa using hstopped)
    rcases h with ⟨-, hpc⟩ | ⟨pc, hone, -⟩
    · exact .inr ⟨.check, by rw [hnil]; rfl, hpc⟩
    · rw [hnil] at hone
      exact absurd hone (by simp)

theorem turn_loops (s : UpdateLogs) (readOk : Bool) (pc : StreamPc) :
    (s.turn readOk pc).1.loops = s.loops := by
  cases pc with
  | emit logs =>
    unfold turn
    dsimp only
    split <;> rfl
  | check => rfl
  | read => rfl
  | remember logs => rfl
  | reschedule => rfl

/-- One step of the loop.  A loop that ends has written down all that it has sent. -/
theorem LoopOk.turn {pc : StreamPc} (h : s.LoopOk pc) (readOk : Bool) :
    (s.turn readOk pc).1.LoopOk ((s.turn readOk pc).2.getD .check) := by
  cases pc with
  | check =>
    unfold UpdateLogs.turn
    cases s.isStreaming <;> exact h
  | read =>
    unfold UpdateLogs.turn
    cases readOk with
    | false => exact h
    | true => exact ⟨h.1, h.2, List.prefix_refl _⟩
  | emit logs =>
    obtain ⟨hsent, hprev, hlog⟩ := h
    have hnew := append_getNewLogs hprev
    unfold UpdateLogs.turn
    dsimp only
    split
    · exact ⟨hsent, hprev.trans hlog⟩
    · refine ⟨?_, hlog⟩
      show (s.broadcast ++ [getNewLogs s.prevLogs logs]).flatten = logs
      rw [List.flatten_append, List.flatten_singleton, hsent, hnew]
  | remember logs => exact h
  | reschedule => exact h

/-- The one loop goes on, or it ends. -/
theorem logsInv_goOn {pc : StreamPc} (hone : s.loops = [pc]) (next : Option StreamPc)
    (hnext : s.LoopOk (next.getD .check)) : (goOn 0 (s, next)).LogsInv := by
  cases next with
  | none =>
    refine .inl ⟨?_, hnext⟩
    rw [goOn, hone]
    rfl
  | some next =>
    refine .inr ⟨next, ?_, hnext⟩
    rw [goOn, hone]
    rfl

/-- **The step.** -/
theorem LogsInv.step (h : s.LogsInv) {a : UpdateLogsAct} {s' : UpdateLogs} (hok : StartOk s a)
    (hst : updateLogsStep s a = some s') : s'.LogsInv := by
  cases a with
  | connect => exact Option.some.inj hst ▸ h.of_same rfl rfl (List.prefix_refl _) rfl
  | disconnect => exact Option.some.inj hst ▸ h.onDisconnect
  | start => exact Option.some.inj hst ▸ h.onStart hok
  | stop => exact Option.some.inj hst ▸ h.of_same rfl rfl (List.prefix_refl _) rfl
  | grow more => exact Option.some.inj hst ▸ h.of_same rfl rfl (List.prefix_append _ _) rfl
  | turn i readOk =>
    obtain ⟨pc, hpc, rfl⟩ := Option.map_eq_some_iff.mp hst
    rcases h with ⟨hnil, -⟩ | ⟨pc', hone, hloop⟩
    · rw [hnil] at hpc
      exact absurd hpc (by simp)
    · rw [hone] at hpc
      obtain ⟨rfl, rfl⟩ : i = 0 ∧ pc' = pc := by
        cases i with
        | zero => exact ⟨rfl, Option.some.inj hpc⟩
        | succ i => exact absurd hpc (by simp)
      exact logsInv_goOn ((s.turn_loops readOk _).trans hone) _ (hloop.turn readOk)

end UpdateLogs

theorem logsInv_of_reach {s : UpdateLogs} (hr : updateLogsSystem.ReachVia StartOk s) :
    s.LogsInv := by
  refine System.ReachVia.inv ?_ (fun s s' a hI hok hst => hI.step hok hst) hr
  rintro s ⟨log, rfl⟩
  exact .inl ⟨rfl, rfl, List.nil_prefix⟩

/-- **Streaming, and exactly where it is right.**  In a run in which no `start` meets a loop that
has not noticed a stop there is never more than one loop, and what has been broadcast is a prefix of
the log; and any other `start` leaves more loops than one. -/
theorem update_logs_once_iff (s : UpdateLogs) :
    (updateLogsSystem.ReachVia StartOk s → s.Once) ∧
      ∀ a s', ¬ StartOk s a → updateLogsSystem.step s a = some s' → ¬ s'.Once := by
  constructor
  · intro hr
    exact (logsInv_of_reach hr).once
  · intro a s' hno hst honce
    cases a with
    | start =>
      obtain ⟨hstopped, hloops⟩ := Classical.not_imp.mp hno
      have hs' : s.onStart = s' := Option.some.inj hst
      have hlen : s.onStart.loops.length = s.loops.length + 1 := by
        rw [UpdateLogs.onStart, hstopped]
        exact List.length_append
      have hpos := List.length_pos_iff.mpr hloops
      have hle := honce.oneLoop
      rw [← hs', hlen] at hle
      omega
    | connect => exact hno trivial
    | disconnect => exact hno trivial
    | stop => exact hno trivial
    | grow more => exact hno trivial
    | turn i readOk => exact hno trivial

theorem updateLogs_start (log : List Char) : updateLogsSystem.start (updateLogsInit log) :=
  ⟨log, rfl⟩

/-- One client, and a log that is read twice. -/
theorem update_logs_once_two_reads :
    ∃ s : UpdateLogs, s.broadcast = ["ab".toList, "c".toList] ∧ s.loops.length = 1 ∧ s.Once := by
  have hrun : ((updateLogsSystem.execVia StartOk (updateLogsInit "ab".toList)
      [.connect, .start, .turn 0 true, .turn 0 true, .turn 0 true, .turn 0 true, .grow "c".toList,
        .turn 0 true, .turn 0 true, .turn 0 true, .turn 0 true]).any fun s =>
      decide (s.broadcast = ["ab".toList, "c".toList] ∧ s.loops.length = 1)) = true := by
    decide +kernel
  obtain ⟨s, hexec, hs⟩ := (Option.any_eq_true _ _).mp hrun
  have hr := System.ReachVia.execVia _ (.start (updateLogs_start _)) hexec
  obtain ⟨hsent, hloops⟩ := of_decide_eq_true hs
  exact ⟨s, hsent, hloops, (update_logs_once_iff s).1 hr⟩

/-- **Two loops.**  A stop and a start within one sleep: the old loop wakes up to find the flag up
again. -/
theorem restart_leaves_two_loops :
    ∃ s, updateLogsSystem.Reach s ∧ s.loops = [.read, .read] ∧ ¬ s.Once := by
  have hrun : ((updateLogsSystem.exec (updateLogsInit [])
      [.connect, .start, .turn 0 true, .turn 0 true, .turn 0 true, .stop, .start, .turn 1 true,
        .turn 0 true, .turn 0 true]).any fun s =>
      decide (s.loops = [.read, .read])) = true := by
    decide +kernel
  obtain ⟨s, hexec, hs⟩ := (Option.any_eq_true _ _).mp hrun
  have hloops : s.loops = [.read, .read] := of_decide_eq_true hs
  refine ⟨s, System.Reach.exec _ (.start (updateLogs_start _)) hexec, hloops, fun honce => ?_⟩
  have hle := honce.oneLoop
  rw [hloops] at hle
  exact absurd hle (by decide)

end TinyPilotKvm
