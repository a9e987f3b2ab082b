/-
# Updates (`update/launcher.py`, `status.py`, `result_store.py`, `result.py`, `update-service`)

The server keeps nothing about an update in memory.  While one runs it sees the script among the
processes; afterwards it reads the result file that the updater has left, which a `PUT` has cleared
before.  The updater is a service of its own: it starts some time after the `PUT` that has asked for
it, and it opens its result file before it has written it.

The server handles one request at a time (no handler lets another one run), but between any two
looks of a handler the updater may go on.
-/
import TinyPilotKvm.Python.Values
import TinyPilotKvm.Transition

namespace TinyPilotKvm

/-! ## 1. Results and their files -/

/-- `update.result.Result`; the time in seconds. -/
structure UpdateResult where
  error : Option PyStr
  timestamp : Nat
  deriving DecidableEq

/-- What a result file holds: JSON that `write` has dumped, or less than that. -/
inductive ResultFile
  | torn
  | result (r : UpdateResult)
  deriving DecidableEq

/-- `update.result.read`; `none` if `json.load` raises. -/
def readResult : ResultFile → Option UpdateResult
  | .torn => none
  | .result r => some { r with error := if r.error = some [] then none else r.error }

/-- The name of `_RESULT_PATH`. -/
def latestName : PyStr := py "latest-update-result.json"

/-- `sorted(result_files)[-1]`. -/
def lastName : List PyStr → Option PyStr
  | [] => none
  | name :: names => some (names.foldl (fun last name => if last < name then name else last) name)

/-- How `subprocess.run` of the script ends; a `CalledProcessError` by its text. -/
inductive ScriptEnd
  | completed
  | failed (e : PyStr)
  | timedOut
  deriving DecidableEq

/-- `run_update_script`, from the end of the script on. -/
def runUpdateScript (scriptEnd : ScriptEnd) (now : Nat) : UpdateResult :=
  match scriptEnd with
  | .completed => ⟨none, now⟩
  | .failed e => ⟨some (py "The update failed: " ++ e), now⟩
  | .timedOut => ⟨some (py "The update timed out"), now⟩

/-- An error has a text, so it is read as it was written. -/
theorem readResult_runUpdateScript (scriptEnd : ScriptEnd) (now : Nat) :
    readResult (.result (runUpdateScript scriptEnd now))
      = some (runUpdateScript scriptEnd now) := by
  cases scriptEnd with
  | completed => rfl
  | failed e => simp [readResult, runUpdateScript, py]
  | timedOut => simp [readResult, runUpdateScript, py]

/-! ## 2. The server and the updater -/

inductive UpdateStatus
  | notRunning
  | inProgress
  | done
  deriving DecidableEq

inductive UpdateAnswer
  /-- Of `update_get`. -/
  | status (status : UpdateStatus) (error : Option PyStr)
  /-- Of `update_put`. -/
  | success
  /-- Something has been raised. -/
  | serverError
  deriving DecidableEq

/-- Where the handler stands; `put` tells `update_put` from `update_get`. -/
inductive UpdateRequestPc
  | idle
  | ps (put : Bool)
  | readLatest (put : Bool)
  | globLegacy (put : Bool)
  | readLegacy (put : Bool) (name : PyStr)
  -- `update.result_store.clear`
  | globResults
  | removeResults (names : List PyStr)
  | popen
  deriving DecidableEq

/-- Where the service `tinypilot-updater` stands. -/
inductive UpdaterPc
  | inactive
  | starting
  | script
  | ended (result : UpdateResult)
  -- `result_store.write`, between `open` and the end of `with`
  | opened (result : UpdateResult)
  | written
  deriving DecidableEq

structure UpdateState where
  /-- What matches `_RESULT_GLOB_PATTERN`, by name. -/
  files : List (PyStr × ResultFile)
  request : UpdateRequestPc
  /-- The `service tinypilot-updater start` that have not come through. -/
  pending : Nat
  updater : UpdaterPc
  /-- `_is_update_process_running`. -/
  script : Bool
  /-- What has been answered, and the results of the scripts that have ended. -/
  answers : List UpdateAnswer
  results : List UpdateResult
  deriving DecidableEq

namespace UpdateState

variable (s : UpdateState)

def answer (a : UpdateAnswer) : UpdateState :=
  { s with request := .idle, answers := s.answers ++ [a] }

/-- `update.status.get` has returned; `start_async` clears the results. -/
def gotStatus (put : Bool) (status : UpdateStatus) (error : Option PyStr) : UpdateState :=
  if put then { s with request := .globResults } else s.answer (.status status error)

def gotFile (put : Bool) (file : ResultFile) : UpdateState :=
  match readResult file with
  | some r => s.gotStatus put .done r.error
  | none => s.answer .serverError

/-- The handler goes on. -/
def handle : Option UpdateState :=
  match s.request with
  | .idle => none
  | .ps put =>
    -- a `PUT` passes over an `AlreadyInProgressError`
    if s.script then some (s.answer (if put then .success else .status .inProgress none))
    else some { s with request := .readLatest put }
  | .readLatest put =>
    match s.files.lookup latestName with
    | some file => some (s.gotFile put file)
    | none => some { s with request := .globLegacy put }
  | .globLegacy put =>
    match lastName (s.files.map Prod.fst) with
    | some name => some { s with request := .readLegacy put name }
    | none => some (s.gotStatus put .notRunning none)
  | .readLegacy put name =>
    match s.files.lookup name with
    | some file => some (s.gotFile put file)
    | none => some (s.answer .serverError)
  | .globResults => some { s with request := .removeResults (s.files.map Prod.fst) }
  | .removeResults [] => some { s with request := .popen }
  | .removeResults (name :: names) =>
    if (s.files.lookup name).isSome then
      some { s with files := s.files.filter (·.1 ≠ name), request := .removeResults names }
    else some (s.answer .serverError)
  | .popen => some { s.answer .success with pending := s.pending + 1 }

/-- `_RESULT_PATH` has the content `file`. -/
def setLatest (file : ResultFile) : UpdateState :=
  { s with files := (latestName, file) :: s.files.filter (·.1 ≠ latestName) }

@[simp] theorem setLatest_files (file : ResultFile) : (s.setLatest file).files
    = (latestName, file) :: s.files.filter (·.1 ≠ latestName) := rfl

end UpdateState

inductive UpdateAct
  | get
  | put
  | handle
  /-- systemd carries out a `start`. -/
  | start
  | launch
  /-- `orphan`: the script outlives the `sudo` that has been killed for it. -/
  | scriptEnds (scriptEnd : ScriptEnd) (now : Nat) (orphan : Bool)
  | orphanEnds
  | openResult
  | writeResult
  | exit
  /-- The updater is killed, or raises something. -/
  | kill
  | reboot

def updateStep (s : UpdateState) : UpdateAct → Option UpdateState
  | .get => if s.request = .idle then some { s with request := .ps false } else none
  | .put => if s.request = .idle then some { s with request := .ps true } else none
  | .handle => s.handle
  | .start =>
    -- a service that is not inactive goes on as it is
    if s.pending = 0 then none
    else some { s with
      pending := s.pending - 1
      updater := if s.updater = .inactive then .starting else s.updater }
  | .launch =>
    if s.updater = .starting then some { s with updater := .script, script := true } else none
  | .scriptEnds scriptEnd now orphan =>
    let result := runUpdateScript scriptEnd now
    if s.updater = .script then
      some { s with
        updater := .ended result
        script := orphan && decide (scriptEnd = .timedOut)
        results := s.results ++ [result] }
    else none
  | .orphanEnds => if s.updater = .script then none else some { s with script := false }
  | .openResult =>
    match s.updater with
    | .ended result => some { s.setLatest .torn with updater := .opened result }
    | _ => none
  | .writeResult =>
    match s.updater with
    | .opened result =>
      -- what is written to a file that has been removed is lost
      if (s.files.lookup latestName).isSome then
        some { s.setLatest (.result result) with updater := .written }
      else some { s with updater := .written }
    | _ => none
  | .exit =>
    if s.updater = .written then some { s with updater := .inactive, script := false } else none
  | .kill =>
    if s.updater = .inactive then none else some { s with updater := .inactive, script := false }
  | .reboot =>
    some { s with request := .idle, pending := 0, updater := .inactive, script := false }

/-- The runs from the state `first`. -/
def updateSystem (first : UpdateState) : System UpdateState UpdateAct where
  start s := s = first
  step := updateStep

/-! ## 3. A `PUT` while no update goes on -/

theorem lastName_mem {names : List PyStr} {name : PyStr} (h : lastName names = some name) :
    name ∈ names := by
  have hfold : ∀ (names : List PyStr) (first : PyStr),
      names.foldl (fun last name => if last < name then name else last) first ∈ first :: names := by
    intro names
    induction names with
    | nil => exact fun first => List.mem_cons_self
    | cons name names ih =>
      intro first
      rw [List.foldl_cons]
      rcases List.mem_cons.mp (ih (if first < name then name else first)) with hmem | hmem
      · rw [hmem]
        split
        · exact List.mem_cons_of_mem _ List.mem_cons_self
        · exact List.mem_cons_self
      · exact List.mem_cons_of_mem _ (List.mem_cons_of_mem _ hmem)
  cases names with
  | nil => cases h
  | cons first names =>
    obtain rfl := Option.some.inj h
    exact hfold names first

/-- Nothing goes on, and what earlier updates have left can be read. -/
structure Quiet (s : UpdateState) : Prop where
  request : s.request = .idle
  pending : s.pending = 0
  updater : s.updater = .inactive
  script : s.script = false
  answers : s.answers = []
  results : s.results = []
  names : (s.files.map Prod.fst).Nodup
  whole : ∀ file ∈ s.files, file.2 ≠ .torn

/-- How far a `PUT` has come that has found no update. -/
def PutPlace (s : UpdateState) : UpdateRequestPc → Prop
  | .ps put | .readLatest put | .globLegacy put =>
    put = true ∧ s.pending = 0 ∧ s.answers = [] ∧ ∀ file ∈ s.files, file.2 ≠ .torn
  | .readLegacy put name => put = true ∧ s.pending = 0 ∧ s.answers = [] ∧
    (∀ file ∈ s.files, file.2 ≠ .torn) ∧ name ∈ s.files.map Prod.fst
  | .globResults => s.pending = 0 ∧ s.answers = []
  | .removeResults names => names = s.files.map Prod.fst ∧ s.pending = 0 ∧ s.answers = []
  | .popen => s.files = [] ∧ s.pending = 0 ∧ s.answers = []
  | .idle => s.files = [] ∧ s.pending = 1 ∧ s.answers = [.success]

structure PutInv (s : UpdateState) : Prop where
  updater : s.updater = .inactive
  script : s.script = false
  results : s.results = []
  names : (s.files.map Prod.fst).Nodup
  place : PutPlace s s.request

section

variable {s s' : UpdateState} {a : UpdateAct}

theorem gotFile_put {name : PyStr} {file : ResultFile}
    (hwhole : ∀ file ∈ s.files, file.2 ≠ .torn) (hfile : s.files.lookup name = some file) :
    s.gotFile true file = { s with request := .globResults } := by
  obtain ⟨before, after, hfiles, -⟩ := List.lookup_eq_some_iff.mp hfile
  cases file with
  | torn => exact absurd rfl (hwhole (name, .torn) (by simp [hfiles]))
  | result r => rfl

/-- Names differ, so one file is removed at a time. -/
theorem filter_ne_head {file : PyStr × ResultFile} {files : List (PyStr × ResultFile)}
    (hnames : ((file :: files).map Prod.fst).Nodup) :
    (file :: files).filter (·.1 ≠ file.1) = files := by
  rw [List.map_cons, List.nodup_cons] at hnames
  rw [List.filter_cons_of_neg (by simp)]
  refine List.filter_eq_self.mpr fun other hother => ?_
  have hne : other.1 ≠ file.1 := fun heq => hnames.1 (heq ▸ List.mem_map_of_mem hother)
  simpa using hne

/-- How many steps the handler of such a `PUT` has at most before it. -/
def UpdateState.putRank (s : UpdateState) : Nat :=
  match s.request with
  | .ps _ => s.files.length + 7
  | .readLatest _ => s.files.length + 6
  | .globLegacy _ => s.files.length + 5
  | .readLegacy _ _ => s.files.length + 4
  | .globResults => s.files.length + 3
  | .removeResults names => names.length + 2
  | .popen => 1
  | .idle => 0

/-- The handler has made one of these steps. -/
structure PutStep (s s' : UpdateState) : Prop where
  handle : s.handle = some s'
  inv : PutInv s'
  rank : s'.putRank < s.putRank

/-- **The handler of a `PUT`** goes on until it has answered. -/
theorem PutInv.handle (h : PutInv s) (hbusy : s.request ≠ .idle) : ∃ s', PutStep s s' := by
  obtain ⟨hupdater, hscript, hresults, hnames, hplace⟩ := h
  cases hrequest : s.request with
  | idle => exact absurd hrequest hbusy
  | ps put =>
    rw [hrequest] at hplace
    have hst : s.handle = some { s with request := .readLatest put } := by
      simp only [UpdateState.handle, hrequest, hscript, Bool.false_eq_true, if_false]
    exact ⟨_, hst, ⟨hupdater, hscript, hresults, hnames, hplace⟩,
      by simp [UpdateState.putRank, hrequest]⟩
  | readLatest put =>
    rw [hrequest] at hplace
    obtain ⟨rfl, hpending, hanswers, hwhole⟩ := hplace
    cases hfile : s.files.lookup latestName with
    | none =>
      have hst : s.handle = some { s with request := .globLegacy true } := by
        simp only [UpdateState.handle, hrequest, hfile]
      exact ⟨_, hst, ⟨hupdater, hscript, hresults, hnames, rfl, hpending, hanswers, hwhole⟩,
        by simp [UpdateState.putRank, hrequest]⟩
    | some file =>
      have hst : s.handle = some { s with request := .globResults } := by
        simp only [UpdateState.handle, hrequest, hfile, gotFile_put hwhole hfile]
      exact ⟨_, hst, ⟨hupdater, hscript, hresults, hnames, hpending, hanswers⟩,
        by simp [UpdateState.putRank, hrequest]⟩
  | globLegacy put =>
    rw [hrequest] at hplace
    obtain ⟨rfl, hpending, hanswers, hwhole⟩ := hplace
    cases hname : lastName (s.files.map Prod.fst) with
    | none =>
      have hst : s.handle = some { s with request := .globResults } := by
        simp only [UpdateState.handle, hrequest, hname]
        rfl
      exact ⟨_, hst, ⟨hupdater, hscript, hresults, hnames, hpending, hanswers⟩,
        by simp [UpdateState.putRank, hrequest]⟩
    | some name =>
      have hst : s.handle = some { s with request := .readLegacy true name } := by
        simp only [UpdateState.handle, hrequest, hname]
      exact ⟨_, hst, ⟨hupdater, hscript, hresults, hnames, rfl, hpending, hanswers, hwhole,
        lastName_mem hname⟩, by simp [UpdateState.putRank, hrequest]⟩
  | readLegacy put name =>
    rw [hrequest] at hplace
    obtain ⟨rfl, hpending, hanswers, hwhole, hname⟩ := hplace
    cases hfile : s.files.lookup name with
    | none =>
      obtain ⟨file, hmem, rfl⟩ := List.mem_map.mp hname
      exact absurd (List.lookup_eq_none_iff.mp hfile file hmem) (by simp)
    | some file =>
      have hst : s.handle = some { s with request := .globResults } := by
        simp only [UpdateState.handle, hrequest, hfile, gotFile_put hwhole hfile]
      exact ⟨_, hst, ⟨hupdater, hscript, hresults, hnames, hpending, hanswers⟩,
        by simp [UpdateState.putRank, hrequest]⟩
  | globResults =>
    rw [hrequest] at hplace
    have hst : s.handle = some { s with request := .removeResults (s.files.map Prod.fst) } := by
      simp only [UpdateState.handle, hrequest]
    exact ⟨_, hst, ⟨hupdater, hscript, hresults, hnames, rfl, hplace⟩,
      by simp [UpdateState.putRank, hrequest]⟩
  | removeResults names =>
    rw [hrequest] at hplace
    obtain ⟨rfl, hpending, hanswers⟩ := hplace
    cases hfiles : s.files with
    | nil =>
      have hst : s.handle = some { s with request := .popen } := by
        simp only [UpdateState.handle, hrequest, hfiles, List.map_nil]
      exact ⟨_, hst, ⟨hupdater, hscript, hresults, hnames, hfiles, hpending, hanswers⟩,
        by simp [UpdateState.putRank, hrequest]⟩
    | cons file files =>
      rw [hfiles] at hnames
      have hst : s.handle = some { s with
          files := files, request := .removeResults (files.map Prod.fst) } := by
        simp only [UpdateState.handle, hrequest, hfiles, List.map_cons, filter_ne_head hnames]
        exact if_pos (by simp)
      exact ⟨_, hst, ⟨hupdater, hscript, hresults, (List.nodup_cons.mp hnames).2, rfl, hpending,
        hanswers⟩, by simp [UpdateState.putRank, hrequest, hfiles]⟩
  | popen =>
    rw [hrequest] at hplace
    obtain ⟨hfiles, hpending, hanswers⟩ := hplace
    have hst : s.handle = some { s.answer .success with pending := s.pending + 1 } := by
      simp only [UpdateState.handle, hrequest]
    refine ⟨_, hst, ⟨hupdater, hscript, hresults, hnames, hfiles, congrArg (· + 1) hpending, ?_⟩,
      by simp [UpdateState.putRank, hrequest, UpdateState.answer]⟩
    exact congrArg (· ++ [.success]) hanswers

/-- **The `PUT` is answered.** -/
theorem PutInv.exec (first : UpdateState) (m : Nat) : ∀ {s : UpdateState}, PutInv s →
    s.putRank ≤ m → ∃ n launched,
      (updateSystem first).exec s (List.replicate n .handle) = some launched ∧ PutInv launched ∧
        launched.request = .idle := by
  induction m with
  | zero =>
    intro s h hrank
    refine ⟨0, s, rfl, h, ?_⟩
    by_contra hbusy
    obtain ⟨s', hstep⟩ := h.handle hbusy
    exact absurd hstep.rank (by omega)
  | succ m ih =>
    intro s h hrank
    by_cases hidle : s.request = .idle
    · exact ⟨0, s, rfl, h, hidle⟩
    · obtain ⟨s', hstep⟩ := h.handle hidle
      obtain ⟨n, launched, hexec, hlaunched⟩ := ih hstep.inv (by have := hstep.rank; omega)
      refine ⟨n + 1, launched, ?_, hlaunched⟩
      rw [List.replicate_succ]
      exact System.exec_cons_eq_some.mpr ⟨s', hstep.handle, hexec⟩

/-! ## 4. The update that it has started -/

/-- No further `PUT` looks for the script while it does not run; nothing is killed. -/
def NoOtherUpdate (s : UpdateState) : UpdateAct → Prop
  | .handle => s.request = .ps true → s.script = true
  | .kill | .reboot => False
  | _ => True

instance (s : UpdateState) : (a : UpdateAct) → Decidable (NoOtherUpdate s a)
  | .handle => inferInstanceAs (Decidable (_ → _))
  | .kill | .reboot => isFalse id
  | .get | .put | .start | .launch | .scriptEnds _ _ _ | .orphanEnds | .openResult | .writeResult
  | .exit => isTrue trivial

/-- How far the update has come. -/
def UpdatePlace (s : UpdateState) : UpdaterPc → Prop
  | .inactive => s.script = false ∧ ((s.pending = 1 ∧ s.files = [] ∧ s.results = []) ∨
    (s.pending = 0 ∧ ∃ r, s.results = [r] ∧ s.files = [(latestName, .result r)]))
  | .starting | .script => s.pending = 0 ∧ s.files = [] ∧ s.results = []
  | .ended r => s.pending = 0 ∧ s.files = [] ∧ s.results = [r]
  | .opened r => s.pending = 0 ∧ s.files = [(latestName, .torn)] ∧ s.results = [r]
  | .written => s.pending = 0 ∧ ∃ r, s.results = [r] ∧ s.files = [(latestName, .result r)]

/-- The handlers clear nothing. -/
def UpdateRequestPc.keeps : UpdateRequestPc → Bool
  | .idle | .ps _ | .readLatest false | .globLegacy false | .readLegacy false _ => true
  | _ => false

/-- The files are those of the one update, and so are the answers. -/
structure UpdateInv (s : UpdateState) : Prop where
  place : UpdatePlace s s.updater
  request : s.request.keeps = true
  genuine : ∀ r ∈ s.results, ∃ scriptEnd now, r = runUpdateScript scriptEnd now
  answers : ∀ e, .status .done e ∈ s.answers → ∃ r, s.results = [r] ∧ e = r.error

namespace UpdateInv

/-- What a handler can find. -/
theorem files (h : UpdateInv s) : s.files = [] ∨ s.files = [(latestName, .torn)] ∨
    ∃ r, s.results = [r] ∧ s.files = [(latestName, .result r)] := by
  have hplace := h.place
  cases hupdater : s.updater <;> rw [hupdater] at hplace
  case inactive =>
    rcases hplace.2 with ⟨-, hfiles, -⟩ | ⟨-, hresult⟩
    · exact .inl hfiles
    · exact .inr (.inr hresult)
  case opened => exact .inr (.inl hplace.2.1)
  case written => exact .inr (.inr hplace.2)
  all_goals exact .inl hplace.2.1

/-- At most one script has ended. -/
theorem results_length (h : UpdateInv s) : s.results.length ≤ 1 := by
  have hnone (h : s.results = []) : s.results.length ≤ 1 := by simp [h]
  have hone {r : UpdateResult} (h : s.results = [r]) : s.results.length ≤ 1 := by simp [h]
  have hplace := h.place
  cases hupdater : s.updater <;> rw [hupdater] at hplace
  case inactive =>
    rcases hplace.2 with ⟨-, -, hresults⟩ | ⟨-, r, hresults, -⟩
    · exact hnone hresults
    · exact hone hresults
  case starting => exact hnone hplace.2.2
  case script => exact hnone hplace.2.2
  case ended => exact hone hplace.2.2
  case opened => exact hone hplace.2.2
  case written =>
    obtain ⟨-, r, hresults, -⟩ := hplace
    exact hone hresults

/-- Where the handler stands is no matter of the updater. -/
theorem goTo (h : UpdateInv s) (request : UpdateRequestPc) (hkeeps : request.keeps = true) :
    UpdateInv { s with request := request } := by
  refine ⟨?_, hkeeps, h.genuine, h.answers⟩
  have hplace := h.place
  cases hupdater : s.updater <;> rw [hupdater] at hplace <;> exact hplace

theorem answer (h : UpdateInv s) {a : UpdateAnswer}
    (ha : ∀ e, a = .status .done e → ∃ r, s.results = [r] ∧ e = r.error) :
    UpdateInv (s.answer a) := by
  have hgo := h.goTo .idle rfl
  refine ⟨hgo.place, rfl, h.genuine, fun e he => ?_⟩
  rcases List.mem_append.mp he with he | he
  · exact h.answers e he
  · exact ha e (List.mem_singleton.mp he).symm

/-- A file that is found. -/
theorem gotFile (h : UpdateInv s) {name : PyStr} {file : ResultFile}
    (hfile : s.files.lookup name = some file) : UpdateInv (s.gotFile false file) := by
  obtain ⟨before, after, hsplit, -⟩ := List.lookup_eq_some_iff.mp hfile
  have hmem : (name, file) ∈ s.files := by simp [hsplit]
  rcases h.files with hfiles | hfiles | ⟨r, hresults, hfiles⟩ <;> rw [hfiles] at hmem
  · cases hmem
  · obtain rfl : file = .torn := by simpa using congrArg Prod.snd (List.mem_singleton.mp hmem)
    exact h.answer fun e he => by cases he
  · obtain rfl : file = .result r := by simpa using congrArg Prod.snd (List.mem_singleton.mp hmem)
    obtain ⟨scriptEnd, now, rfl⟩ := h.genuine r (by simp [hresults])
    rw [UpdateState.gotFile, readResult_runUpdateScript]
    refine h.answer fun e he => ⟨_, hresults, ?_⟩
    injection he with _ he
    exact he.symm

/-- **The handler** goes on. -/
theorem handle (h : UpdateInv s) (hok : NoOtherUpdate s .handle) (hst : s.handle = some s') :
    UpdateInv s' := by
  unfold UpdateState.handle at hst
  have hkeeps := h.request
  cases hrequest : s.request with
  | idle =>
    rw [hrequest] at hst
    cases hst
  | ps put =>
    simp only [hrequest] at hst
    by_cases hscript : s.script = true
    · rw [if_pos hscript] at hst
      obtain rfl := Option.some.inj hst
      refine h.answer fun e he => ?_
      cases put <;> cases he
    · rw [if_neg hscript] at hst
      obtain rfl := Option.some.inj hst
      cases put with
      | false => exact h.goTo _ rfl
      | true => exact absurd (hok hrequest) hscript
  | readLatest put =>
    rw [hrequest] at hkeeps
    cases put with
    | true => cases hkeeps
    | false =>
      simp only [hrequest] at hst
      split at hst
      · obtain rfl := Option.some.inj hst
        exact h.gotFile ‹_›
      · obtain rfl := Option.some.inj hst
        exact h.goTo _ rfl
  | globLegacy put =>
    rw [hrequest] at hkeeps
    cases put with
    | true => cases hkeeps
    | false =>
      simp only [hrequest] at hst
      split at hst
      · obtain rfl := Option.some.inj hst
        exact h.goTo _ rfl
      · obtain rfl := Option.some.inj hst
        exact h.answer fun e he => by cases he
  | readLegacy put name =>
    rw [hrequest] at hkeeps
    cases put with
    | true => cases hkeeps
    | false =>
      simp only [hrequest] at hst
      split at hst
      · obtain rfl := Option.some.inj hst
        exact h.gotFile ‹_›
      · obtain rfl := Option.some.inj hst
        exact h.answer fun e he => by cases he
  | globResults | removeResults _ | popen =>
    rw [hrequest] at hkeeps
    cases hkeeps

/-- Nothing but the updater has moved. -/
theorem updater (h : UpdateInv s) {pending : Nat} {files : List (PyStr × ResultFile)}
    {updater : UpdaterPc} {script : Bool}
    (hplace : UpdatePlace { s with pending := pending, files := files, script := script } updater) :
    UpdateInv { s with
      pending := pending, files := files, updater := updater, script := script } := by
  refine ⟨?_, h.request, h.genuine, h.answers⟩
  cases updater <;> exact hplace

/-- **A step.** -/
theorem step (h : UpdateInv s) (hok : NoOtherUpdate s a) (hst : updateStep s a = some s') :
    UpdateInv s' := by
  have hplace := h.place
  cases a with
  | handle => exact h.handle hok hst
  | kill => exact hok.elim
  | reboot => exact hok.elim
  | get =>
    simp only [updateStep] at hst
    split at hst
    · obtain rfl := Option.some.inj hst
      exact h.goTo _ rfl
    · cases hst
  | put =>
    simp only [updateStep] at hst
    split at hst
    · obtain rfl := Option.some.inj hst
      exact h.goTo _ rfl
    · cases hst
  | start =>
    simp only [updateStep] at hst
    split at hst
    · cases hst
    · rename_i hpending
      obtain rfl := Option.some.inj hst
      -- one `start` has been asked for, by the one `PUT`
      cases hupdater : s.updater <;> rw [hupdater] at hplace
      case inactive =>
        rcases hplace.2 with ⟨hone, hfiles, hresults⟩ | ⟨hzero, -⟩
        · exact h.updater ⟨by simp [hone], hfiles, hresults⟩
        · exact absurd hzero hpending
      all_goals exact absurd hplace.1 hpending
  | launch =>
    simp only [updateStep] at hst
    split at hst
    · rename_i hupdater
      obtain rfl := Option.some.inj hst
      rw [hupdater] at hplace
      exact h.updater hplace
    · cases hst
  | scriptEnds scriptEnd now orphan =>
    simp only [updateStep] at hst
    split at hst
    · rename_i hupdater
      obtain rfl := Option.some.inj hst
      rw [hupdater] at hplace
      obtain ⟨hpending, hfiles, hresults⟩ := hplace
      refine ⟨⟨hpending, hfiles, by simp [hresults]⟩, h.request, ?_, ?_⟩
      · intro r hr
        rw [hresults, List.nil_append, List.mem_singleton] at hr
        exact ⟨scriptEnd, now, hr⟩
      · intro e he
        obtain ⟨r, hone, -⟩ := h.answers e he
        rw [hresults] at hone
        cases hone
    · cases hst
  | orphanEnds =>
    simp only [updateStep] at hst
    split at hst
    · cases hst
    · obtain rfl := Option.some.inj hst
      refine h.updater ?_
      cases hupdater : s.updater <;> rw [hupdater] at hplace
      case inactive => exact ⟨rfl, hplace.2⟩
      all_goals exact hplace
  | openResult =>
    simp only [updateStep] at hst
    split at hst
    · rename_i result hupdater
      obtain rfl := Option.some.inj hst
      rw [hupdater] at hplace
      obtain ⟨hpending, hfiles, hresults⟩ := hplace
      exact h.updater ⟨hpending, by simp [hfiles], hresults⟩
    · cases hst
  | writeResult =>
    simp only [updateStep] at hst
    split at hst
    · rename_i result hupdater
      rw [hupdater] at hplace
      obtain ⟨hpending, hfiles, hresults⟩ := hplace
      rw [if_pos (by simp [hfiles])] at hst
      obtain rfl := Option.some.inj hst
      exact h.updater ⟨hpending, result, hresults, by simp [hfiles]⟩
    · cases hst
  | exit =>
    simp only [updateStep] at hst
    split at hst
    · rename_i hupdater
      obtain rfl := Option.some.inj hst
      rw [hupdater] at hplace
      exact h.updater ⟨rfl, .inr hplace⟩
    · cases hst

end UpdateInv

end

/-- A `PUT` has been answered that has found no update: the results have been cleared, and one
start of the updater has been asked for. -/
def UpdateState.launched (s : UpdateState) : UpdateState :=
  { s with files := [], pending := 1, answers := [.success] }

/-- **A `PUT` gets the result of its own update.**  It finds no update under way and results that
can be read; then it clears them, asks for one start and answers.  From there on, with any number of
clients, as long as another `PUT` comes only while the script runs and the updater is not killed and
raises nothing: at most one script is run, a `GET` that answers `DONE` shows how it has ended, and
once the updater has gone every `GET` does.  What earlier updates have left is never shown. -/
theorem update_shows_own_result {before : UpdateState} (hquiet : Quiet before) :
    (∃ n, (updateSystem before).exec before (.put :: List.replicate n .handle)
      = some before.launched) ∧
      ∀ s, (updateSystem before.launched).ReachVia NoOtherUpdate s →
        s.results.length ≤ 1 ∧
        (∀ e, .status .done e ∈ s.answers → ∃ scriptEnd now,
          s.results = [runUpdateScript scriptEnd now] ∧ e = (runUpdateScript scriptEnd now).error) ∧
        (s.updater = .inactive → s.pending = 0 → s.request = .idle → ∃ r, s.results = [r] ∧
          (updateSystem before.launched).exec s [.get, .handle, .handle]
            = some { s with answers := s.answers ++ [.status .done r.error] }) := by
  constructor
  · have hstep : updateStep before .put = some { before with request := .ps true } :=
      if_pos hquiet.request
    have hfirst : PutInv { before with request := .ps true } :=
      ⟨hquiet.updater, hquiet.script, hquiet.results, hquiet.names, rfl, hquiet.pending,
        hquiet.answers, hquiet.whole⟩
    obtain ⟨n, answered, hexec, ⟨hupdater, hscript, hresults, -, hplace⟩, hidle⟩ :=
      PutInv.exec before _ hfirst (Nat.le_refl _)
    rw [hidle] at hplace
    obtain ⟨hfiles, hpending, hanswers⟩ := hplace
    have hanswered : answered = before.launched := by
      obtain ⟨files, request, pending, updater, script, answers, results⟩ := answered
      simp only at hidle hupdater hscript hresults hfiles hpending hanswers
      simp only [UpdateState.launched, hquiet.request, hquiet.updater, hquiet.script,
        hquiet.results, hidle, hupdater, hscript, hresults, hfiles, hpending, hanswers]
    exact ⟨n, System.exec_cons_eq_some.mpr ⟨_, hstep, hanswered ▸ hexec⟩⟩
  intro s hr
  have hinv : UpdateInv s := by
    refine System.ReachVia.inv ?_ (fun s s' a h hok hst => h.step hok hst) hr
    rintro s rfl
    refine ⟨?_, ?_, ?_, ?_⟩
    · show UpdatePlace _ before.updater
      rw [hquiet.updater]
      exact ⟨hquiet.script, .inl ⟨rfl, rfl, hquiet.results⟩⟩
    · show before.request.keeps = true
      rw [hquiet.request]
      rfl
    · simp [UpdateState.launched, hquiet.results]
    · simp [UpdateState.launched]
  have hplace := hinv.place
  refine ⟨?_, ?_, ?_⟩
  · exact hinv.results_length
  · intro e he
    obtain ⟨r, hone, rfl⟩ := hinv.answers e he
    obtain ⟨scriptEnd, now, rfl⟩ := hinv.genuine r (by simp [hone])
    exact ⟨scriptEnd, now, hone, rfl⟩
  · intro hupdater hpending hrequest
    rw [hupdater] at hplace
    obtain ⟨hscript, ⟨hone, -⟩ | ⟨-, r, hresults, hfiles⟩⟩ := hplace
    · exact absurd hone (by simp [hpending])
    · obtain ⟨scriptEnd, now, rfl⟩ := hinv.genuine r (by simp [hresults])
      refine ⟨_, hresults, ?_⟩
      simp [System.exec, updateSystem, updateStep, UpdateState.handle, hrequest, hscript, hfiles,
        UpdateState.gotFile, readResult_runUpdateScript, UpdateState.gotStatus, UpdateState.answer]

/-- An update of an older version has left a result. -/
def legacyState : UpdateState where
  files := [(py "2020-12-31T000000Z-update-result.json", .result ⟨none, 0⟩)]
  request := .idle
  pending := 0
  updater := .inactive
  script := false
  answers := []
  results := []

/-- While the script runs, somebody asks, and another one tries to update. -/
def failedUpdate : List UpdateAct :=
  [.start, .launch, .get, .handle, .put, .handle, .scriptEnds (.failed (py "1")) 7 false,
    .openResult, .writeResult, .exit]

theorem update_shows_own_result_failed : ∃ (s : UpdateState) (r : UpdateResult),
    s.answers = [.success, .status .inProgress none, .success] ∧
      (updateSystem legacyState.launched).exec s [.get, .handle, .handle]
        = some { s with answers := s.answers ++ [.status .done r.error] } := by
  have hquiet : Quiet legacyState :=
    ⟨rfl, rfl, rfl, rfl, rfl, rfl, by simp [legacyState], by simp [legacyState]⟩
  have hrun : ((updateSystem legacyState.launched).execVia NoOtherUpdate legacyState.launched
      failedUpdate).any (fun s => decide (s.updater = .inactive ∧ s.pending = 0 ∧
        s.request = .idle ∧ s.answers = [.success, .status .inProgress none, .success]))
          = true := by decide +kernel
  obtain ⟨s, hexec, hs⟩ := (Option.any_eq_true _ _).mp hrun
  obtain ⟨hupdater, hpending, hrequest, hanswers⟩ := of_decide_eq_true hs
  have hr := System.ReachVia.execVia _ (.start rfl) hexec
  obtain ⟨-, -, hlast⟩ := (update_shows_own_result hquiet).2 s hr
  obtain ⟨r, -, hget⟩ := hlast hupdater hpending hrequest
  exact ⟨s, r, hanswers, hget⟩

/-! ## 5. An update that is cut off -/

/-- Nobody goes past the file. -/
def UpdateRequestPc.stuck : UpdateRequestPc → Bool
  | .idle | .ps _ | .readLatest _ => true
  | _ => false

structure TornInv (first s : UpdateState) : Prop where
  files : s.files = first.files
  pending : s.pending = 0
  updater : s.updater = .inactive
  script : s.script = false
  request : s.request.stuck = true
  answers : ∃ n, s.answers = first.answers ++ List.replicate n .serverError

theorem TornInv.step {first s s' : UpdateState} {a : UpdateAct} (h : TornInv first s)
    (htorn : first.files.lookup latestName = some .torn) (hst : updateStep s a = some s') :
    TornInv first s' := by
  obtain ⟨hfiles, hpending, hupdater, hscript, hrequest, n, hanswers⟩ := h
  cases a with
  | get =>
    simp only [updateStep] at hst
    split at hst
    · obtain rfl := Option.some.inj hst
      exact ⟨hfiles, hpending, hupdater, hscript, rfl, n, hanswers⟩
    · cases hst
  | put =>
    simp only [updateStep] at hst
    split at hst
    · obtain rfl := Option.some.inj hst
      exact ⟨hfiles, hpending, hupdater, hscript, rfl, n, hanswers⟩
    · cases hst
  | handle =>
    simp only [updateStep, UpdateState.handle] at hst
    cases hcase : s.request with
    | idle =>
      rw [hcase] at hst
      cases hst
    | ps put =>
      simp only [hcase] at hst
      rw [if_neg (by simp [hscript])] at hst
      obtain rfl := Option.some.inj hst
      exact ⟨hfiles, hpending, hupdater, hscript, rfl, n, hanswers⟩
    | readLatest put =>
      simp only [hcase, hfiles, htorn] at hst
      obtain rfl := Option.some.inj hst
      refine ⟨hfiles, hpending, hupdater, hscript, rfl, n + 1, ?_⟩
      show s.answers ++ [.serverError] = _
      rw [hanswers, List.replicate_succ', List.append_assoc]
    | _ =>
      rw [hcase] at hrequest
      cases hrequest
  | orphanEnds =>
    simp only [updateStep, hupdater, reduceCtorEq, if_false] at hst
    obtain rfl := Option.some.inj hst
    exact ⟨hfiles, hpending, rfl, rfl, hrequest, n, hanswers⟩
  | reboot =>
    obtain rfl := Option.some.inj hst
    exact ⟨hfiles, rfl, rfl, rfl, rfl, n, hanswers⟩
  | start => simp [updateStep, hpending] at hst
  | _ => simp [updateStep, hupdater] at hst

/-- The power fails in that moment. -/
def cutOffUpdate : List UpdateAct :=
  .put :: List.replicate 8 .handle ++
    [.start, .launch, .scriptEnds .completed 7 false, .openResult, .reboot]

end TinyPilotKvm
