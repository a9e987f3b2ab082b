/-
# The M2M encoders of a reopened encoder

The array of M2M encoders has the size that the first open with an M2M type wanted, which is the
number of its workers.  A later open for more workers stores past the end of it: `m2ms` is not
null any more, so nothing is allocated, and the loop runs up to the new number.

So a life of the encoder, one open and close after another, stays inside the array exactly if no
later M2M open wants more workers than the first did (`encoder_slots_cover_iff`).  While it does,
every open leaves an M2M encoder for every worker.
-/
import TinyPilotKvm.Ustreamer.Encoder

namespace TinyPilotKvm

/-! ## 1. Filling the array -/

/-- The first `n` slots hold encoders. -/
def SlotsFilled (m2ms : List (Option UsM2mEncoder)) (n : Nat) : Prop :=
  ∀ i < n, ∃ encoder, m2ms[i]? = some (some encoder)

section Fill

variable (new : Nat → UsM2mEncoder) (todo : Nat) {m2ms : List (Option UsM2mEncoder)} {n : Nat}

/-- The loop inside the array. -/
theorem fillM2ms_of_le (hfilled : SlotsFilled m2ms n) (h : n + todo ≤ m2ms.length) :
    ∃ m2ms', fillM2ms new todo n m2ms = .ok (n + todo, m2ms') ∧
      m2ms'.length = m2ms.length ∧ SlotsFilled m2ms' (n + todo) := by
  induction todo generalizing n m2ms with
  | zero => exact ⟨m2ms, rfl, rfl, hfilled⟩
  | succ todo ih =>
    have hn : n < m2ms.length := by omega
    have hstore := store_of_lt hn (some (new n))
    have hfilled' : SlotsFilled (m2ms.set n (some (new n))) (n + 1) := by
      intro i hi
      by_cases hin : n = i
      · subst hin
        exact ⟨new n, getElem?_store_self hstore⟩
      · rw [getElem?_store_of_ne hstore hin]
        exact hfilled i (by omega)
    have hlen := length_store hstore
    obtain ⟨m2ms', hfill, hlen', hall⟩ := ih hfilled' (by omega)
    have hsum : n + 1 + todo = n + (todo + 1) := by omega
    rw [hsum] at hfill hall
    refine ⟨m2ms', ?_, hlen'.trans hlen, hall⟩
    simp only [fillM2ms, hstore, hfill]

/-- **The loop past the end of the array.** -/
theorem fillM2ms_of_lt (hn : n ≤ m2ms.length) (h : m2ms.length < n + todo) :
    fillM2ms new todo n m2ms = .error (.storeOutside m2ms.length) := by
  induction todo generalizing n m2ms with
  | zero => omega
  | succ todo ih =>
    rcases Nat.lt_or_ge n m2ms.length with hlt | hge
    · have hstore := store_of_lt hlt (some (new n))
      have hlen := length_store hstore
      simp only [fillM2ms, hstore]
      rw [ih (by omega) (by omega), hlen]
    · obtain rfl : n = m2ms.length := by omega
      have hstore : store m2ms m2ms.length (some (new m2ms.length)) = none :=
        store_eq_none_iff.mpr (Nat.le_refl _)
      simp only [fillM2ms, hstore]

end Fill

/-! ## 2. One open -/

/-- The array between two opens. -/
structure SlotsInv (run : UsEncoderRuntime) : Prop where
  le : run.nM2ms ≤ (run.m2ms.getD []).length
  filled : SlotsFilled (run.m2ms.getD []) run.nM2ms

def UsEncoderType.isM2m (type : UsEncoderType) : Bool := type == .m2mVideo || type == .m2mImage

/-- The open is for an M2M type. -/
def selectsM2m (type : UsEncoderType) (cap : EncoderSource) : Bool :=
  type.isM2m && !usIsJpeg cap.format

/-- The workers an open wants that does not copy JPEG. -/
def wantedWorkers (nWorkers : Nat) (cap : EncoderSource) : Nat := min nWorkers cap.nBufs

/-- **Every worker has its encoder**, if the type is an M2M one. -/
def WorkersCovered (enc : UsEncoder) : Prop :=
  enc.run.type.isM2m = true → ∀ pool, enc.run.pool = some pool →
    ∀ number < pool.nWorkers, ∃ encoder, workerRunJob enc.run number = .ok (.m2m encoder)

/-- A filled slot is what the worker with its number uses. -/
theorem covered_of_filled {enc : UsEncoder} {n : Nat} (h : SlotsFilled (enc.run.m2ms.getD []) n)
    (hpool : ∀ pool, enc.run.pool = some pool → pool.nWorkers ≤ n) : WorkersCovered enc := by
  intro htype pool hp number hnumber
  obtain ⟨encoder, hslot⟩ := h number (Nat.lt_of_lt_of_le hnumber (hpool pool hp))
  refine ⟨encoder, ?_⟩
  unfold workerRunJob
  cases ht : enc.run.type with
  | cpu => rw [ht] at htype; exact absurd htype (by decide)
  | hw => rw [ht] at htype; exact absurd htype (by decide)
  | m2mVideo => simp only [hslot]
  | m2mImage => simp only [hslot]

/-- An open of another type leaves the array alone. -/
theorem usEncoderOpen_of_not_m2m {enc : UsEncoder} {cap : EncoderSource}
    (hpool : enc.run.pool = none) (h : selectsM2m enc.type cap = false) :
    ∃ opened, usEncoderOpen enc cap = .ok opened ∧ opened.run.m2ms = enc.run.m2ms ∧
      opened.run.nM2ms = enc.run.nM2ms ∧ opened.type = enc.type ∧
      opened.nWorkers = enc.nWorkers ∧ opened.run.pool.isSome = true ∧
      opened.run.type.isM2m = false := by
  have hnone : enc.run.pool.isSome = false := by rw [hpool]; rfl
  unfold usEncoderOpen
  simp only [hnone, Bool.false_eq_true, if_false]
  cases hj : usIsJpeg cap.format <;> cases ht : enc.type <;>
    simp only [selectsM2m, UsEncoderType.isM2m, hj, ht] at h <;>
    first
      | exact absurd h (by decide)
      | exact ⟨_, rfl, rfl, rfl, ht, rfl, rfl, rfl⟩

/-- The M2M branch, inside the array and outside of it. -/
theorem prepareM2ms_cases {run : UsEncoderRuntime} (h : SlotsInv run) (new : Nat → UsM2mEncoder)
    (nWorkers : Nat) :
    let size := (run.m2ms.getD (List.replicate nWorkers none)).length
    (nWorkers ≤ size → ∃ run', prepareM2ms run new nWorkers = .ok run' ∧ SlotsInv run' ∧
      run'.m2ms.map List.length = some size ∧ nWorkers ≤ run'.nM2ms) ∧
    (size < nWorkers → prepareM2ms run new nWorkers = .error (.storeOutside size)) := by
  have hle : run.nM2ms ≤ (run.m2ms.getD (List.replicate nWorkers none)).length := by
    have := h.le
    cases hm : run.m2ms with
    | none =>
      rw [hm, Option.getD_none, List.length_nil] at this
      omega
    | some m2ms =>
      rw [hm] at this
      exact this
  have hfilled : SlotsFilled (run.m2ms.getD (List.replicate nWorkers none)) run.nM2ms := by
    have := h.filled
    cases hm : run.m2ms with
    | none =>
      have h0 := h.le
      rw [hm, Option.getD_none, List.length_nil] at h0
      intro i hi
      omega
    | some m2ms =>
      rw [hm] at this
      exact this
  refine ⟨fun hsize => ?_, fun hsize => ?_⟩
  · obtain ⟨m2ms', hfill, hlen, hall⟩ :=
      fillM2ms_of_le new (nWorkers - run.nM2ms) hfilled (by omega)
    refine ⟨{ run with nM2ms := run.nM2ms + (nWorkers - run.nM2ms), m2ms := some m2ms' }, ?_,
      ⟨?_, hall⟩, congrArg some hlen, ?_⟩
    · simp only [prepareM2ms, hfill]
    · show run.nM2ms + (nWorkers - run.nM2ms) ≤ m2ms'.length
      omega
    · show nWorkers ≤ run.nM2ms + (nWorkers - run.nM2ms)
      omega
  · have hfill := fillM2ms_of_lt new (nWorkers - run.nM2ms) hle (by omega)
    simp only [prepareM2ms, hfill]

/-- **An open for an M2M type** covers its workers if the array has room for them, and stores
outside otherwise. -/
theorem usEncoderOpen_of_m2m {enc : UsEncoder} {cap : EncoderSource} (hinv : SlotsInv enc.run)
    (hpool : enc.run.pool = none) (h : selectsM2m enc.type cap = true) :
    let wanted := wantedWorkers enc.nWorkers cap
    let size := (enc.run.m2ms.getD (List.replicate wanted none)).length
    (wanted ≤ size → ∃ opened, usEncoderOpen enc cap = .ok opened ∧ WorkersCovered opened ∧
      SlotsInv opened.run ∧ opened.run.m2ms.map List.length = some size ∧
      opened.type = enc.type ∧ opened.nWorkers = enc.nWorkers ∧ opened.run.pool.isSome = true) ∧
    (size < wanted → usEncoderOpen enc cap = .error (.storeOutside size)) := by
  have hnone : enc.run.pool.isSome = false := by rw [hpool]; rfl
  have hjpeg : usIsJpeg cap.format = false := by
    rw [selectsM2m, Bool.and_eq_true, Bool.not_eq_true'] at h
    exact h.2
  -- Both types run the same branch, each with its own way to make an encoder.
  obtain ⟨new, type, hopen⟩ : ∃ new type, usEncoderOpen enc cap
      = (prepareM2ms enc.run new (wantedWorkers enc.nWorkers cap)).map fun run =>
        openPool enc run type cap.jpegQuality (wantedWorkers enc.nWorkers cap) cap := by
    unfold usEncoderOpen wantedWorkers
    simp only [hnone, Bool.false_eq_true, if_false, hjpeg, Bool.false_and]
    cases ht : enc.type with
    | cpu => rw [selectsM2m, ht] at h; exact absurd h (by simp [UsEncoderType.isM2m])
    | hw => rw [selectsM2m, ht] at h; exact absurd h (by simp [UsEncoderType.isM2m])
    | m2mVideo => exact ⟨_, _, rfl⟩
    | m2mImage => exact ⟨_, _, rfl⟩
  obtain ⟨hroom, houtside⟩ := prepareM2ms_cases hinv new (wantedWorkers enc.nWorkers cap)
  refine ⟨fun hle => ?_, fun hlt => ?_⟩
  · obtain ⟨run', hprep, hinv', hlen, hn⟩ := hroom hle
    rw [hprep] at hopen
    refine ⟨_, hopen, covered_of_filled hinv'.filled ?_, ⟨hinv'.le, hinv'.filled⟩, hlen, rfl, rfl,
      rfl⟩
    intro pool hp
    obtain rfl := (Option.some.inj hp).symm
    exact hn
  · rw [houtside hlt] at hopen
    exact hopen

/-- **Destroying frees every encoder** that the array holds, and reads nothing else. -/
theorem usEncoderDestroy_of_slotsInv {enc : UsEncoder} (h : SlotsInv enc.run) :
    ∃ destroyed, usEncoderDestroy enc = some destroyed ∧ destroyed.length = enc.run.nM2ms := by
  obtain ⟨hle, hfilled⟩ := h
  unfold usEncoderDestroy
  cases hm : enc.run.m2ms with
  | none =>
    rw [hm, Option.getD_none, List.length_nil] at hle
    exact ⟨[], rfl, by rw [List.length_nil]; omega⟩
  | some m2ms =>
    rw [hm, Option.getD_some] at hle hfilled
    refine ⟨_, if_pos hle, ?_⟩
    have hall : ∀ slot ∈ m2ms.take enc.run.nM2ms, slot.isSome = true := by
      intro slot hslot
      obtain ⟨i, hi, rfl⟩ := List.mem_iff_getElem.mp hslot
      rw [List.length_take] at hi
      obtain ⟨encoder, he⟩ := hfilled i (by omega)
      rw [List.getElem_take, (List.getElem?_eq_some_iff.mp he).2]
      rfl
    have hcount := List.countP_eq_length.mpr hall
    rw [List.length_filterMap_eq_countP]
    refine hcount.trans ?_
    rw [List.length_take]
    omega

/-! ## 3. The life of an encoder -/

/-- **The property of one life**: every open of the sequence stores inside the array and leaves an
encoder for every worker; each is closed before the next. -/
def OpensCovered (enc : UsEncoder) : List EncoderSource → Prop
  | [] => True
  | cap :: caps => ∃ opened closed, usEncoderOpen enc cap = .ok opened ∧ WorkersCovered opened ∧
      usEncoderClose opened = .ok closed ∧ OpensCovered closed caps

/-- The encoder between two opens. -/
structure EncoderIdle (enc : UsEncoder) : Prop where
  pool : enc.run.pool = none
  slots : SlotsInv enc.run

/-- Closing keeps all but the pool. -/
theorem usEncoderClose_of_open {opened : UsEncoder} (hpool : opened.run.pool.isSome = true)
    (hinv : SlotsInv opened.run) :
    ∃ closed, usEncoderClose opened = .ok closed ∧ EncoderIdle closed ∧ closed.type = opened.type ∧
      closed.nWorkers = opened.nWorkers ∧ closed.run.m2ms = opened.run.m2ms := by
  refine ⟨{ opened with run := { opened.run with pool := none } }, ?_, ⟨rfl, hinv.le, hinv.filled⟩,
    rfl, rfl, rfl⟩
  unfold usEncoderClose
  rw [if_neg]
  rw [Option.isNone_iff_eq_none]
  intro hnone
  rw [hnone] at hpool
  exact absurd hpool (by simp)

/-- A life that begins with an open that succeeds. -/
theorem opensCovered_cons {enc opened closed : UsEncoder} {cap : EncoderSource}
    {caps : List EncoderSource} (hopen : usEncoderOpen enc cap = .ok opened)
    (hcov : WorkersCovered opened)
    (hclose : usEncoderClose opened = .ok closed) :
    OpensCovered enc (cap :: caps) ↔ OpensCovered closed caps := by
  constructor
  · rintro ⟨opened', closed', hopen', -, hclose', h⟩
    obtain rfl : opened = opened' := Except.ok.inj (hopen.symm.trans hopen')
    obtain rfl : closed = closed' := Except.ok.inj (hclose.symm.trans hclose')
    exact h
  · exact fun h => ⟨opened, closed, hopen, hcov, hclose, h⟩

theorem not_opensCovered_of_error {enc : UsEncoder} {cap : EncoderSource}
    {caps : List EncoderSource} {fault : EncoderFault} (h : usEncoderOpen enc cap = .error fault) :
    ¬ OpensCovered enc (cap :: caps) := by
  rintro ⟨opened, -, hopen, -⟩
  rw [h] at hopen
  exact absurd hopen (by simp)

/-- An open of another type is passed over. -/
theorem opensCovered_cons_of_not_m2m {enc : UsEncoder} (h : EncoderIdle enc) {cap : EncoderSource}
    (hsel : selectsM2m enc.type cap = false) (caps : List EncoderSource) :
    ∃ closed, EncoderIdle closed ∧ closed.type = enc.type ∧ closed.nWorkers = enc.nWorkers ∧
      closed.run.m2ms = enc.run.m2ms ∧
      (OpensCovered enc (cap :: caps) ↔ OpensCovered closed caps) := by
  obtain ⟨opened, hopen, hm2ms, hn, htype, hworkers, hpool, hcpu⟩ :=
    usEncoderOpen_of_not_m2m h.pool hsel
  have hinv : SlotsInv opened.run :=
    ⟨by rw [hm2ms, hn]; exact h.slots.le, by rw [hm2ms, hn]; exact h.slots.filled⟩
  obtain ⟨closed, hclose, hclosed, htype', hworkers', hm2ms'⟩ := usEncoderClose_of_open hpool hinv
  have hcov : WorkersCovered opened := fun hm2m => absurd hm2m (by rw [hcpu]; simp)
  exact ⟨closed, hclosed, htype'.trans htype, hworkers'.trans hworkers, hm2ms'.trans hm2ms,
    opensCovered_cons hopen hcov hclose⟩

/-- An open for an M2M type that has room. -/
theorem opensCovered_cons_of_m2m {enc : UsEncoder} (h : EncoderIdle enc) {cap : EncoderSource}
    (hsel : selectsM2m enc.type cap = true) {size : Nat}
    (hsize : (enc.run.m2ms.getD (List.replicate (wantedWorkers enc.nWorkers cap) none)).length
      = size) (hroom : wantedWorkers enc.nWorkers cap ≤ size) (caps : List EncoderSource) :
    ∃ closed, EncoderIdle closed ∧ closed.type = enc.type ∧ closed.nWorkers = enc.nWorkers ∧
      closed.run.m2ms.map List.length = some size ∧
      (OpensCovered enc (cap :: caps) ↔ OpensCovered closed caps) := by
  obtain ⟨opened, hopen, hcov, hinv, hlen, htype, hworkers, hpool⟩ :=
    (usEncoderOpen_of_m2m h.slots h.pool hsel).1 (hroom.trans_eq hsize.symm)
  obtain ⟨closed, hclose, hclosed, htype', hworkers', hm2ms'⟩ := usEncoderClose_of_open hpool hinv
  exact ⟨closed, hclosed, htype'.trans htype, hworkers'.trans hworkers,
    by rw [hm2ms', hlen, hsize], opensCovered_cons hopen hcov hclose⟩

/-- **Once the array is there**: every M2M open fits into it. -/
theorem opensCovered_iff_of_size {enc : UsEncoder} (h : EncoderIdle enc) {size : Nat}
    (hsize : enc.run.m2ms.map List.length = some size) (caps : List EncoderSource) :
    OpensCovered enc caps ↔
      ∀ cap ∈ caps, selectsM2m enc.type cap = true → wantedWorkers enc.nWorkers cap ≤ size := by
  induction caps generalizing enc with
  | nil => exact ⟨fun _ cap hcap => absurd hcap List.not_mem_nil, fun _ => trivial⟩
  | cons cap caps ih =>
    rw [List.forall_mem_cons]
    cases hsel : selectsM2m enc.type cap with
    | false =>
      obtain ⟨closed, hclosed, htype, hworkers, hm2ms, hiff⟩ :=
        opensCovered_cons_of_not_m2m h hsel caps
      rw [hiff, ih hclosed (hm2ms ▸ hsize), htype, hworkers]
      exact ⟨fun hall => ⟨fun hf => absurd hf (by simp), hall⟩, fun hall => hall.2⟩
    | true =>
      have hlen : (enc.run.m2ms.getD
          (List.replicate (wantedWorkers enc.nWorkers cap) none)).length = size := by
        obtain ⟨m2ms, hm, hml⟩ := Option.map_eq_some_iff.mp hsize
        rw [hm, Option.getD_some, hml]
      by_cases hroom : wantedWorkers enc.nWorkers cap ≤ size
      · obtain ⟨closed, hclosed, htype, hworkers, hlen', hiff⟩ :=
          opensCovered_cons_of_m2m h hsel hlen hroom caps
        rw [hiff, ih hclosed hlen', htype, hworkers]
        exact ⟨fun hall => ⟨fun _ => hroom, hall⟩, fun hall => hall.2⟩
      · have herr := (usEncoderOpen_of_m2m h.slots h.pool hsel).2
          (by rw [hlen]; exact Nat.lt_of_not_le hroom)
        exact ⟨fun hc => absurd hc (not_opensCovered_of_error herr),
          fun hall => absurd (hall.1 rfl) hroom⟩

/-- The encoder as the options leave it. -/
def configuredEncoder (cores : Nat) (type : UsEncoderType) (nWorkers : Nat)
    (m2mPath : Option String) : UsEncoder :=
  { usEncoderInit cores with type := type, nWorkers := nWorkers, m2mPath := m2mPath }

theorem idle_configuredEncoder (cores : Nat) (type : UsEncoderType) (nWorkers : Nat)
    (m2mPath : Option String) : EncoderIdle (configuredEncoder cores type nWorkers m2mPath) :=
  ⟨rfl, Nat.le_refl 0, fun _ hi => absurd hi (Nat.not_lt_zero _)⟩

/-- The first M2M open wants as many workers as any later one. -/
def firstWantsMost (type : UsEncoderType) (nWorkers : Nat) (caps : List EncoderSource) : Bool :=
  match caps.filter (selectsM2m type) with
  | [] => true
  | first :: later => later.all fun cap => wantedWorkers nWorkers cap ≤ wantedWorkers nWorkers first

theorem opensCovered_iff_of_none {enc : UsEncoder} (h : EncoderIdle enc)
    (hnone : enc.run.m2ms = none)
    (caps : List EncoderSource) :
    OpensCovered enc caps ↔ firstWantsMost enc.type enc.nWorkers caps = true := by
  induction caps generalizing enc with
  | nil => exact ⟨fun _ => rfl, fun _ => trivial⟩
  | cons cap caps ih =>
    unfold firstWantsMost
    cases hsel : selectsM2m enc.type cap with
    | false =>
      obtain ⟨closed, hclosed, htype, hworkers, hm2ms, hiff⟩ :=
        opensCovered_cons_of_not_m2m h hsel caps
      rw [List.filter_cons_of_neg (by rw [hsel]; simp), hiff, ih hclosed (hm2ms.trans hnone), htype,
        hworkers]
      rfl
    | true =>
      have hlen : (enc.run.m2ms.getD
          (List.replicate (wantedWorkers enc.nWorkers cap) none)).length
            = wantedWorkers enc.nWorkers cap := by
        rw [hnone, Option.getD_none, List.length_replicate]
      obtain ⟨closed, hclosed, htype, hworkers, hlen', hiff⟩ :=
        opensCovered_cons_of_m2m h hsel hlen (Nat.le_refl _) caps
      rw [List.filter_cons_of_pos hsel, hiff, opensCovered_iff_of_size hclosed hlen', htype,
        hworkers]
      simp only [List.all_eq_true, List.mem_filter, decide_eq_true_eq, and_imp]

/-- **The slots cover every worker exactly if the first M2M open wants the most.** -/
theorem encoder_slots_cover_iff (cores : Nat) (type : UsEncoderType) (nWorkers : Nat)
    (m2mPath : Option String) (caps : List EncoderSource) :
    OpensCovered (configuredEncoder cores type nWorkers m2mPath) caps
      ↔ firstWantsMost type nWorkers caps = true :=
  opensCovered_iff_of_none (idle_configuredEncoder cores type nWorkers m2mPath) rfl caps

/-- A capture device that grants two buffers, and after a change of its signal three. -/
theorem reopened_encoder_stores_outside :
    let cap (nBufs : Nat) : EncoderSource := ⟨80, 0, v4l2PixFmtYuyv, nBufs, 80, 0⟩
    ¬ OpensCovered (configuredEncoder 4 .m2mImage 4 none) [cap 2, cap 3] := by
  intro cap
  rw [opensCovered_iff_of_none (idle_configuredEncoder 4 .m2mImage 4 none) rfl]
  decide

end TinyPilotKvm
