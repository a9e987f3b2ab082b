/-
# What `_m2m_encoder_ensure` leaves behind (`ustreamer/m2m.c`)

The answers that the device gives while it is configured decide about the buffers of the encoder:
`session` says which these are, or that the configuration fails.  `ensure_spec` is the whole of
`_m2m_encoder_ensure`: it never faults, and ends in the runtime it has found (the parameters are
those of the frame), in the runtime of the session, or in a closed one.

Between two calls an encoder is `Settled`: closed with nothing left of a session, or streaming with
an array for each of its counts.
-/
import TinyPilotKvm.Ustreamer.M2mDevice

namespace TinyPilotKvm.M2m

open Program

/-! ## 1. The buffers that the device grants -/

/-- The length of a buffer that is mapped and queued. -/
def SlotAnswers.granted (slot : SlotAnswers) : Option Nat :=
  if slot.mapped && slot.queued then slot.length else none

/-- The lengths of all the buffers. -/
def BufferAnswers.granted (a : BufferAnswers) : Option (List Nat) :=
  a.count.bind fun count =>
    if 1 ≤ count then (List.range' 0 count).mapM fun i => (a.slot i).granted else none

/-- The number of buffers in DMA mode, where none is mapped. -/
def BufferAnswers.dmaCount (a : BufferAnswers) : Option Nat := a.count.filter (1 ≤ ·)

/-- The handle and the lengths of the buffers of a configured device; no input buffer is mapped
in DMA mode. -/
structure Session where
  fd : Nat
  nInput : Nat
  input : Option (List Nat)
  output : List Nat

/-- The input's part of a session. -/
def inputGranted (dma : Bool) (a : BufferAnswers) : Option (Nat × Option (List Nat)) :=
  if dma then a.dmaCount.map fun count => (count, none)
  else a.granted.map fun lengths => (lengths.length, some lengths)

/-- Whether the device is opened and takes the options. -/
def PrepareAnswers.opens (enc : DeviceEncoder) (frame : UsFrame) (a : PrepareAnswers) :
    Option Nat :=
  if (encoderOptions enc frame).all fun option => a.control option.1 then a.fd else none

/-- Whether the device takes the formats and the rate. -/
def PrepareAnswers.Accepts (enc : DeviceEncoder) (a : PrepareAnswers) : Prop :=
  a.inputFormat.isSome = true ∧ a.outputFormat = some enc.outputFormat ∧ a.parm = true

instance (enc : DeviceEncoder) (a : PrepareAnswers) : Decidable (a.Accepts enc) :=
  inferInstanceAs (Decidable (_ ∧ _ ∧ _))

/-- Whether the two streams start, with the buffers they start with. -/
def started (dma : Bool) (a : PrepareAnswers) : Option ((Nat × Option (List Nat)) × List Nat) :=
  match inputGranted dma a.input, a.output.granted with
  | some input, some output =>
    if a.inputOn && a.outputOn then some (input, output) else none
  | _, _ => none

/-- The session that the device's answers lead to. -/
def session (enc : DeviceEncoder) (frame : UsFrame) (a : PrepareAnswers) : Option Session :=
  match a.opens enc frame, started (frameDma enc frame) a with
  | some fd, some (input, output) =>
    if a.Accepts enc then some ⟨fd, input.1, input.2, output⟩ else none
  | _, _ => none

/-- The runtime of a session that starts at a closed one. -/
def Session.runtime (s : Session) (frame : UsFrame) (run : DeviceRuntime) : DeviceRuntime where
  toUsM2mEncoderRuntime := { run.toUsM2mEncoderRuntime with ready := true }
  fd := s.fd
  fpsLimit := fpsLimit frame
  inputBufs := s.input.map (·.map UsM2mBuffer.ofLength)
  nInputBufs := s.nInput
  outputBufs := some (s.output.map UsM2mBuffer.ofLength)
  nOutputBufs := s.output.length

/-! ## 2. The buffers -/

/-- The first buffers mapped, and `todo` still to be. -/
def partly (type : BufType) (done : List Nat) (todo : Nat) (run : DeviceRuntime) : DeviceRuntime :=
  setNBufs type done.length
    (setBufs type
      (some (done.map UsM2mBuffer.ofLength ++ List.replicate todo UsM2mBuffer.null)) run)

/-- The runtime with all its buffers mapped. -/
def withBufs (type : BufType) (lengths : List Nat) (run : DeviceRuntime) : DeviceRuntime :=
  partly type lengths 0 run

/-- What a failing preparation has left alone. -/
structure Kept (w w' : World Memory Call) : Prop where
  base : w'.state.run.toUsM2mEncoderRuntime = w.state.run.toUsM2mEncoderRuntime
  dest : w'.state.dest = w.state.dest
  calls : w.calls <+: w'.calls

theorem Kept.refl (w : World Memory Call) : Kept w w := ⟨rfl, rfl, List.prefix_rfl⟩

theorem Kept.trans {w w' w'' : World Memory Call} (h : Kept w w') (h' : Kept w' w'') :
    Kept w w'' :=
  ⟨h'.base.trans h.base, h'.dest.trans h.dest, h.calls.trans h'.calls⟩

/-- The world with another runtime. -/
def withRun (w : World Memory Call) (run : DeviceRuntime) : World Memory Call :=
  w.withState { w.state with run := run }

@[simp] theorem wp_updateRun {f : DeviceRuntime → DeviceRuntime}
    {Q : Unit → World Memory Call → Prop} {E : World Memory Call → Prop}
    {F : Fault → World Memory Call → Prop} {w : World Memory Call} :
    wp (updateRun f) Q E F w ↔ Q () (withRun w (f w.state.run)) := Iff.rfl

@[simp] theorem wp_updateDest {f : UsFrame → UsFrame}
    {Q : Unit → World Memory Call → Prop} {E : World Memory Call → Prop}
    {F : Fault → World Memory Call → Prop} {w : World Memory Call} :
    wp (updateDest f) Q E F w ↔ Q () (w.withState { w.state with dest := f w.state.dest }) :=
  Iff.rfl

@[simp] theorem wp_encoderCleanup {Q : Unit → World Memory Call → Prop}
    {E : World Memory Call → Prop} {F : Fault → World Memory Call → Prop}
    {w : World Memory Call} :
    wp encoderCleanup Q E F w ↔
      Q () (withRun (w.after (cleanupCalls w.state.run)) (closed w.state.run)) := Iff.rfl

@[simp] theorem run_withRun (w : World Memory Call) (run : DeviceRuntime) :
    (withRun w run).state.run = run := rfl

@[simp] theorem dest_withRun (w : World Memory Call) (run : DeviceRuntime) :
    (withRun w run).state.dest = w.state.dest := rfl

@[simp] theorem calls_withRun (w : World Memory Call) (run : DeviceRuntime) :
    (withRun w run).calls = w.calls := rfl

/-- A call made since changes nothing of this. -/
theorem Kept.after {w w' : World Memory Call} (h : Kept w w') (es : List Call) :
    Kept w (w'.after es) :=
  ⟨h.base, h.dest, h.calls.trans (List.prefix_append _ _)⟩

theorem Kept.withRun {w w' : World Memory Call} {run : DeviceRuntime} (h : Kept w w')
    (hrun : run.toUsM2mEncoderRuntime = w'.state.run.toUsM2mEncoderRuntime) :
    Kept w (withRun w' run) :=
  ⟨hrun.trans h.base, h.dest, h.calls⟩

theorem set_null (done : List Nat) (todo length : Nat) :
    (done.map UsM2mBuffer.ofLength ++ List.replicate (todo + 1) UsM2mBuffer.null).set done.length
        (UsM2mBuffer.ofLength length)
      = (done ++ [length]).map UsM2mBuffer.ofLength
        ++ List.replicate todo UsM2mBuffer.null := by
  simp [List.replicate_succ, List.set_append_right]

/-- One more buffer mapped. -/
theorem partly_step (type : BufType) (done : List Nat) (todo length : Nat) (run : DeviceRuntime) :
    setNBufs type (done.length + 1)
      (setBufs type
        (some ((done ++ [length]).map UsM2mBuffer.ofLength
          ++ List.replicate todo UsM2mBuffer.null)) (partly type done (todo + 1) run))
      = partly type (done ++ [length]) todo run := by
  cases type with
  | input => simp [partly, setNBufs, setBufs]
  | output => simp [partly, setNBufs, setBufs]

theorem base_partly (type : BufType) (done : List Nat) (todo : Nat) (run : DeviceRuntime) :
    (partly type done todo run).toUsM2mEncoderRuntime = run.toUsM2mEncoderRuntime := by
  cases type with
  | input => rfl
  | output => rfl

theorem base_setBufs (type : BufType) (bufs : Option (List UsM2mBuffer)) (run : DeviceRuntime) :
    (setBufs type bufs run).toUsM2mEncoderRuntime = run.toUsM2mEncoderRuntime := by
  cases type with
  | input => rfl
  | output => rfl

theorem base_setNBufs (type : BufType) (n : Nat) (run : DeviceRuntime) :
    (setNBufs type n run).toUsM2mEncoderRuntime = run.toUsM2mEncoderRuntime := by
  cases type with
  | input => rfl
  | output => rfl

/-- The end of the loop over the buffers: the first ones are `done`, and `todo` are granted. -/
def LoopDone (type : BufType) (slot : Nat → SlotAnswers) (run : DeviceRuntime) (done : List Nat)
    (todo : Nat) (w w' : World Memory Call) : Prop :=
  ∃ lengths, (List.range' done.length todo).mapM (fun i => (slot i).granted) = some lengths ∧
    w'.state.run = withBufs type (done ++ lengths) run ∧ w'.state.dest = w.state.dest ∧
    w.calls <+: w'.calls

/-- The end of the loop where one of the buffers is not granted. -/
def LoopFailed (slot : Nat → SlotAnswers) (index todo : Nat) (w w' : World Memory Call) : Prop :=
  (List.range' index todo).mapM (fun i => (slot i).granted) = none ∧ Kept w w'

section

variable {type : BufType} {slot : Nat → SlotAnswers} {run : DeviceRuntime} {done : List Nat}
  {todo length : Nat} {w w1 w2 : World Memory Call}

theorem LoopDone.cons (h : LoopDone type slot run (done ++ [length]) todo w1 w2)
    (hgranted : (slot done.length).granted = some length) (hkept : Kept w w1) :
    LoopDone type slot run done (todo + 1) w w2 := by
  obtain ⟨lengths, hlengths, hrun, hdest, hcalls⟩ := h
  rw [List.length_append, List.length_singleton] at hlengths
  refine ⟨length :: lengths, ?_, ?_, hdest.trans hkept.dest, hkept.calls.trans hcalls⟩
  · rw [List.range'_succ, List.mapM_cons, hgranted, hlengths]
    rfl
  · rw [hrun, List.append_assoc, List.singleton_append]

theorem LoopFailed.cons {index : Nat} (h : LoopFailed slot (index + 1) todo w1 w2)
    (hkept : Kept w w1) : LoopFailed slot index (todo + 1) w w2 := by
  refine ⟨?_, hkept.trans h.2⟩
  rw [List.range'_succ, List.mapM_cons, h.1]
  cases (slot index).granted with
  | none => rfl
  | some length => rfl

theorem LoopFailed.here {index : Nat} (hgranted : (slot index).granted = none)
    (hkept : Kept w w1) : LoopFailed slot index (todo + 1) w w1 := by
  refine ⟨?_, hkept⟩
  rw [List.range'_succ, List.mapM_cons, hgranted]
  rfl

end

/-- **The loop of `_m2m_encoder_init_buffers`.**  It returns exactly if the rest of the buffers
are granted, and then all of them are mapped. -/
theorem initBuffersLoop_spec (type : BufType) (slot : Nat → SlotAnswers) (run : DeviceRuntime) :
    ∀ (todo : Nat) (done : List Nat) (w : World Memory Call),
      w.state.run = partly type done todo run →
      wp (initBuffersLoop type slot todo done.length
          (done.map UsM2mBuffer.ofLength ++ List.replicate todo UsM2mBuffer.null))
        (fun _ => LoopDone type slot run done todo w) (LoopFailed slot done.length todo w)
        (fun _ _ => False) w := by
  intro todo
  induction todo with
  | zero =>
    intro done w hrun
    rw [initBuffersLoop, wp_pure]
    refine ⟨[], rfl, ?_, rfl, List.prefix_rfl⟩
    rw [hrun, List.append_nil]
    rfl
  | succ todo ih =>
    intro done w hrun
    simp only [initBuffersLoop, wp_bind, wp_ask, wp_call, wp_updateRun]
    refine ⟨fun length hlength => ⟨fun hmapped => ⟨fun hqueued => ?_, fun hqueued => ?_⟩,
      fun hmapped => ?_⟩, fun hlength => ?_⟩
    · have hgranted : (slot done.length).granted = some length := by
        simp [SlotAnswers.granted, hlength, hmapped, hqueued]
      have hlater := ih (done ++ [length])
      rw [List.length_append, List.length_singleton] at hlater
      rw [set_null]
      refine wp_mono (fun _ _ h => h.cons hgranted ?_) (fun _ h => h.cons ?_) (fun _ _ h => h)
        (hlater _ ?_)
      · simp only [run_withRun, World.state_after]
        rw [hrun, partly_step]
      · exact ((((Kept.refl w).after _).after _).withRun (base_setBufs _ _ _)).after _
          |>.withRun (base_setNBufs _ _ _)
      · exact ((((Kept.refl w).after _).after _).withRun (base_setBufs _ _ _)).after _
          |>.withRun (base_setNBufs _ _ _)
    · refine LoopFailed.here (by simp [SlotAnswers.granted, hqueued]) ?_
      exact ((((Kept.refl w).after _).after _).withRun (base_setBufs _ _ _)).after _
    · exact LoopFailed.here (by simp [SlotAnswers.granted, hmapped])
        (((Kept.refl w).after _).after _)
    · exact LoopFailed.here (by simp [SlotAnswers.granted, hlength]) ((Kept.refl w).after _)

/-- `_m2m_encoder_init_buffers` with mapped memory. -/
theorem initBuffers_spec (type : BufType) (a : BufferAnswers) (w : World Memory Call) :
    wp (encoderInitBuffers type false a)
      (fun _ w' => ∃ lengths, a.granted = some lengths ∧
        w'.state.run = withBufs type lengths w.state.run ∧ w'.state.dest = w.state.dest ∧
        w.calls ++ [.requestBuffers type false a.count] <+: w'.calls)
      (fun w' => a.granted = none ∧ Kept w w') (fun _ _ => False) w := by
  simp only [encoderInitBuffers, wp_bind, wp_ask, wp_check, wp_updateRun, Bool.false_eq_true,
    if_false]
  refine ⟨fun count hcount => ⟨fun hpos => ?_, fun hzero => ?_⟩, fun hcount => ?_⟩
  · have hgranted : a.granted = (List.range' 0 count).mapM fun i => (a.slot i).granted := by
      simp [BufferAnswers.granted, hcount, hpos]
    have hloop := initBuffersLoop_spec type a.slot w.state.run count [] (withRun
      (w.after [.requestBuffers type false a.count]) (partly type [] count w.state.run)) rfl
    refine wp_mono ?_ ?_ (fun _ _ h => h) hloop
    · rintro - w' ⟨lengths, hlengths, hrun, hdest, hcalls⟩
      exact ⟨lengths, hgranted.trans hlengths, hrun, hdest, hcalls⟩
    · rintro w' ⟨hnone, hkept⟩
      exact ⟨hgranted.trans hnone,
        (((Kept.refl w).after _).withRun (base_partly _ _ _ _)).trans hkept⟩
  · exact ⟨by simp [BufferAnswers.granted, hcount, hzero], (Kept.refl w).after _⟩
  · exact ⟨by simp [BufferAnswers.granted, hcount], (Kept.refl w).after _⟩

/-- `_m2m_encoder_init_buffers` in DMA mode. -/
theorem initBuffers_dma_spec (type : BufType) (a : BufferAnswers) (w : World Memory Call) :
    wp (encoderInitBuffers type true a)
      (fun _ w' => ∃ count, a.dmaCount = some count ∧
        w'.state.run = setNBufs type count w.state.run ∧ w'.state.dest = w.state.dest ∧
        w.calls ++ [.requestBuffers type true a.count] <+: w'.calls)
      (fun w' => a.dmaCount = none ∧ Kept w w') (fun _ _ => False) w := by
  simp only [encoderInitBuffers, wp_bind, wp_ask, wp_check, wp_updateRun, if_true]
  refine ⟨fun count hcount => ⟨fun hpos => ?_, fun hzero => ?_⟩, fun hcount => ?_⟩
  · exact ⟨count, by simp [BufferAnswers.dmaCount, hcount, hpos], rfl, rfl, List.prefix_rfl⟩
  · have hnone : a.dmaCount = none := by
      simp [BufferAnswers.dmaCount, hcount]
      omega
    exact ⟨hnone, (Kept.refl w).after _⟩
  · exact ⟨by simp [BufferAnswers.dmaCount, hcount], (Kept.refl w).after _⟩

/-! ## 3. The options, the formats and the start -/

/-- The calls of the options, up to the first that is refused. -/
def optionCalls (answer : Control → Bool) : List (Control × Nat) → List Call
  | [] => []
  | (id, value) :: options =>
    .setControl id value (answer id) :: if answer id then optionCalls answer options else []

theorem wp_setOptions {answer : Control → Bool} {Q : Unit → World Memory Call → Prop}
    {E : World Memory Call → Prop} {F : Fault → World Memory Call → Prop} :
    ∀ {options : List (Control × Nat)} {w : World Memory Call},
      wp (setOptions answer options) Q E F w ↔
        ((options.all fun option => answer option.1) = true →
          Q () (w.after (optionCalls answer options))) ∧
        ((options.all fun option => answer option.1) = false →
          E (w.after (optionCalls answer options)))
  | [], w => by simp [setOptions, optionCalls, World.after]
  | (id, value) :: options, w => by
    simp only [setOptions, wp_bind, wp_call, wp_setOptions, List.all_cons, optionCalls]
    cases answer id with
    | false => simp
    | true => simp [World.after]

/-- A call by which the device is told how it is to work. -/
def Call.configures : Call → Bool
  | .setControl id _ _ => id != .mpegVideoForceKeyFrame
  | .setFormat .. => true
  | _ => false

/-- The device is opened, and configured if it could be. -/
def Attempted (enc : DeviceEncoder) (fd : Option Nat) (w w' : World Memory Call) : Prop :=
  ∃ later, w'.calls = w.calls ++ .openDevice enc.path fd :: later ∧
    (fd.isSome = true → ∃ c ∈ later, c.configures = true)

theorem Attempted.mono {enc : DeviceEncoder} {fd : Option Nat} {w w1 w2 : World Memory Call}
    (h : Attempted enc fd w w1) (hcalls : w1.calls <+: w2.calls) : Attempted enc fd w w2 := by
  obtain ⟨later, hlater, hconf⟩ := h
  obtain ⟨more, hmore⟩ := hcalls
  refine ⟨later ++ more, by rw [← hmore, hlater, List.append_assoc, List.cons_append], ?_⟩
  intro hfd
  obtain ⟨c, hc, hconfc⟩ := hconf hfd
  exact ⟨c, List.mem_append_left _ hc, hconfc⟩

/-- The opening, and the options up to the first that is refused. -/
def Opening (enc : DeviceEncoder) (frame : UsFrame) (a : PrepareAnswers)
    (w w' : World Memory Call) : Prop :=
  w'.calls = w.calls ++ .openDevice enc.path a.fd ::
    if a.fd.isSome then optionCalls a.control (encoderOptions enc frame) else []

theorem open_spec (enc : DeviceEncoder) (frame : UsFrame) (a : PrepareAnswers)
    (w : World Memory Call) :
    wp (encoderOpen enc frame a)
      (fun _ w' => ∃ fd, a.opens enc frame = some fd ∧
        w'.state = { w.state with run := { w.state.run with fd := fd } } ∧
        Opening enc frame a w w')
      (fun w' => a.opens enc frame = none ∧ Kept w w' ∧ Opening enc frame a w w')
      (fun _ _ => False) w := by
  simp only [encoderOpen, wp_bind, wp_ask, wp_updateRun, wp_setOptions]
  refine ⟨fun fd hfd => ⟨fun hall => ?_, fun hnot => ?_⟩, fun hfd => ?_⟩
  · refine ⟨fd, by simp [PrepareAnswers.opens, hall, hfd], rfl, ?_⟩
    simp [Opening, hfd]
  · refine ⟨by simp [PrepareAnswers.opens, hnot], ?_, by simp [Opening, hfd]⟩
    refine (Kept.withRun ((Kept.refl w).after _) ?_).after _
    rfl
  · exact ⟨by simp [PrepareAnswers.opens, hfd], (Kept.refl w).after _, by simp [Opening, hfd]⟩

theorem ne_forceKey_of_mem {enc : DeviceEncoder} {frame : UsFrame} {option : Control × Nat}
    (h : option ∈ encoderOptions enc frame) : option.1 ≠ .mpegVideoForceKeyFrame := by
  unfold encoderOptions at h
  split at h
  · simp only [List.mem_cons, List.not_mem_nil, or_false] at h
    rcases h with rfl | rfl | rfl | rfl | rfl | rfl | rfl <;> exact fun h0 => by cases h0
  · split at h
    · rw [List.mem_singleton.mp h]
      exact fun h0 => by cases h0
    · split at h
      · rw [List.mem_singleton.mp h]
        exact fun h0 => by cases h0
      · exact absurd h (List.not_mem_nil)

/-- Where an option is refused, one has been tried. -/
theorem Opening.attempted {enc : DeviceEncoder} {frame : UsFrame} {a : PrepareAnswers}
    {w w' : World Memory Call} (h : Opening enc frame a w w')
    (hnone : a.opens enc frame = none) : Attempted enc a.fd w w' := by
  refine ⟨_, h, ?_⟩
  intro hfd
  rw [if_pos hfd]
  unfold PrepareAnswers.opens at hnone
  cases hoptions : encoderOptions enc frame with
  | nil =>
    rw [hoptions, List.all_nil, if_pos rfl] at hnone
    rw [hnone] at hfd
    exact absurd hfd (by simp)
  | cons option options =>
    refine ⟨.setControl option.1 option.2 (a.control option.1), ?_, ?_⟩
    · exact List.mem_cons_self
    · have hmem : option ∈ encoderOptions enc frame := by
        rw [hoptions]
        exact List.mem_cons_self
      have hid := ne_forceKey_of_mem hmem
      simpa [Call.configures] using hid

/-- The device has been told the geometry and the format of its input. -/
def Told (frame : UsFrame) (a : PrepareAnswers) (w w' : World Memory Call) : Prop :=
  w.calls ++ [.setFormat .input frame.width frame.height frame.format 0 a.inputFormat] <+: w'.calls

theorem formats_spec (enc : DeviceEncoder) (frame : UsFrame) (a : PrepareAnswers)
    (w : World Memory Call) :
    wp (encoderSetFormats enc frame a)
      (fun _ w' => a.Accepts enc ∧
        w'.state = { w.state with run := { w.state.run with fpsLimit := fpsLimit frame } } ∧
        Told frame a w w')
      (fun w' => ¬a.Accepts enc ∧ Kept w w' ∧ Told frame a w w') (fun _ _ => False) w := by
  simp only [encoderSetFormats, wp_bind, wp_ask, wp_check, wp_updateRun, wp_call]
  refine ⟨fun input hinput => ⟨fun granted hgranted => ⟨fun hsame => ⟨fun hparm => ?_,
    fun hparm => ?_⟩, fun hother => ?_⟩, fun hgranted => ?_⟩, fun hinput => ?_⟩
  · refine ⟨⟨by rw [hinput]; rfl, hgranted.trans (congrArg some hsame), hparm⟩, rfl, ?_⟩
    exact (List.prefix_append _ _).trans (List.prefix_append _ _)
  · refine ⟨fun h => ?_, ?_, (List.prefix_append _ _).trans (List.prefix_append _ _)⟩
    · exact absurd (hparm.symm.trans h.2.2) (by simp)
    · refine (Kept.withRun (((Kept.refl w).after _).after _) ?_).after _
      rfl
  · refine ⟨fun h => hother ?_, ((Kept.refl w).after _).after _, List.prefix_append _ _⟩
    exact Option.some.inj (hgranted.symm.trans h.2.1)
  · refine ⟨fun h => ?_, ((Kept.refl w).after _).after _, List.prefix_append _ _⟩
    exact absurd (hgranted.symm.trans h.2.1) (by simp)
  · refine ⟨fun h => ?_, (Kept.refl w).after _, List.prefix_rfl⟩
    have hsome := h.1
    rw [hinput] at hsome
    exact absurd hsome (by simp)

/-- The runtime with the input's part of a session. -/
def withInput (input : Nat × Option (List Nat)) (run : DeviceRuntime) : DeviceRuntime :=
  match input.2 with
  | none => setNBufs .input input.1 run
  | some lengths => withBufs .input lengths run

theorem input_spec (dma : Bool) (a : BufferAnswers) (w : World Memory Call) :
    wp (encoderInitBuffers .input dma a)
      (fun _ w' => ∃ input, inputGranted dma a = some input ∧
        w'.state.run = withInput input w.state.run ∧ w'.state.dest = w.state.dest ∧
        w.calls ++ [.requestBuffers .input dma a.count] <+: w'.calls)
      (fun w' => inputGranted dma a = none ∧ Kept w w') (fun _ _ => False) w := by
  cases dma with
  | true =>
    refine wp_mono ?_ ?_ (fun _ _ h => h) (initBuffers_dma_spec .input a w)
    · rintro - w' ⟨count, hcount, hrest⟩
      exact ⟨(count, none), by simp [inputGranted, hcount], hrest⟩
    · rintro w' ⟨hnone, hkept⟩
      exact ⟨by simp [inputGranted, hnone], hkept⟩
  | false =>
    refine wp_mono ?_ ?_ (fun _ _ h => h) (initBuffers_spec .input a w)
    · rintro - w' ⟨lengths, hlengths, hrest⟩
      exact ⟨(lengths.length, some lengths), by simp [inputGranted, hlengths], hrest⟩
    · rintro w' ⟨hnone, hkept⟩
      exact ⟨by simp [inputGranted, hnone], hkept⟩

theorem base_withInput (input : Nat × Option (List Nat)) (run : DeviceRuntime) :
    (withInput input run).toUsM2mEncoderRuntime = run.toUsM2mEncoderRuntime := by
  unfold withInput
  split
  · rfl
  · exact base_partly _ _ _ _

theorem start_spec (dma : Bool) (a : PrepareAnswers) (w : World Memory Call) :
    wp (encoderStart dma a)
      (fun _ w' => ∃ input output, started dma a = some (input, output) ∧
        w'.state = { w.state with
          run := { withBufs .output output (withInput input w.state.run) with ready := true } } ∧
        w.calls ++ [.requestBuffers .input dma a.input.count] <+: w'.calls)
      (fun w' => started dma a = none ∧ Kept w w') (fun _ _ => False) w := by
  rw [encoderStart, wp_bind]
  refine wp_mono ?_ ?_ (fun _ _ h => h) (input_spec dma a.input w)
  · rintro - w1 ⟨input, hinput, hrun1, hdest1, hcalls1⟩
    have hkept1 : Kept w w1 :=
      ⟨by rw [hrun1, base_withInput], hdest1, (List.prefix_append _ _).trans hcalls1⟩
    rw [wp_bind]
    refine wp_mono ?_ ?_ (fun _ _ h => h) (initBuffers_spec .output a.output w1)
    · rintro - w2 ⟨output, houtput, hrun2, hdest2, hcalls2⟩
      have hkept2 : Kept w1 w2 :=
        ⟨by rw [hrun2, withBufs, base_partly], hdest2, (List.prefix_append _ _).trans hcalls2⟩
      simp only [wp_bind, wp_call, wp_updateRun]
      refine ⟨fun hin => ⟨fun hout => ?_, fun hout => ?_⟩, fun hin => ?_⟩
      · refine ⟨input, output, by simp [started, hinput, houtput, hin, hout], ?_, ?_⟩
        · rw [← hrun1, ← hrun2, ← hdest1, ← hdest2]
          rfl
        · exact hcalls1.trans ((hkept2.after _).after _).calls
      · exact ⟨by simp [started, hinput, houtput, hout],
          hkept1.trans ((hkept2.after _).after _)⟩
      · exact ⟨by simp [started, hinput, houtput, hin], hkept1.trans (hkept2.after _)⟩
    · rintro w2 ⟨hnone, hkept2⟩
      exact ⟨by simp [started, hinput, hnone], hkept1.trans hkept2⟩
  · rintro w1 ⟨hnone, hkept1⟩
    exact ⟨by simp [started, hnone], hkept1⟩

/-! ## 4. Configuring, as a whole -/

/-- The calls by which a device gets to know the frames it will be sent. -/
def Configured (frame : UsFrame) (dma : Bool) (a : PrepareAnswers) (calls : List Call) : Prop :=
  .setFormat .input frame.width frame.height frame.format 0 a.inputFormat ∈ calls ∧
    .requestBuffers .input dma a.input.count ∈ calls

/-- The number of mapped input buffers is the number of their lengths. -/
theorem count_inputGranted {dma : Bool} {a : BufferAnswers} {input : Nat × Option (List Nat)}
    (h : inputGranted dma a = some input) {lengths : List Nat} (hsome : input.2 = some lengths) :
    input.1 = lengths.length := by
  unfold inputGranted at h
  split at h
  · obtain ⟨count, -, rfl⟩ := Option.map_eq_some_iff.mp h
    exact absurd hsome (by simp)
  · obtain ⟨lengths', -, rfl⟩ := Option.map_eq_some_iff.mp h
    exact congrArg List.length (Option.some.inj hsome)

theorem inputGranted_of_started {dma : Bool} {a : PrepareAnswers}
    {buffers : (Nat × Option (List Nat)) × List Nat} (h : started dma a = some buffers) :
    inputGranted dma a.input = some buffers.1 := by
  unfold started at h
  split at h
  · rename_i input output hinput _
    split at h
    · rw [← Option.some.inj h]
      exact hinput
    · exact absurd h (by simp)
  · exact absurd h (by simp)

/-- What a preparation has done to a closed runtime. -/
theorem runtime_eq {fd : Nat} {frame : UsFrame} {run : DeviceRuntime}
    {input : Nat × Option (List Nat)} {output : List Nat} (hclosed : run.inputBufs = none)
    (hcount : ∀ lengths, input.2 = some lengths → input.1 = lengths.length) :
    { withBufs .output output
        (withInput input { run with fd := fd, fpsLimit := fpsLimit frame }) with ready := true }
      = Session.runtime ⟨fd, input.1, input.2, output⟩ frame run := by
  obtain ⟨n, lengths⟩ := input
  cases lengths with
  | none => simp [withInput, withBufs, partly, setNBufs, setBufs, Session.runtime, hclosed]
  | some lengths =>
    have hn : n = lengths.length := hcount lengths rfl
    simp [withInput, withBufs, partly, setNBufs, setBufs, Session.runtime, hn]

/-- Where the options are taken, the formats follow. -/
theorem Opening.told {enc : DeviceEncoder} {frame : UsFrame} {a : PrepareAnswers}
    {w w1 w2 : World Memory Call} (h : Opening enc frame a w w1) (htold : Told frame a w1 w2) :
    Attempted enc a.fd w w2 := by
  obtain ⟨more, hmore⟩ := htold
  unfold Opening at h
  rw [h, List.append_assoc, List.append_assoc, List.cons_append] at hmore
  refine ⟨_, hmore.symm, fun _ => ?_⟩
  refine ⟨.setFormat .input frame.width frame.height frame.format 0 a.inputFormat, ?_, rfl⟩
  exact List.mem_append_right _ List.mem_cons_self

theorem Kept.of_run {w w' : World Memory Call} {run : DeviceRuntime}
    (hstate : w'.state = { w.state with run := run })
    (hbase : run.toUsM2mEncoderRuntime = w.state.run.toUsM2mEncoderRuntime)
    (hcalls : w.calls <+: w'.calls) : Kept w w' :=
  ⟨by rw [hstate, hbase], by rw [hstate], hcalls⟩

theorem Opening.calls {enc : DeviceEncoder} {frame : UsFrame} {a : PrepareAnswers}
    {w w' : World Memory Call} (h : Opening enc frame a w w') : w.calls <+: w'.calls :=
  ⟨_, h.symm⟩

theorem prepare_spec (enc : DeviceEncoder) (frame : UsFrame) (a : PrepareAnswers)
    (w : World Memory Call) (hclosed : w.state.run.inputBufs = none) :
    wp (encoderPrepare enc frame (frameDma enc frame) a)
      (fun _ w' => ∃ s, session enc frame a = some s ∧
        w'.state = { w.state with run := s.runtime frame w.state.run } ∧
        Attempted enc a.fd w w' ∧ Configured frame (frameDma enc frame) a w'.calls)
      (fun w' => session enc frame a = none ∧ Kept w w' ∧ Attempted enc a.fd w w')
      (fun _ _ => False) w := by
  rw [encoderPrepare, wp_bind]
  refine wp_mono ?_ ?_ (fun _ _ h => h) (open_spec enc frame a w)
  · rintro - w1 ⟨fd, hopens, hstate1, hopening⟩
    have hkept1 : Kept w w1 := Kept.of_run hstate1 rfl hopening.calls
    rw [wp_bind]
    refine wp_mono ?_ ?_ (fun _ _ h => h) (formats_spec enc frame a w1)
    · rintro - w2 ⟨haccepts, hstate2, htold⟩
      have hkept2 : Kept w1 w2 :=
        Kept.of_run hstate2 rfl ((List.prefix_append _ _).trans htold)
      have hattempted : Attempted enc a.fd w w2 := hopening.told htold
      refine wp_mono ?_ ?_ (fun _ _ h => h) (start_spec (frameDma enc frame) a w2)
      · rintro - w3 ⟨input, output, hstarted, hstate3, hcalls3⟩
        have hcalls : w2.calls <+: w3.calls := (List.prefix_append _ _).trans hcalls3
        refine ⟨⟨fd, input.1, input.2, output⟩, ?_, ?_, hattempted.mono hcalls, ?_, ?_⟩
        · simp [session, hopens, hstarted, haccepts]
        · rw [hstate3, hstate2, hstate1, ← runtime_eq hclosed
            fun lengths => count_inputGranted (inputGranted_of_started hstarted)]
        · refine (htold.trans hcalls).subset ?_
          exact List.mem_append_right _ List.mem_cons_self
        · exact hcalls3.subset (List.mem_append_right _ List.mem_cons_self)
      · rintro w3 ⟨hnone, hkept3⟩
        exact ⟨by simp [session, hopens, hnone], hkept1.trans (hkept2.trans hkept3),
          hattempted.mono hkept3.calls⟩
    · rintro w2 ⟨hnot, hkept2, htold⟩
      refine ⟨?_, hkept1.trans hkept2, hopening.told htold⟩
      unfold session
      split
      · rw [if_neg hnot]
      · rfl
  · rintro w1 ⟨hnone, hkept, hopening⟩
    exact ⟨by simp [session, hnone], hkept, hopening.attempted hnone⟩

/-- The runtime that a failed preparation leaves. -/
def failed (enc : DeviceEncoder) (frame : UsFrame) (limit : Nat) (run : DeviceRuntime) :
    DeviceRuntime :=
  { caching enc frame (closed run) with fpsLimit := limit }

/-- What `_m2m_encoder_ensure` does where the parameters have changed. -/
structure Reopened (enc : DeviceEncoder) (frame : UsFrame) (a : PrepareAnswers)
    (w w' : World Memory Call) : Prop where
  dest : w'.state.dest = w.state.dest
  attempted : Attempted enc a.fd (w.after (cleanupCalls w.state.run)) w'
  run : ∀ s, session enc frame a = some s →
    w'.state.run = s.runtime frame (caching enc frame (closed w.state.run)) ∧
      Configured frame (frameDma enc frame) a w'.calls
  failed : session enc frame a = none →
    ∃ limit, w'.state.run = failed enc frame limit w.state.run

/-- What `_m2m_encoder_ensure` does. -/
structure Ensured (enc : DeviceEncoder) (frame : UsFrame) (a : PrepareAnswers)
    (w w' : World Memory Call) : Prop where
  cached : Cached enc w.state.run.toUsM2mEncoderRuntime frame → w' = w
  changed : ¬Cached enc w.state.run.toUsM2mEncoderRuntime frame → Reopened enc frame a w w'

/-- **The whole of `_m2m_encoder_ensure`.** -/
theorem ensure_spec (enc : DeviceEncoder) (frame : UsFrame) (a : PrepareAnswers)
    (w : World Memory Call) :
    wp (encoderEnsure enc frame a) (fun _ => Ensured enc frame a w) (fun _ => False)
      (fun _ _ => False) w := by
  simp only [encoderEnsure, wp_bind, wp_current, wp_ite, wp_pure, wp_encoderCleanup, wp_updateRun,
    wp_attempt, run_withRun]
  refine ⟨fun hcached => ⟨fun _ => rfl, fun h => absurd hcached h⟩, fun hchanged => ?_⟩
  refine wp_mono ?_ ?_ (fun _ _ h => h) (prepare_spec enc frame a _ rfl)
  · rintro - w' ⟨s, hsession, hstate, hattempted, hconfigured⟩
    rw [if_pos trivial, wp_pure]
    refine ⟨fun h => absurd h hchanged, fun _ => ⟨?_, hattempted, ?_, ?_⟩⟩
    · rw [hstate]
      rfl
    · intro s' hs'
      obtain rfl : s = s' := Option.some.inj (hsession.symm.trans hs')
      refine ⟨?_, hconfigured⟩
      rw [hstate]
      rfl
    · intro hnone
      exact absurd (hsession.symm.trans hnone) (by simp)
  · rintro w' ⟨hnone, hkept, hattempted⟩
    rw [if_neg (by simp), wp_encoderCleanup]
    refine ⟨fun h => absurd h hchanged, fun _ => ⟨hkept.dest, ?_, ?_, ?_⟩⟩
    · exact hattempted.mono (List.prefix_append _ _)
    · intro s hsession
      exact absurd (hsession.symm.trans hnone) (by simp)
    · intro _
      refine ⟨w'.state.run.fpsLimit, ?_⟩
      rw [run_withRun, closed, hkept.base]
      rfl

/-- The three ends of `_m2m_encoder_ensure`. -/
theorem Ensured.cases {enc : DeviceEncoder} {frame : UsFrame} {a : PrepareAnswers}
    {w w' : World Memory Call} (h : Ensured enc frame a w w') :
    (Cached enc w.state.run.toUsM2mEncoderRuntime frame ∧ w' = w) ∨
      ¬Cached enc w.state.run.toUsM2mEncoderRuntime frame ∧
        ((∃ s, session enc frame a = some s ∧
            w'.state.run = s.runtime frame (caching enc frame (closed w.state.run))) ∨
          (session enc frame a = none ∧
            ∃ limit, w'.state.run = M2m.failed enc frame limit w.state.run)) := by
  by_cases hcached : Cached enc w.state.run.toUsM2mEncoderRuntime frame
  · exact .inl ⟨hcached, h.cached hcached⟩
  · refine .inr ⟨hcached, ?_⟩
    have hreopened := h.changed hcached
    cases hsession : session enc frame a with
    | some s => exact .inl ⟨s, rfl, (hreopened.run s hsession).1⟩
    | none => exact .inr ⟨rfl, hreopened.failed hsession⟩

end TinyPilotKvm.M2m
