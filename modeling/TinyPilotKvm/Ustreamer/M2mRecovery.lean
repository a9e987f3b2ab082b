/-
# An M2M encoder after a failure (`us_m2m_encoder_compress` in `ustreamer/m2m.c`)

The device of an encoder is closed by a failure, and the parameters are kept: `_m2m_encoder_ensure`
compares them with those of the next frame before it asks whether the device is open.  So an
encoder that is not ready opens its device again exactly if the frame's geometry, format, stride or
DMA mode has changed since its last call (`attempts_iff`), and as long as they stay the same every
call gives -1.

A ready encoder is sound in this respect: its parameters are those of the call that has opened and
configured the device, and no later call has opened it again (`Configuration`).
-/
import TinyPilotKvm.Transition
import TinyPilotKvm.Ustreamer.M2mSession

namespace TinyPilotKvm.M2m

open Program

/-! ## 1. What the coding of a frame leaves alone -/

/-- The mapped lengths of buffers. -/
def lengths (bufs : Option (List UsM2mBuffer)) : Option (List Nat) :=
  bufs.map (·.map UsM2mBuffer.allocated)

def Call.opens : Call → Bool
  | .openDevice .. => true
  | _ => false

/-- The device stays open as it is, with the buffers it has. -/
structure Working (w w' : World Memory Call) : Prop where
  base : w'.state.run.toUsM2mEncoderRuntime = w.state.run.toUsM2mEncoderRuntime
  fd : w'.state.run.fd = w.state.run.fd
  nInput : w'.state.run.nInputBufs = w.state.run.nInputBufs
  nOutput : w'.state.run.nOutputBufs = w.state.run.nOutputBufs
  input : lengths w'.state.run.inputBufs = lengths w.state.run.inputBufs
  output : lengths w'.state.run.outputBufs = lengths w.state.run.outputBufs
  calls : ∃ es, w'.calls = w.calls ++ es ∧ ∀ e ∈ es, e.opens = false

theorem Working.refl (w : World Memory Call) : Working w w :=
  ⟨rfl, rfl, rfl, rfl, rfl, rfl, [], (List.append_nil _).symm, by simp⟩

theorem Working.trans {w1 w2 w3 : World Memory Call} (h : Working w1 w2) (h' : Working w2 w3) :
    Working w1 w3 := by
  obtain ⟨es, hes, hopens⟩ := h.calls
  obtain ⟨es', hes', hopens'⟩ := h'.calls
  refine ⟨h'.base.trans h.base, h'.fd.trans h.fd, h'.nInput.trans h.nInput,
    h'.nOutput.trans h.nOutput, h'.input.trans h.input, h'.output.trans h.output, es ++ es', ?_, ?_⟩
  · rw [hes', hes, List.append_assoc]
  · intro e he
    rcases List.mem_append.mp he with he | he
    · exact hopens e he
    · exact hopens' e he

instance : Std.Refl Working := ⟨Working.refl⟩

instance : IsTrans _ Working := ⟨fun _ _ _ => Working.trans⟩

theorem Working.after (w : World Memory Call) {e : Call} (he : e.opens = false) :
    Working w (w.after [e]) :=
  ⟨rfl, rfl, rfl, rfl, rfl, rfl, [e], rfl, by simpa using he⟩

theorem lengths_set (bufs : Option (List UsM2mBuffer)) (index : Nat) (buf : UsM2mBuffer)
    (bytes : List UInt8) (h : bufs.bind (·[index]?) = some buf) :
    lengths (bufs.map (·.set index (buf.fill bytes))) = lengths bufs := by
  cases bufs with
  | none => rfl
  | some bufs =>
    have hget : bufs[index]? = some buf := h
    obtain ⟨hlt, hbuf⟩ := List.getElem?_eq_some_iff.mp hget
    simp only [lengths, Option.map_some, List.map_set]
    have hlt' : index < (bufs.map UsM2mBuffer.allocated).length := by simpa using hlt
    have hsame : (buf.fill bytes).allocated = (bufs.map UsM2mBuffer.allocated)[index] := by
      simp [UsM2mBuffer.fill, hbuf]
    rw [hsame, List.set_getElem_self]

theorem lengths_modify (bufs : Option (List UsM2mBuffer)) (index : Nat) (bytes : List UInt8) :
    lengths (bufs.map (·.modify index (·.fill bytes))) = lengths bufs := by
  cases bufs with
  | none => rfl
  | some bufs =>
    simp only [lengths, Option.map_some]
    congr 1
    refine List.ext_getElem? fun i => ?_
    simp only [List.getElem?_map, List.getElem?_modify]
    split
    · cases bufs[i]? with
      | none => rfl
      | some buf => rfl
    · cases bufs[i]? with
      | none => rfl
      | some buf => rfl

theorem working_grabInput (a : CompressAnswers) : Keeps Working (grabInput a) := by
  unfold grabInput
  refine Keeps.bind (Keeps.current) fun mem => ?_
  refine Keeps.ite (Keeps.pure _) ?_
  refine Keeps.bind (Keeps.ask fun w => Working.after w rfl) fun buf => ?_
  exact Keeps.bind (Keeps.check _) fun _ => Keeps.pure _

theorem working_copyInput (src : UsFrame) (index : Nat) : Keeps Working (copyInput src index) := by
  intro w
  unfold copyInput
  rw [wp_bind, wp_current, wp_ite]
  refine ⟨fun _ => Working.refl w, fun _ => ?_⟩
  split
  · exact Working.refl w
  · rename_i buf hbuf
    rw [wp_bind, wp_require, wp_updateRun]
    refine ⟨fun _ => ?_, fun _ => Working.refl w⟩
    exact ⟨rfl, rfl, rfl, rfl, lengths_set _ _ _ _ hbuf, rfl, [], (List.append_nil _).symm,
      by simp⟩

theorem working_sendInput (src : UsFrame) (forceKey : Bool) (a : CompressAnswers) :
    Keeps Working (sendInput src forceKey a) := by
  unfold sendInput
  refine Keeps.bind (Keeps.current) fun mem => ?_
  refine Keeps.bind (Keeps.require _ _) fun _ => ?_
  refine Keeps.bind ?_ fun _ => ?_
  · exact Keeps.ite (Keeps.call fun w => Working.after w rfl) (Keeps.pure _)
  · refine Keeps.bind (working_grabInput a) fun grabbed => ?_
    refine Keeps.bind (working_copyInput src _) fun _ => ?_
    exact Keeps.bind (Keeps.call fun w => Working.after w rfl) fun _ => Keeps.pure _

theorem working_fetchOutput (answer : Option Fetched) : Keeps Working (fetchOutput answer) := by
  unfold fetchOutput
  refine Keeps.bind (Keeps.ask fun w => Working.after w rfl) fun fetched => ?_
  refine Keeps.bind ?_ fun _ => Keeps.pure _
  intro w
  rw [wp_updateRun]
  exact ⟨rfl, rfl, rfl, rfl, rfl, lengths_modify _ _ _, [], (List.append_nil _).symm, by simp⟩

theorem working_takeOutput (enc : DeviceEncoder) (output : V4l2Buffer) :
    Keeps Working (takeOutput enc output) := by
  intro w
  unfold takeOutput
  rw [wp_bind, wp_current]
  split
  · exact Working.refl w
  · rw [wp_bind, wp_require, wp_updateDest]
    refine ⟨fun _ => ?_, fun _ => Working.refl w⟩
    exact ⟨rfl, rfl, rfl, rfl, rfl, rfl, [], (List.append_nil _).symm, by simp⟩

theorem working_awaitOutput (enc : DeviceEncoder) (a : CompressAnswers) (sent : V4l2Buffer) :
    ∀ (rounds : List Round) (released : Bool),
      Keeps Working (awaitOutput enc a sent released rounds) := by
  intro rounds
  induction rounds with
  | nil => exact fun _ => Keeps.fail
  | cons round rounds ih =>
    intro released
    unfold awaitOutput
    refine Keeps.bind (Keeps.check _) fun _ => ?_
    refine Keeps.bind (fun w => Working.after w rfl) fun _ => ?_
    refine Keeps.bind (Keeps.check _) fun _ => ?_
    refine Keeps.ite ?_ (ih released)
    refine Keeps.bind ?_ fun _ => ?_
    · refine Keeps.ite (Keeps.pure _) ?_
      exact Keeps.bind (Keeps.ask fun w => Working.after w rfl) fun _ =>
        Keeps.pure _
    · refine Keeps.bind (working_fetchOutput _) fun output => ?_
      have hqueue : Keeps Working (call (.queue .output output.toV4l2Buffer none)
          round.requeued : Driver Unit) := Keeps.call fun w => Working.after w rfl
      refine Keeps.ite ?_ ?_
      · exact Keeps.bind (working_takeOutput enc _) fun _ => hqueue
      · exact Keeps.bind hqueue fun _ => ih true

theorem working_compressRaw (enc : DeviceEncoder) (src : UsFrame) (forceKey : Bool)
    (a : CompressAnswers) : Keeps Working (encoderCompressRaw enc src forceKey a) := by
  unfold encoderCompressRaw
  refine Keeps.bind (working_sendInput src forceKey a) fun sent => ?_
  refine Keeps.bind (Keeps.current) fun mem => ?_
  exact working_awaitOutput enc a sent a.rounds _

/-! ## 2. The encoder between two calls -/

/-- Nothing is left of a session. -/
structure Idle (run : DeviceRuntime) : Prop where
  ready : run.ready = false
  fd : run.fd = -1
  inputBufs : run.inputBufs = none
  nInputBufs : run.nInputBufs = 0
  outputBufs : run.outputBufs = none
  nOutputBufs : run.nOutputBufs = 0
  lastOnline : run.lastOnline = none

/-- An open device, with as many buffers as the counts say. -/
structure Streaming (run : DeviceRuntime) : Prop where
  ready : run.ready = true
  fd : 0 ≤ run.fd
  input : run.pDma = false → ∃ ls, lengths run.inputBufs = some ls ∧ ls.length = run.nInputBufs
  output : ∃ ls, lengths run.outputBufs = some ls ∧ ls.length = run.nOutputBufs

def Settled (run : DeviceRuntime) : Prop := Idle run ∨ Streaming run

theorem idle_init : Idle DeviceRuntime.init := ⟨rfl, rfl, rfl, rfl, rfl, rfl, rfl⟩

theorem idle_closed (run : DeviceRuntime) : Idle (closed run) := ⟨rfl, rfl, rfl, rfl, rfl, rfl, rfl⟩

theorem idle_failed (enc : DeviceEncoder) (frame : UsFrame) (limit : Nat) (run : DeviceRuntime) :
    Idle (failed enc frame limit run) := ⟨rfl, rfl, rfl, rfl, rfl, rfl, rfl⟩

theorem Settled.idle {run : DeviceRuntime} (h : Settled run) (hready : run.ready = false) :
    Idle run := by
  rcases h with h | h
  · exact h
  · exact absurd (hready.symm.trans h.ready) (by simp)

theorem Settled.streaming {run : DeviceRuntime} (h : Settled run) (hready : run.ready = true) :
    Streaming run := by
  rcases h with h | h
  · exact absurd (hready.symm.trans h.ready) (by simp)
  · exact h

theorem Working.streaming {w w' : World Memory Call} (h : Working w w')
    (hs : Streaming w.state.run) : Streaming w'.state.run where
  ready := by rw [h.base, hs.ready]
  fd := by rw [h.fd]; exact hs.fd
  input := by rw [h.base, h.input, h.nInput]; exact hs.input
  output := by rw [h.output, h.nOutput]; exact hs.output

theorem lengths_ofLength (ls : List Nat) :
    lengths (some (ls.map UsM2mBuffer.ofLength)) = some ls := by
  simp [lengths, UsM2mBuffer.ofLength, Function.comp_def]

theorem session_eq_some {enc : DeviceEncoder} {frame : UsFrame} {a : PrepareAnswers} {s : Session}
    (h : session enc frame a = some s) :
    a.opens enc frame = some s.fd ∧
      started (frameDma enc frame) a = some ((s.nInput, s.input), s.output) ∧ a.Accepts enc := by
  unfold session at h
  split at h
  · rename_i fd input output hopens hstarted
    split at h
    · rename_i haccepts
      obtain rfl := Option.some.inj h
      exact ⟨hopens, hstarted, haccepts⟩
    · exact absurd h (by simp)
  · exact absurd h (by simp)

/-- Without DMA the input buffers of a session are mapped. -/
theorem input_of_session {enc : DeviceEncoder} {frame : UsFrame} {a : PrepareAnswers} {s : Session}
    (h : session enc frame a = some s) (hdma : frameDma enc frame = false) :
    ∃ ls, s.input = some ls ∧ ls.length = s.nInput := by
  have hinput := inputGranted_of_started (session_eq_some h).2.1
  rw [hdma, inputGranted, if_neg (by simp)] at hinput
  obtain ⟨ls, -, hls⟩ := Option.map_eq_some_iff.mp hinput
  exact ⟨ls, (congrArg Prod.snd hls).symm, congrArg Prod.fst hls⟩

theorem streaming_session {enc : DeviceEncoder} {frame : UsFrame} {a : PrepareAnswers}
    {s : Session} (h : session enc frame a = some s) (run : DeviceRuntime) :
    Streaming (s.runtime frame (caching enc frame (closed run))) where
  ready := rfl
  fd := Int.natCast_nonneg _
  input := by
    intro hdma
    obtain ⟨ls, hls, hcount⟩ := input_of_session h hdma
    refine ⟨ls, ?_, hcount⟩
    rw [Session.runtime, hls]
    exact lengths_ofLength ls
  output := ⟨s.output, lengths_ofLength s.output, rfl⟩

/-! ## 3. One call -/

theorem opens_cleanupCalls (run : DeviceRuntime) : ∀ e ∈ cleanupCalls run, e.opens = false := by
  intro e he
  unfold cleanupCalls unmapped at he
  simp only [List.mem_append, List.mem_map] at he
  rcases he with ((he | ⟨-, -, rfl⟩) | ⟨-, -, rfl⟩) | he
  · split at he
    · simp only [List.mem_cons, List.not_mem_nil, or_false] at he
      rcases he with rfl | rfl
      · rfl
      · rfl
    · exact absurd he (List.not_mem_nil)
  · rfl
  · rfl
  · split at he
    · rw [List.mem_singleton.mp he]
      rfl
    · exact absurd he (List.not_mem_nil)

/-- The three ends of the coding of a frame. -/
inductive Coded (src : UsFrame) (env : DeviceEnv) (w w' : World Memory Call) : Int → Prop
  | ok (w1 : World Memory Call) : Working w w1 → 0 < w1.state.dest.used →
      w' = w1.withState
        ⟨{ w1.state.run with lastOnline := some src.online, lastEncodeTs := env.encodeEndTs },
          { w1.state.dest with encodeEndTs := env.encodeEndTs }⟩ → Coded src env w w' 0
  | failed (w1 : World Memory Call) : Working w w1 →
      w' = withRun (w1.after (cleanupCalls w1.state.run)) (closed w1.state.run) →
      Coded src env w w' (-1)

theorem encodeFrame_spec (enc : DeviceEncoder) (src : UsFrame) (forceKey : Bool) (env : DeviceEnv)
    (w : World Memory Call) :
    wp (encodeFrame enc src forceKey env) (fun ret w' => Coded src env w w' ret)
      (fun _ => False) (fun _ => Working w) w := by
  rw [encodeFrame, wp_bind, wp_attempt]
  refine wp_mono ?_ ?_ (fun _ _ h => h) (working_compressRaw enc src forceKey env.compress w)
  · rintro - w1 hworking
    rw [if_pos rfl, wp_bind, wp_current, wp_bind, wp_require]
    exact ⟨fun hused => .ok w1 hworking hused rfl, fun _ => hworking⟩
  · rintro w1 hworking
    rw [if_neg (by simp), wp_bind, wp_encoderCleanup]
    exact .failed w1 hworking rfl

/-- The world after `us_frame_encoding_begin`. -/
def begun (enc : DeviceEncoder) (src : UsFrame) (forceKey : Bool) (env : DeviceEnv)
    (w : World Memory Call) : World Memory Call :=
  w.withState { w.state with
    dest := usFrameEncodingBegin src w.state.dest
      (m2mEncoderForceKey enc.toUsM2mEncoder w.state.run.toUsM2mEncoderRuntime src forceKey
        env.now).1 env.encodeBeginTs }

/-- The two ends of a call that does not fault: the device is not ready, or a frame is coded. -/
def Compressed (src : UsFrame) (env : DeviceEnv) (w1 w' : World Memory Call) (ret : Int) : Prop :=
  (w1.state.run.ready = false ∧ ret = -1 ∧ w' = w1) ∨
    (w1.state.run.ready = true ∧ Coded src env w1 w' ret)

/-- **One call of `us_m2m_encoder_compress`.**  `w1` is the world after `_m2m_encoder_ensure`. -/
theorem compress_spec (enc : DeviceEncoder) (src : UsFrame) (hused : 0 < src.used)
    (forceKey : Bool) (env : DeviceEnv) (w : World Memory Call) :
    wp (encoderCompress enc src forceKey env)
      (fun ret w' => ∃ w1, Ensured enc src env.prepare (begun enc src forceKey env w) w1 ∧
        Compressed src env w1 w' ret)
      (fun _ => False)
      (fun _ w' => ∃ w1, Ensured enc src env.prepare (begun enc src forceKey env w) w1 ∧
        w1.state.run.ready = true ∧ Working w1 w') w := by
  rw [encoderCompress, wp_bind, wp_current, wp_bind, wp_require_of_pos hused, wp_bind,
    wp_updateDest, wp_bind]
  refine wp_mono ?_ (fun _ h => h.elim) (fun _ _ h => h.elim)
    (ensure_spec enc src env.prepare (begun enc src forceKey env w))
  rintro - w1 hensured
  rw [wp_bind, wp_current, wp_ite]
  refine ⟨fun hready => ⟨w1, hensured, .inl ⟨hready, rfl, rfl⟩⟩, fun hready => ?_⟩
  have hready : w1.state.run.ready = true := by simpa using hready
  refine wp_mono ?_ (fun _ h => h) ?_ (encodeFrame_spec enc src _ env w1)
  · intro ret w' hcoded
    exact ⟨w1, hensured, .inr ⟨hready, hcoded⟩⟩
  · intro _ w' hworking
    exact ⟨w1, hensured, hready, hworking⟩

theorem Coded.calls {src : UsFrame} {env : DeviceEnv} {w w' : World Memory Call} {ret : Int}
    (h : Coded src env w w' ret) : ∃ es, w'.calls = w.calls ++ es ∧ ∀ e ∈ es, e.opens = false := by
  cases h with
  | ok w1 hworking _ hw' =>
    subst hw'
    exact hworking.calls
  | failed w1 hworking hw' =>
    subst hw'
    obtain ⟨es, hes, hopens⟩ := hworking.calls
    refine ⟨es ++ cleanupCalls w1.state.run, ?_, ?_⟩
    · rw [← List.append_assoc, ← hes]
      rfl
    · intro e he
      rcases List.mem_append.mp he with he | he
      · exact hopens e he
      · exact opens_cleanupCalls _ e he

/-- After `_m2m_encoder_ensure` no call opens the device. -/
theorem Compressed.calls {src : UsFrame} {env : DeviceEnv} {w1 w' : World Memory Call} {ret : Int}
    (h : Compressed src env w1 w' ret) :
    ∃ es, w'.calls = w1.calls ++ es ∧ ∀ e ∈ es, e.opens = false := by
  rcases h with ⟨-, -, rfl⟩ | ⟨-, h⟩
  · exact ⟨[], (List.append_nil _).symm, by simp⟩
  · exact h.calls

/-! ## 4. The life of an encoder -/

/-- A call of `us_m2m_encoder_compress`, with all the answers it gets. -/
structure DeviceCall where
  src : UsFrame
  nonempty : 0 < src.used
  dest : UsFrame
  forceKey : Bool
  env : DeviceEnv

/-- The call of an encoder. -/
def DeviceCall.program (enc : DeviceEncoder) (c : DeviceCall) : Driver Int :=
  encoderCompress enc c.src c.forceKey c.env

def DeviceCall.world (c : DeviceCall) (run : DeviceRuntime) : World Memory Call :=
  ⟨⟨run, c.dest⟩, []⟩

@[simp] theorem run_begun (enc : DeviceEncoder) (src : UsFrame) (forceKey : Bool)
    (env : DeviceEnv) (w : World Memory Call) :
    (begun enc src forceKey env w).state.run = w.state.run := rfl

@[simp] theorem run_world (c : DeviceCall) (run : DeviceRuntime) :
    (c.world run).state.run = run := rfl

/-- A call that has returned, and what it has asked of the device. -/
structure Served where
  call : DeviceCall
  calls : List Call

/-- An encoder, and its calls so far, the last of them first. -/
structure Life where
  run : DeviceRuntime
  past : List Served

def Life.init : Life := ⟨DeviceRuntime.init, []⟩

def serve (enc : DeviceEncoder) (s : Life) (c : DeviceCall) : Option Life :=
  match c.program enc (c.world s.run) with
  | .ok _ w => some ⟨w.state.run, ⟨c, w.calls⟩ :: s.past⟩
  | .error _ _ => none

/-- An M2M encoder that is called again and again; a call that faults is the last. -/
def lifeSystem (enc : DeviceEncoder) : System Life DeviceCall where
  start s := s = Life.init
  step := serve enc

theorem serve_eq_some {enc : DeviceEncoder} {s s' : Life} {c : DeviceCall}
    (h : serve enc s c = some s') :
    ∃ w1 w' ret, Ensured enc c.src c.env.prepare
        (begun enc c.src c.forceKey c.env (c.world s.run)) w1 ∧
      Compressed c.src c.env w1 w' ret ∧ s' = ⟨w'.state.run, ⟨c, w'.calls⟩ :: s.past⟩ := by
  unfold serve at h
  split at h
  · rename_i ret w' hw'
    obtain ⟨w1, hensured, hcompressed⟩ :=
      wp_ok (compress_spec enc c.src c.nonempty c.forceKey c.env _) hw'
    exact ⟨w1, w', ret, hensured, hcompressed, (Option.some.inj h).symm⟩
  · exact absurd h (by simp)

/-- The last call that has opened the device. -/
def Life.opening (s : Life) : Option Served := s.past.find? fun v => v.calls.any Call.opens

/-- **A ready encoder has the parameters that its device was configured with.** -/
def Configuration (enc : DeviceEncoder) (s : Life) : Prop :=
  s.run.ready = true → ∃ v, s.opening = some v ∧
    Cached enc s.run.toUsM2mEncoderRuntime v.call.src ∧
    Configured v.call.src (frameDma enc v.call.src) v.call.env.prepare v.calls

theorem opening_cons_of_not {run : DeviceRuntime} {v : Served} {past : List Served}
    (h : ∀ e ∈ v.calls, e.opens = false) :
    (Life.mk run (v :: past)).opening = (Life.mk run past).opening := by
  have hany : v.calls.any Call.opens = false := by
    rw [List.any_eq_false]
    intro e he
    rw [h e he]
    simp
  unfold Life.opening
  rw [List.find?_cons, hany]

theorem opening_cons_of_mem {run : DeviceRuntime} {v : Served} {past : List Served} {e : Call}
    (he : e ∈ v.calls) (hopens : e.opens = true) :
    (Life.mk run (v :: past)).opening = some v := by
  have hany : v.calls.any Call.opens = true := List.any_eq_true.mpr ⟨e, he, hopens⟩
  unfold Life.opening
  rw [List.find?_cons, hany]

theorem Attempted.mem {enc : DeviceEncoder} {fd : Option Nat} {w w' : World Memory Call}
    (h : Attempted enc fd w w') : .openDevice enc.path fd ∈ w'.calls := by
  obtain ⟨later, hlater, -⟩ := h
  rw [hlater]
  exact List.mem_append_right _ List.mem_cons_self

theorem cached_caching (enc : DeviceEncoder) (frame : UsFrame) (run : DeviceRuntime) :
    Cached enc (caching enc frame run).toUsM2mEncoderRuntime frame := ⟨rfl, rfl, rfl, rfl, rfl⟩

theorem Ensured.settled {enc : DeviceEncoder} {frame : UsFrame} {a : PrepareAnswers}
    {w w' : World Memory Call} (h : Ensured enc frame a w w') (hs : Settled w.state.run) :
    Settled w'.state.run := by
  rcases h.cases with ⟨-, rfl⟩ | ⟨-, ⟨s, hsession, hrun⟩ | ⟨-, limit, hrun⟩⟩
  · exact hs
  · rw [hrun]
    exact .inr (streaming_session hsession _)
  · rw [hrun]
    exact .inl (idle_failed enc frame limit _)

/-- The runtime that a call leaves is settled. -/
theorem settled_serve {enc : DeviceEncoder} {s s' : Life} {c : DeviceCall}
    (hs : Settled s.run) (h : serve enc s c = some s') : Settled s'.run := by
  obtain ⟨w1, w', ret, hensured, hcompressed, rfl⟩ := serve_eq_some h
  have h1 : Settled w1.state.run := hensured.settled hs
  rcases hcompressed with ⟨-, -, rfl⟩ | ⟨hready, hcoded⟩
  · exact h1
  · cases hcoded with
    | ok w2 hworking _ hw' =>
      subst hw'
      have h2 := hworking.streaming (h1.streaming hready)
      exact .inr ⟨h2.ready, h2.fd, h2.input, h2.output⟩
    | failed w2 _ hw' =>
      subst hw'
      exact .inl (idle_closed _)

theorem Configured.mono {frame : UsFrame} {dma : Bool} {a : PrepareAnswers} {es es' : List Call}
    (h : Configured frame dma a es) (hsub : es ⊆ es') : Configured frame dma a es' :=
  ⟨hsub h.1, hsub h.2⟩

/-- What is coded on an open device leaves the parameters as they are. -/
theorem Coded.cached {enc : DeviceEncoder} {src frame : UsFrame} {env : DeviceEnv}
    {w w' : World Memory Call} {ret : Int} (h : Coded src env w w' ret)
    (hcached : Cached enc w.state.run.toUsM2mEncoderRuntime frame) :
    Cached enc w'.state.run.toUsM2mEncoderRuntime frame := by
  cases h with
  | ok w1 hworking _ hw' =>
    subst hw'
    rw [← hworking.base] at hcached
    exact hcached
  | failed w1 hworking hw' =>
    subst hw'
    rw [← hworking.base] at hcached
    exact hcached

theorem Compressed.cached {enc : DeviceEncoder} {src frame : UsFrame} {env : DeviceEnv}
    {w1 w' : World Memory Call} {ret : Int} (h : Compressed src env w1 w' ret)
    (hcached : Cached enc w1.state.run.toUsM2mEncoderRuntime frame) :
    Cached enc w'.state.run.toUsM2mEncoderRuntime frame := by
  rcases h with ⟨-, -, rfl⟩ | ⟨-, hcoded⟩
  · exact hcached
  · exact hcoded.cached hcached

/-- An encoder that is ready after a call was ready for it. -/
theorem Compressed.ready {src : UsFrame} {env : DeviceEnv} {w1 w' : World Memory Call} {ret : Int}
    (h : Compressed src env w1 w' ret) (hready : w'.state.run.ready = true) :
    w1.state.run.ready = true := by
  rcases h with ⟨-, -, rfl⟩ | ⟨hready1, -⟩
  · exact hready
  · exact hready1

/-- The parameters that `_m2m_encoder_ensure` leaves are the frame's. -/
theorem Ensured.cached_after {enc : DeviceEncoder} {frame : UsFrame} {a : PrepareAnswers}
    {w w' : World Memory Call} (h : Ensured enc frame a w w') :
    Cached enc w'.state.run.toUsM2mEncoderRuntime frame := by
  rcases h.cases with ⟨hcached, rfl⟩ | ⟨-, ⟨s, -, hrun⟩ | ⟨-, limit, hrun⟩⟩
  · exact hcached
  · rw [hrun]
    exact cached_caching enc frame (closed w.state.run)
  · rw [hrun]
    exact cached_caching enc frame (closed w.state.run)

/-- A device that is opened and ready has been configured. -/
theorem Reopened.configured {enc : DeviceEncoder} {frame : UsFrame} {a : PrepareAnswers}
    {w w' : World Memory Call} (h : Reopened enc frame a w w')
    (hready : w'.state.run.ready = true) :
    Configured frame (frameDma enc frame) a w'.calls := by
  cases hsession : session enc frame a with
  | some s => exact (h.run s hsession).2
  | none =>
    obtain ⟨limit, hlimit⟩ := h.failed hsession
    rw [hlimit] at hready
    exact absurd ((idle_failed enc frame limit w.state.run).ready.symm.trans hready) (by simp)

theorem configuration_serve {enc : DeviceEncoder} {s s' : Life} {c : DeviceCall}
    (hs : Configuration enc s) (h : serve enc s c = some s') : Configuration enc s' := by
  obtain ⟨w1, w', ret, hensured, hcompressed, rfl⟩ := serve_eq_some h
  intro hready
  have hready1 := hcompressed.ready hready
  obtain ⟨es, hes, hopens⟩ := hcompressed.calls
  by_cases hcached : Cached enc s.run.toUsM2mEncoderRuntime c.src
  · -- the device is as it was, and so are the parameters
    have hw1 := hensured.cached hcached
    subst hw1
    obtain ⟨v, hopening, hv, hconfigured⟩ := hs hready1
    refine ⟨v, ?_, hcompressed.cached hv, hconfigured⟩
    rw [opening_cons_of_not]
    · exact hopening
    · intro e he
      rw [hes] at he
      exact hopens e (by simpa [begun, DeviceCall.world] using he)
  · -- the device has been opened for this frame
    have hreopened := hensured.changed hcached
    have hcalls : w1.calls ⊆ w'.calls := hes ▸ List.subset_append_left _ _
    refine ⟨⟨c, w'.calls⟩, ?_, hcompressed.cached hensured.cached_after, ?_⟩
    · exact opening_cons_of_mem (hcalls hreopened.attempted.mem) rfl
    · exact (hreopened.configured hready1).mono hcalls

/-- Every state of an encoder's life is settled, and configured as its parameters say. -/
theorem life_inv {enc : DeviceEncoder} {s : Life} (h : (lifeSystem enc).Reach s) :
    Settled s.run ∧ Configuration enc s := by
  refine System.ReachVia.inv (I := fun s => Settled s.run ∧ Configuration enc s) ?_ ?_ h
  · rintro s rfl
    refine ⟨.inl idle_init, fun hready => ?_⟩
    exact absurd hready (by simp [Life.init, DeviceRuntime.init, m2mEncoderRuntimeInit])
  · rintro s s' c ⟨hsettled, hconfiguration⟩ - hstep
    exact ⟨settled_serve hsettled hstep, configuration_serve hconfiguration hstep⟩

/-! ## 5. Recovery -/

/-- The device is opened first, and configured if it could be opened. -/
def Opens (enc : DeviceEncoder) (fd : Option Nat) (calls : List Call) : Prop :=
  ∃ later, calls = .openDevice enc.path fd :: later ∧
    (fd.isSome = true → ∃ e ∈ later, e.configures = true)

/-- The call opens the device, and configures it if it could be opened. -/
def Attempts (enc : DeviceEncoder) (run : DeviceRuntime) (c : DeviceCall) : Prop :=
  Opens enc c.env.prepare.fd (callsBy (c.program enc) (c.world run))

theorem callsBy_cached {enc : DeviceEncoder} {run : DeviceRuntime} {c : DeviceCall}
    (hready : run.ready = false) (hcached : Cached enc run.toUsM2mEncoderRuntime c.src) :
    callsBy (c.program enc) (c.world run) = [] := by
  refine callsBy_of_wp (P := fun calls => calls = []) (wp_mono ?_ (fun _ h => h.elim) ?_
    (compress_spec enc c.src c.nonempty c.forceKey c.env (c.world run)))
  · rintro ret w' ⟨w1, hensured, hcompressed⟩
    obtain rfl := hensured.cached hcached
    rcases hcompressed with ⟨-, -, rfl⟩ | ⟨hready1, -⟩
    · rfl
    · exact absurd (hready.symm.trans hready1) (by simp)
  · rintro - w' ⟨w1, hensured, hready1, -⟩
    obtain rfl := hensured.cached hcached
    exact absurd (hready.symm.trans hready1) (by simp)

theorem Attempted.append {enc : DeviceEncoder} {fd : Option Nat} {w w1 : World Memory Call}
    {calls es : List Call} (h : Attempted enc fd w w1) (hcalls : calls = w1.calls ++ es)
    (hnil : w.calls = []) : Opens enc fd calls := by
  have hlonger : Attempted enc fd w ⟨w1.state, calls⟩ := h.mono ⟨es, hcalls.symm⟩
  obtain ⟨later, hlater, hconf⟩ := hlonger
  exact ⟨later, by simpa [hnil] using hlater, hconf⟩

theorem attempts_of_changed {enc : DeviceEncoder} {run : DeviceRuntime} {c : DeviceCall}
    (hidle : Idle run) (hchanged : ¬Cached enc run.toUsM2mEncoderRuntime c.src) :
    Attempts enc run c := by
  have hcleanup : cleanupCalls run = [] := by
    simp [cleanupCalls, unmapped, hidle.ready, hidle.fd, hidle.inputBufs, hidle.outputBufs]
  have hnil : ((begun enc c.src c.forceKey c.env (c.world run)).after
      (cleanupCalls run)).calls = [] := by
    rw [hcleanup]
    rfl
  refine callsBy_of_wp (P := Opens enc c.env.prepare.fd) (wp_mono ?_ (fun _ h => h.elim) ?_
    (compress_spec enc c.src c.nonempty c.forceKey c.env (c.world run)))
  · rintro ret w' ⟨w1, hensured, hcompressed⟩
    obtain ⟨es, hes, -⟩ := hcompressed.calls
    exact (hensured.changed hchanged).attempted.append hes hnil
  · rintro - w' ⟨w1, hensured, -, hworking⟩
    obtain ⟨es, hes, -⟩ := hworking.calls
    exact (hensured.changed hchanged).attempted.append hes hnil

/-- **An encoder that is not ready opens its device exactly if the parameters have changed.** -/
theorem attempts_iff {enc : DeviceEncoder} {run : DeviceRuntime} {c : DeviceCall}
    (hidle : Idle run) :
    Attempts enc run c ↔ ¬Cached enc run.toUsM2mEncoderRuntime c.src := by
  constructor
  · rintro ⟨later, hlater, -⟩ hcached
    rw [callsBy_cached hidle.ready hcached] at hlater
    exact absurd hlater (by simp)
  · exact attempts_of_changed hidle

/-- The parameters kept are those of the last call. -/
theorem cached_serve {enc : DeviceEncoder} {s s' : Life} {c : DeviceCall}
    (h : serve enc s c = some s') : Cached enc s'.run.toUsM2mEncoderRuntime c.src := by
  obtain ⟨w1, w', ret, hensured, hcompressed, rfl⟩ := serve_eq_some h
  exact hcompressed.cached hensured.cached_after

/-- A call on an encoder that is not ready tries to make it ready. -/
def Recovers (enc : DeviceEncoder) (s : Life) (c : DeviceCall) : Prop :=
  s.run.ready = false → Attempts enc s.run c

/-- A call on an encoder that is not ready brings other parameters than those it has kept. -/
def Renewed (enc : DeviceEncoder) (s : Life) (c : DeviceCall) : Prop :=
  s.run.ready = false → ¬Cached enc s.run.toUsM2mEncoderRuntime c.src

/-- **The encoder recovers along a run, and its parameters are those of its device, exactly if
every call on an encoder that is not ready brings other parameters than the last ones.** -/
theorem recovers_along_iff (enc : DeviceEncoder) (cs : List DeviceCall) :
    (lifeSystem enc).Along (Configuration enc) (Recovers enc) Life.init cs ↔
      (lifeSystem enc).Along (fun _ => True) (Renewed enc) Life.init cs := by
  refine System.along_congr ?_ ?_ cs (.start rfl)
  · intro s hs
    exact ⟨(life_inv hs).2, trivial⟩
  · intro s c hs
    have hidle := fun hready => (life_inv hs).1.idle hready
    constructor
    · intro h hready
      exact (attempts_iff (hidle hready)).mp (h hready)
    · intro h hready
      exact (attempts_iff (hidle hready)).mpr (h hready)

/-- A device that grants everything, and maps one buffer of 64 bytes at each end. -/
def granting : PrepareAnswers where
  fd := some 7
  control _ := true
  inputFormat := some v4l2PixFmtYuyv
  outputFormat := some v4l2PixFmtH264
  parm := true
  input := ⟨some 1, fun _ => ⟨some 64, true, true⟩⟩
  output := ⟨some 1, fun _ => ⟨some 64, true, true⟩⟩
  inputOn := true
  outputOn := true

/-- A device that takes a frame and gives nothing for it. -/
def silent : CompressAnswers where
  keyForced := true
  grabbed := some ⟨0, 0, 0, 0, 0⟩
  nowTs := 5000000
  sent := true
  startTs := 5
  rounds := []
  released := none

/-- A frame of four bytes. -/
def smallFrame : UsFrame :=
  .ofBytes { FrameMeta.zero with width := 2, height := 1, format := v4l2PixFmtYuyv, stride := 4 }
    [1, 2, 3, 4]

def smallCall (prepare : PrepareAnswers) (compress : CompressAnswers) : DeviceCall where
  src := smallFrame
  nonempty := by decide
  dest := .ofBytes FrameMeta.zero []
  forceKey := false
  env := ⟨5, 5, 6, prepare, compress⟩

def sampleEncoder : DeviceEncoder := h264EncoderInit "H264" none 5000 30

/-- After the device has been silent once, the same frame does not open it again. -/
theorem same_frame_not_attempted :
    ¬∀ s, (lifeSystem sampleEncoder).Reach s → s.run.ready = false →
      ∀ c, Attempts sampleEncoder s.run c := by
  intro hall
  have hreturns : ((serve sampleEncoder Life.init (smallCall granting silent)).map
      fun s => s.run.ready) = some false := by
    decide +kernel
  obtain ⟨s, hs, hready⟩ := Option.map_eq_some_iff.mp hreturns
  have hreach : (lifeSystem sampleEncoder).Reach s :=
    .step (a := smallCall granting silent) (.start rfl) trivial hs
  have hattempts := hall s hreach hready (smallCall granting silent)
  exact (attempts_iff ((life_inv hreach).1.idle hready)).mp hattempts (cached_serve hs)

end TinyPilotKvm.M2m
