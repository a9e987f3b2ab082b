/-
# What a device can do to an M2M encoder (`us_m2m_encoder_compress` in `ustreamer/m2m.c`)

The index of the input buffer that the device gives is checked.  Nothing else is: a frame is copied
into that buffer whatever its mapped length, the index and the byte count of the output buffer are
used as they come, and an output of no bytes is left to the assertion of `us_frame_encoding_end`.
`survives_iff` says for which frames and answers a call comes to its end; every other call faults.
-/
import TinyPilotKvm.Ustreamer.M2mRecovery

namespace TinyPilotKvm.M2m

open Program

/-! ## 1. The output that answers a frame -/

/-- An output with the timestamp that the frame was sent with. -/
def Answers (nowTs : Nat) (output : V4l2Buffer) : Prop :=
  ((nowTs / 1000000 : Nat) : Int) = output.tvSec ∧ ((nowTs % 1000000 : Nat) : Int) = output.tvUsec

instance (nowTs : Nat) (output : V4l2Buffer) : Decidable (Answers nowTs output) :=
  inferInstanceAs (Decidable (_ ∧ _))

/-- A turn in time, in which the device has something. -/
def Round.Ready (a : CompressAnswers) (round : Round) : Prop :=
  round.now ≤ a.startTs + 1 ∧ round.poll = .revents true

instance (a : CompressAnswers) (round : Round) : Decidable (round.Ready a) :=
  inferInstanceAs (Decidable (_ ∧ _))

/-- The loop goes on after this turn: nothing has come, or an output of another frame. -/
def Round.goesOn (a : CompressAnswers) (round : Round) : Bool :=
  decide (round.now ≤ a.startTs + 1) &&
    match round.poll with
    | .failed => false
    | .interrupted => true
    | .revents false => true
    | .revents true =>
      match round.fetched with
      | none => false
      | some output => !decide (Answers a.nowTs output.toV4l2Buffer) && round.requeued

/-- The output that answers the frame in this turn, and whether it is queued again. -/
def Round.answer (a : CompressAnswers) (round : Round) : Option (Fetched × Bool) :=
  if round.Ready a then
    match round.fetched with
    | none => none
    | some output =>
      if Answers a.nowTs output.toV4l2Buffer then some (output, round.requeued) else none
  else none

/-- The output that the loop takes. -/
def answerIn (a : CompressAnswers) (rounds : List Round) : Option (Fetched × Bool) :=
  (rounds.dropWhile (Round.goesOn a)).head?.bind (Round.answer a)

@[simp] theorem answerIn_nil (a : CompressAnswers) : answerIn a [] = none := rfl

theorem answerIn_cons_of_goesOn {a : CompressAnswers} {round : Round} {rounds : List Round}
    (h : round.goesOn a = true) : answerIn a (round :: rounds) = answerIn a rounds := by
  unfold answerIn
  rw [List.dropWhile_cons_of_pos h]

theorem answerIn_cons_of_not {a : CompressAnswers} {round : Round} {rounds : List Round}
    (h : round.goesOn a = false) : answerIn a (round :: rounds) = round.answer a := by
  unfold answerIn
  rw [List.dropWhile_cons_of_neg (by simp [h])]
  rfl

/-! ## 2. What fits -/

/-- The output that is taken lies in a mapped buffer, and is not empty if it gives one back. -/
def OutputFits (output : List Nat) (answer : Option (Fetched × Bool)) : Prop :=
  ∀ fetched requeued, answer = some (fetched, requeued) →
    ∃ length, output[fetched.index]? = some length ∧ fetched.bytesused ≤ length ∧
      (requeued = true → 0 < fetched.bytesused)

theorem outputFits_none (output : List Nat) : OutputFits output none :=
  fun _ _ h => absurd h (by simp)

theorem outputFits_some {output : List Nat} {fetched : Fetched} {requeued : Bool} :
    OutputFits output (some (fetched, requeued)) ↔
      ∃ length, output[fetched.index]? = some length ∧ fetched.bytesused ≤ length ∧
        (requeued = true → 0 < fetched.bytesused) := by
  constructor
  · intro h
    exact h fetched requeued rfl
  · rintro h fetched' requeued' heq
    obtain ⟨rfl, rfl⟩ := Prod.ext_iff.mp (Option.some.inj heq)
    exact h

theorem getElem?_lengths {bufs : Option (List UsM2mBuffer)} {ls : List Nat}
    (h : lengths bufs = some ls) (index : Nat) :
    ls[index]? = (bufs.bind (·[index]?)).map UsM2mBuffer.allocated := by
  obtain ⟨bs, rfl, rfl⟩ := Option.map_eq_some_iff.mp h
  simp

theorem takeOutput_safe (enc : DeviceEncoder) (fetched : Fetched) (requeued : Bool)
    {w : World Memory Call} {ls : List Nat} (hls : lengths w.state.run.outputBufs = some ls) :
    wp (takeOutput enc fetched.toV4l2Buffer >>= fun _ =>
        call (.queue .output fetched.toV4l2Buffer none) requeued)
      (fun _ w' => 0 < w'.state.dest.used) (fun _ => True) (fun _ _ => False) w ↔
      OutputFits ls (some (fetched, requeued)) := by
  rw [outputFits_some, getElem?_lengths hls, wp_bind, takeOutput, wp_bind, wp_current]
  cases hbuf : w.state.run.outputBufs.bind (·[fetched.index]?) with
  | none => simp [wp_fault]
  | some buf =>
    simp only [wp_bind, wp_require, wp_updateDest, wp_call, Option.map_some, Option.some.injEq]
    constructor
    · rintro ⟨hfits, hnot⟩
      have hle : fetched.bytesused ≤ buf.allocated := by
        by_contra hlt
        exact hnot hlt
      exact ⟨buf.allocated, rfl, hle, (hfits hle).1⟩
    · rintro ⟨length, rfl, hle, hused⟩
      exact ⟨fun _ => ⟨hused, fun _ => trivial⟩, fun hnot => hnot hle⟩

theorem wp_releaseInput {released : Bool} {a : CompressAnswers}
    {Q : Unit → World Memory Call → Prop} {E : World Memory Call → Prop}
    {F : Fault → World Memory Call → Prop} {w : World Memory Call} :
    wp (releaseInput released a) Q E F w ↔
      (released = true → Q () w) ∧
      (released = false →
        (a.released.isSome = true → Q () (w.after [.dequeue .input a.released])) ∧
        (a.released = none → E (w.after [.dequeue .input a.released]))) := by
  unfold releaseInput
  rw [wp_ite, wp_bind, wp_ask, Bool.not_eq_true]
  refine and_congr_right fun _ => forall_congr' fun _ => and_congr_left fun _ => ?_
  rw [Option.isSome_iff_exists]
  exact ⟨fun h ⟨b, hb⟩ => h b hb, fun h b hb => h ⟨b, hb⟩⟩

/-- The world after an output buffer is dequeued. -/
def afterFetch (answer : Option Fetched) (fetched : Fetched) (w : World Memory Call) :
    World Memory Call :=
  withRun (w.after [.dequeue .output (answer.map Fetched.toV4l2Buffer)])
    { w.state.run with
      outputBufs := w.state.run.outputBufs.map (·.modify fetched.index (·.fill fetched.written)) }

theorem wp_fetchOutput {answer : Option Fetched} {Q : Fetched → World Memory Call → Prop}
    {E : World Memory Call → Prop} {F : Fault → World Memory Call → Prop}
    {w : World Memory Call} :
    wp (fetchOutput answer) Q E F w ↔
      (∀ fetched, answer = some fetched → Q fetched (afterFetch answer fetched w)) ∧
      (answer = none → E (w.after [.dequeue .output (answer.map Fetched.toV4l2Buffer)])) := by
  unfold fetchOutput
  rw [wp_bind, wp_ask]
  exact Iff.rfl

/-! ## 3. The loop -/

section

variable {enc : DeviceEncoder} {a : CompressAnswers} {sent : V4l2Buffer} {ls : List Nat}
  {round : Round} {rounds : List Round}

/-- No output is taken in a turn that is late or in which the device fails. -/
theorem answerIn_cons_of_stop (hstop : round.goesOn a = false) (hready : ¬round.Ready a) :
    answerIn a (round :: rounds) = none := by
  rw [answerIn_cons_of_not hstop, Round.answer, if_neg hready]

/-- A turn in time in which nothing has come. -/
theorem goesOn_of_idle (hnow : round.now ≤ a.startTs + 1) (hfailed : round.poll ≠ .failed)
    (hpoll : round.poll ≠ .revents true) : round.goesOn a = true := by
  cases hanswer : round.poll with
  | failed => exact absurd hanswer hfailed
  | interrupted => simp [Round.goesOn, hnow, hanswer]
  | revents pollin =>
    cases pollin with
    | true => exact absurd hanswer hpoll
    | false => simp [Round.goesOn, hnow, hanswer]

/-- The rest of a turn in which an output has been dequeued. -/
theorem fetched_safe (hsent : ∀ buf, SameStamp sent buf ↔ Answers a.nowTs buf)
    (hready : round.Ready a) {fetched : Fetched} (hfetched : round.fetched = some fetched)
    (ih : ∀ w : World Memory Call, lengths w.state.run.outputBufs = some ls →
      (wp (awaitOutput enc a sent true rounds) (fun _ w' => 0 < w'.state.dest.used)
        (fun _ => True) (fun _ _ => False) w ↔ OutputFits ls (answerIn a rounds)))
    {w : World Memory Call} (hls : lengths w.state.run.outputBufs = some ls) :
    wp (if SameStamp sent fetched.toV4l2Buffer then do
          takeOutput enc fetched.toV4l2Buffer
          call (.queue .output fetched.toV4l2Buffer none) round.requeued
        else do
          call (.queue .output fetched.toV4l2Buffer none) round.requeued
          awaitOutput enc a sent true rounds)
      (fun _ w' => 0 < w'.state.dest.used) (fun _ => True) (fun _ _ => False) w ↔
      OutputFits ls (answerIn a (round :: rounds)) := by
  have hgoes : round.goesOn a =
      (!decide (Answers a.nowTs fetched.toV4l2Buffer) && round.requeued) := by
    simp [Round.goesOn, hready.1, hready.2, hfetched]
  by_cases hsame : SameStamp sent fetched.toV4l2Buffer
  · have hanswers := (hsent _).mp hsame
    rw [if_pos hsame, answerIn_cons_of_not (by rw [hgoes]; simp [hanswers]), Round.answer,
      if_pos hready, hfetched]
    dsimp only
    rw [if_pos hanswers]
    exact takeOutput_safe enc fetched round.requeued hls
  · have hanswers : ¬Answers a.nowTs fetched.toV4l2Buffer := fun h => hsame ((hsent _).mpr h)
    rw [if_neg hsame, wp_bind, wp_call]
    cases hrequeued : round.requeued with
    | true =>
      rw [answerIn_cons_of_goesOn (by rw [hgoes]; simp [hanswers, hrequeued]), ← ih (w.after _) hls]
      exact ⟨fun h => h.1 rfl, fun h => ⟨fun _ => h, fun h0 => absurd h0 (by simp)⟩⟩
    | false =>
      rw [answerIn_cons_of_not (by rw [hgoes]; simp [hrequeued]), Round.answer, if_pos hready,
        hfetched]
      dsimp only
      rw [if_neg hanswers]
      exact ⟨fun _ => outputFits_none ls, fun _ => ⟨fun h => absurd h (by simp), fun _ => trivial⟩⟩

/-- A turn in which the device has something. -/
theorem ready_safe (hsent : ∀ buf, SameStamp sent buf ↔ Answers a.nowTs buf)
    (hready : round.Ready a) (released : Bool)
    (ih : ∀ w : World Memory Call, lengths w.state.run.outputBufs = some ls →
      (wp (awaitOutput enc a sent true rounds) (fun _ w' => 0 < w'.state.dest.used)
        (fun _ => True) (fun _ _ => False) w ↔ OutputFits ls (answerIn a rounds)))
    {w : World Memory Call} (hls : lengths w.state.run.outputBufs = some ls) :
    wp (do
        releaseInput released a
        let output ← fetchOutput round.fetched
        if SameStamp sent output.toV4l2Buffer then do
          takeOutput enc output.toV4l2Buffer
          call (.queue .output output.toV4l2Buffer none) round.requeued
        else do
          call (.queue .output output.toV4l2Buffer none) round.requeued
          awaitOutput enc a sent true rounds)
      (fun _ w' => 0 < w'.state.dest.used) (fun _ => True) (fun _ _ => False) w ↔
      ((released || a.released.isSome) = true → OutputFits ls (answerIn a (round :: rounds))) := by
  have hrest : ∀ w : World Memory Call, lengths w.state.run.outputBufs = some ls →
      (wp (fetchOutput round.fetched >>= fun output =>
          if SameStamp sent output.toV4l2Buffer then do
            takeOutput enc output.toV4l2Buffer
            call (.queue .output output.toV4l2Buffer none) round.requeued
          else do
            call (.queue .output output.toV4l2Buffer none) round.requeued
            awaitOutput enc a sent true rounds)
        (fun _ w' => 0 < w'.state.dest.used) (fun _ => True) (fun _ _ => False) w ↔
        OutputFits ls (answerIn a (round :: rounds))) := by
    intro w hls
    rw [wp_bind, wp_fetchOutput]
    cases hfetched : round.fetched with
    | none =>
      have hstop : round.goesOn a = false := by simp [Round.goesOn, hready.2, hfetched]
      rw [answerIn_cons_of_not hstop, Round.answer, if_pos hready, hfetched]
      exact ⟨fun _ => outputFits_none ls,
        fun _ => ⟨fun _ h => absurd h (by simp), fun _ => trivial⟩⟩
    | some fetched =>
      have hlater := fetched_safe hsent hready hfetched ih
        (w := afterFetch (some fetched) fetched w) (by
          rw [afterFetch, run_withRun, lengths_modify]
          exact hls)
      rw [← hlater]
      constructor
      · intro h
        exact h.1 fetched rfl
      · intro h
        refine ⟨?_, fun h0 => absurd h0 (by simp)⟩
        rintro fetched' heq
        obtain rfl := Option.some.inj heq
        exact h
  rw [wp_bind, wp_releaseInput]
  cases released with
  | true =>
    rw [hrest w hls]
    simp
  | false =>
    rw [hrest (w.after _) hls]
    simp

end

theorem awaitOutput_safe (enc : DeviceEncoder) (a : CompressAnswers) (sent : V4l2Buffer)
    (hsent : ∀ buf, SameStamp sent buf ↔ Answers a.nowTs buf) {ls : List Nat} :
    ∀ (rounds : List Round) (released : Bool) (w : World Memory Call),
      lengths w.state.run.outputBufs = some ls →
      (wp (awaitOutput enc a sent released rounds) (fun _ w' => 0 < w'.state.dest.used)
        (fun _ => True) (fun _ _ => False) w ↔
      ((released || a.released.isSome) = true → OutputFits ls (answerIn a rounds))) := by
  intro rounds
  induction rounds with
  | nil =>
    intro released w _
    rw [awaitOutput, wp_fail]
    exact ⟨fun _ _ => outputFits_none ls, fun _ => trivial⟩
  | cons round rounds ih =>
    intro released w hls
    rw [awaitOutput, wp_bind]
    by_cases hnow : round.now ≤ a.startTs + 1
    · rw [wp_check_of_pos hnow, wp_bind, wp_say, wp_bind]
      have hls' : lengths (w.after [.poll round.poll]).state.run.outputBufs = some ls := hls
      by_cases hfailed : round.poll = .failed
      · rw [wp_check_of_neg (fun h => h hfailed),
          answerIn_cons_of_stop (by simp [Round.goesOn, hfailed])
            fun h => absurd (hfailed.symm.trans h.2) (by simp)]
        exact ⟨fun _ _ => outputFits_none ls, fun _ => trivial⟩
      · rw [wp_check_of_pos hfailed]
        by_cases hpoll : round.poll = .revents true
        · rw [if_pos hpoll]
          refine ready_safe hsent ⟨hnow, hpoll⟩ released (fun w hls => ?_) hls'
          rw [ih true w hls]
          simp
        · rw [if_neg hpoll, answerIn_cons_of_goesOn (goesOn_of_idle hnow hfailed hpoll)]
          exact ih released _ hls'
    · rw [wp_check_of_neg hnow, answerIn_cons_of_stop (by simp [Round.goesOn, hnow])
        fun h => hnow h.1]
      exact ⟨fun _ _ => outputFits_none ls, fun _ => trivial⟩

/-! ## 4. The input -/

/-- The frame is not longer than the mapped buffer it is copied to. -/
def InputFits (input : Option (List Nat)) (forceKey : Bool) (src : UsFrame)
    (a : CompressAnswers) : Prop :=
  (forceKey = true → a.keyForced = true) → ∀ ls, input = some ls → ∀ buf, a.grabbed = some buf →
    ∀ length, ls[buf.index]? = some length → src.used ≤ length

/-- The device takes the frame. -/
def Sends (input : Option (List Nat)) (forceKey : Bool) (a : CompressAnswers) : Prop :=
  (forceKey = true → a.keyForced = true) ∧
    (∀ ls, input = some ls → ∃ buf, a.grabbed = some buf ∧ buf.index < ls.length) ∧ a.sent = true

/-- The mapped lengths of the input, none in DMA mode. -/
def inputLengths (run : DeviceRuntime) : Option (List Nat) :=
  if run.pDma then none else lengths run.inputBufs

theorem wp_forceKeyFrame {forceKey : Bool} {a : CompressAnswers}
    {Q : Unit → World Memory Call → Prop} {E : World Memory Call → Prop}
    {F : Fault → World Memory Call → Prop} {w : World Memory Call} :
    wp (forceKeyFrame forceKey a) Q E F w ↔
      (forceKey = true → (a.keyForced = true → Q () (w.after
          [.setControl .mpegVideoForceKeyFrame 1 a.keyForced])) ∧
        (a.keyForced = false → E (w.after [.setControl .mpegVideoForceKeyFrame 1 a.keyForced]))) ∧
      (forceKey = false → Q () w) := by
  unfold forceKeyFrame
  rw [wp_ite, wp_call, Bool.not_eq_true]
  exact Iff.rfl

theorem queueInput_safe {sent : V4l2Buffer} {dma : Option Int} {a : CompressAnswers} {P : Prop}
    {w : World Memory Call} :
    wp (queueInput sent dma a) (fun _ _ => P) (fun _ => True) (fun _ _ => False) w ↔
      (a.sent = true → P) := by
  rw [queueInput, wp_bind, wp_call]
  exact ⟨fun h => h.1, fun h => ⟨h, fun _ => trivial⟩⟩

theorem copyInput_safe (src : UsFrame) (index : Nat) (sent : V4l2Buffer) (dma : Option Int)
    (a : CompressAnswers) (P : Prop) {w : World Memory Call} {ls : List Nat}
    (hdma : w.state.run.pDma = false) (hls : lengths w.state.run.inputBufs = some ls) :
    wp (copyInput src index >>= fun _ => queueInput sent dma a) (fun _ _ => P) (fun _ => True)
      (fun _ _ => False) w ↔
      (∃ length, ls[index]? = some length ∧ src.used ≤ length) ∧ (a.sent = true → P) := by
  rw [wp_bind, copyInput, wp_bind, wp_current, if_neg (by simp [hdma]), getElem?_lengths hls]
  cases hbuf : w.state.run.inputBufs.bind (·[index]?) with
  | none => simp [wp_fault]
  | some buf =>
    simp only [wp_bind, wp_require, wp_updateRun, Option.map_some, Option.some.injEq,
      queueInput_safe]
    constructor
    · rintro ⟨hfits, hnot⟩
      have hle : src.used ≤ buf.allocated := by
        by_contra hlt
        exact hnot hlt
      exact ⟨⟨buf.allocated, rfl, hle⟩, hfits hle⟩
    · rintro ⟨⟨length, rfl, hle⟩, hP⟩
      exact ⟨fun _ => hP, fun hnot => hnot hle⟩

/-- The sending of a frame, after the key frame is asked for. -/
theorem fill_safe (src : UsFrame) (a : CompressAnswers) (dma : Option Int) {P : Prop}
    {w : World Memory Call} (hs : Streaming w.state.run) :
    wp (do
        let grabbed ← grabInput a
        copyInput src grabbed.index
        queueInput (sentBuffer src a.nowTs grabbed) dma a)
      (fun _ _ => P) (fun _ => True) (fun _ _ => False) w ↔
      InputFits (inputLengths w.state.run) false src a ∧
        (Sends (inputLengths w.state.run) false a → P) := by
  rw [wp_bind, grabInput, wp_bind, wp_current, wp_ite]
  cases hdma : w.state.run.pDma with
  | true =>
    have hnone : inputLengths w.state.run = none := if_pos hdma
    rw [hnone]
    have hcopy : ∀ index, wp (copyInput src index >>= fun _ =>
        queueInput (sentBuffer src a.nowTs ⟨0, 0, 0, 0, 0⟩) dma a)
        (fun _ _ => P) (fun _ => True) (fun _ _ => False) w ↔ (a.sent = true → P) := by
      intro index
      rw [wp_bind, copyInput, wp_bind, wp_current, if_pos hdma, wp_pure, queueInput_safe]
    rw [wp_pure, hcopy]
    constructor
    · rintro ⟨h, -⟩
      refine ⟨fun _ ls hls => absurd hls (by simp), ?_⟩
      rintro ⟨-, -, hsent⟩
      exact h rfl hsent
    · rintro ⟨-, h⟩
      refine ⟨fun _ hsent => h ⟨by simp, by simp, hsent⟩, fun h0 => absurd rfl h0⟩
  | false =>
    have hsome : inputLengths w.state.run = lengths w.state.run.inputBufs :=
      if_neg (by simp [hdma])
    obtain ⟨ls, hls, hcount⟩ := hs.input hdma
    rw [hsome, hls, wp_bind, wp_ask]
    cases hgrabbed : a.grabbed with
    | none =>
      refine ⟨fun _ => ⟨fun _ ls _ buf hbuf => absurd (hgrabbed.symm.trans hbuf) (by simp), ?_⟩, ?_⟩
      · rintro ⟨-, hfits, -⟩
        obtain ⟨buf, hbuf, -⟩ := hfits ls rfl
        exact absurd (hgrabbed.symm.trans hbuf) (by simp)
      · exact fun _ => ⟨fun h => absurd h (by simp), fun _ => ⟨fun _ h => absurd h (by simp),
          fun _ => trivial⟩⟩
    | some grabbed =>
      have hcopy := copyInput_safe src grabbed.index (sentBuffer src a.nowTs grabbed) dma a P
        (w := w.after [.dequeue .input (some grabbed)]) hdma hls
      constructor
      · rintro ⟨-, hrun⟩
        have hgrab := (hrun (by simp)).1 grabbed rfl
        rw [wp_bind, wp_check, ← hcount] at hgrab
        have hfit := fun hlt => hcopy.mp (hgrab.1 hlt)
        refine ⟨fun _ ls' hls' buf hbuf length hlength => ?_, ?_⟩
        · obtain rfl := Option.some.inj hls'
          obtain rfl := Option.some.inj (hgrabbed.symm.trans hbuf)
          obtain ⟨⟨length', hlength', hle⟩, -⟩ :=
            hfit (List.getElem?_eq_some_iff.mp hlength).1
          rwa [Option.some.inj (hlength.symm.trans hlength')]
        · rintro ⟨-, hfits, hsent⟩
          obtain ⟨buf, hbuf, hlt⟩ := hfits ls rfl
          obtain rfl := Option.some.inj (hgrabbed.symm.trans hbuf)
          exact (hfit hlt).2 hsent
      · rintro ⟨hin, hP⟩
        refine ⟨fun h => absurd h (by simp), fun _ => ⟨?_, fun h => absurd h (by simp)⟩⟩
        intro buf hbuf
        obtain rfl := Option.some.inj hbuf
        rw [wp_bind, wp_check, ← hcount]
        refine ⟨fun hlt => hcopy.mpr ⟨?_, fun hsent => ?_⟩, fun _ => trivial⟩
        · have hlength := List.getElem?_eq_getElem hlt
          exact ⟨_, hlength, hin (by simp) ls rfl grabbed hgrabbed _ hlength⟩
        · refine hP ⟨by simp, fun ls' hls' => ?_, hsent⟩
          obtain rfl := Option.some.inj hls'
          exact ⟨grabbed, hgrabbed, hlt⟩

theorem sends_of_forced {input : Option (List Nat)} {forceKey : Bool} {a : CompressAnswers}
    (h : forceKey = true → a.keyForced = true) : Sends input forceKey a ↔ Sends input false a :=
  ⟨fun hs => ⟨by simp, hs.2⟩, fun hs => ⟨h, hs.2⟩⟩

theorem inputFits_of_forced {input : Option (List Nat)} {forceKey : Bool} {src : UsFrame}
    {a : CompressAnswers} (h : forceKey = true → a.keyForced = true) :
    InputFits input forceKey src a ↔ InputFits input false src a :=
  ⟨fun hin _ => hin h, fun hin _ => hin (by simp)⟩

theorem sendInput_safe (src : UsFrame) (forceKey : Bool) (a : CompressAnswers) {P : Prop}
    {w : World Memory Call} (hs : Streaming w.state.run) :
    wp (sendInput src forceKey a) (fun _ _ => P) (fun _ => True) (fun _ _ => False) w ↔
      InputFits (inputLengths w.state.run) forceKey src a ∧
        (Sends (inputLengths w.state.run) forceKey a → P) := by
  rw [sendInput, wp_bind, wp_current, wp_bind, wp_require_of_pos hs.ready, wp_bind,
    wp_forceKeyFrame]
  by_cases hforced : forceKey = true → a.keyForced = true
  · rw [inputFits_of_forced hforced, sends_of_forced hforced]
    cases forceKey with
    | false =>
      rw [← fill_safe src a (inputDma w.state.run src) hs]
      exact ⟨fun h => h.2 rfl, fun h => ⟨fun h0 => absurd h0 (by simp), fun _ => h⟩⟩
    | true =>
      refine Iff.trans ?_ (fill_safe src a (inputDma w.state.run src)
        (w := w.after [.setControl .mpegVideoForceKeyFrame 1 a.keyForced]) hs)
      have hkey := hforced rfl
      constructor
      · exact fun h => (h.1 rfl).1 hkey
      · refine fun h => ⟨fun _ => ⟨fun _ => h, fun h0 => ?_⟩, fun h0 => absurd h0 (by simp)⟩
        exact absurd (hkey.symm.trans h0) (by simp)
  · have hforce : forceKey = true := by
      by_contra h
      exact hforced fun h0 => absurd h0 h
    have hkey : a.keyForced = false := by
      by_contra h
      exact hforced fun _ => by simpa using h
    constructor
    · exact fun _ => ⟨fun h => absurd h hforced, fun h => absurd h.1 hforced⟩
    · refine fun _ => ⟨fun _ => ⟨fun h => ?_, fun _ => trivial⟩, fun h => ?_⟩
      · exact absurd (hkey.symm.trans h) (by simp)
      · exact absurd (hforce.symm.trans h) (by simp)

/-! ## 5. One call -/

/-- What a ready encoder needs of the frame and of the device. -/
def CompressFits (input : Option (List Nat)) (output : List Nat) (forceKey : Bool) (src : UsFrame)
    (a : CompressAnswers) : Prop :=
  InputFits input forceKey src a ∧
    (Sends input forceKey a → (input = none → a.released.isSome = true) →
      OutputFits output (answerIn a a.rounds))

/-- The buffer that `sendInput` returns has the frame's timestamp. -/
theorem sendInput_stamp (src : UsFrame) (forceKey : Bool) (a : CompressAnswers)
    (w : World Memory Call) :
    wp (sendInput src forceKey a) (fun sent w' => Working w w' ∧
        ∀ buf, SameStamp sent buf ↔ Answers a.nowTs buf) (fun _ => True) (fun _ _ => True) w := by
  have hstamp : wp (sendInput src forceKey a)
      (fun sent _ => ∀ buf, SameStamp sent buf ↔ Answers a.nowTs buf) (fun _ => True)
      (fun _ _ => True) w := by
    unfold sendInput
    refine wp_bind_of_last fun mem w1 => wp_bind_of_last fun _ w2 => ?_
    refine wp_bind_of_last fun _ w3 => wp_bind_of_last fun grabbed w4 => ?_
    refine wp_bind_of_last fun _ w5 => ?_
    rw [queueInput, wp_bind, wp_call]
    exact ⟨fun _ buf => Iff.rfl, fun _ => trivial⟩
  exact wp_mono (fun _ _ h => h) (fun _ _ => trivial) (fun _ _ _ => trivial)
    (wp_and (working_sendInput src forceKey a w) hstamp)

theorem inputLengths_eq_none_iff {run : DeviceRuntime} (hs : Streaming run) :
    inputLengths run = none ↔ run.pDma = true := by
  unfold inputLengths
  cases hdma : run.pDma with
  | true => simp
  | false =>
    obtain ⟨ls, hls, -⟩ := hs.input hdma
    simp [hls]

theorem compressRaw_safe (enc : DeviceEncoder) (src : UsFrame) (forceKey : Bool)
    (a : CompressAnswers) {w : World Memory Call} (hs : Streaming w.state.run) {output : List Nat}
    (houtput : lengths w.state.run.outputBufs = some output) :
    wp (encoderCompressRaw enc src forceKey a) (fun _ w' => 0 < w'.state.dest.used)
      (fun _ => True) (fun _ _ => False) w ↔
      CompressFits (inputLengths w.state.run) output forceKey src a := by
  have hdma : (inputLengths w.state.run = none → a.released.isSome = true) ↔
      ((!w.state.run.pDma) || a.released.isSome) = true := by
    rw [inputLengths_eq_none_iff hs]
    cases w.state.run.pDma with
    | true => simp
    | false => simp
  rw [encoderCompressRaw, wp_bind, CompressFits, hdma, ← sendInput_safe src forceKey a hs]
  refine wp_congr_of (sendInput_stamp src forceKey a w) ?_
  rintro sent w1 ⟨hworking, hstamp⟩
  rw [wp_bind, wp_current, hworking.base]
  exact awaitOutput_safe enc a sent hstamp a.rounds _ w1 (hworking.output.trans houtput)

theorem encodeFrame_safe (enc : DeviceEncoder) (src : UsFrame) (forceKey : Bool) (env : DeviceEnv)
    {w : World Memory Call} (hs : Streaming w.state.run) {output : List Nat}
    (houtput : lengths w.state.run.outputBufs = some output) :
    wp (encodeFrame enc src forceKey env) (fun ret _ => ret = 0 ∨ ret = -1) (fun _ => False)
      (fun _ _ => False) w ↔
      CompressFits (inputLengths w.state.run) output forceKey src env.compress := by
  rw [← compressRaw_safe enc src forceKey env.compress hs houtput, encodeFrame, wp_bind,
    wp_attempt]
  have hend : ∀ w1 : World Memory Call,
      wp (do
          let mem ← current
          require (0 < mem.dest.used) Fault.assertion
          updateDest fun dest => { dest with encodeEndTs := env.encodeEndTs }
          updateRun fun run =>
            { run with lastOnline := some src.online, lastEncodeTs := env.encodeEndTs }
          pure (0 : Int)) (fun ret _ => ret = 0 ∨ ret = -1) (fun _ => False) (fun _ _ => False) w1 ↔
        0 < w1.state.dest.used := by
    intro w1
    rw [wp_bind, wp_current, wp_bind, wp_require]
    constructor
    · intro h
      by_contra hnot
      exact h.2 hnot
    · exact fun h => ⟨fun _ => .inl rfl, fun hnot => hnot h⟩
  constructor
  · refine wp_mono ?_ (fun _ _ => trivial) (fun _ _ h => h)
    rintro - w1 h1
    rw [if_pos rfl] at h1
    exact (hend w1).mp h1
  · refine wp_mono ?_ ?_ (fun _ _ h => h)
    · rintro - w1 h1
      rw [if_pos rfl]
      exact (hend w1).mpr h1
    · rintro w1 -
      rw [if_neg (by simp)]
      exact .inr rfl

/-- The mapped buffers of a session. -/
structure Buffers where
  input : Option (List Nat)
  output : List Nat

/-- The buffers that a call works with, if it gets as far: those of the open device if the frame's
parameters are known, and else those that the device grants now. -/
def callBuffers (enc : DeviceEncoder) (run : DeviceRuntime) (c : DeviceCall) : Option Buffers :=
  if Cached enc run.toUsM2mEncoderRuntime c.src then
    if run.ready then some ⟨inputLengths run, (lengths run.outputBufs).getD []⟩ else none
  else (session enc c.src c.env.prepare).map fun s => ⟨s.input, s.output⟩

/-- Whether the call asks for a key frame. -/
def DeviceCall.wantsKey (enc : DeviceEncoder) (run : DeviceRuntime) (c : DeviceCall) : Bool :=
  (m2mEncoderForceKey enc.toUsM2mEncoder run.toUsM2mEncoderRuntime c.src c.forceKey c.env.now).2

/-- The frame fits its input buffer, and the output that answers it lies in a mapped one. -/
def Fits (enc : DeviceEncoder) (run : DeviceRuntime) (c : DeviceCall) : Prop :=
  ∀ bufs, callBuffers enc run c = some bufs →
    CompressFits bufs.input bufs.output (c.wantsKey enc run) c.src c.env.compress

theorem inputLengths_session {enc : DeviceEncoder} {frame : UsFrame} {a : PrepareAnswers}
    {s : Session} (h : session enc frame a = some s) (run : DeviceRuntime) :
    inputLengths (s.runtime frame (caching enc frame (closed run))) = s.input := by
  have hinput := inputGranted_of_started (session_eq_some h).2.1
  have hdma : (s.runtime frame (caching enc frame (closed run))).pDma = frameDma enc frame := rfl
  rw [inputLengths, hdma]
  cases hframe : frameDma enc frame with
  | true =>
    rw [hframe, inputGranted, if_pos rfl] at hinput
    obtain ⟨count, -, hcount⟩ := Option.map_eq_some_iff.mp hinput
    exact congrArg Prod.snd hcount
  | false =>
    obtain ⟨ls, hls, -⟩ := input_of_session h hframe
    rw [Session.runtime, hls]
    exact lengths_ofLength ls

/-- Whether a call comes to its end, by the runtime that `_m2m_encoder_ensure` leaves. -/
theorem ensured_safe {enc : DeviceEncoder} {c : DeviceCall} {run : DeviceRuntime}
    (hsettled : Settled run) {w1 : World Memory Call}
    (hensured : Ensured enc c.src c.env.prepare
      (begun enc c.src c.forceKey c.env (c.world run)) w1) :
    (w1.state.run.ready = false ∧ callBuffers enc run c = none) ∨
      (Streaming w1.state.run ∧ ∃ output, lengths w1.state.run.outputBufs = some output ∧
        callBuffers enc run c = some ⟨inputLengths w1.state.run, output⟩) := by
  have hcases := hensured.cases
  simp only [run_begun, run_world] at hcases
  unfold callBuffers
  rcases hcases with ⟨hcached, rfl⟩ | ⟨hchanged, ⟨s, hsession, hrun⟩ | ⟨hnone, limit, hrun⟩⟩
  · rw [if_pos hcached, run_begun, run_world]
    cases hready : run.ready with
    | false => exact .inl ⟨rfl, rfl⟩
    | true =>
      have hs := hsettled.streaming hready
      obtain ⟨output, houtput, -⟩ := hs.output
      refine .inr ⟨hs, output, houtput, ?_⟩
      rw [if_pos rfl, houtput]
      rfl
  · rw [if_neg hchanged, hsession, hrun]
    refine .inr ⟨streaming_session hsession _, s.output, lengths_ofLength s.output, ?_⟩
    rw [inputLengths_session hsession]
    rfl
  · rw [if_neg hchanged, hnone, hrun]
    exact .inl ⟨(idle_failed enc c.src limit _).ready, rfl⟩

/-- A call is what follows `_m2m_encoder_ensure`. -/
theorem wp_program {enc : DeviceEncoder} {c : DeviceCall} {run : DeviceRuntime}
    {w1 : World Memory Call}
    (hw1 : encoderEnsure enc c.src c.env.prepare
      (begun enc c.src c.forceKey c.env (c.world run)) = .ok () w1)
    {Q : Int → World Memory Call → Prop} {E : World Memory Call → Prop}
    {F : Fault → World Memory Call → Prop} :
    wp (c.program enc) Q E F (c.world run) ↔
      wp (if w1.state.run.ready = false then pure (-1)
        else encodeFrame enc c.src (c.wantsKey enc run) c.env) Q E F w1 := by
  rw [DeviceCall.program, encoderCompress, wp_bind, wp_current, wp_bind,
    wp_require_of_pos c.nonempty, wp_bind, wp_updateDest, wp_bind]
  exact wp_of_ok hw1

/-- **What a device can do to the encoder.**  In every reachable state a call returns success or
failure, without a fault, exactly if the frame fits its input buffer and the output that answers it
lies in a mapped one and is not empty. -/
theorem survives_iff (enc : DeviceEncoder) {s : Life} (h : (lifeSystem enc).Reach s)
    (c : DeviceCall) :
    (∃ ret w', c.program enc (c.world s.run) = .ok ret w' ∧ (ret = 0 ∨ ret = -1)) ↔
      Fits enc s.run c := by
  have hsettled := (life_inv h).1
  obtain ⟨_, w1, hw1, hensured⟩ := exists_ok_of_wp
    (ensure_spec enc c.src c.env.prepare (begun enc c.src c.forceKey c.env (c.world s.run)))
  have hprogram : (∃ ret w', c.program enc (c.world s.run) = .ok ret w' ∧ (ret = 0 ∨ ret = -1)) ↔
      wp (c.program enc) (fun ret _ => ret = 0 ∨ ret = -1) (fun _ => False) (fun _ _ => False)
        (c.world s.run) := by
    constructor
    · rintro ⟨ret, w', hw', hret⟩
      exact (wp_of_ok hw').mpr hret
    · exact exists_ok_of_wp
  rw [hprogram, wp_program hw1, Fits]
  rcases ensured_safe hsettled hensured with ⟨hready, hbufs⟩ | ⟨hs, output, houtput, hbufs⟩
  · rw [if_pos hready, hbufs]
    exact ⟨fun _ bufs h => absurd h (by simp), fun _ => .inr rfl⟩
  · rw [if_neg (by simp [hs.ready]), encodeFrame_safe enc c.src _ c.env hs houtput, hbufs]
    constructor
    · rintro hfits bufs heq
      obtain rfl := Option.some.inj heq
      exact hfits
    · exact fun hfits => hfits _ rfl

/-- What a call returns, if it does. -/
def DeviceCall.ret (enc : DeviceEncoder) (run : DeviceRuntime) (c : DeviceCall) : Option Int :=
  match c.program enc (c.world run) with
  | .ok ret _ => some ret
  | .error _ _ => none

/-- The fault of a call, if it ends in one. -/
def DeviceCall.fault (enc : DeviceEncoder) (run : DeviceRuntime) (c : DeviceCall) : Option Fault :=
  match c.program enc (c.world run) with
  | .error (.fault f) _ => some f
  | _ => none

/-- An output of `bytesused` bytes in the buffer `index`, for the frame that was sent. -/
def replying (index bytesused : Nat) : CompressAnswers :=
  { silent with
    rounds := [⟨5, .revents true, some ⟨⟨index, 5, 0, bytesused, 8⟩, [7, 8, 9]⟩, true⟩] }

theorem survives_iff_reply :
    Fits sampleEncoder Life.init.run (smallCall granting (replying 0 3)) := by
  have hret : (smallCall granting (replying 0 3)).ret sampleEncoder Life.init.run = some 0 := by
    decide +kernel
  refine (survives_iff sampleEncoder (.start rfl) _).mp ?_
  unfold DeviceCall.ret at hret
  split at hret
  · rename_i ret w' hrun
    exact ⟨ret, w', hrun, .inl (Option.some.inj hret)⟩
  · exact absurd hret (by simp)

/-- The four faults: an input buffer that is too short for the frame, and an output that is in no
buffer, that is longer than its buffer, and that is empty. -/
theorem device_faults : ∃ s, (lifeSystem sampleEncoder).Reach s ∧
    [smallCall { granting with input := ⟨some 1, fun _ => ⟨some 2, true, true⟩⟩ } silent,
      smallCall granting (replying 1 3),
      smallCall granting (replying 0 65),
      smallCall granting (replying 0 0)].map (DeviceCall.fault sampleEncoder s.run)
      = [some (.inputCopy 4), some (.outputIndex 1), some (.outputCopy 65), some .assertion] :=
  ⟨Life.init, .start rfl, by decide +kernel⟩

end TinyPilotKvm.M2m
