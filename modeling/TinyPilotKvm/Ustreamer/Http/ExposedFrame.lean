/-
# The exposed frame (`_expose_frame` of `ustreamer/http/server.c`)

The server keeps a copy of the last picture and sends it to every client of the stream.  With
`drop_same_frames` a frame that compares as the same is not copied, and the clients are not woken
for it; `dropped` counts how many in a row.  An empty frame brings no picture, only the news
whether the source is online.

However many frames are dropped, what is exposed is the last picture (`exposed_frames`).  A frame
that is dropped is the exposed one in everything that the comparison and the copy know of; the
times of a frame are copied but not compared, so they are not of the picture.
-/
import TinyPilotKvm.Ustreamer.Http.Snapshot
import TinyPilotKvm.Ustreamer.Http.StreamWrite

namespace TinyPilotKvm

/-! ## 1. The function -/

/-- One call: the frame, and the clock at its begin, after a comparison, and at its end. -/
structure ExposeCall where
  frame : UsFrame
  beginTs : ℚ
  cmpTs : ℚ
  endTs : ℚ

/-- `_expose_frame`; `dropped` stays below a `uint`, so it does not wrap. -/
def UsServerExposed.exposeFrame (ex : UsServerExposed) (dropSameFrames : Nat) (call : ExposeCall) :
    UsServerExposed × Bool :=
  let frame := call.frame
  if dropSameFrames ≠ 0 ∧ frame.online = true ∧ ex.dropped < dropSameFrames ∧
      usFrameCompare ex.frame frame = true then
    ({ ex with
        dropped := ex.dropped + 1
        exposeBeginTs := call.beginTs
        exposeCmpTs := call.cmpTs
        exposeEndTs := call.cmpTs }, false)
  else
    let exposed :=
      if frame.used = 0 then { ex.frame with online := frame.online }
      else usFrameCopy frame ex.frame
    (⟨exposed, 0, call.beginTs, call.beginTs, call.endTs⟩, true)

/-- Calls in a row: what is exposed after them, and what each of them has returned. -/
def UsServerExposed.exposeFrames (dropSameFrames : Nat) :
    UsServerExposed → List ExposeCall → UsServerExposed × List Bool
  | ex, [] => (ex, [])
  | ex, call :: calls =>
    let (next, updated) := ex.exposeFrame dropSameFrames call
    let (last, rest) := exposeFrames dropSameFrames next calls
    (last, updated :: rest)

/-- In the HTTP thread the exposed frame is that of `_expose_frame`. -/
theorem exposeFrame_eq (s : SnapshotState) (ex : UsServerExposed) (call : ExposeCall)
    (hframe : ex.frame = s.frame) (hdropped : ex.dropped = s.dropped) :
    let out := (ex.exposeFrame s.dropSameFrames call).1
    (exposeFrame s call.frame).frame = out.frame ∧
      (exposeFrame s call.frame).dropped = out.dropped := by
  dsimp only
  unfold exposeFrame UsServerExposed.exposeFrame
  simp only [hframe, hdropped, Nat.pos_iff_ne_zero]
  split
  · exact ⟨rfl, rfl⟩
  · split
    · exact ⟨rfl, rfl⟩
    · exact ⟨rfl, rfl⟩

/-! ## 2. What is exposed -/

/-- A picture: its data and its geometry, which is what `US_FRAME_COMPARE_GEOMETRY` compares less
`online`. -/
structure Picture where
  data : List UInt8
  width : Nat
  height : Nat
  format : Nat
  stride : Nat
  key : Bool
  gop : Nat

def UsFrame.picture (frame : UsFrame) : Picture :=
  { data := frame.bytes
    width := frame.width
    height := frame.height
    format := frame.format
    stride := frame.stride
    key := frame.key
    gop := frame.gop }

/-- The last frame with a picture in it. -/
def lastNonempty (frames : List UsFrame) : Option UsFrame :=
  (frames.filter fun frame => frame.used ≠ 0).getLast?

/-- Frames that compare as the same have one picture, and are both online or both not. -/
theorem picture_of_usFrameCompare {a b : UsFrame} (h : usFrameCompare a b = true) :
    a.picture = b.picture ∧ a.online = b.online ∧ a.used = b.used := by
  have hbytes := bytes_of_usFrameCompare h
  simp only [usFrameCompare, usFrameCompareGeometry, Bool.and_eq_true, beq_iff_eq] at h
  obtain ⟨⟨⟨⟨⟨⟨⟨⟨hused, hwidth⟩, hheight⟩, hformat⟩, hstride⟩, honline⟩, hkey⟩, hgop⟩, -⟩ := h
  refine ⟨?_, honline, hused⟩
  unfold UsFrame.picture
  rw [hbytes, hwidth, hheight, hformat, hstride, hkey, hgop]

theorem picture_usFrameCopy (src dest : UsFrame) :
    (usFrameCopy src dest).picture = src.picture := by
  unfold UsFrame.picture
  rw [bytes_usFrameCopy]
  rfl

section

variable (ex : UsServerExposed) (n : Nat) (call : ExposeCall)

/-- **What one call does**: it drops a frame that is online and shows nothing new, and counts it; or
it exposes the picture, if there is one, and starts counting again. -/
theorem UsServerExposed.exposeFrame_cases :
    ((ex.exposeFrame n call).2 = false ∧ ex.dropped < n ∧ call.frame.online = true ∧
        call.frame.picture = ex.frame.picture ∧ ex.frame.online = true ∧
        (ex.exposeFrame n call).1.frame = ex.frame ∧
        (ex.exposeFrame n call).1.dropped = ex.dropped + 1) ∨
      ((ex.exposeFrame n call).2 = true ∧
        (ex.exposeFrame n call).1.frame.online = call.frame.online ∧
        (ex.exposeFrame n call).1.frame.picture
          = (if call.frame.used = 0 then ex.frame.picture else call.frame.picture) ∧
        (ex.exposeFrame n call).1.dropped = 0) := by
  unfold UsServerExposed.exposeFrame
  dsimp only
  split
  · rename_i h
    obtain ⟨-, honline, hroom, hsame⟩ := h
    obtain ⟨hpicture, hboth, -⟩ := picture_of_usFrameCompare hsame
    exact .inl ⟨rfl, hroom, honline, hpicture.symm, hboth.trans honline, rfl, rfl⟩
  · refine .inr ⟨rfl, ?_, ?_, rfl⟩
    · by_cases hempty : call.frame.used = 0
      · rw [if_pos hempty]
      · rw [if_neg hempty]
        rfl
    · by_cases hempty : call.frame.used = 0
      · rw [if_pos hempty, if_pos hempty]
        rfl
      · rw [if_neg hempty, if_neg hempty]
        exact picture_usFrameCopy call.frame ex.frame

/-- The picture after a call. -/
theorem UsServerExposed.picture_exposeFrame :
    (ex.exposeFrame n call).1.frame.picture
      = if call.frame.used = 0 then ex.frame.picture else call.frame.picture := by
  rcases ex.exposeFrame_cases n call with ⟨-, -, -, hsame, -, hframe, -⟩ | ⟨-, -, hpicture, -⟩
  · rw [hframe, hsame, ite_self]
  · exact hpicture

theorem UsServerExposed.online_exposeFrame :
    (ex.exposeFrame n call).1.frame.online = call.frame.online := by
  rcases ex.exposeFrame_cases n call with ⟨-, -, honline, -, hboth, hframe, -⟩ | ⟨-, honline, -, -⟩
  · rw [hframe, hboth, honline]
  · exact honline

end

theorem lastNonempty_cons (frame : UsFrame) (frames : List UsFrame) :
    lastNonempty (frame :: frames)
      = (lastNonempty frames).or (if frame.used = 0 then none else some frame) := by
  unfold lastNonempty
  by_cases hempty : frame.used = 0
  · rw [List.filter_cons_of_neg (by simpa using hempty), if_pos hempty, Option.or_none]
  · rw [List.filter_cons_of_pos (by simpa using hempty), if_neg hempty, List.getLast?_cons]
    cases (frames.filter fun frame => frame.used ≠ 0).getLast? with
    | none => rfl
    | some last => rfl

/-! ## 3. Calls in a row -/

section

variable (n : Nat)

/-- The picture after the calls is the last that has come. -/
theorem UsServerExposed.picture_exposeFrames (ex : UsServerExposed) (calls : List ExposeCall) :
    (ex.exposeFrames n calls).1.frame.picture
      = ((lastNonempty (calls.map ExposeCall.frame)).getD ex.frame).picture := by
  induction calls generalizing ex with
  | nil => rfl
  | cons call calls ih =>
    have hnext := ex.picture_exposeFrame n call
    have hlast := ih (ex.exposeFrame n call).1
    rw [List.map_cons, lastNonempty_cons]
    rw [UsServerExposed.exposeFrames]
    dsimp only
    rw [hlast]
    cases lastNonempty (calls.map ExposeCall.frame) with
    | some frame => rfl
    | none =>
      rw [Option.getD_none, hnext, Option.none_or]
      by_cases hempty : call.frame.used = 0
      · rw [if_pos hempty, if_pos hempty, Option.getD_none]
      · rw [if_neg hempty, if_neg hempty, Option.getD_some]

theorem UsServerExposed.online_exposeFrames (ex : UsServerExposed) (calls : List ExposeCall) :
    (ex.exposeFrames n calls).1.frame.online
      = ((calls.map ExposeCall.frame).getLast?.getD ex.frame).online := by
  induction calls generalizing ex with
  | nil => rfl
  | cons call calls ih =>
    have hnext := ex.online_exposeFrame n call
    have hlast := ih (ex.exposeFrame n call).1
    rw [List.map_cons, List.getLast?_cons]
    rw [UsServerExposed.exposeFrames]
    dsimp only
    rw [hlast]
    cases (calls.map ExposeCall.frame).getLast? with
    | some frame => rfl
    | none => exact hnext

/-- A row of drops at the beginning goes on from the count. -/
theorem UsServerExposed.drops_at_start (ex : UsServerExposed) (calls : List ExposeCall) {k : Nat}
    (h : List.replicate (k + 1) false <+: (ex.exposeFrames n calls).2) :
    ex.dropped + (k + 1) ≤ n := by
  induction calls generalizing ex k with
  | nil =>
    have hlen := h.length_le
    rw [List.length_replicate] at hlen
    exact absurd hlen (Nat.not_succ_le_zero k)
  | cons call calls ih =>
    rw [UsServerExposed.exposeFrames, List.replicate_succ] at h
    dsimp only at h
    obtain ⟨hdrop, hrest⟩ := List.cons_prefix_cons.mp h
    rcases ex.exposeFrame_cases n call with ⟨-, hroom, -, -, -, -, hcount⟩ | ⟨hupdated, -, -, -⟩
    · cases k with
      | zero => exact hroom
      | succ k =>
        have hnext := ih (ex.exposeFrame n call).1 hrest
        rw [hcount] at hnext
        omega
    · rw [hupdated] at hdrop
      exact absurd hdrop Bool.false_ne_true

/-- At most `n` in a row. -/
theorem UsServerExposed.drops_in_row (ex : UsServerExposed) (calls : List ExposeCall) {k : Nat}
    (h : List.replicate k false <:+: (ex.exposeFrames n calls).2) : k ≤ n := by
  induction calls generalizing ex with
  | nil =>
    have hlen := h.length_le
    rw [List.length_replicate] at hlen
    exact Nat.le_trans hlen (Nat.zero_le n)
  | cons call calls ih =>
    rcases List.infix_cons_iff.mp h with hstart | hlater
    · cases k with
      | zero => exact Nat.zero_le n
      | succ k =>
        have hcount := ex.drops_at_start n (call :: calls) hstart
        omega
    · exact ih (ex.exposeFrame n call).1 hlater

end

/-- **Dropping frames is bounded and loses nothing.**  After any calls the exposed picture is the
last one received, and it is online if the last frame was; no more than `drop_same_frames` frames
in a row are dropped; and a frame that is dropped is online and is the picture exposed already. -/
theorem exposed_frames (ex : UsServerExposed) (dropSameFrames : Nat) (calls : List ExposeCall) :
    (ex.exposeFrames dropSameFrames calls).1.frame.picture
        = ((lastNonempty (calls.map ExposeCall.frame)).getD ex.frame).picture ∧
      (ex.exposeFrames dropSameFrames calls).1.frame.online
        = ((calls.map ExposeCall.frame).getLast?.getD ex.frame).online ∧
      (∀ k, List.replicate k false <:+: (ex.exposeFrames dropSameFrames calls).2 →
        k ≤ dropSameFrames) ∧
      (∀ before call after, calls = before ++ call :: after →
        let was := (ex.exposeFrames dropSameFrames before).1
        (was.exposeFrame dropSameFrames call).2 = false →
          call.frame.picture = was.frame.picture ∧ call.frame.online = true ∧
            (was.exposeFrame dropSameFrames call).1.frame = was.frame) := by
  refine ⟨ex.picture_exposeFrames dropSameFrames calls,
    ex.online_exposeFrames dropSameFrames calls, ?_, ?_⟩
  · intro k h
    exact ex.drops_in_row dropSameFrames calls h
  · intro before call after _ was hdropped
    rcases was.exposeFrame_cases dropSameFrames call with
      ⟨-, -, honline, hpicture, -, hframe, -⟩ | ⟨hupdated, -, -, -⟩
    · exact ⟨hpicture, honline, hframe⟩
    · rw [hupdated] at hdropped
      exact absurd hdropped.symm Bool.false_ne_true

end TinyPilotKvm
