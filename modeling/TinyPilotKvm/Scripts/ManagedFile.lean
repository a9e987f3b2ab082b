/-
# A file with a marker section

The scripts keep what they configure in one marker section at the end of a file, and the rest is
the user's.  `ManagedFile` is such a file: **the lines of the user, and the lines of the section if
there is one**.  Its bytes are what `strip-marker-sections` takes apart
(`stripMarkerSections_bytes`) and what a script puts together again (`bytes_manage`).
-/
import TinyPilotKvm.Scripts.PrintMarkerSections

namespace TinyPilotKvm

/-- No line is a marker, and there is a line besides the section. -/
structure ManagedFile where
  user : List (List UInt8)
  body : Option (List (List UInt8))
  user_ne : user ≠ []
  user_plain : ∀ l ∈ user, PlainLine l
  body_plain : ∀ lines, body = some lines → ∀ l ∈ lines, PlainLine l

/-- A section. -/
def sectionBytes (lines : List (List UInt8)) : List UInt8 :=
  unlines (markerStart :: (lines ++ [markerEnd]))

namespace ManagedFile

def bytes (f : ManagedFile) : List UInt8 := unlines f.user ++ f.body.elim [] sectionBytes

/-- Without the section. -/
def clear (f : ManagedFile) : ManagedFile where
  user := f.user
  body := none
  user_ne := f.user_ne
  user_plain := f.user_plain
  body_plain _ h := absurd h (by simp)

/-- With another section. -/
def manage (f : ManagedFile) (lines : List (List UInt8)) (h : ∀ l ∈ lines, PlainLine l) :
    ManagedFile where
  user := f.user
  body := some lines
  user_ne := f.user_ne
  user_plain := f.user_plain
  body_plain _ hlines := Option.some.inj hlines ▸ h

variable (f : ManagedFile)

theorem bytes_clear : f.clear.bytes = unlines f.user := List.append_nil _

theorem bytes_manage {lines : List (List UInt8)} (h : ∀ l ∈ lines, PlainLine l) :
    f.clear.bytes ++ sectionBytes lines = (f.manage lines h).bytes := by
  rw [bytes_clear]
  rfl

/-- Lines inside a section. -/
theorem foldlM_stripTurn_inside {lines : List (List UInt8)} (hlines : ∀ l ∈ lines, PlainLine l)
    (kept : List (List UInt8)) :
    lines.foldlM stripTurn ⟨kept, true⟩ = .ok ⟨kept, true⟩ := by
  induction lines with
  | nil => rfl
  | cons l lines ih =>
    obtain ⟨hl, hlines⟩ := List.forall_mem_cons.mp hlines
    have hturn : stripTurn ⟨kept, true⟩ l = .ok ⟨kept, true⟩ := by
      rw [stripTurn, if_neg hl.ne_end, if_pos (by simp)]
    rw [List.foldlM_cons]
    exact (bind_of_ok hturn).trans (ih hlines)

/-- A section adds nothing to what is kept. -/
theorem foldlM_stripTurn_section {lines : List (List UInt8)} (hlines : ∀ l ∈ lines, PlainLine l)
    (kept : List (List UInt8)) :
    (markerStart :: (lines ++ [markerEnd])).foldlM stripTurn ⟨kept, false⟩
      = .ok ⟨kept, false⟩ := by
  rw [List.foldlM_cons]
  refine (bind_of_ok (stripTurn_markerStart kept)).trans ?_
  rw [List.foldlM_append]
  refine (bind_of_ok (foldlM_stripTurn_inside hlines kept)).trans ?_
  rw [List.foldlM_cons]
  exact bind_of_ok (stripTurn_markerEnd kept)

/-- **Stripping** leaves the lines of the user. -/
theorem stripMarkerSections_bytes : stripMarkerSections f.bytes = ⟨0, "", f.clear.bytes⟩ := by
  cases hbody : f.body with
  | none =>
    have hbytes : f.bytes = unlines f.user := by
      rw [bytes, hbody]
      exact List.append_nil _
    rw [hbytes, bytes_clear]
    exact stripMarkerSections_unlines f.user_ne f.user_plain
  | some lines =>
    have hplain := f.body_plain lines hbody
    have hbytes : f.bytes = unlines (f.user ++ markerStart :: (lines ++ [markerEnd])) := by
      rw [bytes, hbody, unlines_append]
      rfl
    have hread : ∀ l ∈ f.user ++ markerStart :: (lines ++ [markerEnd]), Readable l := by
      intro l hl
      rw [List.mem_append, List.mem_cons, List.mem_append, List.mem_singleton] at hl
      rcases hl with hl | rfl | hl | rfl
      · exact (f.user_plain l hl).readable
      · exact readable_markerStart
      · exact (hplain l hl).readable
      · exact readable_markerEnd
    have hloop : (f.user ++ markerStart :: (lines ++ [markerEnd])).foldlM stripTurn ⟨[], false⟩
        = .ok ⟨f.user, false⟩ := by
      rw [List.foldlM_append]
      exact (bind_of_ok (foldlM_stripTurn_plain f.user_plain [])).trans
        (foldlM_stripTurn_section hplain f.user)
    unfold stripMarkerSections
    rw [hbytes, readLines_unlines hread, hloop]
    show (⟨0, "", printfLines f.user⟩ : StripResult) = _
    rw [printfLines, if_neg f.user_ne, bytes_clear]
    rfl

end ManagedFile

end TinyPilotKvm
