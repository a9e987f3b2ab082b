/-
# What the host types when two senders write to the keyboard

A paste runs in a thread of its own, and the socket handler in another one; each writes its
reports one by one, and nothing holds the two apart.  The host sees one sequence of reports and
types a key when a report has a keycode that the report before it did not have.

A press of one sender may so fall between the press and the release of the other.  If the keycodes
differ, the host types both keys.  **If they are the same, the second press is not one for the
host**, and its keystroke is lost; `concurrent_typing` says that nothing else can go wrong.
-/
import TinyPilotKvm.App.Hid.Keyboard
import TinyPilotKvm.Interleaving
import TinyPilotKvm.Transition

namespace TinyPilotKvm

/-! ## 1. The host -/

/-- The keys a report has pressed. -/
def keycodes (report : Report) : List UInt8 := (report.drop 2).filter (· ≠ 0)

/-- The keys a report has pressed, with its modifiers. -/
def pressed (report : Report) : List Keystroke :=
  (keycodes report).map fun keycode => ⟨keycode, report.headD 0⟩

/-- The keys the host types on a report: those that the previous report did not have. -/
def typedOn (prev report : Report) : List Keystroke :=
  (pressed report).filter fun keystroke => keystroke.keycode ∉ keycodes prev

/-- The keys the host types. -/
def typed : Report → List Report → List Keystroke
  | _, [] => []
  | prev, report :: reports => typedOn prev report ++ typed report reports

/-- The key presses in a sequence of reports, each with whether the report directly before it has
that key pressed already. -/
def pressesIn : Report → List Report → List (Keystroke × Bool)
  | _, [] => []
  | prev, report :: reports =>
    (pressed report).map (fun keystroke => (keystroke, decide (keystroke.keycode ∈ keycodes prev)))
      ++ pressesIn report reports

/-- The host types the presses that are not there already. -/
theorem typed_eq (prev : Report) (reports : List Report) :
    typed prev reports = ((pressesIn prev reports).filter fun p => !p.2).map Prod.fst := by
  induction reports generalizing prev with
  | nil => rfl
  | cons report reports ih =>
    rw [typed, pressesIn, List.filter_append, List.map_append, ← ih, typedOn, List.filter_map,
      List.map_map]
    congr 1
    simp [Function.comp_def]

theorem map_fst_pressesIn (prev : Report) (reports : List Report) :
    (pressesIn prev reports).map Prod.fst = reports.flatMap pressed := by
  induction reports generalizing prev with
  | nil => rfl
  | cons report reports ih =>
    rw [pressesIn, List.map_append, List.flatMap_cons, ih, List.map_map]
    congr 1
    simp [Function.comp_def]

/-- A keystroke's reports press its key once. -/
theorem flatMap_pressed_reports {keystroke : Keystroke} (h : keystroke.keycode ≠ 0) :
    keystroke.reports.flatMap pressed = [keystroke] := by
  unfold Keystroke.reports Keystroke.press releaseReport
  rw [if_pos h]
  simp [pressed, keycodes, List.replicate_succ, List.set, h]

theorem flatMap_pressed {keystrokes : List Keystroke} (h : ∀ k ∈ keystrokes, k.keycode ≠ 0) :
    (keystrokes.flatMap Keystroke.reports).flatMap pressed = keystrokes := by
  induction keystrokes with
  | nil => rfl
  | cons keystroke keystrokes ih =>
    obtain ⟨hk, hrest⟩ := List.forall_mem_cons.mp h
    rw [List.flatMap_cons, List.flatMap_append, flatMap_pressed_reports hk, ih hrest]
    rfl

/-! ## 2. Two senders -/

/-- The reports each of the senders has still to write, and what the host has got. -/
structure SendersState where
  pending : Bool → List Report
  received : List Report

/-- The sender `p` writes its next report. -/
def sendersStep (s : SendersState) (p : Bool) : Option SendersState :=
  match s.pending p with
  | [] => none
  | report :: reports =>
    some ⟨Function.update s.pending p reports, s.received ++ [report]⟩

/-- Two calls of `send_keystrokes` on a device that delivers everything. -/
def sendersSystem (keystrokes : Bool → List Keystroke) : System SendersState Bool where
  start s := s = ⟨fun p => (keystrokes p).flatMap Keystroke.reports, []⟩
  step := sendersStep

/-- What the host has got and what is still to come. -/
def SendersInv (keystrokes : Bool → List Keystroke) (s : SendersState) : Prop :=
  ∃ written : Bool → List Report,
    (∀ p, (keystrokes p).flatMap Keystroke.reports = written p ++ s.pending p) ∧
      Interleaving (written false) (written true) s.received

theorem sendersInv_of_reach {keystrokes : Bool → List Keystroke} {s : SendersState}
    (hr : (sendersSystem keystrokes).Reach s) : SendersInv keystrokes s := by
  refine System.ReachVia.inv ?_ ?_ hr
  · rintro s rfl
    exact ⟨fun _ => [], fun p => rfl, .nil⟩
  · rintro s s' p ⟨written, hwritten, hinter⟩ _ hst
    simp only [sendersSystem, sendersStep] at hst
    split at hst
    · exact absurd hst (by simp)
    · rename_i report reports hpending
      obtain rfl := Option.some.inj hst
      refine ⟨Function.update written p (written p ++ [report]), fun q => ?_, ?_⟩
      · by_cases hq : q = p
        · subst hq
          simp only [Function.update_self]
          rw [hwritten q, hpending, List.append_assoc, List.singleton_append]
        · simp only [Function.update_of_ne hq]
          exact hwritten q
      · cases p with
        | false =>
          rw [Function.update_self, Function.update_of_ne (by decide)]
          exact hinter.snoc_left report
        | true =>
          rw [Function.update_self, Function.update_of_ne (by decide)]
          exact hinter.snoc_right report

/-- **Two senders at once.**  However the writes of two lists of keystrokes without standalone
modifiers interleave, the presses the host gets are an order-preserving merge of the lists, each
with its own modifiers, and the host types exactly those that do not directly follow a report with
the same key.  So it types a merge of the two lists if and only if there is none of that kind. -/
theorem concurrent_typing {keystrokes : Bool → List Keystroke}
    (hkeys : ∀ p, ∀ k ∈ keystrokes p, k.keycode ≠ 0) {s : SendersState}
    (hr : (sendersSystem keystrokes).Reach s) (hdone : ∀ p, s.pending p = []) :
    Interleaving (keystrokes false) (keystrokes true)
        ((pressesIn releaseReport s.received).map Prod.fst) ∧
      typed releaseReport s.received
        = ((pressesIn releaseReport s.received).filter fun p => !p.2).map Prod.fst ∧
      (Interleaving (keystrokes false) (keystrokes true) (typed releaseReport s.received) ↔
        ∀ p ∈ pressesIn releaseReport s.received, p.2 = false) := by
  obtain ⟨written, hwritten, hinter⟩ := sendersInv_of_reach hr
  have hall : ∀ p, written p = (keystrokes p).flatMap Keystroke.reports := by
    intro p
    rw [hwritten p, hdone p, List.append_nil]
  rw [hall false, hall true] at hinter
  have hpresses : Interleaving (keystrokes false) (keystrokes true)
      ((pressesIn releaseReport s.received).map Prod.fst) := by
    have hflat := hinter.flatMap pressed
    rw [flatMap_pressed (hkeys false), flatMap_pressed (hkeys true)] at hflat
    rw [map_fst_pressesIn]
    exact hflat
  refine ⟨hpresses, typed_eq _ _, ?_⟩
  rw [typed_eq]
  constructor
  · intro hmerge
    have hlen := hmerge.length.trans hpresses.length.symm
    rw [List.length_map, List.length_map] at hlen
    have hsame := List.filter_sublist.eq_of_length hlen
    intro p hp
    rw [← hsame] at hp
    simpa using (List.mem_filter.mp hp).2
  · intro hnone
    have hsame : (pressesIn releaseReport s.received).filter (fun p => !p.2)
        = pressesIn releaseReport s.received :=
      List.filter_eq_self.mpr fun p hp => by rw [hnone p hp]; rfl
    rw [hsame]
    exact hpresses

/-- Two senders that type the same key. -/
def bothTypeA : Bool → List Keystroke := fun _ => [⟨0x04, 0⟩]

theorem run_bothTypeA (as : List Bool) (s : SendersState)
    (h : (sendersSystem bothTypeA).exec ⟨fun p => (bothTypeA p).flatMap Keystroke.reports, []⟩ as
      = some s) : (sendersSystem bothTypeA).Reach s :=
  System.Reach.exec as (.start rfl) h

/-- One after the other: the host types both. -/
theorem concurrent_typing_both : ∃ s : SendersState,
    Interleaving (bothTypeA false) (bothTypeA true) (typed releaseReport s.received) := by
  have hrun : (((sendersSystem bothTypeA).exec
      ⟨fun p => (bothTypeA p).flatMap Keystroke.reports, []⟩
        [false, false, true, true]).any fun s =>
        decide ((∀ p, s.pending p = []) ∧ ∀ p ∈ pressesIn releaseReport s.received, p.2 = false))
      = true := by decide +kernel
  obtain ⟨s, hexec, hs⟩ := (Option.any_eq_true _ _).mp hrun
  obtain ⟨hdone, hnone⟩ := of_decide_eq_true hs
  have hkeys : ∀ p, ∀ k ∈ bothTypeA p, k.keycode ≠ 0 := by decide
  exact ⟨s, (concurrent_typing hkeys (run_bothTypeA _ s hexec) hdone).2.2.mpr hnone⟩

/-- **One press directly after the other**: the host types one key for two keystrokes. -/
theorem keystroke_lost_between_senders : ∃ s : SendersState, (sendersSystem bothTypeA).Reach s ∧
    (∀ p, s.pending p = []) ∧ typed releaseReport s.received = [⟨0x04, 0⟩] ∧
      ¬ Interleaving (bothTypeA false) (bothTypeA true) (typed releaseReport s.received) := by
  have hrun : (((sendersSystem bothTypeA).exec
      ⟨fun p => (bothTypeA p).flatMap Keystroke.reports, []⟩
        [false, true, false, true]).any fun s =>
        decide ((∀ p, s.pending p = []) ∧ typed releaseReport s.received = [⟨0x04, 0⟩]))
      = true := by decide +kernel
  obtain ⟨s, hexec, hs⟩ := (Option.any_eq_true _ _).mp hrun
  obtain ⟨hdone, htyped⟩ := of_decide_eq_true hs
  refine ⟨s, run_bothTypeA _ s hexec, hdone, htyped, fun hmerge => ?_⟩
  have hlen := hmerge.length
  rw [htyped] at hlen
  exact absurd hlen (by decide)

end TinyPilotKvm
