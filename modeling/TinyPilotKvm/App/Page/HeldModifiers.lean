/-
# Modifiers on the host, and keys in the browser

The page, the messages in flight and the keyboard device, over whole runs.  `Session.host` is what
the host holds once the messages in flight are handled.

`Marked` is the invariant: **what the host holds is marked in the page, and held by the user**.
Three kinds of steps break it, all of which clear a mark without a release reaching the host:
a modifier goes up while the socket is disconnected; a key goes down whose event says that the
modifier is up, but nothing is sent for that key or the server does not know it; and the page is
reloaded.  `KeepsMarks` excludes exactly these.
-/
import TinyPilotKvm.App.Page.Modifiers
import TinyPilotKvm.Transition

namespace TinyPilotKvm

/-! ## 1. Sessions -/

/-- The page, what it has sent and is not handled yet, the device, and the keys that the user
holds: those that have gone down and not up since the window had the focus. -/
structure Session where
  page : Page
  inFlight : List SocketMessage
  dev : HidDevice
  userHolds : PyStr → Bool

/-- The keys that the user holds after an event. -/
def userHoldsAfter (userHolds : PyStr → Bool) : PageEvent → PyStr → Bool
  | .keyDown evt => fun code => code == keystrokeToCanonicalCode evt || userHolds code
  | .keyUp evt => fun code => code != keystrokeToCanonicalCode evt && userHolds code
  | .blur => fun _ => false
  | _ => userHolds

inductive SessionAction
  | event (evt : PageEvent)
  | handleMessage

/-- No modifier of the on-screen keyboard is active. -/
def session (keyboardPath : String) : System Session SessionAction where
  start s := s.page = {} ∧ s.inFlight = [] ∧ (∀ n, s.dev.outcome n = .delivered) ∧
    s.dev.held = releaseReport ∧ ∀ code, s.userHolds code = false
  step s
    | .event evt =>
      let r := s.page.handle (fun _ => false) evt
      some { s with
        page := r.1
        inFlight := s.inFlight ++ r.2
        userHolds := userHoldsAfter s.userHolds evt }
    | .handleMessage =>
      match s.inFlight with
      | [] => none
      | message :: inFlight =>
        some { s with inFlight := inFlight, dev := message.handle keyboardPath s.dev }

/-- The modifiers that the host holds once the messages in flight are handled. -/
def Session.host (s : Session) : UInt8 := leavesAll s.inFlight s.dev.held.modifier

/-- The host holds `m`. -/
def HostHolds (host : UInt8) (m : Modifier) : Prop := host &&& m.bit ≠ 0

instance (host : UInt8) (m : Modifier) : Decidable (HostHolds host m) :=
  inferInstanceAs (Decidable (_ ≠ _))

/-- The step does not clear the mark of a modifier that the host goes on holding. -/
def KeepsMarks (s : Session) : SessionAction → Prop
  | .event (.keyDown evt) =>
    s.page.currentOverlays = [] → isModifierCode (keystrokeToCanonicalCode evt) = false →
      (∃ m, HostHolds s.host m ∧ m.prop evt = false) →
        s.page.connectedToServer = true ∧ mapping.lookup (keystrokeToCanonicalCode evt) ≠ none
  | .event (.keyUp evt) =>
    (∃ m, HostHolds s.host m ∧ m.code = keystrokeToCanonicalCode evt) →
      s.page.connectedToServer = true
  | .event .blur => (∃ m, HostHolds s.host m) → s.page.connectedToServer = true
  | .event .connect =>
    py "shutdown-overlay" ∈ s.page.currentOverlays → ¬ ∃ m, HostHolds s.host m
  | _ => True

/-! ## 2. Marks -/

@[simp] theorem not_hostHolds_zero (m : Modifier) : ¬ HostHolds 0 m := by
  cases m <;> decide

/-- What the host holds is marked in the page, and held by the user. -/
def Marked (host : UInt8) (page : Page) (userHolds : PyStr → Bool) : Prop :=
  ∀ m, HostHolds host m → page.keyboardState.isKeyPressed m.code = true ∧
    userHolds m.code = true

theorem marked_zero (page : Page) (userHolds : PyStr → Bool) : Marked 0 page userHolds :=
  fun m h => absurd h (not_hostHolds_zero m)

namespace KeyboardState

/-- A round of the loop clears no mark of another modifier, or of one that is pressed. -/
theorem fixModifier_keeps {isModifierPressed : Bool} {left right code : PyStr}
    (h : isModifierPressed = true ∨ (code ≠ left ∧ code ≠ right)) {state : KeyboardState}
    (hmark : state.isKeyPressed code = true) :
    (fixModifier isModifierPressed left right state).isKeyPressed code = true := by
  unfold fixModifier
  rcases h with rfl | ⟨hl, hr⟩
  · split
    · contradiction
    · split
      · exact hmark
      · rw [isKeyPressed_assign]
        split
        · rfl
        · exact hmark
  · split
    · rw [isKeyPressed_assign, isKeyPressed_assign, if_neg hr, if_neg hl]
      exact hmark
    · split
      · exact hmark
      · rw [isKeyPressed_assign, if_neg hl]
        exact hmark

/-- A modifier that the event reports as pressed stays marked. -/
theorem fixInternalModifierStates_keeps {evt : KeyboardEvent} {m : Modifier}
    (hprop : m.prop evt = true) {state : KeyboardState}
    (hmark : state.isKeyPressed m.code = true) :
    (fixInternalModifierStates evt state).isKeyPressed m.code = true := by
  unfold fixInternalModifierStates
  have hkeep : ∀ (b : Bool) (left right : PyStr) (st : KeyboardState),
      (b = true ∨ (m.code ≠ left ∧ m.code ≠ right)) → st.isKeyPressed m.code = true →
        (fixModifier b left right st).isKeyPressed m.code = true :=
    fun _ _ _ _ h hst => fixModifier_keeps h hst
  refine hkeep _ _ _ _ ?_ (hkeep _ _ _ _ ?_ (hkeep _ _ _ _ ?_ (hkeep _ _ _ _ ?_ hmark))) <;>
    cases m <;> first | exact Or.inl hprop | exact Or.inr (by decide)

/-- A round of the loop clears the marks of a modifier that is not pressed, and sets no mark of
another one. -/
theorem fixModifier_clears {isModifierPressed : Bool} {left right code : PyStr}
    {state : KeyboardState}
    (h : (isModifierPressed = false ∧ (code = left ∨ code = right)) ∨
      (code ≠ left ∧ code ≠ right ∧ state.isKeyPressed code = false)) :
    (fixModifier isModifierPressed left right state).isKeyPressed code = false := by
  unfold fixModifier
  rcases h with ⟨rfl, hcode⟩ | ⟨hl, hr, hmark⟩
  · rw [Bool.not_false, if_pos rfl, isKeyPressed_assign, isKeyPressed_assign]
    rcases hcode with rfl | rfl <;> simp
  · split
    · rw [isKeyPressed_assign, isKeyPressed_assign, if_neg hr, if_neg hl]
      exact hmark
    · split
      · exact hmark
      · rw [isKeyPressed_assign, if_neg hl]
        exact hmark

/-- A modifier that the event reports as released is not marked any more. -/
theorem fixInternalModifierStates_clears {evt : KeyboardEvent} {m : Modifier}
    (hprop : m.prop evt = false) (state : KeyboardState) :
    (fixInternalModifierStates evt state).isKeyPressed m.code = false := by
  have hother : ∀ (b : Bool) (left right : PyStr) (st : KeyboardState),
      m.code ≠ left ∧ m.code ≠ right → st.isKeyPressed m.code = false →
        (fixModifier b left right st).isKeyPressed m.code = false :=
    fun _ _ _ _ hne hst => fixModifier_clears (Or.inr ⟨hne.1, hne.2, hst⟩)
  have hown : ∀ (b : Bool) (left right : PyStr) (st : KeyboardState),
      b = false → m.code = left ∨ m.code = right →
        (fixModifier b left right st).isKeyPressed m.code = false :=
    fun _ _ _ _ hb hcode => fixModifier_clears (Or.inl ⟨hb, hcode⟩)
  unfold fixInternalModifierStates
  dsimp only
  cases m with
  | altLeft | altRight =>
    refine hother _ _ _ _ (by decide) (hother _ _ _ _ (by decide) (hother _ _ _ _ (by decide) ?_))
    exact hown _ _ _ _ hprop (by decide)
  | metaLeft | metaRight =>
    refine hother _ _ _ _ (by decide) (hother _ _ _ _ (by decide) ?_)
    exact hown _ _ _ _ hprop (by decide)
  | ctrlLeft | ctrlRight =>
    exact hother _ _ _ _ (by decide) (hown _ _ _ _ hprop (by decide))
  | shiftLeft | shiftRight => exact hown _ _ _ _ hprop (by decide)

end KeyboardState

/-! ## 3. One event -/

section

variable {page : Page} {host : UInt8} {userHolds : PyStr → Bool}

/-- `onKeyDown`, where the key is neither ignored nor kept back by an overlay. -/
theorem onKeyDown_eq {evt : KeyboardEvent} (hover : page.currentOverlays = [])
    (hignored : page.isIgnoredKeystroke (keystrokeToCanonicalCode evt) = false) :
    page.onKeyDown (fun _ => false) evt =
      ({ page with keyboardState := page.keyboardState.onKeyDown evt },
        if page.connectedToServer then
          [.keystroke (pageMessage (page.keyboardState.onKeyDown evt) evt.key
            (keystrokeToCanonicalCode evt))]
        else []) := by
  unfold Page.onKeyDown
  rw [if_neg (not_not.mpr hover)]
  dsimp only
  rw [if_neg (by rw [hignored]; exact Bool.false_ne_true)]
  cases page.connectedToServer <;> rfl

/-- A modifier goes down: if it is the only one that is marked, the host holds it, and nothing
else. -/
theorem marked_modifierDown {m0 : Modifier} {state : KeyboardState} (key : PyStr)
    (hstate : state.isKeyPressed m0.code = true) (hpage : page.keyboardState = state)
    (hholds : userHolds m0.code = true) :
    Marked (leavesAll [.keystroke (pageMessage state key m0.code)] host) page userHolds := by
  have hleaves : leavesAll [.keystroke (pageMessage state key m0.code)] host
      = if countModifiers (pageKeystroke state key m0.code) = 1 then
          mapModifierKeys (pageKeystroke state key m0.code) else 0 := by
    rw [leavesAll, List.foldl_cons, List.foldl_nil, leaves_modifier, Option.getD_some]
  rw [hleaves]
  by_cases hcount : countModifiers (pageKeystroke state key m0.code) = 1
  · rw [if_pos hcount]
    intro m hm
    have hflag := (Modifier.mapModifierKeys_and_bit _ m).mp hm
    have hflag0 : m0.flag (pageKeystroke state key m0.code) = true := by
      rw [flag_pageKeystroke, hstate]
    obtain rfl := Modifier.eq_of_countModifiers hcount hflag hflag0
    rw [hpage]
    exact ⟨hstate, hholds⟩
  · rw [if_neg hcount]
    exact marked_zero page userHolds

/-- A key of which nothing reaches the host. -/
theorem leavesAll_of_not_sent {evt : KeyboardEvent}
    (hmod : isModifierCode (keystrokeToCanonicalCode evt) = false)
    (hsent : ¬ (page.connectedToServer = true ∧
      mapping.lookup (keystrokeToCanonicalCode evt) ≠ none)) :
    leavesAll (if page.connectedToServer then
      [.keystroke (pageMessage (page.keyboardState.onKeyDown evt) evt.key
        (keystrokeToCanonicalCode evt))] else []) host = host := by
  by_cases hconn : page.connectedToServer = true
  · rw [if_pos hconn, leavesAll, List.foldl_cons, List.foldl_nil, leaves_key hmod,
      if_pos (not_not.mp fun h => hsent ⟨hconn, h⟩)]
    rfl
  · rw [if_neg hconn]
    rfl

/-- What a key other than a modifier does to the marks. -/
theorem onKeyDown_of_not_modifier {evt : KeyboardEvent}
    (hmod : isModifierCode (keystrokeToCanonicalCode evt) = false) (state : KeyboardState) :
    state.onKeyDown evt = KeyboardState.fixInternalModifierStates evt
      (KeyboardState.assign (keystrokeToCanonicalCode evt) true state) := by
  simp [KeyboardState.onKeyDown, hmod]

/-- Another key goes down: either everything is released, or every modifier that the host holds
is pressed according to the event. -/
theorem marked_keyDown {evt : KeyboardEvent} (hmarked : Marked host page userHolds)
    (hmod : isModifierCode (keystrokeToCanonicalCode evt) = false)
    (hkeeps : (∃ m, HostHolds host m ∧ m.prop evt = false) →
      page.connectedToServer = true ∧ mapping.lookup (keystrokeToCanonicalCode evt) ≠ none) :
    Marked
      (leavesAll (if page.connectedToServer then
        [.keystroke (pageMessage (page.keyboardState.onKeyDown evt) evt.key
          (keystrokeToCanonicalCode evt))] else []) host)
      { page with keyboardState := page.keyboardState.onKeyDown evt } userHolds := by
  by_cases hsent : page.connectedToServer = true ∧
      mapping.lookup (keystrokeToCanonicalCode evt) ≠ none
  · have hzero : leavesAll [.keystroke (pageMessage (page.keyboardState.onKeyDown evt) evt.key
        (keystrokeToCanonicalCode evt))] host = 0 := by
      rw [leavesAll, List.foldl_cons, List.foldl_nil, leaves_key hmod, if_neg hsent.2]
      rfl
    rw [if_pos hsent.1, hzero]
    exact marked_zero _ _
  · rw [leavesAll_of_not_sent hmod hsent]
    intro m hm
    refine ⟨?_, (hmarked m hm).2⟩
    have hprop : m.prop evt = true := by
      cases h : m.prop evt with
      | true => rfl
      | false => exact absurd (hkeeps ⟨m, hm, h⟩) hsent
    dsimp only
    rw [onKeyDown_of_not_modifier hmod]
    refine KeyboardState.fixInternalModifierStates_keeps hprop ?_
    rw [KeyboardState.isKeyPressed_assign]
    split
    · rfl
    · exact (hmarked m hm).1

theorem marked_onKeyDown {evt : KeyboardEvent} (hmarked : Marked host page userHolds)
    (hkeeps : page.currentOverlays = [] → isModifierCode (keystrokeToCanonicalCode evt) = false →
      (∃ m, HostHolds host m ∧ m.prop evt = false) →
        page.connectedToServer = true ∧ mapping.lookup (keystrokeToCanonicalCode evt) ≠ none) :
    Marked (leavesAll (page.onKeyDown (fun _ => false) evt).2 host)
      (page.onKeyDown (fun _ => false) evt).1 (userHoldsAfter userHolds (.keyDown evt)) := by
  have hsame : Marked host page (userHoldsAfter userHolds (.keyDown evt)) := by
    intro m hm
    obtain ⟨hmark, hholds⟩ := hmarked m hm
    exact ⟨hmark, by simp [userHoldsAfter, hholds]⟩
  by_cases hover : page.currentOverlays = []
  · cases hignored : page.isIgnoredKeystroke (keystrokeToCanonicalCode evt) with
    | true =>
      unfold Page.onKeyDown
      rw [if_neg (not_not.mpr hover)]
      dsimp only
      rw [if_pos hignored]
      exact hsame
    | false =>
      rw [onKeyDown_eq hover hignored]
      dsimp only
      cases hmod : isModifierCode (keystrokeToCanonicalCode evt) with
      | true =>
        obtain ⟨m0, hm0⟩ := Modifier.exists_of_isModifierCode hmod
        have hstate : page.keyboardState.onKeyDown evt
            = KeyboardState.assign m0.code true page.keyboardState := by
          simp [KeyboardState.onKeyDown, ← hm0]
        by_cases hconn : page.connectedToServer = true
        · rw [if_pos hconn, ← hm0]
          refine marked_modifierDown evt.key ?_ rfl ?_
          · simp [hstate]
          · simp [userHoldsAfter, ← hm0]
        · rw [if_neg hconn, hstate]
          intro m hm
          refine ⟨?_, (hsame m hm).2⟩
          dsimp only
          rw [KeyboardState.isKeyPressed_assign]
          split
          · rfl
          · exact (hmarked m hm).1
      | false => exact marked_keyDown hsame hmod (hkeeps hover hmod)
  · unfold Page.onKeyDown
    rw [if_pos hover]
    exact hsame

/-- A key goes up. -/
theorem marked_onKeyUp {evt : KeyboardEvent} (hmarked : Marked host page userHolds)
    (hkeeps : (∃ m, HostHolds host m ∧ m.code = keystrokeToCanonicalCode evt) →
      page.connectedToServer = true) :
    Marked (leavesAll (page.onKeyUp evt).2 host) (page.onKeyUp evt).1
      (userHoldsAfter userHolds (.keyUp evt)) := by
  unfold Page.onKeyUp
  by_cases hsent : (page.connectedToServer && isModifierCode (keystrokeToCanonicalCode evt)) = true
  · rw [if_pos hsent]
    exact marked_zero _ _
  · rw [if_neg hsent]
    intro m hm
    obtain ⟨hmark, hholds⟩ := hmarked m hm
    have hne : m.code ≠ keystrokeToCanonicalCode evt := by
      intro he
      refine hsent ?_
      rw [← he, Modifier.isModifierCode_code, hkeeps ⟨m, hm, he⟩]
      rfl
    constructor
    · dsimp only [KeyboardState.onKeyUp]
      rw [KeyboardState.isKeyPressed_assign, if_neg hne]
      exact hmark
    · simp [userHoldsAfter, hne, hholds]

theorem keystrokeToCanonicalCode_modifier (m : Modifier) :
    keystrokeToCanonicalCode { code := m.code } = m.code := by
  cases m <;> decide

/-- The loop of the `blur` handler sends releases only, and one for each modifier. -/
theorem onKeyUps_messages : ∀ (keyCodes : List PyStr) (page : Page),
    (∀ message ∈ (Page.onKeyUps keyCodes page).2, message = .keyRelease) ∧
      (page.connectedToServer = true → ∀ m : Modifier, m.code ∈ keyCodes →
        (Page.onKeyUps keyCodes page).2 ≠ [])
  | [], page => ⟨by simp [Page.onKeyUps], by simp⟩
  | keyCode :: keyCodes, page => by
    obtain ⟨hreleases, hsent⟩ := onKeyUps_messages keyCodes (page.onKeyUp { code := keyCode }).1
    unfold Page.onKeyUps
    dsimp only
    constructor
    · intro message hmem
      rcases List.mem_append.mp hmem with hmem | hmem
      · unfold Page.onKeyUp at hmem
        dsimp only at hmem
        split at hmem
        · exact List.mem_singleton.mp hmem
        · exact absurd hmem List.not_mem_nil
      · exact hreleases message hmem
    · rintro hconn m (_ | ⟨_, hmem⟩)
      · have hfirst : (page.onKeyUp { code := m.code }).2 = [.keyRelease] := by
          simp [Page.onKeyUp, keystrokeToCanonicalCode_modifier, hconn]
        rw [hfirst]
        exact List.cons_ne_nil _ _
      · exact List.append_ne_nil_of_right_ne_nil _ (hsent hconn m hmem)

/-- Releases leave nothing. -/
theorem leavesAll_releases : ∀ {messages : List SocketMessage} {host : UInt8},
    (∀ message ∈ messages, message = .keyRelease) → messages ≠ [] → leavesAll messages host = 0
  | [], _, _, hne => absurd rfl hne
  | message :: messages, host, hall, _ => by
    have hfirst : message = .keyRelease := hall message List.mem_cons_self
    subst hfirst
    by_cases hnil : messages = []
    · subst hnil
      rfl
    · have hrest : leavesAll messages 0 = 0 :=
        leavesAll_releases (fun msg hmem => hall msg (List.mem_cons_of_mem _ hmem)) hnil
      exact hrest

/-- The window loses the focus. -/
theorem marked_blur (hmarked : Marked host page userHolds)
    (hkeeps : (∃ m, HostHolds host m) → page.connectedToServer = true) :
    Marked (leavesAll (Page.onKeyUps page.keyboardState.getAllPressedKeys page).2 host)
      (Page.onKeyUps page.keyboardState.getAllPressedKeys page).1
      (userHoldsAfter userHolds .blur) := by
  obtain ⟨hreleases, hsent⟩ := onKeyUps_messages page.keyboardState.getAllPressedKeys page
  by_cases hnil : (Page.onKeyUps page.keyboardState.getAllPressedKeys page).2 = []
  · rw [hnil]
    intro m hm
    have hmem := KeyboardState.mem_getAllPressedKeys (hmarked m hm).1
    exact absurd hnil (hsent (hkeeps ⟨m, hm⟩) m hmem)
  · rw [leavesAll_releases hreleases hnil]
    exact marked_zero _ _

/-- The loop while the socket is disconnected. -/
theorem onKeyUps_of_disconnected : ∀ (keyCodes : List PyStr) {page : Page},
    page.connectedToServer = false →
      (Page.onKeyUps keyCodes page).2 = [] ∧
        ∀ m : Modifier, m.code ∈ keyCodes ∨ page.keyboardState.isKeyPressed m.code = false →
          (Page.onKeyUps keyCodes page).1.keyboardState.isKeyPressed m.code = false
  | [], _, _ => ⟨rfl, fun _ h => h.resolve_left List.not_mem_nil⟩
  | keyCode :: keyCodes, page, hconn => by
    have hfirst : (page.onKeyUp { code := keyCode }).2 = [] := by
      simp [Page.onKeyUp, hconn]
    obtain ⟨hnone, hmarks⟩ := onKeyUps_of_disconnected keyCodes
      (show (page.onKeyUp { code := keyCode }).1.connectedToServer = false from hconn)
    unfold Page.onKeyUps
    dsimp only
    rw [hfirst, hnone]
    refine ⟨rfl, fun m hm => hmarks m ?_⟩
    by_cases hmem : m.code ∈ keyCodes
    · exact Or.inl hmem
    · right
      simp only [Page.onKeyUp, KeyboardState.onKeyUp, KeyboardState.isKeyPressed_assign]
      rcases hm with hm | hm
      · obtain rfl | hm := List.mem_cons.mp hm
        · rw [keystrokeToCanonicalCode_modifier, if_pos rfl]
        · exact absurd hm hmem
      · rw [hm]
        split <;> rfl

end

/-! ## 4. Runs -/

structure SessionInv (s : Session) : Prop where
  delivered : ∀ n, s.dev.outcome n = .delivered
  standing : ∃ m, s.dev.held = modifierReport m
  marked : Marked s.host s.page s.userHolds

theorem leavesAll_append (messages messages' : List SocketMessage) (m : UInt8) :
    leavesAll (messages ++ messages') m = leavesAll messages' (leavesAll messages m) :=
  List.foldl_append

/-- **What one event keeps.** -/
theorem marked_handle {s : Session} {evt : PageEvent} (hmarked : Marked s.host s.page s.userHolds)
    (hkeeps : KeepsMarks s (.event evt)) :
    Marked (leavesAll (s.page.handle (fun _ => false) evt).2 s.host)
      (s.page.handle (fun _ => false) evt).1 (userHoldsAfter s.userHolds evt) := by
  cases evt with
  | keyDown evt => exact marked_onKeyDown hmarked hkeeps
  | keyUp evt => exact marked_onKeyUp hmarked hkeeps
  | blur => exact marked_blur hmarked hkeeps
  | overlayToggled overlay isShown => exact hmarked
  | connect =>
    intro m hm
    have hnot : py "shutdown-overlay" ∉ s.page.currentOverlays := fun h => hkeeps h ⟨m, hm⟩
    have hpage : s.page.onSocketConnect = { s.page with connectedToServer := true } :=
      if_neg (by rwa [List.contains_iff_mem])
    rw [Page.handle, hpage]
    exact hmarked m hm
  | disconnect => exact hmarked

/-- **No other event keeps it**: the host goes on holding a modifier that is not marked any more. -/
theorem unmarked_of_not_keepsMarks {s : Session} {evt : PageEvent}
    (hmarked : Marked s.host s.page s.userHolds) (h : ¬ KeepsMarks s (.event evt)) :
    ∃ m, HostHolds (leavesAll (s.page.handle (fun _ => false) evt).2 s.host) m ∧
      (s.page.handle (fun _ => false) evt).1.keyboardState.isKeyPressed m.code = false := by
  cases evt with
  | keyDown evt =>
    simp only [KeepsMarks, Classical.not_imp] at h
    obtain ⟨hover, hmod, ⟨m, hm, hprop⟩, hsent⟩ := h
    have hignored : s.page.isIgnoredKeystroke (keystrokeToCanonicalCode evt) = false := by
      simp [Page.isIgnoredKeystroke, hmod]
    rw [Page.handle, onKeyDown_eq hover hignored]
    dsimp only
    rw [leavesAll_of_not_sent hmod hsent, onKeyDown_of_not_modifier hmod]
    exact ⟨m, hm, KeyboardState.fixInternalModifierStates_clears hprop _⟩
  | keyUp evt =>
    simp only [KeepsMarks, Classical.not_imp, Bool.not_eq_true] at h
    obtain ⟨⟨m, hm, hcode⟩, hconn⟩ := h
    refine ⟨m, ?_, ?_⟩
    · simpa [Page.handle, Page.onKeyUp, hconn, leavesAll] using hm
    · simp [Page.handle, Page.onKeyUp, KeyboardState.onKeyUp, hcode]
  | blur =>
    simp only [KeepsMarks, Classical.not_imp, Bool.not_eq_true] at h
    obtain ⟨⟨m, hm⟩, hconn⟩ := h
    obtain ⟨hnone, hmarks⟩ :=
      onKeyUps_of_disconnected s.page.keyboardState.getAllPressedKeys hconn
    rw [Page.handle, hnone]
    exact ⟨m, hm, hmarks m (Or.inl (KeyboardState.mem_getAllPressedKeys (hmarked m hm).1))⟩
  | overlayToggled overlay isShown => exact absurd trivial h
  | connect =>
    simp only [KeepsMarks, Classical.not_imp, not_not] at h
    obtain ⟨hshown, m, hm⟩ := h
    have hpage : s.page.onSocketConnect = {} := if_pos (List.contains_iff_mem.mpr hshown)
    rw [Page.handle, hpage]
    exact ⟨m, hm, rfl⟩
  | disconnect => exact absurd trivial h

theorem sessionInv {keyboardPath : String} {s : Session}
    (hr : (session keyboardPath).ReachVia KeepsMarks s) : SessionInv s := by
  refine hr.inv (fun s hs => ?_) (fun s s' a hs hkeeps hst => ?_)
  · obtain ⟨hpage, hidle, hdelivered, hheld, -⟩ := hs
    refine ⟨hdelivered, ⟨0, hheld⟩, ?_⟩
    have hzero : s.host = 0 := by rw [Session.host, hidle, hheld]; rfl
    rw [hzero]
    exact marked_zero _ _
  · obtain ⟨hdelivered, ⟨m, hheld⟩, hmarked⟩ := hs
    cases a with
    | event evt =>
      obtain rfl := Option.some.inj hst
      refine ⟨hdelivered, ⟨m, hheld⟩, ?_⟩
      have hhost : leavesAll (s.inFlight ++ (s.page.handle (fun _ => false) evt).2)
          s.dev.held.modifier = leavesAll (s.page.handle (fun _ => false) evt).2 s.host :=
        leavesAll_append _ _ _
      rw [Session.host, hhost]
      exact marked_handle hmarked hkeeps
    | handleMessage =>
      cases hflight : s.inFlight with
      | nil => simp [session, hflight] at hst
      | cons message inFlight =>
        simp only [session, hflight, Option.some.injEq] at hst
        obtain rfl := hst
        obtain ⟨houtcome, hstep⟩ := held_handle keyboardPath hdelivered message
        have hheld' : (message.handle keyboardPath s.dev).held
            = modifierReport (message.leaves.getD m) := by
          rw [hstep, hheld, Option.getD_map]
        refine ⟨fun n => (congrFun houtcome n).trans (hdelivered n), ⟨_, hheld'⟩, ?_⟩
        have hhost : leavesAll inFlight (message.handle keyboardPath s.dev).held.modifier
            = s.host := by
          rw [Session.host, hflight, hheld', hheld]
          rfl
        rw [Session.host, hhost]
        exact hmarked

theorem and_or_eq_zero {x a b : UInt8} (ha : x &&& a = 0) (hb : x &&& b = 0) :
    x &&& (a ||| b) = 0 := by
  refine UInt8.eq_of_toBitVec_eq ?_
  rw [UInt8.toBitVec_and, UInt8.toBitVec_or, BitVec.and_or_distrib_left, ← UInt8.toBitVec_and,
    ← UInt8.toBitVec_and, ha, hb]
  rfl

/-- No bit, no modifier. -/
theorem eq_zero_of_not_hostHolds {host : UInt8} (h : ∀ m, ¬ HostHolds host m) : host = 0 := by
  have hbit : ∀ m : Modifier, host &&& m.bit = 0 := fun m => not_not.mp (h m)
  have hall : (-1 : UInt8) = Modifier.ctrlLeft.bit ||| Modifier.ctrlRight.bit |||
      Modifier.shiftLeft.bit ||| Modifier.shiftRight.bit ||| Modifier.altLeft.bit |||
      Modifier.altRight.bit ||| Modifier.metaLeft.bit ||| Modifier.metaRight.bit := by decide
  rw [← UInt8.and_neg_one (a := host), hall]
  iterate 7 refine and_or_eq_zero ?_ (hbit _)
  exact hbit _

/-- **The host holds no modifier that the page does not mark**, in every run whose steps keep the
marks; and if the user holds no key, the host holds nothing. -/
theorem host_modifiers_marked {keyboardPath : String} {s : Session}
    (hr : (session keyboardPath).ReachVia KeepsMarks s) (hidle : s.inFlight = []) :
    (∀ m, HostHolds s.dev.held.modifier m → s.page.keyboardState.isKeyPressed m.code = true) ∧
      ((∀ code, s.userHolds code = false) → s.dev.held = releaseReport) := by
  obtain ⟨-, ⟨m, hheld⟩, hmarked⟩ := sessionInv hr
  have hhost : s.host = s.dev.held.modifier := by
    rw [Session.host, hidle]
    rfl
  rw [hhost] at hmarked
  refine ⟨fun m hm => (hmarked m hm).1, fun hfree => ?_⟩
  have hzero : s.dev.held.modifier = 0 := by
    refine eq_zero_of_not_hostHolds fun m hm => ?_
    have hholds := (hmarked m hm).2
    rw [hfree] at hholds
    cases hholds
  rw [hheld, modifier_modifierReport] at hzero
  rw [hheld, hzero, modifierReport_zero]

/-- Before anything happens. -/
def freshSession : Session := ⟨{}, [], ⟨fun _ => .delivered, 0, []⟩, fun _ => false⟩

/-- The left control key. -/
def leftCtrl : KeyboardEvent := { key := py "Control", code := py "ControlLeft", ctrlKey := true }

theorem host_modifiers_marked_left_ctrl : ∃ s,
    (session "/dev/hidg0").ReachVia KeepsMarks s ∧ s.page.connectedToServer = true ∧
      s.inFlight = [] ∧ HostHolds s.dev.held.modifier .ctrlLeft ∧
      ((∀ code, s.userHolds code = false) → s.dev.held = releaseReport) := by
  have h0 : (session "/dev/hidg0").ReachVia KeepsMarks freshSession :=
    .start ⟨rfl, rfl, fun _ => rfl, rfl, fun _ => rfl⟩
  have h1 := h0.step (a := SessionAction.event .connect) (fun h => absurd h List.not_mem_nil) rfl
  have h2 := h1.step (a := SessionAction.event (.keyDown leftCtrl))
    (fun _ h => absurd h (by decide)) rfl
  have h3 := h2.step (a := SessionAction.handleMessage) trivial rfl
  exact ⟨_, h3, rfl, rfl, by decide +kernel, (host_modifiers_marked h3 rfl).2⟩

/-- The control key goes up while the socket is disconnected: the host holds it from then on. -/
theorem release_while_disconnected_is_lost : ∃ s, (session "/dev/hidg0").Reach s ∧
    s.page.connectedToServer = true ∧ s.inFlight = [] ∧
      HostHolds s.dev.held.modifier .ctrlLeft ∧
      s.page.keyboardState.isKeyPressed Modifier.ctrlLeft.code = false ∧
      ∀ code, s.userHolds code = false := by
  have h0 : (session "/dev/hidg0").Reach freshSession :=
    .start ⟨rfl, rfl, fun _ => rfl, rfl, fun _ => rfl⟩
  have h1 := h0.exec [.event .connect, .event (.keyDown leftCtrl), .handleMessage,
    .event .disconnect, .event (.keyUp leftCtrl), .event .connect] rfl
  refine ⟨_, h1, rfl, rfl, by decide +kernel, by decide +kernel, fun code => ?_⟩
  simp [userHoldsAfter, freshSession]

end TinyPilotKvm
