/-
# The display's mode (`_find_best_mode` of `libs/drm/drm.c`)

`us_drm_open` looks for the mode of the display that suits the capture: one with its resolution and
its refresh rate, else one with its resolution, and so on down to the first of the list.  The
function gets the rate as a `float`; but `us_drm_open` keeps it in a `uint` on the way, so a rate of
59.94 Hz is looked for as 59 Hz.  Of several modes with the resolution the last is taken then.

Rates are exact rationals here.  The kernel gives no mode without pixels or lines.
-/
import TinyPilotKvm.Libs.Tools

namespace TinyPilotKvm

/-! ## 1. The code -/

/-- `drmModeModeInfo`, as far as it is read; `clock` is in kHz.  `interlace` and `dblscan` are bits
of `flags`, `preferred` is one of `type`. -/
structure DrmMode where
  clock : Nat
  hdisplay : Nat
  htotal : Nat
  vdisplay : Nat
  vtotal : Nat
  vscan : Nat
  interlace : Bool
  dblscan : Bool
  preferred : Bool
  hdisplay_pos : 0 < hdisplay
  htotal_pos : 0 < htotal
  vdisplay_pos : 0 < vdisplay
  vtotal_pos : 0 < vtotal

/-- `_get_refresh_rate`. -/
def getRefreshRate (mode : DrmMode) : ℚ :=
  let mhz := Int32.ofInt
    ((mode.clock * 1000000 / mode.htotal + mode.vtotal / 2) / mode.vtotal : Nat)
  let mhz := if mode.interlace then mhz * 2 else mhz
  let mhz := if mode.dblscan then mhz / 2 else mhz
  let mhz := if mode.vscan > 1 then mhz / Int32.ofInt mode.vscan else mhz
  (mhz.toInt : ℚ) / 1000

/-- The candidates of `_find_best_mode`. -/
structure ModeSearch where
  best : Option DrmMode
  closest : Option DrmMode
  pref : Option DrmMode

/-- The preferred mode is the first one. -/
def ModeSearch.keepPref (search : ModeSearch) (mode : DrmMode) : ModeSearch :=
  if search.pref.isNone && mode.preferred then { search with pref := some mode } else search

section

variable (width height : Nat) (hz : ℚ)

/-- The mode with the width and a lower height is the last one, unless one has the rate. -/
def ModeSearch.keepClosest (search : ModeSearch) (mode : DrmMode) : ModeSearch :=
  if mode.hdisplay = width ∧ mode.vdisplay < height ∧
      search.closest.all (fun closest => getRefreshRate closest ≠ hz) then
    { search with closest := some mode }
  else search

/-- The body of the loop, for a mode that is not interlaced; the flag says that it breaks. -/
def considerMode (search : ModeSearch) (mode : DrmMode) : ModeSearch × Bool :=
  let modeHz := getRefreshRate mode
  if width = 640 ∧ height = 416 ∧ mode.hdisplay = 640 ∧ mode.vdisplay = 480 ∧
      hz > 0 ∧ modeHz < hz then
    -- the mode itself is changed
    ({ search with best := some { mode with vdisplay := 416, vdisplay_pos := by decide } }, true)
  else if mode.hdisplay = width ∧ mode.vdisplay = height then
    let search := { search with best := some mode }
    if hz > 0 ∧ modeHz = hz then (search, true)
    else ((search.keepClosest width height hz mode).keepPref mode, false)
  else ((search.keepClosest width height hz mode).keepPref mode, false)

/-- The loop. -/
def searchModes : List DrmMode → ModeSearch → ModeSearch
  | [], search => search
  | mode :: modes, search =>
    if mode.interlace then searchModes modes search
    else
      match considerMode width height hz search mode with
      | (search, true) => search
      | (search, false) => searchModes modes search

/-- `_find_best_mode`. -/
def findBestMode (modes : List DrmMode) : Option DrmMode :=
  let search := searchModes width height hz modes ⟨none, none, none⟩
  ((search.best.or search.closest).or search.pref).or modes.head?

end

/-- The rate that `us_drm_open` passes on. -/
def usDrmOpenHz (hz : ℚ) : Nat := toUint (truncated hz).toNat

/-- The mode for a capture of this resolution and rate, through `us_drm_open` and
`_drm_find_sink`. -/
def usDrmOpenMode (width height : Nat) (hz : ℚ) (modes : List DrmMode) : Option DrmMode :=
  findBestMode width height (usDrmOpenHz hz) modes

/-- The rate of `_capture_open_dv_timings`; the total size is that of a progressive picture, or of a
field. -/
def captureHz (htot vtot pixelclock : Nat) : ℚ :=
  let size := toUint (htot * vtot)
  let fps := if size > 0 then toUint (100 * pixelclock / size) else 0
  ((fps / 100 : Nat) : ℚ) + ((fps % 100 : Nat) : ℚ) / 100

/-! ## 2. The pass over the list -/

section

variable {width height : Nat} {hz : ℚ} {mode : DrmMode} {search : ModeSearch}

/-- Progressive, with the resolution. -/
def IsExact (width height : Nat) (mode : DrmMode) : Prop :=
  mode.interlace = false ∧ mode.hdisplay = width ∧ mode.vdisplay = height

instance : DecidablePred (IsExact width height) := fun _ => inferInstanceAs (Decidable (_ ∧ _))

/-- Progressive, with the width and a lower height. -/
def IsLower (width height : Nat) (mode : DrmMode) : Prop :=
  mode.interlace = false ∧ mode.hdisplay = width ∧ mode.vdisplay < height

/-- Progressive, and preferred by the display. -/
def isPreferred (mode : DrmMode) : Bool := !mode.interlace && mode.preferred

/-- The mode at which the pass ends early. -/
def IsMatch (width height : Nat) (hz : ℚ) (mode : DrmMode) : Prop :=
  IsExact width height mode ∧ hz > 0 ∧ getRefreshRate mode = hz

instance : DecidablePred (IsMatch width height hz) := fun _ => inferInstanceAs (Decidable (_ ∧ _))

@[simp] theorem keepPref_best : (search.keepPref mode).best = search.best := by
  unfold ModeSearch.keepPref
  split <;> rfl

@[simp] theorem keepPref_closest : (search.keepPref mode).closest = search.closest := by
  unfold ModeSearch.keepPref
  split <;> rfl

@[simp] theorem keepClosest_best :
    (search.keepClosest width height hz mode).best = search.best := by
  unfold ModeSearch.keepClosest
  split <;> rfl

@[simp] theorem keepClosest_pref :
    (search.keepClosest width height hz mode).pref = search.pref := by
  unfold ModeSearch.keepClosest
  split <;> rfl

theorem keepPref_pref :
    (search.keepPref mode).pref = search.pref.or (if mode.preferred then some mode else none) := by
  unfold ModeSearch.keepPref
  cases hpref : search.pref <;> cases hpreferred : mode.preferred <;> simp [hpref]

/-- A mode that ends the pass. -/
theorem considerMode_match (hspecial : ¬(width = 640 ∧ height = 416))
    (h : IsMatch width height hz mode) :
    considerMode width height hz search mode = ({ search with best := some mode }, true) := by
  obtain ⟨⟨-, hexact⟩, hrate⟩ := h
  rw [considerMode, if_neg fun hs => hspecial ⟨hs.1, hs.2.1⟩, if_pos hexact, if_pos hrate]

/-- Another mode with the resolution. -/
theorem considerMode_exact (hspecial : ¬(width = 640 ∧ height = 416))
    (hexact : IsExact width height mode) (h : ¬IsMatch width height hz mode) :
    considerMode width height hz search mode
      = ((({ search with best := some mode } : ModeSearch).keepClosest width height hz
          mode).keepPref mode, false) := by
  rw [considerMode, if_neg fun hs => hspecial ⟨hs.1, hs.2.1⟩, if_pos hexact.2,
    if_neg fun hrate => h ⟨hexact, hrate⟩]

/-- A progressive mode with another resolution. -/
theorem considerMode_other (hspecial : ¬(width = 640 ∧ height = 416))
    (hprogressive : mode.interlace = false) (h : ¬IsExact width height mode) :
    considerMode width height hz search mode
      = ((search.keepClosest width height hz mode).keepPref mode, false) := by
  rw [considerMode, if_neg fun hs => hspecial ⟨hs.1, hs.2.1⟩,
    if_neg fun hexact => h ⟨hprogressive, hexact⟩]

/-- **The best mode** is the first that ends the pass, or else the last with the resolution. -/
theorem searchModes_best (hspecial : ¬(width = 640 ∧ height = 416)) :
    ∀ (modes : List DrmMode) (search : ModeSearch),
      (searchModes width height hz modes search).best
        = ((modes.find? (IsMatch width height hz ·)).or
          (modes.filter (IsExact width height ·)).getLast?).or search.best
  | [], search => rfl
  | mode :: modes, search => by
    have ih := searchModes_best hspecial modes
    cases hinterlace : mode.interlace with
    | true =>
      have hexact : ¬IsExact width height mode :=
        fun h => absurd (h.1.symm.trans hinterlace) (by simp)
      have hmatch : ¬IsMatch width height hz mode := fun h => hexact h.1
      rw [searchModes, if_pos hinterlace, ih, List.find?_cons_of_neg (by simpa using hmatch),
        List.filter_cons_of_neg (by simpa using hexact)]
    | false =>
      rw [searchModes, hinterlace, if_neg (by simp)]
      by_cases hmatch : IsMatch width height hz mode
      · rw [considerMode_match hspecial hmatch, List.find?_cons_of_pos (by simpa using hmatch)]
        rfl
      · rw [List.find?_cons_of_neg (by simpa using hmatch)]
        by_cases hexact : IsExact width height mode
        · rw [considerMode_exact hspecial hexact hmatch,
            List.filter_cons_of_pos (by simpa using hexact)]
          dsimp only
          rw [ih, keepPref_best, keepClosest_best, List.getLast?_cons]
          cases modes.find? (IsMatch width height hz ·) <;>
            cases (modes.filter (IsExact width height ·)).getLast? <;> rfl
        · rw [considerMode_other hspecial hinterlace hexact,
            List.filter_cons_of_neg (by simpa using hexact)]
          dsimp only
          rw [ih, keepPref_best, keepClosest_best]

/-- Without a mode with the resolution the pass goes through the whole list. -/
theorem searchModes_cons (hspecial : ¬(width = 640 ∧ height = 416)) {modes : List DrmMode}
    (h : ¬IsExact width height mode) :
    searchModes width height hz (mode :: modes) search
      = searchModes width height hz modes
        (if mode.interlace then search
        else (search.keepClosest width height hz mode).keepPref mode) := by
  cases hinterlace : mode.interlace with
  | true =>
    rw [searchModes, if_pos hinterlace]
    rfl
  | false =>
    rw [searchModes, hinterlace, if_neg (by simp), considerMode_other hspecial hinterlace h,
      if_neg (by simp)]

/-- **The preferred mode** is the first one then. -/
theorem searchModes_pref (hspecial : ¬(width = 640 ∧ height = 416)) :
    ∀ (modes : List DrmMode) (search : ModeSearch), (∀ m ∈ modes, ¬IsExact width height m) →
      (searchModes width height hz modes search).pref
        = search.pref.or (modes.find? isPreferred)
  | [], search, _ => by simp [searchModes]
  | mode :: modes, search, h => by
    have ih := searchModes_pref hspecial modes
    have hlater : ∀ m ∈ modes, ¬IsExact width height m :=
      fun m hm => h m (List.mem_cons_of_mem _ hm)
    rw [searchModes_cons hspecial (h mode List.mem_cons_self), ih _ hlater]
    cases hinterlace : mode.interlace with
    | true =>
      rw [if_pos rfl, List.find?_cons_of_neg (by simp [isPreferred, hinterlace])]
    | false =>
      rw [if_neg (by simp), keepPref_pref, keepClosest_pref]
      cases hpreferred : mode.preferred with
      | true =>
        rw [List.find?_cons_of_pos (by simp [isPreferred, hinterlace, hpreferred])]
        cases search.pref <;> rfl
      | false =>
        rw [List.find?_cons_of_neg (by simp [isPreferred, hpreferred])]
        cases search.pref <;> rfl

/-- A mode that is kept as the closest is one with the width and a lower height, or was kept
before. -/
theorem keepClosest_closest (search : ModeSearch) (width height : Nat) (hz : ℚ)
    (hprogressive : mode.interlace = false) :
    (∀ c, (search.keepClosest width height hz mode).closest = some c →
      search.closest = some c ∨ (c = mode ∧ IsLower width height mode)) ∧
    ((search.keepClosest width height hz mode).closest = none →
      search.closest = none ∧ ¬IsLower width height mode) := by
  unfold ModeSearch.keepClosest
  split
  · rename_i h
    refine ⟨fun c hc => .inr ⟨(Option.some.inj hc).symm, hprogressive, h.1, h.2.1⟩, fun hnone => ?_⟩
    exact absurd hnone (by simp)
  · rename_i h
    refine ⟨fun c hc => .inl hc, fun hnone => ⟨hnone, fun hlower => h ⟨hlower.2.1, hlower.2.2, ?_⟩⟩⟩
    rw [hnone]
    rfl

/-- **The closest mode** is one with the width and a lower height, if there is any. -/
theorem searchModes_closest (hz : ℚ) (hspecial : ¬(width = 640 ∧ height = 416)) :
    ∀ (modes : List DrmMode) (search : ModeSearch), (∀ m ∈ modes, ¬IsExact width height m) →
      (∀ c, (searchModes width height hz modes search).closest = some c →
        search.closest = some c ∨ (c ∈ modes ∧ IsLower width height c)) ∧
      ((searchModes width height hz modes search).closest = none →
        search.closest = none ∧ ∀ m ∈ modes, ¬IsLower width height m)
  | [], search, _ => ⟨fun c hc => .inl hc, fun h => ⟨h, fun m hm => absurd hm List.not_mem_nil⟩⟩
  | mode :: modes, search, h => by
    have hlater : ∀ m ∈ modes, ¬IsExact width height m :=
      fun m hm => h m (List.mem_cons_of_mem _ hm)
    rw [searchModes_cons hspecial (h mode List.mem_cons_self)]
    obtain ⟨hsome, hnone⟩ := searchModes_closest hz hspecial modes
      (if mode.interlace then search
        else (search.keepClosest width height hz mode).keepPref mode) hlater
    cases hinterlace : mode.interlace with
    | true =>
      rw [hinterlace, if_pos rfl] at hsome hnone
      rw [if_pos rfl]
      refine ⟨fun c hc => ?_, fun hc => ?_⟩
      · exact (hsome c hc).imp_right fun hmem => ⟨List.mem_cons_of_mem _ hmem.1, hmem.2⟩
      · refine ⟨(hnone hc).1, List.forall_mem_cons.mpr ⟨fun hlower => ?_, (hnone hc).2⟩⟩
        exact absurd (hlower.1.symm.trans hinterlace) (by simp)
    | false =>
      rw [hinterlace, if_neg (by simp), keepPref_closest] at hsome hnone
      rw [if_neg (by simp)]
      obtain ⟨hkept, hnot⟩ := keepClosest_closest search width height hz hinterlace
      refine ⟨fun c hc => ?_, fun hc => ?_⟩
      · rcases hsome c hc with hbefore | hmem
        · refine (hkept c hbefore).imp_right ?_
          rintro ⟨rfl, hlower⟩
          exact ⟨List.mem_cons_self, hlower⟩
        · exact .inr ⟨List.mem_cons_of_mem _ hmem.1, hmem.2⟩
      · obtain ⟨hfirst, hrest⟩ := hnone hc
        exact ⟨(hnot hfirst).1, List.forall_mem_cons.mpr ⟨(hnot hfirst).2, hrest⟩⟩

end

/-! ## 3. The mode that is chosen -/

section

variable {width height : Nat} {hz : ℚ} {modes : List DrmMode}

theorem isMatch_of_find? {m : DrmMode}
    (h : modes.find? (IsMatch width height hz ·) = some m) : IsMatch width height hz m := by
  have hdecide := List.find?_some h
  exact of_decide_eq_true hdecide

/-- With a mode of the resolution, the pass decides. -/
theorem findBestMode_exact (hspecial : ¬(width = 640 ∧ height = 416))
    (h : ∃ m ∈ modes, IsExact width height m) :
    findBestMode width height hz modes
      = (modes.find? (IsMatch width height hz ·)).or
        (modes.filter (IsExact width height ·)).getLast? := by
  obtain ⟨m, hm, hexact⟩ := h
  have hlast : (modes.filter (IsExact width height ·)).getLast? ≠ none := by
    rw [Ne, List.getLast?_eq_none_iff, List.filter_eq_nil_iff]
    exact fun hnone => hnone m hm (by simpa using hexact)
  obtain ⟨last, hlast⟩ := Option.ne_none_iff_exists'.mp hlast
  rw [findBestMode, searchModes_best hspecial, hlast]
  cases modes.find? (IsMatch width height hz ·) <;> rfl

/-- Without one, the closest mode comes first. -/
theorem findBestMode_not_exact (hspecial : ¬(width = 640 ∧ height = 416))
    (h : ∀ m ∈ modes, ¬IsExact width height m) :
    findBestMode width height hz modes
      = ((searchModes width height hz modes ⟨none, none, none⟩).closest.or
        (modes.find? isPreferred)).or modes.head? := by
  have hmatch : modes.find? (IsMatch width height hz ·) = none := by
    rw [List.find?_eq_none]
    exact fun m hm hmatch => h m hm (of_decide_eq_true hmatch).1
  have hfilter : modes.filter (IsExact width height ·) = [] := by
    rw [List.filter_eq_nil_iff]
    exact fun m hm hexact => h m hm (of_decide_eq_true hexact)
  rw [findBestMode, searchModes_best hspecial, hmatch, hfilter, searchModes_pref hspecial modes _ h]
  rfl

/-- A mode that is found with the resolution is one of the list. -/
theorem mem_of_found {m : DrmMode}
    (h : (modes.find? (IsMatch width height hz ·)).or
      (modes.filter (IsExact width height ·)).getLast? = some m) :
    m ∈ modes ∧ IsExact width height m := by
  rw [Option.or_eq_some_iff] at h
  rcases h with hfind | ⟨-, hlast⟩
  · exact ⟨List.mem_of_find?_eq_some hfind, (isMatch_of_find? hfind).1⟩
  · have hmem := List.mem_filter.mp (List.mem_of_getLast? hlast)
    exact ⟨hmem.1, of_decide_eq_true hmem.2⟩

/-- **A mode with the resolution** is chosen if there is any. -/
theorem findBestMode_resolution (hspecial : ¬(width = 640 ∧ height = 416))
    (h : ∃ m ∈ modes, IsExact width height m) :
    ∃ m ∈ modes, findBestMode width height hz modes = some m ∧ IsExact width height m := by
  have hchosen : findBestMode width height hz modes = _ := findBestMode_exact hspecial h
  cases hfound : findBestMode width height hz modes with
  | none =>
    obtain ⟨m, hm, hexact⟩ := h
    rw [hchosen, Option.or_eq_none_iff, List.getLast?_eq_none_iff, List.filter_eq_nil_iff] at hfound
    exact absurd (decide_eq_true hexact) (hfound.2 m hm)
  | some m =>
    obtain ⟨hm, hexact⟩ := mem_of_found (hchosen.symm.trans hfound)
    exact ⟨m, hm, rfl, hexact⟩

/-- **Then one with the width and a lower height.** -/
theorem findBestMode_lower (hspecial : ¬(width = 640 ∧ height = 416))
    (h : ∀ m ∈ modes, ¬IsExact width height m) (hlower : ∃ m ∈ modes, IsLower width height m) :
    ∃ m ∈ modes, findBestMode width height hz modes = some m ∧ IsLower width height m := by
  obtain ⟨hsome, hnone⟩ := searchModes_closest hz hspecial modes ⟨none, none, none⟩ h
  rw [findBestMode_not_exact hspecial h]
  cases hclosest : (searchModes width height hz modes ⟨none, none, none⟩).closest with
  | none =>
    obtain ⟨m, hm, hml⟩ := hlower
    exact absurd hml ((hnone hclosest).2 m hm)
  | some m =>
    rcases hsome m hclosest with habsurd | ⟨hm, hml⟩
    · exact absurd habsurd (by simp)
    · exact ⟨m, hm, rfl, hml⟩

/-- **Then the preferred one, or the first of all.** -/
theorem findBestMode_preferred (hspecial : ¬(width = 640 ∧ height = 416))
    (h : ∀ m ∈ modes, ¬IsExact width height m) (hlower : ∀ m ∈ modes, ¬IsLower width height m) :
    findBestMode width height hz modes = (modes.find? isPreferred).or modes.head? := by
  obtain ⟨hsome, -⟩ := searchModes_closest hz hspecial modes ⟨none, none, none⟩ h
  rw [findBestMode_not_exact hspecial h]
  cases hclosest : (searchModes width height hz modes ⟨none, none, none⟩).closest with
  | none => rfl
  | some m =>
    rcases hsome m hclosest with habsurd | ⟨hm, hml⟩
    · exact absurd habsurd (by simp)
    · exact absurd hml (hlower m hm)

/-- The mode that suits the capture. -/
structure RightMode (modes : List DrmMode) (width height : Nat) (hz : ℚ)
    (chosen : Option DrmMode) : Prop where
  rate : (∃ m ∈ modes, IsExact width height m ∧ getRefreshRate m = hz) →
    ∃ m ∈ modes, chosen = some m ∧ IsExact width height m ∧ getRefreshRate m = hz
  resolution : (∃ m ∈ modes, IsExact width height m) →
    ∃ m ∈ modes, chosen = some m ∧ IsExact width height m
  lower : (∀ m ∈ modes, ¬IsExact width height m) → (∃ m ∈ modes, IsLower width height m) →
    ∃ m ∈ modes, chosen = some m ∧ IsLower width height m
  preferred : (∀ m ∈ modes, ¬IsExact width height m) → (∀ m ∈ modes, ¬IsLower width height m) →
    chosen = (modes.find? isPreferred).or modes.head?

/-- Whatever rate it looks for, `_find_best_mode` keeps the order of preference; only the rate can
be another one. -/
theorem rightMode_iff_rate (hspecial : ¬(width = 640 ∧ height = 416)) (sought : ℚ) :
    RightMode modes width height hz (findBestMode width height sought modes) ↔
      ((∃ m ∈ modes, IsExact width height m ∧ getRefreshRate m = hz) →
        ∃ m, findBestMode width height sought modes = some m ∧ getRefreshRate m = hz) := by
  constructor
  · intro hright hsome
    obtain ⟨m, -, hchosen, -, hrate⟩ := hright.rate hsome
    exact ⟨m, hchosen, hrate⟩
  · intro hrate
    refine ⟨fun hsome => ?_, findBestMode_resolution hspecial, findBestMode_lower hspecial,
      findBestMode_preferred hspecial⟩
    obtain ⟨m, hchosen, hm⟩ := hrate hsome
    obtain ⟨a, ha, haexact, -⟩ := hsome
    obtain ⟨b, hb, hchosen', hbexact⟩ := findBestMode_resolution hspecial ⟨a, ha, haexact⟩
    obtain rfl : m = b := Option.some.inj (hchosen.symm.trans hchosen')
    exact ⟨m, hb, hchosen, hbexact, hm⟩

/-- **The mode suits the capture** exactly when the rate is a whole number, or no mode with the
resolution has it, or else no such mode has the rate rounded down but the last of them has the
capture's. -/
theorem drm_mode_right_iff (modes : List DrmMode) (width height : Nat) (hz : ℚ) (hhz : 0 < hz)
    (hspecial : ¬(width = 640 ∧ height = 416)) :
    RightMode modes width height hz (usDrmOpenMode width height hz modes) ↔
      (usDrmOpenHz hz : ℚ) = hz ∨
      (∀ m ∈ modes, IsExact width height m → getRefreshRate m ≠ hz) ∨
      (∀ m ∈ modes, IsExact width height m →
        usDrmOpenHz hz = 0 ∨ getRefreshRate m ≠ usDrmOpenHz hz) ∧
        ∃ m, (modes.filter (IsExact width height ·)).getLast? = some m ∧
          getRefreshRate m = hz := by
  rw [usDrmOpenMode, rightMode_iff_rate hspecial]
  constructor
  · intro hrate
    by_cases hwhole : (usDrmOpenHz hz : ℚ) = hz
    · exact .inl hwhole
    by_cases hany : ∃ m ∈ modes, IsExact width height m ∧ getRefreshRate m = hz
    · obtain ⟨m, hchosen, hm⟩ := hrate hany
      obtain ⟨a, ha, hexact, -⟩ := hany
      rw [findBestMode_exact hspecial ⟨a, ha, hexact⟩, Option.or_eq_some_iff] at hchosen
      rcases hchosen with hfind | ⟨hnone, hlast⟩
      · -- the mode found has the rate rounded down
        exact absurd ((isMatch_of_find? hfind).2.2.symm.trans hm) hwhole
      · refine .inr (.inr ⟨fun b hb hbexact => ?_, m, hlast, hm⟩)
        rw [List.find?_eq_none] at hnone
        rcases Nat.eq_zero_or_pos (usDrmOpenHz hz) with hzero | hpos
        · exact .inl hzero
        · refine .inr fun hbrate => hnone b hb (decide_eq_true ⟨hbexact, ?_, hbrate⟩)
          exact_mod_cast hpos
    · exact .inr (.inl fun m hm hexact hmrate => hany ⟨m, hm, hexact, hmrate⟩)
  · rintro (hwhole | hnot | ⟨hnot, m, hlast, hm⟩) ⟨a, ha, hexact, harate⟩
    · have hmatch : IsMatch width height (usDrmOpenHz hz) a := by
        rw [hwhole]
        exact ⟨hexact, hhz, harate⟩
      rw [findBestMode_exact hspecial ⟨a, ha, hexact⟩]
      cases hfind : modes.find? (IsMatch width height (usDrmOpenHz hz) ·) with
      | none =>
        rw [List.find?_eq_none] at hfind
        exact absurd (decide_eq_true hmatch) (hfind a ha)
      | some m =>
        exact ⟨m, rfl, (isMatch_of_find? hfind).2.2.trans hwhole⟩
    · exact absurd harate (hnot a ha hexact)
    · have hnone : modes.find? (IsMatch width height (usDrmOpenHz hz) ·) = none := by
        rw [List.find?_eq_none]
        intro b hb hmatch
        obtain ⟨hbexact, hpos, hbrate⟩ := of_decide_eq_true hmatch
        rcases hnot b hb hbexact with hzero | hother
        · rw [hzero] at hpos
          exact absurd hpos (by simp)
        · exact hother hbrate
      rw [findBestMode_exact hspecial ⟨a, ha, hexact⟩, hnone, hlast]
      exact ⟨m, rfl, hm⟩

end

/-- 1920x1080 with this clock, in kHz. -/
def fullHdMode (clock : Nat) : DrmMode :=
  { clock := clock, hdisplay := 1920, htotal := 2200, vdisplay := 1080, vtotal := 1125, vscan := 0,
    interlace := false, dblscan := false, preferred := false, hdisplay_pos := by decide,
    htotal_pos := by decide, vdisplay_pos := by decide, vtotal_pos := by decide }

/-- A capture of 60 Hz gets the mode of 60 Hz, which is not the last one. -/
theorem drm_mode_right_iff_sixty :
    RightMode [fullHdMode 148500, fullHdMode 148352] 1920 1080 (captureHz 2200 1125 148500000)
      (usDrmOpenMode 1920 1080 (captureHz 2200 1125 148500000)
        [fullHdMode 148500, fullHdMode 148352]) := by
  have hrate : captureHz 2200 1125 148500000 = 60 := by
    norm_num [captureHz, toUint]
  refine (drm_mode_right_iff _ 1920 1080 _ (by rw [hrate]; norm_num) (by decide)).mpr (.inl ?_)
  rw [hrate]
  decide +kernel

/-- A capture of 59.94 Hz gets the mode of 60 Hz although the display has one of 59.94 Hz. -/
theorem fractional_rate_missed :
    ¬RightMode [fullHdMode 148352, fullHdMode 148500] 1920 1080 (captureHz 2200 1125 148351648)
      (usDrmOpenMode 1920 1080 (captureHz 2200 1125 148351648)
        [fullHdMode 148352, fullHdMode 148500]) := by
  rw [usDrmOpenMode, rightMode_iff_rate (by decide)]
  intro hrate
  obtain ⟨m, hchosen, hm⟩ := hrate ⟨fullHdMode 148352, List.mem_cons_self, by decide +kernel,
    by decide +kernel⟩
  have hsixty : (findBestMode 1920 1080 (usDrmOpenHz (captureHz 2200 1125 148351648))
      [fullHdMode 148352, fullHdMode 148500]).map getRefreshRate = some 60 := by
    decide +kernel
  rw [hchosen, Option.map_some, hm] at hsixty
  exact absurd hsixty (by decide +kernel)

end TinyPilotKvm
