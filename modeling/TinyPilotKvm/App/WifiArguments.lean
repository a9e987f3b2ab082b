/-
# Accepted Wi-Fi settings and the checks of `enable-wifi`

`parse_wifi_settings` counts characters: those of the country code before it becomes upper case, and
those of the password.  The script counts the bytes that `echo -n` prints: those of the upper-case
code, **and none of an argument that `echo` takes for an option**.  The API has answered when the
script refuses.

`wifi_arguments_iff` says for which accepted settings the checks succeed.
-/
import TinyPilotKvm.App.WifiSettings

namespace TinyPilotKvm

open PyStr

/-! ## 1. What agreement is -/

/-- The script comes to the end of its checks. -/
def ChecksSucceed (args : List (List UInt8)) : Prop :=
  ∃ v, parseArgs args ⟨[], [], []⟩ = .vars v ∧ checkVars v = none

/-- `echo -n` prints the argument, and it has a number of bytes in this range. -/
def Measures (lo hi : Nat) (arg : List UInt8) : Prop :=
  Bash.isEchoOption arg = false ∧ lo ≤ arg.length ∧ arg.length ≤ hi

/-- The country code, in upper case, has two bytes, and the password at most 63, and neither is an
option of `echo`. -/
structure FitsScript (s : WifiSettings) : Prop where
  country : ∀ countryCode code, s.countryCode = some countryCode →
    fsencode countryCode = some code → Measures 2 2 code
  psk : ∀ psk key, s.psk = some psk → fsencode psk = some key →
    Bash.isEchoOption key = false ∧ key.length ≤ 63

/-! ## 2. What the parser accepts -/

theorem parseSsid_eq_ok {value : Json} {ssid : PyStr} (h : parseSsid value = .ok ssid) :
    1 ≤ ssid.length := by
  have hne := parseSsid_ne_nil h
  exact List.length_pos_iff.mpr hne

theorem parsePsk_eq_ok {value : Json} {psk : PyStr} (h : parsePsk value = .ok (some psk)) :
    8 ≤ psk.length ∧ psk.length ≤ 63 := by
  unfold parsePsk at h
  split at h
  · cases h
  · split at h
    · cases h
    · cases h
      omega
  · cases h

/-- The settings that are accepted. -/
theorem parseWifiSettings_eq_ok {isAlpha : PyStr → Bool} {upper : PyStr → PyStr}
    {body : Except ApiException Json} {s : WifiSettings}
    (h : parseWifiSettings isAlpha upper body = .ok s) : ∃ countryCode ssid psk,
      s = ⟨some (upper countryCode), some ssid, psk⟩ ∧ 1 ≤ ssid.length ∧
        ∀ key, psk = some key → 8 ≤ key.length ∧ key.length ≤ 63 := by
  unfold parseWifiSettings at h
  obtain ⟨_, -, h⟩ := bind_eq_ok h
  obtain ⟨_, -, h⟩ := bind_eq_ok h
  obtain ⟨_, -, h⟩ := bind_eq_ok h
  obtain ⟨countryCode, -, h⟩ := bind_eq_ok h
  obtain ⟨ssid, hssid, h⟩ := bind_eq_ok h
  obtain ⟨psk, hpsk, h⟩ := bind_eq_ok h
  refine ⟨countryCode, ssid, psk, (Except.ok.inj h).symm, parseSsid_eq_ok hssid, ?_⟩
  rintro key rfl
  exact parsePsk_eq_ok hpsk

/-! ## 3. What the script gets -/

theorem encodeArg_eq_some {arg : PyStr} {bytes : List UInt8} (h : encodeArg arg = some bytes) :
    fsencode arg = some bytes := by
  obtain ⟨found, hfound, harg⟩ := Option.bind_eq_some_iff.mp h
  split at harg
  · cases harg
  · cases harg
    exact hfound

theorem length_le_fsencodeChar {c : Nat} {bytes : List UInt8} (h : fsencodeChar c = some bytes) :
    1 ≤ bytes.length := by
  unfold fsencodeChar at h
  split at h
  · cases h
    exact le_refl 1
  · split at h
    · cases h
      rw [String.length_utf8EncodeChar]
      exact Char.utf8Size_pos _
    · cases h

/-- An argument has at least as many bytes as characters. -/
theorem length_le_fsencode : ∀ {s : PyStr} {bytes : List UInt8}, fsencode s = some bytes →
    s.length ≤ bytes.length := by
  intro s
  induction s with
  | nil =>
    intro bytes h
    exact Nat.zero_le _
  | cons c s ih =>
    intro bytes h
    rw [fsencode] at h
    obtain ⟨first, hfirst, h⟩ := Option.bind_eq_some_iff.mp h
    obtain ⟨rest, hrest, h⟩ := Option.bind_eq_some_iff.mp h
    cases h
    have hc := length_le_fsencodeChar hfirst
    have hs := ih hrest
    simp only [List.length_append, List.length_cons]
    omega

/-- The variables of the script, after the loop over the arguments of `enable_wifi`. -/
theorem parseArgs_enableWifiArgs {countryCode ssid : PyStr} {psk : Option PyStr}
    {args : List (List UInt8)}
    (h : enableWifiArgs ⟨some countryCode, some ssid, psk⟩ = some args) :
    ∃ code name key, fsencode countryCode = some code ∧ fsencode ssid = some name ∧
      fsencode (psk.getD []) = some key ∧
      parseArgs args ⟨[], [], []⟩ = .vars ⟨code, name, key⟩ := by
  have hcountryFlag : encodeArg (py "--country") = some (asciiBytes "--country") := by decide
  have hssidFlag : encodeArg (py "--ssid") = some (asciiBytes "--ssid") := by decide
  have hpskFlag : encodeArg (py "--psk") = some (asciiBytes "--psk") := by decide
  cases hcode : encodeArg countryCode with
  | none => simp [enableWifiArgs, hcountryFlag, hcode] at h
  | some code =>
    cases hname : encodeArg ssid with
    | none => simp [enableWifiArgs, hcountryFlag, hssidFlag, hname] at h
    | some name =>
      by_cases hempty : psk.getD [] = []
      · have hargs : [asciiBytes "--country", code, asciiBytes "--ssid", name] = args := by
          simpa [enableWifiArgs, hempty, hcountryFlag, hssidFlag, hcode, hname] using h
        subst hargs
        refine ⟨code, name, [], encodeArg_eq_some hcode, encodeArg_eq_some hname, ?_, rfl⟩
        rw [hempty]
        rfl
      · cases hkey : encodeArg (psk.getD []) with
        | none => simp [enableWifiArgs, hempty, hcountryFlag, hssidFlag, hpskFlag, hkey] at h
        | some key =>
          have hargs : [asciiBytes "--country", code, asciiBytes "--ssid", name,
              asciiBytes "--psk", key] = args := by
            simpa [enableWifiArgs, hempty, hcountryFlag, hssidFlag, hpskFlag, hcode, hname,
              hkey] using h
          subst hargs
          exact ⟨code, name, key, encodeArg_eq_some hcode, encodeArg_eq_some hname,
            encodeArg_eq_some hkey, rfl⟩

/-! ## 4. The checks -/

theorem countBytes_iff {lo hi : Nat} (hlo : 1 ≤ lo) (arg : List UInt8) :
    (lo ≤ countBytes arg ∧ countBytes arg ≤ hi) ↔ Measures lo hi arg := by
  unfold countBytes Bash.echoN Measures
  cases Bash.isEchoOption arg with
  | true =>
    simp only [if_true, List.length_nil, reduceCtorEq, false_and, iff_false]
    omega
  | false => simp

theorem checkVars_eq_none_iff {v : WifiVars} : checkVars v = none ↔
    v.country ≠ [] ∧ countBytes v.country = 2 ∧ v.ssid ≠ [] ∧
      (v.psk ≠ [] → 8 ≤ countBytes v.psk ∧ countBytes v.psk ≤ 63) := by
  unfold checkVars
  split_ifs with hcountry hcount hssid hpsk
  · simp [hcountry]
  · simp [hcount]
  · simp [hssid]
  · simp only [false_iff]
    rintro ⟨-, -, -, h⟩
    have := h hpsk.1
    omega
  · simp only [true_iff]
    refine ⟨hcountry, not_not.mp hcount, hssid, fun hne => ?_⟩
    by_contra hrange
    exact hpsk ⟨hne, by omega⟩

theorem measures_ne_nil {lo hi : Nat} (hlo : 1 ≤ lo) {arg : List UInt8}
    (h : Measures lo hi arg) : arg ≠ [] := by
  rintro rfl
  have hlength := h.2.1
  rw [List.length_nil] at hlength
  omega

/-- The checks, for the variables of a run of `enable_wifi`. -/
theorem checksSucceed_iff {args : List (List UInt8)} {code name key : List UInt8}
    (hvars : parseArgs args ⟨[], [], []⟩ = .vars ⟨code, name, key⟩) (hname : name ≠ []) :
    ChecksSucceed args ↔ Measures 2 2 code ∧ (key ≠ [] → Measures 8 63 key) := by
  have hrun : ChecksSucceed args ↔ checkVars ⟨code, name, key⟩ = none := by
    unfold ChecksSucceed
    rw [hvars]
    constructor
    · rintro ⟨v, hv, hcheck⟩
      cases hv
      exact hcheck
    · exact fun hcheck => ⟨_, rfl, hcheck⟩
  rw [hrun, checkVars_eq_none_iff, ← countBytes_iff (by decide : 1 ≤ 2),
    ← countBytes_iff (by decide : 1 ≤ 8)]
  constructor
  · rintro ⟨-, hcount, -, hkey⟩
    exact ⟨by rw [hcount]; exact ⟨le_refl 2, le_refl 2⟩, hkey⟩
  · rintro ⟨hcount, hkey⟩
    have hmeasures := (countBytes_iff (by decide : 1 ≤ 2) code).mp hcount
    exact ⟨measures_ne_nil (by decide) hmeasures, le_antisymm hcount.2 hcount.1, hname, hkey⟩

/-- **The checks succeed exactly for the settings that fit**, of those that the parser accepts and
that are passed to the script. -/
theorem wifi_arguments_iff {isAlpha : PyStr → Bool} {upper : PyStr → PyStr}
    {body : Except ApiException Json} {s : WifiSettings} {args : List (List UInt8)}
    (hparse : parseWifiSettings isAlpha upper body = .ok s)
    (hargs : enableWifiArgs s = some args) : ChecksSucceed args ↔ FitsScript s := by
  obtain ⟨countryCode, ssid, psk, rfl, hssid, hpsk⟩ := parseWifiSettings_eq_ok hparse
  obtain ⟨code, name, key, hcode, hname, hkey, hvars⟩ := parseArgs_enableWifiArgs hargs
  have hnameNe : name ≠ [] := by
    rintro rfl
    have hlength := length_le_fsencode hname
    rw [List.length_nil] at hlength
    omega
  rw [checksSucceed_iff hvars hnameNe]
  constructor
  · rintro ⟨hmeasures, hlong⟩
    constructor
    · intro _ _ hc hencode
      cases hc
      cases hcode.symm.trans hencode
      exact hmeasures
    · rintro p _ rfl hencode
      cases hkey.symm.trans hencode
      have hkeyLength := length_le_fsencode hkey
      have hlower := (hpsk p rfl).1
      rw [Option.getD_some] at hkeyLength
      have hne : key ≠ [] := by
        rintro rfl
        rw [List.length_nil] at hkeyLength
        omega
      exact ⟨(hlong hne).1, (hlong hne).2.2⟩
  · rintro ⟨hcountry, hfits⟩
    refine ⟨hcountry _ code rfl hcode, fun hne => ?_⟩
    cases psk with
    | none =>
      cases hkey
      exact absurd rfl hne
    | some p =>
      obtain ⟨hoption, hlength⟩ := hfits p key rfl hkey
      have hlower := (hpsk p rfl).1
      have hkeyLength := length_le_fsencode hkey
      rw [Option.getD_some] at hkeyLength
      exact ⟨hoption, by omega, hlength⟩

/-- A request with a password. -/
def securedRequest (countryCode ssid psk : PyStr) : Except ApiException Json :=
  .ok (.dict [(py "countryCode", .str countryCode), (py "ssid", .str ssid), (py "psk", .str psk)])

/-- A network and a password of this kind. -/
theorem wifi_arguments_iff_us :
    ChecksSucceed [asciiBytes "--country", asciiBytes "US", asciiBytes "--ssid",
      asciiBytes "Office", asciiBytes "--psk", asciiBytes "battery staple"] := by
  have hparse : parseWifiSettings asciiIsAlpha asciiUpper
      (securedRequest (py "us") (py "Office") (py "battery staple"))
        = .ok ⟨some (py "US"), some (py "Office"), some (py "battery staple")⟩ := rfl
  refine (wifi_arguments_iff hparse (by decide)).mpr ⟨?_, ?_⟩
  · rintro countryCode code hcountry hcode
    cases hcountry
    cases (show fsencode (py "US") = some (asciiBytes "US") by decide).symm.trans hcode
    exact ⟨by decide, by decide, by decide⟩
  · rintro psk key hpsk hkey
    cases hpsk
    cases (show fsencode (py "battery staple") = some (asciiBytes "battery staple") by
      decide).symm.trans hkey
    exact ⟨by decide, by decide⟩

/-- `isalpha` and `upper` of the Latin-1 letters that have one upper-case letter of that block. -/
def latinIsAlpha (s : PyStr) : Bool :=
  s ≠ [] && s.all fun c => IsAsciiLetter c || (0xC0 ≤ c && c ≤ 0xFE && c ≠ 0xD7 && c ≠ 0xF7)

def latinUpper (s : PyStr) : PyStr :=
  s.map fun c => if (97 ≤ c ∧ c ≤ 122) ∨ (0xE0 ≤ c ∧ c ≤ 0xFE) then c - 32 else c

/-- **Two letters, four bytes**: the script refuses a country code of two letters that are not
ASCII. -/
theorem accepted_country_refused :
    parseWifiSettings latinIsAlpha latinUpper (securedRequest [0xE9, 0xE9] (py "Office")
        (py "battery staple"))
      = .ok ⟨some [0xC9, 0xC9], some (py "Office"), some (py "battery staple")⟩ ∧
    ∃ args, enableWifiArgs ⟨some [0xC9, 0xC9], some (py "Office"), some (py "battery staple")⟩
        = some args ∧ ¬ ChecksSucceed args := by
  refine ⟨rfl, [asciiBytes "--country", [0xC3, 0x89, 0xC3, 0x89], asciiBytes "--ssid",
    asciiBytes "Office", asciiBytes "--psk", asciiBytes "battery staple"], by decide, ?_⟩
  rintro ⟨v, hv, hcheck⟩
  cases hv
  exact absurd hcheck (by decide)

end TinyPilotKvm
