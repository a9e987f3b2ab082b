/-
# Wi-Fi settings (`app/request_parsers/network.py`, `app/network.py`)

A country code and an SSID come from a request, go to `enable-wifi` as arguments, and are read back
from the marker section of `wpa_supplicant.conf`.  **The SSID may have any characters**: a backslash
sequence is expanded on the way, and what is a line end to `echo` or to `splitlines` ends the line.

`wifi_round_trip_iff` says for which SSIDs the section is as it should be and the settings come
back.
-/
import TinyPilotKvm.App.VideoSettings
import TinyPilotKvm.Python.Text
import TinyPilotKvm.Scripts.EnableWifi

namespace TinyPilotKvm

open PyStr

/-! ## 1. The request -/

/-- `WifiSettings`. -/
structure WifiSettings where
  countryCode : Option PyStr
  ssid : Option PyStr
  psk : Option PyStr

inductive WifiRequestError
  /-- An error of `parse_json_body`. -/
  | body (e : ApiException)
  | invalidWifiSettings (message : String)

/-- The country code in a request; `isAlpha` is `isalpha`. -/
def parseCountryCode (isAlpha : PyStr → Bool) : Json → Except WifiRequestError PyStr
  | .str countryCode =>
    if countryCode.length ≠ 2 then
      .error (.invalidWifiSettings "The country code must consist of 2 characters.")
    else if !isAlpha countryCode then
      .error (.invalidWifiSettings "The country code must only contain letters.")
    else .ok countryCode
  | _ => .error (.invalidWifiSettings "The country code must be a string.")

/-- The SSID in a request. -/
def parseSsid : Json → Except WifiRequestError PyStr
  | .str ssid =>
    if ssid.length = 0 then .error (.invalidWifiSettings "The SSID cannot be empty.")
    else .ok ssid
  | _ => .error (.invalidWifiSettings "The SSID must be a string.")

/-- The password in a request. -/
def parsePsk : Json → Except WifiRequestError (Option PyStr)
  | .null => .ok none
  | .str psk =>
    if psk.length < 8 ∨ 63 < psk.length then
      .error (.invalidWifiSettings "The password must consist of 8-63 characters.")
    else .ok (some psk)
  | _ => .error (.invalidWifiSettings "The password must be a string.")

/-- `parse_wifi_settings`; `isAlpha` and `upper` are `isalpha` and `upper`. -/
def parseWifiSettings (isAlpha : PyStr → Bool) (upper : PyStr → PyStr)
    (body : Except ApiException Json) : Except WifiRequestError WifiSettings := do
  let countryCode ← (requiredField body "countryCode").mapError .body
  let ssid ← (requiredField body "ssid").mapError .body
  let psk ← (requiredField body "psk").mapError .body
  let countryCode ← parseCountryCode isAlpha countryCode
  let ssid ← parseSsid ssid
  let psk ← parsePsk psk
  return ⟨some (upper countryCode), some ssid, psk⟩

/-! ## 2. The command line -/

/-- An argument for a new process: not every text can be one. -/
def encodeArg (arg : PyStr) : Option (List UInt8) := do
  let bytes ← fsencode arg
  if 0 ∈ bytes then none else return bytes

/-- The arguments of the script that `enable_wifi` runs, unless it fails before. -/
def enableWifiArgs (wifiSettings : WifiSettings) : Option (List (List UInt8)) := do
  let countryCode ← wifiSettings.countryCode
  let ssid ← wifiSettings.ssid
  let psk := wifiSettings.psk.getD []
  ([py "--country", countryCode, py "--ssid", ssid] ++
    if psk = [] then [] else [py "--psk", psk]).mapM encodeArg

/-! ## 3. Reading -/

/-- `(.+)` with all of a text. -/
def anyText (s : PyStr) : Option PyStr := if s ≠ [] ∧ 10 ∉ s then some s else none

/-- What is before `$`, which may stand before a newline at the end. -/
def beforeEnd (s : PyStr) : PyStr := if s.getLast? = some 10 then s.dropLast else s

/-- What is after `^\s*` and `start`. -/
def afterStart (start line : PyStr) : Option PyStr := (line.dropWhile isSpace).dropPrefix? start

/-- `_WIFI_COUNTRY_PATTERN`. -/
def matchCountry (line : PyStr) : Option PyStr := do
  anyText (beforeEnd (← afterStart (py "country=") line))

/-- `_WIFI_SSID_PATTERN`. -/
def matchSsid (line : PyStr) : Option PyStr := do
  let rest := beforeEnd (← afterStart (py "ssid=\"") line)
  if rest.getLast? = some 34 then anyText rest.dropLast else none

/-- A turn of the loop. -/
def readSetting (wifi : WifiSettings) (line : PyStr) : WifiSettings :=
  match matchCountry (strip line) with
  | some countryCode => { wifi with countryCode := some countryCode }
  | none =>
    match matchSsid (strip line) with
    | some ssid => { wifi with ssid := some ssid }
    | none => wifi

inductive ReadWifiError
  | networkError (message : PyStr)
  | unicodeDecodeError

/-- `determine_wifi_settings`, with the file as it is. -/
def determineWifiSettings (content : List UInt8) : Except ReadWifiError WifiSettings :=
  match printMarkerSections content with
  | .error message => .error (.networkError (py message))
  | .ok output =>
    match decodeUtf8 output with
    | none => .error .unicodeDecodeError
    | some text =>
      .ok ((splitlines (universalNewlines text) []).foldl readSetting ⟨none, none, none⟩)

/-! ## 4. The round trip -/

def IsAsciiLetter (c : Nat) : Prop := (65 ≤ c ∧ c ≤ 90) ∨ (97 ≤ c ∧ c ≤ 122)

instance (c : Nat) : Decidable (IsAsciiLetter c) := inferInstanceAs (Decidable (_ ∨ _))

/-- What the file should be after `enable-wifi`: its section has one country line and one `network`
block with an SSID line and a `key_mgmt` line, and the settings are read back. -/
structure RoundTrips (countryCode ssid : PyStr) (content : List UInt8) : Prop where
  lines : ∃ code name, fsencode countryCode = some code ∧
    sectionContents content = .ok (openLines code name)
  settings : determineWifiSettings content = .ok ⟨some countryCode, some ssid, none⟩

/-- An SSID of one line, without lone surrogates and without backslash sequences for `echo -e`. -/
def PlainSsid (ssid : PyStr) : Prop :=
  (∀ c ∈ ssid, ¬ IsLineBoundary c ∧ ¬ IsSurrogate c) ∧
    ¬ Bash.HasEscape ((fsencode ssid).getD [])

instance (ssid : PyStr) : Decidable (PlainSsid ssid) := inferInstanceAs (Decidable (_ ∧ _))

/-! ## 5. The patterns -/

theorem strip_eq_self {c d : Nat} (hc : isSpace c = false) (hd : isSpace d = false) (m : PyStr) :
    strip (c :: (m ++ [d])) = c :: (m ++ [d]) := by
  have hlast : c :: (m ++ [d]) = (c :: m) ++ [d] := rfl
  unfold strip
  rw [List.dropWhile_cons_of_neg (by simp [hc]), hlast,
    List.rdropWhile_concat_neg _ _ _ (by simp [hd])]

theorem afterStart_append {c : Nat} (hc : isSpace c = false) (start rest : PyStr) :
    afterStart (c :: start) (c :: start ++ rest) = some rest := by
  unfold afterStart
  rw [List.cons_append, List.dropWhile_cons_of_neg (by simp [hc]), List.dropPrefix?_eq_some_iff]
  exact ⟨c :: start, rfl, by simp⟩

theorem matchCountry_append {country : PyStr} (hne : country ≠ []) (hnew : 10 ∉ country) :
    matchCountry (py "country=" ++ country) = some country := by
  have hafter : afterStart (py "country=") (py "country=" ++ country) = some country :=
    afterStart_append rfl _ country
  have hend : beforeEnd country = country :=
    if_neg fun h => hnew (List.mem_of_getLast? h)
  unfold matchCountry
  rw [hafter, Option.bind_eq_bind, Option.bind_some, hend]
  exact if_pos ⟨hne, hnew⟩

theorem matchSsid_append {ssid : PyStr} (hne : ssid ≠ []) (hnew : 10 ∉ ssid) :
    matchSsid (py "ssid=\"" ++ (ssid ++ [34])) = some ssid := by
  have hafter : afterStart (py "ssid=\"") (py "ssid=\"" ++ (ssid ++ [34])) = some (ssid ++ [34]) :=
    afterStart_append rfl _ _
  have hend : beforeEnd (ssid ++ [34]) = ssid ++ [34] := if_neg (by simp)
  unfold matchSsid
  rw [hafter, Option.bind_eq_bind, Option.bind_some, hend]
  dsimp only
  rw [List.getLast?_concat, List.dropLast_concat, if_pos rfl]
  exact if_pos ⟨hne, hnew⟩

theorem beforeEnd_prefix (s : PyStr) : beforeEnd s <+: s := by
  unfold beforeEnd
  split
  · exact List.dropLast_prefix s
  · exact List.prefix_rfl

/-- **A match has quotes around it.** -/
theorem infix_of_matchSsid {line ssid : PyStr} (h : matchSsid line = some ssid) :
    34 :: (ssid ++ [34]) <:+: line := by
  unfold matchSsid at h
  obtain ⟨rest, hrest, h⟩ := Option.bind_eq_some_iff.mp h
  obtain ⟨start, hline, hstart⟩ := List.dropPrefix?_eq_some_iff.mp hrest
  obtain rfl := eq_of_beq hstart
  dsimp only at h
  split at h
  · rename_i hlast
    have hssid : (beforeEnd rest).dropLast = ssid := by
      unfold anyText at h
      split at h
      · exact Option.some.inj h
      · exact absurd h (by simp)
    have hquoted : ssid ++ [34] <+: rest := by
      rw [← hssid, List.dropLast_append_getLast? 34 hlast]
      exact beforeEnd_prefix rest
    have hsuffix : 34 :: rest <:+ line := by
      refine List.IsSuffix.trans ⟨py "ssid=", ?_⟩ (List.dropWhile_suffix isSpace)
      exact hline.symm
    exact (List.cons_prefix_cons.mpr ⟨rfl, hquoted⟩).isInfix.trans hsuffix.isInfix
  · exact absurd h (by simp)

/-! ## 6. The settings that are read -/

/-- An SSID that is read is that of a line. -/
theorem ssid_of_foldl {ssid : PyStr} (lines : List PyStr) : ∀ wifi : WifiSettings,
    (lines.foldl readSetting wifi).ssid = some ssid →
      wifi.ssid = some ssid ∨ ∃ line ∈ lines, matchSsid (strip line) = some ssid := by
  induction lines with
  | nil => exact fun _ h => Or.inl h
  | cons line lines ih =>
    intro wifi h
    rcases ih (readSetting wifi line) h with hfirst | ⟨l, hl, hmatch⟩
    · unfold readSetting at hfirst
      split at hfirst
      · exact Or.inl hfirst
      · split at hfirst
        · rename_i found hfound
          rw [← hfirst]
          exact Or.inr ⟨line, List.mem_cons_self, hfound⟩
        · exact Or.inl hfirst
    · exact Or.inr ⟨l, List.mem_cons_of_mem _ hl, hmatch⟩

/-- The lines of a section of an open network, as texts. -/
def openSection (country ssid : PyStr) : List PyStr :=
  [py "country=" ++ country, py "network=\x7b", py "\tssid=\"" ++ (ssid ++ [34]),
    py "\tkey_mgmt=NONE", py "\x7d"]

theorem not_isSpace_of_isAsciiLetter {c : Nat} (h : IsAsciiLetter c) : isSpace c = false := by
  unfold IsAsciiLetter at h
  unfold isSpace
  simp only [Bool.or_eq_false_iff, Bool.and_eq_false_iff, decide_eq_false_iff_not]
  refine ⟨⟨⟨by omega, by omega⟩, by omega⟩, ?_⟩
  simp only [List.contains_eq_mem, List.mem_cons, List.not_mem_nil, or_false,
    decide_eq_false_iff_not]
  omega

/-- **Reading the section** gives the country code and the SSID. -/
theorem foldl_openSection {country ssid : PyStr} (hletters : ∀ c ∈ country, IsAsciiLetter c)
    (hcountry : country ≠ []) (hssid : ssid ≠ []) (hnew : 10 ∉ ssid) :
    (openSection country ssid).foldl readSetting ⟨none, none, none⟩
      = ⟨some country, some ssid, none⟩ := by
  have hfirst : readSetting ⟨none, none, none⟩ (py "country=" ++ country)
      = ⟨some country, none, none⟩ := by
    obtain ⟨m, d, hmd⟩ := (List.eq_nil_or_concat country).resolve_left hcountry
    rw [List.concat_eq_append] at hmd
    subst hmd
    have hd : isSpace d = false :=
      not_isSpace_of_isAsciiLetter (hletters d (by simp))
    have hstrip : strip (py "country=" ++ (m ++ [d])) = py "country=" ++ (m ++ [d]) := by
      rw [← List.append_assoc]
      exact strip_eq_self rfl hd _
    have hcountrynew : 10 ∉ m ++ [d] := fun h => absurd (hletters 10 h) (by decide)
    unfold readSetting
    rw [hstrip, matchCountry_append hcountry hcountrynew]
  have hname : readSetting ⟨some country, none, none⟩ (py "\tssid=\"" ++ (ssid ++ [34]))
      = ⟨some country, some ssid, none⟩ := by
    have hstrip : strip (py "\tssid=\"" ++ (ssid ++ [34])) = py "ssid=\"" ++ (ssid ++ [34]) := by
      have htab : strip (py "\tssid=\"" ++ (ssid ++ [34]))
          = strip (py "ssid=\"" ++ (ssid ++ [34])) := rfl
      rw [htab, ← List.append_assoc]
      exact strip_eq_self rfl rfl _
    have hno : matchCountry (py "ssid=\"" ++ (ssid ++ [34])) = none := rfl
    unfold readSetting
    rw [hstrip, hno, matchSsid_append hssid hnew]
  have hnetwork (wifi : WifiSettings) : readSetting wifi (py "network=\x7b") = wifi := rfl
  have hkey (wifi : WifiSettings) : readSetting wifi (py "\tkey_mgmt=NONE") = wifi := rfl
  have hclose (wifi : WifiSettings) : readSetting wifi (py "\x7d") = wifi := rfl
  unfold openSection
  simp only [List.foldl_cons, List.foldl_nil]
  rw [hfirst, hnetwork, hname, hkey, hclose]

/-! ## 7. The arguments -/

theorem parseSsid_ne_nil {value : Json} {ssid : PyStr} (h : parseSsid value = .ok ssid) :
    ssid ≠ [] := by
  unfold parseSsid at h
  split at h
  · split at h
    · exact absurd h (by simp)
    · rename_i hne
      obtain rfl := Except.ok.inj h
      exact fun hnil => hne (by rw [hnil]; rfl)
  · exact absurd h (by simp)

/-- **An SSID that is accepted** is not empty. -/
theorem ssid_ne_nil {isAlpha : PyStr → Bool} {upper : PyStr → PyStr}
    {body : Except ApiException Json} {countryCode : Option PyStr} {ssid : PyStr}
    {psk : Option PyStr}
    (h : parseWifiSettings isAlpha upper body = .ok ⟨countryCode, some ssid, psk⟩) :
    ssid ≠ [] := by
  unfold parseWifiSettings at h
  obtain ⟨_, -, h⟩ := bind_eq_ok h
  obtain ⟨_, -, h⟩ := bind_eq_ok h
  obtain ⟨_, -, h⟩ := bind_eq_ok h
  obtain ⟨_, -, h⟩ := bind_eq_ok h
  obtain ⟨found, hfound, h⟩ := bind_eq_ok h
  obtain ⟨_, -, h⟩ := bind_eq_ok h
  have hssid : some found = some ssid := congrArg WifiSettings.ssid (Except.ok.inj h)
  rw [← Option.some.inj hssid]
  exact parseSsid_ne_nil hfound

/-- **What the script gets** of settings without a password. -/
theorem parseArgs_open {countryCode ssid : PyStr} {args : List (List UInt8)}
    (h : enableWifiArgs ⟨some countryCode, some ssid, none⟩ = some args) :
    ∃ code name, fsencode countryCode = some code ∧ fsencode ssid = some name ∧ 0 ∉ name ∧
      parseArgs args ⟨[], [], []⟩ = .vars ⟨code, name, []⟩ := by
  have hencode : ∀ {arg : PyStr} {bytes : List UInt8}, encodeArg arg = some bytes →
      fsencode arg = some bytes ∧ 0 ∉ bytes := by
    intro arg bytes harg
    obtain ⟨found, hfound, harg⟩ := Option.bind_eq_some_iff.mp harg
    split at harg
    · exact absurd harg (by simp)
    · rename_i hzero
      obtain rfl := Option.some.inj harg
      exact ⟨hfound, hzero⟩
  have hflag : encodeArg (py "--country") = some (asciiBytes "--country") := by decide
  have hflag' : encodeArg (py "--ssid") = some (asciiBytes "--ssid") := by decide
  cases hcode : encodeArg countryCode with
  | none => simp [enableWifiArgs, hflag, hcode] at h
  | some code =>
    cases hname : encodeArg ssid with
    | none => simp [enableWifiArgs, hflag, hflag', hname] at h
    | some name =>
      have hargs : [asciiBytes "--country", code, asciiBytes "--ssid", name] = args := by
        simpa [enableWifiArgs, hflag, hflag', hcode, hname] using h
      subst hargs
      exact ⟨code, name, (hencode hcode).1, (hencode hname).1, (hencode hname).2, rfl⟩

theorem not_isSurrogate_of_isAsciiLetter {c : Nat} (h : IsAsciiLetter c) : ¬ IsSurrogate c := by
  unfold IsAsciiLetter at h
  unfold IsSurrogate
  omega

/-- A country code has no controls, no blanks and no quotes. -/
theorem notMem_code {countryCode : PyStr} {code : List UInt8}
    (hletters : ∀ c ∈ countryCode, IsAsciiLetter c) (hcode : fsencode countryCode = some code)
    {b : UInt8} (hb : b.toNat < 65) : b ∉ code := by
  refine notMem_of_fsencode hcode (fun c hc => not_isSurrogate_of_isAsciiLetter (hletters c hc))
    (by omega) fun hmem => ?_
  have hletter := hletters _ hmem
  unfold IsAsciiLetter at hletter
  omega

/-! ## 8. The section of a plain SSID -/

/-- Lines in UTF-8 are read as they are. -/
theorem decode_unlines {lines : List (List Char)}
    (h : ∀ l ∈ lines, ∀ c ∈ l, ¬ IsLineBoundary c.toNat) :
    ∃ text, decodeUtf8 (unlines (lines.map encodeUtf8)) = some text ∧
      splitlines (universalNewlines text) [] = lines.map (·.map Char.toNat) := by
  have hbytes : unlines (lines.map encodeUtf8) = encodeUtf8 (lines.flatMap (· ++ ['\n'])) := by
    unfold unlines encodeUtf8
    rw [List.flatMap_map, List.flatMap_assoc]
    refine List.flatMap_congr fun l _ => ?_
    rw [List.flatMap_append]
    rfl
  have htext : (lines.flatMap (· ++ ['\n'])).map Char.toNat
      = (lines.map (·.map Char.toNat)).flatMap (· ++ [10]) := by
    rw [List.map_flatMap, List.flatMap_map]
    refine List.flatMap_congr fun l _ => ?_
    rw [List.map_append]
    rfl
  have hlines : ∀ l ∈ lines.map (·.map Char.toNat), ∀ c ∈ l, ¬ IsLineBoundary c := by
    intro l hl c hc
    obtain ⟨chars, hchars, rfl⟩ := List.mem_map.mp hl
    obtain ⟨d, hd, rfl⟩ := List.mem_map.mp hc
    exact h chars hchars d hd
  have hcr : 13 ∉ (lines.map (·.map Char.toNat)).flatMap (· ++ [10]) := by
    intro hmem
    obtain ⟨l, hl, hmem⟩ := List.mem_flatMap.mp hmem
    rcases List.mem_append.mp hmem with hmem | hmem
    · exact hlines l hl 13 hmem (by decide)
    · exact absurd hmem (by decide)
  refine ⟨_, by rw [hbytes, decodeUtf8_encodeUtf8], ?_⟩
  rw [htext, universalNewlines_eq_self hcr, splitlines_flatMap hlines]

/-- The lines of a section of an open network, as characters. -/
def openChars (country ssid : List Char) : List (List Char) :=
  ["country=".toList ++ country, "network=\x7b".toList, "\tssid=\"".toList ++ (ssid ++ ['"']),
    "\tkey_mgmt=NONE".toList, "\x7d".toList]

theorem openChars_toNat (country ssid : List Char) :
    (openChars country ssid).map (·.map Char.toNat)
      = openSection (country.map Char.toNat) (ssid.map Char.toNat) := by
  simp [openChars, openSection, py]

theorem openLines_encodeUtf8 (country ssid : List Char) :
    openLines (encodeUtf8 country) (encodeUtf8 ssid) = (openChars country ssid).map encodeUtf8 := by
  have hcountry : encodeUtf8 "country=".toList = asciiBytes "country=" := by decide
  have hssid : encodeUtf8 "\tssid=\"".toList = asciiBytes "\tssid=\"" := by decide
  simp only [openChars, openLines, List.map_cons, List.map_nil, encodeUtf8_append, hcountry, hssid]
  rfl

theorem not_isLineBoundary_of_mem_openChars {country ssid : List Char}
    (hcountry : ∀ c ∈ country, IsAsciiLetter c.toNat)
    (hssid : ∀ c ∈ ssid, ¬ IsLineBoundary c.toNat) :
    ∀ l ∈ openChars country ssid, ∀ c ∈ l, ¬ IsLineBoundary c.toNat := by
  have hletter : ∀ c ∈ country, ¬ IsLineBoundary c.toNat := by
    intro c hc hb
    have h := hcountry c hc
    simp only [IsAsciiLetter, IsLineBoundary, List.mem_cons, List.not_mem_nil, or_false] at h hb
    omega
  have hplain {chars : List Char} (h : chars.all (¬ IsLineBoundary ·.toNat) = true) :
      ∀ c ∈ chars, ¬ IsLineBoundary c.toNat :=
    fun c hc => of_decide_eq_true (List.all_eq_true.mp h c hc)
  simp only [openChars, List.forall_mem_cons, List.forall_mem_append]
  exact ⟨⟨hplain rfl, hletter⟩, hplain rfl, ⟨hplain rfl, hssid, by decide, by simp⟩, hplain rfl,
    hplain rfl, by simp⟩

/-! ## 9. The run -/

section

variable {countryCode ssid : PyStr} {code name content : List UInt8} {tools : WifiTools}

/-- **A plain SSID comes back.** -/
theorem roundTrips_of_plain (hletters : ∀ c ∈ countryCode, IsAsciiLetter c)
    (hcountry : countryCode ≠ []) (hcode : fsencode countryCode = some code) (hne : ssid ≠ [])
    (hname : fsencode ssid = some name) (hzero : 0 ∉ name) {kept : List (List UInt8)}
    (hkept : ∀ l ∈ kept, PlainLine l) (hplain : PlainSsid ssid) :
    RoundTrips countryCode ssid (unlines kept ++ wifiSection tools ⟨code, name, []⟩) := by
  obtain ⟨hssid, hescape⟩ := hplain
  rw [hname, Option.getD_some] at hescape
  have hnew : 10 ∉ ssid := fun hmem => (hssid 10 hmem).1 (by decide)
  have hreadable : Readable name :=
    ⟨notMem_of_fsencode hname (fun c hc => (hssid c hc).2) (by decide) hnew, hzero⟩
  have hsection : sectionContents (unlines kept ++ wifiSection tools ⟨code, name, []⟩)
      = .ok (openLines code name) := by
    have hcode' : Readable code :=
      ⟨notMem_code hletters hcode (by decide), notMem_code hletters hcode (by decide)⟩
    rw [sectionContents_append hkept, wifiSection_plain tools code hescape]
    exact sectionContents_section (plainLine_of_mem_openLines hcode' hreadable)
  obtain ⟨cchars, rfl⟩ := exists_chars hcode fun c hc =>
    not_isSurrogate_of_isAsciiLetter (hletters c hc)
  obtain ⟨schars, rfl⟩ := exists_chars hname fun c hc => (hssid c hc).2
  rw [fsencode_toNat] at hcode hname
  obtain rfl := Option.some.inj hcode
  obtain rfl := Option.some.inj hname
  refine ⟨⟨_, _, fsencode_toNat cchars, hsection⟩, ?_⟩
  have hprint : printfLines (openLines (encodeUtf8 cchars) (encodeUtf8 schars))
      = unlines ((openChars cchars schars).map encodeUtf8) := by
    rw [← openLines_encodeUtf8]
    rfl
  have hfree : ∀ l ∈ openChars cchars schars, ∀ c ∈ l, ¬ IsLineBoundary c.toNat :=
    not_isLineBoundary_of_mem_openChars (fun c hc => hletters _ (List.mem_map_of_mem hc))
      fun c hc => (hssid _ (List.mem_map_of_mem hc)).1
  obtain ⟨text, hdecode, hsplit⟩ := decode_unlines hfree
  unfold determineWifiSettings printMarkerSections
  rw [hsection]
  dsimp only
  rw [hprint, hdecode]
  dsimp only
  rw [hsplit, openChars_toNat, foldl_openSection hletters hcountry hne hnew]

/-- An SSID in quotes, as it is read, was in the output in quotes. -/
theorem quoted_infix {output : List UInt8} {text : PyStr} (hname : fsencode ssid = some name)
    (hdecode : decodeUtf8 output = some text) (hpart : 34 :: (ssid ++ [34]) <:+: text) :
    (∀ c ∈ ssid, ¬ IsSurrogate c) ∧ Bash.ch '"' :: (name ++ [Bash.ch '"']) <:+: output := by
  obtain ⟨chars, rfl, rfl⟩ := decodeUtf8_eq_some_iff.mp hdecode
  obtain ⟨quoted, hquoted, heq⟩ := List.infix_map_iff.mp hpart
  have hchars : ∀ c ∈ ssid, ¬ IsSurrogate c := by
    intro c hc
    have hmem : c ∈ quoted.map Char.toNat := by
      rw [← heq]
      simp [hc]
    obtain ⟨d, -, rfl⟩ := List.mem_map.mp hmem
    exact not_isSurrogate d
  obtain ⟨schars, rfl⟩ := exists_chars hname hchars
  rw [fsencode_toNat] at hname
  obtain rfl := Option.some.inj hname
  have hsame : quoted = '"' :: (schars ++ ['"']) := by
    have hinj : Function.Injective (List.map Char.toNat) :=
      List.map_injective_iff.mpr fun c d => Char.toNat_inj.mp
    refine hinj (heq.symm.trans ?_)
    simp
  have hbytes : encodeUtf8 quoted = Bash.ch '"' :: (encodeUtf8 schars ++ [Bash.ch '"']) := by
    rw [hsame]
    exact congrArg (Bash.ch '"' :: ·) (encodeUtf8_append schars ['"'])
  obtain ⟨before, after, hsplit⟩ := hquoted
  refine ⟨hchars, encodeUtf8 before, encodeUtf8 after, ?_⟩
  rw [← hbytes, ← encodeUtf8_append, ← encodeUtf8_append, hsplit]

/-- **An SSID that comes back** is plain. -/
theorem plain_of_settings {psk : Option PyStr} (hquote : Bash.ch '"' ∉ code)
    (hname : fsencode ssid = some name) {kept : List (List UInt8)}
    (hkept : ∀ l ∈ kept, PlainLine l)
    (h : determineWifiSettings (unlines kept ++ wifiSection tools ⟨code, name, []⟩)
      = .ok ⟨some countryCode, some ssid, psk⟩) : PlainSsid ssid := by
  unfold determineWifiSettings printMarkerSections at h
  rw [sectionContents_append hkept] at h
  cases hlines : sectionContents (wifiSection tools ⟨code, name, []⟩) with
  | error message =>
    rw [hlines] at h
    exact absurd h (by simp)
  | ok lines =>
    rw [hlines] at h
    dsimp only at h
    cases hdecode : decodeUtf8 (printfLines lines) with
    | none =>
      rw [hdecode] at h
      exact absurd h (by simp)
    | some text =>
      rw [hdecode] at h
      have hread := congrArg WifiSettings.ssid (Except.ok.inj h)
      obtain ⟨line, hline, hmatch⟩ := (ssid_of_foldl _ _ hread).resolve_left (by simp)
      obtain ⟨hboundary, hpart⟩ := mem_splitlines (by simp) hline
      have hquoted := (infix_of_matchSsid hmatch).trans (infix_strip line)
      have hfree : ∀ c ∈ ssid, ¬ IsLineBoundary c :=
        fun c hc => hboundary c (hquoted.subset (by simp [hc]))
      have hnew : 10 ∉ 34 :: (ssid ++ [34]) :=
        fun hmem => hboundary 10 (hquoted.subset hmem) (by decide)
      have htext := infix_of_universalNewlines hnew (hquoted.trans hpart)
      obtain ⟨hsurrogate, hbytes⟩ := quoted_infix hname hdecode htext
      refine ⟨fun c hc => ⟨hfree c hc, hsurrogate c hc⟩, ?_⟩
      have hnewname : newline ∉ name :=
        notMem_of_fsencode hname hsurrogate (by decide) fun hmem => hfree _ hmem (by decide)
      have hnewquoted : newline ∉ Bash.ch '"' :: (name ++ [Bash.ch '"']) := by
        rw [List.mem_cons, List.mem_append, not_or, not_or]
        exact ⟨by decide, hnewname, by decide⟩
      obtain ⟨printed, heq, hprinted⟩ := printfLines_eq_unlines lines
      rw [heq] at hbytes
      obtain ⟨l, hl, hin⟩ := infix_of_infix_unlines (by simp) hnewquoted hbytes
      rw [hname, Option.getD_some]
      rcases hprinted l hl with hl | rfl
      · exact not_hasEscape_of_infix hquote hlines hl hin
      · exact absurd (List.infix_nil.mp hin) (by simp)

end

/-- **The round trip without a password**: after a run of `enable-wifi` that succeeds, the section
is as it should be and the settings come back, if and only if the SSID is plain. -/
theorem wifi_round_trip_iff {isAlpha : PyStr → Bool} {upper : PyStr → PyStr}
    {body : Except ApiException Json} {countryCode ssid : PyStr} {tools : WifiTools}
    {args : List (List UInt8)} {content : List UInt8}
    (hparse : parseWifiSettings isAlpha upper body = .ok ⟨some countryCode, some ssid, none⟩)
    (hlength : countryCode.length = 2) (hletters : ∀ c ∈ countryCode, IsAsciiLetter c)
    (hargs : enableWifiArgs ⟨some countryCode, some ssid, none⟩ = some args)
    (hrun : (enableWifi tools args content).status = 0) :
    RoundTrips countryCode ssid (enableWifi tools args content).content ↔ PlainSsid ssid := by
  obtain ⟨code, name, hcode, hname, hzero, hvars⟩ := parseArgs_open hargs
  obtain ⟨kept, hkept, hcontent⟩ := enableWifi_content hvars hrun
  have hcountry : countryCode ≠ [] := by
    rintro rfl
    exact absurd hlength (by decide)
  rw [hcontent]
  constructor
  · intro h
    have hquote : Bash.ch '"' ∉ code := notMem_code hletters hcode (by decide)
    exact plain_of_settings hquote hname hkept h.settings
  · intro h
    have hne : ssid ≠ [] := ssid_ne_nil hparse
    exact roundTrips_of_plain hletters hcountry hcode hne hname hzero hkept h

/-- `isalpha` and `upper` of ASCII texts. -/
def asciiIsAlpha (s : PyStr) : Bool := s ≠ [] && s.all (IsAsciiLetter ·)

def asciiUpper (s : PyStr) : PyStr := s.map fun c => if 97 ≤ c ∧ c ≤ 122 then c - 32 else c

/-- A request for an open network. -/
def openRequest (countryCode ssid : String) : Except ApiException Json :=
  .ok (.dict [(py "countryCode", .str (py countryCode)), (py "ssid", .str (py ssid)),
    (py "psk", .null)])

/-- A name with a quote and a letter that is not ASCII. -/
theorem wifi_round_trip_iff_quote :
    RoundTrips (py "US") (py "Café \"5G\"") (enableWifi ⟨fun _ _ => [], 0, 0⟩
      [asciiBytes "--country", asciiBytes "US", asciiBytes "--ssid",
        encodeUtf8 "Café \"5G\"".toList] (asciiBytes "ctrl_interface=x\n")).content := by
  have hparse : parseWifiSettings asciiIsAlpha asciiUpper (openRequest "us" "Café \"5G\"")
      = .ok ⟨some (py "US"), some (py "Café \"5G\""), none⟩ := rfl
  refine (wifi_round_trip_iff hparse rfl ?_ ?_ ?_).mpr ?_
  · decide
  · decide
  · decide
  · decide

/-- **A backslash sequence becomes a line of its own**: here the one after `Office` in the SSID. -/
theorem escape_adds_line :
    parseWifiSettings asciiIsAlpha asciiUpper (openRequest "us" "Office\\nGuest")
        = .ok ⟨some (py "US"), some (py "Office\\nGuest"), none⟩ ∧
      enableWifiArgs ⟨some (py "US"), some (py "Office\\nGuest"), none⟩
        = some [asciiBytes "--country", asciiBytes "US", asciiBytes "--ssid",
          asciiBytes "Office\\nGuest"] ∧
      ∃ r, enableWifi ⟨fun _ _ => [], 0, 0⟩ [asciiBytes "--country", asciiBytes "US",
          asciiBytes "--ssid", asciiBytes "Office\\nGuest"] (asciiBytes "ctrl_interface=x\n") = r ∧
        r.status = 0 ∧
        sectionContents r.content = .ok [asciiBytes "country=US", asciiBytes "network=\x7b",
          asciiBytes "\tssid=\"Office", asciiBytes "Guest\"", asciiBytes "\tkey_mgmt=NONE",
          asciiBytes "\x7d"] ∧
        ¬ RoundTrips (py "US") (py "Office\\nGuest") r.content := by
  have hsection : sectionContents (enableWifi ⟨fun _ _ => [], 0, 0⟩ [asciiBytes "--country",
      asciiBytes "US", asciiBytes "--ssid", asciiBytes "Office\\nGuest"]
        (asciiBytes "ctrl_interface=x\n")).content
      = .ok [asciiBytes "country=US", asciiBytes "network=\x7b", asciiBytes "\tssid=\"Office",
        asciiBytes "Guest\"", asciiBytes "\tkey_mgmt=NONE", asciiBytes "\x7d"] := rfl
  refine ⟨rfl, by decide, _, rfl, by decide, hsection, ?_⟩
  rintro ⟨⟨code, name, -, hlines⟩, -⟩
  rw [hsection] at hlines
  have hlength := congrArg List.length (Except.ok.inj hlines)
  exact absurd hlength (by simp [openLines])

end TinyPilotKvm
