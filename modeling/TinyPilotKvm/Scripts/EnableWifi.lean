/-
# `enable-wifi`

The script takes the old marker section out of `wpa_supplicant.conf` and appends a new one.  For an
open network it writes the `network` block itself: **the SSID stands in a text that `echo -e`
expands**.  `enableWifi_content` says what the file is after a run, and `wifiSection_open` where in
the section the SSID is.
-/
import TinyPilotKvm.Scripts.Echo
import TinyPilotKvm.Scripts.PrintMarkerSections

namespace TinyPilotKvm

/-! ## 1. The script -/

/-- The programs that it calls: what `wpa_passphrase` prints, and the exit statuses of the last
two. -/
structure WifiTools where
  wpaPassphrase : List UInt8 → List UInt8 → List UInt8
  rfkill : Nat
  wpaCli : Nat

/-- Its variables; one that is not set is empty. -/
structure WifiVars where
  country : List UInt8
  ssid : List UInt8
  psk : List UInt8

/-- How a run ends.  Of what it writes to stderr the trace of `set -x` is left out. -/
structure WifiResult where
  status : Nat
  stderr : List UInt8
  content : List UInt8

def WifiResult.refused (message content : List UInt8) : WifiResult :=
  ⟨1, Bash.echo message ++
    Bash.echo (asciiBytes "Use the '--help' flag for more information"), content⟩

/-- What the loop over the arguments comes to. -/
inductive WifiArgs
  | help
  | unknown (flag : List UInt8)
  | vars (v : WifiVars)

/-- The loop; a flag that is the last argument ends it. -/
def parseArgs : List (List UInt8) → WifiVars → WifiArgs
  | [], v => .vars v
  | [flag], v =>
    if flag = asciiBytes "--help" then .help
    else if flag = asciiBytes "--country" ∨ flag = asciiBytes "--ssid" ∨
        flag = asciiBytes "--psk" then .vars v
    else .unknown flag
  | flag :: value :: args, v =>
    if flag = asciiBytes "--help" then .help
    else if flag = asciiBytes "--country" then parseArgs args { v with country := value }
    else if flag = asciiBytes "--ssid" then parseArgs args { v with ssid := value }
    else if flag = asciiBytes "--psk" then parseArgs args { v with psk := value }
    else .unknown flag

/-- `echo -n "${arg}" | wc --bytes`. -/
def countBytes (arg : List UInt8) : Nat := (Bash.echoN arg).length

/-- The checks, with the message of the one that fails. -/
def checkVars (v : WifiVars) : Option String :=
  if v.country = [] then some "Missing argument: COUNTRY"
  else if countBytes v.country ≠ 2 then some "Invalid argument: COUNTRY"
  else if v.ssid = [] then some "Missing argument: SSID"
  else if v.psk ≠ [] ∧ (countBytes v.psk < 8 ∨ 63 < countBytes v.psk) then
    some "Invalid argument: PSK"
  else none

/-- `sed '/^\t#psk=.*/d'`. -/
def deletePsk (text : List UInt8) : List UInt8 :=
  ((fileLines text []).filter fun l => !(asciiBytes "\t#psk=").isPrefixOf l.text).flatMap
    FileLine.bytes

/-- What is appended to the file. -/
def wifiSection (tools : WifiTools) (v : WifiVars) : List UInt8 :=
  Bash.echo markerStart ++ Bash.echo (asciiBytes "country=" ++ v.country) ++
    (if v.psk ≠ [] then deletePsk (tools.wpaPassphrase v.ssid v.psk)
    else Bash.echo (asciiBytes "network=\x7b") ++
      Bash.echoE (asciiBytes "\\tssid=\"" ++ v.ssid ++ asciiBytes "\"") ++
      Bash.echoE (asciiBytes "\\tkey_mgmt=NONE") ++ Bash.echo (asciiBytes "\x7d")) ++
    Bash.echo markerEnd

/-- The script, on the file as it is. -/
def enableWifi (tools : WifiTools) (args : List (List UInt8)) (content : List UInt8) :
    WifiResult :=
  match parseArgs args ⟨[], [], []⟩ with
  | .help => ⟨0, [], content⟩
  | .unknown flag => .refused (asciiBytes "Unknown flag/argument: " ++ flag) content
  | .vars v =>
    match checkVars v with
    | some message => .refused (asciiBytes message) content
    | none =>
      let stripped := stripMarkerSections content
      if stripped.status ≠ 0 then
        ⟨stripped.status, Bash.echo (asciiBytes stripped.stderr), stripped.content⟩
      else
        let content := stripped.content ++ wifiSection tools v
        if tools.rfkill ≠ 0 then ⟨tools.rfkill, [], content⟩ else ⟨tools.wpaCli, [], content⟩

/-! ## 2. The file afterwards -/

/-- **A run that succeeds** has passed the checks, and has appended the section to plain lines. -/
theorem enableWifi_content {tools : WifiTools} {args : List (List UInt8)} {content : List UInt8}
    {v : WifiVars} (hargs : parseArgs args ⟨[], [], []⟩ = .vars v)
    (hrun : (enableWifi tools args content).status = 0) : ∃ kept, (∀ l ∈ kept, PlainLine l) ∧
      (enableWifi tools args content).content = unlines kept ++ wifiSection tools v := by
  unfold enableWifi at hrun ⊢
  rw [hargs] at hrun ⊢
  dsimp only at hrun ⊢
  cases hcheck : checkVars v with
  | some message =>
    rw [hcheck] at hrun
    exact absurd hrun (by simp [WifiResult.refused])
  | none =>
    rw [hcheck] at hrun
    dsimp only at hrun ⊢
    by_cases hstrip : (stripMarkerSections content).status = 0
    · obtain ⟨kept, hkept, hplain⟩ := stripMarkerSections_content hstrip
      refine ⟨kept, hplain, ?_⟩
      rw [if_neg (not_not.mpr hstrip), ← hkept]
      split <;> rfl
    · rw [if_pos hstrip] at hrun
      exact absurd hrun hstrip

/-- The SSID line, from what the SSID with its quote comes to. -/
theorem echoE_ssid (ssid : List UInt8) :
    Bash.echoE (asciiBytes "\\tssid=\"" ++ ssid ++ asciiBytes "\"") =
      asciiBytes "\tssid=" ++ Bash.ch '"' :: ((Bash.ansicstr 0 (ssid ++ [Bash.ch '"'])).1 ++
        if (Bash.ansicstr 0 (ssid ++ [Bash.ch '"'])).2 then [] else [10]) := by
  rw [List.append_assoc]
  rfl

theorem echoE_keyMgmt : Bash.echoE (asciiBytes "\\tkey_mgmt=NONE")
    = Bash.echo (asciiBytes "\tkey_mgmt=NONE") := rfl

/-- **Where the SSID is** in the section of an open network: after the first quote, and no quote
comes after it but its own. -/
theorem wifiSection_open (tools : WifiTools) {country : List UInt8} (ssid : List UInt8)
    (hcountry : Bash.ch '"' ∉ country) : ∃ before after, Bash.ch '"' ∉ before ∧
      Bash.ch '"' ∉ after ∧ wifiSection tools ⟨country, ssid, []⟩ =
        before ++ Bash.ch '"' :: ((Bash.ansicstr 0 (ssid ++ [Bash.ch '"'])).1 ++ after) := by
  have hecho : ∀ arg, Bash.ch '"' ∉ arg → Bash.ch '"' ∉ Bash.echo arg := by
    intro arg harg
    rw [Bash.echo, List.mem_append, not_or]
    exact ⟨harg, by decide⟩
  refine ⟨Bash.echo markerStart ++ Bash.echo (asciiBytes "country=" ++ country) ++
      Bash.echo (asciiBytes "network=\x7b") ++ asciiBytes "\tssid=",
    (if (Bash.ansicstr 0 (ssid ++ [Bash.ch '"'])).2 then [] else [10]) ++
      Bash.echo (asciiBytes "\tkey_mgmt=NONE") ++ Bash.echo (asciiBytes "\x7d") ++
      Bash.echo markerEnd, ?_, ?_, ?_⟩
  · simp only [List.mem_append, not_or]
    refine ⟨⟨⟨hecho _ (by decide), hecho _ ?_⟩, hecho _ (by decide)⟩, by decide⟩
    rw [List.mem_append, not_or]
    exact ⟨by decide, hcountry⟩
  · simp only [List.mem_append, not_or]
    refine ⟨⟨⟨?_, hecho _ (by decide)⟩, hecho _ (by decide)⟩, hecho _ (by decide)⟩
    split <;> decide
  · rw [wifiSection, if_neg (by simp), echoE_ssid, echoE_keyMgmt]
    simp only [List.append_assoc, List.cons_append]

/-- The lines of a section as it should be: a country line, and a `network` block with an SSID line
and a `key_mgmt` line. -/
def openLines (country ssid : List UInt8) : List (List UInt8) :=
  [asciiBytes "country=" ++ country, asciiBytes "network=\x7b",
    asciiBytes "\tssid=\"" ++ (ssid ++ asciiBytes "\""), asciiBytes "\tkey_mgmt=NONE",
    asciiBytes "\x7d"]

theorem plainLine_of_mem_openLines {country ssid : List UInt8} (hcountry : Readable country)
    (hssid : Readable ssid) : ∀ l ∈ openLines country ssid, PlainLine l := by
  have happend : ∀ {s t : List UInt8}, Readable s → Readable t → Readable (s ++ t) := by
    intro s t hs ht
    constructor <;> rw [List.mem_append, not_or]
    · exact ⟨hs.1, ht.1⟩
    · exact ⟨hs.2, ht.2⟩
  have hkey : Readable (asciiBytes "country=") := ⟨by decide, by decide⟩
  have hname : Readable (asciiBytes "\tssid=\"") := ⟨by decide, by decide⟩
  have hquote : Readable (asciiBytes "\"") := ⟨by decide, by decide⟩
  intro l hl
  simp only [openLines, List.mem_cons, List.not_mem_nil, or_false] at hl
  rcases hl with rfl | rfl | rfl | rfl | rfl
  · exact plainLine_cons (by decide) (happend hkey hcountry)
  · exact plainLine_cons (by decide) ⟨by decide, by decide⟩
  · exact plainLine_cons (by decide) (happend hname (happend hssid hquote))
  · exact plainLine_cons (by decide) ⟨by decide, by decide⟩
  · exact plainLine_cons (by decide) ⟨by decide, by decide⟩

/-- **The section of an SSID without escapes.** -/
theorem wifiSection_plain (tools : WifiTools) (country : List UInt8) {ssid : List UInt8}
    (hssid : ¬ Bash.HasEscape ssid) : wifiSection tools ⟨country, ssid, []⟩ =
      unlines (markerStart :: (openLines country ssid ++ [markerEnd])) := by
  have hprinted : Bash.ansicstr 0 (ssid ++ [Bash.ch '"']) = (ssid ++ [Bash.ch '"'], false) :=
    Bash.ansicstr_eq_self fun h => hssid ((Bash.hasEscape_append_quote ssid).mp h)
  have hline : Bash.echoE (asciiBytes "\\tssid=\"" ++ ssid ++ asciiBytes "\"")
      = Bash.echo (asciiBytes "\tssid=\"" ++ (ssid ++ asciiBytes "\"")) := by
    rw [echoE_ssid, hprinted, Bash.echo]
    simp only [List.append_assoc]
    rfl
  rw [wifiSection, if_neg (by simp), hline, echoE_keyMgmt]
  simp only [unlines, openLines, Bash.echo, List.flatMap_cons, List.flatMap_nil, List.append_assoc,
    List.cons_append, List.nil_append, List.append_nil]
  rfl

/-- **An SSID with an escape is not in the section**: it comes out shorter, and the quotes around it
leave no other place. -/
theorem not_hasEscape_of_infix {tools : WifiTools} {country ssid l : List UInt8}
    {lines : List (List UInt8)} (hcountry : Bash.ch '"' ∉ country)
    (hlines : sectionContents (wifiSection tools ⟨country, ssid, []⟩) = .ok lines)
    (hl : l ∈ lines) (hpart : Bash.ch '"' :: (ssid ++ [Bash.ch '"']) <:+: l) :
    ¬ Bash.HasEscape ssid := by
  obtain ⟨before, after, hbefore, hafter, heq⟩ := wifiSection_open tools ssid hcountry
  have hsection := hpart.trans (mem_sectionContents hlines hl).2
  rw [heq, List.filter_append, List.filter_cons_of_pos (by decide), List.filter_append] at hsection
  have hfirst := infix_of_infix_append_left (fun h => hbefore (List.mem_of_mem_filter h)) hsection
  rw [← List.cons_append, ← List.cons_append] at hfirst
  have hlast := infix_of_infix_append_right (fun h => hafter (List.mem_of_mem_filter h)) hfirst
  have hlength := hlast.length_le
  have hfilter := List.length_filter_le (· ≠ 0) (Bash.ansicstr 0 (ssid ++ [Bash.ch '"'])).1
  intro hescape
  have hshort := (Bash.length_ansicstr _).2 ((Bash.hasEscape_append_quote ssid).mpr hescape)
  simp only [List.length_append, List.length_cons, List.length_nil] at hlength hshort
  omega

end TinyPilotKvm
