/-
# What one network script does

A script that configures `dhcpcd.conf` first takes out what an earlier one has put there, so what
the file is afterwards depends on the lines of the user alone (`dhcpcdConf_run`); and what it puts
there are lines of its own (`onDhcpcdConf_bytes`).  The same is so of `wpa_supplicant.conf`
(`enableWifi_bytes`, `disableWifi_run`), which the access point replaces and brings back
(`enableWifiAp_run`, `disableWifiAp_run`).
-/
import TinyPilotKvm.Scripts.Etc
import TinyPilotKvm.Scripts.ManagedFile

namespace TinyPilotKvm

open Bash

/-! ## 1. Sections of plain lines -/

instance (line : List UInt8) : Decidable (Readable line) := inferInstanceAs (Decidable (_ ∧ _))

theorem Readable.append {s t : List UInt8} (hs : Readable s) (ht : Readable t) :
    Readable (s ++ t) := by
  constructor <;> rw [List.mem_append, not_or]
  · exact ⟨hs.1, ht.1⟩
  · exact ⟨hs.2, ht.2⟩

/-- The lines of the section that `set-static-ip` writes. -/
def staticIpLines (s : StaticIp) : List (List UInt8) :=
  [asciiBytes "interface " ++ s.interface, asciiBytes "static ip_address=" ++ s.ipAddress,
    asciiBytes "static routers=" ++ s.routers, asciiBytes "static domain_name_servers=" ++ s.dns]

theorem staticIpSection_eq (s : StaticIp) : staticIpSection s = sectionBytes (staticIpLines s) := by
  simp only [staticIpSection, sectionBytes, staticIpLines, unlines, Bash.echo, List.flatMap_cons,
    List.flatMap_nil, List.append_assoc, List.cons_append, List.nil_append, List.append_nil]
  rfl

/-- The values of a static configuration are single lines. -/
structure StaticIp.IsReadable (s : StaticIp) : Prop where
  ipAddress : Readable s.ipAddress
  routers : Readable s.routers
  dns : Readable s.dns
  interface : Readable s.interface

theorem staticIpLines_plain {s : StaticIp} (h : s.IsReadable) :
    ∀ l ∈ staticIpLines s, PlainLine l := by
  intro l hl
  have hinterface : Readable (asciiBytes "interface ") := by decide
  have hipAddress : Readable (asciiBytes "static ip_address=") := by decide
  have hrouters : Readable (asciiBytes "static routers=") := by decide
  have hdns : Readable (asciiBytes "static domain_name_servers=") := by decide
  simp only [staticIpLines, List.mem_cons, List.not_mem_nil, or_false] at hl
  rcases hl with rfl | rfl | rfl | rfl
  · exact plainLine_cons (by decide) (hinterface.append h.interface)
  · exact plainLine_cons (by decide) (hipAddress.append h.ipAddress)
  · exact plainLine_cons (by decide) (hrouters.append h.routers)
  · exact plainLine_cons (by decide) (hdns.append h.dns)

theorem apDhcpcdLines_plain : ∀ l ∈ apDhcpcdLines, PlainLine l := by
  intro l hl
  simp only [apDhcpcdLines, List.mem_cons, List.not_mem_nil, or_false] at hl
  rcases hl with rfl | rfl | rfl <;> exact plainLine_cons (by decide) (by decide)

theorem apWpaSupplicantLines_plain : ∀ l ∈ apWpaSupplicantLines, PlainLine l := by
  intro l hl
  simp only [apWpaSupplicantLines, List.mem_cons, List.not_mem_nil, or_false] at hl
  rcases hl with rfl | rfl <;> exact plainLine_cons (by decide) (by decide)

/-- The lines of lines. -/
theorem fileLines_unlines {lines : List (List UInt8)} (h : ∀ l ∈ lines, newline ∉ l) :
    fileLines (unlines lines) [] = lines.map fun l => ⟨l, true⟩ := by
  have hline (l : List UInt8) (hl : newline ∉ l) (rest : List UInt8) : ∀ line,
      fileLines (l ++ newline :: rest) line = ⟨line ++ l, true⟩ :: fileLines rest [] := by
    induction l with
    | nil =>
      intro line
      rw [List.nil_append, fileLines, if_pos rfl, List.append_nil]
    | cons b l ih =>
      intro line
      rw [List.mem_cons, not_or] at hl
      rw [List.cons_append, fileLines, if_neg (Ne.symm hl.1), ih hl.2, List.append_assoc]
      rfl
  induction lines with
  | nil => rfl
  | cons l lines ih =>
    obtain ⟨hl, hlines⟩ := List.forall_mem_cons.mp h
    have hsplit : unlines (l :: lines) = l ++ newline :: unlines lines := by
      simp [unlines]
    rw [hsplit, hline l hl, ih hlines, List.nil_append, List.map_cons]

/-- `sed` leaves lines. -/
theorem deletePsk_unlines {lines : List (List UInt8)} (h : ∀ l ∈ lines, PlainLine l) :
    ∃ kept, deletePsk (unlines lines) = unlines kept ∧ ∀ l ∈ kept, PlainLine l := by
  refine ⟨lines.filter fun l => !(asciiBytes "\t#psk=").isPrefixOf l, ?_, fun l hl => ?_⟩
  · rw [deletePsk, fileLines_unlines fun l hl => (h l hl).readable.1, List.filter_map,
      List.flatMap_map]
    rfl
  · exact h l (List.mem_of_mem_filter hl)

/-! ## 2. Arguments that are single lines -/

/-- What `enable-wifi` writes are lines: an SSID without a backslash sequence for `echo -e`, or the
lines that `wpa_passphrase` prints. -/
structure WifiVars.IsReadable (tools : WifiTools) (v : WifiVars) : Prop where
  country : Readable v.country
  ssid : v.psk = [] → Readable v.ssid ∧ ¬ Bash.HasEscape v.ssid
  psk : v.psk ≠ [] → ∃ lines, (∀ l ∈ lines, PlainLine l) ∧
    tools.wpaPassphrase v.ssid v.psk = unlines lines

/-- What a script writes into a section are lines that are no markers. -/
def NetworkScript.WritesLines : NetworkScript → Prop
  | setStaticIp tools args => ∀ s, parseStaticIpArgs tools args = .ok s → s.IsReadable
  | enableWifi tools args => ∀ v, parseArgs args ⟨[], [], []⟩ = .vars v → v.IsReadable tools
  | _ => True

theorem wifiSection_eq {tools : WifiTools} {v : WifiVars} (h : v.IsReadable tools) :
    ∃ lines, wifiSection tools v = sectionBytes lines ∧ ∀ l ∈ lines, PlainLine l := by
  obtain ⟨country, ssid, psk⟩ := v
  by_cases hpsk : psk = []
  · subst hpsk
    obtain ⟨hssid, hescape⟩ := h.ssid rfl
    exact ⟨openLines country ssid, wifiSection_plain tools country hescape,
      plainLine_of_mem_openLines h.country hssid⟩
  · obtain ⟨lines, hlines, hprinted⟩ := h.psk hpsk
    obtain ⟨kept, hkept, hplain⟩ := deletePsk_unlines hlines
    have hcountry : PlainLine (asciiBytes "country=" ++ country) := by
      have hkey : Readable (asciiBytes "country=") := by decide
      exact plainLine_cons (by decide) (hkey.append h.country)
    refine ⟨(asciiBytes "country=" ++ country) :: kept, ?_,
      List.forall_mem_cons.mpr ⟨hcountry, hplain⟩⟩
    rw [wifiSection, if_pos hpsk, hprinted, hkept]
    simp only [sectionBytes, unlines, Bash.echo, List.flatMap_cons, List.flatMap_nil,
      List.flatMap_append, List.append_assoc, List.cons_append, List.append_nil]
    rfl

/-! ## 3. Runs of the access point's scripts -/

section Steps

variable {etc : Etc}

theorem setE_stripDhcpcd (hstrip : (stripMarkerSections etc.dhcpcdConf).status = 0)
    (commands : List (Command Etc)) :
    setE (stripDhcpcd :: commands) etc
      = setE commands
          { etc with dhcpcdConf := (stripMarkerSections etc.dhcpcdConf).content } :=
  setE_cons_of_ok hstrip commands

/-- A file that cannot be stripped ends a script, which has done nothing. -/
theorem setE_stripDhcpcd_of_failed (hstrip : (stripMarkerSections etc.dhcpcdConf).status ≠ 0)
    (commands : List (Command Etc)) : (setE (stripDhcpcd :: commands) etc).2 = etc := by
  rw [setE_cons_of_failed hstrip]
  show { etc with dhcpcdConf := (stripMarkerSections etc.dhcpcdConf).content } = etc
  rw [stripMarkerSections_of_failed hstrip]

/-- Starting the access point is a matter of the radio alone. -/
theorem apStart_keeps (tools : EnableWifiApTools) : ∃ softBlocked,
    (setE (apStart tools) etc).2 = { etc with softBlocked := softBlocked } ∧
      (tools.rfkillUnblock = 0 → softBlocked = false) := by
  have hkeeps (s : Etc) : ∃ softBlocked,
      (setE [program tools.systemctlUnmask id, program tools.systemctlEnable id,
        program tools.systemctlRestart id] s).2 = { s with softBlocked := softBlocked } ∧
          softBlocked = s.softBlocked := by
    refine ⟨s.softBlocked, ?_, rfl⟩
    refine setE_keeps (I := fun s' => s' = s) ?_ s rfl
    intro c hc s' hs'
    simp only [List.mem_cons, List.not_mem_nil, or_false] at hc
    rcases hc with rfl | rfl | rfl <;>
      exact program_keeps (I := fun s' => s' = s) (fun _ h => h) s' hs'
  rw [apStart]
  by_cases hrfkill : tools.rfkillUnblock = 0
  · obtain ⟨softBlocked, hrun, hsoft⟩ := hkeeps { etc with softBlocked := false }
    refine ⟨softBlocked, ?_, fun _ => hsoft⟩
    rw [setE_cons_program hrfkill]
    exact hrun
  · refine ⟨etc.softBlocked, ?_, fun hzero => absurd hzero hrfkill⟩
    rw [setE_cons_program_of_failed hrfkill]

/-- What `enable-wifi-ap` has written when it starts the access point. -/
def Etc.withAccessPoint (etc : Etc) (v : ApVars) : Etc :=
  { noteWlanEnabled (keepWpaSupplicant etc) with
    dhcpcdConf := (stripMarkerSections etc.dhcpcdConf).content ++ sectionBytes apDhcpcdLines
    hostapdConf := some (apHostapdConf v)
    dnsmasqConf := some apDnsmasqConf
    wpaSupplicantConf := unlines apWpaSupplicantLines }

/-- `enable-wifi-ap` comes to its first file. -/
def enableWifiApWrites (tools : EnableWifiApTools) (args : List (List UInt8)) : Prop :=
  (enableWifiApArgs tools args).1 = .accepted ∧ tools.aptInstall = 0

instance (tools : EnableWifiApTools) (args : List (List UInt8)) :
    Decidable (enableWifiApWrites tools args) := inferInstanceAs (Decidable (_ ∧ _))

/-- **`enable-wifi-ap`**, if `dhcpcd.conf` can be stripped. -/
theorem enableWifiAp_run {tools : EnableWifiApTools} {args : List (List UInt8)}
    (hwrites : enableWifiApWrites tools args)
    (hstrip : (stripMarkerSections etc.dhcpcdConf).status = 0) : ∃ softBlocked,
      (enableWifiAp tools args etc).2
        = { etc.withAccessPoint (enableWifiApArgs tools args).2 with softBlocked := softBlocked } ∧
      (tools.rfkillUnblock = 0 → softBlocked = false) := by
  obtain ⟨haccepted, hapt⟩ := hwrites
  have hrun : enableWifiAp tools args etc
      = setE (apStart tools) (etc.withAccessPoint (enableWifiApArgs tools args).2) := by
    unfold enableWifiAp
    dsimp only
    rw [haccepted]
    show setE (program tools.aptInstall id :: stripDhcpcd :: _) etc = _
    rw [setE_cons_program hapt, id, setE_stripDhcpcd hstrip]
    simp only [apFiles, List.cons_append, List.nil_append, setE_cons_does]
    refine congrArg _ ?_
    unfold noteWlanEnabled keepWpaSupplicant Etc.withAccessPoint noteWlanEnabled keepWpaSupplicant
    dsimp only
    split <;> rfl
  rw [hrun]
  exact apStart_keeps tools

theorem enableWifiAp_bak {tools : EnableWifiApTools} {args : List (List UInt8)}
    (hwrites : enableWifiApWrites tools args)
    (hstrip : (stripMarkerSections etc.dhcpcdConf).status = 0) :
    (enableWifiAp tools args etc).2.wpaSupplicantConfBak
      = some (etc.wpaSupplicantConfBak.getD etc.wpaSupplicantConf) := by
  obtain ⟨softBlocked, hrun, -⟩ := enableWifiAp_run hwrites hstrip
  rw [hrun]
  unfold Etc.withAccessPoint noteWlanEnabled keepWpaSupplicant
  dsimp only
  split <;> rfl

theorem enableWifiAp_radio {tools : EnableWifiApTools} {args : List (List UInt8)}
    (hwrites : enableWifiApWrites tools args)
    (hstrip : (stripMarkerSections etc.dhcpcdConf).status = 0) :
    (enableWifiAp tools args etc).2.wlanEnabled
        = (etc.wlanEnabled || !(etc.softBlocked || etc.hardBlocked)) ∧
      (tools.rfkillUnblock = 0 → (enableWifiAp tools args etc).2.softBlocked = false) := by
  obtain ⟨softBlocked, hrun, hunblock⟩ := enableWifiAp_run hwrites hstrip
  rw [hrun]
  refine ⟨?_, hunblock⟩
  unfold Etc.withAccessPoint noteWlanEnabled keepWpaSupplicant
  dsimp only
  split
  · rename_i hblocked
    rw [hblocked]
    exact (Bool.or_false _).symm
  · rename_i hblocked
    rw [Bool.not_eq_true] at hblocked
    rw [hblocked]
    exact (Bool.or_true _).symm

/-- Else it does nothing. -/
theorem enableWifiAp_of_not {tools : EnableWifiApTools} {args : List (List UInt8)}
    (h : ¬ (enableWifiApWrites tools args ∧ (stripMarkerSections etc.dhcpcdConf).status = 0)) :
    (enableWifiAp tools args etc).2 = etc := by
  unfold enableWifiAp
  dsimp only
  cases hargs : (enableWifiApArgs tools args).1 with
  | refused => rfl
  | help => rfl
  | accepted =>
    show (setE (program tools.aptInstall id :: stripDhcpcd :: _) etc).2 = _
    by_cases hapt : tools.aptInstall = 0
    · rw [setE_cons_program hapt]
      exact setE_stripDhcpcd_of_failed (fun hstrip => h ⟨⟨hargs, hapt⟩, hstrip⟩) _
    · rw [setE_cons_program_of_failed hapt]

/-- What `disable-wifi-ap` has restored when it comes to the radio. -/
def Etc.withoutAccessPoint (etc : Etc) (content : List UInt8) : Etc :=
  { etc with
    dhcpcdConf := (stripMarkerSections etc.dhcpcdConf).content
    wpaSupplicantConf := content
    wpaSupplicantConfBak := none }

/-- The radio, from whether it was not blocked before. -/
theorem restoreRadio_eq (etc : Etc) (rfkillBlock : Nat) : ∃ status softBlocked,
    restoreRadio rfkillBlock etc
        = (status, { etc with wlanEnabled := false, softBlocked := softBlocked }) ∧
      (etc.wlanEnabled = true → softBlocked = etc.softBlocked) ∧
      (etc.wlanEnabled = false → rfkillBlock = 0 → softBlocked = true) := by
  unfold restoreRadio program
  by_cases hwlan : etc.wlanEnabled = true
  · rw [if_pos hwlan]
    exact ⟨_, _, rfl, fun _ => rfl, fun hno => absurd (hwlan.symm.trans hno) (by simp)⟩
  · have hwlan' : etc.wlanEnabled = false := by simpa using hwlan
    rw [if_neg hwlan]
    split
    · exact ⟨_, true, by rw [← hwlan'], fun hno => absurd hno hwlan, fun _ _ => rfl⟩
    · rename_i hblock
      exact ⟨_, etc.softBlocked, by rw [← hwlan'], fun _ => rfl, fun _ hzero => absurd hzero hblock⟩

/-- **`disable-wifi-ap`**, if `dhcpcd.conf` can be stripped and the file of the user is aside. -/
theorem disableWifiAp_run {tools : DisableWifiApTools} {args : List (List UInt8)}
    {content : List UInt8} (haccepted : disableWifiApArgs tools args = .accepted)
    (hstrip : (stripMarkerSections etc.dhcpcdConf).status = 0)
    (hbak : etc.wpaSupplicantConfBak = some content) :
    ∃ softBlocked hostapdConf dnsmasqConf,
      (disableWifiAp tools args etc).2 = { etc.withoutAccessPoint content with
        wlanEnabled := false
        softBlocked := softBlocked
        hostapdConf := hostapdConf
        dnsmasqConf := dnsmasqConf } ∧
      (etc.wlanEnabled = true → softBlocked = etc.softBlocked) ∧
      (etc.wlanEnabled = false → tools.rfkillBlock = 0 → softBlocked = true) := by
  have hrest (s : Etc) : ∃ hostapdConf dnsmasqConf,
      (setE [program tools.systemctlStop id,
        does fun etc => { etc with hostapdConf := none, dnsmasqConf := none },
        program tools.aptRemove id] s).2
          = { s with hostapdConf := hostapdConf, dnsmasqConf := dnsmasqConf } := by
    refine setE_keeps (I := fun s' => ∃ hostapdConf dnsmasqConf,
      s' = { s with hostapdConf := hostapdConf, dnsmasqConf := dnsmasqConf }) ?_ s ⟨_, _, rfl⟩
    intro c hc
    simp only [List.mem_cons, List.not_mem_nil, or_false] at hc
    rcases hc with rfl | rfl | rfl
    · exact program_keeps fun _ h => h
    · refine does_keeps ?_
      rintro s' ⟨hostapdConf, dnsmasqConf, rfl⟩
      exact ⟨none, none, rfl⟩
    · exact program_keeps fun _ h => h
  have hrestore : restoreWpaSupplicant
      { etc with dhcpcdConf := (stripMarkerSections etc.dhcpcdConf).content }
        = (0, etc.withoutAccessPoint content) := by
    unfold restoreWpaSupplicant
    dsimp only
    rw [hbak]
    rfl
  obtain ⟨status, softBlocked, hradio, henabled, hblocked⟩ :=
    restoreRadio_eq (etc.withoutAccessPoint content) tools.rfkillBlock
  unfold disableWifiAp
  rw [haccepted]
  show ∃ softBlocked hostapdConf dnsmasqConf, (setE (stripDhcpcd :: _) etc).2 = _ ∧ _
  rw [setE_stripDhcpcd hstrip, setE_cons_of_ok (by rw [hrestore]), hrestore]
  by_cases hok : status = 0
  · rw [setE_cons_of_ok (by rw [hradio]; exact hok), hradio]
    obtain ⟨hostapdConf, dnsmasqConf, hrun⟩ := hrest
      { etc.withoutAccessPoint content with wlanEnabled := false, softBlocked := softBlocked }
    exact ⟨softBlocked, hostapdConf, dnsmasqConf, hrun, henabled, hblocked⟩
  · rw [setE_cons_of_failed (by rw [hradio]; exact hok), hradio]
    exact ⟨softBlocked, etc.hostapdConf, etc.dnsmasqConf, rfl, henabled, hblocked⟩

/-- Without it, `dhcpcd.conf` is stripped. -/
theorem disableWifiAp_none {tools : DisableWifiApTools} {args : List (List UInt8)}
    (haccepted : disableWifiApArgs tools args = .accepted)
    (hstrip : (stripMarkerSections etc.dhcpcdConf).status = 0)
    (hbak : etc.wpaSupplicantConfBak = none) :
    (disableWifiAp tools args etc).2
      = { etc with dhcpcdConf := (stripMarkerSections etc.dhcpcdConf).content } := by
  have hrestore : (restoreWpaSupplicant
      { etc with dhcpcdConf := (stripMarkerSections etc.dhcpcdConf).content })
        = (1, { etc with dhcpcdConf := (stripMarkerSections etc.dhcpcdConf).content }) := by
    unfold restoreWpaSupplicant
    dsimp only
    rw [hbak]
  unfold disableWifiAp
  rw [haccepted]
  show (setE (stripDhcpcd :: _) etc).2 = _
  rw [setE_stripDhcpcd hstrip, setE_cons_of_failed (by rw [hrestore]; simp), hrestore]

theorem disableWifiAp_of_not {tools : DisableWifiApTools} {args : List (List UInt8)}
    (h : disableWifiApArgs tools args ≠ .accepted) : (disableWifiAp tools args etc).2 = etc := by
  unfold disableWifiAp
  cases hargs : disableWifiApArgs tools args with
  | refused => rfl
  | help => rfl
  | accepted => exact absurd hargs h

/-! ## 4. `dhcpcd.conf` -/

/-- What a script makes of `dhcpcd.conf` without its section, if it comes to that file. -/
def NetworkScript.onDhcpcdConf : NetworkScript → Option (List UInt8 → List UInt8)
  | setStaticIp tools args =>
    match parseStaticIpArgs tools args with
    | .error _ => none
    | .ok s => some fun stripped =>
      if tools.grep (asciiBytes "^interface " ++ s.interface) stripped then stripped
      else stripped ++ staticIpSection s
  | unsetStaticIp tools args =>
    if unsetStaticIpArgs tools args = .accepted then some id else none
  | enableWifi _ _ | disableWifi _ _ => none
  | enableWifiAp tools args =>
    if enableWifiApWrites tools args then some (· ++ sectionBytes apDhcpcdLines) else none
  | disableWifiAp tools args => if disableWifiApArgs tools args = .accepted then some id else none

/-- A script that strips a file and calls a program then. -/
theorem setE_strip_program (hstrip : (stripMarkerSections etc.dhcpcdConf).status = 0)
    (status : Nat) : (setE [stripDhcpcd, program status id] etc).2
      = { etc with dhcpcdConf := (stripMarkerSections etc.dhcpcdConf).content } := by
  rw [setE_stripDhcpcd hstrip]
  by_cases hstatus : status = 0
  · rw [setE_cons_program hstatus]
    rfl
  · rw [setE_cons_program_of_failed hstatus]

/-- **What a script leaves in `dhcpcd.conf`** depends on what is there besides the section alone. -/
theorem dhcpcdConf_run (hstrip : (stripMarkerSections etc.dhcpcdConf).status = 0)
    (script : NetworkScript) : (script.run etc).2.dhcpcdConf
      = script.onDhcpcdConf.elim etc.dhcpcdConf
        fun f => f (stripMarkerSections etc.dhcpcdConf).content := by
  cases script with
  | setStaticIp tools args =>
    show (setStaticIp tools args etc.dhcpcdConf).content = _
    unfold setStaticIp NetworkScript.onDhcpcdConf
    dsimp only
    cases parseStaticIpArgs tools args with
    | error message => rfl
    | ok s =>
      dsimp only [Option.elim_some]
      rw [if_neg (not_not.mpr hstrip)]
      split <;> rfl
  | unsetStaticIp tools args =>
    show (unsetStaticIp tools args etc).2.dhcpcdConf = _
    unfold unsetStaticIp NetworkScript.onDhcpcdConf
    dsimp only
    cases unsetStaticIpArgs tools args with
    | refused => rfl
    | help => rfl
    | accepted =>
      show (setE _ etc).2.dhcpcdConf = _
      rw [setE_strip_program hstrip, if_pos rfl]
      rfl
  | enableWifi tools args => rfl
  | disableWifi rfkill args =>
    show (disableWifi rfkill args etc).2.dhcpcdConf = etc.dhcpcdConf
    unfold disableWifi
    cases noArgs args with
    | refused => rfl
    | help => rfl
    | accepted =>
      refine setE_keeps (I := fun s => s.dhcpcdConf = etc.dhcpcdConf) ?_ etc rfl
      intro c hc
      simp only [List.mem_cons, List.not_mem_nil, or_false] at hc
      rcases hc with rfl | rfl
      · exact fun s hs => hs
      · exact program_keeps fun _ h => h
  | enableWifiAp tools args =>
    show (enableWifiAp tools args etc).2.dhcpcdConf = _
    by_cases hwrites : enableWifiApWrites tools args
    · obtain ⟨softBlocked, hrun, -⟩ := enableWifiAp_run hwrites hstrip
      rw [hrun, NetworkScript.onDhcpcdConf, if_pos hwrites]
      rfl
    · rw [enableWifiAp_of_not fun h => hwrites h.1, NetworkScript.onDhcpcdConf, if_neg hwrites]
      rfl
  | disableWifiAp tools args =>
    show (disableWifiAp tools args etc).2.dhcpcdConf = _
    by_cases haccepted : disableWifiApArgs tools args = .accepted
    · rw [NetworkScript.onDhcpcdConf, if_pos haccepted]
      cases hbak : etc.wpaSupplicantConfBak with
      | none =>
        rw [disableWifiAp_none haccepted hstrip hbak]
        rfl
      | some content =>
        obtain ⟨softBlocked, hostapdConf, dnsmasqConf, hrun, -⟩ :=
          disableWifiAp_run haccepted hstrip hbak
        rw [hrun]
        rfl
    · rw [disableWifiAp_of_not haccepted, NetworkScript.onDhcpcdConf, if_neg haccepted]
      rfl

/-- A script that writes lines leaves a file with a section, and the lines of the user. -/
theorem onDhcpcdConf_bytes {script : NetworkScript} (hlines : script.WritesLines)
    {f : List UInt8 → List UInt8} (hf : script.onDhcpcdConf = some f) (file : ManagedFile) :
    ∃ file' : ManagedFile, file'.user = file.user ∧ f file.clear.bytes = file'.bytes := by
  have hclear : ∃ file' : ManagedFile, file'.user = file.user ∧
      file.clear.bytes = file'.bytes := ⟨file.clear, rfl, rfl⟩
  cases script with
  | setStaticIp tools args =>
    unfold NetworkScript.onDhcpcdConf at hf
    dsimp only at hf
    cases hargs : parseStaticIpArgs tools args with
    | error message =>
      rw [hargs] at hf
      exact absurd hf (by simp)
    | ok s =>
      rw [hargs] at hf
      obtain rfl := Option.some.inj hf
      dsimp only
      split
      · exact hclear
      · rw [staticIpSection_eq]
        have hplain := staticIpLines_plain (hlines s hargs)
        exact ⟨file.manage _ hplain, rfl, file.bytes_manage hplain⟩
  | unsetStaticIp tools args =>
    unfold NetworkScript.onDhcpcdConf at hf
    dsimp only at hf
    split at hf
    · obtain rfl := Option.some.inj hf
      exact hclear
    · exact absurd hf (by simp)
  | enableWifi tools args => exact absurd hf (by simp [NetworkScript.onDhcpcdConf])
  | disableWifi rfkill args => exact absurd hf (by simp [NetworkScript.onDhcpcdConf])
  | enableWifiAp tools args =>
    unfold NetworkScript.onDhcpcdConf at hf
    dsimp only at hf
    split at hf
    · obtain rfl := Option.some.inj hf
      exact ⟨file.manage _ apDhcpcdLines_plain, rfl, file.bytes_manage apDhcpcdLines_plain⟩
    · exact absurd hf (by simp)
  | disableWifiAp tools args =>
    unfold NetworkScript.onDhcpcdConf at hf
    dsimp only at hf
    split at hf
    · obtain rfl := Option.some.inj hf
      exact hclear
    · exact absurd hf (by simp)

/-! ## 5. `wpa_supplicant.conf` -/

/-- `enable-wifi` keeps the lines of the user. -/
theorem enableWifi_bytes {tools : WifiTools} {args : List (List UInt8)}
    (hlines : (NetworkScript.enableWifi tools args).WritesLines) (file : ManagedFile) :
    ∃ file' : ManagedFile, file'.user = file.user ∧
      (enableWifi tools args file.bytes).content = file'.bytes := by
  have hself : ∃ file' : ManagedFile, file'.user = file.user ∧ file.bytes = file'.bytes :=
    ⟨file, rfl, rfl⟩
  unfold enableWifi
  cases hargs : parseArgs args ⟨[], [], []⟩ with
  | help => exact hself
  | unknown flag => exact hself
  | vars v =>
    dsimp only
    cases checkVars v with
    | some message => exact hself
    | none =>
      obtain ⟨lines, hsection, hplain⟩ := wifiSection_eq (hlines v hargs)
      dsimp only
      rw [file.stripMarkerSections_bytes, if_neg (by simp), hsection, file.bytes_manage hplain]
      refine ⟨file.manage lines hplain, rfl, ?_⟩
      split <;> rfl

/-- `disable-wifi` keeps them too. -/
theorem disableWifi_run (rfkill : Nat) (args : List (List UInt8)) {file : ManagedFile}
    (hfile : etc.wpaSupplicantConf = file.bytes) : ∃ file' : ManagedFile, file'.user = file.user ∧
      ∃ softBlocked, (disableWifi rfkill args etc).2
        = { etc with wpaSupplicantConf := file'.bytes, softBlocked := softBlocked } := by
  have hself : ∃ file' : ManagedFile, file'.user = file.user ∧ ∃ softBlocked,
      etc = { etc with wpaSupplicantConf := file'.bytes, softBlocked := softBlocked } :=
    ⟨file, rfl, etc.softBlocked, by rw [← hfile]⟩
  unfold disableWifi
  cases noArgs args with
  | refused => exact hself
  | help => exact hself
  | accepted =>
    have hstrip : stripWpaSupplicant etc
        = (0, { etc with wpaSupplicantConf := file.clear.bytes }) := by
      unfold stripWpaSupplicant
      rw [hfile, file.stripMarkerSections_bytes]
    refine ⟨file.clear, rfl, ?_⟩
    show ∃ softBlocked, (setE (stripWpaSupplicant :: _) etc).2 = _
    rw [setE_cons_of_ok (by rw [hstrip]), hstrip]
    by_cases hrfkill : rfkill = 0
    · rw [setE_cons_program hrfkill]
      exact ⟨true, rfl⟩
    · rw [setE_cons_program_of_failed hrfkill]
      exact ⟨etc.softBlocked, rfl⟩

/-- The files besides `dhcpcd.conf` that the two scripts for a static address see. -/
theorem unsetStaticIp_run (etc : Etc) (tools : UnsetStaticIpTools) (args : List (List UInt8)) :
    ∃ content, (unsetStaticIp tools args etc).2 = { etc with dhcpcdConf := content } := by
  unfold unsetStaticIp
  cases unsetStaticIpArgs tools args with
  | refused => exact ⟨etc.dhcpcdConf, rfl⟩
  | help => exact ⟨etc.dhcpcdConf, rfl⟩
  | accepted =>
    by_cases hstrip : (stripMarkerSections etc.dhcpcdConf).status = 0
    · exact ⟨_, setE_strip_program hstrip tools.applyStaticIp⟩
    · exact ⟨etc.dhcpcdConf, setE_stripDhcpcd_of_failed hstrip _⟩

end Steps

end TinyPilotKvm
