/-
# What the network scripts leave alone

Whatever scripts have run: the lines of the user are still there, in their order and with at most
one section behind them, and the next script leaves `dhcpcd.conf` as it would have left the first
one (`scripts_keep_user_lines`).

`wpa_supplicant.conf` has a second place: while the access point is on, the file of the user is
aside.  Nothing but `disable-wifi-ap` touches it there, which puts it back byte for byte
(`access_point_round_trip`).
-/
import TinyPilotKvm.Scripts.EtcSteps
import TinyPilotKvm.Simulation

namespace TinyPilotKvm

open Bash

section Runs

variable {etc : Etc}

/-! ## 1. The files -/

/-- `wpa_supplicant.conf` and the file aside; `wpa` are the lines of the user. -/
structure WpaInv (wpa : List (List UInt8)) (etc : Etc) : Prop where
  user : ∃ file : ManagedFile, file.user = wpa ∧
    etc.wpaSupplicantConfBak.getD etc.wpaSupplicantConf = file.bytes
  inPlace : ∃ file : ManagedFile, etc.wpaSupplicantConf = file.bytes

/-- A script that leaves the file aside where it is. -/
theorem WpaInv.rewrite {wpa : List (List UInt8)} (h : WpaInv wpa etc) {etc' : Etc}
    (hbak : etc'.wpaSupplicantConfBak = etc.wpaSupplicantConfBak)
    (hconf : ∀ file : ManagedFile, etc.wpaSupplicantConf = file.bytes →
      ∃ file' : ManagedFile, file'.user = file.user ∧ etc'.wpaSupplicantConf = file'.bytes) :
    WpaInv wpa etc' := by
  obtain ⟨file, huser, hfile⟩ := h.user
  obtain ⟨here, hhere⟩ := h.inPlace
  obtain ⟨here', -, hhere'⟩ := hconf here hhere
  refine ⟨?_, here', hhere'⟩
  rw [hbak]
  cases hcase : etc.wpaSupplicantConfBak with
  | none =>
    rw [hcase] at hfile
    obtain ⟨file', huser', hfile'⟩ := hconf file hfile
    exact ⟨file', huser'.trans huser, hfile'⟩
  | some content =>
    rw [hcase] at hfile
    exact ⟨file, huser, hfile⟩

theorem apWpaSupplicantLines_ne : apWpaSupplicantLines ≠ [] := List.cons_ne_nil _ _

theorem noSection_plain (lines : List (List UInt8)) (h : none = some lines) :
    ∀ l ∈ lines, PlainLine l := absurd h (by simp)

/-- The file that stands there while the access point is on. -/
def apWpaSupplicant : ManagedFile where
  user := apWpaSupplicantLines
  body := none
  user_ne := apWpaSupplicantLines_ne
  user_plain := apWpaSupplicantLines_plain
  body_plain := noSection_plain

/-- **A script**, if `dhcpcd.conf` can be stripped. -/
theorem WpaInv.run {wpa : List (List UInt8)} (h : WpaInv wpa etc)
    (hstrip : (stripMarkerSections etc.dhcpcdConf).status = 0) (script : NetworkScript)
    (hlines : script.WritesLines) : WpaInv wpa (script.run etc).2 := by
  cases script with
  | setStaticIp tools args => exact ⟨h.user, h.inPlace⟩
  | unsetStaticIp tools args =>
    obtain ⟨content, hrun⟩ := unsetStaticIp_run etc tools args
    rw [NetworkScript.run, hrun]
    exact ⟨h.user, h.inPlace⟩
  | enableWifi tools args =>
    refine h.rewrite rfl fun file hfile => ?_
    obtain ⟨file', huser, hfile'⟩ := enableWifi_bytes hlines file
    refine ⟨file', huser, ?_⟩
    show (enableWifi tools args etc.wpaSupplicantConf).content = _
    rw [hfile, hfile']
  | disableWifi rfkill args =>
    obtain ⟨here, hhere⟩ := h.inPlace
    obtain ⟨_, -, softBlocked, hrun⟩ := disableWifi_run rfkill args hhere
    have hbak : (disableWifi rfkill args etc).2.wpaSupplicantConfBak
        = etc.wpaSupplicantConfBak := by rw [hrun]
    refine h.rewrite hbak fun file hfile => ?_
    obtain ⟨file', huser, _, hrun'⟩ := disableWifi_run rfkill args hfile
    refine ⟨file', huser, ?_⟩
    show (disableWifi rfkill args etc).2.wpaSupplicantConf = _
    rw [hrun']
  | enableWifiAp tools args =>
    show WpaInv wpa (enableWifiAp tools args etc).2
    by_cases hwrites : enableWifiApWrites tools args
    · obtain ⟨softBlocked, hrun, -⟩ := enableWifiAp_run hwrites hstrip
      have hconf : (enableWifiAp tools args etc).2.wpaSupplicantConf = apWpaSupplicant.bytes := by
        rw [hrun]
        exact (List.append_nil _).symm
      refine ⟨?_, apWpaSupplicant, hconf⟩
      rw [enableWifiAp_bak hwrites hstrip]
      exact h.user
    · rw [enableWifiAp_of_not fun hboth => hwrites hboth.1]
      exact h
  | disableWifiAp tools args =>
    show WpaInv wpa (disableWifiAp tools args etc).2
    by_cases haccepted : disableWifiApArgs tools args = .accepted
    · cases hbak : etc.wpaSupplicantConfBak with
      | none =>
        rw [disableWifiAp_none haccepted hstrip hbak]
        exact ⟨h.user, h.inPlace⟩
      | some content =>
        obtain ⟨softBlocked, hostapdConf, dnsmasqConf, hrun, -⟩ :=
          disableWifiAp_run haccepted hstrip hbak
        obtain ⟨file, huser, hfile⟩ := h.user
        rw [hbak] at hfile
        rw [hrun]
        exact ⟨⟨file, huser, hfile⟩, file, hfile⟩
    · rw [disableWifiAp_of_not haccepted]
      exact h

/-- The files of a device on which the scripts have run.  `dhcpcd` and `wpa` are the lines of the
user. -/
structure EtcInv (dhcpcd wpa : List (List UInt8)) (etc : Etc) : Prop where
  dhcpcd : ∃ file : ManagedFile, file.user = dhcpcd ∧ etc.dhcpcdConf = file.bytes
  wpa : WpaInv wpa etc

/-- **A script.** -/
theorem EtcInv.run {dhcpcd wpa : List (List UInt8)} (h : EtcInv dhcpcd wpa etc)
    (script : NetworkScript) (hlines : script.WritesLines) :
    EtcInv dhcpcd wpa (script.run etc).2 := by
  obtain ⟨file, huser, hfile⟩ := h.dhcpcd
  have hstripped := file.stripMarkerSections_bytes
  rw [← hfile] at hstripped
  have hstrip : (stripMarkerSections etc.dhcpcdConf).status = 0 := by rw [hstripped]
  refine ⟨?_, h.wpa.run hstrip script hlines⟩
  rw [dhcpcdConf_run hstrip, hstripped]
  cases hf : script.onDhcpcdConf with
  | none => exact ⟨file, huser, hfile⟩
  | some f =>
    obtain ⟨file', huser', hf'⟩ := onDhcpcdConf_bytes hlines hf file
    exact ⟨file', huser'.trans huser, hf'⟩

end Runs

/-- **The scripts keep the lines of the user.**  At first both files are lines of the user, at least
one and none of them a marker, with one section behind them or none, and no file is aside.  Then
scripts run that write lines, which is up to the arguments (single lines, and no backslash sequence
for `echo -e` in the SSID) and to `wpa_passphrase`; whatever else the programs say that they call,
both files are still the lines that the user has written, in their order, with one section behind
them or none; that of `wpa_supplicant.conf` may be aside.  And no script sees in `dhcpcd.conf` which
ones have run before. -/
theorem scripts_keep_user_lines {start etc : Etc} {dhcpcd wpa : ManagedFile}
    (hdhcpcd : start.dhcpcdConf = dhcpcd.bytes) (hwpa : start.wpaSupplicantConf = wpa.bytes)
    (hbak : start.wpaSupplicantConfBak = none)
    (hr : (scriptsSystem start).ReachVia (fun _ script => script.WritesLines) etc) :
    (∃ file : ManagedFile, file.user = dhcpcd.user ∧ etc.dhcpcdConf = file.bytes) ∧
      (∃ file : ManagedFile, file.user = wpa.user ∧
        etc.wpaSupplicantConfBak.getD etc.wpaSupplicantConf = file.bytes) ∧
      ∀ script : NetworkScript, script.onDhcpcdConf.isSome = true →
        (script.run etc).2.dhcpcdConf = (script.run start).2.dhcpcdConf := by
  have hinv : EtcInv dhcpcd.user wpa.user etc := by
    refine hr.inv (I := EtcInv dhcpcd.user wpa.user) ?_ ?_
    · rintro etc rfl
      refine ⟨⟨dhcpcd, rfl, hdhcpcd⟩, ⟨wpa, rfl, ?_⟩, wpa, hwpa⟩
      rw [hbak]
      exact hwpa
    · intro etc etc' script h hlines hstep
      obtain rfl := Option.some.inj hstep
      exact h.run script hlines
  obtain ⟨file, huser, hfile⟩ := hinv.dhcpcd
  refine ⟨⟨file, huser, hfile⟩, hinv.wpa.user, fun script hscript => ?_⟩
  obtain ⟨f, hf⟩ := Option.isSome_iff_exists.mp hscript
  have hclear : file.clear.bytes = dhcpcd.clear.bytes := by
    rw [file.bytes_clear, dhcpcd.bytes_clear, huser]
  have hthen (etc : Etc) (file : ManagedFile) (hfile : etc.dhcpcdConf = file.bytes) :
      (script.run etc).2.dhcpcdConf = f file.clear.bytes := by
    have hstripped := file.stripMarkerSections_bytes
    rw [← hfile] at hstripped
    rw [dhcpcdConf_run (by rw [hstripped]) script, hstripped, hf]
    rfl
  rw [hthen etc file hfile, hthen start dhcpcd hdhcpcd, hclear]

theorem hostnameLines_ne : [asciiBytes "hostname"] ≠ [] := List.cons_ne_nil _ _

theorem hostnameLines_plain : ∀ l ∈ [asciiBytes "hostname"], PlainLine l :=
  List.forall_mem_singleton.mpr (plainLine_cons (by decide) (by decide))

/-- A file of one line. -/
def hostnameFile : ManagedFile where
  user := [asciiBytes "hostname"]
  body := none
  user_ne := hostnameLines_ne
  user_plain := hostnameLines_plain
  body_plain := noSection_plain

/-- A device that has not been configured. -/
def freshEtc (wpaSupplicantConf : List UInt8) : Etc :=
  ⟨hostnameFile.bytes, wpaSupplicantConf, none, false, none, none, true, false⟩

/-- A static address, and the file as it was. -/
theorem scripts_keep_user_lines_unset :
    let start := freshEtc apWpaSupplicant.bytes
    let args := [asciiBytes "--router", asciiBytes "10.0.0.1", asciiBytes "--ip",
      asciiBytes "10.0.0.50"]
    let etc := ((NetworkScript.setStaticIp ⟨getoptIpRouter, grepPrefix, 0⟩ args).run start).2
    start.dhcpcdConf.length < etc.dhcpcdConf.length ∧
      ((NetworkScript.unsetStaticIp ⟨fun _ => some [], 0⟩ []).run etc).2.dhcpcdConf
        = start.dhcpcdConf := by
  intro start args etc
  let script := NetworkScript.setStaticIp ⟨getoptIpRouter, grepPrefix, 0⟩ args
  have hargs : parseStaticIpArgs ⟨getoptIpRouter, grepPrefix, 0⟩ args = .ok
      ⟨asciiBytes "10.0.0.50", asciiBytes "10.0.0.1", asciiBytes "10.0.0.1 8.8.8.8 1.1.1.1",
        asciiBytes "eth0"⟩ := rfl
  have hlines : script.WritesLines := by
    intro s hs
    obtain rfl := Except.ok.inj (hargs.symm.trans hs)
    exact ⟨by decide, by decide, by decide, by decide⟩
  have hstripped : stripMarkerSections start.dhcpcdConf = ⟨0, "", hostnameFile.clear.bytes⟩ :=
    hostnameFile.stripMarkerSections_bytes
  have hrun (script : NetworkScript) : (script.run start).2.dhcpcdConf
      = script.onDhcpcdConf.elim start.dhcpcdConf fun f => f hostnameFile.clear.bytes := by
    rw [dhcpcdConf_run (by rw [hstripped]), hstripped]
  have hr : (scriptsSystem start).ReachVia (fun _ script => script.WritesLines) etc :=
    .step (.start rfl) hlines rfl
  obtain ⟨-, -, hlast⟩ :=
    @scripts_keep_user_lines start etc hostnameFile apWpaSupplicant rfl rfl rfl hr
  refine ⟨?_, (hlast _ rfl).trans (hrun _)⟩
  show _ < (script.run start).2.dhcpcdConf.length
  rw [hrun]
  decide +kernel

/-! ## 2. The access point and back -/

def NetworkScript.endsAccessPoint : NetworkScript → Bool
  | disableWifiAp _ _ => true
  | _ => false

/-- It leaves the radio as it is, or unblocks it. -/
def NetworkScript.leavesRadio : NetworkScript → Bool
  | disableWifi _ _ | enableWifiAp _ _ => false
  | _ => true

/-- **While the access point is on**, nobody touches the file that is aside. -/
theorem bak_run {etc : Etc} {content : List UInt8} (hbak : etc.wpaSupplicantConfBak = some content)
    {script : NetworkScript} (hends : script.endsAccessPoint = false) :
    (script.run etc).2.wpaSupplicantConfBak = some content := by
  cases script with
  | setStaticIp tools args => exact hbak
  | unsetStaticIp tools args =>
    obtain ⟨content, hrun⟩ := unsetStaticIp_run etc tools args
    rw [NetworkScript.run, hrun]
    exact hbak
  | enableWifi tools args => exact hbak
  | disableWifi rfkill args =>
    show (disableWifi rfkill args etc).2.wpaSupplicantConfBak = _
    unfold disableWifi
    cases noArgs args with
    | refused => exact hbak
    | help => exact hbak
    | accepted =>
      refine setE_keeps (I := fun s => s.wpaSupplicantConfBak = some content) ?_ etc hbak
      intro c hc
      simp only [List.mem_cons, List.not_mem_nil, or_false] at hc
      rcases hc with rfl | rfl
      · exact fun s hs => hs
      · exact program_keeps fun _ h => h
  | enableWifiAp tools args =>
    show (enableWifiAp tools args etc).2.wpaSupplicantConfBak = _
    by_cases hwrites : enableWifiApWrites tools args ∧
        (stripMarkerSections etc.dhcpcdConf).status = 0
    · rw [enableWifiAp_bak hwrites.1 hwrites.2, hbak]
      rfl
    · rw [enableWifiAp_of_not hwrites]
      exact hbak
  | disableWifiAp tools args => exact absurd hends (by simp [NetworkScript.endsAccessPoint])

/-- The radio, for scripts that do not block it. -/
theorem radio_run {etc : Etc} (hsoft : etc.softBlocked = false) {script : NetworkScript}
    (hends : script.endsAccessPoint = false) (hradio : script.leavesRadio = true) :
    (script.run etc).2.softBlocked = false ∧ (script.run etc).2.wlanEnabled = etc.wlanEnabled := by
  cases script with
  | setStaticIp tools args => exact ⟨hsoft, rfl⟩
  | unsetStaticIp tools args =>
    obtain ⟨content, hrun⟩ := unsetStaticIp_run etc tools args
    rw [NetworkScript.run, hrun]
    exact ⟨hsoft, rfl⟩
  | enableWifi tools args =>
    refine ⟨?_, rfl⟩
    show (etc.softBlocked && _) = false
    rw [hsoft]
    rfl
  | disableWifi rfkill args => exact absurd hradio (by simp [NetworkScript.leavesRadio])
  | enableWifiAp tools args => exact absurd hradio (by simp [NetworkScript.leavesRadio])
  | disableWifiAp tools args => exact absurd hends (by simp [NetworkScript.endsAccessPoint])

/-- **The access point and back.**  At first no file is aside, and there is no note that the radio
was on.  An `enable-wifi-ap` comes to its files, any scripts but `disable-wifi-ap` follow, and then
a `disable-wifi-ap` that is accepted; both can strip `dhcpcd.conf`.  Then `wpa_supplicant.conf` is
byte for byte what it was before, and neither a file nor a note is left.  The radio is blocked
exactly if it was blocked before, if there is no hardware switch, `rfkill` works, and between the
two there was no `disable-wifi`, which blocks it, and no second `enable-wifi-ap`, which notes it as
on. -/
theorem access_point_round_trip {start on : Etc} {tools : EnableWifiApTools}
    {tools' : DisableWifiApTools} {args args' : List (List UInt8)} {scripts : List NetworkScript}
    (hbak : start.wpaSupplicantConfBak = none) (hnote : start.wlanEnabled = false)
    (hwrites : enableWifiApWrites tools args)
    (hstrip : (stripMarkerSections start.dhcpcdConf).status = 0)
    (hscripts : ∀ script ∈ scripts, script.endsAccessPoint = false)
    (hexec : (scriptsSystem start).exec (enableWifiAp tools args start).2 scripts = some on)
    (haccepted : disableWifiApArgs tools' args' = .accepted)
    (hstrip' : (stripMarkerSections on.dhcpcdConf).status = 0) :
    (disableWifiAp tools' args' on).2.wpaSupplicantConf = start.wpaSupplicantConf ∧
      (disableWifiAp tools' args' on).2.wpaSupplicantConfBak = none ∧
      (disableWifiAp tools' args' on).2.wlanEnabled = false ∧
      ((∀ script ∈ scripts, script.leavesRadio = true) → start.hardBlocked = false →
        tools.rfkillUnblock = 0 → tools'.rfkillBlock = 0 →
          (disableWifiAp tools' args' on).2.softBlocked = start.softBlocked) := by
  have hfirst : (enableWifiAp tools args start).2.wpaSupplicantConfBak
      = some start.wpaSupplicantConf := by
    rw [enableWifiAp_bak hwrites hstrip, hbak]
    rfl
  have hon : on.wpaSupplicantConfBak = some start.wpaSupplicantConf := by
    have hall : (scriptsSystem start).AllAlong
        (fun etc => etc.wpaSupplicantConfBak = some start.wpaSupplicantConf)
        (enableWifiAp tools args start).2 scripts := by
      refine System.allAlong_of_forall ?_ hfirst
      intro script hscript etc etc' hbak hstep
      obtain rfl := Option.some.inj hstep
      exact bak_run hbak (hscripts script hscript)
    exact hall.last hexec
  obtain ⟨softBlocked, hostapdConf, dnsmasqConf, hrun, henabled, hblocked⟩ :=
    disableWifiAp_run haccepted hstrip' hon
  rw [hrun]
  refine ⟨rfl, rfl, rfl, fun hradio hhard hok hok' => ?_⟩
  -- the note of `enable-wifi-ap` says whether the radio was blocked
  obtain ⟨hnoted, hunblocked⟩ := enableWifiAp_radio hwrites hstrip
  rw [hnote, hhard, Bool.false_or, Bool.or_false] at hnoted
  have hradio : on.softBlocked = false ∧ on.wlanEnabled = !start.softBlocked := by
    have hall : (scriptsSystem start).AllAlong
        (fun etc => etc.softBlocked = false ∧ etc.wlanEnabled = !start.softBlocked)
        (enableWifiAp tools args start).2 scripts := by
      refine System.allAlong_of_forall ?_ ⟨hunblocked hok, hnoted⟩
      intro script hscript etc etc' h hstep
      obtain rfl := Option.some.inj hstep
      obtain ⟨hsoft, hwlan⟩ := radio_run h.1 (hscripts script hscript) (hradio script hscript)
      exact ⟨hsoft, hwlan.trans h.2⟩
    exact hall.last hexec
  show softBlocked = start.softBlocked
  cases hsoft : start.softBlocked with
  | true => exact hblocked (by rw [hradio.2, hsoft]; rfl) hok'
  | false => exact (henabled (by rw [hradio.2, hsoft]; rfl)).trans hradio.1

/-- Wi-Fi is switched off while the access point is on, and the file comes back. -/
theorem access_point_round_trip_disabled :
    let on := (disableWifi 0 [] (enableWifiAp ⟨0, none, List.length, 0, 0, 0, 0, 0⟩
      [asciiBytes "--password", asciiBytes "12345678"] (freshEtc hostnameFile.bytes)).2).2
    (disableWifiAp ⟨0, 0, 0, 0⟩ [] on).2.wpaSupplicantConf = asciiBytes "hostname\n" := by
  intro on
  have hstart : EtcInv hostnameFile.user hostnameFile.user (freshEtc hostnameFile.bytes) :=
    ⟨⟨hostnameFile, rfl, rfl⟩, ⟨hostnameFile, rfl, rfl⟩, hostnameFile, rfl⟩
  have hwrites : enableWifiApWrites ⟨0, none, List.length, 0, 0, 0, 0, 0⟩
      [asciiBytes "--password", asciiBytes "12345678"] := by decide
  have hon : EtcInv hostnameFile.user hostnameFile.user on := by
    have hap := hstart.run (.enableWifiAp ⟨0, none, List.length, 0, 0, 0, 0, 0⟩
      [asciiBytes "--password", asciiBytes "12345678"]) trivial
    exact hap.run (.disableWifi 0 []) trivial
  have hstrip {etc : Etc} (h : EtcInv hostnameFile.user hostnameFile.user etc) :
      (stripMarkerSections etc.dhcpcdConf).status = 0 := by
    obtain ⟨file, -, hfile⟩ := h.dhcpcd
    rw [hfile, file.stripMarkerSections_bytes]
  exact (@access_point_round_trip (freshEtc hostnameFile.bytes) on _ ⟨0, 0, 0, 0⟩ _ []
    [.disableWifi 0 []] rfl rfl hwrites (hstrip hstart) (List.forall_mem_singleton.mpr rfl) rfl rfl
    (hstrip hon)).1

end TinyPilotKvm
