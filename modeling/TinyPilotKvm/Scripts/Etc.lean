/-
# The network files in `/etc`

Six scripts configure the network of the device by way of a few files: `set-static-ip` and
`unset-static-ip`, `enable-wifi` and `disable-wifi`, `enable-wifi-ap` and `disable-wifi-ap`.  They
share `dhcpcd.conf` and `wpa_supplicant.conf`, and the access point puts the latter aside as
`wpa_supplicant.conf.bak` while it is on.

`NetworkScript.run` is a run of one of them, with whatever the programs say that it calls.
-/
import TinyPilotKvm.Scripts.EnableWifi
import TinyPilotKvm.Scripts.SetE
import TinyPilotKvm.Scripts.SetStaticIp
import TinyPilotKvm.Transition

namespace TinyPilotKvm

/-! ## 1. The files -/

/-- The files, and whether the radio is blocked; `wlanEnabled` is whether there is a file
`wlan_enabled`. -/
structure Etc where
  dhcpcdConf : List UInt8
  wpaSupplicantConf : List UInt8
  wpaSupplicantConfBak : Option (List UInt8)
  wlanEnabled : Bool
  hostapdConf : Option (List UInt8)
  dnsmasqConf : Option (List UInt8)
  softBlocked : Bool
  hardBlocked : Bool

open Bash

/-- `strip-marker-sections /etc/dhcpcd.conf`. -/
def stripDhcpcd : Command Etc := fun etc =>
  let r := stripMarkerSections etc.dhcpcdConf
  (r.status, { etc with dhcpcdConf := r.content })

/-- `strip-marker-sections /etc/wpa_supplicant/wpa_supplicant.conf`. -/
def stripWpaSupplicant : Command Etc := fun etc =>
  let r := stripMarkerSections etc.wpaSupplicantConf
  (r.status, { etc with wpaSupplicantConf := r.content })

/-! ## 2. `unset-static-ip` -/

inductive UnsetOption
  | quiet
  | interface (value : List UInt8)
  | help

/-- How a script understands its arguments. -/
inductive Accepted
  | refused
  | help
  | accepted
  deriving DecidableEq

/-- The loop over the options; `QUIET` is read-only once it is set. -/
def unsetStaticIpOptions (quiet : Bool) : List UnsetOption → Accepted
  | [] => .accepted
  | .quiet :: options => if quiet then .refused else unsetStaticIpOptions true options
  | .interface _ :: _ => .refused
  | .help :: _ => .help

structure UnsetStaticIpTools where
  getopt : List (List UInt8) → Option (List UnsetOption)
  applyStaticIp : Nat

def unsetStaticIpArgs (tools : UnsetStaticIpTools) (args : List (List UInt8)) : Accepted :=
  (tools.getopt args).elim .refused (unsetStaticIpOptions false)

/-- A script that has understood its arguments. -/
def Accepted.run (commands : List (Command Etc)) : Accepted → Command Etc
  | .refused => fun etc => (1, etc)
  | .help => fun etc => (0, etc)
  | .accepted => setE commands

def unsetStaticIp (tools : UnsetStaticIpTools) (args : List (List UInt8)) : Command Etc :=
  (unsetStaticIpArgs tools args).run [stripDhcpcd, program tools.applyStaticIp id]

/-! ## 3. `disable-wifi` -/

/-- The loop of a script that has no arguments but `--help`. -/
def noArgs : List (List UInt8) → Accepted
  | [] => .accepted
  | arg :: _ => if arg = asciiBytes "--help" then .help else .refused

def disableWifi (rfkill : Nat) (args : List (List UInt8)) : Command Etc :=
  (noArgs args).run
    [stripWpaSupplicant, program rfkill fun etc => { etc with softBlocked := true }]

/-! ## 4. `enable-wifi-ap` -/

structure ApVars where
  networkPassword : List UInt8 := []
  networkName : List UInt8 := asciiBytes "TinyPilotWiFi"
  networkCountry : List UInt8 := asciiBytes "US"

/-- The loop over the arguments; a flag that is the last argument ends it. -/
def parseApArgs : List (List UInt8) → ApVars → Accepted × ApVars
  | [], v => (.accepted, v)
  | [flag], v =>
    if flag = asciiBytes "--help" then (.help, v)
    else if flag = asciiBytes "--password" ∨ flag = asciiBytes "--ssid" ∨
        flag = asciiBytes "--country" then (.accepted, v)
    else (.refused, v)
  | flag :: value :: args, v =>
    if flag = asciiBytes "--help" then (.help, v)
    else if flag = asciiBytes "--password" then
      parseApArgs args { v with networkPassword := value }
    else if flag = asciiBytes "--ssid" then parseApArgs args { v with networkName := value }
    else if flag = asciiBytes "--country" then parseApArgs args { v with networkCountry := value }
    else (.refused, v)

/-- The programs that the script calls.  `typed` is the line that is typed at the prompt, if there
is one, and `length` is the number of characters. -/
structure EnableWifiApTools where
  euid : Nat
  typed : Option (List UInt8)
  length : List UInt8 → Nat
  aptInstall : Nat
  rfkillUnblock : Nat
  systemctlUnmask : Nat
  systemctlEnable : Nat
  systemctlRestart : Nat

/-- The checks of the arguments. -/
def checkApVars (length : List UInt8 → Nat) (v : ApVars) : Accepted :=
  if v.networkPassword = [] ∨ length v.networkPassword < 8 ∨ 63 < length v.networkPassword then
    .refused
  else if v.networkName = [] then .refused
  else if length v.networkCountry ≠ 2 then .refused
  else .accepted

/-- The script as far as its checks. -/
def enableWifiApArgs (tools : EnableWifiApTools) (args : List (List UInt8)) : Accepted × ApVars :=
  if tools.euid ≠ 0 then (.refused, {})
  else
    match parseApArgs args {} with
    | (.accepted, v) =>
      if v.networkPassword = [] then
        match tools.typed with
        | none => (.refused, v)
        | some line =>
          let v := { v with networkPassword := line }
          (checkApVars tools.length v, v)
      else (checkApVars tools.length v, v)
    | other => other

/-- The section of `dhcpcd.conf`. -/
def apDhcpcdLines : List (List UInt8) :=
  [asciiBytes "interface wlan0", asciiBytes "static ip_address=192.168.50.1/24",
    asciiBytes "nohook wpa_supplicant"]

def apHostapdConf (v : ApVars) : List UInt8 :=
  unlines [asciiBytes "country_code=" ++ v.networkCountry, asciiBytes "interface=wlan0",
    asciiBytes "ssid=" ++ v.networkName, asciiBytes "hw_mode=g", asciiBytes "channel=7",
    asciiBytes "macaddr_acl=0", asciiBytes "auth_algs=1", asciiBytes "ignore_broadcast_ssid=0",
    asciiBytes "wpa=2", asciiBytes "wpa_passphrase=" ++ v.networkPassword,
    asciiBytes "wpa_key_mgmt=WPA-PSK", asciiBytes "wpa_pairwise=TKIP",
    asciiBytes "rsn_pairwise=CCMP"]

def apDnsmasqConf : List UInt8 :=
  unlines [asciiBytes "interface=wlan0",
    asciiBytes "dhcp-range=192.168.50.2,192.168.50.100,255.255.255.0,24h",
    asciiBytes "domain=wlan", asciiBytes "address=/gw.wlan/192.168.50.1"]

/-- What stands in `wpa_supplicant.conf` while the access point is on. -/
def apWpaSupplicantLines : List (List UInt8) :=
  [asciiBytes "ctrl_interface=DIR=/var/run/wpa_supplicant GROUP=netdev",
    asciiBytes "update_config=1"]

/-- `cp --no-clobber`. -/
def keepWpaSupplicant (etc : Etc) : Etc :=
  { etc with
    wpaSupplicantConfBak := some (etc.wpaSupplicantConfBak.getD etc.wpaSupplicantConf) }

/-- `rfkill list wlan | grep -q 'yes'`, and `touch` if that fails. -/
def noteWlanEnabled (etc : Etc) : Etc :=
  if etc.softBlocked || etc.hardBlocked then etc else { etc with wlanEnabled := true }

/-- The commands that write the files. -/
def apFiles (v : ApVars) : List (Command Etc) :=
  [does fun etc => { etc with
      dhcpcdConf := etc.dhcpcdConf ++ unlines (markerStart :: (apDhcpcdLines ++ [markerEnd])) },
    does fun etc => { etc with hostapdConf := some (apHostapdConf v) },
    does fun etc => { etc with dnsmasqConf := some apDnsmasqConf },
    does keepWpaSupplicant,
    does noteWlanEnabled,
    does fun etc => { etc with wpaSupplicantConf := unlines apWpaSupplicantLines }]

/-- The commands that start the access point. -/
def apStart (tools : EnableWifiApTools) : List (Command Etc) :=
  [program tools.rfkillUnblock fun etc => { etc with softBlocked := false },
    program tools.systemctlUnmask id, program tools.systemctlEnable id,
    program tools.systemctlRestart id]

def enableWifiAp (tools : EnableWifiApTools) (args : List (List UInt8)) : Command Etc :=
  let (result, v) := enableWifiApArgs tools args
  result.run (program tools.aptInstall id :: stripDhcpcd :: (apFiles v ++ apStart tools))

/-! ## 5. `disable-wifi-ap` -/

structure DisableWifiApTools where
  euid : Nat
  rfkillBlock : Nat
  systemctlStop : Nat
  aptRemove : Nat

def disableWifiApArgs (tools : DisableWifiApTools) (args : List (List UInt8)) : Accepted :=
  if tools.euid ≠ 0 then .refused else noArgs args

/-- `mv`. -/
def restoreWpaSupplicant : Command Etc := fun etc =>
  match etc.wpaSupplicantConfBak with
  | none => (1, etc)
  | some content =>
    (0, { etc with wpaSupplicantConf := content, wpaSupplicantConfBak := none })

/-- The radio is blocked, unless it was not blocked before the access point was there. -/
def restoreRadio (rfkillBlock : Nat) : Command Etc := fun etc =>
  if etc.wlanEnabled then (0, { etc with wlanEnabled := false })
  else program rfkillBlock (fun etc => { etc with softBlocked := true }) etc

def disableWifiAp (tools : DisableWifiApTools) (args : List (List UInt8)) : Command Etc :=
  (disableWifiApArgs tools args).run
    [stripDhcpcd, restoreWpaSupplicant, restoreRadio tools.rfkillBlock,
      program tools.systemctlStop id,
      does fun etc => { etc with hostapdConf := none, dnsmasqConf := none },
      program tools.aptRemove id]

/-! ## 6. Runs -/

/-- A script with its arguments and the programs that it calls. -/
inductive NetworkScript
  | setStaticIp (tools : StaticIpTools) (args : List (List UInt8))
  | unsetStaticIp (tools : UnsetStaticIpTools) (args : List (List UInt8))
  | enableWifi (tools : WifiTools) (args : List (List UInt8))
  | disableWifi (rfkill : Nat) (args : List (List UInt8))
  | enableWifiAp (tools : EnableWifiApTools) (args : List (List UInt8))
  | disableWifiAp (tools : DisableWifiApTools) (args : List (List UInt8))

/-- `enable-wifi` comes to `rfkill`, which unblocks the radio. -/
def enableWifiUnblocks (tools : WifiTools) (args : List (List UInt8)) (content : List UInt8) :
    Bool :=
  match parseArgs args ⟨[], [], []⟩ with
  | .vars v =>
    (checkVars v).isNone && (stripMarkerSections content).status == 0 && tools.rfkill == 0
  | _ => false

def NetworkScript.run : NetworkScript → Command Etc
  | setStaticIp tools args => fun etc =>
    let r := TinyPilotKvm.setStaticIp tools args etc.dhcpcdConf
    (r.outcome.status, { etc with dhcpcdConf := r.content })
  | unsetStaticIp tools args => TinyPilotKvm.unsetStaticIp tools args
  | enableWifi tools args => fun etc =>
    let r := TinyPilotKvm.enableWifi tools args etc.wpaSupplicantConf
    (r.status, { etc with
      wpaSupplicantConf := r.content
      softBlocked := etc.softBlocked &&
        !enableWifiUnblocks tools args etc.wpaSupplicantConf })
  | disableWifi rfkill args => TinyPilotKvm.disableWifi rfkill args
  | enableWifiAp tools args => TinyPilotKvm.enableWifiAp tools args
  | disableWifiAp tools args => TinyPilotKvm.disableWifiAp tools args

/-- Any scripts, one after the other. -/
def scriptsSystem (etc : Etc) : System Etc NetworkScript where
  start etc' := etc' = etc
  step etc script := some (script.run etc).2

end TinyPilotKvm
