/-
# `set-static-ip`

The script checks its arguments, takes the old marker section out of `dhcpcd.conf`, and **only then
looks for a manual configuration of the interface**, which makes it refuse.  By then the section of
an earlier run is gone, and so is what `strip-marker-sections` loses of other lines.

`set_static_ip_iff` says when a refusal leaves the file as it was.
-/
import TinyPilotKvm.Scripts.Echo
import TinyPilotKvm.Scripts.PrintMarkerSections

namespace TinyPilotKvm

/-! ## 1. The arguments -/

/-- An option with its value. -/
inductive StaticIpOption
  | ip (value : List UInt8)
  | router (value : List UInt8)
  | dns (value : List UInt8)
  | interface (value : List UInt8)

/-- The variables of the loop.  Those that can be set once are `none` at first; `dns` is empty. -/
structure StaticIpVars where
  ipAddress : Option (List UInt8) := none
  routers : Option (List UInt8) := none
  dns : List UInt8 := []
  interface : Option (List UInt8) := none

/-- `readonly NAME="${value}"` if `NAME` is empty, and else an error.  A name that has been set to
the empty value is read-only too. -/
def setOnce (name message : String) (value : List UInt8) :
    Option (List UInt8) → Except String (Option (List UInt8))
  | none => .ok (some value)
  | some [] => .error (name ++ ": readonly variable")
  | some _ => .error message

/-- A turn of the loop.  An error is the message before `exit 1`. -/
def staticIpTurn (v : StaticIpVars) : StaticIpOption → Except String StaticIpVars
  | .ip value => do
    let ipAddress ← setOnce "IP_ADDRESS"
      "Only one static IP address should be provided using --ip" value v.ipAddress
    return { v with ipAddress := ipAddress }
  | .router value => do
    let routers ← setOnce "ROUTERS"
      "Only one router IP address should be provided using --router" value v.routers
    return { v with routers := routers }
  | .dns value =>
    .ok { v with dns := if v.dns = [] then value else v.dns ++ asciiBytes " " ++ value }
  | .interface value => do
    let interface ← setOnce "INTERFACE"
      "Only one interface should be provided using --interface" value v.interface
    return { v with interface := interface }

/-- What is to be configured. -/
structure StaticIp where
  ipAddress : List UInt8
  routers : List UInt8
  dns : List UInt8
  interface : List UInt8

/-- The checks and the defaults after the loop. -/
def checkStaticIp (v : StaticIpVars) : Except String StaticIp :=
  let ipAddress := v.ipAddress.getD []
  let routers := v.routers.getD []
  if ipAddress = [] then .error "You must specify an IP address using --ip"
  else if routers = [] then .error "You must specify a router IP address using --router"
  else
    let dns := if v.dns = [] then routers ++ asciiBytes " 8.8.8.8 1.1.1.1" else v.dns
    match v.interface with
    | none => .ok ⟨ipAddress, routers, dns, asciiBytes "eth0"⟩
    | some [] => .error "INTERFACE: readonly variable"
    | some interface => .ok ⟨ipAddress, routers, dns, interface⟩

/-! ## 2. The script -/

/-- The programs that it calls: the options that `getopt` finds, unless it fails; whether `grep -q`
finds a pattern in a file; and the exit status of `apply-static-ip`. -/
structure StaticIpTools where
  getopt : List (List UInt8) → Option (List StaticIpOption)
  grep : List UInt8 → List UInt8 → Bool
  applyStaticIp : Nat

/-- The arguments, as the script understands them. -/
def parseStaticIpArgs (tools : StaticIpTools) (args : List (List UInt8)) :
    Except String StaticIp := do
  match tools.getopt args with
  | none => throw "Usage: set-static-ip --router router_ip --ip static_ip [--dns dns_ip]..."
  | some options => checkStaticIp (← options.foldlM staticIpTurn {})

/-- How a run ends: it refuses, or it comes to its last command. -/
inductive StaticIpOutcome
  | badArguments (message : String)
  | unmatchedMarkers (message : String)
  | existingConfiguration (interface : List UInt8)
  | applied (status : Nat)

def StaticIpOutcome.status : StaticIpOutcome → Nat
  | badArguments _ | unmatchedMarkers _ | existingConfiguration _ => 1
  | applied status => status

structure StaticIpResult where
  outcome : StaticIpOutcome
  content : List UInt8

/-- What is appended to the file. -/
def staticIpSection (s : StaticIp) : List UInt8 :=
  Bash.echo markerStart ++ Bash.echo (asciiBytes "interface " ++ s.interface) ++
    Bash.echo (asciiBytes "static ip_address=" ++ s.ipAddress) ++
    Bash.echo (asciiBytes "static routers=" ++ s.routers) ++
    Bash.echo (asciiBytes "static domain_name_servers=" ++ s.dns) ++ Bash.echo markerEnd

/-- The script, on `dhcpcd.conf` as it is. -/
def setStaticIp (tools : StaticIpTools) (args : List (List UInt8)) (content : List UInt8) :
    StaticIpResult :=
  match parseStaticIpArgs tools args with
  | .error message => ⟨.badArguments message, content⟩
  | .ok s =>
    let stripped := stripMarkerSections content
    if stripped.status ≠ 0 then ⟨.unmatchedMarkers stripped.stderr, stripped.content⟩
    else if tools.grep (asciiBytes "^interface " ++ s.interface) stripped.content then
      ⟨.existingConfiguration s.interface, stripped.content⟩
    else ⟨.applied tools.applyStaticIp, stripped.content ++ staticIpSection s⟩

/-! ## 3. Refusals -/

def StaticIpOutcome.IsRefusal : StaticIpOutcome → Prop
  | badArguments _ | unmatchedMarkers _ | existingConfiguration _ => True
  | applied _ => False

/-- A refusal leaves the file as it was. -/
def RefusesUntouched (content : List UInt8) (r : StaticIpResult) : Prop :=
  r.outcome.IsRefusal → r.content = content

/-- The file has lines, all with a newline and without NUL bytes, and none is a marker. -/
def NothingToStrip (content : List UInt8) : Prop :=
  ∃ lines, lines ≠ [] ∧ (∀ l ∈ lines, PlainLine l) ∧ content = unlines lines

/-- A manual configuration is found outside the sections only where there are no sections. -/
def ManualConfigurationAlone (tools : StaticIpTools) (args : List (List UInt8))
    (content : List UInt8) : Prop :=
  ∀ s, parseStaticIpArgs tools args = .ok s → (stripMarkerSections content).status = 0 →
    tools.grep (asciiBytes "^interface " ++ s.interface) (stripMarkerSections content).content →
      NothingToStrip content

/-- `strip-marker-sections` itself refuses without a change. -/
theorem stripMarkerSections_of_failed {content : List UInt8}
    (h : (stripMarkerSections content).status ≠ 0) :
    (stripMarkerSections content).content = content := by
  unfold stripMarkerSections at h ⊢
  split
  · rfl
  · rename_i s hloop
    rw [hloop] at h
    dsimp only at h ⊢
    split
    · rfl
    · rename_i hclosed
      rw [if_neg hclosed] at h
      exact absurd rfl h

/-- **How a run goes**: it refuses before anything is written, or for a manual configuration after
the file is stripped, or it comes to its end. -/
theorem setStaticIp_cases (tools : StaticIpTools) (args : List (List UInt8))
    (content : List UInt8) :
    (setStaticIp tools args content).content = content ∨
      (∃ s, parseStaticIpArgs tools args = .ok s ∧ (stripMarkerSections content).status = 0 ∧
        tools.grep (asciiBytes "^interface " ++ s.interface)
          (stripMarkerSections content).content ∧
        setStaticIp tools args content
          = ⟨.existingConfiguration s.interface, (stripMarkerSections content).content⟩) ∨
      (setStaticIp tools args content).outcome = .applied tools.applyStaticIp := by
  unfold setStaticIp
  cases hargs : parseStaticIpArgs tools args with
  | error message => exact Or.inl rfl
  | ok s =>
    dsimp only
    by_cases hstrip : (stripMarkerSections content).status = 0
    · rw [if_neg (not_not.mpr hstrip)]
      by_cases hgrep : tools.grep (asciiBytes "^interface " ++ s.interface)
          (stripMarkerSections content).content
      · rw [if_pos hgrep]
        exact Or.inr (Or.inl ⟨s, rfl, hstrip, hgrep, rfl⟩)
      · rw [if_neg hgrep]
        exact Or.inr (Or.inr rfl)
    · rw [if_pos hstrip]
      exact Or.inl (stripMarkerSections_of_failed hstrip)

/-- A manual configuration that is found makes the script refuse. -/
theorem setStaticIp_manual {tools : StaticIpTools} {args : List (List UInt8)}
    {content : List UInt8} {s : StaticIp} (hargs : parseStaticIpArgs tools args = .ok s)
    (hstrip : (stripMarkerSections content).status = 0)
    (hgrep : tools.grep (asciiBytes "^interface " ++ s.interface)
      (stripMarkerSections content).content) :
    setStaticIp tools args content
      = ⟨.existingConfiguration s.interface, (stripMarkerSections content).content⟩ := by
  unfold setStaticIp
  rw [hargs]
  dsimp only
  rw [if_neg (not_not.mpr hstrip), if_pos hgrep]

/-- **A refusal leaves the file as it was exactly if** it is not for a manual configuration or there
is nothing to strip. -/
theorem set_static_ip_iff (tools : StaticIpTools) (args : List (List UInt8))
    (content : List UInt8) :
    RefusesUntouched content (setStaticIp tools args content) ↔
      ManualConfigurationAlone tools args content := by
  constructor
  · intro huntouched s hargs hstrip hgrep
    rw [setStaticIp_manual hargs hstrip hgrep] at huntouched
    exact (stripMarkerSections_content_eq_iff hstrip).mp (huntouched trivial)
  · intro halone hrefusal
    rcases setStaticIp_cases tools args content with hsame | ⟨s, hargs, hstrip, hgrep, hrun⟩ | hdone
    · exact hsame
    · rw [hrun]
      exact (stripMarkerSections_content_eq_iff hstrip).mpr (halone s hargs hstrip hgrep)
    · rw [hdone] at hrefusal
      exact hrefusal.elim

/-! ## 4. A section that is lost -/

/-- `grep -q` for a pattern that begins with `^` and has no other special character. -/
def grepPrefix (pattern content : List UInt8) : Bool :=
  (fileLines content []).any fun l => pattern.tail.isPrefixOf l.text

/-- `getopt` for `--ip` and `--router`, each with its value in the next argument. -/
def getoptIpRouter : List (List UInt8) → Option (List StaticIpOption)
  | [] => some []
  | flag :: value :: args =>
    if flag = asciiBytes "--ip" then (getoptIpRouter args).map (.ip value :: ·)
    else if flag = asciiBytes "--router" then (getoptIpRouter args).map (.router value :: ·)
    else none
  | [_] => none

/-- **The section of an earlier run is lost** where a manual configuration was added after it. -/
theorem refused_run_drops_section :
    let tools : StaticIpTools := ⟨getoptIpRouter, grepPrefix, 0⟩
    let args := [asciiBytes "--router", asciiBytes "10.0.0.1", asciiBytes "--ip",
      asciiBytes "10.0.0.50"]
    let content := unlines [markerStart, asciiBytes "interface eth0",
      asciiBytes "static ip_address=10.0.0.40", markerEnd, asciiBytes "interface eth0"]
    setStaticIp tools args content
        = ⟨.existingConfiguration (asciiBytes "eth0"), unlines [asciiBytes "interface eth0"]⟩ ∧
      ¬ RefusesUntouched content (setStaticIp tools args content) := by
  intro tools args content
  have hrun : setStaticIp tools args content
      = ⟨.existingConfiguration (asciiBytes "eth0"), unlines [asciiBytes "interface eth0"]⟩ := by
    rfl
  refine ⟨hrun, fun huntouched => ?_⟩
  rw [hrun] at huntouched
  exact absurd (huntouched trivial) (by decide)

end TinyPilotKvm
