/-
# The STUN address of the video settings (`app/request_parsers/video_settings.py`)

The server goes into the configuration of Janus between quotes.  Two kinds of text are accepted that
do not belong there: **a name with a newline after it**, as `$` also stands before that, and **an
IPv6 address with a scope id**, which `ip_address` does not look into.

`stun_address_iff` says for which pairs the grammar is kept.
-/
import TinyPilotKvm.App.VideoSettings
import TinyPilotKvm.Fallible
import TinyPilotKvm.Python.IpAddress
import TinyPilotKvm.Python.Patterns
import TinyPilotKvm.Python.Text

namespace TinyPilotKvm

open PyStr

/-! ## 1. The grammar -/

/-- `[0-9a-z-.]`. -/
def inDomainClass (c : Nat) : Bool :=
  (48 ≤ c && c ≤ 57) || (97 ≤ c && c ≤ 122) || c == 45 || c == 46

theorem matchesDomainPattern_iff {server : PyStr} : matchesDomainPattern server = true ↔
    IsName inDomainClass 255 server ∨
      ∃ name, IsName inDomainClass 255 name ∧ server = name ++ [10] := by
  change matchesAnchored inDomainClass 255 server = true ↔ _
  exact matchesAnchored_iff (by decide)

/-- The port's text is a number in the range. -/
def IsPort (int : PyStr → Option Int) (port : Json) (n : Int) : Prop :=
  asInt int port = some n ∧ 1 ≤ n ∧ n ≤ 65535

/-- An IP address, or a name. -/
def IsServer (s : PyStr) : Prop := isIpAddress s = true ∨ IsName inDomainClass 255 s

/-- A quote, a blank or a line terminator. -/
def BreaksConfig (c : Nat) : Prop := c = 34 ∨ c = 39 ∨ isSpace c = true ∨ IsLineBoundary c

instance (c : Nat) : Decidable (BreaksConfig c) := inferInstanceAs (Decidable (_ ∨ _))

/-- What should be accepted, and what it should be returned as. -/
inductive StunAddress (int : PyStr → Option Int) : Json → Json → Option PyStr × Option Int → Prop
  | absent : StunAddress int .null .null (none, none)
  | given {s : PyStr} {port : Json} {n : Int} : IsServer s → IsPort int port n →
      StunAddress int (.str s) port (some s, some n)

/-- The parser succeeds exactly for these pairs, as they should be returned, and no server breaks
the configuration. -/
structure KeepsStunGrammar (int : PyStr → Option Int) (server port : Json)
    (r : Except ApiException (Option PyStr × Option Int)) : Prop where
  exact : ∀ value, r = .ok value ↔ StunAddress int server port value
  plain : ∀ s value, r = .ok (some s, value) → ∀ c ∈ s, ¬ BreaksConfig c

/-- A name, and a newline after it. -/
def NameWithNewline (server : Json) : Prop :=
  ∃ name, IsName inDomainClass 255 name ∧ server = .str (name ++ [10])

/-- An IPv6 address whose scope id breaks the configuration. -/
def ScopeBreaksConfig (server : Json) : Prop :=
  ∃ addr scope, server = .str (addr ++ 37 :: scope) ∧ isIpAddress (addr ++ 37 :: scope) = true ∧
    ∃ c ∈ scope, BreaksConfig c

/-! ## 2. Characters -/

theorem lt_of_breaksConfig {c : Nat} (h : BreaksConfig c) :
    c ≤ 39 ∨ 0x85 ≤ c := by
  unfold BreaksConfig IsLineBoundary isSpace at h
  simp only [Bool.or_eq_true, Bool.and_eq_true, decide_eq_true_eq, List.contains_eq_mem,
    List.mem_cons, List.not_mem_nil, or_false] at h
  omega

theorem not_breaksConfig_of_isAddressChar {c : Nat} (h : IsAddressChar c) : ¬ BreaksConfig c := by
  intro hbreaks
  have hrange := lt_of_breaksConfig hbreaks
  simp only [IsAddressChar, isHexChar, isDecDigit, Bool.or_eq_true, Bool.and_eq_true,
    decide_eq_true_eq] at h
  omega

theorem not_breaksConfig_of_inDomainClass {c : Nat} (h : inDomainClass c = true) :
    ¬ BreaksConfig c := by
  intro hbreaks
  have hrange := lt_of_breaksConfig hbreaks
  simp only [inDomainClass, Bool.or_eq_true, Bool.and_eq_true, decide_eq_true_eq,
    beq_iff_eq] at h
  omega

/-- Outside a scope id nothing of an address breaks the configuration. -/
theorem not_breaksConfig_of_isIpAddress {s : PyStr} (h : isIpAddress s = true)
    (hscope : ¬ ScopeBreaksConfig (.str s)) : ∀ c ∈ s, ¬ BreaksConfig c := by
  intro c hc hbreaks
  rcases isIpAddress_chars h with hall | ⟨addr, scope, rfl, haddr⟩
  · exact not_breaksConfig_of_isAddressChar (hall c hc) hbreaks
  · rcases List.mem_append.mp hc with hc | hc
    · exact not_breaksConfig_of_isAddressChar (haddr c hc) hbreaks
    · rcases List.mem_cons.mp hc with rfl | hc
      · have hrange := lt_of_breaksConfig hbreaks
        simp only [BreaksConfig, IsLineBoundary] at hbreaks
        revert hbreaks
        decide
      · exact hscope ⟨addr, scope, rfl, h, c, hc, hbreaks⟩

/-! ## 3. What is accepted -/

variable {int : PyStr → Option Int}

theorem parseH264StunServer_eq_ok {server : Json} {value : Option PyStr} :
    parseH264StunServer isIpAddress server = .ok value ↔
      (server = .null ∧ value = none) ∨ ∃ s, server = .str s ∧ value = some s ∧
        (isIpAddress s || matchesDomainPattern s) = true := by
  constructor
  · intro h
    cases server with
    | null =>
      cases h
      exact Or.inl ⟨rfl, rfl⟩
    | str s =>
      unfold parseH264StunServer at h
      dsimp only at h
      split at h
      · rename_i haccepted
        cases h
        exact Or.inr ⟨s, rfl, rfl, haccepted⟩
      · cases h
    | bool | int | float | list | dict => cases h
  · rintro (⟨rfl, rfl⟩ | ⟨s, rfl, rfl, haccepted⟩)
    · rfl
    · unfold parseH264StunServer
      dsimp only
      rw [if_pos haccepted]

theorem intInRange_eq_ok {lo hi n : Int} {error : ApiException} {value : Json} :
    intInRange int lo hi error value = .ok n ↔ asInt int value = some n ∧ lo ≤ n ∧ n ≤ hi := by
  unfold intInRange
  cases asInt int value with
  | none => simp
  | some m =>
    dsimp only
    split
    · rename_i hrange
      constructor
      · intro h
        cases h
        exact ⟨rfl, hrange⟩
      · rintro ⟨h, -⟩
        cases h
        rfl
    · rename_i hrange
      constructor
      · intro h
        cases h
      · rintro ⟨h, hm⟩
        cases h
        exact absurd hm hrange

theorem parseH264StunPort_eq_ok {port : Json} {value : Option Int} :
    parseH264StunPort int port = .ok value ↔
      (port = .null ∧ value = none) ∨ ∃ n, value = some n ∧ IsPort int port n := by
  by_cases hnull : port = .null
  · subst hnull
    constructor
    · intro h
      cases h
      exact Or.inl ⟨rfl, rfl⟩
    · rintro (⟨-, rfl⟩ | ⟨n, -, h, -⟩)
      · rfl
      · cases h
  · have hpresent : parseH264StunPort int port = some <$> intInRange int 1 65535
        (.invalidVideoSettingStunAddressError
          "The port must be a positive integer, not greater than 65535.") port := by
      cases port with
      | null => exact absurd rfl hnull
      | bool | int | float | str | list | dict => rfl
    rw [hpresent]
    constructor
    · intro h
      cases hrange : intInRange int 1 65535 (.invalidVideoSettingStunAddressError
          "The port must be a positive integer, not greater than 65535.") port with
      | error e =>
        rw [hrange] at h
        cases h
      | ok n =>
        rw [hrange] at h
        cases h
        exact Or.inr ⟨n, rfl, intInRange_eq_ok.mp hrange⟩
    · rintro (⟨h, -⟩ | ⟨n, rfl, h⟩)
      · exact absurd h hnull
      · rw [intInRange_eq_ok.mpr h]
        rfl

/-- **The pairs that are accepted.** -/
theorem parseH264StunAddress_eq_ok {fields : PyDict} {server port : Json}
    (hserver : PyDict.get? fields "h264StunServer" = some server)
    (hport : PyDict.get? fields "h264StunPort" = some port) {value : Option PyStr × Option Int} :
    parseH264StunAddress int isIpAddress (.ok (.dict fields)) = .ok value ↔
      (server = .null ∧ port = .null ∧ value = (none, none)) ∨
        ∃ s n, server = .str s ∧ (isIpAddress s || matchesDomainPattern s) = true ∧
          IsPort int port n ∧ value = (some s, some n) := by
  have hfields : parseH264StunAddress int isIpAddress (.ok (.dict fields)) = (do
      let server ← parseH264StunServer isIpAddress server
      let port ← parseH264StunPort int port
      if server.isNone != port.isNone then
        throw (.invalidVideoSettingStunAddressError
          "The server and port values must either both be given, or both absent.")
      return (server, port)) := by
    simp only [parseH264StunAddress, requiredField, hserver, hport]
    rfl
  rw [hfields]
  constructor
  · intro h
    obtain ⟨s, hs, h⟩ := bind_eq_ok h
    obtain ⟨n, hn, h⟩ := bind_eq_ok h
    rcases parseH264StunServer_eq_ok.mp hs with ⟨rfl, rfl⟩ | ⟨s, rfl, rfl, haccepted⟩ <;>
      rcases parseH264StunPort_eq_ok.mp hn with ⟨rfl, rfl⟩ | ⟨n, rfl, hport⟩
    · cases h
      exact Or.inl ⟨rfl, rfl, rfl⟩
    · cases h
    · cases h
    · cases h
      exact Or.inr ⟨s, n, rfl, haccepted, hport, rfl⟩
  · rintro (⟨rfl, rfl, rfl⟩ | ⟨s, n, rfl, haccepted, hn, rfl⟩)
    · rfl
    · rw [parseH264StunServer_eq_ok.mpr (Or.inr ⟨s, rfl, rfl, haccepted⟩),
        parseH264StunPort_eq_ok.mpr (Or.inr ⟨n, rfl, hn⟩)]
      rfl

/-! ## 4. The grammar -/

/-- **The parser keeps to the grammar exactly for** the pairs that are not a port and either a name
with a newline after it or an address with a scope id that breaks the configuration. -/
theorem stun_address_iff {fields : PyDict} {server port : Json}
    (hserver : PyDict.get? fields "h264StunServer" = some server)
    (hport : PyDict.get? fields "h264StunPort" = some port) :
    KeepsStunGrammar int server port
        (parseH264StunAddress int isIpAddress (.ok (.dict fields))) ↔
      ¬ ((∃ n, IsPort int port n) ∧ (NameWithNewline server ∨ ScopeBreaksConfig server)) := by
  have hparse (value : Option PyStr × Option Int) :=
    @parseH264StunAddress_eq_ok int _ _ _ hserver hport value
  constructor
  · rintro hkeeps ⟨⟨n, hn⟩, hbad⟩
    have haccepted (s : PyStr) (hs : server = .str s)
        (h : (isIpAddress s || matchesDomainPattern s) = true) :=
      hkeeps.plain s _ ((hparse _).mpr (Or.inr ⟨s, n, hs, h, hn, rfl⟩))
    rcases hbad with ⟨name, hname, hs⟩ | ⟨addr, scope, hs, hip, c, hc, hbreaks⟩
    · have hmatch : matchesDomainPattern (name ++ [10]) = true :=
        matchesDomainPattern_iff.mpr (Or.inr ⟨name, hname, rfl⟩)
      refine haccepted _ hs (by rw [hmatch, Bool.or_true]) 10 (by simp) ?_
      exact Or.inr (Or.inr (Or.inl (by decide)))
    · exact haccepted _ hs (by rw [hip, Bool.true_or]) c (by simp [hc]) hbreaks
  · intro hgood
    have hserverOk {s : PyStr} {n : Int} (hs : server = .str s) (hn : IsPort int port n)
        (h : (isIpAddress s || matchesDomainPattern s) = true) : IsServer s := by
      rcases Bool.or_eq_true _ _ ▸ h with hip | hmatch
      · exact Or.inl hip
      · rcases matchesDomainPattern_iff.mp hmatch with hname | ⟨name, hname, rfl⟩
        · exact Or.inr hname
        · exact absurd ⟨⟨n, hn⟩, Or.inl ⟨name, hname, hs⟩⟩ hgood
    constructor
    · intro value
      rw [hparse]
      constructor
      · rintro (⟨rfl, rfl, rfl⟩ | ⟨s, n, rfl, haccepted, hn, rfl⟩)
        · exact .absent
        · exact .given (hserverOk rfl hn haccepted) hn
      · intro h
        cases h with
        | absent => exact Or.inl ⟨rfl, rfl, rfl⟩
        | @given s _ n hs hn =>
          refine Or.inr ⟨s, n, rfl, ?_, hn, rfl⟩
          rcases hs with hip | hname
          · rw [hip, Bool.true_or]
          · have hmatch : matchesDomainPattern s = true :=
              matchesDomainPattern_iff.mpr (Or.inl hname)
            rw [hmatch, Bool.or_true]
    · intro s value hok c hc
      rcases (hparse _).mp hok with ⟨-, -, h⟩ | ⟨s', n, hs, haccepted, hn, h⟩
      · cases h
      · cases h
        rcases hserverOk hs hn haccepted with hip | hname
        · refine not_breaksConfig_of_isIpAddress hip ?_ c hc
          rw [← hs]
          exact fun hscope => hgood ⟨⟨n, hn⟩, Or.inr hscope⟩
        · exact not_breaksConfig_of_inDomainClass (hname.inClass c hc)

/-- Two fields of a request. -/
def stunRequest (server port : Json) : PyDict :=
  [(py "h264StunServer", server), (py "h264StunPort", port)]

/-- An address with the name of an interface. -/
theorem stun_address_iff_link_local :
    KeepsStunGrammar (fun _ => none) (.str (py "fe80::1%eth0")) (.int 3478)
      (parseH264StunAddress (fun _ => none) isIpAddress
        (.ok (.dict (stunRequest (.str (py "fe80::1%eth0")) (.int 3478))))) := by
  refine (stun_address_iff rfl rfl).mpr ?_
  rintro ⟨-, ⟨name, hname, heq⟩ | ⟨addr, scope, heq, -, c, hc, hbreaks⟩⟩
  · have hlast := congrArg List.getLast? (Json.str.inj heq)
    rw [List.getLast?_concat] at hlast
    exact absurd hlast (by decide)
  · have hmem : c ∈ py "fe80::1%eth0" := by
      rw [Json.str.inj heq]
      simp [hc]
    have hnone : ∀ c ∈ py "fe80::1%eth0", ¬ BreaksConfig c := by decide
    exact hnone c hmem hbreaks

/-- **A quote comes through in a scope id**, and a newline after a name. -/
theorem quote_accepted :
    (∃ s, parseH264StunAddress (fun _ => none) isIpAddress
          (.ok (.dict (stunRequest (.str (py "fe80::1%\"")) (.int 3478))))
        = .ok (some s, some 3478) ∧ 34 ∈ s) ∧
      ¬ KeepsStunGrammar (fun _ => none) (.str (py "fe80::1%\"")) (.int 3478)
        (parseH264StunAddress (fun _ => none) isIpAddress
          (.ok (.dict (stunRequest (.str (py "fe80::1%\"")) (.int 3478))))) ∧
      ¬ KeepsStunGrammar (fun _ => none) (.str (py "example.com\n")) (.int 3478)
        (parseH264StunAddress (fun _ => none) isIpAddress
          (.ok (.dict (stunRequest (.str (py "example.com\n")) (.int 3478))))) := by
  have hquote : parseH264StunAddress (fun _ => none) isIpAddress
      (.ok (.dict (stunRequest (.str (py "fe80::1%\"")) (.int 3478))))
        = .ok (some (py "fe80::1%\""), some 3478) := by rfl
  have hnewline : parseH264StunAddress (fun _ => none) isIpAddress
      (.ok (.dict (stunRequest (.str (py "example.com\n")) (.int 3478))))
        = .ok (some (py "example.com\n"), some 3478) := by rfl
  refine ⟨⟨_, hquote, by decide⟩, fun hkeeps => ?_, fun hkeeps => ?_⟩
  · exact hkeeps.plain _ _ hquote 34 (by decide) (Or.inl rfl)
  · exact hkeeps.plain _ _ hnewline 10 (by decide) (Or.inr (Or.inr (Or.inl (by decide))))

end TinyPilotKvm
