/-
# Request bodies (`app/api.py`, `app/request_parsers`)

Four endpoints parse a body.  Those for the hostname and the Wi-Fi network answer every request
error with the status 400.  **The endpoint for the video settings catches one class of request
errors only**, so a missing field or a bad STUN address ends in the general handler, with the status
500; and the parser of a paste request may raise a `TypeError`.

All of them begin with `get_json`.  It is not in this repository, and what it raises is no request
error: a `RecursionError`, say, where the value of the body is nested too deep.

`body_handled_iff` says which bodies are handled.
-/
import TinyPilotKvm.App.Hostname
import TinyPilotKvm.App.PasteRequest
import TinyPilotKvm.App.StunAddress
import TinyPilotKvm.App.WifiSettings

namespace TinyPilotKvm

open Json PyStr

/-! ## 1. The endpoints -/

/-- An exception that leaves a parser, with whether it is a request error. -/
structure ParserException where
  isRequestError : Bool
  message : String
  code : Option ErrorCode
  /-- The response of the general handler. -/
  unhandled : Response

/-- The subclasses of `request_parsers.errors.Error`. -/
def ApiException.isRequestError : ApiException → Bool
  | .malformedRequestError _ | .missingFieldError _ | .invalidVideoSettingError _
  | .invalidVideoSettingStunAddressError _ => true
  | .http _ _ | .loadSettingsError _ | .saveSettingsError _ | .ioError _ | .other _ => false

def ApiException.asRaised (e : ApiException) : ParserException :=
  ⟨e.isRequestError, e.message, e.code, handleError e⟩

/-- A request error of a class of its own. -/
def requestError (message : String) (code : Option ErrorCode) : ParserException :=
  ⟨true, message, code, .error 500 message code⟩

def HostnameRequestError.asRaised : HostnameRequestError → ParserException
  | .body e => e.asRaised
  | .invalidHostnameError message => requestError message (some (.text "INVALID_HOSTNAME"))

def WifiRequestError.asRaised : WifiRequestError → ParserException
  | .body e => e.asRaised
  | .invalidWifiSettings message => requestError message (some (.text "INVALID_WIFI_SETTINGS"))

/-- `message` is `str`, of an exception of Python. -/
def PasteRequestError.asRaised (message : PyRaise → String) : PasteRequestError → ParserException
  | .body e => e.asRaised
  | .unsupportedPastedCharacterError message => requestError message none
  | .raised e => ⟨false, message e, none, handleError (.other (message e))⟩

/-- `except request_parsers.errors.Error as e: return json_response.error(e), 400`. -/
def catchRequestErrors {ε α : Type} (asRaised : ε → ParserException) (parsed : Except ε α)
    (rest : α → Response) : Response :=
  match parsed with
  | .ok value => rest value
  | .error e =>
    let e := asRaised e
    if e.isRequestError then .error 400 e.message e.code else e.unhandled

/-- What the endpoints rest on, and what they do with what was parsed. -/
structure Backend (Value : Type) where
  isAlpha : PyStr → Bool
  upper : PyStr → PyStr
  int : PyStr → Option Int
  str : Json → String
  repr : Json → String
  eq : Json → Json → Bool
  message : PyRaise → String
  changeHostname : PyStr → Response
  enableWifi : WifiSettings → Response
  yaml : Yaml Value
  faults : Faults
  stores : VideoStores

section

variable {Value : Type} (b : Backend Value)

/-- `hostname_set`. -/
def hostnameSet (body : Except ApiException Json) : Response :=
  catchRequestErrors HostnameRequestError.asRaised (parseHostname body) b.changeHostname

/-- `network_wifi_enable`. -/
def networkWifiEnable (body : Except ApiException Json) : Response :=
  catchRequestErrors WifiRequestError.asRaised (parseWifiSettings b.isAlpha b.upper body)
    b.enableWifi

/-- `paste_post`. -/
def pastePost (body : Except ApiException Json) : Response :=
  catchRequestErrors (PasteRequestError.asRaised b.message) (parsePaste b.str b.repr b.eq body)
    fun _ => .success

/-! ## 2. What is to hold -/

inductive Endpoint
  | hostname
  | wifi
  | video
  | paste

/-- A value, or a request error that is answered with the status 400. -/
def HandlesErrors {ε α : Type} (asRaised : ε → ParserException) (parsed : Except ε α)
    (response : Response) : Prop :=
  ∀ e, parsed = .error e → (asRaised e).isRequestError = true ∧
    ∃ message code, response = .error 400 message code

/-- What `request.get_json()` does with a body. -/
inductive GetJson
  | returns (value : Json)
  /-- An exception of `werkzeug`: the body is no JSON. -/
  | http (status : Nat) (message : String)
  /-- Anything else, such as a `RecursionError`. -/
  | raises (message : String)

def GetJson.result : GetJson → Except ApiException Json
  | returns value => .ok value
  | http status message => .error (.http status message)
  | raises message => .error (.other message)

def HandlesBody (body : GetJson) : Endpoint → Prop
  | .hostname => HandlesErrors HostnameRequestError.asRaised (parseHostname body.result)
      (hostnameSet b body.result)
  | .wifi => HandlesErrors WifiRequestError.asRaised
      (parseWifiSettings b.isAlpha b.upper body.result) (networkWifiEnable b body.result)
  | .video => HandlesErrors ApiException.asRaised
      (parseVideoSettings b.int isIpAddress body.result)
      (settingsVideoPut b.yaml b.int isIpAddress body.result b.faults b.stores).1
  | .paste => HandlesErrors (PasteRequestError.asRaised b.message)
      (parsePaste b.str b.repr b.eq body.result) (pastePost b body.result)

/-! ## 3. Errors that are caught -/

variable {b}

theorem handlesErrors_catch {ε α : Type} {asRaised : ε → ParserException} {parsed : Except ε α}
    {rest : α → Response} :
    HandlesErrors asRaised parsed (catchRequestErrors asRaised parsed rest) ↔
      ∀ e, parsed = .error e → (asRaised e).isRequestError = true := by
  constructor
  · intro h e he
    exact (h e he).1
  · rintro h e rfl
    refine ⟨h e rfl, (asRaised e).message, (asRaised e).code, ?_⟩
    unfold catchRequestErrors
    exact if_pos (h e rfl)

theorem requiredField_error {body : Json} {field : String} {e : ApiException}
    (h : requiredField (.ok body) field = .error e) :
    (∃ message, e = .malformedRequestError message) ∨
      ∃ message, e = .missingFieldError message := by
  unfold requiredField at h
  split at h
  · rename_i heq
    cases heq
  · split at h
    · cases h
    · cases h
      exact Or.inr ⟨_, rfl⟩
  · cases h
    exact Or.inl ⟨_, rfl⟩

theorem isRequestError_requiredField {body : Json} {field : String} {e : ApiException}
    (h : requiredField (.ok body) field = .error e) : e.isRequestError = true := by
  rcases requiredField_error h with ⟨message, rfl⟩ | ⟨message, rfl⟩ <;> rfl

theorem isRequestError_parseHostname {body : Json} {e : HostnameRequestError}
    (h : parseHostname (.ok body) = .error e) : e.asRaised.isRequestError = true := by
  rcases bind_eq_error h with h | ⟨value, -, h⟩
  · obtain ⟨e', he, rfl⟩ := mapError_eq_error h
    exact isRequestError_requiredField he
  · obtain ⟨message, rfl⟩ := parseHostnameField_error h
    rfl

theorem parseCountryCode_error {isAlpha : PyStr → Bool} {value : Json} {e : WifiRequestError}
    (h : parseCountryCode isAlpha value = .error e) :
    ∃ message, e = .invalidWifiSettings message := by
  unfold parseCountryCode at h
  split at h
  · split at h
    · cases h
      exact ⟨_, rfl⟩
    · split at h
      · cases h
        exact ⟨_, rfl⟩
      · cases h
  · cases h
    exact ⟨_, rfl⟩

theorem parseSsid_error {value : Json} {e : WifiRequestError} (h : parseSsid value = .error e) :
    ∃ message, e = .invalidWifiSettings message := by
  unfold parseSsid at h
  split at h
  · split at h
    · cases h
      exact ⟨_, rfl⟩
    · cases h
  · cases h
    exact ⟨_, rfl⟩

theorem parsePsk_error {value : Json} {e : WifiRequestError} (h : parsePsk value = .error e) :
    ∃ message, e = .invalidWifiSettings message := by
  unfold parsePsk at h
  split at h
  · cases h
  · split at h
    · cases h
      exact ⟨_, rfl⟩
    · cases h
  · cases h
    exact ⟨_, rfl⟩

theorem isRequestError_parseWifiSettings {isAlpha : PyStr → Bool} {upper : PyStr → PyStr}
    {body : Json} {e : WifiRequestError}
    (h : parseWifiSettings isAlpha upper (.ok body) = .error e) :
    e.asRaised.isRequestError = true := by
  have hfield : ∀ field, (requiredField (.ok body) field).mapError .body = .error e →
      e.asRaised.isRequestError = true := by
    intro field hfield
    obtain ⟨e', h', rfl⟩ := mapError_eq_error hfield
    exact isRequestError_requiredField h'
  have hinvalid : (∃ message, e = .invalidWifiSettings message) →
      e.asRaised.isRequestError = true := by
    rintro ⟨message, rfl⟩
    rfl
  rcases bind_eq_error h with h | ⟨_, -, h⟩
  · exact hfield _ h
  rcases bind_eq_error h with h | ⟨_, -, h⟩
  · exact hfield _ h
  rcases bind_eq_error h with h | ⟨_, -, h⟩
  · exact hfield _ h
  rcases bind_eq_error h with h | ⟨_, -, h⟩
  · exact hinvalid (parseCountryCode_error h)
  rcases bind_eq_error h with h | ⟨_, -, h⟩
  · exact hinvalid (parseSsid_error h)
  rcases bind_eq_error h with h | ⟨_, -, h⟩
  · exact hinvalid (parsePsk_error h)
  · cases h

/-! ## 4. The video settings -/

def IsMode (value : Json) : Prop := value = .str (py "MJPEG") ∨ value = .str (py "H264")

/-- A number in a range. -/
def IsNumber (int : PyStr → Option Int) (lo hi : Int) (value : Json) : Prop :=
  ∃ n, asInt int value = some n ∧ lo ≤ n ∧ n ≤ hi

/-- A server and a port that are accepted. -/
def IsStunAddress (int : PyStr → Option Int) (server port : Json) : Prop :=
  (server = .null ∧ port = .null) ∨ ∃ s n, server = .str s ∧
    (isIpAddress s || matchesDomainPattern s) = true ∧ IsPort int port n

/-- The fields are checked in turn: each one is there, and those after it count if it is valid. -/
def CheckedInTurn (fields : PyDict) (last : Prop) : List (String × (Json → Prop)) → Prop
  | [] => last
  | (name, valid) :: rest => ∃ value, PyDict.get? fields name = some value ∧
      (valid value → CheckedInTurn fields last rest)

/-- A dictionary in which the first field that is missing or wrong, if any, is there and is none of
those of the STUN address. -/
def HandledVideo (int : PyStr → Option Int) (body : Json) : Prop :=
  ∃ fields, body = .dict fields ∧
    CheckedInTurn fields
      (∃ server port, PyDict.get? fields "h264StunServer" = some server ∧
        PyDict.get? fields "h264StunPort" = some port ∧ IsStunAddress int server port)
      [("streamingMode", IsMode), ("frameRate", IsNumber int 1 30),
        ("mjpegQuality", IsNumber int 1 100), ("h264Bitrate", IsNumber int 25 20000)]

/-- No exception but the one that the endpoint catches. -/
def Caught {α : Type} (r : Except ApiException α) : Prop :=
  ∀ e, r = .error e → ∃ message, e = .invalidVideoSettingError message

theorem requiredField_of_some {fields : PyDict} {name : String} {value : Json}
    (h : PyDict.get? fields name = some value) :
    requiredField (.ok (.dict fields)) name = .ok value := by
  unfold requiredField
  dsimp only
  rw [h]

theorem requiredField_of_none {fields : PyDict} {name : String}
    (h : PyDict.get? fields name = none) :
    requiredField (.ok (.dict fields)) name
      = .error (.missingFieldError ("Missing required field: " ++ name)) := by
  unfold requiredField
  dsimp only
  rw [h]

theorem not_caught_missing {α : Type} (message : String) :
    ¬ Caught (.error (.missingFieldError message) : Except ApiException α) := by
  intro h
  obtain ⟨_, h⟩ := h _ rfl
  cases h

/-- **One field**, of those whose errors are caught. -/
theorem caught_field_iff {α β : Type} {fields : PyDict} {name : String}
    {check : Json → Except ApiException α} {next : α → Except ApiException β}
    {valid : Json → Prop} {rest : Prop}
    (hvalid : ∀ value, (∃ a, check value = .ok a) ↔ valid value)
    (hcaught : ∀ value, Caught (check value)) (hrest : ∀ a, Caught (next a) ↔ rest) :
    Caught ((requiredField (.ok (.dict fields)) name >>= check) >>= next) ↔
      ∃ value, PyDict.get? fields name = some value ∧ (valid value → rest) := by
  cases hget : PyDict.get? fields name with
  | none =>
    rw [requiredField_of_none hget]
    refine iff_of_false (not_caught_missing _) ?_
    rintro ⟨value, h, -⟩
    cases h
  | some value =>
    rw [requiredField_of_some hget]
    change Caught (check value >>= next) ↔ _
    have hiff : (∃ v, some value = some v ∧ (valid v → rest)) ↔ (valid value → rest) := by
      constructor
      · rintro ⟨v, hv, h⟩
        cases hv
        exact h
      · intro h
        exact ⟨value, rfl, h⟩
    rw [hiff, ← hvalid value]
    cases hcheck : check value with
    | error e =>
      refine iff_of_true ?_ ?_
      · intro e' h
        cases h
        exact hcaught value e hcheck
      · rintro ⟨a, h⟩
        cases h
    | ok a =>
      change Caught (next a) ↔ _
      rw [hrest a]
      exact ⟨fun h _ => h, fun h => h ⟨a, rfl⟩⟩

/-- The streaming mode of a value. -/
def modeOf : Json → Except ApiException StreamingMode
  | .str s =>
    if s = py "MJPEG" then .ok .mjpeg
    else if s = py "H264" then .ok .h264
    else .error (.invalidVideoSettingError "The video streaming mode must be `MJPEG` or `H264`.")
  | _ => .error (.invalidVideoSettingError "The video streaming mode must be `MJPEG` or `H264`.")

theorem parseStreamingMode_eq (body : Except ApiException Json) :
    parseStreamingMode body = requiredField body "streamingMode" >>= modeOf := rfl

theorem modeOf_cases (value : Json) : (IsMode value ∧ ∃ mode, modeOf value = .ok mode) ∨
    ¬ IsMode value ∧ ∃ message, modeOf value = .error (.invalidVideoSettingError message) := by
  cases value with
  | str s =>
    unfold modeOf IsMode
    dsimp only
    by_cases hmjpeg : s = py "MJPEG"
    · rw [if_pos hmjpeg]
      exact Or.inl ⟨Or.inl (by rw [hmjpeg]), _, rfl⟩
    · rw [if_neg hmjpeg]
      by_cases hh264 : s = py "H264"
      · rw [if_pos hh264]
        exact Or.inl ⟨Or.inr (by rw [hh264]), _, rfl⟩
      · rw [if_neg hh264]
        refine Or.inr ⟨?_, _, rfl⟩
        rintro (h | h)
        · exact hmjpeg (Json.str.inj h)
        · exact hh264 (Json.str.inj h)
  | null | bool | int | float | list | dict =>
    refine Or.inr ⟨?_, _, rfl⟩
    rintro (h | h) <;> cases h

theorem modeOf_ok_iff (value : Json) : (∃ mode, modeOf value = .ok mode) ↔ IsMode value := by
  rcases modeOf_cases value with ⟨hmode, hok⟩ | ⟨hmode, message, hinvalid⟩
  · exact iff_of_true hok hmode
  · refine iff_of_false ?_ hmode
    rintro ⟨mode, h⟩
    rw [hinvalid] at h
    cases h

theorem caught_modeOf (value : Json) : Caught (modeOf value) := by
  intro e h
  rcases modeOf_cases value with ⟨-, mode, hok⟩ | ⟨-, message, hinvalid⟩
  · rw [hok] at h
    cases h
  · rw [hinvalid] at h
    cases h
    exact ⟨message, rfl⟩

theorem intInRange_ok_iff {int : PyStr → Option Int} {lo hi : Int} {error : ApiException}
    (value : Json) : (∃ n, intInRange int lo hi error value = .ok n) ↔ IsNumber int lo hi value :=
  exists_congr fun _ => intInRange_eq_ok

theorem intInRange_error {int : PyStr → Option Int} {lo hi : Int} {error e : ApiException}
    {value : Json} (h : intInRange int lo hi error value = .error e) : e = error := by
  unfold intInRange at h
  split at h
  · split at h
    · cases h
    · cases h
      rfl
  · cases h
    rfl

theorem caught_intInRange {int : PyStr → Option Int} {lo hi : Int} {message : String}
    (value : Json) :
    Caught (intInRange int lo hi (.invalidVideoSettingError message) value) :=
  fun _ h => ⟨message, intInRange_error h⟩

theorem parseH264StunServer_error {server : Json} {e : ApiException}
    (h : parseH264StunServer isIpAddress server = .error e) :
    ∃ message, e = .invalidVideoSettingStunAddressError message := by
  unfold parseH264StunServer at h
  split at h
  · cases h
  · split at h
    · cases h
    · cases h
      exact ⟨_, rfl⟩
  · cases h
    exact ⟨_, rfl⟩

theorem parseH264StunPort_error {int : PyStr → Option Int} {port : Json} {e : ApiException}
    (h : parseH264StunPort int port = .error e) :
    ∃ message, e = .invalidVideoSettingStunAddressError message := by
  unfold parseH264StunPort at h
  split at h
  · cases h
  · cases hrange : intInRange int 1 65535 (.invalidVideoSettingStunAddressError
        "The port must be a positive integer, not greater than 65535.") port with
    | error e' =>
      rw [hrange] at h
      cases h
      exact ⟨_, intInRange_error hrange⟩
    | ok n =>
      rw [hrange] at h
      cases h

/-- None of the errors of the last parser is caught. -/
theorem parseH264StunAddress_error {int : PyStr → Option Int} {body : Json} {e : ApiException}
    (h : parseH264StunAddress int isIpAddress (.ok body) = .error e) :
    ∀ message, e ≠ .invalidVideoSettingError message := by
  have hfield : ∀ field, requiredField (.ok body) field = .error e →
      ∀ message, e ≠ .invalidVideoSettingError message := by
    intro field hfield message he
    rcases requiredField_error hfield with ⟨_, rfl⟩ | ⟨_, rfl⟩ <;> cases he
  have hstun : (∃ message, e = .invalidVideoSettingStunAddressError message) →
      ∀ message, e ≠ .invalidVideoSettingError message := by
    rintro ⟨_, rfl⟩ message he
    cases he
  rcases bind_eq_error h with h | ⟨_, -, h⟩
  · exact hfield _ h
  rcases bind_eq_error h with h | ⟨_, -, h⟩
  · exact hfield _ h
  rcases bind_eq_error h with h | ⟨_, -, h⟩
  · exact hstun (parseH264StunServer_error h)
  rcases bind_eq_error h with h | ⟨_, -, h⟩
  · exact hstun (parseH264StunPort_error h)
  split at h
  · cases h
    exact hstun ⟨_, rfl⟩
  · cases h

theorem parseH264StunAddress_ok_iff {int : PyStr → Option Int} {fields : PyDict} :
    (∃ value, parseH264StunAddress int isIpAddress (.ok (.dict fields)) = .ok value) ↔
      ∃ server port, PyDict.get? fields "h264StunServer" = some server ∧
        PyDict.get? fields "h264StunPort" = some port ∧ IsStunAddress int server port := by
  constructor
  · rintro ⟨value, h⟩
    have hpresent : ∀ name value, requiredField (.ok (.dict fields)) name = .ok value →
        PyDict.get? fields name = some value := by
      intro name value h
      cases hget : PyDict.get? fields name with
      | none =>
        rw [requiredField_of_none hget] at h
        cases h
      | some found =>
        rw [requiredField_of_some hget] at h
        rw [Except.ok.inj h]
    obtain ⟨server, hserver, hrest⟩ := bind_eq_ok h
    obtain ⟨port, hport, -⟩ := bind_eq_ok hrest
    have hserver := hpresent _ _ hserver
    have hport := hpresent _ _ hport
    refine ⟨server, port, hserver, hport, ?_⟩
    rcases (parseH264StunAddress_eq_ok hserver hport).mp h with
      ⟨hnull, hnull', -⟩ | ⟨s, n, hs, haccepted, hn, -⟩
    · exact Or.inl ⟨hnull, hnull'⟩
    · exact Or.inr ⟨s, n, hs, haccepted, hn⟩
  · rintro ⟨server, port, hserver, hport, ⟨hnull, hnull'⟩ | ⟨s, n, hs, haccepted, hn⟩⟩
    · exact ⟨_, (parseH264StunAddress_eq_ok hserver hport).mpr (Or.inl ⟨hnull, hnull', rfl⟩)⟩
    · exact ⟨_, (parseH264StunAddress_eq_ok hserver hport).mpr
        (Or.inr ⟨s, n, hs, haccepted, hn, rfl⟩)⟩

theorem caught_stunAddress_iff {α : Type} {int : PyStr → Option Int} {fields : PyDict}
    {next : Option PyStr × Option Int → α} :
    Caught (do return next (← parseH264StunAddress int isIpAddress (.ok (.dict fields)))) ↔
      ∃ server port, PyDict.get? fields "h264StunServer" = some server ∧
        PyDict.get? fields "h264StunPort" = some port ∧ IsStunAddress int server port := by
  rw [← parseH264StunAddress_ok_iff]
  cases hparse : parseH264StunAddress int isIpAddress (.ok (.dict fields)) with
  | error e =>
    refine iff_of_false ?_ ?_
    · intro h
      obtain ⟨message, he⟩ := h e rfl
      exact parseH264StunAddress_error hparse message he
    · rintro ⟨value, h⟩
      cases h
  | ok value =>
    refine iff_of_true ?_ ⟨value, rfl⟩
    intro e h
    cases h

/-- **The bodies whose errors are caught.** -/
theorem caught_parseVideoSettings_iff {int : PyStr → Option Int} {body : Json} :
    Caught (parseVideoSettings int isIpAddress (.ok body)) ↔ HandledVideo int body := by
  by_cases hdict : ∃ fields, body = .dict fields
  · obtain ⟨fields, rfl⟩ := hdict
    have hiff : Caught (parseVideoSettings int isIpAddress (.ok (.dict fields))) ↔
        CheckedInTurn fields
          (∃ server port, PyDict.get? fields "h264StunServer" = some server ∧
            PyDict.get? fields "h264StunPort" = some port ∧ IsStunAddress int server port)
          [("streamingMode", IsMode), ("frameRate", IsNumber int 1 30),
            ("mjpegQuality", IsNumber int 1 100), ("h264Bitrate", IsNumber int 25 20000)] := by
      unfold parseVideoSettings
      rw [parseStreamingMode_eq]
      refine caught_field_iff modeOf_ok_iff caught_modeOf fun mode => ?_
      refine caught_field_iff intInRange_ok_iff caught_intInRange fun frameRate => ?_
      refine caught_field_iff intInRange_ok_iff caught_intInRange fun mjpegQuality => ?_
      refine caught_field_iff intInRange_ok_iff caught_intInRange fun h264Bitrate => ?_
      exact caught_stunAddress_iff
    rw [hiff]
    constructor
    · intro h
      exact ⟨fields, rfl, h⟩
    · rintro ⟨fields', h, hchecked⟩
      cases h
      exact hchecked
  · refine iff_of_false ?_ fun ⟨fields, h, _⟩ => hdict ⟨fields, h⟩
    -- the first parser refuses the body, with an error of another class
    have hmalformed : ∃ message, parseVideoSettings int isIpAddress (.ok body)
        = .error (.malformedRequestError message) := by
      cases body with
      | dict fields => exact absurd ⟨fields, rfl⟩ hdict
      | null | bool | int | float | str | list => exact ⟨_, rfl⟩
    obtain ⟨message, hmalformed⟩ := hmalformed
    rw [hmalformed]
    intro h
    obtain ⟨_, he⟩ := h _ rfl
    cases he

/-! ## 5. All endpoints -/

/-- The endpoint for the video settings. -/
theorem handlesErrors_video_iff {body : Json} :
    HandlesErrors ApiException.asRaised (parseVideoSettings b.int isIpAddress (.ok body))
        (settingsVideoPut b.yaml b.int isIpAddress (.ok body) b.faults b.stores).1 ↔
      Caught (parseVideoSettings b.int isIpAddress (.ok body)) := by
  unfold settingsVideoPut
  cases hparse : parseVideoSettings b.int isIpAddress (.ok body) with
  | ok request =>
    refine iff_of_true ?_ ?_
    · intro e h
      cases h
    · intro e h
      cases h
  | error e =>
    constructor
    · intro h e' he'
      cases he'
      obtain ⟨hrequest, message, code, hresponse⟩ := h e rfl
      cases e with
      | invalidVideoSettingError message => exact ⟨message, rfl⟩
      | malformedRequestError | missingFieldError | invalidVideoSettingStunAddressError =>
        -- the general handler answers with the status 500
        cases hresponse
      | http | loadSettingsError | saveSettingsError | ioError | other => cases hrequest
    · intro h e' he'
      cases he'
      obtain ⟨message, rfl⟩ := h e rfl
      exact ⟨rfl, _, _, rfl⟩

theorem isRequestError_parsePaste {str repr : Json → String} {eq : Json → Json → Bool} {body : Json}
    {e : ApiException} (h : parsePaste str repr eq (.ok body) = .error (.body e)) :
    e.isRequestError = true := by
  have hfield : ∀ field, (requiredField (.ok body) field).mapError PasteRequestError.body
      = .error (.body e) → e.isRequestError = true := by
    intro field hfield
    obtain ⟨e', he', heq⟩ := mapError_eq_error hfield
    cases heq
    exact isRequestError_requiredField he'
  rcases bind_eq_error h with h | ⟨text, -, h⟩
  · exact hfield _ h
  rcases bind_eq_error h with h | ⟨language, -, h⟩
  · exact hfield _ h
  exact absurd h (parsePasteFields_ne_body e)

/-- The endpoint for a paste. -/
theorem handlesErrors_paste_iff {body : Json} :
    HandlesErrors (PasteRequestError.asRaised b.message) (parsePaste b.str b.repr b.eq (.ok body))
        (pastePost b (.ok body)) ↔ HandledPaste body := by
  unfold pastePost
  rw [handlesErrors_catch, ← not_iff_not, ← @parsePaste_raised_iff b.str b.repr b.eq body]
  constructor
  · intro h
    push Not at h
    obtain ⟨e, he, hnot⟩ := h
    cases e with
    | body e => exact absurd (isRequestError_parsePaste he) hnot
    | unsupportedPastedCharacterError message => exact absurd rfl hnot
    | raised e => exact ⟨e, he⟩
  · rintro ⟨e, he⟩ h
    exact absurd (h _ he) Bool.false_ne_true

/-- The values that an endpoint handles. -/
def ValueIsHandled (int : PyStr → Option Int) (value : Json) : Endpoint → Prop
  | .hostname | .wifi => True
  | .video => HandledVideo int value
  | .paste => HandledPaste value

/-- The bodies that an endpoint handles. -/
def BodyIsHandled (int : PyStr → Option Int) (body : GetJson) (endpoint : Endpoint) : Prop :=
  ∃ value, body = .returns value ∧ ValueIsHandled int value endpoint

theorem handlesBody_returns_iff {value : Json} (endpoint : Endpoint) :
    HandlesBody b (.returns value) endpoint ↔ ValueIsHandled b.int value endpoint := by
  cases endpoint with
  | hostname =>
    refine iff_of_true (handlesErrors_catch.mpr ?_) trivial
    intro e h
    exact isRequestError_parseHostname h
  | wifi =>
    refine iff_of_true (handlesErrors_catch.mpr ?_) trivial
    intro e h
    exact isRequestError_parseWifiSettings h
  | video => exact handlesErrors_video_iff.trans caught_parseVideoSettings_iff
  | paste => exact handlesErrors_paste_iff

theorem not_handlesErrors {ε α : Type} {asRaised : ε → ParserException} {parsed : Except ε α}
    {response : Response} {e : ε} (hparsed : parsed = .error e)
    (he : (asRaised e).isRequestError = false) : ¬ HandlesErrors asRaised parsed response := by
  intro h
  rw [(h e hparsed).1] at he
  cases he

/-- No endpoint handles what `get_json` raises. -/
theorem not_handlesBody {body : GetJson} {e : ApiException} (hbody : body.result = .error e)
    (he : e.isRequestError = false) (endpoint : Endpoint) : ¬ HandlesBody b body endpoint := by
  cases endpoint with
  | hostname | wifi | paste =>
    unfold HandlesBody
    rw [hbody]
    exact not_handlesErrors (e := .body e) rfl he
  | video =>
    unfold HandlesBody
    rw [hbody]
    exact not_handlesErrors rfl he

/-- **A body is handled** if `get_json` returns a value and the endpoint handles that: those for the
hostname and for Wi-Fi, whatever it is; the one for the video settings if its first wrong field is
there and is none of the STUN address; and the one for a paste unless what stands for the text is
not made of keys. -/
theorem body_handled_iff (b : Backend Value) (body : GetJson) (endpoint : Endpoint) :
    HandlesBody b body endpoint ↔ BodyIsHandled b.int body endpoint := by
  cases body with
  | returns value =>
    rw [handlesBody_returns_iff]
    constructor
    · exact fun h => ⟨value, rfl, h⟩
    · rintro ⟨value', hvalue, h⟩
      obtain rfl := GetJson.returns.inj hvalue
      exact h
  | http status message =>
    refine iff_of_false (not_handlesBody rfl rfl endpoint) ?_
    rintro ⟨value, hvalue, -⟩
    cases hvalue
  | raises message =>
    refine iff_of_false (not_handlesBody rfl rfl endpoint) ?_
    rintro ⟨value, hvalue, -⟩
    cases hvalue

end

/-! ## 6. Bodies that are not handled -/

/-- Enough of Python for these bodies, and a server on which all else succeeds. -/
def plainBackend : Backend (Option (PyStr ⊕ Int)) where
  isAlpha _ := true
  upper s := s
  int _ := none
  str _ := ""
  repr _ := ""
  eq _ _ := false
  message _ := "'NoneType' object is not iterable"
  changeHostname _ := .success
  enableWifi _ := .success
  yaml := scalarYaml
  faults := {}
  stores := ⟨none, none⟩

/-- Video settings without a streaming mode, and a paste of `null`. -/
theorem missing_mode_and_null_text :
    let paste : Json := .dict [(py "text", .null), (py "language", .str (py "en-US"))]
    (settingsVideoPut plainBackend.yaml plainBackend.int isIpAddress (.ok (.dict []))
        plainBackend.faults plainBackend.stores).1
        = .error 500 "Missing required field: streamingMode" none ∧
      pastePost plainBackend (.ok paste)
        = .error 500 "'NoneType' object is not iterable" none ∧
      ¬ HandlesBody plainBackend (.returns (.dict [])) .video ∧
      ¬ HandlesBody plainBackend (.returns paste) .paste := by
  intro paste
  have hvideo : (settingsVideoPut plainBackend.yaml plainBackend.int isIpAddress (.ok (.dict []))
      plainBackend.faults plainBackend.stores).1
        = .error 500 "Missing required field: streamingMode" none := by rfl
  have hpaste : pastePost plainBackend (.ok paste)
      = .error 500 "'NoneType' object is not iterable" none := by rfl
  refine ⟨hvideo, hpaste, ?_, ?_⟩
  · intro h
    obtain ⟨-, message, code, hresponse⟩ := h (.missingFieldError
      "Missing required field: streamingMode") rfl
    cases hvideo.symm.trans hresponse
  · intro h
    obtain ⟨hrequest, -⟩ := h (.raised .typeError) rfl
    cases hrequest

end TinyPilotKvm
