/-
# Saving the video settings (`settings_video_put` in `app/api.py`,
`app/request_parsers/video_settings.py`, `app/update/settings.py`, `app/db/settings.py`)

The endpoint keeps the streaming mode in the database and the other parameters in a YAML file.  It
checks all values first, then reads the file, then **stores the mode, and then writes the file**,
which is truncated when it is opened.  So when the write fails, the mode has changed already, and
what is left of the file is what was written by then.

`update_atomic_iff` says for which requests and which failures an error leaves both as they were.
-/
import TinyPilotKvm.Python.Values

namespace TinyPilotKvm

/-! ## 1. Errors -/

/-- The exceptions of a request, with their messages. -/
inductive ApiException
  /-- A `werkzeug` exception with its status code. -/
  | http (status : Nat) (message : String)
  | malformedRequestError (message : String)
  | missingFieldError (message : String)
  | invalidVideoSettingError (message : String)
  | invalidVideoSettingStunAddressError (message : String)
  | loadSettingsError (message : String)
  | saveSettingsError (message : String)
  | ioError (message : String)
  /-- Anything else: an error of SQLite or of PyYAML, a `UnicodeDecodeError`, a `TypeError`. -/
  | other (message : String)

/-- The code of an error: that of its class, or the status of a `werkzeug` exception. -/
inductive ErrorCode
  | text (code : String)
  | status (code : Nat)

/-- A response; that of an error has a message and a code. -/
inductive Response
  | success
  | error (status : Nat) (message : String) (code : Option ErrorCode)

def Response.IsError : Response → Prop
  | success => False
  | error _ _ _ => True

def ApiException.message : ApiException → String
  | http _ message | malformedRequestError message | missingFieldError message
  | invalidVideoSettingError message | invalidVideoSettingStunAddressError message
  | loadSettingsError message | saveSettingsError message | ioError message
  | other message => message

/-- `code` of an error class, which most of them do not have. -/
def ApiException.code : ApiException → Option ErrorCode
  | invalidVideoSettingStunAddressError _ => some (.text "INVALID_STUN_ADDRESS")
  | http status _ => some (.status status)
  | _ => none

/-- `json_response.error`, with a status. -/
def jsonError (e : ApiException) (status : Nat) : Response := .error status e.message e.code

/-- `handle_error`, for what a handler does not catch. -/
def handleError (e : ApiException) : Response :=
  match e with
  | .http status _ => jsonError e status
  | _ => jsonError e 500

/-! ## 2. The request -/

/-- `parse_json_body`, for one required field; `body` is what `get_json` returns or raises. -/
def requiredField (body : Except ApiException Json) (field : String) :
    Except ApiException Json :=
  match body with
  | .error e => .error e
  | .ok (.dict json) =>
    match PyDict.get? json field with
    | some value => .ok value
    | none => .error (.missingFieldError ("Missing required field: " ++ field))
  | .ok _ => .error (.malformedRequestError "Request is invalid, expecting a JSON dictionary")

/-- `StreamingMode`. -/
inductive StreamingMode
  | mjpeg
  | h264
  deriving DecidableEq

def StreamingMode.value : StreamingMode → PyStr
  | mjpeg => py "MJPEG"
  | h264 => py "H264"

/-- `parse_streaming_mode`. -/
def parseStreamingMode (body : Except ApiException Json) : Except ApiException StreamingMode := do
  match ← requiredField body "streamingMode" with
  | .str s =>
    if s = py "MJPEG" then return .mjpeg
    else if s = py "H264" then return .h264
    else throw (.invalidVideoSettingError "The video streaming mode must be `MJPEG` or `H264`.")
  | _ => throw (.invalidVideoSettingError "The video streaming mode must be `MJPEG` or `H264`.")

section

-- `int` and `ipaddress.ip_address` of a text: the number, and whether it is an address
variable (int : PyStr → Option Int) (ipAddress : PyStr → Bool)

/-- `_as_int`.  The text of a float, a boolean, a list or a dictionary is no number. -/
def asInt : Json → Option Int
  | .int n => some n
  | .str s => int s
  | _ => none

/-- `lo <= _as_int(value) <= hi`. -/
def intInRange (lo hi : Int) (error : ApiException) (value : Json) : Except ApiException Int :=
  match asInt int value with
  | some n => if lo ≤ n ∧ n ≤ hi then .ok n else .error error
  | none => .error error

/-- `parse_frame_rate`. -/
def parseFrameRate (body : Except ApiException Json) : Except ApiException Int := do
  intInRange int 1 30
    (.invalidVideoSettingError "The frame rate must be a whole number between 1 and 30.")
    (← requiredField body "frameRate")

/-- `parse_mjpeg_quality`. -/
def parseMjpegQuality (body : Except ApiException Json) : Except ApiException Int := do
  intInRange int 1 100
    (.invalidVideoSettingError "The MJPEG quality must be a whole number between 1 and 100.")
    (← requiredField body "mjpegQuality")

/-- `parse_h264_bitrate`. -/
def parseH264Bitrate (body : Except ApiException Json) : Except ApiException Int := do
  intInRange int 25 20000
    (.invalidVideoSettingError "The H264 bitrate must be a whole number between 25 and 20000.")
    (← requiredField body "h264Bitrate")

/-- A match of `^[0-9a-z-.]{1,255}$`: a newline may stand at the end. -/
def matchesDomainPattern (server : PyStr) : Bool :=
  let inClass (c : Nat) : Bool := (48 ≤ c && c ≤ 57) || (97 ≤ c && c ≤ 122) || c == 45 || c == 46
  let name := if server.getLast? = some 10 then server.dropLast else server
  name.all inClass && 1 ≤ name.length && name.length ≤ 255

/-- `_parse_h264_stun_server`. -/
def parseH264StunServer : Json → Except ApiException (Option PyStr)
  | .null => .ok none
  | .str server =>
    if ipAddress server || matchesDomainPattern server then .ok (some server)
    else .error (.invalidVideoSettingStunAddressError
      "The server must be a valid domain name or IP address (IPv4/IPv6).")
  | _ => .error (.invalidVideoSettingStunAddressError "The server value must be of type string.")

/-- `_parse_h264_stun_port`. -/
def parseH264StunPort : Json → Except ApiException (Option Int)
  | .null => .ok none
  | port => some <$> intInRange int 1 65535
      (.invalidVideoSettingStunAddressError
        "The port must be a positive integer, not greater than 65535.") port

/-- `parse_h264_stun_address`. -/
def parseH264StunAddress (body : Except ApiException Json) :
    Except ApiException (Option PyStr × Option Int) := do
  let server ← requiredField body "h264StunServer"
  let port ← requiredField body "h264StunPort"
  let server ← parseH264StunServer ipAddress server
  let port ← parseH264StunPort int port
  if server.isNone != port.isNone then
    throw (.invalidVideoSettingStunAddressError
      "The server and port values must either both be given, or both absent.")
  return (server, port)

/-- The values of a request. -/
structure VideoSettings where
  streamingMode : StreamingMode
  frameRate : Int
  mjpegQuality : Int
  h264Bitrate : Int
  h264StunServer : Option PyStr
  h264StunPort : Option Int

/-- The parsers, in their order. -/
def parseVideoSettings (body : Except ApiException Json) : Except ApiException VideoSettings := do
  let streamingMode ← parseStreamingMode body
  let frameRate ← parseFrameRate int body
  let mjpegQuality ← parseMjpegQuality int body
  let h264Bitrate ← parseH264Bitrate int body
  let (h264StunServer, h264StunPort) ← parseH264StunAddress int ipAddress body
  return { streamingMode, frameRate, mjpegQuality, h264Bitrate, h264StunServer, h264StunPort }

end

/-! ## 3. The settings file -/

/-- What `yaml.safe_load` makes of a file. -/
inductive YamlDocument (Value : Type)
  /-- A value that counts as false, such as that of an empty file. -/
  | falsy
  | mapping (entries : List (Value × Value))
  | other

/-- PyYAML, with the Python values that it reads and writes and their equality. -/
structure Yaml (Value : Type) where
  /-- The document of a file, or the exception of reading it as UTF-8 and parsing it. -/
  safeLoad : List UInt8 → Except String (YamlDocument Value)
  safeDump : List (Value × Value) → List UInt8
  eq : Value → Value → Bool
  str : PyStr → Value
  int : Int → Value
  none : Value

section

variable {Value : Type} (yaml : Yaml Value)

/-- `d[key] = value`. -/
def assign (key value : Value) : List (Value × Value) → List (Value × Value)
  | [] => [(key, value)]
  | entry :: entries =>
    if yaml.eq entry.1 key then (entry.1, value) :: entries
    else entry :: assign key value entries

def defaultTc358743Edid : String :=
  "00ffffffffffff005262769800888888\n2d1e0103800000781aee91a3544c9926\n" ++
  "0f50547fef8081c08140810081809500\na9c081406140271f80f07138164038c0\n" ++
  "350000000000001eec2c80a070381a40\n3020350000000000001e000000fc0054\n" ++
  "696e7950696c6f740a202020000000fd\n00185a125010000a20202020202001aa\n" ++
  "02031ef14b010204131f2021223c3d3e\n2309070766030c00300080e2007f0000\n" ++
  "00000000000000000000000000000000\n00000000000000000000000000000000\n" ++
  "00000000000000000000000000000000\n00000000000000000000000000000000\n" ++
  "00000000000000000000000000000000\n0000000000000000000000000000008e"

/-- `_DEFAULTS`. -/
def defaultSettings : List (Value × Value) :=
  [(yaml.str (py "tinypilot_keyboard_interface"), yaml.str (py "/dev/hidg0")),
   (yaml.str (py "tinypilot_mouse_interface"), yaml.str (py "/dev/hidg1")),
   (yaml.str (py "tinypilot_external_port"), yaml.int 80),
   (yaml.str (py "ustreamer_desired_fps"), yaml.int 30),
   (yaml.str (py "ustreamer_edid"), yaml.str (py defaultTc358743Edid)),
   (yaml.str (py "ustreamer_quality"), yaml.int 80),
   (yaml.str (py "ustreamer_h264_bitrate"), yaml.int 5000),
   (yaml.str (py "janus_stun_server"), yaml.none), (yaml.str (py "janus_stun_port"), yaml.none)]

/-- `{**_DEFAULTS, **data}`. -/
def settingsOf (data : List (Value × Value)) : List (Value × Value) :=
  data.foldl (fun settings entry => assign yaml entry.1 entry.2 settings) (defaultSettings yaml)

/-- The assignments to the properties. -/
def withVideoSettings (request : VideoSettings) (settings : List (Value × Value)) :
    List (Value × Value) :=
  let settings := assign yaml (yaml.str (py "ustreamer_desired_fps"))
    (yaml.int request.frameRate) settings
  let settings := assign yaml (yaml.str (py "ustreamer_quality"))
    (yaml.int request.mjpegQuality) settings
  let settings := assign yaml (yaml.str (py "ustreamer_h264_bitrate"))
    (yaml.int request.h264Bitrate) settings
  let settings := assign yaml (yaml.str (py "janus_stun_server"))
    ((request.h264StunServer.map yaml.str).getD yaml.none) settings
  assign yaml (yaml.str (py "janus_stun_port"))
    ((request.h264StunPort.map yaml.int).getD yaml.none) settings

/-- What `_to_file` writes: nothing if all values are defaults. -/
def toFile (settings : List (Value × Value)) : List UInt8 :=
  let settingsWithoutDefaults := settings.filter fun entry =>
    match (defaultSettings yaml).find? fun default => yaml.eq default.1 entry.1 with
    | some default => !yaml.eq entry.2 default.2
    | Option.none => true
  if settingsWithoutDefaults.isEmpty then [] else yaml.safeDump settingsWithoutDefaults

/-! ## 4. The stores, and what can fail -/

/-- The row of the settings table, if it exists, with its column `streaming_mode`, which may be
`NULL`; and the settings file, if it exists. -/
structure VideoStores where
  row : Option (Option PyStr)
  settingsFile : Option (List UInt8)
  deriving DecidableEq

/-- The streaming mode that is stored. -/
def VideoStores.streamingMode (stores : VideoStores) : Option PyStr := stores.row.join

/-- A failure of the database: before the row is made sure to exist, or after. -/
inductive DbFault
  | connectOrInsert (message : String)
  | update (message : String)

/-- A failure of `save`: `open` fails, or writing or closing does after `written` bytes. -/
inductive SaveFault
  | opening
  | writing (written : Nat) (e : ApiException)

/-- Where a request fails, if anywhere. -/
structure Faults where
  /-- Opening or reading the file fails. -/
  load : Bool := false
  db : Option DbFault := Option.none
  save : Option SaveFault := Option.none

/-- `load`. -/
def loadSettings (faults : Faults) (stores : VideoStores) :
    Except ApiException (List (Value × Value)) :=
  match faults.load, stores.settingsFile with
  | true, _ => .error (.loadSettingsError "Failed to load settings from settings file")
  | false, Option.none => .ok (settingsOf yaml [])
  | false, some content =>
    match yaml.safeLoad content with
    | .error message => .error (.other message)
    | .ok .falsy => .ok (settingsOf yaml [])
    | .ok (.mapping entries) => .ok (settingsOf yaml entries)
    | .ok .other => .error (.other "the document is not a mapping")

/-- `Settings().set_streaming_mode`. -/
def setStreamingMode (faults : Faults) (mode : StreamingMode) (stores : VideoStores) :
    Except ApiException Unit × VideoStores :=
  match faults.db with
  | some (.connectOrInsert message) => (.error (.other message), stores)
  | some (.update message) =>
    (.error (.other message), { stores with row := stores.row <|> some Option.none })
  | Option.none => (.ok (), { stores with row := some (some mode.value) })

/-- `save`: opening the file truncates it. -/
def saveSettings (faults : Faults) (settings : List (Value × Value)) (stores : VideoStores) :
    Except ApiException Unit × VideoStores :=
  let content := toFile yaml settings
  match faults.save with
  | some .opening =>
    (.error (.saveSettingsError "Failed to save settings to settings file"), stores)
  | some (.writing written (.ioError _)) =>
    (.error (.saveSettingsError "Failed to save settings to settings file"),
      { stores with settingsFile := some (content.take written) })
  | some (.writing written e) =>
    (.error e, { stores with settingsFile := some (content.take written) })
  | Option.none => (.ok (), { stores with settingsFile := some content })

variable (int : PyStr → Option Int) (ipAddress : PyStr → Bool)

/-- `settings_video_put`. -/
def settingsVideoPut (body : Except ApiException Json) (faults : Faults) (stores : VideoStores) :
    Response × VideoStores :=
  match parseVideoSettings int ipAddress body with
  | .error (.invalidVideoSettingError message) =>
    (jsonError (.invalidVideoSettingError message) 400, stores)
  | .error e => (handleError e, stores)
  | .ok request =>
    match loadSettings yaml faults stores with
    | .error (.loadSettingsError message) => (jsonError (.loadSettingsError message) 500, stores)
    | .error e => (handleError e, stores)
    | .ok updateSettings =>
      let updateSettings := withVideoSettings yaml request updateSettings
      match setStreamingMode faults request.streamingMode stores with
      | (.error e, stores) => (handleError e, stores)
      | (.ok (), stores) =>
        match saveSettings yaml faults updateSettings stores with
        | (.error (.saveSettingsError message), stores) =>
          (jsonError (.saveSettingsError message) 500, stores)
        | (.error e, stores) => (handleError e, stores)
        | (.ok (), stores) => (.success, stores)

/-! ## 5. Atomicity -/

/-- An error leaves both stores as they were. -/
def AtomicUpdate (stores : VideoStores) (r : Response × VideoStores) : Prop :=
  r.1.IsError → r.2.streamingMode = stores.streamingMode ∧ r.2.settingsFile = stores.settingsFile

theorem atomicUpdate_of_row {stores stores' : VideoStores} {response : Response}
    (hrow : stores'.streamingMode = stores.streamingMode)
    (hfile : stores'.settingsFile = stores.settingsFile) :
    AtomicUpdate stores (response, stores') :=
  fun _ => ⟨hrow, hfile⟩

/-- A failure of the database changes nothing. -/
theorem setStreamingMode_error {faults : Faults} {mode : StreamingMode}
    {stores stores' : VideoStores} {e : ApiException}
    (h : setStreamingMode faults mode stores = (.error e, stores')) :
    faults.db ≠ Option.none ∧ stores'.streamingMode = stores.streamingMode ∧
      stores'.settingsFile = stores.settingsFile := by
  unfold setStreamingMode at h
  rcases hdb : faults.db with _ | fault
  · rw [hdb] at h
    cases h
  · rw [hdb] at h
    cases fault with
    | connectOrInsert message =>
      cases h
      exact ⟨by simp, rfl, rfl⟩
    | update message =>
      cases h
      refine ⟨by simp, ?_, rfl⟩
      cases hrow : stores.row <;> simp [VideoStores.streamingMode, hrow]

theorem setStreamingMode_ok {faults : Faults} {mode : StreamingMode}
    {stores stores' : VideoStores} (h : setStreamingMode faults mode stores = (.ok (), stores')) :
    faults.db = Option.none ∧ stores' = { stores with row := some (some mode.value) } := by
  unfold setStreamingMode at h
  rcases hdb : faults.db with _ | fault
  · rw [hdb] at h
    cases h
    exact ⟨rfl, rfl⟩
  · rw [hdb] at h
    cases fault <;> cases h

/-- What is left of the file when `save` fails. -/
def SaveFault.leaves (content : List UInt8) (file : Option (List UInt8)) :
    SaveFault → Option (List UInt8)
  | opening => file
  | writing written _ => some (content.take written)

theorem saveSettings_error {faults : Faults} {settings : List (Value × Value)}
    {stores stores' : VideoStores} {e : ApiException}
    (h : saveSettings yaml faults settings stores = (.error e, stores')) :
    ∃ fault, faults.save = some fault ∧
      stores' = { stores with
        settingsFile := fault.leaves (toFile yaml settings) stores.settingsFile } := by
  unfold saveSettings at h
  rcases hsave : faults.save with _ | fault
  · rw [hsave] at h
    cases h
  · rw [hsave] at h
    refine ⟨fault, rfl, ?_⟩
    cases fault with
    | opening =>
      cases h
      rfl
    | writing written e' => cases e' <;> cases h <;> rfl

theorem saveSettings_of_fault {faults : Faults} {fault : SaveFault}
    (hsave : faults.save = some fault) (settings : List (Value × Value)) (stores : VideoStores) :
    ∃ e stores', saveSettings yaml faults settings stores = (.error e, stores') := by
  unfold saveSettings
  rw [hsave]
  cases fault with
  | opening => exact ⟨_, _, rfl⟩
  | writing written e => cases e <;> exact ⟨_, _, rfl⟩

/-- If `save` is reached and fails, the mode was stored already, and what is left of the file is
what was in it. -/
def SaveFaultHarmless (body : Except ApiException Json) (faults : Faults)
    (stores : VideoStores) : Prop :=
  ∀ request settings fault, parseVideoSettings int ipAddress body = .ok request →
    loadSettings yaml faults stores = .ok settings → faults.db = Option.none →
    faults.save = some fault →
      stores.streamingMode = some request.streamingMode.value ∧
        fault.leaves (toFile yaml (withVideoSettings yaml request settings)) stores.settingsFile
          = stores.settingsFile

/-- **An error leaves the stores as they were exactly if no failing `save` is reached, or one that
changes nothing after a mode that was stored already.** -/
theorem update_atomic_iff (body : Except ApiException Json) (faults : Faults)
    (stores : VideoStores) :
    AtomicUpdate stores (settingsVideoPut yaml int ipAddress body faults stores) ↔
      SaveFaultHarmless yaml int ipAddress body faults stores := by
  unfold settingsVideoPut SaveFaultHarmless
  cases hparse : parseVideoSettings int ipAddress body with
  | error e =>
    refine ⟨fun _ _ _ _ h => absurd h (by simp), fun _ => ?_⟩
    cases e <;> exact atomicUpdate_of_row rfl rfl
  | ok request =>
    dsimp only
    cases hload : loadSettings yaml faults stores with
    | error e =>
      refine ⟨fun _ _ _ _ _ h => absurd h (by simp), fun _ => ?_⟩
      cases e <;> exact atomicUpdate_of_row rfl rfl
    | ok settings =>
      dsimp only
      rcases hset : setStreamingMode faults request.streamingMode stores with ⟨_ | ⟨⟩, stores1⟩
      · obtain ⟨hdb, hmode, hfile⟩ := setStreamingMode_error hset
        exact ⟨fun _ _ _ _ _ _ h => absurd h hdb, fun _ => atomicUpdate_of_row hmode hfile⟩
      · obtain ⟨hdb, rfl⟩ := setStreamingMode_ok hset
        dsimp only
        rcases hsave : saveSettings yaml faults (withVideoSettings yaml request settings)
          { stores with row := some (some request.streamingMode.value) } with ⟨_ | ⟨⟩, stores2⟩
        · obtain ⟨fault, hfault, rfl⟩ := saveSettings_error yaml hsave
          rename_i e
          constructor
          · intro hatomic request' settings' fault' hrequest hsettings _ hfault'
            cases hrequest
            cases hsettings
            obtain rfl := Option.some.inj (hfault.symm.trans hfault')
            have hsame : some request.streamingMode.value = stores.streamingMode ∧
                fault.leaves (toFile yaml (withVideoSettings yaml request settings))
                  stores.settingsFile = stores.settingsFile := by
              cases e <;> exact hatomic trivial
            exact ⟨hsame.1.symm, hsame.2⟩
          · intro hharmless
            obtain ⟨hmode, hfile⟩ := hharmless request settings fault rfl rfl hdb hfault
            cases e <;> exact atomicUpdate_of_row hmode.symm hfile
        · refine ⟨fun _ _ _ fault _ _ _ hfault => ?_, fun _ h => absurd h id⟩
          obtain ⟨e, stores3, herror⟩ := saveSettings_of_fault yaml hfault
            (withVideoSettings yaml request settings)
            { stores with row := some (some request.streamingMode.value) }
          rw [hsave] at herror
          cases herror

end

/-! ## 6. A half-applied request -/

def scalarText : Option (PyStr ⊕ Int) → PyStr
  | some (.inl s) => s
  | some (.inr n) => py (toString n)
  | Option.none => py "null"

/-- Enough of PyYAML for a file that does not exist yet, or is empty. -/
def scalarYaml : Yaml (Option (PyStr ⊕ Int)) where
  safeLoad content := if content = [] then .ok .falsy else .error "expected an empty file"
  safeDump entries :=
    (entries.flatMap fun entry =>
      scalarText entry.1 ++ py ": " ++ scalarText entry.2 ++ py "\n").map Nat.toUInt8
  eq a b := decide (a = b)
  str s := some (.inl s)
  int n := some (.inr n)
  none := Option.none

/-- Only the streaming mode is new. -/
def h264Request : Json :=
  .dict [(py "streamingMode", .str (py "H264")), (py "frameRate", .int 30),
    (py "mjpegQuality", .int 80), (py "h264Bitrate", .int 5000), (py "h264StunServer", .null),
    (py "h264StunPort", .null)]

/-- The mode of a refused request is stored. -/
theorem refused_mode_is_stored :
    let r := settingsVideoPut scalarYaml (fun _ => Option.none) (fun _ => false) (.ok h264Request)
      { save := some .opening } ⟨some (some (py "MJPEG")), Option.none⟩
    r.1 = .error 500 "Failed to save settings to settings file" Option.none ∧
      r.2.streamingMode = some (py "H264") ∧
      ¬ AtomicUpdate ⟨some (some (py "MJPEG")), Option.none⟩ r := by
  refine ⟨rfl, rfl, fun hatomic => ?_⟩
  exact absurd (hatomic trivial).1 (by decide +kernel)

end TinyPilotKvm
