/-
# The request handlers (`ustreamer/http/server.c`, `ustreamer/http/mime.c`)

Every handler begins with `PREPROCESS_REQUEST`: an `OPTIONS` request is answered at once, a request
without the token is refused, a `HEAD` request is answered, and only the others go on.  The root and
the static files then look for an `action` in the query (`COMPAT_REQUEST`), and if there is one they
call the handler of the snapshots or of the stream, which preprocesses the request once more.

libevent is a parameter (`Libevent`): how it takes a URI apart.  What the clock, the stream and the
file system say to one request is in its `HttpEnv`.  The history is in `replies` and `streamed`: the
replies that have been sent, and the requests that stream data has been written for.
-/
import TinyPilotKvm.Libs.Base64
import TinyPilotKvm.Libs.Tools
import TinyPilotKvm.Transition
import TinyPilotKvm.Ustreamer.Http.State
import TinyPilotKvm.Ustreamer.Http.Static

namespace TinyPilotKvm

/-! ## 1. Data -/

/-- What a reply carries; `errorPage` is libevent's own. -/
inductive ReplyContent
  | empty
  | indexPage
  | favicon
  | file (path : List UInt8) (size : Nat)
  | state (body : List UInt8)
  | image
  | errorPage
  deriving DecidableEq

/-- A reply; its headers are the output headers of its request. -/
structure HttpReply where
  request : EvhttpRequest
  code : Nat
  reason : Option (List UInt8)
  content : ReplyContent

/-- `us_snapshot_client_s`. -/
structure UsSnapshotClient where
  request : EvhttpRequest
  requestTs : ℚ

/-- What the handlers read and change. -/
structure HttpState where
  authToken : Option (List UInt8)
  lastRequestTs : Nat
  hasClients : Bool
  snapshotRequested : Nat
  snapshotClients : List UsSnapshotClient
  streamClients : CountedList UsStreamClient
  replies : List HttpReply
  streamed : List EvhttpRequest

/-- `evhttp_parse_query`, `evhttp_encode_uri`, the path of `evhttp_uri_parse` (with the null
pointers of both), and `evhttp_uridecode`. -/
structure Libevent where
  parseQuery : CString → List Header
  encodeUri : List UInt8 → List UInt8
  uriPath : CString → Option (Option CString)
  uridecode : CString → Option CString

/-- The answers of the system: the clock, the stream, and the files; `fileSize` is what `open` and
`fstat` give. -/
structure HttpEnv where
  now : ℚ
  nowId : Nat
  status : StreamStatus
  lstat : List UInt8 → Option FileMode
  lstatIndex : List UInt8 → Option FileMode
  readable : List UInt8 → Bool
  fileSize : List UInt8 → Option Nat
  addFile : Bool

/-- `_A_ADD_HEADER`. -/
def EvhttpRequest.addHeader (request : EvhttpRequest) (key value : List UInt8) : EvhttpRequest :=
  { request with outputHeaders := request.outputHeaders ++ [(key, value)] }

def cacheControl : List UInt8 :=
  ascii "no-store, no-cache, must-revalidate, proxy-revalidate, "
    ++ ascii "pre-check=0, post-check=0, max-age=0"

/-- What `_http_send_snapshot` sends: a frame, and the clocks. -/
structure SnapshotEnv where
  frame : FrameMeta
  nowReal : ℚ
  nowTs : ℚ

/-- The headers that it adds. -/
def snapshotHeaders (env : SnapshotEnv) : List (List UInt8 × List UInt8) :=
  [(ascii "Cache-Control", cacheControl),
    (ascii "Pragma", ascii "no-cache"),
    (ascii "Expires", ascii "Mon, 3 Jan 2000 12:34:56 GMT"),
    (ascii "X-Timestamp", fixed6 env.nowReal),
    (ascii "X-UStreamer-Online", usBoolToString env.frame.online),
    (ascii "X-UStreamer-Width", decimal env.frame.width),
    (ascii "X-UStreamer-Height", decimal env.frame.height),
    (ascii "X-UStreamer-Grab-Timestamp", fixed6 env.frame.grabTs),
    (ascii "X-UStreamer-Encode-Begin-Timestamp", fixed6 env.frame.encodeBeginTs),
    (ascii "X-UStreamer-Encode-End-Timestamp", fixed6 env.frame.encodeEndTs),
    (ascii "X-UStreamer-Send-Timestamp", fixed6 env.nowTs),
    (ascii "Content-Type", ascii "image/jpeg")]

def EvhttpRequest.addSnapshotHeaders (request : EvhttpRequest) (env : SnapshotEnv) :
    EvhttpRequest :=
  { request with outputHeaders := request.outputHeaders ++ snapshotHeaders env }

/-- `evhttp_send_reply`, and `evhttp_send_error` without a reason. -/
def HttpState.sendReply (s : HttpState) (request : EvhttpRequest) (code : Nat)
    (reason : Option (List UInt8)) (content : ReplyContent) : HttpState :=
  { s with replies := s.replies ++ [⟨request, code, reason, content⟩] }

/-! ## 2. The token -/

/-- The token that `us_server_listen` makes.  The outer `none` is an access outside the encoder's
memory. -/
def usServerListenToken (server : UsServer) : Option (Option (List UInt8)) :=
  if server.user.bytes ≠ [] then
    let rawToken := server.user.bytes ++ ascii ":" ++ server.passwd.bytes
    (usBase64Encode rawToken none none).map fun r => some (ascii "Basic " ++ cStringAt r.1)
  else some none

/-! ## 3. The gate -/

section

variable (server : UsServer)

/-- The CORS headers of `_http_preprocess_request`. -/
def addCorsHeaders (request : EvhttpRequest) : EvhttpRequest :=
  if server.allowOrigin.bytes ≠ [] then
    let corsHeaders := usEvhttpGetHeader request (ascii "Access-Control-Request-Headers")
    let corsMethod := usEvhttpGetHeader request (ascii "Access-Control-Request-Method")
    let request := request.addHeader (ascii "Access-Control-Allow-Origin") server.allowOrigin.bytes
    let request := request.addHeader (ascii "Access-Control-Allow-Credentials") (ascii "true")
    let request := match corsHeaders with
      | some headers => request.addHeader (ascii "Access-Control-Allow-Headers") headers
      | none => request
    match corsMethod with
    | some method => request.addHeader (ascii "Access-Control-Allow-Methods") method
    | none => request
  else request

/-- `_http_preprocess_request`: the request to go on with, `none` for -1. -/
def httpPreprocessRequest (now : ℚ) (s : HttpState) (request : EvhttpRequest) :
    HttpState × Option EvhttpRequest :=
  let s := { s with lastRequestTs := toUll now }
  let request := addCorsHeaders server request
  if request.command = .options then
    (s.sendReply request 200 (some (ascii "OK")) .empty, none)
  else if s.authToken.any fun token =>
      usEvhttpGetHeader request (ascii "Authorization") ≠ some token then
    (s.sendReply (request.addHeader (ascii "WWW-Authenticate")
      (ascii "Basic realm=\"Restricted area\"")) 401 (some (ascii "Unauthorized")) .empty, none)
  else if request.command = .head then
    (s.sendReply request 200 (some (ascii "OK")) .empty, none)
  else (s, some request)

/-- `PREPROCESS_REQUEST`, and what follows it. -/
def preprocessRequest (now : ℚ) (s : HttpState) (request : EvhttpRequest)
    (next : HttpState → EvhttpRequest → HttpState) : HttpState :=
  match httpPreprocessRequest server now s request with
  | (s, none) => s
  | (s, some request) => next s request

end

/-! ## 4. The handlers -/

section

variable (server : UsServer) (lib : Libevent) (env : HttpEnv)

/-- `_http_callback_snapshot`. -/
def httpCallbackSnapshot (s : HttpState) (request : EvhttpRequest) : HttpState :=
  preprocessRequest server env.now s request fun s request =>
    { s with
      snapshotRequested := s.snapshotRequested + 1
      snapshotClients := s.snapshotClients ++ [⟨request, env.now⟩] }

/-- The client that `_http_callback_stream` makes. -/
def newStreamClient (request : EvhttpRequest) : UsStreamClient :=
  let params := lib.parseQuery request.uri
  { request := request
    key := usEvkeyvalqGetString lib.encodeUri params (ascii "key")
    extraHeaders := usEvkeyvalqGetTrue params (ascii "extra_headers")
    advanceHeaders := usEvkeyvalqGetTrue params (ascii "advance_headers")
    dualFinalFrames := usEvkeyvalqGetTrue params (ascii "dual_final_frames")
    zeroData := usEvkeyvalqGetTrue params (ascii "zero_data")
    id := env.nowId
    needInitial := true
    needFirstFrame := true
    updatedPrev := false }

/-- `_http_callback_stream`. -/
def httpCallbackStream (s : HttpState) (request : EvhttpRequest) : HttpState :=
  preprocessRequest server env.now s request fun s request =>
    if request.conn then
      let streamClients := s.streamClients.append (newStreamClient lib env request)
      { s with
        streamClients := streamClients
        hasClients := if streamClients.count = 1 then true else s.hasClients }
    else s

/-- `_http_check_run_compat_action`, `none` for -1. -/
def httpCheckRunCompatAction (s : HttpState) (request : EvhttpRequest) : Option HttpState :=
  let action := evhttpFindHeader (lib.parseQuery request.uri) (ascii "action")
  if action = some (ascii "snapshot") then some (httpCallbackSnapshot server env s request)
  else if action = some (ascii "stream") then some (httpCallbackStream server lib env s request)
  else none

/-- `COMPAT_REQUEST`, and what follows it. -/
def compatRequest (s : HttpState) (request : EvhttpRequest)
    (next : HttpState → EvhttpRequest → HttpState) : HttpState :=
  match httpCheckRunCompatAction server lib env s request with
  | some s => s
  | none => next s request

/-- `_http_callback_root`. -/
def httpCallbackRoot (s : HttpState) (request : EvhttpRequest) : HttpState :=
  preprocessRequest server env.now s request fun s request =>
    compatRequest server lib env s request fun s request =>
      s.sendReply (request.addHeader (ascii "Content-Type") (ascii "text/html")) 200
        (some (ascii "OK")) .indexPage

/-- `_http_callback_favicon`. -/
def httpCallbackFavicon (s : HttpState) (request : EvhttpRequest) : HttpState :=
  preprocessRequest server env.now s request fun s request =>
    s.sendReply (request.addHeader (ascii "Content-Type") (ascii "image/x-icon")) 200
      (some (ascii "OK")) .favicon

/-- `_MIME_TYPES`. -/
def mimeTypes : List (String × String) :=
  [("html", "text/html"), ("htm", "text/html"), ("css", "text/css"), ("js", "text/javascript"),
    ("txt", "text/plain"), ("jpg", "image/jpeg"), ("jpeg", "image/jpeg"), ("png", "image/png"),
    ("gif", "image/gif"), ("ico", "image/x-icon"), ("bmp", "image/bmp"), ("svg", "image/svg+xml"),
    ("swf", "application/x-shockwave-flash"), ("cab", "application/x-shockwave-flash"),
    ("jar", "application/java-archive"), ("json", "application/json")]

/-- `us_guess_mime_type`. -/
def usGuessMimeType (path : List UInt8) : List UInt8 :=
  let ext := (path.reverse.takeWhile (· ≠ chDot)).reverse
  if !path.contains chDot || ext.contains chSlash then ascii "application/misc"
  else
    match mimeTypes.find? fun item => asciiCaseEq (ascii item.1) ext with
    | some item => ascii item.2
    | none => ascii "application/misc"

/-- The path that `_http_callback_static` looks up. -/
def decodedPath (uri : CString) : Option CString := do
  let uriPath ← lib.uriPath uri
  lib.uridecode (uriPath.getD ⟨[chSlash], by decide⟩)

/-- The file that is found, and its size.  `us_find_static_file_path` stays in its memory, so that
its outer `none` does not come. -/
def foundFile (path : CString) : Option (List UInt8 × Nat) := do
  let found ← usFindStaticFilePath server.staticPath path env.lstat env.lstatIndex env.readable
  let path ← found
  let size ← env.fileSize path
  if size = 0 ∨ env.addFile = true then some (path, size) else none

/-- `_http_callback_static`. -/
def httpCallbackStatic (s : HttpState) (request : EvhttpRequest) : HttpState :=
  preprocessRequest server env.now s request fun s request =>
    compatRequest server lib env s request fun s request =>
      match decodedPath lib request.uri with
      | none => s.sendReply request 400 none .errorPage
      | some path =>
        match foundFile server env path with
        | none => s.sendReply request 404 none .errorPage
        | some (path, size) =>
          s.sendReply (request.addHeader (ascii "Content-Type") (usGuessMimeType path)) 200
            (some (ascii "OK")) (.file path size)

/-- `_http_callback_state`. -/
def httpCallbackState (s : HttpState) (request : EvhttpRequest) : HttpState :=
  preprocessRequest server env.now s request fun s request =>
    s.sendReply (request.addHeader (ascii "Content-Type") (ascii "application/json")) 200
      (some (ascii "OK")) (.state (stateBody server env.status s.streamClients))

/-- The callbacks that `us_server_listen` registers. -/
inductive Route
  | root
  | favicon
  | static
  | state
  | snapshot
  | stream

/-- A request on a route. -/
def httpCallback (s : HttpState) (request : EvhttpRequest) : Route → HttpState
  | .root => httpCallbackRoot server lib env s request
  | .favicon => httpCallbackFavicon server env s request
  | .static => httpCallbackStatic server lib env s request
  | .state => httpCallbackState server env s request
  | .snapshot => httpCallbackSnapshot server env s request
  | .stream => httpCallbackStream server lib env s request

end

/-! ## 5. The server at work -/

/-- What happens to a server: a request, an exposed JPEG (`atomic_fetch_sub`), an answer to a
waiting snapshot client (`_http_send_snapshot`), data for a stream client
(`_http_callback_stream_write`), and the end of its connection (`_http_callback_stream_error`). -/
inductive HttpAct
  | request (route : Route) (request : EvhttpRequest) (env : HttpEnv)
  | exposed
  | sendSnapshot (i : Nat) (env : SnapshotEnv)
  | streamWrite (i : Nat)
  | streamError (i : Nat)

def httpStep (server : UsServer) (lib : Libevent) (s : HttpState) : HttpAct → Option HttpState
  | .request route request env => some (httpCallback server lib env s request route)
  | .exposed =>
    if 0 < s.snapshotRequested then some { s with snapshotRequested := s.snapshotRequested - 1 }
    else none
  | .sendSnapshot i env => s.snapshotClients[i]?.map fun client =>
      { s.sendReply (client.request.addSnapshotHeaders env) 200 (some (ascii "OK")) .image with
        snapshotClients := s.snapshotClients.eraseIdx i }
  | .streamWrite i => s.streamClients.items[i]?.map fun client =>
      { s with streamed := s.streamed ++ [client.request] }
  | .streamError i => (s.streamClients.remove i).map fun streamClients =>
      { s with
        streamClients := streamClients
        hasClients := if streamClients.count = 0 then false else s.hasClients }

/-- A server that has begun to listen. -/
def httpSystem (server : UsServer) (lib : Libevent) : System HttpState HttpAct where
  start s := ∃ token, usServerListenToken server = some token ∧
    s = ⟨token, 0, false, 0, [], CountedList.empty, [], []⟩
  step := httpStep server lib

end TinyPilotKvm
