/-
# The CORS headers (`_http_preprocess_request` of `ustreamer/http/server.c`)

With `--allow-origin` every answer is to have `Access-Control-Allow-Origin` and
`Access-Control-Allow-Credentials` once, and the two headers that echo the request at most once.
`PREPROCESS_REQUEST` adds them, and every handler begins with it.  But where the root and the static
files find `action=snapshot` in the query they call the handler of the snapshots, and the request is
preprocessed once more: the answer has all of them twice.  For `action=stream` the answer is written
by `_http_callback_stream_write`, which adds its own.

The headers of libevent's error pages are a parameter: they are what `evhttp_send_error` makes of
those of the request.
-/
import TinyPilotKvm.Ustreamer.Http.Gate
import TinyPilotKvm.Ustreamer.Http.StreamWrite

namespace TinyPilotKvm

/-! ## 1. Headers -/

/-- The headers of an answer. -/
abbrev HeaderList := List (List UInt8 × List UInt8)

/-- The CORS headers. -/
def corsNames : List String :=
  ["Access-Control-Allow-Origin", "Access-Control-Allow-Credentials",
    "Access-Control-Allow-Headers", "Access-Control-Allow-Methods"]

/-- How many headers of a name there are. -/
def headerCount (headers : HeaderList) (name : String) : Nat :=
  headers.countP fun h => asciiCaseEq h.1 (ascii name)

/-- Each CORS header at most once, and the first two exactly once if an origin is configured. -/
structure CorsRight (server : UsServer) (headers : HeaderList) : Prop where
  atMostOnce : ∀ name ∈ corsNames, headerCount headers name ≤ 1
  origin : server.allowOrigin.bytes ≠ [] → headerCount headers "Access-Control-Allow-Origin" = 1
  credentials : server.allowOrigin.bytes ≠ [] →
    headerCount headers "Access-Control-Allow-Credentials" = 1

/-- What `_http_preprocess_request` adds. -/
def corsHeaders (server : UsServer) (request : EvhttpRequest) : HeaderList :=
  if server.allowOrigin.bytes = [] then []
  else
    [(ascii "Access-Control-Allow-Origin", server.allowOrigin.bytes),
      (ascii "Access-Control-Allow-Credentials", ascii "true")]
      ++ (usEvhttpGetHeader request (ascii "Access-Control-Request-Headers")).toList.map
        (ascii "Access-Control-Allow-Headers", ·)
      ++ (usEvhttpGetHeader request (ascii "Access-Control-Request-Method")).toList.map
        (ascii "Access-Control-Allow-Methods", ·)

/-- None of the headers is a CORS header. -/
def NoCors (headers : HeaderList) : Prop := ∀ name ∈ corsNames, headerCount headers name = 0

section

variable {server : UsServer} {request : EvhttpRequest} {headers others : HeaderList}

theorem addCorsHeaders_eq (server : UsServer) (request : EvhttpRequest) :
    addCorsHeaders server request
      = { request with outputHeaders := request.outputHeaders ++ corsHeaders server request } := by
  unfold addCorsHeaders corsHeaders
  by_cases horigin : server.allowOrigin.bytes = []
  · rw [if_neg (not_not.mpr horigin), if_pos horigin, List.append_nil]
  · rw [if_pos horigin, if_neg horigin]
    cases usEvhttpGetHeader request (ascii "Access-Control-Request-Headers") <;>
      cases usEvhttpGetHeader request (ascii "Access-Control-Request-Method") <;>
      simp [EvhttpRequest.addHeader]

theorem headerCount_append (headers others : HeaderList) (name : String) :
    headerCount (headers ++ others) name = headerCount headers name + headerCount others name :=
  List.countP_append

/-- Only the names count. -/
theorem headerCount_eq (headers : HeaderList) (name : String) :
    headerCount headers name
      = (headers.map (·.1)).countP fun key => asciiCaseEq key (ascii name) := by
  rw [List.countP_map]
  rfl

/-- The names of the headers that are added: `echoHeaders` and `echoMethods` say whether the request
has what is echoed. -/
def addedNames (echoHeaders echoMethods : Bool) : List (List UInt8) :=
  [ascii "Access-Control-Allow-Origin", ascii "Access-Control-Allow-Credentials"]
    ++ (if echoHeaders then [ascii "Access-Control-Allow-Headers"] else [])
    ++ if echoMethods then [ascii "Access-Control-Allow-Methods"] else []

theorem names_corsHeaders (horigin : server.allowOrigin.bytes ≠ []) :
    (corsHeaders server request).map (·.1)
      = addedNames (usEvhttpGetHeader request (ascii "Access-Control-Request-Headers")).isSome
        (usEvhttpGetHeader request (ascii "Access-Control-Request-Method")).isSome := by
  rw [corsHeaders, if_neg horigin]
  cases usEvhttpGetHeader request (ascii "Access-Control-Request-Headers") <;>
    cases usEvhttpGetHeader request (ascii "Access-Control-Request-Method") <;> rfl

theorem count_addedNames : ∀ echoHeaders echoMethods,
    (∀ name ∈ corsNames, (addedNames echoHeaders echoMethods).countP
      (fun key => asciiCaseEq key (ascii name)) ≤ 1) ∧
    (addedNames echoHeaders echoMethods).countP
      (fun key => asciiCaseEq key (ascii "Access-Control-Allow-Origin")) = 1 ∧
    (addedNames echoHeaders echoMethods).countP
      (fun key => asciiCaseEq key (ascii "Access-Control-Allow-Credentials")) = 1 := by
  decide +kernel

/-- What is added once is right. -/
theorem corsRight_corsHeaders (server : UsServer) (request : EvhttpRequest) :
    CorsRight server (corsHeaders server request) := by
  by_cases horigin : server.allowOrigin.bytes = []
  · have hnone : corsHeaders server request = [] := if_pos horigin
    rw [hnone]
    exact ⟨fun _ _ => Nat.zero_le 1, fun h => absurd horigin h, fun h => absurd horigin h⟩
  · have hcount := count_addedNames
      (usEvhttpGetHeader request (ascii "Access-Control-Request-Headers")).isSome
      (usEvhttpGetHeader request (ascii "Access-Control-Request-Method")).isSome
    rw [← names_corsHeaders horigin] at hcount
    simp only [← headerCount_eq] at hcount
    exact ⟨hcount.1, fun _ => hcount.2.1, fun _ => hcount.2.2⟩

/-- Other headers behind them change nothing. -/
theorem CorsRight.append (h : CorsRight server headers) (hothers : NoCors others) :
    CorsRight server (headers ++ others) where
  atMostOnce := by
    intro name hname
    rw [headerCount_append, hothers name hname]
    exact h.atMostOnce name hname
  origin := by
    intro horigin
    rw [headerCount_append, hothers _ (by decide)]
    exact h.origin horigin
  credentials := by
    intro horigin
    rw [headerCount_append, hothers _ (by decide)]
    exact h.credentials horigin

theorem noCors_of_names {names : List (List UInt8)} (h : headers.map (·.1) = names)
    (hnames : ∀ name ∈ corsNames, names.countP (fun key => asciiCaseEq key (ascii name)) = 0) :
    NoCors headers := by
  intro name hname
  rw [headerCount_eq, h]
  exact hnames name hname

theorem noCors_snapshotHeaders (env : SnapshotEnv) : NoCors (snapshotHeaders env) := by
  have hnames : (snapshotHeaders env).map (·.1) =
      ["Cache-Control", "Pragma", "Expires", "X-Timestamp", "X-UStreamer-Online",
        "X-UStreamer-Width", "X-UStreamer-Height", "X-UStreamer-Grab-Timestamp",
        "X-UStreamer-Encode-Begin-Timestamp", "X-UStreamer-Encode-End-Timestamp",
        "X-UStreamer-Send-Timestamp", "Content-Type"].map ascii := rfl
  exact noCors_of_names hnames (by decide +kernel)

theorem noCors_singleton {key value : List UInt8}
    (h : ∀ name ∈ corsNames, asciiCaseEq key (ascii name) = false) : NoCors [(key, value)] := by
  intro name hname
  rw [headerCount, List.countP_singleton, h name hname]
  rfl

/-- What is added twice is wrong, whatever comes behind it. -/
theorem not_corsRight_twice (horigin : server.allowOrigin.bytes ≠ []) :
    ¬CorsRight server (corsHeaders server request ++ corsHeaders server request ++ others) := by
  intro h
  have honce := (corsRight_corsHeaders server request).origin horigin
  have htwice := h.origin horigin
  rw [headerCount_append, headerCount_append, honce] at htwice
  omega

end

/-! ## 2. The answers to a request -/

section

variable (server : UsServer) (errorPage : HeaderList → HeaderList)

/-- The headers of a reply. -/
def replyHeaders (reply : HttpReply) : HeaderList :=
  if reply.content = .errorPage then errorPage reply.request.outputHeaders
  else reply.request.outputHeaders

/-- The headers of what `_http_callback_stream_write` writes to a client first. -/
def streamHeaders (client : UsStreamClient) : HeaderList :=
  (headFields server client).map fun field => (field.name, field.value)

/-- Whatever a request is answered with between two states: a reply, the snapshot for which it waits
then, or the stream. -/
structure AnswersRight (s s' : HttpState) : Prop where
  reply : ∀ reply, s'.replies = s.replies ++ [reply] →
    CorsRight server (replyHeaders errorPage reply)
  snapshot : ∀ client, s'.snapshotClients = s.snapshotClients ++ [client] → ∀ env,
    CorsRight server (client.request.addSnapshotHeaders env).outputHeaders
  stream : ∀ client, s'.streamClients = s.streamClients.append client →
    CorsRight server (streamHeaders server client)

end

section

variable {server : UsServer} {errorPage : HeaderList → HeaderList} {s s' : HttpState}

/-- The head of the stream has its own. -/
theorem corsRight_streamHeaders (server : UsServer) (client : UsStreamClient) :
    CorsRight server (streamHeaders server client) := by
  have hcors : (corsFields server client).map (fun field => (field.name, field.value))
      = corsHeaders server client.request := by
    unfold corsFields corsHeaders
    split
    · rfl
    · simp only [List.map_append, List.map_map]
      rfl
  rw [streamHeaders, headFields, List.map_append, hcors]
  refine (corsRight_corsHeaders server client.request).append ?_
  refine noCors_of_names (rfl : _ = ["Cache-Control", "Pragma", "Expires", "Set-Cookie",
    "Content-Type"].map ascii) ?_
  decide +kernel

/-- The state after a request that is replied to. -/
theorem answersRight_reply {reply : HttpReply} (hreplies : s'.replies = s.replies ++ [reply])
    (hsnapshots : s'.snapshotClients = s.snapshotClients) :
    AnswersRight server errorPage s s' ↔ CorsRight server (replyHeaders errorPage reply) := by
  constructor
  · exact fun h => h.reply reply hreplies
  · intro h
    refine ⟨fun other hother => ?_, fun client hclient => ?_, fun client _ =>
      corsRight_streamHeaders server client⟩
    · rw [hreplies] at hother
      exact List.singleton_inj.mp (List.append_cancel_left hother) ▸ h
    · rw [hsnapshots] at hclient
      exact absurd hclient.symm (by simp)

/-- After one that waits for a snapshot. -/
theorem answersRight_snapshot {client : UsSnapshotClient} (hreplies : s'.replies = s.replies)
    (hsnapshots : s'.snapshotClients = s.snapshotClients ++ [client]) :
    AnswersRight server errorPage s s' ↔
      ∀ env, CorsRight server (client.request.addSnapshotHeaders env).outputHeaders := by
  constructor
  · exact fun h => h.snapshot client hsnapshots
  · intro h
    refine ⟨fun reply hreply => ?_, fun other hother => ?_, fun client _ =>
      corsRight_streamHeaders server client⟩
    · rw [hreplies] at hreply
      exact absurd hreply.symm (by simp)
    · rw [hsnapshots] at hother
      exact List.singleton_inj.mp (List.append_cancel_left hother) ▸ h

/-- After one that is given the stream, or nothing. -/
theorem answersRight_stream (hreplies : s'.replies = s.replies)
    (hsnapshots : s'.snapshotClients = s.snapshotClients) :
    AnswersRight server errorPage s s' := by
  refine ⟨fun reply hreply => ?_, fun client hclient => ?_, fun client _ =>
    corsRight_streamHeaders server client⟩
  · rw [hreplies] at hreply
    exact absurd hreply.symm (by simp)
  · rw [hsnapshots] at hclient
    exact absurd hclient.symm (by simp)

end

/-! ## 3. The handlers -/

/-- `_http_preprocess_request` lets the request through. -/
def GetsThrough (s : HttpState) (request : EvhttpRequest) : Prop :=
  request.command ≠ .options ∧ request.command ≠ .head ∧
    ∀ token, s.authToken = some token →
      usEvhttpGetHeader request (ascii "Authorization") = some token

section

variable {server : UsServer} {errorPage : HeaderList → HeaderList} {s : HttpState}
  {request : EvhttpRequest}

theorem any_token_iff :
    (s.authToken.any fun token =>
        decide (usEvhttpGetHeader request (ascii "Authorization") ≠ some token)) = true ↔
      ¬∀ token, s.authToken = some token →
        usEvhttpGetHeader request (ascii "Authorization") = some token := by
  cases s.authToken with
  | none => simp
  | some token => simp

theorem preprocessRequest_of_getsThrough (h : GetsThrough s request) (now : ℚ)
    (next : HttpState → EvhttpRequest → HttpState) :
    preprocessRequest server now s request next
      = next { s with lastRequestTs := toUll now } (addCorsHeaders server request) := by
  obtain ⟨hoptions, hhead, htoken⟩ := h
  have hpass : httpPreprocessRequest server now s request
      = ({ s with lastRequestTs := toUll now }, some (addCorsHeaders server request)) := by
    rw [httpPreprocessRequest, addCorsHeaders_eq]
    refine (if_neg hoptions).trans ((if_neg fun hany => ?_).trans (if_neg hhead))
    exact any_token_iff.mp hany htoken
  rw [preprocessRequest, hpass]

/-- A request that does not get through is replied to with the headers that have been added. -/
theorem answersRight_of_not_getsThrough (hfresh : request.outputHeaders = [])
    (h : ¬GetsThrough s request) (now : ℚ) (next : HttpState → EvhttpRequest → HttpState) :
    AnswersRight server errorPage s (preprocessRequest server now s request next) := by
  have hright := corsRight_corsHeaders server request
  have hcors : addCorsHeaders server request
      = { request with outputHeaders := corsHeaders server request } := by
    rw [addCorsHeaders_eq, hfresh, List.nil_append]
  obtain ⟨reply, hpass, hcontent, hreply⟩ : ∃ reply, httpPreprocessRequest server now s request
      = ({ s with lastRequestTs := toUll now, replies := s.replies ++ [reply] }, none) ∧
      reply.content = .empty ∧ CorsRight server reply.request.outputHeaders := by
    rw [httpPreprocessRequest, hcors]
    by_cases hoptions : request.command = .options
    · exact ⟨_, if_pos hoptions, rfl, hright⟩
    · by_cases htoken : ∀ token, s.authToken = some token →
          usEvhttpGetHeader request (ascii "Authorization") = some token
      · have hhead : request.command = .head := by
          by_contra hhead
          exact h ⟨hoptions, hhead, htoken⟩
        refine ⟨_, (if_neg hoptions).trans ((if_neg fun hany => ?_).trans (if_pos hhead)), rfl,
          hright⟩
        exact any_token_iff.mp hany htoken
      · refine ⟨_, (if_neg hoptions).trans (if_pos (any_token_iff.mpr htoken)), rfl, ?_⟩
        refine hright.append (noCors_singleton ?_)
        decide +kernel
  rw [preprocessRequest, hpass]
  have hiff : AnswersRight server errorPage s
      { s with lastRequestTs := toUll now, replies := s.replies ++ [reply] } ↔
        CorsRight server (replyHeaders errorPage reply) := answersRight_reply rfl rfl
  refine hiff.mpr ?_
  rw [replyHeaders, hcontent]
  exact hreply

/-- A reply with other headers behind those that have been added. -/
theorem answersRight_content (hfresh : request.outputHeaders = []) {s' : HttpState}
    {key value : List UInt8} {code : Nat} {reason : Option (List UInt8)} {content : ReplyContent}
    (hkey : ∀ name ∈ corsNames, asciiCaseEq key (ascii name) = false)
    (hcontent : content ≠ .errorPage)
    (hreplies : s'.replies = s.replies
      ++ [⟨(addCorsHeaders server request).addHeader key value, code, reason, content⟩])
    (hsnapshots : s'.snapshotClients = s.snapshotClients) :
    AnswersRight server errorPage s s' := by
  refine (answersRight_reply hreplies hsnapshots).mpr ?_
  rw [replyHeaders, if_neg hcontent, addCorsHeaders_eq, hfresh, List.nil_append]
  exact (corsRight_corsHeaders server request).append (noCors_singleton hkey)

variable {lib : Libevent} {env : HttpEnv}

/-- The handler of the stream writes its own headers. -/
theorem answersRight_httpCallbackStream (h : GetsThrough s request) :
    AnswersRight server errorPage s (httpCallbackStream server lib env s request) := by
  rw [httpCallbackStream, preprocessRequest_of_getsThrough h]
  split
  · exact answersRight_stream rfl rfl
  · exact answersRight_stream rfl rfl

/-- The handler of the snapshots adds its headers to those of the request. -/
theorem answersRight_httpCallbackSnapshot (h : GetsThrough s request) :
    AnswersRight server errorPage s (httpCallbackSnapshot server env s request) ↔
      ∀ env, CorsRight server
        ((addCorsHeaders server request).outputHeaders ++ snapshotHeaders env) := by
  rw [httpCallbackSnapshot, preprocessRequest_of_getsThrough h]
  exact @answersRight_snapshot server errorPage s _ ⟨addCorsHeaders server request, env.now⟩ rfl rfl

/-- The action that a query asks for. -/
def actionOf (lib : Libevent) (request : EvhttpRequest) : Option (List UInt8) :=
  evhttpFindHeader (lib.parseQuery request.uri) (ascii "action")

/-- The request comes to a handler that looks for an action, gets through, and asks for a
snapshot. -/
def PreprocessedTwice (lib : Libevent) (s : HttpState) (request : EvhttpRequest) : Route → Prop
  | .root => GetsThrough s request ∧ actionOf lib request = some (ascii "snapshot")
  | .static => GetsThrough s request ∧ actionOf lib request = some (ascii "snapshot")
  | _ => False

/-- The request comes to the static files, gets through, asks for no action, and finds no file. -/
def FindsNoFile (server : UsServer) (lib : Libevent) (env : HttpEnv) (s : HttpState)
    (request : EvhttpRequest) : Route → Prop
  | .static => GetsThrough s request ∧ actionOf lib request ≠ some (ascii "snapshot") ∧
      actionOf lib request ≠ some (ascii "stream") ∧
      ∀ path, decodedPath lib request.uri = some path → foundFile server env path = none
  | _ => False

/-- A request that gets through once gets through again. -/
theorem GetsThrough.again (h : GetsThrough s request) (server : UsServer) (lastRequestTs : Nat) :
    GetsThrough { s with lastRequestTs } (addCorsHeaders server request) := by
  rw [addCorsHeaders_eq]
  exact h

/-- The headers after the second time. -/
theorem addCorsHeaders_twice (hfresh : request.outputHeaders = []) :
    (addCorsHeaders server (addCorsHeaders server request)).outputHeaders
      = corsHeaders server request ++ corsHeaders server request := by
  rw [addCorsHeaders_eq, addCorsHeaders_eq, hfresh, List.nil_append]
  rfl

theorem actionOf_addCorsHeaders :
    actionOf lib (addCorsHeaders server request) = actionOf lib request := by
  rw [addCorsHeaders_eq]
  rfl

/-- What counts of a state is what it holds, not when the last request came. -/
theorem answersRight_lastRequestTs {lastRequestTs : Nat} {s' : HttpState} :
    AnswersRight server errorPage { s with lastRequestTs } s' ↔
      AnswersRight server errorPage s s' :=
  ⟨fun h => ⟨h.reply, h.snapshot, h.stream⟩, fun h => ⟨h.reply, h.snapshot, h.stream⟩⟩

/-- The handlers that look for an action. -/
theorem answersRight_compatRequest (hfresh : request.outputHeaders = [])
    (h : GetsThrough s request) (next : HttpState → EvhttpRequest → HttpState) :
    AnswersRight server errorPage s
        (preprocessRequest server env.now s request fun s request =>
          compatRequest server lib env s request next) ↔
      (actionOf lib request = some (ascii "snapshot") → server.allowOrigin.bytes = []) ∧
      (actionOf lib request ≠ some (ascii "snapshot") →
        actionOf lib request ≠ some (ascii "stream") →
          AnswersRight server errorPage s
            (next { s with lastRequestTs := toUll env.now } (addCorsHeaders server request))) := by
  have hagain := h.again server (toUll env.now)
  have haction : evhttpFindHeader (lib.parseQuery (addCorsHeaders server request).uri)
      (ascii "action") = actionOf lib request := actionOf_addCorsHeaders
  rw [preprocessRequest_of_getsThrough h, compatRequest, httpCheckRunCompatAction]
  simp only [haction]
  by_cases hsnapshot : actionOf lib request = some (ascii "snapshot")
  · rw [if_pos hsnapshot]
    dsimp only
    rw [← answersRight_lastRequestTs, answersRight_httpCallbackSnapshot hagain,
      addCorsHeaders_twice hfresh, and_iff_left (fun hnot => absurd hsnapshot hnot),
      forall_prop_of_true hsnapshot]
    constructor
    · intro hright
      by_contra horigin
      exact not_corsRight_twice horigin (hright ⟨FrameMeta.zero, 0, 0⟩)
    · intro horigin env'
      have hnone : corsHeaders server request = [] := if_pos horigin
      have hright := (corsRight_corsHeaders server request).append (noCors_snapshotHeaders env')
      rw [hnone, List.nil_append]
      rw [hnone] at hright
      exact hright
  · rw [if_neg hsnapshot, and_iff_right (fun heq => absurd heq hsnapshot),
      forall_prop_of_true hsnapshot]
    by_cases hstream : actionOf lib request = some (ascii "stream")
    · rw [if_pos hstream]
      dsimp only
      rw [← answersRight_lastRequestTs]
      exact iff_of_true (answersRight_httpCallbackStream hagain) fun hnot => absurd hstream hnot
    · rw [if_neg hstream, forall_prop_of_true hstream]

/-- A page of libevent's. -/
theorem answersRight_errorPage (hfresh : request.outputHeaders = []) {s' : HttpState} {code : Nat}
    (hreplies : s'.replies = s.replies ++ [⟨addCorsHeaders server request, code, none, .errorPage⟩])
    (hsnapshots : s'.snapshotClients = s.snapshotClients) :
    AnswersRight server errorPage s s' ↔
      CorsRight server (errorPage (corsHeaders server request)) := by
  rw [answersRight_reply hreplies hsnapshots, replyHeaders, if_pos rfl, addCorsHeaders_eq, hfresh,
    List.nil_append]

/-- The files. -/
theorem answersRight_static (hfresh : request.outputHeaders = []) (h : GetsThrough s request) :
    AnswersRight server errorPage s (httpCallbackStatic server lib env s request) ↔
      (PreprocessedTwice lib s request .static → server.allowOrigin.bytes = []) ∧
      (FindsNoFile server lib env s request .static →
        CorsRight server (errorPage (corsHeaders server request))) := by
  have huri : (addCorsHeaders server request).uri = request.uri := by rw [addCorsHeaders_eq]
  rw [httpCallbackStatic, answersRight_compatRequest hfresh h, PreprocessedTwice, FindsNoFile,
    and_iff_right h, and_iff_right h, huri, and_imp, and_imp]
  refine and_congr_right fun _ => forall_congr' fun _ => forall_congr' fun _ => ?_
  cases hpath : decodedPath lib request.uri with
  | none =>
    rw [forall_prop_of_true (fun path hsome => absurd hsome (by simp))]
    exact answersRight_errorPage hfresh rfl rfl
  | some path =>
    cases hfile : foundFile server env path with
    | none =>
      dsimp only
      rw [hfile, forall_prop_of_true (fun path hsome => Option.some.inj hsome ▸ hfile)]
      exact answersRight_errorPage hfresh rfl rfl
    | some file =>
      dsimp only
      rw [hfile]
      refine iff_of_true (answersRight_content hfresh (by decide +kernel) (by simp) rfl rfl) ?_
      intro hnone
      exact absurd (hfile.symm.trans (hnone path rfl)) (by simp)

/-- **CORS.**  The answers to a request have the headers that they are to have exactly if the
request is not preprocessed twice with an origin configured, and the page that libevent answers with
where there is no file has them. -/
theorem cors_headers_once_iff (server : UsServer) (lib : Libevent)
    (errorPage : HeaderList → HeaderList) (env : HttpEnv) (s : HttpState) {request : EvhttpRequest}
    (hfresh : request.outputHeaders = []) (route : Route) :
    AnswersRight server errorPage s (httpCallback server lib env s request route) ↔
      (PreprocessedTwice lib s request route → server.allowOrigin.bytes = []) ∧
      (FindsNoFile server lib env s request route →
        CorsRight server (errorPage (corsHeaders server request))) := by
  by_cases h : GetsThrough s request
  · cases route with
    | root =>
      rw [httpCallback, httpCallbackRoot, answersRight_compatRequest hfresh h, PreprocessedTwice,
        and_iff_right h]
      refine and_congr_right fun _ => iff_of_true (fun _ _ => ?_) False.elim
      exact answersRight_content hfresh (by decide +kernel) (by simp) rfl rfl
    | favicon =>
      refine iff_of_true ?_ ⟨False.elim, False.elim⟩
      rw [httpCallback, httpCallbackFavicon, preprocessRequest_of_getsThrough h]
      exact answersRight_content hfresh (by decide +kernel) (by simp) rfl rfl
    | static => exact answersRight_static hfresh h
    | state =>
      refine iff_of_true ?_ ⟨False.elim, False.elim⟩
      rw [httpCallback, httpCallbackState, preprocessRequest_of_getsThrough h]
      exact answersRight_content hfresh (by decide +kernel) (by simp) rfl rfl
    | snapshot =>
      refine iff_of_true ?_ ⟨False.elim, False.elim⟩
      refine (answersRight_httpCallbackSnapshot h).mpr fun env' => ?_
      rw [addCorsHeaders_eq, hfresh, List.nil_append]
      exact (corsRight_corsHeaders server request).append (noCors_snapshotHeaders env')
    | stream =>
      exact iff_of_true (answersRight_httpCallbackStream h) ⟨False.elim, False.elim⟩
  · have hright : ∀ next, AnswersRight server errorPage s
        (preprocessRequest server env.now s request next) :=
      answersRight_of_not_getsThrough hfresh h env.now
    cases route with
    | root => exact iff_of_true (hright _) ⟨fun htwice => absurd htwice.1 h, False.elim⟩
    | favicon => exact iff_of_true (hright _) ⟨False.elim, False.elim⟩
    | static =>
      exact iff_of_true (hright _) ⟨fun htwice => absurd htwice.1 h, fun hno => absurd hno.1 h⟩
    | state => exact iff_of_true (hright _) ⟨False.elim, False.elim⟩
    | snapshot => exact iff_of_true (hright _) ⟨False.elim, False.elim⟩
    | stream => exact iff_of_true (hright _) ⟨False.elim, False.elim⟩

end

/-- A server for any origin. -/
def anyOrigin : UsServer := { usServerInit with allowOrigin := ⟨ascii "*", by decide⟩ }

/-- A server without a user that nothing has happened to. -/
def quietHttp : HttpState := ⟨none, 0, false, 0, [], CountedList.empty, [], []⟩

/-- A library that finds `action=snapshot` in the query of `snapshotRequest`. -/
def actionLibevent : Libevent :=
  { plainLibevent with
    parseQuery := fun _ => [⟨⟨ascii "action", by decide⟩, ⟨ascii "snapshot", by decide⟩⟩] }

/-- `GET /?action=snapshot`, from a page of another origin. -/
def snapshotRequest : EvhttpRequest where
  command := .get
  uri := ⟨ascii "/?action=snapshot", by decide⟩
  inputHeaders :=
    [⟨⟨ascii "Access-Control-Request-Headers", by decide⟩, ⟨ascii "X-Token", by decide⟩⟩]
  outputHeaders := []
  conn := true

/-- A page with headers of its own. -/
def clearedPage : HeaderList → HeaderList := fun _ =>
  [(ascii "Content-Type", ascii "text/html"), (ascii "Connection", ascii "close")]

/-- On the route of the snapshots the headers are there once. -/
theorem cors_headers_once_iff_snapshot :
    AnswersRight anyOrigin clearedPage quietHttp
      (httpCallback anyOrigin actionLibevent (envAt 0) quietHttp snapshotRequest .snapshot) := by
  have hiff := cors_headers_once_iff anyOrigin actionLibevent clearedPage (envAt 0) quietHttp
    (rfl : snapshotRequest.outputHeaders = []) .snapshot
  exact hiff.mpr ⟨False.elim, False.elim⟩

/-- On the root, with an action, they are there twice. -/
theorem cors_headers_twice :
    ¬AnswersRight anyOrigin clearedPage quietHttp
      (httpCallback anyOrigin actionLibevent (envAt 0) quietHttp snapshotRequest .root) := by
  intro h
  have horigin := (h.snapshot ⟨addCorsHeaders anyOrigin (addCorsHeaders anyOrigin snapshotRequest),
    0⟩ rfl ⟨FrameMeta.zero, 0, 0⟩).origin (by decide)
  exact absurd horigin (by decide +kernel)

end TinyPilotKvm
