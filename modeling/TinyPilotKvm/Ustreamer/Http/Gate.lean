/-
# The authentication gate of the HTTP server

With a user name configured, the token is `Basic ` and the Base 64 of `user:passwd`, whatever their
length (`usServerListenToken_eq`).  A request is `Authorized` when its `Authorization` header is the
token, and nothing else but an empty reply is ever made for a request that is not: no client is
registered for it, no counter goes up, no content is sent, at once or later
(`http_authentication_gate`).
-/
import TinyPilotKvm.Ustreamer.Http.Handlers

namespace TinyPilotKvm

/-! ## 1. The token -/

/-- `Basic ` and the encoding of `user:passwd`. -/
def basicToken (server : UsServer) : List UInt8 :=
  ascii "Basic " ++ base64 (server.user.bytes ++ ascii ":" ++ server.passwd.bytes)

/-- The server's token is that of RFC 4648. -/
theorem usServerListenToken_eq {server : UsServer} (huser : server.user.bytes ≠ []) :
    usServerListenToken server = some (some (basicToken server)) := by
  obtain ⟨r, hr, htext⟩ :=
    usBase64Encode_null (server.user.bytes ++ ascii ":" ++ server.passwd.bytes)
  unfold usServerListenToken
  rw [if_pos huser]
  dsimp only
  rw [hr, Option.map_some, htext, basicToken]

/-- The request carries the token. -/
def Authorized (server : UsServer) (request : EvhttpRequest) : Prop :=
  usEvhttpGetHeader request (ascii "Authorization") = some (basicToken server)

/-- The same request, but for the headers of its reply. -/
structure SameRequest (request request' : EvhttpRequest) : Prop where
  command : request'.command = request.command
  inputHeaders : request'.inputHeaders = request.inputHeaders

section

variable {server : UsServer} {request request' : EvhttpRequest}

theorem SameRequest.rfl : SameRequest request request := ⟨Eq.refl _, Eq.refl _⟩

theorem SameRequest.addHeader (h : SameRequest request request') (key value : List UInt8) :
    SameRequest request (request'.addHeader key value) :=
  ⟨h.command, h.inputHeaders⟩

theorem sameRequest_addCorsHeaders (server : UsServer) (request : EvhttpRequest) :
    SameRequest request (addCorsHeaders server request) := by
  unfold addCorsHeaders
  split
  · dsimp only
    cases usEvhttpGetHeader request (ascii "Access-Control-Request-Headers") <;>
      cases usEvhttpGetHeader request (ascii "Access-Control-Request-Method") <;>
      exact ⟨rfl, rfl⟩
  · exact .rfl

theorem SameRequest.authorized (h : SameRequest request request') :
    Authorized server request' ↔ Authorized server request := by
  unfold Authorized usEvhttpGetHeader
  rw [h.inputHeaders]

/-! ## 2. The gate -/

theorem ok_ne_unauthorized : ¬ (200 : Nat) = 401 := by decide

/-- A reply to a request that has not got through. -/
structure Refusal (server : UsServer) (request : EvhttpRequest) (reply : HttpReply) : Prop where
  same : SameRequest request reply.request
  content : reply.content = .empty
  code : reply.code = 401 → ¬ Authorized server request

/-- **The gate.**  A request is given an empty reply, or it is authorized and neither `OPTIONS` nor
`HEAD`, and the handler goes on with it. -/
theorem httpPreprocessRequest_cases {s : HttpState}
    (htoken : s.authToken = some (basicToken server)) (now : ℚ) (request : EvhttpRequest) :
    (∃ reply, httpPreprocessRequest server now s request
        = ({ s with lastRequestTs := toUll now, replies := s.replies ++ [reply] }, none) ∧
      Refusal server request reply) ∨
    ∃ request', httpPreprocessRequest server now s request
        = ({ s with lastRequestTs := toUll now }, some request') ∧
      SameRequest request request' ∧ Authorized server request := by
  have hsame := sameRequest_addCorsHeaders server request
  unfold httpPreprocessRequest
  dsimp only
  rw [htoken, Option.any_some]
  split
  · exact .inl ⟨_, rfl, hsame, rfl, fun h => absurd h ok_ne_unauthorized⟩
  · split
    · rename_i hno
      refine .inl ⟨_, rfl, hsame.addHeader _ _, rfl, fun _ hyes => ?_⟩
      exact of_decide_eq_true hno (hsame.authorized.mpr hyes)
    · rename_i hyes
      have hauth : Authorized server request := by
        refine hsame.authorized.mp ?_
        by_contra hno
        exact hyes (decide_eq_true hno)
      split
      · exact .inl ⟨_, rfl, hsame, rfl, fun h => absurd h ok_ne_unauthorized⟩
      · exact .inr ⟨_, rfl, hsame, hauth⟩

/-! ## 3. What the server holds -/

/-- **The gate has held so far.**  The clients that wait, the replies with content and the streamed
data are all for authorized requests, and no authorized `GET` has been refused. -/
structure HttpState.Gated (server : UsServer) (s : HttpState) : Prop where
  token : s.authToken = some (basicToken server)
  snapshots : ∀ client ∈ s.snapshotClients, Authorized server client.request
  streams : ∀ client ∈ s.streamClients.items, Authorized server client.request
  content : ∀ reply ∈ s.replies, reply.content ≠ .empty → Authorized server reply.request
  unauthorized : ∀ reply ∈ s.replies, reply.code = 401 → ¬ Authorized server reply.request
  streamed : ∀ request ∈ s.streamed, Authorized server request

/-- A state that a request which is not authorized has left nothing in, but an empty reply. -/
structure OnlyRefused (s s' : HttpState) : Prop where
  snapshotClients : s'.snapshotClients = s.snapshotClients
  streamClients : s'.streamClients = s.streamClients
  snapshotRequested : s'.snapshotRequested = s.snapshotRequested
  streamed : s'.streamed = s.streamed
  replies : ∃ reply, s'.replies = s.replies ++ [reply] ∧ reply.content = .empty

variable {s : HttpState}

/-- A reply to an authorized request. -/
theorem HttpState.Gated.sendReply (h : s.Gated server) (hauth : Authorized server request)
    {code : Nat} (hcode : code ≠ 401) (reason : Option (List UInt8)) (content : ReplyContent) :
    (s.sendReply request code reason content).Gated server where
  token := h.token
  snapshots := h.snapshots
  streams := h.streams
  content := by
    intro reply hreply hcontent
    rcases List.mem_append.mp hreply with hold | hnew
    · exact h.content reply hold hcontent
    · exact List.mem_singleton.mp hnew ▸ hauth
  unauthorized := by
    intro reply hreply hcode'
    rcases List.mem_append.mp hreply with hold | hnew
    · exact h.unauthorized reply hold hcode'
    · rw [List.mem_singleton.mp hnew] at hcode'
      exact absurd hcode' hcode
  streamed := h.streamed

/-- Content for it. -/
theorem HttpState.Gated.sendContent (h : s.Gated server) (hauth : Authorized server request)
    (key value : List UInt8) (reason : Option (List UInt8)) (content : ReplyContent) :
    (s.sendReply (request.addHeader key value) 200 reason content).Gated server :=
  h.sendReply ((SameRequest.rfl.addHeader key value).authorized.mpr hauth) ok_ne_unauthorized
    reason content

/-- The gate's own reply. -/
theorem HttpState.Gated.refuse (h : s.Gated server) {reply : HttpReply}
    (hreply : Refusal server request reply) (lastRequestTs : Nat) :
    HttpState.Gated server { s with lastRequestTs, replies := s.replies ++ [reply] } where
  token := h.token
  snapshots := h.snapshots
  streams := h.streams
  content := by
    intro r hr hcontent
    rcases List.mem_append.mp hr with hold | hnew
    · exact h.content r hold hcontent
    · exact absurd (List.mem_singleton.mp hnew ▸ hreply.content) hcontent
  unauthorized := by
    intro r hr hcode
    rcases List.mem_append.mp hr with hold | hnew
    · exact h.unauthorized r hold hcode
    · rw [List.mem_singleton.mp hnew] at hcode ⊢
      exact fun hauth => hreply.code hcode (hreply.same.authorized.mp hauth)
  streamed := h.streamed

theorem HttpState.Gated.touch (h : s.Gated server) (lastRequestTs : Nat) :
    HttpState.Gated server { s with lastRequestTs } :=
  ⟨h.token, h.snapshots, h.streams, h.content, h.unauthorized, h.streamed⟩

/-- A handler has only to keep the gate for authorized requests. -/
theorem gated_preprocessRequest (h : s.Gated server) (now : ℚ)
    {next : HttpState → EvhttpRequest → HttpState}
    (hnext : ∀ s request', s.Gated server → Authorized server request' →
      (next s request').Gated server) :
    (preprocessRequest server now s request next).Gated server := by
  unfold preprocessRequest
  rcases httpPreprocessRequest_cases h.token now request with
    ⟨reply, heq, hreply⟩ | ⟨request', heq, hsame, hauth⟩
  · rw [heq]
    exact h.refuse hreply _
  · rw [heq]
    exact hnext _ _ (h.touch _) (hsame.authorized.mpr hauth)

/-- And for the others it does nothing at all. -/
theorem onlyRefused_preprocessRequest (h : s.Gated server) (hno : ¬ Authorized server request)
    (now : ℚ) (next : HttpState → EvhttpRequest → HttpState) :
    OnlyRefused s (preprocessRequest server now s request next) := by
  unfold preprocessRequest
  rcases httpPreprocessRequest_cases h.token now request with
    ⟨reply, heq, hreply⟩ | ⟨request', heq, hsame, hauth⟩
  · rw [heq]
    exact ⟨rfl, rfl, rfl, rfl, reply, rfl, hreply.content⟩
  · exact absurd hauth hno

/-! ## 4. The handlers -/

section

variable {lib : Libevent} {env : HttpEnv}

theorem gated_snapshot (h : s.Gated server) :
    (httpCallbackSnapshot server env s request).Gated server := by
  refine gated_preprocessRequest h env.now fun s request' hs hauth => ?_
  refine ⟨hs.token, fun client hclient => ?_, hs.streams, hs.content, hs.unauthorized, hs.streamed⟩
  rcases List.mem_append.mp hclient with hold | hnew
  · exact hs.snapshots client hold
  · exact List.mem_singleton.mp hnew ▸ hauth

theorem gated_stream (h : s.Gated server) :
    (httpCallbackStream server lib env s request).Gated server := by
  refine gated_preprocessRequest h env.now fun s request' hs hauth => ?_
  split
  · refine ⟨hs.token, hs.snapshots, fun client hclient => ?_, hs.content, hs.unauthorized,
      hs.streamed⟩
    rcases List.mem_append.mp hclient with hold | hnew
    · exact hs.streams client hold
    · exact List.mem_singleton.mp hnew ▸ hauth
  · exact hs

/-- An `action` names one of two handlers, or there is none. -/
theorem compatRequest_cases (server : UsServer) (lib : Libevent) (env : HttpEnv) (s : HttpState)
    (request : EvhttpRequest) (next : HttpState → EvhttpRequest → HttpState) :
    compatRequest server lib env s request next = httpCallbackSnapshot server env s request ∨
      compatRequest server lib env s request next = httpCallbackStream server lib env s request ∨
      compatRequest server lib env s request next = next s request := by
  unfold compatRequest httpCheckRunCompatAction
  dsimp only
  by_cases hsnapshot : evhttpFindHeader (lib.parseQuery request.uri) (ascii "action")
      = some (ascii "snapshot")
  · exact .inl (by rw [if_pos hsnapshot])
  · rw [if_neg hsnapshot]
    by_cases hstream : evhttpFindHeader (lib.parseQuery request.uri) (ascii "action")
        = some (ascii "stream")
    · exact .inr (.inl (by rw [if_pos hstream]))
    · exact .inr (.inr (by rw [if_neg hstream]))

/-- The handler that an `action` names passes the gate once more. -/
theorem gated_compatRequest (h : s.Gated server) (request : EvhttpRequest)
    {next : HttpState → EvhttpRequest → HttpState} (hnext : (next s request).Gated server) :
    (compatRequest server lib env s request next).Gated server := by
  rcases compatRequest_cases server lib env s request next with heq | heq | heq
  · rw [heq]
    exact gated_snapshot h
  · rw [heq]
    exact gated_stream h
  · rw [heq]
    exact hnext

theorem gated_static (h : s.Gated server) :
    (httpCallbackStatic server lib env s request).Gated server := by
  refine gated_preprocessRequest h env.now fun s request' hs hauth => ?_
  refine gated_compatRequest hs request' ?_
  split
  · exact hs.sendReply hauth (by decide : 400 ≠ 401) _ _
  · split
    · exact hs.sendReply hauth (by decide : 404 ≠ 401) _ _
    · exact hs.sendContent hauth _ _ _ _

/-- **Every handler keeps the gate.** -/
theorem gated_httpCallback (h : s.Gated server) (route : Route) :
    (httpCallback server lib env s request route).Gated server := by
  cases route with
  | root =>
    refine gated_preprocessRequest h env.now fun s request' hs hauth => ?_
    exact gated_compatRequest hs request' (hs.sendContent hauth _ _ _ _)
  | favicon =>
    exact gated_preprocessRequest h env.now fun s request' hs hauth =>
      hs.sendContent hauth _ _ _ _
  | static => exact gated_static h
  | state =>
    exact gated_preprocessRequest h env.now fun s request' hs hauth =>
      hs.sendContent hauth _ _ _ _
  | snapshot => exact gated_snapshot h
  | stream => exact gated_stream h

/-- **No handler does anything for a request that is not authorized**, but reply. -/
theorem onlyRefused_httpCallback (h : s.Gated server) (hno : ¬ Authorized server request)
    (route : Route) : OnlyRefused s (httpCallback server lib env s request route) := by
  cases route
  all_goals exact onlyRefused_preprocessRequest h hno env.now _

end

end

/-! ## 5. The server at work -/

theorem gated_step {server : UsServer} {lib : Libevent} {s s' : HttpState} (h : s.Gated server)
    {a : HttpAct} (hst : httpStep server lib s a = some s') : s'.Gated server := by
  cases a with
  | request route request env => exact Option.some.inj hst ▸ gated_httpCallback h route
  | exposed =>
    rw [httpStep] at hst
    split at hst
    · exact Option.some.inj hst ▸
        ⟨h.token, h.snapshots, h.streams, h.content, h.unauthorized, h.streamed⟩
    · exact absurd hst (by simp)
  | sendSnapshot i env =>
    obtain ⟨client, hclient, rfl⟩ := Option.map_eq_some_iff.mp hst
    have hauth := h.snapshots client (List.mem_of_getElem? hclient)
    have hauth' : Authorized server (client.request.addSnapshotHeaders env) := hauth
    have hsent := h.sendReply hauth' ok_ne_unauthorized (some (ascii "OK")) .image
    exact ⟨hsent.token, fun c hc => h.snapshots c (List.mem_of_mem_eraseIdx hc), hsent.streams,
      hsent.content, hsent.unauthorized, hsent.streamed⟩
  | streamWrite i =>
    obtain ⟨client, hclient, rfl⟩ := Option.map_eq_some_iff.mp hst
    refine ⟨h.token, h.snapshots, h.streams, h.content, h.unauthorized, fun request hr => ?_⟩
    rcases List.mem_append.mp hr with hold | hnew
    · exact h.streamed request hold
    · exact List.mem_singleton.mp hnew ▸ h.streams client (List.mem_of_getElem? hclient)
  | streamError i =>
    obtain ⟨clients, hclients, rfl⟩ := Option.map_eq_some_iff.mp hst
    refine ⟨h.token, h.snapshots, fun client hc => ?_, h.content, h.unauthorized, h.streamed⟩
    unfold CountedList.remove at hclients
    split at hclients
    · rw [← Option.some.inj hclients] at hc
      exact h.streams client (List.mem_of_mem_eraseIdx hc)
    · exact absurd hclients (by simp)

theorem gated_of_reach {server : UsServer} {lib : Libevent} (huser : server.user.bytes ≠ [])
    {s : HttpState} (hr : (httpSystem server lib).Reach s) : s.Gated server := by
  have hstep : (httpSystem server lib).Preserves (fun _ _ => True) (HttpState.Gated server) :=
    fun s s' a hs _ hst => gated_step hs hst
  refine System.ReachVia.inv ?_ hstep hr
  rintro s ⟨token, htoken, rfl⟩
  rw [usServerListenToken_eq huser] at htoken
  refine ⟨(Option.some.inj htoken).symm, ?_, ?_, ?_, ?_, ?_⟩
  all_goals exact fun x hx => absurd hx List.not_mem_nil

/-- **The gate.**  A server with a user name listens with the token of RFC 4648.  Whatever
happens to it, all that it has registered, sent and streamed is for authorized requests and no
authorized `GET` is answered 401; and a request that is not authorized, on whatever route, gets an
empty reply and has no other effect. -/
theorem http_authentication_gate {server : UsServer} (huser : server.user.bytes ≠ [])
    (lib : Libevent) :
    usServerListenToken server = some (some (basicToken server)) ∧
      ∀ s, (httpSystem server lib).Reach s → s.Gated server ∧
        ∀ route request env, ¬ Authorized server request →
          OnlyRefused s (httpCallback server lib env s request route) := by
  refine ⟨usServerListenToken_eq huser, fun s hr => ?_⟩
  have hgated := gated_of_reach huser hr
  exact ⟨hgated, fun route request env hno => onlyRefused_httpCallback hgated hno route⟩

/-- A server for `user` with the password `pass`. -/
def userPass : UsServer :=
  { usServerInit with user := ⟨ascii "user", by decide⟩, passwd := ⟨ascii "pass", by decide⟩ }

/-- A library that finds no parameters and no escapes. -/
def plainLibevent : Libevent where
  parseQuery := fun _ => []
  encodeUri := percentEncode
  uriPath := fun uri => some (some uri)
  uridecode := fun path => some path

/-- What the system answers at this time, to a request that asks for no more than the clock. -/
def envAt (now : ℚ) : HttpEnv where
  now := now
  nowId := 0
  status := idleStream
  lstat _ := none
  lstatIndex _ := none
  readable _ := false
  fileSize _ := none
  addFile := false

/-- The server's token, and what has been registered when the first request comes. -/
theorem http_authentication_gate_user :
    usServerListenToken userPass = some (some (ascii "Basic dXNlcjpwYXNz")) ∧
      ∀ s, (httpSystem userPass plainLibevent).Reach s → s.Gated userPass := by
  obtain ⟨htoken, hgate⟩ :=
    http_authentication_gate (by decide : userPass.user.bytes ≠ []) plainLibevent
  have htext : basicToken userPass = ascii "Basic dXNlcjpwYXNz" := by decide +kernel
  exact ⟨htext ▸ htoken, fun s hr => (hgate s hr).1⟩

/-! ## 6. The state of a running server -/

section

variable {server : UsServer} {lib : Libevent} {env : HttpEnv} {s s' : HttpState}
  {request : EvhttpRequest}

/-- The clients are as they were, or there is one more. -/
def OneMoreClient (lib : Libevent) (env : HttpEnv) (s s' : HttpState) : Prop :=
  s'.streamClients = s.streamClients ∨
    ∃ request, s'.streamClients = s.streamClients.append (newStreamClient lib env request)

theorem oneMore_preprocessRequest {next : HttpState → EvhttpRequest → HttpState}
    (hnext : ∀ s request, OneMoreClient lib env s (next s request)) :
    OneMoreClient lib env s (preprocessRequest server env.now s request next) := by
  have hsame : (httpPreprocessRequest server env.now s request).1.streamClients
      = s.streamClients := by
    unfold httpPreprocessRequest
    dsimp only
    split_ifs <;> rfl
  unfold preprocessRequest
  split
  · rename_i s1 heq
    rw [heq] at hsame
    exact .inl hsame
  · rename_i s1 request' heq
    rw [heq] at hsame
    unfold OneMoreClient
    rw [← hsame]
    exact hnext s1 request'

theorem oneMore_stream : OneMoreClient lib env s (httpCallbackStream server lib env s request) := by
  refine oneMore_preprocessRequest fun s request' => ?_
  dsimp only
  split
  · exact .inr ⟨request', rfl⟩
  · exact .inl rfl

theorem oneMore_snapshot : OneMoreClient lib env s (httpCallbackSnapshot server env s request) :=
  oneMore_preprocessRequest fun _ _ => .inl rfl

theorem oneMore_compatRequest {next : HttpState → EvhttpRequest → HttpState}
    (hnext : OneMoreClient lib env s (next s request)) :
    OneMoreClient lib env s (compatRequest server lib env s request next) := by
  rcases compatRequest_cases server lib env s request next with heq | heq | heq
  · rw [heq]
    exact oneMore_snapshot
  · rw [heq]
    exact oneMore_stream
  · rw [heq]
    exact hnext

theorem oneMore_httpCallback (route : Route) :
    OneMoreClient lib env s (httpCallback server lib env s request route) := by
  cases route with
  | root => exact oneMore_preprocessRequest fun s request' => oneMore_compatRequest (.inl rfl)
  | favicon => exact oneMore_preprocessRequest fun _ _ => .inl rfl
  | static =>
    refine oneMore_preprocessRequest fun s request' => oneMore_compatRequest ?_
    split
    · exact .inl rfl
    · split
      · exact .inl rfl
      · exact .inl rfl
  | state => exact oneMore_preprocessRequest fun _ _ => .inl rfl
  | snapshot => exact oneMore_snapshot
  | stream => exact oneMore_stream

/-- The keys of all clients have been encoded. -/
theorem keyEncoded_of_reach (hr : (httpSystem server lib).Reach s) :
    ∀ client ∈ s.streamClients.items, KeyEncoded lib.encodeUri client := by
  have hstep : (httpSystem server lib).Preserves (fun _ _ => True)
      fun s => ∀ client ∈ s.streamClients.items, KeyEncoded lib.encodeUri client := by
    intro s s' a h _ hst client hclient
    cases a with
    | request route request env =>
      have hs' : httpCallback server lib env s request route = s' := Option.some.inj hst
      rw [← hs'] at hclient
      have hone : OneMoreClient lib env s (httpCallback server lib env s request route) :=
        oneMore_httpCallback route
      rcases hone with hsame | ⟨request', hmore⟩
      · exact h client (hsame ▸ hclient)
      · rw [hmore] at hclient
        rcases List.mem_append.mp hclient with hold | hnew
        · exact h client hold
        · exact List.mem_singleton.mp hnew ▸ ⟨lib.parseQuery request'.uri, rfl⟩
    | exposed =>
      have hst' : httpStep server lib s .exposed = some s' := hst
      rw [httpStep] at hst'
      split at hst'
      · rw [← Option.some.inj hst'] at hclient
        exact h client hclient
      · exact absurd hst' (by simp)
    | sendSnapshot i env =>
      obtain ⟨c, -, rfl⟩ := Option.map_eq_some_iff.mp hst
      exact h client hclient
    | streamWrite i =>
      obtain ⟨c, -, rfl⟩ := Option.map_eq_some_iff.mp hst
      exact h client hclient
    | streamError i =>
      obtain ⟨clients, hclients, rfl⟩ := Option.map_eq_some_iff.mp hst
      unfold CountedList.remove at hclients
      split at hclients
      · rw [← Option.some.inj hclients] at hclient
        exact h client (List.mem_of_mem_eraseIdx hclient)
      · exact absurd hclients (by simp)
  refine System.ReachVia.inv ?_ hstep hr
  rintro s ⟨token, -, rfl⟩
  exact fun client hclient => absurd hclient List.not_mem_nil

/-- **Whenever the state is asked for it is JSON**, the document of the clients there are. -/
theorem stateBody_of_reach (hr : (httpSystem server lib).Reach s)
    (hencode : ∀ t, UriEncoded (lib.encodeUri t))
    (hid : checkInstanceId server.instanceId = true) (status : StreamStatus) :
    parseJson (stateBody server status s.streamClients)
      = some (stateJson server status s.streamClients) :=
  parseJson_of_isJson (isJson_stateBody hencode hid (keyEncoded_of_reach hr))

end

end TinyPilotKvm
