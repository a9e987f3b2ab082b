/-
# The MJPEG stream (`_http_callback_stream_write` of `ustreamer/http/server.c`)

One call for every frame.  The first one begins with the head of the response.  With
`advance_headers` the header of a part is sent at the end of the call before, with the head for the
first part, and then without a length: nobody knows the next frame.

What is written, whatever the client has asked for, is a multipart stream
(`stream_is_multipart`): what the calls print, regrouped by parts, is what
`parseMultipart` reads.
-/
import TinyPilotKvm.Formats.Multipart
import TinyPilotKvm.Libs.Frame
import TinyPilotKvm.Ustreamer.Http.Handlers

namespace TinyPilotKvm

/-! ## 1. What one call writes -/

/-- `us_server_exposed_s`, less the counter of queued frames. -/
structure UsServerExposed where
  frame : UsFrame
  dropped : Nat
  exposeBeginTs : ℚ
  exposeCmpTs : ℚ
  exposeEndTs : ℚ

/-- What a call finds: what is exposed, the rate of the client, and the clocks, each time it looks
at them: for the head's `ADD_ADVANCE_HEADERS`, for `X-Timestamp`, for `now_ts`, and for the last
`ADD_ADVANCE_HEADERS`. -/
structure StreamWriteEnv where
  ex : UsServerExposed
  clientFps : Nat
  headReal : ℚ
  partReal : ℚ
  nowTs : ℚ
  nextReal : ℚ

/-- `BOUNDARY`. -/
def streamBoundary : List UInt8 := ascii "boundarydonotcross"

/-- `"name: value" RN`. -/
def headerLine (name : String) (value : List UInt8) : List UInt8 :=
  ascii name ++ ascii ": " ++ value ++ crlf

/-- `ADD_ADVANCE_HEADERS`. -/
def addAdvanceHeaders (nowReal : ℚ) : List UInt8 :=
  headerLine "Content-Type" (ascii "image/jpeg") ++ headerLine "X-Timestamp" (fixed6 nowReal)
    ++ crlf

section

variable (server : UsServer) (client : UsStreamClient)

/-- The CORS headers of the head. -/
def streamCors : List UInt8 :=
  if server.allowOrigin.bytes = [] then []
  else
    headerLine "Access-Control-Allow-Origin" server.allowOrigin.bytes
      ++ headerLine "Access-Control-Allow-Credentials" (ascii "true")
      ++ (match usEvhttpGetHeader client.request (ascii "Access-Control-Request-Headers") with
        | some corsHeaders => headerLine "Access-Control-Allow-Headers" corsHeaders
        | none => [])
      ++ (match usEvhttpGetHeader client.request (ascii "Access-Control-Request-Method") with
        | some corsMethod => headerLine "Access-Control-Allow-Methods" corsMethod
        | none => [])

/-- The value of the head's `Set-Cookie`. -/
def streamCookie : List UInt8 :=
  ascii "stream_client" ++ (if server.instanceId.bytes = [] then ascii "" else ascii "_")
    ++ server.instanceId.bytes ++ ascii "=" ++ client.key.getD (ascii "0") ++ ascii "/"
    ++ hex client.id ++ ascii "; path=/; max-age=30"

/-- The head, with the first delimiter. -/
def streamHead : List UInt8 :=
  ascii "HTTP/1.0 200 OK" ++ crlf ++ streamCors server client
    ++ headerLine "Cache-Control" cacheControl
    ++ headerLine "Pragma" (ascii "no-cache")
    ++ headerLine "Expires" (ascii "Mon, 3 Jan 2000 12:34:56 GMT")
    ++ headerLine "Set-Cookie" (streamCookie server client)
    ++ headerLine "Content-Type" (ascii "multipart/x-mixed-replace;boundary=" ++ streamBoundary)
    ++ crlf ++ ascii "--" ++ streamBoundary ++ crlf

/-- The header of a part with its length. -/
def streamPartHeader (env : StreamWriteEnv) : List UInt8 :=
  headerLine "Content-Type" (ascii "image/jpeg")
    ++ headerLine "Content-Length" (decimal (if client.zeroData then 0 else env.ex.frame.used))
    ++ headerLine "X-Timestamp" (fixed6 env.partReal)
    ++ (if client.extraHeaders then [] else crlf)
    ++ (if client.extraHeaders then
        headerLine "X-UStreamer-Online" (usBoolToString env.ex.frame.online)
          ++ headerLine "X-UStreamer-Dropped" (decimal env.ex.dropped)
          ++ headerLine "X-UStreamer-Width" (decimal env.ex.frame.width)
          ++ headerLine "X-UStreamer-Height" (decimal env.ex.frame.height)
          ++ headerLine "X-UStreamer-Client-FPS" (decimal env.clientFps)
          ++ headerLine "X-UStreamer-Grab-Time" (fixed6 env.ex.frame.grabTs)
          ++ headerLine "X-UStreamer-Encode-Begin-Time" (fixed6 env.ex.frame.encodeBeginTs)
          ++ headerLine "X-UStreamer-Encode-End-Time" (fixed6 env.ex.frame.encodeEndTs)
          ++ headerLine "X-UStreamer-Expose-Begin-Time" (fixed6 env.ex.exposeBeginTs)
          ++ headerLine "X-UStreamer-Expose-Cmp-Time" (fixed6 env.ex.exposeCmpTs)
          ++ headerLine "X-UStreamer-Expose-End-Time" (fixed6 env.ex.exposeEndTs)
          ++ headerLine "X-UStreamer-Send-Time" (fixed6 env.nowTs)
          ++ headerLine "X-UStreamer-Latency" (fixed6 (env.nowTs - env.ex.frame.grabTs))
          ++ crlf
      else [])

/-- The body of a part. -/
def streamBody (env : StreamWriteEnv) : List UInt8 :=
  if client.zeroData then [] else env.ex.frame.bytes

/-- `_http_callback_stream_write`: the client afterwards, and what has been written. -/
def httpCallbackStreamWrite (env : StreamWriteEnv) : UsStreamClient × List UInt8 :=
  ({ client with needInitial := false },
    (if client.needInitial then
        streamHead server client
          ++ (if client.advanceHeaders then addAdvanceHeaders env.headReal else [])
      else [])
      ++ (if client.advanceHeaders then [] else streamPartHeader client env)
      ++ streamBody client env
      ++ crlf ++ ascii "--" ++ streamBoundary ++ crlf
      ++ (if client.advanceHeaders then addAdvanceHeaders env.nextReal else []))

end

/-- What is written to a client by one call after the other. -/
def writeStream (server : UsServer) : UsStreamClient → List StreamWriteEnv → List UInt8
  | _, [] => []
  | client, env :: envs =>
    let (client, written) := httpCallbackStreamWrite server client env
    written ++ writeStream server client envs

/-! ## 2. The fields that are printed -/

theorem printFields_named (name : String) (value : List UInt8) (fs : List Field) :
    printFields (.named name value :: fs) = headerLine name value ++ printFields fs := by
  rw [printFields_cons, headerLine]
  simp only [List.append_assoc]
  rfl

def advanceFields (nowReal : ℚ) : List Field :=
  [.named "Content-Type" (ascii "image/jpeg"), .named "X-Timestamp" (fixed6 nowReal)]

def extraFields (env : StreamWriteEnv) : List Field :=
  [.named "X-UStreamer-Online" (usBoolToString env.ex.frame.online),
    .named "X-UStreamer-Dropped" (decimal env.ex.dropped),
    .named "X-UStreamer-Width" (decimal env.ex.frame.width),
    .named "X-UStreamer-Height" (decimal env.ex.frame.height),
    .named "X-UStreamer-Client-FPS" (decimal env.clientFps),
    .named "X-UStreamer-Grab-Time" (fixed6 env.ex.frame.grabTs),
    .named "X-UStreamer-Encode-Begin-Time" (fixed6 env.ex.frame.encodeBeginTs),
    .named "X-UStreamer-Encode-End-Time" (fixed6 env.ex.frame.encodeEndTs),
    .named "X-UStreamer-Expose-Begin-Time" (fixed6 env.ex.exposeBeginTs),
    .named "X-UStreamer-Expose-Cmp-Time" (fixed6 env.ex.exposeCmpTs),
    .named "X-UStreamer-Expose-End-Time" (fixed6 env.ex.exposeEndTs),
    .named "X-UStreamer-Send-Time" (fixed6 env.nowTs),
    .named "X-UStreamer-Latency" (fixed6 (env.nowTs - env.ex.frame.grabTs))]

section

variable (server : UsServer) (client : UsStreamClient)

def sizedFields (env : StreamWriteEnv) : List Field :=
  [.named "Content-Type" (ascii "image/jpeg"),
    .named "Content-Length" (decimal (streamBody client env).length),
    .named "X-Timestamp" (fixed6 env.partReal)]
    ++ if client.extraHeaders then extraFields env else []

def corsFields : List Field :=
  if server.allowOrigin.bytes = [] then []
  else
    [.named "Access-Control-Allow-Origin" server.allowOrigin.bytes,
      .named "Access-Control-Allow-Credentials" (ascii "true")]
      ++ ((usEvhttpGetHeader client.request (ascii "Access-Control-Request-Headers")).toList.map
        (.named "Access-Control-Allow-Headers"))
      ++ ((usEvhttpGetHeader client.request (ascii "Access-Control-Request-Method")).toList.map
        (.named "Access-Control-Allow-Methods"))

def headFields : List Field :=
  corsFields server client ++
    [.named "Cache-Control" cacheControl,
      .named "Pragma" (ascii "no-cache"),
      .named "Expires" (ascii "Mon, 3 Jan 2000 12:34:56 GMT"),
      .named "Set-Cookie" (streamCookie server client),
      .named "Content-Type" (ascii "multipart/x-mixed-replace;boundary=" ++ streamBoundary)]

theorem addAdvanceHeaders_eq (nowReal : ℚ) :
    addAdvanceHeaders nowReal = printFields (advanceFields nowReal) ++ crlf := by
  simp only [addAdvanceHeaders, advanceFields, printFields_named, printFields_nil, List.append_nil]

theorem length_streamBody (env : StreamWriteEnv) :
    (streamBody client env).length = if client.zeroData then 0 else env.ex.frame.used := by
  rw [streamBody]
  split
  · rfl
  · exact List.length_take_of_le env.ex.frame.used_le

theorem streamPartHeader_eq (env : StreamWriteEnv) :
    streamPartHeader client env = printFields (sizedFields client env) ++ crlf := by
  unfold streamPartHeader sizedFields
  rw [length_streamBody, printFields_append]
  cases client.extraHeaders with
  | true =>
    simp only [if_true, extraFields, printFields_named, printFields_nil, List.append_assoc,
      List.nil_append]
  | false =>
    simp only [Bool.false_eq_true, if_false, printFields_named, printFields_nil,
      List.append_assoc, List.append_nil]

theorem streamCors_eq : streamCors server client = printFields (corsFields server client) := by
  unfold streamCors corsFields
  split
  · rfl
  · rw [printFields_append, printFields_append]
    cases usEvhttpGetHeader client.request (ascii "Access-Control-Request-Headers") <;>
      cases usEvhttpGetHeader client.request (ascii "Access-Control-Request-Method") <;>
      simp only [Option.toList, List.map_cons, List.map_nil, printFields_named, printFields_nil,
        List.append_assoc, List.append_nil]

theorem streamHead_eq :
    streamHead server client = ascii "HTTP/1.0 200 OK" ++ (crlf
      ++ (printFields (headFields server client) ++ (crlf ++ dashLine streamBoundary))) := by
  simp only [streamHead, headFields, streamCors_eq, printFields_append, printFields_named,
    printFields_nil, dashLine, List.append_assoc, List.append_nil]

end

/-! ## 3. They can be printed -/

theorem noLf_of_forall {p : UInt8 → Bool} {t : List UInt8} (h : ∀ c ∈ t, p c = true)
    (hp : p 10 = false) : (10 : UInt8) ∉ t := by
  intro hm
  rw [h 10 hm] at hp
  exact absurd hp (by decide)

theorem noLf_append {a b : List UInt8} (ha : (10 : UInt8) ∉ a) (hb : (10 : UInt8) ∉ b) :
    (10 : UInt8) ∉ a ++ b := by
  intro hm
  rcases List.mem_append.mp hm with hm | hm
  · exact ha hm
  · exact hb hm

theorem noLf_decimal (n : Nat) : (10 : UInt8) ∉ decimal n :=
  noLf_of_forall (isDigit_decimal n) rfl

theorem noLf_hex (n : Nat) : (10 : UInt8) ∉ hex n := noLf_of_forall (isHexDigit_hex n) rfl

theorem noLf_fixed6 (x : ℚ) : (10 : UInt8) ∉ fixed6 x := by
  unfold fixed6
  refine noLf_append (noLf_append (noLf_append (noLf_append ?_ (noLf_decimal _)) (by decide)) ?_)
    (noLf_decimal _)
  · split <;> decide
  · intro hm
    exact absurd (List.eq_of_mem_replicate hm) (by decide)

theorem noLf_usBoolToString (flag : Bool) : (10 : UInt8) ∉ usBoolToString flag := by
  cases flag <;> decide

theorem noLf_uriEncoded {t : List UInt8} (h : UriEncoded t) : (10 : UInt8) ∉ t := by
  have hall : ∀ c ∈ t, c ≠ 10 := h.forall_mem (by grind [isUnreserved, isDigit])
    (by grind [isUriHex, isHexDigit, isDigit]) (by decide)
  intro hm
  exact hall 10 hm rfl

theorem ok_advanceFields (nowReal : ℚ) : ∀ f ∈ advanceFields nowReal, f.Ok := by
  simp only [advanceFields, List.forall_mem_cons]
  exact ⟨Field.Ok.named (by decide) (by decide), Field.Ok.named (by decide) (noLf_fixed6 _),
    List.forall_mem_nil _⟩

theorem ok_extraFields (env : StreamWriteEnv) : ∀ f ∈ extraFields env, f.Ok := by
  have hnat : ∀ n, (10 : UInt8) ∉ decimal n := noLf_decimal
  have htime : ∀ x, (10 : UInt8) ∉ fixed6 x := noLf_fixed6
  simp only [extraFields, List.forall_mem_cons]
  refine ⟨.named (by decide) (noLf_usBoolToString _), .named (by decide) (hnat _),
    .named (by decide) (hnat _), .named (by decide) (hnat _), .named (by decide) (hnat _),
    .named (by decide) (htime _), .named (by decide) (htime _),
    .named (by decide) (htime _), .named (by decide) (htime _),
    .named (by decide) (htime _), .named (by decide) (htime _),
    .named (by decide) (htime _), .named (by decide) (htime _), List.forall_mem_nil _⟩

section

variable {server : UsServer} {client : UsStreamClient}

theorem ok_sizedFields (env : StreamWriteEnv) : ∀ f ∈ sizedFields client env, f.Ok := by
  unfold sizedFields
  rw [List.forall_mem_append]
  constructor
  · simp only [List.forall_mem_cons]
    exact ⟨.named (by decide) (by decide), .named (by decide) (noLf_decimal _),
      .named (by decide) (noLf_fixed6 _), List.forall_mem_nil _⟩
  · split
    · exact ok_extraFields env
    · exact List.forall_mem_nil _

/-- What the head shows of the configuration and of the request has no line breaks. -/
structure NoLineBreaks (server : UsServer) (client : UsStreamClient) : Prop where
  allowOrigin : (10 : UInt8) ∉ server.allowOrigin.bytes
  instanceId : (10 : UInt8) ∉ server.instanceId.bytes
  request : ∀ h ∈ client.request.inputHeaders, (10 : UInt8) ∉ h.value.bytes

theorem NoLineBreaks.header (h : NoLineBreaks server client) {key value : List UInt8}
    (hvalue : usEvhttpGetHeader client.request key = some value) : (10 : UInt8) ∉ value := by
  rw [usEvhttpGetHeader, evhttpFindHeader] at hvalue
  obtain ⟨header, hheader, rfl⟩ := Option.map_eq_some_iff.mp hvalue
  exact h.request header (List.mem_of_find?_eq_some hheader)

theorem ok_corsFields (h : NoLineBreaks server client) : ∀ f ∈ corsFields server client, f.Ok := by
  have hheader : ∀ {name : String}, isFieldName (ascii name) = true → ∀ key,
      ∀ f ∈ (usEvhttpGetHeader client.request key).toList.map (Field.named name), f.Ok := by
    intro name hname key f hf
    obtain ⟨value, hvalue, rfl⟩ := List.mem_map.mp hf
    exact .named hname (h.header (Option.mem_toList.mp hvalue))
  unfold corsFields
  split
  · exact List.forall_mem_nil _
  · rw [List.forall_mem_append, List.forall_mem_append]
    refine ⟨⟨?_, hheader (by decide) _⟩, hheader (by decide) _⟩
    simp only [List.forall_mem_cons]
    exact ⟨.named (by decide) h.allowOrigin, .named (by decide) (by decide), List.forall_mem_nil _⟩

theorem noLf_streamCookie (h : NoLineBreaks server client)
    (hkey : (10 : UInt8) ∉ client.key.getD (ascii "0")) :
    (10 : UInt8) ∉ streamCookie server client := by
  have hunderscore :
      (10 : UInt8) ∉ if server.instanceId.bytes = [] then ascii "" else ascii "_" := by
    split <;> decide
  unfold streamCookie
  refine noLf_append (noLf_append (noLf_append (noLf_append (noLf_append (noLf_append (noLf_append
    (by decide) hunderscore) h.instanceId) (by decide)) hkey) (by decide)) (noLf_hex _)) (by decide)

theorem ok_headFields (h : NoLineBreaks server client)
    (hkey : (10 : UInt8) ∉ client.key.getD (ascii "0")) : ∀ f ∈ headFields server client, f.Ok := by
  unfold headFields
  rw [List.forall_mem_append]
  refine ⟨ok_corsFields h, ?_⟩
  simp only [List.forall_mem_cons]
  exact ⟨.named (by decide) (by decide), .named (by decide) (by decide),
    .named (by decide) (by decide), .named (by decide) (noLf_streamCookie h hkey),
    .named (by decide) (by decide), List.forall_mem_nil _⟩

theorem noLf_key {encodeUri : List UInt8 → List UInt8} (hencode : ∀ s, UriEncoded (encodeUri s))
    (h : KeyEncoded encodeUri client) : (10 : UInt8) ∉ client.key.getD (ascii "0") := by
  obtain ⟨params, hkey⟩ := h
  rw [hkey, usEvkeyvalqGetString]
  cases evhttpFindHeader params (ascii "key") with
  | none =>
    have hzero : (10 : UInt8) ∉ ascii "0" := by decide
    exact hzero
  | some value => exact noLf_uriEncoded (hencode value)

/-! ## 4. Their values -/

theorem contentLength_advanceFields (nowReal : ℚ) :
    fieldValue (advanceFields nowReal) "Content-Length" = none := by
  rw [advanceFields, fieldValue_named_other (by decide), fieldValue_named_other (by decide),
    fieldValue_nil]

theorem contentLength_sizedFields (env : StreamWriteEnv) :
    fieldValue (sizedFields client env) "Content-Length"
      = some (decimal (streamBody client env).length) := by
  unfold sizedFields
  rw [List.cons_append, fieldValue_named_other (by decide), List.cons_append,
    fieldValue_named_same]

theorem contentType_corsFields : fieldValue (corsFields server client) "Content-Type" = none := by
  unfold corsFields
  split
  · exact fieldValue_nil _
  · rw [fieldValue_append, fieldValue_append, fieldValue_named_other (by decide),
      fieldValue_named_other (by decide), fieldValue_nil]
    cases usEvhttpGetHeader client.request (ascii "Access-Control-Request-Headers") <;>
      cases usEvhttpGetHeader client.request (ascii "Access-Control-Request-Method") <;>
      simp only [Option.toList, List.map_cons, List.map_nil, fieldValue_nil, Option.or_none,
        fieldValue_named_other (show asciiCaseEq (ascii "Access-Control-Allow-Headers")
          (ascii "Content-Type") = false by decide),
        fieldValue_named_other (show asciiCaseEq (ascii "Access-Control-Allow-Methods")
          (ascii "Content-Type") = false by decide)]

theorem boundary_headFields :
    ((fieldValue (headFields server client) "Content-Type").map (List.dropWhile isOws)).bind
      boundaryParam = some streamBoundary := by
  unfold headFields
  rw [fieldValue_append, contentType_corsFields, Option.none_or, fieldValue_named_other (by decide),
    fieldValue_named_other (by decide), fieldValue_named_other (by decide),
    fieldValue_named_other (by decide), fieldValue_named_same]
  decide

end

/-! ## 5. Runs -/

section

variable {server : UsServer} {client : UsStreamClient}

/-- The client that has had its head. -/
def UsStreamClient.started (client : UsStreamClient) : UsStreamClient :=
  { client with needInitial := false }

/-- The first call writes the head, and then what it would write without. -/
theorem writeStream_initial (h : client.needInitial = true) (env : StreamWriteEnv)
    (envs : List StreamWriteEnv) :
    writeStream server client (env :: envs) = streamHead server client
      ++ ((if client.advanceHeaders then addAdvanceHeaders env.headReal else [])
        ++ writeStream server client.started (env :: envs)) := by
  simp only [writeStream, httpCallbackStreamWrite, h, if_true, List.append_assoc]
  rfl

theorem httpCallbackStreamWrite_started (env : StreamWriteEnv) :
    httpCallbackStreamWrite server client.started env = (client.started,
      (if client.advanceHeaders then [] else streamPartHeader client env) ++ streamBody client env
        ++ crlf ++ ascii "--" ++ streamBoundary ++ crlf
        ++ (if client.advanceHeaders then addAdvanceHeaders env.nextReal else [])) := rfl

/-- A later call of a client without advance headers. -/
theorem writeStream_sized_cons (hadvance : client.advanceHeaders = false) (env : StreamWriteEnv)
    (envs : List StreamWriteEnv) :
    writeStream server client.started (env :: envs) = streamPartHeader client env
      ++ (streamBody client env ++ (delimiter streamBoundary
        ++ writeStream server client.started envs)) := by
  rw [writeStream, httpCallbackStreamWrite_started, hadvance]
  simp only [Bool.false_eq_true, if_false, delimiter, dashLine, List.append_assoc, List.nil_append]

/-- A later call of a client with advance headers: the header it ends with is the next part's. -/
theorem writeStream_advance_cons (hadvance : client.advanceHeaders = true) (env : StreamWriteEnv)
    (envs : List StreamWriteEnv) :
    writeStream server client.started (env :: envs) = streamBody client env
      ++ (delimiter streamBoundary ++ (addAdvanceHeaders env.nextReal
        ++ writeStream server client.started envs)) := by
  rw [writeStream, httpCallbackStreamWrite_started, hadvance]
  simp only [if_true, delimiter, dashLine, List.append_assoc, List.nil_append]

/-- The part that a call writes with its length. -/
def sizedPart (client : UsStreamClient) (env : StreamWriteEnv) : Part :=
  ⟨sizedFields client env, streamBody client env⟩

theorem writeStream_sized (hadvance : client.advanceHeaders = false) :
    ∀ envs : List StreamWriteEnv, writeStream server client.started envs
      = printParts streamBoundary (envs.map (sizedPart client))
  | [] => rfl
  | env :: envs => by
    rw [writeStream_sized_cons hadvance, streamPartHeader_eq, writeStream_sized hadvance envs]
    simp only [printParts, List.map_cons, List.flatten_cons, printPart, sizedPart,
      List.append_assoc]

/-- The parts under the headers that have been sent before them, `nowReal` being the time of the
first. -/
def advanceParts (client : UsStreamClient) : ℚ → List StreamWriteEnv → List Part
  | _, [] => []
  | nowReal, env :: envs =>
    ⟨advanceFields nowReal, streamBody client env⟩ :: advanceParts client env.nextReal envs

/-- The time in the last header, which has no part yet. -/
def lastReal : ℚ → List StreamWriteEnv → ℚ
  | nowReal, [] => nowReal
  | _, env :: envs => lastReal env.nextReal envs

theorem writeStream_advance (hadvance : client.advanceHeaders = true) :
    ∀ envs nowReal, addAdvanceHeaders nowReal ++ writeStream server client.started envs
      = printParts streamBoundary (advanceParts client nowReal envs)
        ++ addAdvanceHeaders (lastReal nowReal envs)
  | [], nowReal => List.append_nil _
  | env :: envs, nowReal => by
    rw [writeStream_advance_cons hadvance, writeStream_advance hadvance envs, addAdvanceHeaders_eq]
    simp only [advanceParts, lastReal, printParts, List.map_cons, List.flatten_cons, printPart,
      List.append_assoc]

/-! ## 6. The stream is a multipart stream -/

theorem ok_sizedPart (env : StreamWriteEnv) : (sizedPart client env).Ok streamBoundary where
  fields_ok := ok_sizedFields env
  length_ok := by
    intro v hv
    rw [sizedPart, contentLength_sizedFields] at hv
    exact (Option.some.inj hv).symm
  noBoundary := by
    intro hno
    rw [sizedPart, contentLength_sizedFields] at hno
    exact absurd hno (Option.some_ne_none _)

theorem ok_advancePart {env : StreamWriteEnv}
    (hframe : ¬ streamBoundary <:+: env.ex.frame.bytes) (nowReal : ℚ) :
    Part.Ok streamBoundary ⟨advanceFields nowReal, streamBody client env⟩ where
  fields_ok := ok_advanceFields nowReal
  length_ok := by
    intro v hv
    rw [contentLength_advanceFields] at hv
    exact absurd hv.symm (Option.some_ne_none _)
  noBoundary := by
    intro _
    have hempty : ¬ streamBoundary <:+: [] := by decide
    unfold streamBody
    split
    · exact hempty
    · exact hframe

theorem ok_advanceParts : ∀ {envs : List StreamWriteEnv},
    (∀ env ∈ envs, ¬ streamBoundary <:+: env.ex.frame.bytes) →
      ∀ nowReal, ∀ p ∈ advanceParts client nowReal envs, p.Ok streamBoundary
  | [], _, _ => List.forall_mem_nil _
  | _ :: _, hframes, nowReal => by
    obtain ⟨hframe, hrest⟩ := List.forall_mem_cons.mp hframes
    exact List.forall_mem_cons.mpr ⟨ok_advancePart hframe nowReal, ok_advanceParts hrest _⟩

theorem body_advanceParts : ∀ (envs : List StreamWriteEnv) (nowReal : ℚ),
    (advanceParts client nowReal envs).map (fun p => p.body) = envs.map (streamBody client)
  | [], _ => rfl
  | _ :: envs, _ => congrArg _ (body_advanceParts envs _)

theorem fields_advanceParts : ∀ (envs : List StreamWriteEnv) (nowReal : ℚ),
    ∀ p ∈ advanceParts client nowReal envs, ∃ t, p.fields = advanceFields t
  | [], _ => List.forall_mem_nil _
  | _ :: envs, _ => List.forall_mem_cons.mpr ⟨⟨_, rfl⟩, fields_advanceParts envs _⟩

/-- The names of the fields of a part: its header block, once. -/
def partNames (client : UsStreamClient) : List String :=
  ["Content-Type"] ++ (if client.advanceHeaders then [] else ["Content-Length"]) ++ ["X-Timestamp"]
    ++ if client.extraHeaders && !client.advanceHeaders then
        ["X-UStreamer-Online", "X-UStreamer-Dropped", "X-UStreamer-Width", "X-UStreamer-Height",
          "X-UStreamer-Client-FPS", "X-UStreamer-Grab-Time", "X-UStreamer-Encode-Begin-Time",
          "X-UStreamer-Encode-End-Time", "X-UStreamer-Expose-Begin-Time",
          "X-UStreamer-Expose-Cmp-Time", "X-UStreamer-Expose-End-Time", "X-UStreamer-Send-Time",
          "X-UStreamer-Latency"]
      else []

/-- The stream as it is to be read: one part for every frame, in order, with the frame as its body,
one header block and, where it has a length, the right one; and nothing behind the last part but the
header of the next. -/
structure ShowsFrames (client : UsStreamClient) (envs : List StreamWriteEnv) (m : Multipart) :
    Prop where
  statusLine : m.statusLine = ascii "HTTP/1.0 200 OK"
  boundary : m.boundary = streamBoundary
  bodies : m.parts.map (fun p => p.body)
    = envs.map fun env => if client.zeroData then [] else env.ex.frame.bytes
  names : ∀ p ∈ m.parts, p.fields.map (fun f => f.name) = (partNames client).map ascii
  contentLength : ∀ p ∈ m.parts, ∀ v, fieldValue p.fields "Content-Length" = some v →
    readDecimal v = some p.body.length
  tail : if client.advanceHeaders then
      ∃ fields, headerBlock m.tail = .done fields [] ∧
        fields.map (fun f => f.name) = (partNames client).map ascii
    else m.tail = []

theorem names_trim (fs : List Field) :
    (fs.map Field.trim).map (fun f => f.name) = fs.map fun f => f.name := by
  rw [List.map_map]
  rfl

theorem names_sizedFields (hadvance : client.advanceHeaders = false) (env : StreamWriteEnv) :
    (sizedFields client env).map (fun f => f.name) = (partNames client).map ascii := by
  unfold sizedFields partNames
  rw [hadvance]
  cases client.extraHeaders <;> rfl

theorem names_advanceFields (hadvance : client.advanceHeaders = true) (nowReal : ℚ) :
    (advanceFields nowReal).map (fun f => f.name) = (partNames client).map ascii := by
  unfold partNames
  rw [hadvance, Bool.not_true, Bool.and_false]
  rfl

/-- What is read of parts that show the frames. -/
theorem showsFrames_of_parts {envs : List StreamWriteEnv} {fs : List Field} {ps : List Part}
    {tail : List UInt8} (hok : ∀ p ∈ ps, p.Ok streamBoundary)
    (hbodies : ps.map (fun p => p.body) = envs.map (streamBody client))
    (hnames : ∀ p ∈ ps, p.fields.map (fun f => f.name) = (partNames client).map ascii)
    (htail : if client.advanceHeaders then
        ∃ fields, headerBlock tail = .done fields [] ∧
          fields.map (fun f => f.name) = (partNames client).map ascii
      else tail = []) :
    ShowsFrames client envs
      ⟨ascii "HTTP/1.0 200 OK", fs, streamBoundary, ps.map Part.trim, tail⟩ where
  statusLine := rfl
  boundary := rfl
  bodies := by
    rw [List.map_map]
    exact hbodies
  names := by
    intro p' hp'
    obtain ⟨p, hp, rfl⟩ := List.mem_map.mp hp'
    exact (names_trim p.fields).trans (hnames p hp)
  contentLength := by
    intro p' hp' v hv
    obtain ⟨p, hp, rfl⟩ := List.mem_map.mp hp'
    rw [Part.trim, fieldValue_trim] at hv
    obtain ⟨w, hw, rfl⟩ := Option.map_eq_some_iff.mp hv
    rw [(hok p hp).length_ok w hw, dropWhile_decimal, readDecimal_decimal]
    rfl
  tail := htail

/-- Parts behind the head are read back. -/
theorem parse_writeStream (hlines : NoLineBreaks server client)
    (hkey : (10 : UInt8) ∉ client.key.getD (ascii "0")) (hnew : client.needInitial = true)
    {env : StreamWriteEnv} {envs : List StreamWriteEnv} {ps : List Part} {tail : List UInt8}
    (htext : (if client.advanceHeaders then addAdvanceHeaders env.headReal else [])
      ++ writeStream server client.started (env :: envs) = printParts streamBoundary ps ++ tail)
    (hps : ∀ p ∈ ps, p.Ok streamBoundary) (htail : parsePart streamBoundary tail = .incomplete) :
    parseMultipart (writeStream server client (env :: envs)) = some ⟨ascii "HTTP/1.0 200 OK",
      (headFields server client).map Field.trim, streamBoundary, ps.map Part.trim, tail⟩ := by
  have hstatus : (10 : UInt8) ∉ ascii "HTTP/1.0 200 OK" := by decide
  have hhttp : ascii "HTTP/" <+: ascii "HTTP/1.0 200 OK" := by decide
  have hparse := parseMultipart_print hstatus hhttp (ok_headFields hlines hkey)
    boundary_headFields (by decide) hps htail
  rw [writeStream_initial hnew, htext, streamHead_eq]
  simp only [List.append_assoc]
  exact hparse

/-- **The stream is a multipart stream**, whatever the client has asked for and whatever frames have
been written to it. -/
theorem stream_is_multipart (server : UsServer) (client : UsStreamClient)
    {encodeUri : List UInt8 → List UInt8} (hencode : ∀ s, UriEncoded (encodeUri s))
    (hkey : KeyEncoded encodeUri client) (hlines : NoLineBreaks server client)
    (hnew : client.needInitial = true) (envs : List StreamWriteEnv)
    (hframes : client.advanceHeaders = true →
      ∀ env ∈ envs, ¬ streamBoundary <:+: env.ex.frame.bytes) :
    (envs = [] → writeStream server client envs = []) ∧
      (envs ≠ [] → ∃ m, parseMultipart (writeStream server client envs) = some m ∧
        ShowsFrames client envs m) := by
  have hkeyLf := noLf_key hencode hkey
  constructor
  · rintro rfl
    rfl
  · intro hne
    obtain ⟨env, rest, rfl⟩ := List.exists_cons_of_ne_nil hne
    cases hadvance : client.advanceHeaders with
    | false =>
      have htext : writeStream server _ _ = _ := writeStream_sized hadvance (env :: rest)
      have hok : ∀ p ∈ (env :: rest).map (sizedPart client), p.Ok streamBoundary := by
        intro p hp
        obtain ⟨e, -, rfl⟩ := List.mem_map.mp hp
        exact ok_sizedPart e
      refine ⟨_, parse_writeStream hlines hkeyLf hnew ?_ hok (parsePart_nil _),
        showsFrames_of_parts hok ?_ ?_ ?_⟩
      · rw [hadvance, List.append_nil]
        exact htext
      · rw [List.map_map]
        rfl
      · intro p hp
        obtain ⟨e, -, rfl⟩ := List.mem_map.mp hp
        exact names_sizedFields hadvance e
      · rw [hadvance]
        rfl
    | true =>
      have htext : _ ++ writeStream server _ _ = _ :=
        writeStream_advance hadvance (env :: rest) env.headReal
      have hok : ∀ p ∈ advanceParts client env.headReal (env :: rest), p.Ok streamBoundary :=
        ok_advanceParts (hframes hadvance) env.headReal
      have htail : parsePart streamBoundary
          (addAdvanceHeaders (lastReal env.headReal (env :: rest))) = .incomplete := by
        rw [addAdvanceHeaders_eq]
        exact parsePart_header (ok_advanceFields _) (contentLength_advanceFields _) _
      refine ⟨_, parse_writeStream hlines hkeyLf hnew ?_ hok htail,
        showsFrames_of_parts hok ?_ ?_ ?_⟩
      · rw [hadvance, if_pos rfl]
        exact htext
      · exact body_advanceParts _ _
      · intro p hp
        obtain ⟨t, ht⟩ := fields_advanceParts _ _ p hp
        rw [ht]
        exact names_advanceFields hadvance t
      · have hblock := headerBlock_print (ok_advanceFields (lastReal env.headReal (env :: rest))) []
        rw [List.append_nil, ← addAdvanceHeaders_eq] at hblock
        rw [hadvance, if_pos rfl]
        exact ⟨_, hblock, (names_trim _).trans (names_advanceFields hadvance _)⟩

end

/-- One frame. -/
def writeEnv (bytes : List UInt8) : StreamWriteEnv where
  ex := ⟨.ofBytes .zero bytes, 0, 0, 0, 0⟩
  clientFps := 0
  headReal := 0
  partReal := 0
  nowTs := 0
  nextReal := 0

/-- A client with advance headers. -/
def advanceClient : UsStreamClient :=
  { clientWithKey ⟨ascii "a b", by decide⟩ 10 with advanceHeaders := true }

/-- Two frames from a server for all origins; the second looks like a delimiter for four bytes. -/
theorem stream_is_multipart_advance :
    ∃ m, parseMultipart (writeStream { usServerInit with allowOrigin := ⟨ascii "*", by decide⟩ }
        advanceClient [writeEnv [255, 216, 255, 217], writeEnv [13, 10, 45, 45]]) = some m ∧
      m.parts.map (fun p => p.body) = [[255, 216, 255, 217], [13, 10, 45, 45]] := by
  have hkey : KeyEncoded percentEncode advanceClient :=
    keyEncoded_clientWithKey ⟨ascii "a b", by decide⟩ 10
  have hlines : NoLineBreaks { usServerInit with allowOrigin := ⟨ascii "*", by decide⟩ }
      advanceClient := ⟨by decide, by decide, List.forall_mem_nil _⟩
  obtain ⟨m, hparse, hshows⟩ := (stream_is_multipart
    { usServerInit with allowOrigin := ⟨ascii "*", by decide⟩ } advanceClient
    uriEncoded_percentEncode hkey hlines rfl
    [writeEnv [255, 216, 255, 217], writeEnv [13, 10, 45, 45]] (by decide)).2 (List.cons_ne_nil _ _)
  exact ⟨m, hparse, hshows.bodies⟩

end TinyPilotKvm
