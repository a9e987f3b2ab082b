/-
# The state document (`_http_callback_state` of `ustreamer/http/server.c`)

The body is printed in pieces: DRM, H.264 and the sinks only where there are any, and the stream's
clients one by one, with a comma behind every client that has a `next`.

Whatever is enabled and whoever is connected, it is a JSON text (`isJson_stateBody`): the instance
id has passed `_check_instance_id` of `ustreamer/options.c`, and the keys of the clients have been
through `evhttp_encode_uri`.
-/
import TinyPilotKvm.Formats.Json
import TinyPilotKvm.Ustreamer.Encoder
import TinyPilotKvm.Ustreamer.Http.Server
import Mathlib.Data.List.Nodup

namespace TinyPilotKvm

/-! ## 1. What is printed -/

/-- What `us_fpsi_get` gives: the rate, and its `us_fpsi_meta_s`. -/
structure FpsiSample where
  fps : Nat
  width : Nat
  height : Nat
  online : Bool

/-- The H.264 sink, with what is configured for its encoder. -/
structure H264Status where
  bitrate : Nat
  gop : Nat
  sample : FpsiSample
  hasClients : Bool

/-- What `_http_callback_state` reads of the stream.  `drm` is `none` in a build without it. -/
structure StreamStatus where
  encType : UsEncoderType
  encQuality : Nat
  drm : Option FpsiSample
  h264Sink : Option H264Status
  jpegSinkHasClients : Option Bool
  captured : FpsiSample
  desiredFps : Nat
  queuedFps : Nat
  clientFps : UsStreamClient → Nat

/-- `us_encoder_type_to_string`. -/
def usEncoderTypeToString : UsEncoderType → List UInt8
  | .cpu => ascii "CPU"
  | .hw => ascii "HW"
  | .m2mVideo => ascii "M2M-VIDEO"
  | .m2mImage => ascii "M2M-IMAGE"

/-- What an instance id is made of: letters, digits and `./+_-`. -/
def isInstanceIdChar (c : UInt8) : Bool :=
  decide (65 ≤ c ∧ c ≤ 90) || decide (97 ≤ c ∧ c ≤ 122) || isDigit c
    || c == 46 || c == 47 || c == 43 || c == 95 || c == 45

/-- `_check_instance_id(str) == 0`. -/
def checkInstanceId (str : CString) : Bool := str.bytes.all isInstanceIdChar

section

variable (server : UsServer) (stream : StreamStatus)

def stateDrm : List UInt8 :=
  match stream.drm with
  | none => []
  | some sample =>
    ascii " \"drm\": \x7b\"live\": " ++ usBoolToString sample.online
      ++ ascii ", \"fps\": " ++ decimal sample.fps ++ ascii "\x7d,"

def stateH264 : List UInt8 :=
  match stream.h264Sink with
  | none => []
  | some sink =>
    ascii " \"h264\": \x7b\"bitrate\": " ++ decimal sink.bitrate
      ++ ascii ", \"gop\": " ++ decimal sink.gop
      ++ ascii ", \"online\": " ++ usBoolToString sink.sample.online
      ++ ascii ", \"fps\": " ++ decimal sink.sample.fps ++ ascii "\x7d,"

def stateSinks : List UInt8 :=
  if stream.jpegSinkHasClients.isSome || stream.h264Sink.isSome then
    ascii " \"sinks\": \x7b"
      ++ (match stream.jpegSinkHasClients with
        | none => []
        | some hasClients =>
          ascii "\"jpeg\": \x7b\"has_clients\": " ++ usBoolToString hasClients ++ ascii "\x7d")
      ++ (match stream.h264Sink with
        | none => []
        | some sink =>
          (if stream.jpegSinkHasClients.isSome then ascii ", " else ascii "")
            ++ ascii "\"h264\": \x7b\"has_clients\": " ++ usBoolToString sink.hasClients
            ++ ascii "\x7d")
      ++ ascii "\x7d,"
  else []

def stateSource (clientsCount : Nat) : List UInt8 :=
  ascii " \"source\": \x7b\"resolution\": \x7b\"width\": "
    ++ decimal (if server.fakeWidth ≠ 0 then server.fakeWidth else stream.captured.width)
    ++ ascii ", \"height\": "
    ++ decimal (if server.fakeHeight ≠ 0 then server.fakeHeight else stream.captured.height)
    ++ ascii "\x7d," ++ ascii " \"online\": " ++ usBoolToString stream.captured.online
    ++ ascii ", \"desired_fps\": " ++ decimal stream.desiredFps
    ++ ascii ", \"captured_fps\": " ++ decimal stream.captured.fps ++ ascii "\x7d,"
    ++ ascii " \"stream\": \x7b\"queued_fps\": " ++ decimal stream.queuedFps
    ++ ascii ", \"clients\": " ++ decimal clientsCount ++ ascii ", \"clients_stat\": \x7b"

/-- One turn of the loop over the clients. -/
def stateClient (client : UsStreamClient) (hasNext : Bool) : List UInt8 :=
  ascii "\"" ++ hex client.id ++ ascii "\": \x7b\"fps\": " ++ decimal (stream.clientFps client)
    ++ ascii ", \"extra_headers\": " ++ usBoolToString client.extraHeaders
    ++ ascii ", \"advance_headers\": " ++ usBoolToString client.advanceHeaders
    ++ ascii "," ++ ascii " \"dual_final_frames\": " ++ usBoolToString client.dualFinalFrames
    ++ ascii ", \"zero_data\": " ++ usBoolToString client.zeroData
    ++ ascii ", \"key\": \"" ++ client.key.getD (ascii "0") ++ ascii "\"\x7d"
    ++ (if hasNext then ascii ", " else ascii "")

/-- The loop over the clients. -/
def stateClients : List UsStreamClient → List UInt8
  | [] => []
  | client :: next => stateClient stream client (!next.isEmpty) ++ stateClients next

/-- The body that `_http_callback_state` sends. -/
def stateBody (clients : CountedList UsStreamClient) : List UInt8 :=
  ascii "\x7b\"ok\": true, \"result\": \x7b" ++ ascii " \"instance_id\": \""
    ++ server.instanceId.bytes ++ ascii "\"," ++ ascii " \"encoder\": \x7b\"type\": \""
    ++ usEncoderTypeToString stream.encType ++ ascii "\", \"quality\": "
    ++ decimal stream.encQuality ++ ascii "\x7d,"
    ++ stateDrm stream ++ stateH264 stream ++ stateSinks stream
    ++ stateSource server stream clients.count
    ++ stateClients stream clients.items ++ ascii "\x7d\x7d\x7d\x7d"

end

/-! ## 2. What it says -/

namespace JsonMember

/-- Members by the kind of their values. -/
def bool (name : String) (b : Bool) : JsonMember := ⟨ascii name, .bool b, usBoolToString b⟩

def nat (name : String) (n : Nat) : JsonMember := ⟨ascii name, .num (decimal n), decimal n⟩

def str (name : String) (t : List UInt8) : JsonMember := ⟨ascii name, .str t, quoted t⟩

def sub (name : List UInt8) (ms : List JsonMember) : JsonMember :=
  ⟨name, object ms, printObject ms⟩

end JsonMember

section

variable (server : UsServer) (stream : StreamStatus)

/-- The entry of a client in `clients_stat`, under its id. -/
def clientMember (client : UsStreamClient) : JsonMember :=
  .sub (hex client.id) [.nat "fps" (stream.clientFps client),
    .bool "extra_headers" client.extraHeaders, .bool "advance_headers" client.advanceHeaders,
    .bool "dual_final_frames" client.dualFinalFrames, .bool "zero_data" client.zeroData,
    .str "key" (client.key.getD (ascii "0"))]

def drmMembers : List JsonMember :=
  match stream.drm with
  | none => []
  | some sample => [.sub (ascii "drm") [.bool "live" sample.online, .nat "fps" sample.fps]]

def h264Members : List JsonMember :=
  match stream.h264Sink with
  | none => []
  | some sink => [.sub (ascii "h264") [.nat "bitrate" sink.bitrate, .nat "gop" sink.gop,
      .bool "online" sink.sample.online, .nat "fps" sink.sample.fps]]

/-- The members of `sinks`. -/
def sinkMembers : List JsonMember :=
  (match stream.jpegSinkHasClients with
    | none => []
    | some hasClients => [.sub (ascii "jpeg") [.bool "has_clients" hasClients]])
  ++ match stream.h264Sink with
    | none => []
    | some sink => [.sub (ascii "h264") [.bool "has_clients" sink.hasClients]]

def sinksMembers : List JsonMember :=
  if sinkMembers stream = [] then [] else [.sub (ascii "sinks") (sinkMembers stream)]

def sourceMember : JsonMember :=
  .sub (ascii "source") [.sub (ascii "resolution")
      [.nat "width" (if server.fakeWidth ≠ 0 then server.fakeWidth else stream.captured.width),
        .nat "height"
          (if server.fakeHeight ≠ 0 then server.fakeHeight else stream.captured.height)],
    .bool "online" stream.captured.online, .nat "desired_fps" stream.desiredFps,
    .nat "captured_fps" stream.captured.fps]

def streamMember (clients : CountedList UsStreamClient) : JsonMember :=
  .sub (ascii "stream") [.nat "queued_fps" stream.queuedFps, .nat "clients" clients.count,
    .sub (ascii "clients_stat") (clients.items.map (clientMember stream))]

/-- The members of `result`, but for the last. -/
def resultMembers : List JsonMember :=
  [.str "instance_id" server.instanceId.bytes,
    .sub (ascii "encoder") [.str "type" (usEncoderTypeToString stream.encType),
      .nat "quality" stream.encQuality]]
  ++ drmMembers stream ++ h264Members stream ++ sinksMembers stream ++ [sourceMember server stream]

end

/-! ## 3. The text is the document's -/

/-- Members that end in commas, with a space before each. -/
def printCommas (ms : List JsonMember) : List UInt8 :=
  (ms.map fun m => 32 :: (m.print ++ [44])).flatten

section

variable {server : UsServer} {stream : StreamStatus}

theorem printCommas_append (ms ms' : List JsonMember) :
    printCommas (ms ++ ms') = printCommas ms ++ printCommas ms' := by
  rw [printCommas, List.map_append, List.flatten_append]
  rfl

theorem stateClient_eq (client : UsStreamClient) (hasNext : Bool) :
    stateClient stream client hasNext
      = (clientMember stream client).print ++ if hasNext then ascii ", " else ascii "" := by
  unfold stateClient
  simp only [clientMember, JsonMember.sub, JsonMember.print, JsonMember.printObject,
    JsonMember.printAll, JsonMember.nat, JsonMember.bool, JsonMember.str, quoted,
    List.append_assoc, List.cons_append, List.nil_append]
  rfl

/-- The loop separates the entries. -/
theorem stateClients_eq : ∀ clients : List UsStreamClient,
    stateClients stream clients = JsonMember.printAll (clients.map (clientMember stream))
  | [] => rfl
  | [client] => by
    rw [stateClients, stateClient_eq, stateClients, List.append_nil]
    exact List.append_nil _
  | client :: client' :: clients => by
    rw [stateClients, stateClient_eq, stateClients_eq (client' :: clients), List.append_assoc]
    rfl

theorem stateDrm_eq : stateDrm stream = printCommas (drmMembers stream) := by
  unfold stateDrm drmMembers
  cases stream.drm with
  | none => rfl
  | some sample =>
    simp only [printCommas, JsonMember.sub, JsonMember.print, JsonMember.printObject,
      JsonMember.printAll, JsonMember.nat, JsonMember.bool, quoted, List.map_cons, List.map_nil,
      List.flatten_cons, List.flatten_nil, List.append_assoc, List.cons_append, List.nil_append]
    rfl

theorem stateH264_eq : stateH264 stream = printCommas (h264Members stream) := by
  unfold stateH264 h264Members
  cases stream.h264Sink with
  | none => rfl
  | some sink =>
    simp only [printCommas, JsonMember.sub, JsonMember.print, JsonMember.printObject,
      JsonMember.printAll, JsonMember.nat, JsonMember.bool, quoted, List.map_cons, List.map_nil,
      List.flatten_cons, List.flatten_nil, List.append_assoc, List.cons_append, List.nil_append]
    rfl

/-- The comma between the two sinks is there when both are. -/
theorem stateSinks_eq : stateSinks stream = printCommas (sinksMembers stream) := by
  unfold stateSinks sinksMembers sinkMembers
  cases stream.jpegSinkHasClients <;> cases stream.h264Sink
  · rfl
  all_goals
    simp only [printCommas, JsonMember.sub, JsonMember.print, JsonMember.printObject,
      JsonMember.printAll, JsonMember.bool, quoted, List.map_cons, List.map_nil,
      List.flatten_cons, List.flatten_nil, List.append_assoc, List.cons_append, List.nil_append,
      Option.isSome, Bool.or_true, Bool.true_or, if_true, reduceCtorEq, if_false]
    rfl

theorem stateSource_eq (clients : CountedList UsStreamClient) :
    stateSource server stream clients.count ++ stateClients stream clients.items ++ ascii "\x7d\x7d"
      = printCommas [sourceMember server stream] ++ 32 :: (streamMember stream clients).print := by
  rw [stateClients_eq]
  unfold stateSource
  simp only [sourceMember, streamMember, printCommas, JsonMember.sub,
    JsonMember.print, JsonMember.printObject, JsonMember.printAll, JsonMember.nat, JsonMember.bool,
    quoted, List.map_cons, List.map_nil, List.flatten_cons, List.flatten_nil, List.append_assoc,
    List.cons_append, List.nil_append]
  rfl

/-- The two outer objects around the members of `result`. -/
def printState (server : UsServer) (stream : StreamStatus) (clients : CountedList UsStreamClient) :
    List UInt8 :=
  123 :: (printCommas (resultMembers server stream)
    ++ 32 :: ((streamMember stream clients).print ++ [125]))

/-- `"result"`, the document's second member. -/
def resultMember (server : UsServer) (stream : StreamStatus)
    (clients : CountedList UsStreamClient) : JsonMember where
  name := ascii "result"
  value := JsonMember.object (resultMembers server stream ++ [streamMember stream clients])
  text := printState server stream clients

/-- The document. -/
def stateJson (server : UsServer) (stream : StreamStatus) (clients : CountedList UsStreamClient) :
    JsonTree :=
  JsonMember.object [.bool "ok" true, resultMember server stream clients]

theorem stateBody_eq (clients : CountedList UsStreamClient) :
    stateBody server stream clients
      = JsonMember.printObject [.bool "ok" true, resultMember server stream clients] := by
  have hend : ascii "\x7d\x7d\x7d\x7d" = ascii "\x7d\x7d" ++ ascii "\x7d\x7d" := rfl
  have hresult : printCommas (resultMembers server stream)
      = printCommas [.str "instance_id" server.instanceId.bytes,
          .sub (ascii "encoder") [.str "type" (usEncoderTypeToString stream.encType),
            .nat "quality" stream.encQuality]]
        ++ (stateDrm stream ++ (stateH264 stream ++ (stateSinks stream
          ++ printCommas [sourceMember server stream]))) := by
    rw [resultMembers, printCommas_append, printCommas_append, printCommas_append,
      printCommas_append, stateDrm_eq, stateH264_eq, stateSinks_eq, List.append_assoc,
      List.append_assoc, List.append_assoc]
  have hsource : stateSource server stream clients.count ++ (stateClients stream clients.items
      ++ (ascii "\x7d\x7d" ++ ascii "\x7d\x7d"))
      = printCommas [sourceMember server stream]
        ++ (32 :: (streamMember stream clients).print ++ ascii "\x7d\x7d") := by
    rw [← List.append_assoc, ← List.append_assoc, stateSource_eq, List.append_assoc]
  unfold stateBody
  rw [hend]
  simp only [List.append_assoc]
  rw [hsource]
  simp only [JsonMember.printObject, JsonMember.printAll, JsonMember.print, resultMember,
    printState, hresult]
  simp only [printCommas, JsonMember.printObject, JsonMember.printAll, JsonMember.print,
    JsonMember.sub, JsonMember.nat, JsonMember.bool, JsonMember.str, quoted, List.map_cons,
    List.map_nil, List.flatten_cons, List.flatten_nil, List.append_assoc, List.cons_append,
    List.nil_append]
  rfl

/-! ## 4. The document is JSON -/

theorem isJsonPlain_hex (c : UInt8) (h : isHexDigit c = true) : isJsonPlain c = true := by
  grind [isHexDigit, isDigit, isJsonPlain]

theorem isJsonPlain_uriHex (c : UInt8) (h : isUriHex c = true) : isJsonPlain c = true := by
  grind [isUriHex, isHexDigit, isDigit, isJsonPlain]

theorem isJsonPlain_unreserved : ∀ c, isUnreserved c = true → isJsonPlain c = true :=
  forall_byte (by decide +kernel)

theorem isJsonPlain_instanceId : ∀ c, isInstanceIdChar c = true → isJsonPlain c = true :=
  forall_byte (by decide +kernel)

/-- An instance id that has passed needs no escapes. -/
theorem isChars_instanceId {str : CString} (h : checkInstanceId str = true) :
    IsChars str.bytes :=
  isChars_of_plain fun c hc => isJsonPlain_instanceId c (List.all_eq_true.mp h c hc)

theorem isChars_uriEncoded {t : List UInt8} (h : UriEncoded t) : IsChars t :=
  isChars_of_plain (h.forall_mem isJsonPlain_unreserved isJsonPlain_uriHex (by decide))

theorem isChars_hex (n : Nat) : IsChars (hex n) :=
  isChars_of_plain fun c hc => isJsonPlain_hex c (isHexDigit_hex n c hc)

/-- A name without anything to escape. -/
theorem isChars_ascii {name : String} (h : (ascii name).all isJsonPlain = true) :
    IsChars (ascii name) :=
  isChars_of_plain (List.all_eq_true.mp h)

theorem isChars_encoderType (type : UsEncoderType) : IsChars (usEncoderTypeToString type) := by
  cases type
  all_goals exact isChars_ascii (by decide)

namespace JsonMember

theorem Ok.bool {name : String} (h : (ascii name).all isJsonPlain = true) (b : Bool) :
    (JsonMember.bool name b).Ok :=
  ⟨isChars_ascii h, isValue_bool b⟩

theorem Ok.nat {name : String} (h : (ascii name).all isJsonPlain = true) (n : Nat) :
    (JsonMember.nat name n).Ok :=
  ⟨isChars_ascii h, isValue_decimal n⟩

theorem Ok.str {name : String} (h : (ascii name).all isJsonPlain = true) {t : List UInt8}
    (ht : IsChars t) : (JsonMember.str name t).Ok :=
  ⟨isChars_ascii h, .str ht⟩

theorem Ok.sub {name : List UInt8} (h : IsChars name) {ms : List JsonMember}
    (hms : ∀ m ∈ ms, m.Ok) : (JsonMember.sub name ms).Ok :=
  ⟨h, isValue_printObject hms⟩

/-- Members with commas behind them, before others. -/
theorem isMembers_printCommas {rest : List (List UInt8 × JsonTree)} {u : List UInt8}
    (hrest : IsMembers rest u) : ∀ {ms : List JsonMember}, (∀ m ∈ ms, m.Ok) →
    IsMembers ((ms.map fun m => (m.name, m.value)) ++ rest) (printCommas ms ++ u)
  | [], _ => hrest
  | m :: ms, hok => by
    obtain ⟨hm, hms⟩ := List.forall_mem_cons.mp hok
    have hcons := isMembers_cons hm (w := [32]) rfl (isMembers_printCommas hrest hms)
    have htext : printCommas (m :: ms) ++ u = [32] ++ (m.print ++ 44 :: (printCommas ms ++ u)) := by
      simp only [printCommas, List.map_cons, List.flatten_cons, List.append_assoc,
        List.cons_append, List.nil_append]
    rw [htext]
    exact hcons

end JsonMember

/-- The key of a client is none, or it has been through `evhttp_encode_uri`. -/
def KeyEncoded (encodeUri : List UInt8 → List UInt8) (client : UsStreamClient) : Prop :=
  ∃ params, client.key = usEvkeyvalqGetString encodeUri params (ascii "key")

variable {encodeUri : List UInt8 → List UInt8}

/-- The key that is shown. -/
theorem isChars_key (hencode : ∀ s, UriEncoded (encodeUri s)) {client : UsStreamClient}
    (h : KeyEncoded encodeUri client) : IsChars (client.key.getD (ascii "0")) := by
  obtain ⟨params, hkey⟩ := h
  rw [hkey, usEvkeyvalqGetString]
  cases evhttpFindHeader params (ascii "key") with
  | none => exact isChars_ascii (by decide)
  | some value => exact isChars_uriEncoded (hencode value)

theorem ok_clientMember (hencode : ∀ s, UriEncoded (encodeUri s)) {client : UsStreamClient}
    (h : KeyEncoded encodeUri client) : (clientMember stream client).Ok := by
  refine .sub (isChars_hex _) ?_
  simp only [List.forall_mem_cons]
  exact ⟨.nat (by decide) _, .bool (by decide) _, .bool (by decide) _,
    .bool (by decide) _, .bool (by decide) _, .str (by decide) (isChars_key hencode h),
    List.forall_mem_nil _⟩

theorem ok_drmMembers : ∀ m ∈ drmMembers stream, m.Ok := by
  unfold drmMembers
  cases stream.drm with
  | none => exact List.forall_mem_nil _
  | some sample =>
    simp only [List.forall_mem_cons]
    refine ⟨.sub (isChars_ascii (by decide)) ?_, List.forall_mem_nil _⟩
    simp only [List.forall_mem_cons]
    exact ⟨.bool (by decide) _, .nat (by decide) _, List.forall_mem_nil _⟩

theorem ok_h264Members : ∀ m ∈ h264Members stream, m.Ok := by
  unfold h264Members
  cases stream.h264Sink with
  | none => exact List.forall_mem_nil _
  | some sink =>
    simp only [List.forall_mem_cons]
    refine ⟨.sub (isChars_ascii (by decide)) ?_, List.forall_mem_nil _⟩
    simp only [List.forall_mem_cons]
    exact ⟨.nat (by decide) _, .nat (by decide) _, .bool (by decide) _, .nat (by decide) _,
      List.forall_mem_nil _⟩

theorem ok_hasClients {name : String} (h : (ascii name).all isJsonPlain = true) (b : Bool) :
    (JsonMember.sub (ascii name) [.bool "has_clients" b]).Ok := by
  refine .sub (isChars_ascii h) ?_
  simp only [List.forall_mem_cons]
  exact ⟨.bool (by decide) _, List.forall_mem_nil _⟩

theorem ok_sinksMembers : ∀ m ∈ sinksMembers stream, m.Ok := by
  unfold sinksMembers
  split
  · exact List.forall_mem_nil _
  · simp only [List.forall_mem_cons]
    refine ⟨.sub (isChars_ascii (by decide)) (List.forall_mem_append.mpr ⟨?_, ?_⟩),
      List.forall_mem_nil _⟩
    · cases stream.jpegSinkHasClients with
      | none => exact List.forall_mem_nil _
      | some b => exact List.forall_mem_singleton.mpr (ok_hasClients (by decide) b)
    · cases stream.h264Sink with
      | none => exact List.forall_mem_nil _
      | some sink => exact List.forall_mem_singleton.mpr (ok_hasClients (by decide) _)

theorem ok_sourceMember : (sourceMember server stream).Ok := by
  refine .sub (isChars_ascii (by decide)) ?_
  simp only [List.forall_mem_cons]
  refine ⟨.sub (isChars_ascii (by decide)) ?_, .bool (by decide) _, .nat (by decide) _,
    .nat (by decide) _, List.forall_mem_nil _⟩
  simp only [List.forall_mem_cons]
  exact ⟨.nat (by decide) _, .nat (by decide) _, List.forall_mem_nil _⟩

theorem ok_resultMembers (hid : checkInstanceId server.instanceId = true) :
    ∀ m ∈ resultMembers server stream, m.Ok := by
  have hencoder : (JsonMember.sub (ascii "encoder") [.str "type"
      (usEncoderTypeToString stream.encType), .nat "quality" stream.encQuality]).Ok := by
    refine .sub (isChars_ascii (by decide)) ?_
    simp only [List.forall_mem_cons]
    exact ⟨.str (by decide) (isChars_encoderType _), .nat (by decide) _, List.forall_mem_nil _⟩
  simp only [resultMembers, List.forall_mem_append, List.forall_mem_cons]
  exact ⟨⟨⟨⟨⟨.str (by decide) (isChars_instanceId hid), hencoder, List.forall_mem_nil _⟩,
    ok_drmMembers⟩, ok_h264Members⟩, ok_sinksMembers⟩, ok_sourceMember, List.forall_mem_nil _⟩

theorem ok_streamMember (hencode : ∀ s, UriEncoded (encodeUri s))
    {clients : CountedList UsStreamClient} (hkeys : ∀ c ∈ clients.items, KeyEncoded encodeUri c) :
    (streamMember stream clients).Ok := by
  refine .sub (isChars_ascii (by decide)) ?_
  simp only [List.forall_mem_cons]
  refine ⟨.nat (by decide) _, .nat (by decide) _, .sub (isChars_ascii (by decide)) ?_,
    List.forall_mem_nil _⟩
  intro m hm
  obtain ⟨client, hclient, rfl⟩ := List.mem_map.mp hm
  exact ok_clientMember hencode (hkeys client hclient)

/-- **The body is a JSON text, the document's.** -/
theorem isJson_stateBody (hencode : ∀ s, UriEncoded (encodeUri s))
    (hid : checkInstanceId server.instanceId = true) {clients : CountedList UsStreamClient}
    (hkeys : ∀ c ∈ clients.items, KeyEncoded encodeUri c) :
    IsJson (stateJson server stream clients) (stateBody server stream clients) := by
  have hstream : (streamMember stream clients).Ok := ok_streamMember hencode hkeys
  have hothers : ∀ m ∈ resultMembers server stream, m.Ok := ok_resultMembers hid
  have hlast := JsonMember.isMembers_one hstream (w := [32]) rfl
  have hall := JsonMember.isMembers_printCommas hlast hothers
  have hresult : (resultMember server stream clients).Ok := by
    refine ⟨isChars_ascii (by decide), ?_⟩
    have hobj := IsValue.obj hall
    rw [List.append_assoc] at hobj
    rw [resultMember, JsonMember.object, List.map_append]
    exact hobj
  have hok : (JsonMember.bool "ok" true).Ok := .bool (by decide) true
  have hdoc := JsonMember.isValue_printObject
    (List.forall_mem_cons.mpr ⟨hok, List.forall_mem_singleton.mpr hresult⟩)
  rw [stateBody_eq]
  exact ⟨[], _, [], rfl, hdoc, rfl, by rw [List.nil_append, List.append_nil]⟩

end

/-! ## 5. Its clients -/

/-- `result.stream.clients_stat`. -/
def JsonTree.clientsStat (doc : JsonTree) : Option JsonTree :=
  ((doc.get? (ascii "result")).bind fun result => result.get? (ascii "stream")).bind fun stream =>
    stream.get? (ascii "clients_stat")

theorem clientsStat_stateJson (server : UsServer) (stream : StreamStatus)
    (clients : CountedList UsStreamClient) :
    (stateJson server stream clients).clientsStat
      = some (JsonMember.object (clients.items.map (clientMember stream))) := by
  unfold stateJson resultMember resultMembers drmMembers h264Members sinksMembers sinkMembers
  cases stream.drm <;> cases stream.h264Sink <;> cases stream.jpegSinkHasClients
  all_goals rfl

/-- **The state document.**  It parses as one object, and its `clients_stat` is an object with as
many entries as `stream_clients_count` says, one under the id of each client. -/
theorem state_document_is_json (server : UsServer) (stream : StreamStatus)
    (clients : CountedList UsStreamClient) {encodeUri : List UInt8 → List UInt8}
    (hencode : ∀ s, UriEncoded (encodeUri s)) (hid : checkInstanceId server.instanceId = true)
    (hkeys : ∀ c ∈ clients.items, KeyEncoded encodeUri c)
    (hdistinct : (clients.items.map fun c => c.id).Nodup) :
    ∃ members entries, parseJson (stateBody server stream clients) = some (.obj members) ∧
      (JsonTree.obj members).clientsStat = some (.obj entries) ∧
      entries.length = clients.count ∧
      entries.map Prod.fst = clients.items.map (fun c => hex c.id) ∧
      (entries.map Prod.fst).Nodup := by
  have hjson : IsJson (stateJson server stream clients) _ := isJson_stateBody hencode hid hkeys
  have hparse := parseJson_of_isJson hjson
  have hstat := clientsStat_stateJson server stream clients
  have hnames : ((clients.items.map (clientMember stream)).map fun m => (m.name, m.value)).map
      Prod.fst = clients.items.map fun c => hex c.id := by
    rw [List.map_map, List.map_map]
    rfl
  refine ⟨_, _, hparse, hstat, ?_, hnames, ?_⟩
  · rw [List.length_map, List.length_map, clients.count_eq]
  · rw [hnames]
    have hinj := List.Nodup.map (fun m n h => hex_injective h) hdistinct
    rwa [List.map_map] at hinj

/-- A client with the key that is given in its query. -/
def clientWithKey (key : CString) (id : Nat) : UsStreamClient where
  request := ⟨.get, ⟨ascii "/stream", by decide⟩, [], [], true⟩
  key := usEvkeyvalqGetString percentEncode [⟨⟨ascii "key", by decide⟩, key⟩] (ascii "key")
  extraHeaders := false
  advanceHeaders := false
  dualFinalFrames := false
  zeroData := false
  id := id
  needInitial := true
  needFirstFrame := true
  updatedPrev := false

theorem keyEncoded_clientWithKey (key : CString) (id : Nat) :
    KeyEncoded percentEncode (clientWithKey key id) :=
  ⟨[⟨⟨ascii "key", by decide⟩, key⟩], rfl⟩

/-- Two of them. -/
def twoClients : CountedList UsStreamClient :=
  (CountedList.empty.append (clientWithKey ⟨ascii "\"", by decide⟩ 10)).append
    (clientWithKey ⟨ascii "k", by decide⟩ 11)

/-- A stream that has captured nothing yet. -/
def idleStream : StreamStatus :=
  ⟨.cpu, 80, none, none, none, ⟨0, 0, 0, false⟩, 0, 0, fun _ => 0⟩

/-- A quote in a key does not end the string that shows it. -/
theorem state_document_is_json_quote :
    ∃ members entries,
      parseJson (stateBody { usServerInit with instanceId := ⟨ascii "a/b", by decide⟩ }
        idleStream twoClients) = some (.obj members) ∧
      (JsonTree.obj members).clientsStat = some (.obj entries) ∧ entries.length = 2 := by
  have hkeys : ∀ c ∈ twoClients.items, KeyEncoded percentEncode c := by
    intro c hc
    rcases List.mem_pair.mp hc with rfl | rfl
    · exact keyEncoded_clientWithKey _ _
    · exact keyEncoded_clientWithKey _ _
  obtain ⟨members, entries, hparse, hstat, hlen, -, -⟩ := state_document_is_json
    { usServerInit with instanceId := ⟨ascii "a/b", by decide⟩ } idleStream twoClients
    uriEncoded_percentEncode (by decide) hkeys (by decide)
  exact ⟨members, entries, hparse, hstat, hlen⟩

end TinyPilotKvm
