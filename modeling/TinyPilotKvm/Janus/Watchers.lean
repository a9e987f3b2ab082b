/-
# The clients of the Janus plugin and its three flags (`janus/src/plugin.c`)

The threads of the plugin idle unless somebody needs them: `_g_has_watchers` is for the video,
`_g_has_listeners` for the captured audio and `_g_has_speakers` for the playback.  The flags repeat
what is in the list of clients.  Four handlers change the list, and each sets the flags it thinks
of:

* a new session sets `_g_has_watchers`, although its client does not transmit yet;
* the end of a session computes all three from the clients that stay;
* `setup_media` and `hangup_media` compute `_g_has_watchers`;
* a `watch` message computes the other two.

The handlers hold all locks of the plugin, so each is one step.  `flagsAgree_of_events` is the
result: no handler forgets a flag.
-/
import Mathlib.Data.List.Basic

namespace TinyPilotKvm

/-! ## 1. State -/

/-- `us_janus_client_s`, less what its own threads use. -/
structure UsJanusClient where
  session : Nat
  transmit : Bool
  transmitAcap : Bool
  transmitAplay : Bool
  videoOrient : Nat
  deriving DecidableEq

/-- `us_janus_client_init`. -/
def usJanusClientInit (session : Nat) : UsJanusClient := ⟨session, false, false, false, 0⟩

/-- The globals of the plugin that the handlers use. -/
structure JanusPlugin where
  clients : List UsJanusClient
  /-- `_g_rtpa` is not null: there is audio to capture. -/
  rtpa : Bool
  /-- `_g_config->aplay_dev_name` is not null. -/
  aplayDevName : Bool
  ready : Bool
  stop : Bool
  hasWatchers : Bool
  hasListeners : Bool
  hasSpeakers : Bool
  keyRequired : Bool
  deriving DecidableEq

/-- The plugin after `_plugin_init`, with what the configuration gives it. -/
def janusPluginInit (rtpa aplayDevName : Bool) : JanusPlugin where
  clients := []
  rtpa := rtpa
  aplayDevName := aplayDevName
  ready := true
  stop := false
  hasWatchers := false
  hasListeners := false
  hasSpeakers := false
  keyRequired := false

/-- `json_t`. -/
inductive JsonT
  | object (fields : List (String × JsonT))
  | array (items : List JsonT)
  | string (s : String)
  | integer (n : Int)
  | real
  | boolean (b : Bool)
  | null

/-- `json_object_get`; `none` is the null pointer, also for what is no object. -/
def JsonT.get? : JsonT → String → Option JsonT
  | .object fields, key => fields.lookup key
  | _, _ => none

/-- `json_string_value`. -/
def JsonT.stringValue? : JsonT → Option String
  | .string s => some s
  | _ => none

/-! ## 2. Sessions -/

/-- `_IF_DISABLED`. -/
def JanusPlugin.disabled (g : JanusPlugin) : Bool := !g.ready || g.stop

/-- `_plugin_create_session`, with the `*err` it sets. -/
def pluginCreateSession (g : JanusPlugin) (session : Nat) : JanusPlugin × Option Int :=
  if g.disabled then (g, some (-1))
  else ({ g with clients := g.clients ++ [usJanusClientInit session], hasWatchers := true }, none)

/-- The variables of the loop of `_plugin_destroy_session`, with the list as it is so far. -/
structure DestroyVars where
  clients : List UsJanusClient
  found : Bool
  hasWatchers : Bool
  hasListeners : Bool
  hasSpeakers : Bool

def destroyTurn (session : Nat) (v : DestroyVars) (client : UsJanusClient) : DestroyVars :=
  if client.session = session then { v with found := true }
  else
    { v with
      clients := v.clients ++ [client]
      hasWatchers := v.hasWatchers || client.transmit
      hasListeners := v.hasListeners || client.transmitAcap
      hasSpeakers := v.hasSpeakers || client.transmitAplay }

/-- `_plugin_destroy_session`, with the `*err` it sets. -/
def pluginDestroySession (g : JanusPlugin) (session : Nat) : JanusPlugin × Option Int :=
  if g.disabled then (g, some (-1))
  else
    let v := g.clients.foldl (destroyTurn session) ⟨[], false, false, false, false⟩
    ({ g with
      clients := v.clients
      hasWatchers := v.hasWatchers
      hasListeners := v.hasListeners
      hasSpeakers := v.hasSpeakers }, if v.found then none else some (-2))

/-- The variables of the loop of `_set_transmit`. -/
structure TransmitVars where
  clients : List UsJanusClient
  found : Bool
  hasWatchers : Bool

def transmitTurn (session : Nat) (transmit : Bool) (v : TransmitVars) (client : UsJanusClient) :
    TransmitVars :=
  let client' := if client.session = session then { client with transmit := transmit } else client
  { clients := v.clients ++ [client']
    found := v.found || client.session = session
    hasWatchers := v.hasWatchers || client'.transmit }

/-- `_set_transmit`; whether the session is found is only logged. -/
def setTransmit (g : JanusPlugin) (session : Nat) (transmit : Bool) : JanusPlugin :=
  if g.disabled then g
  else
    let v := g.clients.foldl (transmitTurn session transmit) ⟨[], false, false⟩
    { g with clients := v.clients, hasWatchers := v.hasWatchers }

/-- `_plugin_setup_media`. -/
def pluginSetupMedia (g : JanusPlugin) (session : Nat) : JanusPlugin := setTransmit g session true

/-- `_plugin_hangup_media`. -/
def pluginHangupMedia (g : JanusPlugin) (session : Nat) : JanusPlugin := setTransmit g session false

/-! ## 3. Messages -/

/-- What a `watch` message asks for. -/
structure WatchParams where
  withAcap : Bool
  withAplay : Bool
  videoOrient : Nat
  deriving DecidableEq

/-- `video_orient` of an `orientation`, an integer that becomes a `uint`. -/
def videoOrientOf (n : Int) : Nat :=
  let orient := (n % 4294967296).toNat
  if orient = 90 ∨ orient = 180 ∨ orient = 270 then orient else 0

/-- The parameters of a `watch` message. -/
def watchParams (g : JanusPlugin) (msg : JsonT) : WatchParams :=
  match msg.get? "params" with
  | none => ⟨false, false, 0⟩
  | some params =>
    let withAcap := match params.get? "audio" with
      | some (.boolean b) => g.rtpa && b
      | _ => false
    let withAplay := match params.get? "mic" with
      | some (.boolean b) => g.aplayDevName && withAcap && b
      | _ => false
    let videoOrient := match params.get? "orientation" with
      | some (.integer n) => videoOrientOf n
      | _ => 0
    ⟨withAcap, withAplay, videoOrient⟩

/-- The variables of the loop over the clients, in the handler of a `watch` message. -/
structure WatchVars where
  clients : List UsJanusClient
  hasListeners : Bool
  hasSpeakers : Bool

def watchTurn (session : Nat) (p : WatchParams) (v : WatchVars) (client : UsJanusClient) :
    WatchVars :=
  let client' := if client.session = session then
      { client with
        transmitAcap := p.withAcap
        transmitAplay := p.withAplay
        videoOrient := p.videoOrient }
    else client
  { clients := v.clients ++ [client']
    hasListeners := v.hasListeners || client'.transmitAcap
    hasSpeakers := v.hasSpeakers || client'.transmitAplay }

/-- The last block of the `watch` branch. -/
def watchClients (g : JanusPlugin) (session : Nat) (p : WatchParams) : JanusPlugin :=
  let v := g.clients.foldl (watchTurn session p) ⟨[], false, false⟩
  { g with clients := v.clients, hasListeners := v.hasListeners, hasSpeakers := v.hasSpeakers }

/-- An event that is pushed to the session: an error, or a status with what belongs to it. -/
inductive JanusPush
  | error (code : Nat) (reason : String)
  | status (status : String)
  /-- `started` with an SDP offer, for these parameters. -/
  | offer (p : WatchParams)
  | features (audio mic : Bool)
  deriving DecidableEq

/-- `_plugin_handle_message`: the result message is set if the call is refused. -/
structure HandledMessage where
  plugin : JanusPlugin
  resultMsg : Option String
  pushed : List JanusPush

/-- `_plugin_handle_message`. -/
def pluginHandleMessage (g : JanusPlugin) (session : Option Nat) (msg : Option JsonT) :
    HandledMessage :=
  match session, msg with
  | none, some _ => ⟨g, some "No session", []⟩
  | _, none => ⟨g, some "No message", []⟩
  | some session, some msg =>
    match msg.get? "request" with
    | none => ⟨g, none, [.error 400 "Request missing"]⟩
    | some request =>
      match request.stringValue? with
      | none => ⟨g, none, [.error 400 "Request not a string"]⟩
      | some requestStr =>
        if requestStr = "start" then ⟨g, none, [.status "started"]⟩
        else if requestStr = "stop" then ⟨g, none, [.status "stopped"]⟩
        else if requestStr = "watch" then
          let p := watchParams g msg
          ⟨watchClients g session p, none, [.offer p]⟩
        else if requestStr = "features" then
          ⟨g, none, [.features g.rtpa (g.rtpa && g.aplayDevName)]⟩
        else if requestStr = "key_required" then ⟨{ g with keyRequired := true }, none, []⟩
        else ⟨g, none, [.error 405 "Not implemented"]⟩

/-! ## 4. Events -/

inductive JanusEvent
  | createSession (session : Nat)
  | destroySession (session : Nat)
  | setupMedia (session : Nat)
  | hangupMedia (session : Nat)
  | message (session : Option Nat) (msg : Option JsonT)
  /-- `_plugin_destroy` has begun. -/
  | stop

def janusStep (g : JanusPlugin) : JanusEvent → JanusPlugin
  | .createSession session => (pluginCreateSession g session).1
  | .destroySession session => (pluginDestroySession g session).1
  | .setupMedia session => pluginSetupMedia g session
  | .hangupMedia session => pluginHangupMedia g session
  | .message session msg => (pluginHandleMessage g session msg).plugin
  | .stop => { g with stop := true }

/-! ## 5. What the loops compute -/

theorem foldl_destroyTurn (session : Nat) (cs : List UsJanusClient) : ∀ v : DestroyVars,
    cs.foldl (destroyTurn session) v =
      let others := cs.filter fun c => c.session ≠ session
      ⟨v.clients ++ others, v.found || cs.any fun c => c.session = session,
        v.hasWatchers || others.any (·.transmit), v.hasListeners || others.any (·.transmitAcap),
        v.hasSpeakers || others.any (·.transmitAplay)⟩ := by
  induction cs with
  | nil =>
    intro v
    simp
  | cons c cs ih =>
    intro v
    rw [List.foldl_cons, ih, destroyTurn]
    by_cases hc : c.session = session
    · simp [hc]
    · simp [hc, Bool.or_assoc]

/-- A client of the session, or another. -/
def withTransmit (session : Nat) (transmit : Bool) (c : UsJanusClient) : UsJanusClient :=
  if c.session = session then { c with transmit := transmit } else c

theorem transmitAcap_withTransmit (session : Nat) (transmit : Bool) (c : UsJanusClient) :
    (withTransmit session transmit c).transmitAcap = c.transmitAcap := by
  unfold withTransmit
  split <;> rfl

theorem transmitAplay_withTransmit (session : Nat) (transmit : Bool) (c : UsJanusClient) :
    (withTransmit session transmit c).transmitAplay = c.transmitAplay := by
  unfold withTransmit
  split <;> rfl

theorem foldl_transmitTurn (session : Nat) (transmit : Bool) (cs : List UsJanusClient) :
    ∀ v : TransmitVars,
    cs.foldl (transmitTurn session transmit) v =
      let cs' := cs.map (withTransmit session transmit)
      ⟨v.clients ++ cs', v.found || cs.any fun c => c.session = session,
        v.hasWatchers || cs'.any (·.transmit)⟩ := by
  induction cs with
  | nil =>
    intro v
    simp
  | cons c cs ih =>
    intro v
    rw [List.foldl_cons, ih]
    simp [transmitTurn, withTransmit, Bool.or_assoc]

/-- A client that the message is from, or another. -/
def watched (session : Nat) (p : WatchParams) (c : UsJanusClient) : UsJanusClient :=
  if c.session = session then
    { c with
      transmitAcap := p.withAcap
      transmitAplay := p.withAplay
      videoOrient := p.videoOrient }
  else c

theorem transmit_watched (session : Nat) (p : WatchParams) (c : UsJanusClient) :
    (watched session p c).transmit = c.transmit := by
  unfold watched
  split <;> rfl

theorem foldl_watchTurn (session : Nat) (p : WatchParams) (cs : List UsJanusClient) :
    ∀ v : WatchVars,
    cs.foldl (watchTurn session p) v =
      let cs' := cs.map (watched session p)
      ⟨v.clients ++ cs', v.hasListeners || cs'.any (·.transmitAcap),
        v.hasSpeakers || cs'.any (·.transmitAplay)⟩ := by
  induction cs with
  | nil =>
    intro v
    simp
  | cons c cs ih =>
    intro v
    rw [List.foldl_cons, ih]
    simp [watchTurn, watched, Bool.or_assoc]

/-! ## 6. The flags -/

/-- **The flags agree with the clients.** -/
structure FlagsAgree (g : JanusPlugin) : Prop where
  watchers : ∀ c ∈ g.clients, c.transmit = true → g.hasWatchers = true
  listeners : g.hasListeners = g.clients.any (·.transmitAcap)
  speakers : g.hasSpeakers = g.clients.any (·.transmitAplay)

theorem flagsAgree_init (rtpa aplayDevName : Bool) :
    FlagsAgree (janusPluginInit rtpa aplayDevName) :=
  ⟨fun _ hc => absurd hc List.not_mem_nil, rfl, rfl⟩

variable {g : JanusPlugin}

/-- A new client transmits nothing. -/
theorem FlagsAgree.createSession (h : FlagsAgree g) (session : Nat) :
    FlagsAgree (pluginCreateSession g session).1 := by
  unfold pluginCreateSession
  split
  · exact h
  · refine ⟨fun _ _ _ => rfl, ?_, ?_⟩
    · simp [h.listeners, usJanusClientInit]
    · simp [h.speakers, usJanusClientInit]

/-- All flags are those of the clients that stay. -/
theorem FlagsAgree.destroySession (h : FlagsAgree g) (session : Nat) :
    FlagsAgree (pluginDestroySession g session).1 := by
  unfold pluginDestroySession
  split
  · exact h
  · rw [foldl_destroyTurn]
    refine ⟨fun c hc ht => ?_, by simp, by simp⟩
    simp only [List.nil_append, Bool.false_or, List.any_eq_true] at hc ⊢
    exact ⟨c, hc, ht⟩

/-- The audio flags of no client change. -/
theorem FlagsAgree.setTransmit (h : FlagsAgree g) (session : Nat) (transmit : Bool) :
    FlagsAgree (setTransmit g session transmit) := by
  unfold TinyPilotKvm.setTransmit
  split
  · exact h
  · rw [foldl_transmitTurn]
    refine ⟨fun c hc ht => ?_, ?_, ?_⟩
    · simp only [List.nil_append, Bool.false_or, List.any_eq_true] at hc ⊢
      exact ⟨c, hc, ht⟩
    · simp only [h.listeners, List.nil_append, List.any_map, Function.comp_def,
        transmitAcap_withTransmit]
    · simp only [h.speakers, List.nil_append, List.any_map, Function.comp_def,
        transmitAplay_withTransmit]

/-- No client begins or ends to transmit video. -/
theorem FlagsAgree.watchClients (h : FlagsAgree g) (session : Nat) (p : WatchParams) :
    FlagsAgree (watchClients g session p) := by
  unfold TinyPilotKvm.watchClients
  rw [foldl_watchTurn]
  refine ⟨fun c hc ht => ?_, by simp, by simp⟩
  simp only [List.nil_append, List.mem_map] at hc
  obtain ⟨c', hc', rfl⟩ := hc
  rw [transmit_watched] at ht
  exact h.watchers c' hc' ht

theorem FlagsAgree.handleMessage (h : FlagsAgree g) (session : Option Nat) (msg : Option JsonT) :
    FlagsAgree (pluginHandleMessage g session msg).plugin := by
  unfold pluginHandleMessage
  split
  · exact h
  · exact h
  · rename_i session msg
    split
    · exact h
    · split
      · exact h
      · split_ifs
        · exact h
        · exact h
        · exact h.watchClients session (watchParams g msg)
        · exact h
        · exact ⟨h.watchers, h.listeners, h.speakers⟩
        · exact h

/-- **One event**, one case for each. -/
theorem FlagsAgree.step (h : FlagsAgree g) (e : JanusEvent) : FlagsAgree (janusStep g e) := by
  cases e with
  | createSession session => exact h.createSession session
  | destroySession session => exact h.destroySession session
  | setupMedia session => exact h.setTransmit session true
  | hangupMedia session => exact h.setTransmit session false
  | message session msg => exact h.handleMessage session msg
  | stop => exact ⟨h.watchers, h.listeners, h.speakers⟩

/-- **After every sequence of events** the flags agree with the clients. -/
theorem flagsAgree_of_events (rtpa aplayDevName : Bool) (events : List JanusEvent) :
    FlagsAgree (events.foldl janusStep (janusPluginInit rtpa aplayDevName)) :=
  List.foldlRecOn events janusStep (flagsAgree_init rtpa aplayDevName)
    fun _ h e _ => h.step e

end TinyPilotKvm
