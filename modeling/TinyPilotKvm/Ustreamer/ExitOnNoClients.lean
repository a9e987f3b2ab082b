/-
# Exit on no clients (`ustreamer/stream.c`)

With `--exit-on-no-clients N` every iteration of the stream's loops ends in `_stream_check_suicide`:
if no client is to be seen, and the last request is more than N seconds back, the process
terminates itself.  The time of the last request is an `atomic_ullong`: a request, an iteration that
sees a client and the termination itself store the clock in it, cut to whole seconds, and the
seconds are compared with the clock as it is.  So up to one second of the N is missing.

The clock is read before it is stored, the time of the last request is loaded before the clients
are looked for, and **between any two of these accesses the HTTP server may go on**.  So a request
may be stored and at once overwritten by an older time, or come when the time is loaded already.

`exitSystem` is the HTTP server of `Http/Handlers.lean`, the servers of the sinks, and the loop.
Each reading of the clock and each access to `last_request_ts` is a step of its own, and so is each
look at a flag; what else a callback of libevent does is one step, and each check of a sink is.
-/
import TinyPilotKvm.Libs.Memsink
import TinyPilotKvm.Ustreamer.Http.Gate

namespace TinyPilotKvm

/-! ## 1. The code -/

/-- What `_stream_check_suicide` reads: the HTTP side of the stream, and its sinks.  `drm` says that
the stream has a display. -/
structure ExitStream where
  http : HttpState
  jpegSink : Option UsMemsink
  rawSink : Option UsMemsink
  h264Sink : Option UsMemsink
  drm : Bool

/-- `x_sink != NULL && atomic_load(&x_sink->has_clients)`. -/
def sinkHasClients (sink : Option UsMemsink) : Bool := sink.any (·.hasClients)

/-- `_stream_has_jpeg_clients_cached`. -/
def streamHasJpegClientsCached (stream : ExitStream) : Bool :=
  stream.http.hasClients || decide (stream.http.snapshotRequested > 0)
    || sinkHasClients stream.jpegSink

/-- `_stream_has_any_clients_cached`. -/
def streamHasAnyClientsCached (stream : ExitStream) : Bool :=
  streamHasJpegClientsCached stream || sinkHasClients stream.h264Sink
    || sinkHasClients stream.rawSink || stream.drm

/-- `atomic_store(&run->http->last_request_ts, now)`. -/
def ExitStream.storeRequestTs (stream : ExitStream) (now : ℚ) : ExitStream :=
  { stream with http := { stream.http with lastRequestTs := toUll now } }

/-- `_stream_check_suicide`; the flag says that it has called `us_process_suicide`. -/
def streamCheckSuicide (exitOnNoClients : Nat) (stream : ExitStream) (now : ℚ) :
    ExitStream × Bool :=
  if exitOnNoClients = 0 then (stream, false)
  else
    let httpLastRequestTs := stream.http.lastRequestTs
    if streamHasAnyClientsCached stream then (stream.storeRequestTs now, false)
    else if ((httpLastRequestTs + exitOnNoClients : Nat) : ℚ) < now then
      (stream.storeRequestTs now, true)
    else (stream, false)

/-! ## 2. The stream and its clients -/

/-- The three sinks. -/
inductive StreamSink
  | jpeg
  | raw
  | h264

def ExitStream.sink (stream : ExitStream) : StreamSink → Option UsMemsink
  | .jpeg => stream.jpegSink
  | .raw => stream.rawSink
  | .h264 => stream.h264Sink

def ExitStream.setSink (stream : ExitStream) (sink : UsMemsink) : StreamSink → ExitStream
  | .jpeg => { stream with jpegSink := some sink }
  | .raw => { stream with rawSink := some sink }
  | .h264 => { stream with h264Sink := some sink }

/-- The operands of `_stream_has_any_clients_cached`; each of them loads by itself. -/
inductive ClientLook
  | http
  | snapshot
  | jpegSink
  | h264Sink
  | rawSink
  | drm
  deriving DecidableEq

def ClientLook.sees (stream : ExitStream) : ClientLook → Bool
  | .http => stream.http.hasClients
  | .snapshot => decide (stream.http.snapshotRequested > 0)
  | .jpegSink => sinkHasClients stream.jpegSink
  | .h264Sink => sinkHasClients stream.h264Sink
  | .rawSink => sinkHasClients stream.rawSink
  | .drm => stream.drm

/-- In their order. -/
def clientLooks : List ClientLook := [.http, .snapshot, .jpegSink, .h264Sink, .rawSink, .drm]

theorem any_clientLooks (stream : ExitStream) :
    clientLooks.any (·.sees stream) = streamHasAnyClientsCached stream := by
  simp only [clientLooks, List.any_cons, List.any_nil, ClientLook.sees, streamHasAnyClientsCached,
    streamHasJpegClientsCached, Bool.or_false, Bool.or_assoc]

/-- Where the loop is. -/
inductive ExitLoopPc
  /-- `us_stream_loop` has not begun. -/
  | idle
  /-- Between two calls of `_stream_check_suicide`. -/
  | between
  /-- Before `atomic_load(&run->http->last_request_ts)`. -/
  | load (nowTs : ℚ)
  /-- Before the looks `rest`, or behind them all before the comparison. -/
  | look (nowTs : ℚ) (httpLastRequestTs : Nat) (rest : List ClientLook)
  /-- Before `atomic_store(&run->http->last_request_ts, now_ts)`. -/
  | store (nowTs : ℚ)
  deriving DecidableEq

/-- Where the HTTP server is. -/
inductive RequestPc
  | idle
  /-- `_http_preprocess_request` has read the clock and not stored it yet. -/
  | read (now : ℚ)
  | stored
  deriving DecidableEq

/-- What happens: time passes, `us_stream_loop` begins, it comes to `_stream_check_suicide`, and it
goes on to its next access; a request comes, its time is stored, libevent calls back; and a sink is
checked or written by its thread. -/
inductive ExitAct
  | tick (now : ℚ)
  | loop
  | check
  | advance
  | request
  | requestStore
  | http (act : HttpAct)
  | sinkCheck (sink : StreamSink) (mem : UsMemsinkShared) (frame : Option UsFrame) (lock : Flock)
      (unlocked : Bool)
  | sinkPut (sink : StreamSink) (mem : UsMemsinkShared) (frame : UsFrame) (lock : Flock)
      (unlocked : Bool) (id : UInt64)

/-- A stream, its loop, its HTTP server and the clock; and the history: the last HTTP request, the
last look that has found a client, the reading of the clock that was stored last, and the one that
the loop has loaded last. -/
structure ExitState where
  stream : ExitStream
  pc : ExitLoopPc
  request : RequestPc
  clock : ℚ
  lastRequest : Option ℚ
  lastSeen : Option ℚ
  stored : ℚ
  loaded : ℚ

/-- The reading `now` of the clock is stored. -/
def ExitState.storeRequestTs (s : ExitState) (now : ℚ) : ExitState :=
  { s with stream := s.stream.storeRequestTs now, stored := now }

section

variable (server : UsServer) (lib : Libevent) (exitOnNoClients : Nat)

/-- The next access of the loop; the comparison goes with `us_process_suicide`, which follows it. -/
def loopAdvance (s : ExitState) : Option ExitState :=
  match s.pc with
  | .idle | .between => none
  | .load nowTs => some { s with
      pc := .look nowTs s.stream.http.lastRequestTs clientLooks
      loaded := s.stored }
  | .look nowTs httpLastRequestTs (look :: rest) =>
    if look.sees s.stream then some { s with pc := .store nowTs, lastSeen := some s.clock }
    else some { s with pc := .look nowTs httpLastRequestTs rest }
  | .look nowTs httpLastRequestTs [] =>
    if ((httpLastRequestTs + exitOnNoClients : Nat) : ℚ) < nowTs then
      some { s with pc := .store nowTs }
    else some { s with pc := .between }
  | .store nowTs => some { s.storeRequestTs nowTs with pc := .between }

/-- The clock does not go back. -/
def exitStep (s : ExitState) : ExitAct → Option ExitState
  | .tick now => if s.clock ≤ now then some { s with clock := now } else none
  | .loop => if s.pc = .idle then some { s with pc := .store s.clock } else none
  | .check =>
    if s.pc = .between then
      some { s with pc := if exitOnNoClients = 0 then .between else .load s.clock }
    else none
  | .advance => loopAdvance exitOnNoClients s
  | .request =>
    match s.request with
    | .read _ => none
    -- a request of the old kind is preprocessed a second time
    | .idle | .stored => some { s with request := .read s.clock, lastRequest := some s.clock }
  | .requestStore =>
    match s.request with
    | .read now => some { s.storeRequestTs now with request := .stored }
    | .idle | .stored => none
  | .http (.request route request env) =>
    -- the rest of the callback; its `atomic_store` has been the step before
    if s.request = .stored then
      some { s with
        stream := { s.stream with
          http := { httpCallback server lib env s.stream.http request route with
            lastRequestTs := s.stream.http.lastRequestTs } }
        request := .idle }
    else none
  | .http act =>
    if s.request = .idle then
      (httpStep server lib s.stream.http act).map fun http =>
        { s with stream := { s.stream with http := http } }
    else none
  | .sinkCheck sink mem frame lock unlocked => (s.stream.sink sink).map fun memsink =>
      let checked := usMemsinkServerCheck memsink mem frame lock unlocked s.clock
      { s with stream := s.stream.setSink checked.2 sink }
  | .sinkPut sink mem frame lock unlocked id => (s.stream.sink sink).map fun memsink =>
      let put := usMemsinkServerPut memsink mem frame lock unlocked id s.clock
      { s with stream := s.stream.setSink put.sink sink }

/-- A stream from `us_stream_init` on, with any sinks, and its HTTP server. -/
def exitSystem : System ExitState ExitAct where
  start s := (httpSystem server lib).start s.stream.http ∧ s.pc = .idle ∧ s.request = .idle ∧
    s.clock = 0 ∧ s.lastRequest = none ∧ s.lastSeen = none ∧ s.stored = 0 ∧ s.loaded = 0
  step := exitStep server lib exitOnNoClients

end

/-! ## 3. The time of the last request -/

section

variable {server : UsServer} {lib : Libevent} {env : HttpEnv}

/-- `_http_preprocess_request` stores the clock, whatever comes of the request. -/
theorem httpPreprocessRequest_lastRequestTs (s : HttpState) (request : EvhttpRequest) (now : ℚ) :
    (httpPreprocessRequest server now s request).1.lastRequestTs = toUll now := by
  unfold httpPreprocessRequest
  dsimp only
  split
  · rfl
  · split
    · rfl
    · split <;> rfl

theorem preprocessRequest_lastRequestTs (s : HttpState) (request : EvhttpRequest) (now : ℚ)
    {next : HttpState → EvhttpRequest → HttpState}
    (hnext : ∀ s request, s.lastRequestTs = toUll now →
      (next s request).lastRequestTs = toUll now) :
    (preprocessRequest server now s request next).lastRequestTs = toUll now := by
  have hstored : (httpPreprocessRequest server now s request).1.lastRequestTs = toUll now :=
    httpPreprocessRequest_lastRequestTs s request now
  unfold preprocessRequest
  split
  · rename_i heq
    rw [heq] at hstored
    exact hstored
  · rename_i heq
    rw [heq] at hstored
    exact hnext _ _ hstored

theorem snapshot_lastRequestTs (s : HttpState) (request : EvhttpRequest) :
    (httpCallbackSnapshot server env s request).lastRequestTs = toUll env.now :=
  preprocessRequest_lastRequestTs s request env.now fun _ _ hs => hs

theorem stream_lastRequestTs (s : HttpState) (request : EvhttpRequest) :
    (httpCallbackStream server lib env s request).lastRequestTs = toUll env.now := by
  refine preprocessRequest_lastRequestTs s request env.now fun s request hs => ?_
  split
  · exact hs
  · exact hs

theorem compatRequest_lastRequestTs {s : HttpState} {request : EvhttpRequest}
    {next : HttpState → EvhttpRequest → HttpState}
    (hnext : (next s request).lastRequestTs = toUll env.now) :
    (compatRequest server lib env s request next).lastRequestTs = toUll env.now := by
  rcases compatRequest_cases server lib env s request next with heq | heq | heq
  · rw [heq]
    exact snapshot_lastRequestTs s request
  · rw [heq]
    exact stream_lastRequestTs s request
  · rw [heq]
    exact hnext

theorem httpCallback_lastRequestTs (s : HttpState) (request : EvhttpRequest) (route : Route) :
    (httpCallback server lib env s request route).lastRequestTs = toUll env.now := by
  cases route with
  | root =>
    exact preprocessRequest_lastRequestTs s request env.now fun s request hs =>
      compatRequest_lastRequestTs hs
  | favicon => exact preprocessRequest_lastRequestTs s request env.now fun s request hs => hs
  | static =>
    refine preprocessRequest_lastRequestTs s request env.now fun s request hs =>
      compatRequest_lastRequestTs ?_
    split
    · exact hs
    · split <;> exact hs
  | state => exact preprocessRequest_lastRequestTs s request env.now fun s request hs => hs
  | snapshot => exact snapshot_lastRequestTs s request
  | stream => exact stream_lastRequestTs s request

/-- What else libevent calls back for leaves it as it is. -/
theorem httpStep_lastRequestTs {s s' : HttpState} {act : HttpAct}
    (hact : ∀ route request env, act ≠ .request route request env)
    (hst : httpStep server lib s act = some s') : s'.lastRequestTs = s.lastRequestTs := by
  cases act with
  | request route request env => exact absurd rfl (hact route request env)
  | exposed =>
    rw [httpStep] at hst
    split at hst
    · exact Option.some.inj hst ▸ rfl
    · exact absurd hst (by simp)
  | sendSnapshot i env =>
    obtain ⟨client, -, rfl⟩ := Option.map_eq_some_iff.mp hst
    rfl
  | streamWrite i =>
    obtain ⟨client, -, rfl⟩ := Option.map_eq_some_iff.mp hst
    rfl
  | streamError i =>
    obtain ⟨clients, -, rfl⟩ := Option.map_eq_some_iff.mp hst
    rfl

end

/-! ## 4. What nothing interrupts -/

section

variable {server : UsServer} {lib : Libevent} {n : Nat} {s : ExitState}

/-- A callback sets the time of the last request before it does anything else. -/
theorem httpCallback_of_lastRequestTs (env : HttpEnv) (http : HttpState) (ts : Nat)
    (request : EvhttpRequest) (route : Route) :
    httpCallback server lib env { http with lastRequestTs := ts } request route
      = httpCallback server lib env http request route := by
  cases route <;> rfl

/-- A request does what the callback says, if the loop leaves it alone. -/
theorem request_alone {env : HttpEnv} (hidle : s.request = .idle) (hnow : env.now = s.clock)
    (route : Route) (request : EvhttpRequest) :
    (exitSystem server lib n).exec s [.request, .requestStore, .http (.request route request env)]
      = some { s with
          stream := { s.stream with
            http := httpCallback server lib env s.stream.http request route }
          lastRequest := some s.clock
          stored := s.clock } := by
  have hstored : (httpCallback server lib env s.stream.http request route).lastRequestTs
      = toUll s.clock := hnow ▸ httpCallback_lastRequestTs s.stream.http request route
  have hcallback : { httpCallback server lib env s.stream.http request route with
      lastRequestTs := toUll s.clock }
        = httpCallback server lib env s.stream.http request route := by rw [← hstored]
  obtain ⟨stream, pc, req, clock, lastRequest, lastSeen, stored, loaded⟩ := s
  obtain rfl : req = .idle := hidle
  simp only [System.exec, exitSystem, exitStep, Option.bind_some, ExitState.storeRequestTs,
    ExitStream.storeRequestTs, if_true, httpCallback_of_lastRequestTs, hcallback]

/-- What the loop does by itself. -/
def LoopActs (_ : ExitState) (a : ExitAct) : Prop := a = .check ∨ a = .advance

theorem loop_goesOn {s' : ExitState} (hst : loopAdvance n s = some s') :
    (exitSystem server lib n).Leads LoopActs s s' :=
  .single ⟨.advance, .inr rfl, hst⟩

/-- The looks, up to the first that finds a client. -/
theorem looks_alone {nowTs : ℚ} {httpLastRequestTs : Nat} (rest : List ClientLook) :
    ∀ {s : ExitState}, s.pc = .look nowTs httpLastRequestTs rest →
      ∃ s', (exitSystem server lib n).Leads LoopActs s s' ∧ s'.stream = s.stream ∧
        s'.pc = if rest.any (·.sees s.stream) then .store nowTs
          else .look nowTs httpLastRequestTs [] := by
  induction rest with
  | nil =>
    intro s hpc
    exact ⟨s, .refl, rfl, hpc⟩
  | cons look rest ih =>
    intro s hpc
    cases hsees : look.sees s.stream with
    | true =>
      have hst : loopAdvance n s
          = some { s with pc := .store nowTs, lastSeen := some s.clock } := by
        simp only [loopAdvance, hpc, hsees, if_true]
      exact ⟨_, loop_goesOn hst, rfl, by simp only [List.any_cons, hsees, Bool.true_or, if_true]⟩
    | false =>
      have hst : loopAdvance n s = some { s with pc := .look nowTs httpLastRequestTs rest } := by
        simp only [loopAdvance, hpc, hsees, Bool.false_eq_true, if_false]
      obtain ⟨s', hleads, hstream, hpc'⟩ :=
        ih (s := { s with pc := .look nowTs httpLastRequestTs rest }) rfl
      refine ⟨s', (loop_goesOn hst).trans hleads, hstream, ?_⟩
      rw [hpc', List.any_cons, hsees, Bool.false_or]

/-- **A check that nothing interrupts** does what `streamCheckSuicide` says. -/
theorem check_alone (hpc : s.pc = .between) :
    ∃ s', (exitSystem server lib n).Leads LoopActs s s' ∧ s'.pc = .between ∧
      s'.stream = (streamCheckSuicide n s.stream s.clock).1 := by
  by_cases hzero : n = 0
  · exact ⟨s, .refl, hpc, by rw [streamCheckSuicide, if_pos hzero]⟩
  have hcheck : exitStep server lib n s .check = some { s with pc := .load s.clock } := by
    simp only [exitStep, if_pos hpc, if_neg hzero]
  have hload : loopAdvance n { s with pc := .load s.clock } = some { s with
      pc := .look s.clock s.stream.http.lastRequestTs clientLooks, loaded := s.stored } := rfl
  obtain ⟨s₁, hlooks, hstream, hpc₁⟩ := @looks_alone server lib n _ _ clientLooks { s with
    pc := .look s.clock s.stream.http.lastRequestTs clientLooks, loaded := s.stored } rfl
  have hleads : (exitSystem server lib n).Leads LoopActs s s₁ :=
    (Relation.ReflTransGen.head ⟨.check, .inl rfl, hcheck⟩ (loop_goesOn hload)).trans hlooks
  have hstore : ∀ s₂ : ExitState, s₂.pc = .store s.clock → s₂.stream = s.stream →
      ∃ s', (exitSystem server lib n).Leads LoopActs s₂ s' ∧ s'.pc = .between ∧
        s'.stream = s.stream.storeRequestTs s.clock := by
    intro s₂ hpc₂ hstream₂
    have hst : loopAdvance n s₂ = some { s₂.storeRequestTs s.clock with pc := .between } := by
      simp only [loopAdvance, hpc₂]
    exact ⟨_, loop_goesOn hst, rfl, by rw [← hstream₂]; rfl⟩
  rw [any_clientLooks] at hpc₁
  rw [streamCheckSuicide, if_neg hzero]
  dsimp only
  split
  · rename_i hclients
    rw [if_pos hclients] at hpc₁
    obtain ⟨s', hleads', hpc', hstream'⟩ := hstore s₁ hpc₁ hstream
    exact ⟨s', hleads.trans hleads', hpc', hstream'⟩
  · rename_i hclients
    rw [if_neg hclients] at hpc₁
    split
    · rename_i hlate
      have hst : loopAdvance n s₁ = some { s₁ with pc := .store s.clock } := by
        simp only [loopAdvance, hpc₁, if_pos hlate]
      obtain ⟨s', hleads', hpc', hstream'⟩ := hstore { s₁ with pc := .store s.clock } rfl hstream
      exact ⟨s', (hleads.trans (loop_goesOn hst)).trans hleads', hpc', hstream'⟩
    · rename_i hearly
      have hst : loopAdvance n s₁ = some { s₁ with pc := .between } := by
        simp only [loopAdvance, hpc₁, if_neg hearly]
      exact ⟨_, hleads.trans (loop_goesOn hst), rfl, hstream⟩

end

/-! ## 5. When the process terminates itself -/

section

variable {server : UsServer} {lib : Libevent} {n : Nat} {s s' : ExitState}

/-- The times that the deadline counts from: the last request, and the last look that has found a
client. -/
def ExitState.lastActivity (s : ExitState) : List ℚ := s.lastRequest.toList ++ s.lastSeen.toList

/-- The time at which an iteration has begun that has looked everywhere and seen no client. -/
def ExitLoopPc.unseen : ExitLoopPc → List ℚ
  | .look nowTs _ [] => [nowTs]
  | _ => []

/-- The loop is about to call `us_process_suicide`. -/
def ExitState.suicides (n : Nat) (s : ExitState) : Bool :=
  match s.pc with
  | .look nowTs httpLastRequestTs [] => decide (((httpLastRequestTs + n : Nat) : ℚ) < nowTs)
  | _ => false

/-- The process terminates itself only when N seconds have passed since. -/
def NeverEarly (n : Nat) (s : ExitState) : ExitAct → Prop
  | .advance => s.suicides n = true → ∀ t ∈ s.lastActivity, t + n ≤ s.clock
  | _ => True

/-- No iteration that has seen no client is between the whole second of the time that it has
loaded and the N seconds. -/
def OutsideWindow (n : Nat) (s : ExitState) : ExitAct → Prop
  | .advance => ∀ nowTs ∈ s.pc.unseen, ∀ t ∈ s.lastActivity,
      ¬((⌊s.loaded⌋ + n : ℚ) < nowTs ∧ s.clock < t + n)
  | _ => True

/-- The reading of the clock that the loop goes by. -/
def ExitLoopPc.reading : ExitLoopPc → List ℚ
  | .idle | .between => []
  | .load nowTs | .look nowTs _ _ | .store nowTs => [nowTs]

/-- The reading of the clock that the HTTP server is about to store. -/
def RequestPc.reading : RequestPc → List ℚ
  | .idle | .stored => []
  | .read now => [now]

/-- **What is stored, and what is loaded, is the whole second of a reading of the clock.** -/
structure ExitInv (s : ExitState) : Prop where
  clock : 0 ≤ s.clock
  loop : ∀ now ∈ s.pc.reading, 0 ≤ now ∧ now ≤ s.clock
  request : ∀ now ∈ s.request.reading, 0 ≤ now ∧ now ≤ s.clock
  stored : (s.stream.http.lastRequestTs : ℤ) = ⌊s.stored⌋
  loaded : ∀ nowTs httpLastRequestTs rest, s.pc = .look nowTs httpLastRequestTs rest →
    (httpLastRequestTs : ℤ) = ⌊s.loaded⌋

/-- **One step.** -/
theorem ExitInv.neverEarly_iff (h : ExitInv s) (act : ExitAct) :
    NeverEarly n s act ↔ OutsideWindow n s act := by
  cases act with
  | advance =>
    obtain ⟨stream, pc, request, clock, lastRequest, lastSeen, stored, loaded⟩ := s
    unfold NeverEarly OutsideWindow
    by_cases hunseen : ∃ nowTs httpLastRequestTs, pc = .look nowTs httpLastRequestTs []
    · obtain ⟨nowTs, httpLastRequestTs, rfl⟩ := hunseen
      have hcast : ((httpLastRequestTs + n : Nat) : ℚ) = ⌊loaded⌋ + n := by
        push_cast
        rw [← h.loaded _ _ _ rfl]
        norm_cast
      simp only [ExitState.suicides, decide_eq_true_eq, ExitLoopPc.unseen, List.mem_singleton,
        forall_eq, hcast]
      constructor
      · rintro hearly t ht ⟨hlate, hbefore⟩
        exact absurd (hearly hlate t ht) (not_le.mpr hbefore)
      · intro houtside hlate t ht
        by_contra hbefore
        exact houtside t ht ⟨hlate, not_le.mp hbefore⟩
    · refine iff_of_true (fun hsuicides => ?_) fun nowTs hnow => ?_
      · unfold ExitState.suicides at hsuicides
        split at hsuicides
        · rename_i nowTs httpLastRequestTs hpc
          exact absurd ⟨_, _, hpc⟩ hunseen
        · exact absurd hsuicides (by simp)
      · unfold ExitLoopPc.unseen at hnow
        split at hnow
        · rename_i nowTs httpLastRequestTs hpc
          exact absurd ⟨_, _, hpc⟩ hunseen
        · exact absurd hnow (by simp)
  | _ => exact Iff.rfl

/-- A step that leaves the time of the last request as it is. -/
theorem ExitInv.frame (h : ExitInv s) (hclock : s'.clock = s.clock) (hpc : s'.pc = s.pc)
    (hrequest : s'.request.reading = [] ∨ s'.request = s.request) (hstored : s'.stored = s.stored)
    (hloaded : s'.loaded = s.loaded)
    (hts : s'.stream.http.lastRequestTs = s.stream.http.lastRequestTs) : ExitInv s' where
  clock := hclock ▸ h.clock
  loop := hpc ▸ hclock ▸ h.loop
  request := by
    rcases hrequest with hnone | hsame
    · rw [hnone]
      exact fun _ hmem => absurd hmem (by simp)
    · rw [hsame, hclock]
      exact h.request
  stored := by rw [hts, hstored, h.stored]
  loaded := by
    rw [hpc, hloaded]
    exact h.loaded

/-- **The clock is stored.** -/
theorem ExitInv.storeRequestTs (h : ExitInv s) {now : ℚ} (hnow : 0 ≤ now) :
    ExitInv (s.storeRequestTs now) where
  clock := h.clock
  loop := h.loop
  request := h.request
  stored := toUll_of_nonneg hnow
  loaded := h.loaded

/-- The loop goes on, with the reading that it has. -/
theorem ExitInv.moveLoop (h : ExitInv s) {pc : ExitLoopPc} {lastSeen : Option ℚ}
    (hreading : ∀ now ∈ pc.reading, 0 ≤ now ∧ now ≤ s.clock)
    (hloaded : ∀ nowTs httpLastRequestTs rest, pc = .look nowTs httpLastRequestTs rest →
      (httpLastRequestTs : ℤ) = ⌊s.loaded⌋) :
    ExitInv { s with pc := pc, lastSeen := lastSeen } :=
  ⟨h.clock, hreading, h.request, h.stored, hloaded⟩

theorem ExitInv.advance (h : ExitInv s) (hst : loopAdvance n s = some s') : ExitInv s' := by
  unfold loopAdvance at hst
  split at hst
  · exact absurd hst (by simp)
  · exact absurd hst (by simp)
  · rename_i nowTs hpc
    obtain rfl := Option.some.inj hst
    have hloop := h.loop
    rw [hpc] at hloop
    refine ⟨h.clock, hloop, h.request, h.stored, fun nowTs' last rest he => ?_⟩
    obtain ⟨-, rfl, -⟩ := ExitLoopPc.look.inj he
    exact h.stored
  · rename_i nowTs last look rest hpc
    have hloop := h.loop
    rw [hpc] at hloop
    split at hst
    · obtain rfl := Option.some.inj hst
      exact h.moveLoop hloop fun _ _ _ he => nomatch he
    · obtain rfl := Option.some.inj hst
      refine h.moveLoop hloop fun nowTs' last' rest' he => ?_
      obtain ⟨-, rfl, -⟩ := ExitLoopPc.look.inj he
      exact h.loaded nowTs last _ hpc
  · rename_i nowTs last hpc
    have hloop := h.loop
    rw [hpc] at hloop
    split at hst
    · obtain rfl := Option.some.inj hst
      exact h.moveLoop hloop fun _ _ _ he => nomatch he
    · obtain rfl := Option.some.inj hst
      exact h.moveLoop (fun _ hmem => nomatch hmem) fun _ _ _ he => nomatch he
  · rename_i nowTs hpc
    obtain rfl := Option.some.inj hst
    have hnow := h.loop nowTs (by rw [hpc]; exact List.mem_singleton_self _)
    exact (h.storeRequestTs hnow.1).moveLoop (fun _ hmem => nomatch hmem) fun _ _ _ he => nomatch he

theorem exitInv_step (h : ExitInv s) {act : ExitAct} (hst : exitStep server lib n s act = some s') :
    ExitInv s' := by
  have hnow : ∀ now ∈ [s.clock], 0 ≤ now ∧ now ≤ s.clock :=
    List.forall_mem_singleton.mpr ⟨h.clock, le_rfl⟩
  cases act with
  | tick now =>
    simp only [exitStep] at hst
    split at hst
    · rename_i hclock
      obtain rfl := Option.some.inj hst
      exact ⟨h.clock.trans hclock, fun t ht => (h.loop t ht).imp_right (·.trans hclock),
        fun t ht => (h.request t ht).imp_right (·.trans hclock), h.stored, h.loaded⟩
    · exact absurd hst (by simp)
  | loop =>
    simp only [exitStep] at hst
    split at hst
    · obtain rfl := Option.some.inj hst
      exact h.moveLoop hnow fun _ _ _ he => nomatch he
    · exact absurd hst (by simp)
  | check =>
    simp only [exitStep] at hst
    split at hst
    · obtain rfl := Option.some.inj hst
      split
      · exact h.moveLoop (fun _ hmem => nomatch hmem) fun _ _ _ he => nomatch he
      · exact h.moveLoop hnow fun _ _ _ he => nomatch he
    · exact absurd hst (by simp)
  | advance => exact h.advance hst
  | request =>
    simp only [exitStep] at hst
    split at hst
    · exact absurd hst (by simp)
    · obtain rfl := Option.some.inj hst
      exact ⟨h.clock, h.loop, hnow, h.stored, h.loaded⟩
    · obtain rfl := Option.some.inj hst
      exact ⟨h.clock, h.loop, hnow, h.stored, h.loaded⟩
  | requestStore =>
    simp only [exitStep] at hst
    split at hst
    · rename_i now hrequest
      obtain rfl := Option.some.inj hst
      have hread := h.request now (by rw [hrequest]; exact List.mem_singleton_self _)
      exact (h.storeRequestTs hread.1).frame rfl rfl (.inl rfl) rfl rfl rfl
    · exact absurd hst (by simp)
    · exact absurd hst (by simp)
  | http act =>
    by_cases hrequest : ∃ route request env, act = .request route request env
    · obtain ⟨route, request, env, rfl⟩ := hrequest
      simp only [exitStep] at hst
      split at hst
      · obtain rfl := Option.some.inj hst
        exact h.frame rfl rfl (.inl rfl) rfl rfl rfl
      · exact absurd hst (by simp)
    · have hact : ∀ route request env, act ≠ .request route request env :=
        fun route request env heq => hrequest ⟨route, request, env, heq⟩
      have hstep : exitStep server lib n s (.http act) = if s.request = .idle then
          (httpStep server lib s.stream.http act).map fun http =>
            { s with stream := { s.stream with http := http } } else none := by
        cases act with
        | request route request env => exact absurd rfl (hact route request env)
        | exposed | sendSnapshot | streamWrite | streamError => rfl
      rw [hstep] at hst
      split at hst
      · obtain ⟨http, hhttp, rfl⟩ := Option.map_eq_some_iff.mp hst
        exact h.frame rfl rfl (.inr rfl) rfl rfl (httpStep_lastRequestTs hact hhttp)
      · exact absurd hst (by simp)
  | sinkCheck sink mem frame lock unlocked =>
    obtain ⟨memsink, -, rfl⟩ := Option.map_eq_some_iff.mp hst
    exact h.frame rfl rfl (.inr rfl) rfl rfl (by cases sink <;> rfl)
  | sinkPut sink mem frame lock unlocked id =>
    obtain ⟨memsink, -, rfl⟩ := Option.map_eq_some_iff.mp hst
    exact h.frame rfl rfl (.inr rfl) rfl rfl (by cases sink <;> rfl)

theorem exitInv_of_reach (hr : (exitSystem server lib n).Reach s) : ExitInv s := by
  refine hr.inv (I := ExitInv) (fun s hs => ?_) fun s s' act h _ hst => exitInv_step h hst
  obtain ⟨⟨token, -, hhttp⟩, hpc, hrequest, hclock, -, -, hstored, -⟩ := hs
  refine ⟨hclock.ge, ?_, ?_, ?_, ?_⟩
  · rw [hpc]
    exact fun _ hmem => nomatch hmem
  · rw [hrequest]
    exact fun _ hmem => nomatch hmem
  · rw [hhttp, hstored]
    exact Int.floor_zero.symm
  · rw [hpc]
    exact fun _ _ _ he => nomatch he

/-- **What the cut alone takes away** is less than a second: if nothing has happened since the time
that the iteration has loaded, it ends the process at most so much too early. -/
theorem suicides_within_second (hr : (exitSystem server lib n).Reach s)
    (hsuicides : s.suicides n = true) {t : ℚ} (ht : t ≤ s.loaded) : t + n < s.clock + 1 := by
  have h := exitInv_of_reach hr
  unfold ExitState.suicides at hsuicides
  split at hsuicides
  · rename_i nowTs httpLastRequestTs hpc
    have hlate : ((httpLastRequestTs + n : Nat) : ℚ) < nowTs := of_decide_eq_true hsuicides
    have hnow : nowTs ≤ s.clock := (h.loop nowTs (by rw [hpc]; exact List.mem_singleton_self _)).2
    have hcut : s.loaded < (httpLastRequestTs : ℚ) + 1 := by
      have hfloor := Int.lt_floor_add_one s.loaded
      rw [← h.loaded _ _ _ hpc] at hfloor
      exact_mod_cast hfloor
    push_cast at hlate
    linarith
  · exact absurd hsuicides (by simp)

end

instance (n : Nat) (s : ExitState) : (act : ExitAct) → Decidable (OutsideWindow n s act)
  | .advance => inferInstanceAs (Decidable (∀ nowTs ∈ s.pc.unseen, ∀ t ∈ s.lastActivity,
      ¬((⌊s.loaded⌋ + n : ℚ) < nowTs ∧ s.clock < t + n)))
  | .tick _ | .loop | .check | .request | .requestStore | .http _ | .sinkCheck .. | .sinkPut .. =>
    .isTrue trivial

/-- `GET /favicon.ico`. -/
def getFavicon : EvhttpRequest where
  command := .get
  uri := ⟨ascii "/favicon.ico", by decide⟩
  inputHeaders := []
  outputHeaders := []
  conn := true

/-- A stream without sinks and display, and a server without a user. -/
def bareStream : ExitState where
  stream :=
    { http := ⟨none, 0, false, 0, [], CountedList.empty, [], []⟩
      jpegSink := none
      rawSink := none
      h264Sink := none
      drm := false }
  pc := .idle
  request := .idle
  clock := 0
  lastRequest := none
  lastSeen := none
  stored := 0
  loaded := 0

theorem bareStream_start (lib : Libevent) (n : Nat) :
    (exitSystem usServerInit lib n).start bareStream :=
  ⟨⟨none, rfl, rfl⟩, rfl, rfl, rfl, rfl, rfl, rfl, rfl⟩

/-- The favicon is asked for at the time `requested`, and at the time `checked` an iteration of the
loop looks for clients. -/
def faviconRun (requested checked : ℚ) : List ExitAct :=
  [.tick 1, .loop, .advance, .tick requested, .request, .requestStore,
    .http (.request .favicon getFavicon (envAt requested)), .tick checked, .check]
      ++ List.replicate 7 .advance

end TinyPilotKvm
