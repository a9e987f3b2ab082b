/-
# Which frames are scheduled (`_http_send_stream`, `_http_refresher` of `ustreamer/http/server.c`)

Every event of the refresher comes with two flags: the stream has moved on, and the exposed frame
has changed.  A client is scheduled a frame when the frame has changed, or when it has had none yet.
With `drop_same_frames` a client that asked for `dual_final_frames` is scheduled the last frame of a
series once more, at the first event at which the stream has moved on and the frame has not; a flag
of the client, `updated_prev`, says that this may still come.

The flags of an event are left open: `httpRefresher` says which the refresher has.  A client is
watched from its connection on, `WatchedClient` is the client with what every event has been for it.
-/
import TinyPilotKvm.Ustreamer.Http.ExposedFrame
import TinyPilotKvm.Ustreamer.Http.Gate

namespace TinyPilotKvm

/-! ## 1. The code -/

/-- The body of the loop of `_http_send_stream`; the flag says that a frame is scheduled. -/
def sendStreamClient (dropSameFrames : Nat) (streamUpdated frameUpdated : Bool)
    (client : UsStreamClient) : UsStreamClient × Bool :=
  if client.request.conn then
    let dualUpdate := decide (dropSameFrames ≠ 0) && client.dualFinalFrames && streamUpdated
      && client.updatedPrev && !frameUpdated
    if dualUpdate || frameUpdated || client.needFirstFrame then
      let client := { client with needFirstFrame := false }
      ({ client with updatedPrev := frameUpdated || client.needFirstFrame }, true)
    else if streamUpdated then ({ client with updatedPrev := false }, false)
    else (client, false)
  else (client, false)

/-- `_http_send_stream`: the clients afterwards, and with what `us_fpsi_update` is called for
`queued_fpsi`, if it is. -/
def httpSendStream (dropSameFrames : Nat) (streamUpdated frameUpdated : Bool)
    (clients : List UsStreamClient) : List UsStreamClient × Option Bool :=
  let sent := clients.map (sendStreamClient dropSameFrames streamUpdated frameUpdated)
  let queued := sent.any (·.2)
  let hasClients := true
  (sent.map (·.1), if queued then some true else if !hasClients then some false else none)

/-- `_http_refresher`, less the ring and the snapshots: what it exposes, and the stream's clients.
`acquired` is a frame out of the ring; `now` and `beginTs` are the clock where there is none. -/
def httpRefresher (dropSameFrames : Nat) (ex : UsServerExposed) (clients : List UsStreamClient)
    (acquired : Option ExposeCall) (now beginTs : ℚ) :
    UsServerExposed × List UsStreamClient × Option Bool :=
  let (ex, streamUpdated, frameUpdated) :=
    match acquired with
    | some call =>
      let (ex, frameUpdated) := ex.exposeFrame dropSameFrames call
      (ex, true, frameUpdated)
    | none =>
      if ex.exposeEndTs + 1 < now then
        ({ ex with exposeBeginTs := beginTs, exposeCmpTs := beginTs, exposeEndTs := beginTs },
          true, true)
      else (ex, false, false)
  (ex, httpSendStream dropSameFrames streamUpdated frameUpdated clients)

/-- The refresher sends the stream with the flags of its event; a frame does not change without the
stream. -/
theorem httpRefresher_sends (dropSameFrames : Nat) (ex : UsServerExposed)
    (clients : List UsStreamClient) (acquired : Option ExposeCall) (now beginTs : ℚ) :
    ∃ streamUpdated frameUpdated, (frameUpdated = true → streamUpdated = true) ∧
      (httpRefresher dropSameFrames ex clients acquired now beginTs).2
        = httpSendStream dropSameFrames streamUpdated frameUpdated clients := by
  cases acquired with
  | some call => exact ⟨true, (ex.exposeFrame dropSameFrames call).2, fun _ => rfl, rfl⟩
  | none =>
    by_cases hold : ex.exposeEndTs + 1 < now
    · exact ⟨true, true, fun _ => rfl, by simp only [httpRefresher, if_pos hold]⟩
    · exact ⟨false, false, id, by simp only [httpRefresher, if_neg hold]⟩

/-! ## 2. Clients and what they are scheduled -/

/-- What an event of the refresher has been for a client: its flags, whether there was still a
connection, whether a frame was scheduled, and whether none had been before. -/
structure SendEvent where
  streamUpdated : Bool
  frameUpdated : Bool
  conn : Bool
  scheduled : Bool
  first : Bool

/-- A client, and the events since it has connected, the oldest first. -/
structure WatchedClient where
  client : UsStreamClient
  history : List SendEvent

/-- An event of the refresher. -/
def WatchedClient.refresh (dropSameFrames : Nat) (streamUpdated frameUpdated : Bool)
    (w : WatchedClient) : WatchedClient :=
  let sent := sendStreamClient dropSameFrames streamUpdated frameUpdated w.client
  { client := sent.1
    history := w.history ++
      [{ streamUpdated := streamUpdated
         frameUpdated := frameUpdated
         conn := w.client.request.conn
         scheduled := sent.2
         first := w.history.all fun e => !e.scheduled }] }

/-- The connection of a client is gone. -/
def UsStreamClient.loseConn (client : UsStreamClient) : UsStreamClient :=
  { client with request := { client.request with conn := false } }

/-- What happens: `_http_callback_stream` is called for a request that got through, data is written
(`_http_callback_stream_write`), libevent gives a connection up, `_http_callback_stream_error` is
called, and the refresher has an event. -/
inductive ScheduleAct
  | connect (env : HttpEnv) (request : EvhttpRequest)
  | write (i : Nat) (env : StreamWriteEnv)
  | loseConn (i : Nat)
  | error (i : Nat)
  | refresher (streamUpdated frameUpdated : Bool)

section

variable (server : UsServer) (lib : Libevent)

def scheduleStep (clients : List WatchedClient) : ScheduleAct → Option (List WatchedClient)
  | .connect env request =>
    if request.conn then some (clients ++ [⟨newStreamClient lib env request, []⟩])
    else some clients
  | .write i env => clients[i]?.map fun w =>
      clients.set i { w with client := (httpCallbackStreamWrite server w.client env).1 }
  | .loseConn i => clients[i]?.map fun w => clients.set i { w with client := w.client.loseConn }
  | .error i => clients[i]?.map fun _ => clients.eraseIdx i
  | .refresher streamUpdated frameUpdated =>
    some (clients.map (·.refresh server.dropSameFrames streamUpdated frameUpdated))

/-- The clients of a server. -/
def scheduleSystem : System (List WatchedClient) ScheduleAct where
  start clients := clients = []
  step := scheduleStep server lib

end

/-- An event of the refresher is `_http_send_stream`. -/
theorem refresh_clients (n : Nat) (streamUpdated frameUpdated : Bool) (ws : List WatchedClient) :
    (ws.map (·.refresh n streamUpdated frameUpdated)).map (·.client)
      = (httpSendStream n streamUpdated frameUpdated (ws.map (·.client))).1 := by
  simp only [httpSendStream, List.map_map]
  rfl

/-! ## 3. What is to be shown -/

/-- A frame that has not changed, and is not the client's first. -/
def SendEvent.repetition (e : SendEvent) : Bool := e.scheduled && !e.frameUpdated && !e.first

/-- A changed frame was scheduled, and the stream has not moved on since. -/
def UpdatePending (history : List SendEvent) : Prop :=
  ∃ (before : List SendEvent) (u : SendEvent) (since : List SendEvent),
    history = before ++ u :: since ∧ u.scheduled = true ∧ u.frameUpdated = true ∧
      ∀ e ∈ since, e.streamUpdated = false

/-- **Duplicate final frames** of a client. -/
structure ScheduledRight (dropSameFrames : Nat) (w : WatchedClient) : Prop where
  /-- Between two changed frames there is at most one repetition. -/
  once : ∀ before stretch since, w.history = before ++ stretch ++ since →
    (∀ e ∈ stretch, e.frameUpdated = false) → stretch.countP SendEvent.repetition ≤ 1
  /-- A repetition is for a client that asked for it, and comes when the stream moves on for the
  first time after a changed frame. -/
  repetition : ∀ before e since, w.history = before ++ e :: since → e.repetition = true →
    w.client.dualFinalFrames = true ∧ dropSameFrames ≠ 0 ∧ e.streamUpdated = true ∧
      UpdatePending before
  /-- The first event after the connection schedules the first frame. -/
  first : ∀ e since, w.history = e :: since → e.conn = true → e.scheduled = true

/-- The client's flags are what its history makes them. -/
structure SendScheduleInv (dropSameFrames : Nat) (w : WatchedClient) : Prop where
  pending : w.client.request.conn = true → w.client.updatedPrev = true → UpdatePending w.history
  needFirst : w.client.needFirstFrame = true → ∀ e ∈ w.history, e.scheduled = false
  fresh : w.history = [] → w.client.needFirstFrame = true
  repetition : ∀ before e since, w.history = before ++ e :: since → e.repetition = true →
    w.client.dualFinalFrames = true ∧ dropSameFrames ≠ 0 ∧ e.streamUpdated = true ∧
      UpdatePending before
  first : ∀ e since, w.history = e :: since → e.conn = true → e.scheduled = true

/-! ## 4. One event -/

section

variable {n : Nat} {streamUpdated frameUpdated : Bool} {client : UsStreamClient} {w : WatchedClient}

/-- Without a connection nothing is done. -/
theorem sendStreamClient_of_not_conn (h : client.request.conn = false) :
    sendStreamClient n streamUpdated frameUpdated client = (client, false) := by
  rw [sendStreamClient, h]
  rfl

/-- When a frame is scheduled for a client. -/
def Schedules (n : Nat) (streamUpdated frameUpdated : Bool) (client : UsStreamClient) : Prop :=
  (n ≠ 0 ∧ client.dualFinalFrames = true ∧ streamUpdated = true ∧ client.updatedPrev = true ∧
      frameUpdated = false) ∨ frameUpdated = true ∨ client.needFirstFrame = true

theorem schedules_iff :
    ((decide (n ≠ 0) && client.dualFinalFrames && streamUpdated && client.updatedPrev
        && !frameUpdated || frameUpdated || client.needFirstFrame) = true) ↔
      Schedules n streamUpdated frameUpdated client := by
  simp only [Schedules, Bool.or_eq_true, Bool.and_eq_true, decide_eq_true_eq,
    Bool.not_eq_true', or_assoc, and_assoc]

theorem sendStreamClient_of_schedules (hconn : client.request.conn = true)
    (h : Schedules n streamUpdated frameUpdated client) :
    sendStreamClient n streamUpdated frameUpdated client
      = ({ client with needFirstFrame := false, updatedPrev := frameUpdated }, true) := by
  rw [sendStreamClient, if_pos hconn, if_pos (schedules_iff.mpr h)]
  dsimp only
  rw [Bool.or_false]

theorem sendStreamClient_of_not_schedules (hconn : client.request.conn = true)
    (h : ¬Schedules n streamUpdated frameUpdated client) :
    sendStreamClient n streamUpdated frameUpdated client
      = (if streamUpdated then { client with updatedPrev := false } else client, false) := by
  rw [sendStreamClient, if_pos hconn, if_neg (fun hs => h (schedules_iff.mp hs))]
  split <;> rfl

/-! ## 5. The history of a client -/

theorem eq_concat_cases {h before since : List SendEvent} {x e : SendEvent}
    (heq : h ++ [x] = before ++ e :: since) :
    (before = h ∧ e = x ∧ since = []) ∨
      ∃ since', since = since' ++ [x] ∧ h = before ++ e :: since' := by
  rcases List.eq_nil_or_concat since with rfl | ⟨since', y, rfl⟩
  · obtain ⟨hbefore, hx⟩ := List.append_inj' heq rfl
    exact .inl ⟨hbefore.symm, (List.singleton_inj.mp hx).symm, rfl⟩
  · rw [List.concat_eq_append, ← List.cons_append, ← List.append_assoc] at heq
    obtain ⟨hh, hx⟩ := List.append_inj' heq rfl
    exact .inr ⟨since', by rw [List.concat_eq_append, List.singleton_inj.mp hx], hh⟩

theorem UpdatePending.concat {history : List SendEvent} (h : UpdatePending history)
    {e : SendEvent} (he : e.streamUpdated = false) : UpdatePending (history ++ [e]) := by
  obtain ⟨before, u, since, rfl, hscheduled, hupdated, hsince⟩ := h
  refine ⟨before, u, since ++ [e], by simp, hscheduled, hupdated, fun x hx => ?_⟩
  rcases List.mem_append.mp hx with hold | hnew
  · exact hsince x hold
  · exact List.mem_singleton.mp hnew ▸ he

/-- Two events of a kind are in a stretch with two of them. -/
theorem exists_two_of_countP {p : SendEvent → Bool} :
    ∀ {l : List SendEvent}, 2 ≤ l.countP p →
      ∃ a x b y c, l = a ++ x :: b ++ y :: c ∧ p x = true ∧ p y = true
  | [], h => absurd h (by simp)
  | z :: l, h => by
    by_cases hz : p z = true
    · rw [List.countP_cons_of_pos hz] at h
      obtain ⟨y, hy, hpy⟩ := List.countP_pos_iff.mp (by omega : 0 < l.countP p)
      obtain ⟨b, c, rfl⟩ := List.append_of_mem hy
      exact ⟨[], z, b, y, c, rfl, hz, hpy⟩
    · rw [List.countP_cons_of_neg hz] at h
      obtain ⟨a, x, b, y, c, rfl, hx, hy⟩ := exists_two_of_countP h
      exact ⟨z :: a, x, b, y, c, rfl, hx, hy⟩

/-- One more event. -/
theorem SendScheduleInv.record (h : SendScheduleInv n w) {client' : UsStreamClient} {e : SendEvent}
    (hdual : client'.dualFinalFrames = w.client.dualFinalFrames)
    (hpending : client'.request.conn = true → client'.updatedPrev = true →
      UpdatePending (w.history ++ [e]))
    (hneed : client'.needFirstFrame = true →
      w.client.needFirstFrame = true ∧ e.scheduled = false)
    (hrepetition : e.repetition = true → w.client.dualFinalFrames = true ∧ n ≠ 0 ∧
      e.streamUpdated = true ∧ UpdatePending w.history)
    (hfirst : w.client.needFirstFrame = true → e.conn = true → e.scheduled = true) :
    SendScheduleInv n ⟨client', w.history ++ [e]⟩ where
  pending := hpending
  needFirst := by
    intro hneed' x hx
    obtain ⟨hold, hnot⟩ := hneed hneed'
    rcases List.mem_append.mp hx with hmem | hnew
    · exact h.needFirst hold x hmem
    · exact List.mem_singleton.mp hnew ▸ hnot
  fresh := fun hnil => absurd hnil (by simp)
  repetition := by
    intro before x since heq hx
    dsimp only at heq ⊢
    rw [hdual]
    rcases eq_concat_cases heq with ⟨rfl, rfl, -⟩ | ⟨since', -, hold⟩
    · exact hrepetition hx
    · exact h.repetition before x since' hold hx
  first := by
    intro x since heq hconn
    rcases eq_concat_cases (show w.history ++ [e] = [] ++ x :: since from heq) with
      ⟨hnil, rfl, -⟩ | ⟨since', -, hold⟩
    · exact hfirst (h.fresh hnil.symm) hconn
    · exact h.first x since' hold hconn

/-- A client that does not need its first frame has been scheduled one. -/
theorem repetition_of_first {e : SendEvent} (h : e.repetition = true) :
    e.scheduled = true ∧ e.frameUpdated = false ∧ e.first = false := by
  simpa [SendEvent.repetition, and_assoc] using h

/-- **An event of the refresher** keeps the invariant. -/
theorem SendScheduleInv.refresh (h : SendScheduleInv n w) (streamUpdated frameUpdated : Bool) :
    SendScheduleInv n (w.refresh n streamUpdated frameUpdated) := by
  cases hconn : w.client.request.conn with
  | false =>
    rw [WatchedClient.refresh, sendStreamClient_of_not_conn hconn, hconn]
    refine h.record rfl (fun hc => ?_) (fun hneed => ⟨hneed, rfl⟩) (fun he => ?_) fun _ he => ?_
    · exact absurd (hconn.symm.trans hc) (by simp)
    · exact absurd (repetition_of_first he).1 (by simp)
    · exact absurd he (by simp)
  | true =>
    by_cases hs : Schedules n streamUpdated frameUpdated w.client
    · rw [WatchedClient.refresh, sendStreamClient_of_schedules hconn hs, hconn]
      refine h.record rfl (fun _ hupdated => ?_) (fun hneed => absurd hneed (by simp))
        (fun he => ?_) fun _ _ => rfl
      · exact ⟨w.history, _, [], rfl, rfl, hupdated, fun x hx => absurd hx List.not_mem_nil⟩
      · obtain ⟨-, hsame, hfirst⟩ := repetition_of_first he
        -- a frame has been scheduled before, so the only reason left is the dual one
        rcases hs with ⟨hn, hdual, hstream, hprev, -⟩ | hupdated | hneed
        · exact ⟨hdual, hn, hstream, h.pending hconn hprev⟩
        · exact absurd (hsame.symm.trans hupdated) (by simp)
        · have hnone : (w.history.all fun e => !e.scheduled) = true :=
            List.all_eq_true.mpr fun e he => by rw [h.needFirst hneed e he]; rfl
          exact absurd (hfirst.symm.trans hnone) (by simp)
    · rw [WatchedClient.refresh, sendStreamClient_of_not_schedules hconn hs, hconn]
      have hneed : ¬w.client.needFirstFrame = true := fun hneed => hs (.inr (.inr hneed))
      cases streamUpdated with
      | true =>
        refine h.record rfl (fun _ hprev => absurd hprev (by simp))
          (fun hneed' => absurd hneed' hneed) (fun he => ?_) fun hneed' => absurd hneed' hneed
        exact absurd (repetition_of_first he).1 (by simp)
      | false =>
        refine h.record rfl (fun _ hprev => (h.pending hconn hprev).concat rfl)
          (fun hneed' => absurd hneed' hneed) (fun he => ?_) fun hneed' => absurd hneed' hneed
        exact absurd (repetition_of_first he).1 (by simp)

/-- Between two repetitions the frame has changed. -/
theorem SendScheduleInv.once (h : SendScheduleInv n w) {before stretch since : List SendEvent}
    (heq : w.history = before ++ stretch ++ since)
    (hsame : ∀ e ∈ stretch, e.frameUpdated = false) :
    stretch.countP SendEvent.repetition ≤ 1 := by
  by_contra hmore
  obtain ⟨a, x, b, y, c, rfl, hx, hy⟩ := exists_two_of_countP (not_le.mp hmore)
  have hfirst : w.history = (before ++ a) ++ x :: (b ++ y :: c ++ since) := by simp [heq]
  have hsecond : w.history = ((before ++ a) ++ x :: b) ++ y :: (c ++ since) := by simp [heq]
  obtain ⟨-, -, hmoved, -⟩ := h.repetition _ x _ hfirst hx
  obtain ⟨-, -, -, start, u, rest, hpending, -, hupdated, hrest⟩ := h.repetition _ y _ hsecond hy
  have hxu : x ≠ u := by
    rintro rfl
    exact absurd ((hsame x (by simp)).symm.trans hupdated) (by simp)
  -- the changed frame before `y` is before `x`, and then the stream has moved on with `x`
  rcases List.append_eq_append_iff.mp hpending with ⟨m, -, hm⟩ | ⟨m, -, hm⟩
  · cases m with
    | nil => exact hxu (List.cons.inj hm).1
    | cons z m =>
      obtain ⟨-, rfl⟩ := List.cons.inj hm
      exact absurd ((hsame u (by simp)).symm.trans hupdated) (by simp)
  · cases m with
    | nil => exact hxu (List.cons.inj hm).1.symm
    | cons z m =>
      obtain ⟨-, rfl⟩ := List.cons.inj hm
      exact absurd ((hrest x (by simp)).symm.trans hmoved) (by simp)

/-- A client that has just connected. -/
theorem sendScheduleInv_new (client : UsStreamClient) (hneed : client.needFirstFrame = true)
    (hprev : client.updatedPrev = false) : SendScheduleInv n ⟨client, []⟩ where
  pending := fun _ h => absurd (hprev.symm.trans h) (by simp)
  needFirst := fun _ e he => absurd he List.not_mem_nil
  fresh := fun _ => hneed
  repetition := fun before e since h => absurd h (by simp)
  first := fun e since h => absurd h (by simp)

/-- Other changes to a client, which leave the flags and the options as they are. -/
theorem SendScheduleInv.setClient (h : SendScheduleInv n w) {client' : UsStreamClient}
    (hconn : client'.request.conn = true → w.client.request.conn = true)
    (hneed : client'.needFirstFrame = w.client.needFirstFrame)
    (hprev : client'.updatedPrev = w.client.updatedPrev)
    (hdual : client'.dualFinalFrames = w.client.dualFinalFrames) :
    SendScheduleInv n ⟨client', w.history⟩ where
  pending := fun hc hp => h.pending (hconn hc) (hprev ▸ hp)
  needFirst := fun hn => h.needFirst (hneed ▸ hn)
  fresh := fun hnil => hneed ▸ h.fresh hnil
  repetition := fun before e since heq he => hdual ▸ h.repetition before e since heq he
  first := h.first

theorem SendScheduleInv.scheduledRight (h : SendScheduleInv n w) : ScheduledRight n w where
  once := fun _ _ _ heq hsame => h.once heq hsame
  repetition := h.repetition
  first := h.first

end

/-! ## 6. All clients -/

section

variable {server : UsServer} {lib : Libevent}

theorem sendScheduleInv_step {clients clients' : List WatchedClient} {act : ScheduleAct}
    (h : ∀ w ∈ clients, SendScheduleInv server.dropSameFrames w)
    (hst : scheduleStep server lib clients act = some clients') :
    ∀ w ∈ clients', SendScheduleInv server.dropSameFrames w := by
  cases act with
  | connect env request =>
    rw [scheduleStep] at hst
    split at hst
    · obtain rfl := Option.some.inj hst
      intro w hw
      rcases List.mem_append.mp hw with hold | hnew
      · exact h w hold
      · exact List.mem_singleton.mp hnew ▸ sendScheduleInv_new _ rfl rfl
    · exact Option.some.inj hst ▸ h
  | write i env =>
    obtain ⟨v, hv, rfl⟩ := Option.map_eq_some_iff.mp hst
    intro w hw
    rcases List.mem_or_eq_of_mem_set hw with hold | rfl
    · exact h w hold
    · exact (h v (List.mem_of_getElem? hv)).setClient id rfl rfl rfl
  | loseConn i =>
    obtain ⟨v, hv, rfl⟩ := Option.map_eq_some_iff.mp hst
    intro w hw
    rcases List.mem_or_eq_of_mem_set hw with hold | rfl
    · exact h w hold
    · exact (h v (List.mem_of_getElem? hv)).setClient (fun hc => absurd hc (by simp
        [UsStreamClient.loseConn])) rfl rfl rfl
  | error i =>
    obtain ⟨v, -, rfl⟩ := Option.map_eq_some_iff.mp hst
    exact fun w hw => h w (List.mem_of_mem_eraseIdx hw)
  | refresher streamUpdated frameUpdated =>
    obtain rfl := Option.some.inj hst
    intro w hw
    obtain ⟨v, hv, rfl⟩ := List.mem_map.mp hw
    exact (h v hv).refresh streamUpdated frameUpdated

/-- **Duplicate final frames.**  Whatever the clients and the events, every client is scheduled its
first frame at once, and repetitions only as it asked for them. -/
theorem dual_final_frames (server : UsServer) (lib : Libevent) {clients : List WatchedClient}
    (hr : (scheduleSystem server lib).Reach clients) :
    ∀ w ∈ clients, ScheduledRight server.dropSameFrames w := by
  have hstep : (scheduleSystem server lib).Preserves (fun _ _ => True)
      fun clients => ∀ w ∈ clients, SendScheduleInv server.dropSameFrames w :=
    fun _ _ _ h _ hst => sendScheduleInv_step h hst
  have hinv : ∀ w ∈ clients, SendScheduleInv server.dropSameFrames w := by
    refine System.ReachVia.inv ?_ hstep hr
    rintro _ rfl
    exact fun w hw => absurd hw List.not_mem_nil
  exact fun w hw => (hinv w hw).scheduledRight

end

/-- A server that drops same frames. -/
def droppingServer : UsServer := { usServerInit with dropSameFrames := 1 }

/-- A library that finds `dual_final_frames=1` in the query of `dualRequest`. -/
def dualLibevent : Libevent :=
  { plainLibevent with
    parseQuery := fun _ => [⟨⟨ascii "dual_final_frames", by decide⟩, ⟨ascii "1", by decide⟩⟩] }

/-- `GET /stream?dual_final_frames=1`. -/
def dualRequest : EvhttpRequest where
  command := .get
  uri := ⟨ascii "/stream?dual_final_frames=1", by decide⟩
  inputHeaders := []
  outputHeaders := []
  conn := true

/-- One changed frame, and then the same twice: it is scheduled once more. -/
theorem dual_final_frames_series :
    ∃ clients, (scheduleSystem droppingServer dualLibevent).Reach clients ∧
      clients.map (fun w => w.history.map SendEvent.repetition) = [[false, true, false]] ∧
      ∀ w ∈ clients, ScheduledRight droppingServer.dropSameFrames w := by
  obtain ⟨clients, hrun⟩ : ∃ clients, (scheduleSystem droppingServer dualLibevent).exec []
      [.connect (envAt 0) dualRequest, .refresher true true, .refresher true false,
        .refresher true false] = some clients := ⟨_, rfl⟩
  have hr : (scheduleSystem droppingServer dualLibevent).Reach clients :=
    System.Reach.exec _ (.start rfl) hrun
  refine ⟨clients, hr, ?_, dual_final_frames droppingServer dualLibevent hr⟩
  rw [← Option.some.inj hrun]
  decide +kernel

end TinyPilotKvm
