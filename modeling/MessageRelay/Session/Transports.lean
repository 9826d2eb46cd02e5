import MessageRelay.Session.Wire

/-! The two transports side by side, from one state of the session object, on one sequence of packets. -/

namespace MessageRelay.Session
open MessageRelay.Library MessageRelay.Lane

/-- A packet of the client. On the polling transport it may open a POST, whose check of the closed entry is read or
not. -/
structure Arrival where
  frame : WireFrame
  post : Option Bool
  weather : WireWeather

/-- The session object behind a WebSocket, while that is open. -/
structure Socket where
  session : Engine
  isOpen : Bool

section Machines
variable (platform : Platform) (libraries : Libraries) (sid : String)

def Worker.opened (w : Worker) : Option Bool → Worker
  | some closedRead => (pollingStep platform sid w (.post closedRead)).1
  | none => w

def Worker.arrive (arrival : Arrival) (w : Worker) : Worker × List Sent :=
  let w := w.opened platform sid arrival.post
  ((pollingStep platform sid w (.packet (libraries.frame arrival.frame) arrival.weather.polling)).1,
    if w.admitted then w.frameAnswers platform libraries arrival.weather sid arrival.frame else [])

def Socket.arrive (arrival : Arrival) (socket : Socket) : Socket × List Sent :=
  if socket.isOpen then
    let sent := socket.session.frameAnswers platform libraries arrival.weather arrival.frame
    (⟨socket.session.takeFrame platform libraries arrival.weather arrival.frame, !sent.any Sent.isClosed⟩, sent)
  else (socket, [])

/-- Both transports on the same packets. Each packet leaves what either sent for it. -/
def transports : Machine (Worker × Socket) Arrival (List Sent × List Sent) where
  step p arrival :=
    ((p.1.arrive platform libraries sid arrival |>.1, p.2.arrive platform libraries arrival |>.1),
      [(p.1.arrive platform libraries sid arrival |>.2, p.2.arrive platform libraries arrival |>.2)])

/-- Both from the same session object, with the KV entries of the Worker. -/
def transportsFrom (e : Engine) (kvAuth : List SessionAuthState) (kvClosed : Bool) :
    Config (Worker × Socket) (List Sent × List Sent) :=
  ⟨(⟨e, kvAuth, kvClosed, true⟩, ⟨e, true⟩), []⟩

end Machines

/-- The session suffixes the event with its room and the Worker does not. -/
def SuffixedOnSocketOnly (ev : OutboundEvent) : Prop :=
  ev.eventName ∈ ["peerLeft", "peerJoined", "presence"] ∧ ((ev.data.get "roomId").bind Value.asStr).isSome

section Condition
variable (platform : Platform) (libraries : Libraries) (weather : WireWeather)

/-- The condition on the event of a General. No lane is asked for and minted, the deferred `authenticated` is out, and
the hub answers no event whose name the transports disagree on. -/
def EventAlike (nsp : String) (round : SessionAuthState) (emitted : Bool) (event : String × Value) : Prop :=
  weather.signs round = true →
    if event.1 = "authenticated" then
      nsp = "/" ∧ (Engine.laneAsk event.2 = none ∨ weather.ambient.laneBytes = none)
    else emitted = true ∧ ∀ ev ∈ weather.hub, nsp = "/" ∧ ¬ SuffixedOnSocketOnly ev

/-- The condition on an auth message: it is not refused, and what it is answered with goes to the default namespace. -/
def AuthAlike (nsp : String) (raw : AuthArg) (rounds : AuthRoundState) (emitted : Bool) : Prop :=
  ∃ msg, raw.message = .ok msg ∧ msg.version = platform.wallet.authVersion ∧
    match msg.messageType with
    | .initialRequest =>
      nsp = "/" ∧ ∃ response, processInitialRequest platform.wallet msg weather.ambient.createdNonce = .ok response
    | .general =>
      ∃ serverSessionNonce peerNonce signature,
        selectRound rounds raw.yourNonce = some (.authenticated serverSessionNonce peerNonce msg.identityKey) ∧
          msg.signature = some signature ∧
          platform.wallet.verifySignature msg serverSessionNonce signature = .ok true ∧
          EventAlike weather nsp (.authenticated serverSessionNonce peerNonce msg.identityKey) emitted
            (decodeEventPayload platform (msg.payload.getD []))
    | .initialResponse | .certificateRequest | .certificateResponse => True

/-- The Worker's call on the session object goes through, and so do the writes of the rounds. -/
def HandedOver : Prop :=
  weather.reached = true ∧ weather.answered = true ∧ weather.ambient.roundsRead = true ∧
    weather.ambient.roundsWritten = true

/-- The condition on a packet and the states it finds. -/
def Alike (c : Config (Worker × Socket) (List Sent × List Sent)) (arrival : Arrival) : Prop :=
  (arrival.post = some true → c.state.1.kvClosed = false) ∧
  match arrival.frame with
  | .message (some (.connect nsp)) => nsp = "/"
  | .message (some (.event nsp data)) =>
    match libraries.clientEvent data with
    | .unnamed => True
    | .authMessage raw =>
      arrival.weather.keyed = true → HandedOver arrival.weather ∧
        ∀ s, c.state.2.session.inner = some s →
          AuthAlike platform arrival.weather nsp raw c.state.2.session.authRounds s.authenticatedEmitted
    | .other _ => (c.state.1.loadAuthState arrival.weather.authRead).isAuthenticated = false
    | .sessionAttach _ | .sessionMessage _ => False
  | _ => True

end Condition

section Seat
variable {platform : Platform}

/-- The part of a session that an auth message is judged on. -/
def Engine.seat (e : Engine) : Option AuthRoundState × Option (String × SessionAuthState) :=
  (e.rounds, e.inner.map (fun s => (s.sid, s.auth)))

theorem authRounds_eq_seat (e : Engine) :
    e.authRounds = e.seat.1.getD ⟨(e.seat.2.map Prod.snd).getD .unauthenticated, []⟩ := by
  simp only [Engine.authRounds, Engine.seat, Option.map_map]
  rfl

@[simp] theorem seat_emit (e : Engine) (event : SessionEvent) : (e.emit event).seat = e.seat := rfl

@[simp] theorem seat_serialize (e : Engine) (att : WsAttachment) :
    (e.serializeAttachment platform att).seat = e.seat := by
  unfold Engine.serializeAttachment
  split <;> rfl

@[simp] theorem seat_persist (e : Engine) : (e.persistToWsAttachment platform).seat = e.seat := by
  simp only [Engine.seat, rounds_persist, inner_persist]

theorem seat_modify (e : Engine) {f : SessionState → SessionState}
    (same : ∀ s, (f s).sid = s.sid ∧ (f s).auth = s.auth) : (e.modify f).seat = e.seat := by
  have seats : (fun s => (s.sid, s.auth)) ∘ f = fun s => (s.sid, s.auth) :=
    funext (fun s => Prod.ext (same s).1 (same s).2)
  rw [Engine.seat, Engine.modify_inner, Option.map_map, seats]
  rfl

theorem seat_keepState {e : Engine} {s s' : SessionState} (present : e.inner = some s) (sid : s'.sid = s.sid)
    (auth : s'.auth = s.auth) : (e.keepState platform s').seat = e.seat := by
  rw [Engine.keepState, seat_persist]
  simp only [Engine.seat, present, Option.map_some, sid, auth]

@[simp] theorem seat_notePong (e : Engine) : (e.notePong platform).seat = e.seat := by
  unfold Engine.notePong
  simp only
  split
  · rw [seat_serialize]
    exact seat_modify e (fun _ => ⟨rfl, rfl⟩)
  · exact seat_modify e (fun _ => ⟨rfl, rfl⟩)

@[simp] theorem seat_closeSession (e : Engine) : e.closeSession.seat = e.seat := by
  unfold Engine.closeSession Engine.unregisterWithMessageHub
  cases present : e.inner with
  | none => simp [Engine.seat, Engine.modify, present]
  | some s =>
    simp only [Engine.modify_inner, present, Option.map_some]
    split <;> simp [Engine.seat, Engine.modify, Engine.emit, present]

@[simp] theorem seat_register (e : Engine) (identityKey : String) :
    (e.registerWithMessageHub identityKey).seat = e.seat := by
  unfold Engine.registerWithMessageHub
  simp only
  split <;> rfl

@[simp] theorem seat_forward (e : Engine) (identityKey sid eventName : String) (lane : Option LaneStamp) :
    (e.forwardEventToMessageHub identityKey sid eventName lane).seat = e.seat := rfl

@[simp] theorem seat_mint (e : Engine) (state : SessionAuthState) (identityKey : String) (a : Ambient) :
    (e.mintSessionLane platform state identityKey a).seat = e.seat := by
  unfold Engine.mintSessionLane
  split
  next present _ => exact seat_keepState present rfl rfl
  · rfl

@[simp] theorem seat_recordRooms (e : Engine) (name : String) (data : Value) (outbound : List OutboundEvent)
    (nowMs : Nat) : (e.recordRooms platform name data outbound nowMs).seat = e.seat := by
  unfold Engine.recordRooms
  split
  · rfl
  next present =>
    simp only
    split
    · exact seat_keepState present rfl rfl
    · rfl

@[simp] theorem seat_stampPing (e : Engine) (att : WsAttachment) (nowMs : Nat) :
    (e.stampPing platform att nowMs).seat = e.seat := by
  unfold Engine.stampPing
  rw [seat_modify, seat_serialize, seat_emit]
  exact fun _ => ⟨rfl, rfl⟩

@[simp] theorem seat_ensureHeartbeat (e : Engine) (a : Ambient) : (e.ensureHeartbeat platform a).seat = e.seat := by
  obtain same | ⟨att, -, same⟩ := Engine.ensureHeartbeat_cases platform e a
  · rw [same]
  · rw [same, seat_stampPing]

theorem isSome_inner_eq_seat (e : Engine) : e.inner.isSome = e.seat.2.isSome := by
  simp only [Engine.seat, Option.isSome_map]

/-- A session that is in memory is not woken. -/
theorem seat_ensureInner {e : Engine} (present : e.inner.isSome) (sid : String) :
    (e.ensureInner sid).seat = e.seat := by
  obtain ⟨s, held⟩ := Option.isSome_iff_exists.mp present
  simp only [Engine.ensureInner, Engine.rehydrateFromWsAttachment, held]

theorem seat_settleRounds (e : Engine) (r : AuthRoundState) :
    (e.settleRounds platform r).seat = (some r, e.inner.map (fun s => (s.sid, r.current))) := by
  rw [Engine.settleRounds, seat_persist]
  simp only [Engine.seat, Engine.modify_inner, Option.map_map]
  rfl

theorem inner_settleRounds (e : Engine) (r : AuthRoundState) :
    (e.settleRounds platform r).inner =
      e.inner.map (fun s => { s with auth := r.current, connected := s.connected || r.current.isAuthenticated }) := by
  rw [Engine.settleRounds, inner_persist, Engine.modify_inner]

theorem isSome_settleRounds (e : Engine) (r : AuthRoundState) :
    (e.settleRounds platform r).inner.isSome = e.inner.isSome := by
  rw [isSome_inner_eq_seat, seat_settleRounds, Option.isSome_map]

end Seat

section Dispatch
variable (platform : Platform) (weather : WireWeather)

theorem seat_afterForward (e : Engine) (name : String) (data : Value) (outbound : List OutboundEvent) (nowMs : Nat) :
    (e.afterForward platform name data false outbound nowMs).seat = e.seat := by
  simp only [Engine.afterForward, Bool.false_eq_true, if_false, seat_recordRooms]

/-- A General in the session moves no round. -/
theorem seat_finish_dispatchGeneral (e : Engine) (payload : Bytes) (a : Ambient) :
    (Engine.finish platform weather (e.dispatchGeneral platform payload a)).seat = e.seat := by
  unfold Engine.dispatchGeneral
  simp only
  cases present : e.inner with
  | none => rfl
  | some s =>
    simp only
    have noted : (if s.authenticatedEmitted then e
        else e.keepState platform { s with authenticatedEmitted := true }).seat = e.seat := by
      split
      · rfl
      · exact seat_keepState present rfl rfl
    cases s.auth.verifiedIdentityKey with
    | none => exact noted
    | some identityKey =>
      simp only
      split
      · split
        · exact (seat_mint _ _ _ _).trans noted
        · exact noted
      split
      · simp only [Engine.finish, seat_afterForward, seat_forward, seat_register]
        exact noted
      · simp only [Engine.finish, seat_afterForward, seat_forward]
        exact noted

end Dispatch

section Auth
variable {platform : Platform} {raw : AuthArg} {msg : AuthMessage} {created : Except String String}

/-- An answered InitialRequest opens a round. -/
theorem processInitialRequest_opens {response : AuthMessage} (decoded : raw.message = .ok msg)
    (processed : processInitialRequest platform.wallet msg created = .ok response) :
    ∃ state, sessionFromInitialResponse raw response = .ok state ∧ state.isAuthenticated = true := by
  simp only [processInitialRequest, bind, Except.bind] at processed
  split at processed
  · cases processed
  split at processed
  · cases processed
  next sessionNonce =>
    split at processed
    · cases processed
    next peerNonce offered =>
      split at processed
      · cases processed
      · cases processed
        exact ⟨.authenticated sessionNonce peerNonce msg.identityKey,
          by simp [sessionFromInitialResponse, bind, Except.bind, decoded, offered], rfl⟩

variable (decoded : raw.message = .ok msg) (version : msg.version = platform.wallet.authVersion)
include decoded version

theorem handleAuthMessage_request {response : AuthMessage} (request : msg.messageType = .initialRequest)
    (processed : processInitialRequest platform.wallet msg created = .ok response) (state : SessionAuthState) :
    handleAuthMessage platform.wallet raw state created = .outbound [response] := by
  simp [handleAuthMessage, decoded, version, request, processed]

variable (created) in
theorem handleAuthMessage_signed {serverSessionNonce : String} (peerNonce : String) {signature : Bytes}
    (isGeneral : msg.messageType = .general) (signed : msg.signature = some signature)
    (valid : platform.wallet.verifySignature msg serverSessionNonce signature = .ok true) :
    handleAuthMessage platform.wallet raw (.authenticated serverSessionNonce peerNonce msg.identityKey) created =
      .authenticatedGeneral (msg.payload.getD []) := by
  simp [handleAuthMessage, decoded, version, isGeneral, processGeneral, signed, valid]

variable (created) in
theorem handleAuthMessage_quiet (request : msg.messageType ≠ .initialRequest)
    (isGeneral : msg.messageType ≠ .general) (state : SessionAuthState) :
    handleAuthMessage platform.wallet raw state created = .quiet := by
  cases type : msg.messageType with
  | initialRequest => exact absurd type request
  | general => exact absurd type isGeneral
  | initialResponse | certificateRequest | certificateResponse =>
    simp [handleAuthMessage, decoded, version, type]

end Auth

section Rounds
variable {platform : Platform} {weather : WireWeather}

variable (platform) in
theorem authRound_through (read : weather.ambient.roundsRead = true) (written : weather.ambient.roundsWritten = true)
    (e : Engine) (raw : AuthArg) :
    e.authRound platform raw none weather.ambient =
      (e.settleRounds platform
          (advanceAuthRounds platform.wallet raw e.authRounds weather.ambient.createdNonce).2,
        (advanceAuthRounds platform.wallet raw e.authRounds weather.ambient.createdNonce).1) := by
  simp [Engine.authRound, read, written]

variable (platform) in
theorem authRound_completed (read : weather.ambient.roundsRead = true) (written : weather.ambient.roundsWritten = true)
    (e : Engine) (raw : AuthArg) {state : SessionAuthState} (complete : state.isAuthenticated = true) :
    e.authRound platform raw (some state) weather.ambient =
      (e.settleRounds platform (rememberAuthRound e.authRounds state), .quiet) := by
  simp [Engine.authRound, read, written, complete]

/-- The session object as the Worker's call finds it. -/
def Engine.called (platform : Platform) (sid : String) (weather : WireWeather) (e : Engine) : Engine :=
  (e.ensureHeartbeat platform weather.ambient).ensureInner sid

variable {e : Engine} {s : SessionState}

theorem seat_called (present : e.inner.isSome) (sid : String) : (e.called platform sid weather).seat = e.seat := by
  rw [Engine.called, seat_ensureInner, seat_ensureHeartbeat]
  rw [isSome_inner_eq_seat, seat_ensureHeartbeat, ← isSome_inner_eq_seat]
  exact present

theorem isSome_called (present : e.inner.isSome) (sid : String) :
    (e.called platform sid weather).inner.isSome = true := by
  rw [isSome_inner_eq_seat, seat_called present, ← isSome_inner_eq_seat]
  exact present

theorem authRounds_called (present : e.inner.isSome) (sid : String) :
    (e.called platform sid weather).authRounds = e.authRounds := by
  rw [authRounds_eq_seat, seat_called present, ← authRounds_eq_seat]

variable (handed : HandedOver weather)
include handed

variable (platform) in
/-- The call settles the rounds and tells the Worker what came of the message. -/
theorem authRoundInDo_through (present : e.inner.isSome) (sid : String) (raw : AuthArg) {outcome : AuthOutcome}
    {r : AuthRoundState}
    (advanced : advanceAuthRounds platform.wallet raw e.authRounds weather.ambient.createdNonce = (outcome, r)) :
    ∃ verified, authRoundInDo platform sid weather.polling raw none e =
      ((e.called platform sid weather).settleRounds platform r, verified, some (outcome, r.current)) := by
  obtain ⟨reached, answered, read, written⟩ := handed
  have round := authRound_through platform read written (e.called platform sid weather) raw
  rw [authRounds_called present, advanced] at round
  refine ⟨(authRoundInDo platform sid weather.polling raw none e).2.1, ?_⟩
  simp only [authRoundInDo, WireWeather.polling, reached, Bool.not_true, Bool.false_eq_true, if_false]
  rw [show (e.ensureHeartbeat platform weather.ambient).ensureInner sid = e.called platform sid weather from rfl, round]
  simp [answered, read, written, rounds_settleRounds]

variable (platform) in
/-- The call with a round the Worker completed itself. -/
theorem authRoundInDo_completed (present : e.inner.isSome) (sid : String) (raw : AuthArg) {state : SessionAuthState}
    (complete : state.isAuthenticated = true) :
    authRoundInDo platform sid weather.polling raw (some state) e =
      ((e.called platform sid weather).settleRounds platform (rememberAuthRound e.authRounds state),
        [.selected (rememberAuthRound e.authRounds state).current],
        some (.quiet, (rememberAuthRound e.authRounds state).current)) := by
  obtain ⟨reached, answered, read, written⟩ := handed
  have round := authRound_completed platform read written (e.called platform sid weather) raw complete
  rw [authRounds_called present] at round
  simp only [authRoundInDo, WireWeather.polling, reached, Bool.not_true, Bool.false_eq_true, if_false]
  rw [show (e.ensureHeartbeat platform weather.ambient).ensureInner sid = e.called platform sid weather from rfl, round]
  simp [answered, read, written, complete, rounds_settleRounds]

end Rounds

section Generals
variable {platform : Platform} {weather : WireWeather}

theorem buildOutboundGeneral_unsigned {round : SessionAuthState} (unsigned : weather.signs round = false)
    (nsp eventName : String) (data : Value) : buildOutboundGeneral weather nsp round eventName data = [] := by
  simp [buildOutboundGeneral, unsigned]

theorem any_isClosed_build (nsp : String) (round : SessionAuthState) (eventName : String) (data : Value) :
    (buildOutboundGeneral weather nsp round eventName data).any Sent.isClosed = false := by
  unfold buildOutboundGeneral
  split <;> rfl

/-- Away from the three events that only the session suffixes, the two rules give one name. -/
theorem authsocketEventName_alike {ev : OutboundEvent} (alike : ¬ SuffixedOnSocketOnly ev) :
    Worker.authsocketEventName ev.eventName ev.data = authsocketEventName ev.eventName ev.data := by
  unfold Worker.authsocketEventName authsocketEventName
  by_cases both : ev.eventName = "sendMessage" ∨ ev.eventName = "sendMessageAck"
  · have listed : ev.eventName ∈ ["sendMessage", "sendMessageAck", "peerLeft", "peerJoined", "presence"] := by
      rcases both with same | same <;> simp [same]
    cases room : (ev.data.get "roomId").bind Value.asStr with
    | none => simp only [if_pos both, if_pos listed]
    | some roomId => simp only [if_pos both, if_pos listed]
  rw [if_neg both]
  split
  next listed =>
    have socketOnly : ev.eventName ∈ ["peerLeft", "peerJoined", "presence"] := by
      simp only [List.mem_cons, List.not_mem_nil, or_false] at listed ⊢
      tauto
    have roomless : (ev.data.get "roomId").bind Value.asStr = none := by
      by_contra room
      exact alike ⟨socketOnly, Option.isSome_iff_ne_none.mpr room⟩
    rw [roomless]
  · rfl

theorem authsocketEventName_success (data : Value) :
    authsocketEventName "authenticationSuccess" data = "authenticationSuccess" := by
  simp [authsocketEventName]

theorem emitSignedGeneral_unsigned {round : SessionAuthState} (unsigned : weather.signs round = false) (nsp : String) :
    emitSignedGeneral weather nsp round = fun _ => [] :=
  funext (fun _ => buildOutboundGeneral_unsigned unsigned nsp _ _)

/-- The hub's events go out alike. -/
theorem enqueued_alike {nsp : String} {round : SessionAuthState}
    (alike : weather.signs round = true → ∀ ev ∈ weather.hub, nsp = "/" ∧ ¬ SuffixedOnSocketOnly ev) :
    Worker.enqueued weather round = weather.hub.flatMap (emitSignedGeneral weather nsp round) := by
  unfold Worker.enqueued
  apply List.flatMap_congr
  intro ev member
  cases signed : weather.signs round with
  | false => rw [buildOutboundGeneral_unsigned signed, emitSignedGeneral_unsigned signed]
  | true =>
    obtain ⟨default, named⟩ := alike signed ev member
    rw [emitSignedGeneral, default, authsocketEventName_alike named]

variable (platform) in
/-- A General is answered alike on its round. -/
theorem generalAnswers_alike {nsp : String} {payload : Bytes} {e : Engine} {s : SessionState} {identity : String}
    (held : e.inner = some s) (named : s.auth.verifiedIdentityKey = some identity)
    (alike : EventAlike weather nsp s.auth s.authenticatedEmitted (decodeEventPayload platform payload)) :
    Worker.generalAnswers platform weather s.auth payload = e.generalAnswers platform weather nsp payload := by
  simp only [Worker.generalAnswers, Engine.generalAnswers, held, named]
  unfold EventAlike at alike
  by_cases fast : (decodeEventPayload platform payload).1 = "authenticated"
  · rw [if_pos fast] at alike
    rw [if_pos fast, if_pos fast]
    cases signed : weather.signs s.auth with
    | false => rw [buildOutboundGeneral_unsigned signed, emitSignedGeneral_unsigned signed]
    | true =>
      obtain ⟨default, unasked⟩ := alike signed
      have noOffer : laneOffer platform weather s.auth identity (decodeEventPayload platform payload).2 = none := by
        unfold laneOffer
        rcases unasked with absent | absent <;> simp [absent]
      simp [noOffer, emitSignedGeneral, authsocketEventName_success, default]
  · rw [if_neg fast] at alike
    rw [if_neg fast, if_neg fast, enqueued_alike (fun signed => (alike signed).2)]
    have deferred : (if s.authenticatedEmitted then []
        else buildOutboundGeneral weather nsp s.auth "authenticated"
          (.object [("identityKey", .string identity)])) = [] := by
      split
      · rfl
      next late =>
        exact buildOutboundGeneral_unsigned (Bool.eq_false_iff.mpr (fun signed => late (alike signed).1)) _ _ _
    rw [deferred, List.nil_append]

theorem any_isClosed_generalAnswers (nsp : String) (payload : Bytes) (e : Engine) :
    (e.generalAnswers platform weather nsp payload).any Sent.isClosed = false := by
  have signed (round : SessionAuthState) :
      (weather.hub.flatMap (emitSignedGeneral weather nsp round)).any Sent.isClosed = false := by
    rw [List.any_flatMap, List.any_eq_false]
    intro ev _
    rw [emitSignedGeneral, any_isClosed_build]
    exact Bool.false_ne_true
  unfold Engine.generalAnswers
  cases e.inner with
  | none => rfl
  | some s =>
    simp only
    cases s.auth.verifiedIdentityKey with
    | none => rfl
    | some identity =>
      simp only
      split
      · exact any_isClosed_build _ _ _ _
      · rw [List.any_append, List.any_cons, signed]
        split
        · rfl
        · rw [any_isClosed_build]
          rfl

end Generals

/-- An auth message is answered alike, and both session objects settle the same rounds. -/
structure Together (platform : Platform) (weather : WireWeather) (sid nsp : String) (raw : AuthArg) (w : Worker)
    (e : Engine) : Prop where
  answers : w.authAnswers platform weather sid raw = e.authAnswers platform weather nsp raw
  stays : (e.authAnswers platform weather nsp raw).any Sent.isClosed = false
  admitted : (handleAuthmessage platform sid weather.polling raw w).1.admitted = w.admitted
  object : (handleAuthmessage platform sid weather.polling raw w).1.session.inner.isSome
  seat : (Engine.finish platform weather (e.dispatchAuthMessage platform raw weather.ambient)).seat.2.map Prod.fst =
    some sid
  rounds : ∃ r, (handleAuthmessage platform sid weather.polling raw w).1.session.seat.1 = some r ∧
    (Engine.finish platform weather (e.dispatchAuthMessage platform raw weather.ambient)).seat.1 = some r

section Messages
variable {platform : Platform} {weather : WireWeather} {sid nsp : String} {raw : AuthArg} {msg : AuthMessage}
  {w : Worker} {e : Engine} {s : SessionState}

theorem messageType_ne (typed : raw.messageType = some msg.messageType.text) {type : MessageType}
    (other : msg.messageType ≠ type) : raw.messageType ≠ some type.text := by
  rw [typed]
  exact fun same => other (MessageType.text_injective (Option.some.inj same))

/-- Both objects settled the same rounds, and the answers are alike. -/
theorem together_of_settled (held : e.inner = some s) (sameSid : s.sid = sid) (object : w.session.inner.isSome)
    (r : AuthRoundState)
    (worker : (handleAuthmessage platform sid weather.polling raw w).1.session =
        (w.session.called platform sid weather).settleRounds platform r ∧
      (handleAuthmessage platform sid weather.polling raw w).1.admitted = w.admitted)
    (session : (Engine.finish platform weather (e.dispatchAuthMessage platform raw weather.ambient)).seat =
      (e.settleRounds platform r).seat)
    (answers : w.authAnswers platform weather sid raw = e.authAnswers platform weather nsp raw)
    (stays : (e.authAnswers platform weather nsp raw).any Sent.isClosed = false) :
    Together platform weather sid nsp raw w e := by
  refine ⟨answers, stays, worker.2, ?_, ?_, r, ?_, ?_⟩
  · rw [worker.1, isSome_settleRounds, isSome_called object]
  · rw [session, seat_settleRounds, held]
    simp [sameSid]
  · rw [worker.1, seat_settleRounds]
  · rw [session, seat_settleRounds]

variable (keyed : weather.keyed = true) (handed : HandedOver weather) (held : e.inner = some s) (sameSid : s.sid = sid)
  (object : w.session.inner.isSome) (rounds : w.session.authRounds = e.authRounds)
  (decoded : raw.message = .ok msg) (version : msg.version = platform.wallet.authVersion)
  (typed : raw.messageType = some msg.messageType.text)
include keyed handed held sameSid object rounds decoded version typed

/-- The InitialRequest. The Worker completes the round itself and hands it over; the session advances its own. -/
theorem together_request (request : msg.messageType = .initialRequest) (default : nsp = "/") {response : AuthMessage}
    (processed : processInitialRequest platform.wallet msg weather.ambient.createdNonce = .ok response) :
    Together platform weather sid nsp raw w e := by
  obtain ⟨state, opens, complete⟩ := processInitialRequest_opens decoded processed
  have isRequest : raw.messageType = some "initialRequest" := by rw [typed, request]; rfl
  have outbound := handleAuthMessage_request decoded version request processed
  have call := authRoundInDo_completed platform handed object sid raw complete
  have advanced : advanceAuthRounds platform.wallet raw e.authRounds weather.ambient.createdNonce =
      (.outbound [response], rememberAuthRound e.authRounds state) := by
    simp [advanceAuthRounds, isRequest, outbound, opens]
  have round := authRound_through platform handed.2.2.1 handed.2.2.2 e raw
  rw [advanced] at round
  have session : Engine.finish platform weather (e.dispatchAuthMessage platform raw weather.ambient) =
      (e.settleRounds platform (rememberAuthRound e.authRounds state)).persistToWsAttachment platform := by
    simp [Engine.dispatchAuthMessage, round, opens, Engine.finish]
  have sent : e.authAnswers platform weather nsp raw = [.authMessage "/" response] := by
    simp [Engine.authAnswers, keyed, round, default]
  apply together_of_settled held sameSid object (rememberAuthRound e.authRounds state)
  · simp [handleAuthmessage, keyed, isRequest, outbound, completedRound, opens, Except.map, call, rounds]
  · rw [session, seat_persist]
  · rw [sent]
    simp [Worker.authAnswers, keyed, isRequest, outbound, completedRound, opens, Except.map, call]
  · rw [sent]
    rfl

/-- The other types say nothing. -/
theorem together_quiet (request : msg.messageType ≠ .initialRequest) (isGeneral : msg.messageType ≠ .general) :
    Together platform weather sid nsp raw w e := by
  have notRequest : raw.messageType ≠ some "initialRequest" := messageType_ne typed request
  have notGeneral : raw.messageType ≠ some "general" := messageType_ne typed isGeneral
  have quiet := handleAuthMessage_quiet weather.ambient.createdNonce decoded version request isGeneral
  have advanced : advanceAuthRounds platform.wallet raw e.authRounds weather.ambient.createdNonce =
      (.quiet, e.authRounds) := by
    simp [advanceAuthRounds, notGeneral, quiet]
  obtain ⟨verified, call⟩ := authRoundInDo_through platform handed object sid raw
    ((congrArg (advanceAuthRounds platform.wallet raw · weather.ambient.createdNonce) rounds).trans advanced)
  have round := authRound_through platform handed.2.2.1 handed.2.2.2 e raw
  rw [advanced] at round
  have session : Engine.finish platform weather (e.dispatchAuthMessage platform raw weather.ambient) =
      e.settleRounds platform e.authRounds := by
    simp [Engine.dispatchAuthMessage, round, Engine.finish]
  have sent : e.authAnswers platform weather nsp raw = [] := by
    simp [Engine.authAnswers, keyed, round]
  apply together_of_settled held sameSid object e.authRounds
  · simp [handleAuthmessage, keyed, notRequest, completedRound, call]
  · rw [session]
  · rw [sent]
    simp [Worker.authAnswers, keyed, notRequest, completedRound, call]
  · rw [sent]
    rfl

/-- A General. Both objects select the round it names, and the event in it goes to the same hub. -/
theorem together_general (isGeneral : msg.messageType = .general) {serverSessionNonce peerNonce : String}
    {signature : Bytes}
    (selected : selectRound e.authRounds raw.yourNonce =
      some (.authenticated serverSessionNonce peerNonce msg.identityKey))
    (signed : msg.signature = some signature)
    (valid : platform.wallet.verifySignature msg serverSessionNonce signature = .ok true)
    (alike : EventAlike weather nsp (.authenticated serverSessionNonce peerNonce msg.identityKey) s.authenticatedEmitted
      (decodeEventPayload platform (msg.payload.getD []))) :
    Together platform weather sid nsp raw w e := by
  have notRequest : raw.messageType ≠ some "initialRequest" :=
    messageType_ne typed (show msg.messageType ≠ .initialRequest by rw [isGeneral]; simp)
  have general : raw.messageType = some "general" := by rw [typed, isGeneral]; rfl
  have handled := handleAuthMessage_signed weather.ambient.createdNonce decoded version peerNonce
    isGeneral signed valid
  set chosen : SessionAuthState := .authenticated serverSessionNonce peerNonce msg.identityKey
  set r : AuthRoundState := { e.authRounds with current := chosen } with settled
  have advanced : advanceAuthRounds platform.wallet raw e.authRounds weather.ambient.createdNonce =
      (.authenticatedGeneral (msg.payload.getD []), r) := by
    simp [advanceAuthRounds, general, selected, handled, settled]
  obtain ⟨verified, call⟩ := authRoundInDo_through platform handed object sid raw
    ((congrArg (advanceAuthRounds platform.wallet raw · weather.ambient.createdNonce) rounds).trans advanced)
  have round := authRound_through platform handed.2.2.1 handed.2.2.2 e raw
  rw [advanced] at round
  have held' : (e.settleRounds platform r).inner =
      some { s with auth := chosen, connected := s.connected || true } := by
    rw [inner_settleRounds, held]
    rfl
  have session : (Engine.finish platform weather (e.dispatchAuthMessage platform raw weather.ambient)).seat =
      (e.settleRounds platform r).seat := by
    rw [Engine.dispatchAuthMessage, round]
    exact seat_finish_dispatchGeneral platform weather _ _ _
  have sent : e.authAnswers platform weather nsp raw =
      (e.settleRounds platform r).generalAnswers platform weather nsp (msg.payload.getD []) := by
    simp [Engine.authAnswers, keyed, round]
  apply together_of_settled held sameSid object r
  · simp [handleAuthmessage, keyed, notRequest, completedRound, call]
  · exact session
  · have same := generalAnswers_alike platform held' rfl alike
    rw [sent, ← same]
    simp [Worker.authAnswers, keyed, notRequest, completedRound, call, settled]
  · rw [sent, any_isClosed_generalAnswers]

end Messages

/-- The invariant: the socket is open, the POST is admitted, and auth messages are judged on the same rounds. -/
structure Paired (sid : String) (w : Worker) (socket : Socket) : Prop where
  isOpen : socket.isOpen = true
  admitted : w.admitted = true
  object : w.session.inner.isSome
  held : socket.session.seat.2.map Prod.fst = some sid
  rounds : w.session.authRounds = socket.session.authRounds

section Steps
variable {platform : Platform} {libraries : Libraries} {sid : String} {w : Worker} {socket : Socket}

theorem Paired.inner (paired : Paired sid w socket) : ∃ s, socket.session.inner = some s ∧ s.sid = sid := by
  have held := paired.held
  simp only [Engine.seat, Option.map_map, Option.map_eq_some_iff] at held
  exact held

/-- What leaves the seat alone keeps the invariant. -/
theorem Paired.unmoved (paired : Paired sid w socket) {w' : Worker} {e : Engine} (admitted : w'.admitted = w.admitted)
    (object : w'.session = w.session) (seat : e.seat = socket.session.seat) : Paired sid w' ⟨e, true⟩ := by
  refine ⟨rfl, admitted.trans paired.admitted, object ▸ paired.object, seat ▸ paired.held, ?_⟩
  rw [object, paired.rounds, authRounds_eq_seat, authRounds_eq_seat, seat]

variable (platform) in
/-- A POST on a session that was not closed is admitted, and nothing else moves. -/
theorem Paired.opened (paired : Paired sid w socket) {post : Option Bool}
    (live : post = some true → w.kvClosed = false) :
    Paired sid (w.opened platform sid post) socket ∧
      ∀ read, (w.opened platform sid post).loadAuthState read = w.loadAuthState read := by
  cases post with
  | none => exact ⟨paired, fun _ => rfl⟩
  | some closedRead =>
    have admitted : (w.opened platform sid (some closedRead)).admitted = true := by
      cases closedRead with
      | false => rfl
      | true => simp [Worker.opened, pollingStep, live rfl]
    exact ⟨⟨paired.isOpen, admitted, paired.object, paired.held, paired.rounds⟩, fun _ => rfl⟩

theorem clientEvent_authMessage {data : List Value} {raw : AuthArg}
    (event : libraries.clientEvent data = .authMessage raw) : raw = libraries.authArg (eventArgument data) := by
  simp only [Libraries.clientEvent] at event
  split at event
  · cases event
  split at event
  · exact (ClientEvent.authMessage.inj event).symm
  split at event
  · cases event
  split at event <;> cases event

/-- A plain event moves no round. -/
theorem forwardAndEnqueue_kept (weather : PollingWeather) (eventName : String) (w : Worker) :
    (forwardAndEnqueue weather eventName w).1.admitted = w.admitted ∧
      (forwardAndEnqueue weather eventName w).1.session = w.session := by
  unfold forwardAndEnqueue
  simp only
  split <;> exact ⟨rfl, rfl⟩

/-- An auth message under the condition. -/
theorem Paired.together (paired : Paired sid w socket) {weather : WireWeather} {nsp : String} {data : List Value}
    {raw : AuthArg} (event : libraries.clientEvent data = .authMessage raw) (keyed : weather.keyed = true)
    (handed : HandedOver weather)
    (alike : ∀ s, socket.session.inner = some s →
      AuthAlike platform weather nsp raw socket.session.authRounds s.authenticatedEmitted) :
    Together platform weather sid nsp raw w socket.session := by
  obtain ⟨s, held, sameSid⟩ := paired.inner
  obtain ⟨msg, decoded, version, byType⟩ := alike s held
  have typed : raw.messageType = some msg.messageType.text := by
    rw [clientEvent_authMessage event] at decoded ⊢
    exact libraries.typed _ msg decoded
  cases type : msg.messageType with
  | initialRequest =>
    simp only [type] at byType
    obtain ⟨default, response, processed⟩ := byType
    exact together_request keyed handed held sameSid paired.object paired.rounds decoded version typed type default
      processed
  | general =>
    simp only [type] at byType
    obtain ⟨serverSessionNonce, peerNonce, signature, selected, signed, valid, generals⟩ := byType
    exact together_general keyed handed held sameSid paired.object paired.rounds decoded version typed type selected
      signed valid generals
  | initialResponse | certificateRequest | certificateResponse =>
    exact together_quiet keyed handed held sameSid paired.object paired.rounds decoded version typed
      (by rw [type]; simp) (by rw [type]; simp)

/-- One frame on both sides: the same goes out, the socket stays open, and the invariant holds after it. -/
structure Matched (platform : Platform) (libraries : Libraries) (sid : String) (weather : WireWeather)
    (frame : WireFrame) (w : Worker) (e : Engine) : Prop where
  sent : w.frameAnswers platform libraries weather sid frame = e.frameAnswers platform libraries weather frame
  stays : (e.frameAnswers platform libraries weather frame).any Sent.isClosed = false
  paired : Paired sid (handlePollingPacket platform sid weather.polling (libraries.frame frame) w).1
    ⟨e.takeFrame platform libraries weather frame, true⟩

section Frames
variable (paired : Paired sid w socket) (weather : WireWeather)
include paired

/-- A frame that neither side answers and that moves no round. -/
theorem Paired.silent {frame : WireFrame} (worker : w.frameAnswers platform libraries weather sid frame = [])
    (session : socket.session.frameAnswers platform libraries weather frame = [])
    (admitted : (handlePollingPacket platform sid weather.polling (libraries.frame frame) w).1.admitted = w.admitted)
    (object : (handlePollingPacket platform sid weather.polling (libraries.frame frame) w).1.session = w.session)
    (seat : (socket.session.takeFrame platform libraries weather frame).seat = socket.session.seat) :
    Matched platform libraries sid weather frame w socket.session := by
  refine ⟨worker.trans session.symm, ?_, paired.unmoved admitted object seat⟩
  rw [session]
  rfl

theorem Paired.connect : Matched platform libraries sid weather (.message (some (.connect "/"))) w socket.session := by
  obtain ⟨s, held, sameSid⟩ := paired.inner
  have connected : (socket.session.takeFrame platform libraries weather (.message (some (.connect "/")))).seat =
      socket.session.seat := by
    change ((socket.session.modify (fun s => { s with connected := true })).persistToWsAttachment platform).seat = _
    rw [seat_persist]
    exact seat_modify _ (fun _ => ⟨rfl, rfl⟩)
  refine ⟨?_, rfl, paired.unmoved rfl rfl connected⟩
  simp [Worker.frameAnswers, Worker.packetAnswers, Engine.frameAnswers, Engine.packetAnswers, held, sameSid]

/-- A plain event while the Worker reads no authenticated state. -/
theorem Paired.plain {nsp name : String} {data : List Value} (event : libraries.clientEvent data = .other name)
    (unread : (w.loadAuthState weather.authRead).isAuthenticated = false) :
    Matched platform libraries sid weather (.message (some (.event nsp data))) w socket.session := by
  have anonymous : (w.loadAuthState weather.authRead).verifiedIdentityKey = none := by
    cases known : w.loadAuthState weather.authRead with
    | unauthenticated => rfl
    | authenticated =>
      rw [known] at unread
      cases unread
  have forwarded : (handlePollingPacket platform sid weather.polling
      (libraries.frame (.message (some (.event nsp data)))) w).1 = (forwardAndEnqueue weather.polling name w).1 := by
    simp [Libraries.frame, Libraries.packet, handlePollingPacket, handleSocketioInWorker, handleSocketioEvent, event,
      ClientEvent.name]
  apply paired.silent
  · simp [Worker.frameAnswers, Worker.packetAnswers, Worker.eventAnswers, event, Worker.plainAnswers, anonymous]
  · simp [Engine.frameAnswers, Engine.packetAnswers, Engine.eventAnswers, event]
  · rw [forwarded]
    exact (forwardAndEnqueue_kept weather.polling name w).1
  · rw [forwarded]
    exact (forwardAndEnqueue_kept weather.polling name w).2
  · simp [Engine.takeFrame, Libraries.frame, Libraries.packet, event, Engine.handleEngineioPacket,
      Engine.dispatchSocketio, Engine.dispatchEvent, Engine.finish]

/-- An auth message. Without the server's key neither side looks at it. -/
theorem Paired.authMessage {nsp : String} {data : List Value} {raw : AuthArg}
    (event : libraries.clientEvent data = .authMessage raw)
    (condition : weather.keyed = true → HandedOver weather ∧ ∀ s, socket.session.inner = some s →
      AuthAlike platform weather nsp raw socket.session.authRounds s.authenticatedEmitted) :
    Matched platform libraries sid weather (.message (some (.event nsp data))) w socket.session := by
  have worker : (handlePollingPacket platform sid weather.polling
      (libraries.frame (.message (some (.event nsp data)))) w).1 =
        (handleAuthmessage platform sid weather.polling raw w).1 := by
    simp [Libraries.frame, Libraries.packet, handlePollingPacket, handleSocketioInWorker, handleSocketioEvent, event]
  cases keyed : weather.keyed with
  | false =>
    have idle : handleAuthmessage platform sid weather.polling raw w = (w, []) := by
      simp [handleAuthmessage, keyed]
    apply paired.silent
    · simp [Worker.frameAnswers, Worker.packetAnswers, Worker.eventAnswers, event, Worker.authAnswers, keyed]
    · simp [Engine.frameAnswers, Engine.packetAnswers, Engine.eventAnswers, event, Engine.authAnswers, keyed]
    · rw [worker, idle]
    · rw [worker, idle]
    · simp [Engine.takeFrame, Libraries.frame, Libraries.packet, event, keyed]
  | true =>
    obtain ⟨handed, generals⟩ := condition keyed
    have together := paired.together event keyed handed generals
    have answered : socket.session.frameAnswers platform libraries weather (.message (some (.event nsp data))) =
        socket.session.authAnswers platform weather nsp raw := by
      simp [Engine.frameAnswers, Engine.packetAnswers, Engine.eventAnswers, event]
    have taken : socket.session.takeFrame platform libraries weather (.message (some (.event nsp data))) =
        Engine.finish platform weather (socket.session.dispatchAuthMessage platform raw weather.ambient) := by
      simp [Engine.takeFrame, Libraries.frame, Libraries.packet, event, keyed]
    refine ⟨?_, ?_, ?_⟩
    · rw [answered, ← together.answers]
      simp [Worker.frameAnswers, Worker.packetAnswers, Worker.eventAnswers, event]
    · rw [answered, together.stays]
    · obtain ⟨r, left, right⟩ := together.rounds
      rw [worker, taken]
      refine ⟨rfl, together.admitted.trans paired.admitted, together.object, together.seat, ?_⟩
      rw [authRounds_eq_seat, authRounds_eq_seat, left, right]
      rfl

/-- An event under the condition. -/
theorem Paired.event {nsp : String} {data : List Value} {log : List (List Sent × List Sent)} {post : Option Bool}
    (alike : Alike platform libraries ⟨(w, socket), log⟩ ⟨.message (some (.event nsp data)), post, weather⟩) :
    Matched platform libraries sid weather (.message (some (.event nsp data))) w socket.session := by
  have condition := alike.2
  simp only at condition
  cases event : libraries.clientEvent data with
  | unnamed =>
    apply paired.silent
    · simp [Worker.frameAnswers, Worker.packetAnswers, Worker.eventAnswers, event]
    · simp [Engine.frameAnswers, Engine.packetAnswers, Engine.eventAnswers, event]
    · simp [Libraries.frame, Libraries.packet, handlePollingPacket, handleSocketioInWorker, handleSocketioEvent, event]
    · simp [Libraries.frame, Libraries.packet, handlePollingPacket, handleSocketioInWorker, handleSocketioEvent, event]
    · simp [Engine.takeFrame, Libraries.frame, Libraries.packet, event, Engine.handleEngineioPacket,
        Engine.dispatchSocketio, Engine.dispatchEvent, Engine.finish]
  | sessionAttach | sessionMessage =>
    rw [event] at condition
    exact condition.elim
  | other name =>
    rw [event] at condition
    exact paired.plain weather event condition
  | authMessage raw =>
    rw [event] at condition
    exact paired.authMessage weather event condition

/-- Any frame under the condition. -/
theorem Paired.frame {frame : WireFrame} {log : List (List Sent × List Sent)} {post : Option Bool}
    (alike : Alike platform libraries ⟨(w, socket), log⟩ ⟨frame, post, weather⟩) :
    Matched platform libraries sid weather frame w socket.session := by
  have closed : (Engine.finish platform weather (socket.session.closeSession, none)).seat = socket.session.seat :=
    seat_closeSession socket.session
  cases frame with
  | opened | noop => exact paired.silent weather rfl rfl rfl rfl rfl
  | close => exact paired.silent weather rfl rfl rfl rfl closed
  | ping payload => exact ⟨rfl, rfl, paired.unmoved rfl rfl rfl⟩
  | pong => exact paired.silent weather rfl rfl rfl rfl (seat_notePong socket.session)
  | upgrade =>
    refine paired.silent weather rfl rfl rfl rfl ?_
    change (Engine.persistToWsAttachment platform _).seat = _
    rw [seat_persist]
    exact seat_modify _ (fun _ => ⟨rfl, rfl⟩)
  | message packet =>
    cases packet with
    | none => exact paired.silent weather rfl rfl rfl rfl rfl
    | some packet =>
      cases packet with
      | connect nsp =>
        cases show nsp = "/" from alike.2
        exact paired.connect weather
      | disconnect => exact paired.silent weather rfl rfl rfl rfl closed
      | ack | connectError => exact paired.silent weather rfl rfl rfl rfl rfl
      | event nsp data => exact paired.event weather alike

end Frames

/-- The step. What either side sends is what the other does. -/
theorem Paired.arrive (paired : Paired sid w socket) {arrival : Arrival} {log : List (List Sent × List Sent)}
    (alike : Alike platform libraries ⟨(w, socket), log⟩ arrival) :
    Paired sid (w.arrive platform libraries sid arrival).1 (socket.arrive platform libraries arrival).1 ∧
      (w.arrive platform libraries sid arrival).2 = (socket.arrive platform libraries arrival).2 := by
  obtain ⟨frame, post, weather⟩ := arrival
  obtain ⟨opened, sameKv⟩ := paired.opened platform alike.1
  have posted : Alike platform libraries ⟨(w.opened platform sid post, socket), log⟩
      ⟨frame, none, weather⟩ := by
    refine ⟨fun no => (by cases no), ?_⟩
    have condition := alike.2
    simp only [sameKv] at condition ⊢
    exact condition
  obtain ⟨sent, stays, after⟩ := opened.frame weather posted
  simp only [Worker.arrive, Socket.arrive, pollingStep, opened.admitted, paired.isOpen, if_true, stays, Bool.not_false]
  exact ⟨after, sent⟩

end Steps

/-- From any state of the session object, with any entries in KV: while every packet meets the condition, the Worker and
the WebSocket hand the hub the same events and send the client the same packets, packet by packet. -/
theorem transports_alike (platform : Platform) (libraries : Libraries) (e : Engine) (s : SessionState)
    (held : e.inner = some s) (kvAuth : List SessionAuthState) (kvClosed : Bool) (arrivals : List Arrival)
    (alike : (transports platform libraries s.sid).Guarded (Alike platform libraries)
      (transportsFrom e kvAuth kvClosed) arrivals) :
    ∀ sent ∈ ((transports platform libraries s.sid).run (transportsFrom e kvAuth kvClosed) arrivals).log,
      sent.1 = sent.2 := by
  let inv (c : Config (Worker × Socket) (List Sent × List Sent)) : Prop :=
    Paired s.sid c.state.1 c.state.2 ∧ ∀ sent ∈ c.log, sent.1 = sent.2
  have start : inv (transportsFrom e kvAuth kvClosed) := by
    refine ⟨⟨rfl, rfl, ?_, ?_, rfl⟩, fun _ no => (by cases no)⟩
    · simp [transportsFrom, held]
    · simp [transportsFrom, Engine.seat, held]
  have step (c : Config (Worker × Socket) (List Sent × List Sent)) (arrival : Arrival) (before : inv c)
      (alike : Alike platform libraries c arrival) :
      inv ((transports platform libraries s.sid).advance c arrival) := by
    obtain ⟨paired, same⟩ := before.1.arrive alike
    refine ⟨paired, fun sent member => ?_⟩
    rcases List.mem_append.mp member with earlier | now
    · exact before.2 sent earlier
    · rw [List.mem_singleton.mp now]
      exact same
  exact ((transports platform libraries s.sid).run_invariant step start alike).2

/-- A message in JSON: its type, and for a General a payload of as many bytes as the array has entries. -/
def wireMessage (v : Value) : Except String AuthMessage :=
  let message (type : MessageType) (payload : Option Bytes) : AuthMessage :=
    { version := "0.1", messageType := type, identityKey := "alice", nonce := none, initialNonce := some "peer",
      yourNonce := some "nonce", payload, signature := some [1] }
  match (v.get "messageType").bind Value.asStr, v.get "payload" with
  | some "general", some (.array items) => .ok (message .general (some (items.map (fun _ => 0))))
  | some "initialRequest", _ => .ok (message .initialRequest none)
  | _, _ => .error "messageType"

theorem wireMessage_typed (v : Value) (msg : AuthMessage) (decoded : wireMessage v = .ok msg) :
    (v.get "messageType").bind Value.asStr = some msg.messageType.text := by
  unfold wireMessage at decoded
  simp only at decoded
  split at decoded
  next type _ =>
    cases decoded
    exact type
  next type =>
    cases decoded
    exact type
  · cases decoded

def wireLibraries : Libraries :=
  { authMessage := wireMessage, attachFrame := fun _ => none, laneFrame := fun _ => none,
    hmac := fun _ _ => List.Vector.replicate 32 0, typed := wireMessage_typed }

/-- The event of a General goes by the length of its payload. -/
def wirePlatform : Platform :=
  { pollingPlatform with
    parseJson := fun bytes =>
      some (.object [("eventName", .string (["authenticated", "joinRoom", "sendMessage"].getD bytes.length "")),
        ("data", .string "alice-game")]) }

def aliceRound : SessionAuthState := .authenticated "nonce" "peer" "alice"

/-- A session of alice's, past its first General. -/
def aliceState : SessionState :=
  { SessionState.new "sid" with connected := true, auth := aliceRound, authenticatedEmitted := true }

def aliceSession : Engine := ⟨some aliceState, none, some ⟨aliceRound, [aliceRound]⟩, []⟩

def calmWire (hub : List OutboundEvent) : WireWeather :=
  { keyed := true, ambient := .clockOnly 0, signs := fun _ => true, hub, verdict := .unavailable, reached := true,
    answered := true, authRead := some 0, authWritten := true, touched := true, closedWritten := true }

def wireGeneral (items : List Value) (hub : List OutboundEvent) : Arrival :=
  ⟨.message (some (.event "/" [.string "authMessage", .object [("messageType", .string "general"),
    ("yourNonce", .string "nonce"), ("payload", .array items)]])), some true, calmWire hub⟩

def wireRoom : Value := .object [("roomId", .string "alice-game")]

/-- A CONNECT, the `authenticated` General, and a send that the hub acknowledges. -/
def servedAlike : List Arrival :=
  [⟨.message (some (.connect "/")), some true, calmWire []⟩, wireGeneral [] [],
    wireGeneral [.null, .null] [⟨"sendMessageAck", wireRoom⟩]]

def servedLog : List (List Sent × List Sent) :=
  let both (sent : List Sent) := (sent, sent)
  [both [.connected "/" "sid"],
    both [.general "/" "authenticationSuccess" (.object [("status", .string "success")]) aliceRound],
    both [.forwarded "alice" "sendMessage" (.string "alice-game"),
      .general "/" ("sendMessageAck" ++ "-" ++ "alice-game") wireRoom aliceRound]]

theorem transports_alike_served :
    ((transports wirePlatform wireLibraries "sid").run (transportsFrom aliceSession [aliceRound] false) servedAlike).log =
        servedLog ∧ ∀ sent ∈ servedLog, sent.1 = sent.2 := by
  have run : ((transports wirePlatform wireLibraries "sid").run (transportsFrom aliceSession [aliceRound] false)
      servedAlike).log = servedLog := rfl
  refine ⟨run, ?_⟩
  rw [← run]
  apply transports_alike wirePlatform wireLibraries aliceSession aliceState rfl [aliceRound] false servedAlike
  refine ⟨⟨fun _ => rfl, rfl⟩, ⟨fun _ => rfl, fun _ => ⟨⟨rfl, rfl, rfl, rfl⟩, fun s held => ?_⟩⟩,
    ⟨fun _ => rfl, fun _ => ⟨⟨rfl, rfl, rfl, rfl⟩, fun s held => ?_⟩⟩, trivial⟩
  · refine ⟨_, rfl, rfl, "nonce", "peer", [1], rfl, rfl, rfl, fun _ => ?_⟩
    exact ⟨rfl, .inl rfl⟩
  · obtain rfl := (Option.some.inj held).symm
    refine ⟨_, rfl, rfl, "nonce", "peer", [1], rfl, rfl, rfl, fun _ => ⟨rfl, fun ev member => ⟨rfl, ?_⟩⟩⟩
    rw [List.mem_singleton.mp member]
    rintro ⟨no, -⟩
    simp at no

/-- A join, which the hub answers with the presence of its room, a plain event, and a CONNECT to a namespace. -/
def servedApart : List Arrival :=
  [wireGeneral [.null] [⟨"joinedRoom", wireRoom⟩, ⟨"presence", wireRoom⟩],
    ⟨.message (some (.event "/" [.string "sendMessage", .null])), some true, calmWire []⟩,
    ⟨.message (some (.connect "/games")), some true, calmWire []⟩]

def apartLog : List (List Sent × List Sent) :=
  let joined : List Sent :=
    [.forwarded "alice" "joinRoom" (.string "alice-game"), .general "/" "joinedRoom" wireRoom aliceRound]
  [(joined ++ [.general "/" "presence" wireRoom aliceRound],
      joined ++ [.general "/" ("presence" ++ "-" ++ "alice-game") wireRoom aliceRound]),
    ([.forwarded "alice" "sendMessage" .null], []),
    ([.connected "/games" "sid"], [.connectError "/games" "namespace not supported"])]

/-- The session is alice's on both sides, and on each of the three packets the transports differ. -/
theorem transports_apart :
    aliceSession.inner.map SessionState.auth = some aliceRound ∧
      ((transports wirePlatform wireLibraries "sid").run (transportsFrom aliceSession [aliceRound] false)
        servedApart).log = apartLog ∧ ∀ sent ∈ apartLog, sent.1 ≠ sent.2 := by
  refine ⟨rfl, rfl, fun sent member => ?_⟩
  simp only [apartLog, List.mem_cons, List.not_mem_nil, or_false] at member
  rcases member with rfl | rfl | rfl <;> simp

end MessageRelay.Session
