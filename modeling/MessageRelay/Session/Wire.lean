import MessageRelay.Session.Polling

/-! The packets of a client with their data, and what goes out for each: the events handed to the hub and the packets
answered, by the session object on its WebSocket and by the polling Worker. The states are those of the two models. -/

namespace MessageRelay.Session
open MessageRelay.Lane

def MessageType.text : MessageType → String
  | .initialRequest => "initialRequest"
  | .initialResponse => "initialResponse"
  | .certificateRequest => "certificateRequest"
  | .certificateResponse => "certificateResponse"
  | .general => "general"

theorem MessageType.text_injective : Function.Injective MessageType.text := by
  intro a b same
  cases a <;> cases b <;> simp_all [MessageType.text]

/-- What is taken from libraries. A message is of the type its JSON names. -/
structure Libraries where
  authMessage : Value → Except String AuthMessage
  attachFrame : Value → Option AttachFrame
  laneFrame : Value → Option Frame
  hmac : Bytes → Bytes → Bytes32
  typed : ∀ v msg, authMessage v = .ok msg → (v.get "messageType").bind Value.asStr = some msg.messageType.text

inductive WirePacket where
  | connect (nsp : String)
  | disconnect
  | event (nsp : String) (data : List Value)
  | ack
  | connectError

inductive WireFrame where
  | opened
  | close
  | ping (payload : String)
  | pong
  | message (packet : Option WirePacket)
  | upgrade
  | noop

def eventArgument (data : List Value) : Value := data[1]?.getD .null

namespace Libraries
variable (libraries : Libraries)

def authArg (v : Value) : AuthArg :=
  { messageType := (v.get "messageType").bind Value.asStr, yourNonce := (v.get "yourNonce").bind Value.asStr,
    message := libraries.authMessage v }

def clientEvent (data : List Value) : ClientEvent :=
  match data.head?.bind Value.asStr with
  | none => .unnamed
  | some name =>
    if name = "authMessage" then .authMessage (libraries.authArg (eventArgument data))
    else if name = "sessionAttach" then .sessionAttach (libraries.attachFrame (eventArgument data))
    else if name = "sessionMessage" then .sessionMessage (libraries.laneFrame (eventArgument data))
    else .other name

def packet : WirePacket → SocketIoPacket
  | .connect nsp => .connect nsp
  | .disconnect => .disconnect
  | .event _ data => .event (libraries.clientEvent data)
  | .ack => .ack
  | .connectError => .connectError

def frame : WireFrame → EngineIoPacket
  | .opened => .opened
  | .close => .close
  | .ping _ => .ping
  | .pong => .pong
  | .message packet => .message (packet.map libraries.packet)
  | .upgrade => .upgrade
  | .noop => .noop

end Libraries

/-- An event handed to the hub, or a packet for the client. -/
inductive Sent where
  | forwarded (identity eventName : String) (data : Value)
  | pong (payload : String)
  | connected (nsp sid : String)
  | connectError (nsp message : String)
  | authMessage (nsp : String) (message : AuthMessage)
  /-- A General signed on the round, with the event in its payload. -/
  | general (nsp eventName : String) (data : Value) (round : SessionAuthState)
  | event (nsp eventName : String) (data : Value)
  /-- The socket itself is closed. -/
  | closed (code : Nat) (reason : String)

def Sent.isClosed : Sent → Bool
  | .closed .. => true
  | _ => false

/-- What the handlers of a packet meet: the server's key, what the platform draws and stores, the answers of the hub,
and what only the Worker depends on. -/
structure WireWeather where
  keyed : Bool
  ambient : Ambient
  /-- A General can be signed on the round. -/
  signs : SessionAuthState → Bool
  hub : List OutboundEvent
  verdict : HubVerdict
  reached : Bool
  answered : Bool
  authRead : Option Nat
  authWritten : Bool
  touched : Bool
  closedWritten : Bool

def WireWeather.polling (weather : WireWeather) : PollingWeather :=
  { keyed := weather.keyed, createdNonce := weather.ambient.createdNonce, reached := weather.reached,
    answered := weather.answered, ambient := weather.ambient, authRead := weather.authRead,
    authWritten := weather.authWritten, touched := weather.touched, closedWritten := weather.closedWritten }

namespace WireWeather
variable (weather : WireWeather)

@[simp] theorem polling_keyed : weather.polling.keyed = weather.keyed := rfl

@[simp] theorem polling_createdNonce : weather.polling.createdNonce = weather.ambient.createdNonce := rfl

end WireWeather

section Answers
variable (platform : Platform) (libraries : Libraries) (weather : WireWeather)

def buildOutboundGeneral (nsp : String) (round : SessionAuthState) (eventName : String) (data : Value) : List Sent :=
  if weather.signs round then [.general nsp eventName data round] else []

def emitSignedGeneral (nsp : String) (round : SessionAuthState) (ev : OutboundEvent) : List Sent :=
  buildOutboundGeneral weather nsp round (authsocketEventName ev.eventName ev.data) ev.data

def sessionOffer (lane : SessionLane) (salt : Bytes32) (ask : String) : Value :=
  .object [("ask", .string ask), ("expiresAt", .number (toString lane.expiresAtMs)), ("id", .string lane.id),
    ("salt", .string (hexEncode salt.toList))]

/-- The offer of a lane to a client that asked for one. -/
def laneOffer (round : SessionAuthState) (identityKey : String) (data : Value) : Option Value :=
  match Engine.laneAsk data, weather.ambient.laneBytes,
    Engine.mintLanePure platform round identityKey weather.ambient with
  | some ask, some (_, salt), some lane => some (sessionOffer lane salt ask)
  | _, _, _ => none

namespace Engine

/-- A verified General, after its round is settled. -/
def generalAnswers (nsp : String) (payload : Bytes) (e : Engine) : List Sent :=
  let (name, data) := decodeEventPayload platform payload
  match e.inner with
  | none => []
  | some s =>
    match s.auth.verifiedIdentityKey with
    | none => []
    | some identityKey =>
      if name = "authenticated" then
        let offer := (laneOffer platform weather s.auth identityKey data).map (fun offer => ("session", offer))
        emitSignedGeneral weather nsp s.auth
          ⟨"authenticationSuccess", .object (offer.toList ++ [("status", .string "success")])⟩
      else
        let deferred :=
          if s.authenticatedEmitted then []
          else buildOutboundGeneral weather nsp s.auth "authenticated" (.object [("identityKey", .string identityKey)])
        deferred ++ .forwarded identityKey name data :: weather.hub.flatMap (emitSignedGeneral weather nsp s.auth)

/-- A refused auth message costs the client its socket. -/
def authAnswers (nsp : String) (raw : AuthArg) (e : Engine) : List Sent :=
  if !weather.keyed then []
  else
    match e.authRound platform raw none weather.ambient with
    | (_, .outbound messages) => messages.map (.authMessage nsp)
    | (e, .authenticatedGeneral payload) => e.generalAnswers platform weather nsp payload
    | (_, .quiet) => []
    | (_, .error _) => [.closed 1008 "authentication failed; reconnect"]

def emitOnReferenceLane (nsp : String) (round : SessionAuthState) (ev : OutboundEvent) : List Sent :=
  if weather.keyed then emitSignedGeneral weather nsp round ev else []

def frameValue (frame : Frame) : Value :=
  .object ([("d", .string frame.d), ("e", .string frame.e), ("m", .string frame.m),
    ("n", .number (toString frame.n))] ++ (frame.s.map (fun s => ("s", .string s))).toList)

/-- The frame of an event on the lane, if it goes out on the lane. -/
def laneFrame (ev : OutboundEvent) (e : Engine) : Option Frame := do
  let lane ← e.inner.bind SessionState.lane
  if lane.active && lane.isLive weather.ambient.nowMs then
    (lane.sealOutbound platform.crypto (authsocketEventName ev.eventName ev.data) (platform.printJson ev.data)
      weather.ambient.nowMs).map Prod.fst
  else none

/-- The hub's events one after the other, each under the next counter of the lane. -/
def laneAnswers (nsp : String) (round : SessionAuthState) : Engine → List OutboundEvent → List Sent
  | _, [] => []
  | e, ev :: rest =>
    (match e.laneFrame platform weather ev with
      | some frame => [.event nsp "sessionEvent" (frameValue frame)]
      | none => emitOnReferenceLane weather nsp round ev) ++
      laneAnswers nsp round (e.emitOnSessionLane platform ev weather.ambient.nowMs) rest

def laneVerdict (frame : Option Frame) (s : SessionState) : Except Refusal (SessionLane × String × String) :=
  match frame, s.lane with
  | none, _ => .error .malformed
  | some _, none => .error .unknownSession
  | some f, some lane => lane.verifyInbound platform.crypto f weather.ambient.nowMs

def sessionMessageAnswers (nsp : String) (frame : Option Frame) (e : Engine) : List Sent :=
  match e.inner with
  | none => []
  | some s =>
    match laneVerdict platform weather frame s with
    | .error reason =>
      if s.auth.isAuthenticated then
        emitOnReferenceLane weather nsp s.auth ⟨"sessionRefused", .object [("reason", .string reason.asStr)]⟩
      else []
    | .ok (_, eventName, dataText) =>
      let data := (platform.parseJson (utf8 dataText)).getD .null
      let routed := (e.dispatchSessionMessage platform frame weather.ambient.nowMs).1
      .forwarded (s.auth.verifiedIdentityKey.getD "") eventName data ::
        laneAnswers platform weather nsp s.auth
          (routed.recordRooms platform eventName data weather.hub weather.ambient.nowMs) weather.hub

/-- A handler up to its end, with what the objects it waits for answer. -/
def finish : Engine × Option Task → Engine
  | (e, none) => e
  | (e, some (.registering identity name data)) =>
    (e.forwardEventToMessageHub identity ((e.inner.map SessionState.sid).getD "") name none).afterForward platform name
      data false weather.hub weather.ambient.nowMs
  | (e, some (.forwarding name data onLane)) =>
    e.afterForward platform name data onLane weather.hub weather.ambient.nowMs
  | (e, some (.attaching frame)) => e.afterAttach platform frame weather.verdict weather.ambient

def attachAckDomain : UInt8 := 1

def attachAckMac (hubKeyHex dText : String) : Option String :=
  (hexDecode hubKeyHex).map (fun key =>
    hexEncode (libraries.hmac key
      (utf8 "sessionAttached" ++ [attachAckDomain] ++ (platform.crypto.sha256 (utf8 dText)).toList)).toList)

/-- The ack of an attach that was committed. -/
def attachedAnswer (nsp : String) (frame : AttachFrame) : Option Sent :=
  match weather.verdict, weather.ambient.serverNonce, weather.ambient.laneBytes with
  | .ok hubIdentity hubKey, some random, some (_, salt) => do
    let serverNonce := hexEncode random.toList
    let identity := toAsciiLowercase hubIdentity
    let lane ← mintLanePure platform (.authenticated serverNonce frame.nonce identity) identity weather.ambient
    let d := platform.printJson (.object [("nonce", .string frame.nonce), ("serverNonce", .string serverNonce),
      ("session", sessionOffer lane salt frame.nonce)])
    let m ← attachAckMac platform libraries hubKey d
    some (.event nsp "sessionAttached" (.object [("d", .string d), ("m", .string m)]))
  | _, _, _ => none

def attachAnswer (nsp : String) (decoded : Option AttachFrame) : SessionEvent → Option Sent
  | .attachRefused reason => some (.event nsp "sessionAttachRefused" (.object [("reason", .string reason)]))
  | .attached _ _ => (parseAttachFrame decoded).bind (attachedAnswer platform libraries weather nsp)
  | _ => none

/-- Each exit of an attach that the client hears of is in the log. -/
def attachAnswers (nsp : String) (decoded : Option AttachFrame) (e : Engine) : List Sent :=
  let after := finish platform weather (e.dispatchSessionAttach platform decoded)
  (after.log.drop e.log.length).filterMap (attachAnswer platform libraries weather nsp decoded)

def eventAnswers (nsp : String) (event : ClientEvent) (e : Engine) : List Sent :=
  match event with
  | .unnamed | .other _ => []
  | .authMessage raw => e.authAnswers platform weather nsp raw
  | .sessionAttach frame => e.attachAnswers platform libraries weather nsp frame
  | .sessionMessage frame => if e.isConnected then e.sessionMessageAnswers platform weather nsp frame else []

def packetAnswers (packet : WirePacket) (e : Engine) : List Sent :=
  match packet with
  | .connect nsp =>
    if nsp = "/" then [.connected "/" ((e.inner.map SessionState.sid).getD "")]
    else [.connectError nsp "namespace not supported"]
  | .event nsp data => e.eventAnswers platform libraries weather nsp (libraries.clientEvent data)
  | .disconnect | .ack | .connectError => []

def frameAnswers (frame : WireFrame) (e : Engine) : List Sent :=
  match frame with
  | .ping payload => [.pong payload]
  | .message (some packet) => e.packetAnswers platform libraries weather packet
  | .opened | .close | .pong | .message none | .upgrade | .noop => []

/-- The state after a frame. Without the server's key an auth message is left alone. -/
def takeFrame (frame : WireFrame) (e : Engine) : Engine :=
  match libraries.frame frame with
  | .message (some (.event (.authMessage raw))) =>
    if weather.keyed then finish platform weather (e.dispatchAuthMessage platform raw weather.ambient) else e
  | packet => finish platform weather (e.handleEngineioPacket platform packet weather.ambient)

end Engine

namespace Worker

def authsocketEventName (name : String) (data : Value) : String :=
  if name = "sendMessage" ∨ name = "sendMessageAck" then
    match (data.get "roomId").bind Value.asStr with
    | some room => name ++ "-" ++ room
    | none => name
  else name

/-- What is queued for the hub's events. -/
def enqueued (round : SessionAuthState) : List Sent :=
  weather.hub.flatMap (fun ev =>
    buildOutboundGeneral weather "/" round (authsocketEventName ev.eventName ev.data) ev.data)

def generalAnswers (current : SessionAuthState) (payload : Bytes) : List Sent :=
  let (name, data) := decodeEventPayload platform payload
  if name = "authenticated" then
    buildOutboundGeneral weather "/" current "authenticationSuccess" (.object [("status", .string "success")])
  else
    match current.verifiedIdentityKey with
    | none => []
    | some identity => .forwarded identity name data :: enqueued weather current

def authAnswers (sid : String) (raw : AuthArg) (w : Worker) : List Sent :=
  if !weather.keyed then []
  else
    let own := if raw.messageType = some "initialRequest" then
        some (handleAuthMessage platform.wallet raw .unauthenticated weather.ambient.createdNonce)
      else none
    match completedRound raw own with
    | .error _ => []
    | .ok completed =>
      match authRoundInDo platform sid weather.polling raw completed w.session with
      | (_, _, none) => []
      | (_, _, some (remote, current)) =>
        match own.getD remote with
        | .outbound messages => messages.map (.authMessage "/")
        | .authenticatedGeneral payload => generalAnswers platform weather current payload
        | .quiet | .error _ => []

/-- Any other event is handed to the hub for the identity that the read of KV finds. -/
def plainAnswers (eventName : String) (data : Value) (w : Worker) : List Sent :=
  let auth := w.loadAuthState weather.authRead
  match auth.verifiedIdentityKey with
  | none => []
  | some identity => .forwarded identity eventName data :: if weather.keyed then enqueued weather auth else []

def eventAnswers (sid : String) (event : ClientEvent) (argument : Value) (w : Worker) : List Sent :=
  match event with
  | .unnamed => []
  | .authMessage raw => w.authAnswers platform weather sid raw
  | .sessionAttach _ | .sessionMessage _ | .other _ => w.plainAnswers weather event.name argument

def packetAnswers (sid : String) (packet : WirePacket) (w : Worker) : List Sent :=
  match packet with
  | .connect nsp => [.connected nsp sid]
  | .event _ data => w.eventAnswers platform weather sid (libraries.clientEvent data) (eventArgument data)
  | .disconnect | .ack | .connectError => []

def frameAnswers (sid : String) (frame : WireFrame) (w : Worker) : List Sent :=
  match frame with
  | .ping payload => [.pong payload]
  | .message (some packet) => w.packetAnswers platform libraries weather sid packet
  | .opened | .close | .pong | .message none | .upgrade | .noop => []

end Worker

end Answers

end MessageRelay.Session
