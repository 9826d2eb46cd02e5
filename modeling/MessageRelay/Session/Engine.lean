import MessageRelay.Session.State

/-! The handlers of one session object. Each is cut where it awaits another object: what runs up to the
await leaves a task behind, and what runs after it takes the answer. Storage calls of the object itself
are not interleaved with other handlers. The signed Generals sent back to the client are left out. -/

namespace MessageRelay.Session
open MessageRelay.Lane

/-- The lane a frame came in on, and its counter. -/
structure LaneStamp where
  id : String
  identity : String
  n : Nat
  deriving DecidableEq, Repr

/-- What a session decides and what leaves it. -/
inductive SessionEvent where
  /-- A General verified on this round. -/
  | general (raw : AuthArg) (round : SessionAuthState)
  | authRefused (reason : String)
  /-- The identity's hub verified the attach. -/
  | attachVerified (identity : String)
  | attachRefused (reason : String)
  | attached (laneId identity : String)
  | minted (laneId identity : String)
  | refused (reason : Refusal)
  /-- Handed to the hub of the identity, on the lane if the event came in on it. -/
  | forwarded (identity sid eventName : String) (session : Option MirrorUpdate) (lane : Option LaneStamp)
  | sealed (laneId : String) (n : Nat)
  | undelivered (reason : String)
  | register (identity sid : String)
  | unregister (identity sid : String) (laneId : Option String)
  | dropped (name : String)
  | pinged
  | pingTimeout
  | registryRefreshed (identity : String)
  /-- The platform refused to keep an attachment. -/
  | persistFailed

/-- One session object: its memory, the attachment of its WebSocket while one is attached, the durable
auth rounds, and everything it did so far. -/
structure Engine where
  inner : Option SessionState
  attachment : Option WsAttachment
  rounds : Option AuthRoundState
  log : List SessionEvent

/-- What a handler reads from the platform while it runs. -/
structure Ambient where
  nowMs : Nat
  /-- The pending alarm, or nothing when the storage does not answer. -/
  alarmAtMs : Option (Option Nat)
  /-- Whether a ping goes out on the socket. -/
  sent : Bool
  roundsRead : Bool
  roundsWritten : Bool
  createdNonce : Except String String
  serverNonce : Option Bytes32
  laneBytes : Option (Bytes32 × Bytes32)

structure OutboundEvent where
  eventName : String
  data : Value

structure AttachFrame where
  s : String
  identity : String
  n : Nat
  mac : String
  nonce : String
  deriving DecidableEq, Repr

def parseAttachFrame (decoded : Option AttachFrame) : Option AttachFrame :=
  match decoded with
  | none => none
  | some f =>
    let hexOk (s : String) (n : Nat) : Bool :=
      (utf8 s).length == n && s.toList.all (fun c => (hexDigit c).isSome)
    if hexOk f.s 64 && hexOk f.identity 66 && hexOk f.mac 64 && hexOk f.nonce 64 then
      some
        { s := toAsciiLowercase f.s, identity := toAsciiLowercase f.identity, n := f.n,
          mac := toAsciiLowercase f.mac, nonce := toAsciiLowercase f.nonce }
    else none

/-- What the hub answers to an attach, or why it could not be asked. -/
inductive HubVerdict where
  | unavailable
  | refused (reason : String)
  | ok (identity key : String)
  deriving DecidableEq, Repr

/-- A handler waiting for another object. -/
inductive Task where
  | registering (identity name : String) (data : Value)
  | forwarding (name : String) (data : Value) (onLane : Bool)
  | attaching (frame : AttachFrame)

/-- An event of the client, its argument as its handler decodes it. -/
inductive ClientEvent where
  | unnamed
  | authMessage (raw : AuthArg)
  | sessionAttach (frame : Option AttachFrame)
  | sessionMessage (frame : Option Frame)
  | other (name : String)

inductive SocketIoPacket where
  | connect (nsp : String)
  | disconnect
  | event (event : ClientEvent)
  | ack
  | connectError

inductive EngineIoPacket where
  | opened
  | close
  | ping
  | pong
  /-- The payload as it decodes, if it does. -/
  | message (packet : Option SocketIoPacket)
  | upgrade
  | noop

namespace Engine

def emit (e : Engine) (event : SessionEvent) : Engine :=
  { e with log := e.log ++ [event] }

def modify (e : Engine) (f : SessionState → SessionState) : Engine :=
  { e with inner := e.inner.map f }

/-- A refused attachment is logged and otherwise ignored. -/
def serializeAttachment (platform : Platform) (e : Engine) (att : WsAttachment) : Engine :=
  if platform.fits att then { e with attachment := some att } else e.emit .persistFailed

def persistToWsAttachment (platform : Platform) (e : Engine) : Engine :=
  match e.inner, e.attachment with
  | some s, some _ => e.serializeAttachment platform s.toAttachment
  | _, _ => e

/-- A new state in memory, then on the attachment. -/
def keepState (platform : Platform) (e : Engine) (s : SessionState) : Engine :=
  ({ e with inner := some s }).persistToWsAttachment platform

def rehydrateFromWsAttachment (e : Engine) : Engine :=
  match e.inner, e.attachment with
  | none, some att => if att.sid = "" then e else { e with inner := some (SessionState.fromAttachment att) }
  | _, _ => e

def ensureInner (e : Engine) (sid : String) : Engine :=
  let woken := e.rehydrateFromWsAttachment
  match woken.inner with
  | some _ => woken
  | none => { woken with inner := some (SessionState.new sid) }

/-- Ping stamps on the attachment and in memory. -/
def stampPing (platform : Platform) (e : Engine) (att : WsAttachment) (nowMs : Nat) : Engine :=
  ((e.emit .pinged).serializeAttachment platform
    { att with awaitingPongSinceMs := some nowMs, lastPingAtMs := some nowMs }).modify
      (fun s => { s with awaitingPongSinceMs := some nowMs, lastPingAtMs := some nowMs })

def ensureHeartbeat (platform : Platform) (e : Engine) (a : Ambient) : Engine :=
  match e.attachment, a.alarmAtMs with
  | some att, some alarmAt =>
    if att.sid = "" ∨ att.transport ≠ .webSocket then e
    else
      match heartbeatRepair a.nowMs att.lastPingAtMs alarmAt with
      | .pingNow => if a.sent then e.stampPing platform att a.nowMs else e
      | .armed | .armIn _ => e
  | _, _ => e

def notePong (platform : Platform) (e : Engine) : Engine :=
  let e := e.modify (fun s => { s with awaitingPongSinceMs := none })
  match e.attachment with
  | some att => e.serializeAttachment platform { att with awaitingPongSinceMs := none }
  | none => e

/-- Emit on the lane if it is live and the client has spoken on it. -/
def emitOnSessionLane (platform : Platform) (e : Engine) (ev : OutboundEvent) (nowMs : Nat) : Engine :=
  match e.inner with
  | none => e
  | some s =>
    match s.lane with
    | none => e
    | some lane =>
      if !lane.active || !lane.isLive nowMs then e
      else
        match lane.sealOutbound platform.crypto (authsocketEventName ev.eventName ev.data)
            (platform.printJson ev.data) nowMs with
        | none => e
        | some (frame, lane') =>
          -- the relay's counter moved: it is persisted before the frame leaves
          (e.keepState platform { s with lane := some lane' }).emit (.sealed lane.id frame.n)

/-- The rounds an auth message is judged on. -/
def authRounds (e : Engine) : AuthRoundState :=
  e.rounds.getD { current := (e.inner.map SessionState.auth).getD .unauthenticated, rounds := [] }

/-- The durable write, then the memory and the attachment. -/
def settleRounds (platform : Platform) (e : Engine) (r : AuthRoundState) : Engine :=
  (({ e with rounds := some r }).modify (fun s =>
    { s with auth := r.current, connected := s.connected || r.current.isAuthenticated })).persistToWsAttachment
      platform

def authRound (platform : Platform) (e : Engine) (raw : AuthArg) (completed : Option SessionAuthState)
    (a : Ambient) : Engine × AuthOutcome :=
  if !a.roundsRead then (e, .error "auth authority unavailable")
  else
    match completed with
    | some state =>
      if !state.isAuthenticated then (e, .error "incomplete auth handoff")
      else if !a.roundsWritten then (e, .error "auth authority unavailable")
      else (e.settleRounds platform (rememberAuthRound e.authRounds state), .quiet)
    | none =>
      let (outcome, r) := advanceAuthRounds platform.wallet raw e.authRounds a.createdNonce
      if !a.roundsWritten then (e, .error "auth authority unavailable")
      else (e.settleRounds platform r, outcome)

/-- The lane is taken out of the memory, and its id rides the unregister. -/
def unregisterWithMessageHub (e : Engine) : Engine :=
  match e.inner with
  | none => e
  | some s =>
    let identityKey := s.auth.verifiedIdentityKey.getD ""
    let e := { e with inner := some { s with lane := none } }
    if identityKey = "" ∨ s.sid = "" then e
    else e.emit (.unregister identityKey s.sid (s.lane.map SessionLane.id))

def closeSession (e : Engine) : Engine :=
  (e.modify (fun s => { s with closed := true })).unregisterWithMessageHub

def teardownWsTransport (e : Engine) : Engine :=
  e.rehydrateFromWsAttachment.closeSession

def registerWithMessageHub (e : Engine) (identityKey : String) : Engine :=
  let sid := (e.inner.map SessionState.sid).getD ""
  if sid = "" ∨ identityKey = "" then e else e.emit (.register identityKey sid)

/-- Once the client has spoken on the lane, every forward carries its mirror. -/
def mirrorUpdate (e : Engine) : Option MirrorUpdate :=
  match e.inner.bind SessionState.lane with
  | some lane => if lane.active then some (MirrorUpdate.ofLane lane) else none
  | none => none

def forwardEventToMessageHub (e : Engine) (identityKey sid eventName : String) (lane : Option LaneStamp) :
    Engine :=
  e.emit (.forwarded identityKey sid eventName e.mirrorUpdate lane)

/-- The rooms after the hub's answer. -/
def recordRooms (platform : Platform) (e : Engine) (name : String) (data : Value)
    (outbound : List OutboundEvent) (nowMs : Nat) : Engine :=
  match e.inner with
  | none => e
  | some s =>
    let hubConfirmedJoin := outbound.any (fun ev => ev.eventName == "joinedRoom")
    let (rooms, changed) := recordRoomMembership s.joinedRooms name data hubConfirmedJoin
    if changed then
      let refreshed :=
        if hubConfirmedJoin && name == "joinRoom" then some nowMs else s.registryRefreshedAtMs
      e.keepState platform { s with joinedRooms := rooms, registryRefreshedAtMs := refreshed }
    else e

/-- After the hub answered a forward. -/
def afterForward (platform : Platform) (e : Engine) (name : String) (data : Value) (onLane : Bool)
    (outbound : List OutboundEvent) (nowMs : Nat) : Engine :=
  let e := e.recordRooms platform name data outbound nowMs
  if onLane then outbound.foldl (fun e ev => e.emitOnSessionLane platform ev nowMs) e else e

def mintLanePure (platform : Platform) (state : SessionAuthState) (identityKey : String) (a : Ambient) :
    Option SessionLane :=
  match state, a.laneBytes with
  | .authenticated serverSessionNonce peerNonce _, some (id, salt) =>
    some (SessionLane.mint platform.crypto identityKey peerNonce serverSessionNonce id salt a.nowMs)
  | _, _ => none

def mintSessionLane (platform : Platform) (e : Engine) (state : SessionAuthState) (identityKey : String)
    (a : Ambient) : Engine :=
  match e.inner, mintLanePure platform state identityKey a with
  | some s, some lane =>
    (e.keepState platform { s with lane := some lane }).emit (.minted lane.id identityKey)
  | _, _ => e

/-- The client's ask for a lane, at most 64 bytes. -/
def laneAsk (data : Value) : Option String :=
  ((data.get "laneAsk").bind Value.asStr).filter (fun ask => ask ≠ "" && (utf8 ask).length ≤ 64)

/-- A General verified on the session. -/
def dispatchGeneral (platform : Platform) (e : Engine) (payload : Bytes) (a : Ambient) : Engine × Option Task :=
  let (name, data) := decodeEventPayload platform payload
  match e.inner with
  | none => (e, none)
  | some s =>
    let e :=
      if s.authenticatedEmitted then e
      else e.keepState platform { s with authenticatedEmitted := true }
    match s.auth.verifiedIdentityKey with
    | none => (e, none)
    | some identityKey =>
      if name = "authenticated" then
        if (laneAsk data).isSome then (e.mintSessionLane platform s.auth identityKey a, none) else (e, none)
      else if !s.authenticatedEmitted then
        (e.registerWithMessageHub identityKey, some (.registering identityKey name data))
      else
        (e.forwardEventToMessageHub identityKey s.sid name none,
          some (.forwarding name data false))

def dispatchAuthMessage (platform : Platform) (e : Engine) (raw : AuthArg) (a : Ambient) :
    Engine × Option Task :=
  match e.authRound platform raw none a with
  | (e, .outbound messages) =>
    match messages.head?.map (sessionFromInitialResponse raw) with
    | some (.ok _) => (e.persistToWsAttachment platform, none)
    | _ => (e, none)
  | (e, .authenticatedGeneral payload) =>
    (e.emit (.general raw ((e.rounds.map AuthRoundState.current).getD .unauthenticated))).dispatchGeneral
      platform payload a
  | (e, .quiet) => (e, none)
  | (e, .error reason) => ((e.emit (.authRefused reason)).teardownWsTransport, none)

/-- One attach for each socket, judged and spent before the hub is asked. -/
def dispatchSessionAttach (platform : Platform) (e : Engine) (decoded : Option AttachFrame) :
    Engine × Option Task :=
  match parseAttachFrame decoded, e.inner with
  | none, _ => (e.emit (.attachRefused Refusal.malformed.asStr), none)
  | some _, none => (e, none)
  | some frame, some s =>
    if s.auth.isAuthenticated then (e.emit (.attachRefused "already-authenticated"), none)
    else if s.attachAttempted then (e.emit (.attachRefused "attach-exhausted"), none)
    else
      (e.keepState platform { s with attachAttempted := true }, some (.attaching frame))

/-- The session becomes the hub's identity and its lane is set in one step, or nothing does. -/
def commitAttach (platform : Platform) (e : Engine) (state : SessionAuthState) (lane : SessionLane)
    (hubKey : String) : Engine :=
  match e.inner with
  | none => e
  | some s =>
    if s.auth.isAuthenticated then e.emit (.attachRefused "already-authenticated")
    else
      let e :=
        e.keepState platform { s with auth := state, authenticatedEmitted := true, lane := some lane }
      match hexDecode hubKey with
      | none => e.emit (.attachRefused "mint-failed")
      | some _ => e.emit (.attached lane.id lane.identity)

def afterAttach (platform : Platform) (e : Engine) (frame : AttachFrame) (verdict : HubVerdict)
    (a : Ambient) : Engine :=
  match verdict with
  | .unavailable => e.emit (.attachRefused "hub-unavailable")
  | .refused reason => e.emit (.attachRefused reason)
  | .ok hubIdentity hubKey =>
    let identity := toAsciiLowercase hubIdentity
    if identity = "" ∨ identity ≠ frame.identity ∨ hubKey = "" then
      e.emit (.attachRefused Refusal.unknownSession.asStr)
    else
      let e := e.emit (.attachVerified identity)
      match a.serverNonce with
      | none => e.emit (.attachRefused "no-randomness")
      | some random =>
        let state : SessionAuthState := .authenticated (hexEncode random.toList) frame.nonce identity
        match mintLanePure platform state identity a with
        | none => e.emit (.attachRefused "mint-failed")
        | some lane => e.commitAttach platform state lane hubKey

def dispatchSessionMessage (platform : Platform) (e : Engine) (frame : Option Frame) (nowMs : Nat) :
    Engine × Option Task :=
  match e.inner with
  | none => (e, none)
  | some s =>
    match frame, s.lane with
    | none, _ => (e.emit (.refused .malformed), none)
    | some _, none => (e.emit (.refused .unknownSession), none)
    | some f, some lane =>
      match lane.verifyInbound platform.crypto f nowMs with
      | .error reason => (e.emit (.refused reason), none)
      | .ok (lane', eventName, dataText) =>
        -- the counter and the window moved: they are persisted before the event is routed
        let e := e.keepState platform { s with lane := some lane' }
        let data := (platform.parseJson (utf8 dataText)).getD .null
        let identityKey := s.auth.verifiedIdentityKey.getD ""
        (e.forwardEventToMessageHub identityKey s.sid eventName (some ⟨lane.id, lane.identity, f.n⟩),
          some (.forwarding eventName data true))

def isConnected (e : Engine) : Bool :=
  (e.inner.map SessionState.isConnected).getD false

def dispatchEvent (platform : Platform) (e : Engine) (event : ClientEvent) (a : Ambient) :
    Engine × Option Task :=
  match event with
  | .unnamed => (e, none)
  | .authMessage raw => e.dispatchAuthMessage platform raw a
  | .sessionAttach frame => e.dispatchSessionAttach platform frame
  | .sessionMessage frame =>
    if e.isConnected then e.dispatchSessionMessage platform frame a.nowMs
    else (e.emit (.dropped "sessionMessage"), none)
  | .other name => (e.emit (.dropped name), none)

def dispatchSocketio (platform : Platform) (e : Engine) (packet : SocketIoPacket) (a : Ambient) :
    Engine × Option Task :=
  match packet with
  | .connect nsp =>
    if nsp = "/" then ((e.modify (fun s => { s with connected := true })).persistToWsAttachment platform, none)
    else (e, none)
  | .disconnect => (e.closeSession, none)
  | .event event => e.dispatchEvent platform event a
  | .ack => (e, none)
  | .connectError => (e, none)

def handleEngineioPacket (platform : Platform) (e : Engine) (packet : EngineIoPacket) (a : Ambient) :
    Engine × Option Task :=
  match packet with
  | .opened => (e, none)
  | .close => (e.closeSession, none)
  | .ping => (e, none)
  | .pong => (e.notePong platform, none)
  | .message none => (e, none)
  | .message (some packet) => e.dispatchSocketio platform packet a
  | .upgrade =>
    ((e.modify (fun s =>
      { s with
        transport := .webSocket, awaitingPongSinceMs := none, lastPingAtMs := some a.nowMs })).persistToWsAttachment
        platform, none)
  | .noop => (e, none)

/-- A frame on the socket. Without a readable attachment it is dropped. -/
def websocketMessage (platform : Platform) (e : Engine) (packet : EngineIoPacket) (a : Ambient) :
    Engine × Option Task :=
  match e.attachment with
  | none => (e, none)
  | some att =>
    if att.sid = "" then (e, none)
    else (e.rehydrateFromWsAttachment.ensureHeartbeat platform a).handleEngineioPacket platform packet a

def websocketClose (e : Engine) : Engine :=
  { e.teardownWsTransport with attachment := none }

/-- The heartbeat tick, judged on the attachment alone. -/
def alarm (platform : Platform) (e : Engine) (a : Ambient) : Engine :=
  match e.attachment with
  | none => e
  | some att =>
    if att.sid = "" ∨ att.transport ≠ .webSocket then e
    else
      match heartbeatOnAlarm a.nowMs att.awaitingPongSinceMs pingTimeoutMs with
      | .close => (e.emit .pingTimeout).teardownWsTransport
      | .ping =>
        if !a.sent then e
        else
          let due :=
            att.joinedRooms.any (fun room => (room.splitOn broadcastBoxMarker).length > 1) &&
              registryRefreshDue a.nowMs att.registryRefreshedAtMs
          let refreshed := if due then some a.nowMs else att.registryRefreshedAtMs
          let e :=
            ((e.emit .pinged).serializeAttachment platform
              { att with
                awaitingPongSinceMs := some a.nowMs, lastPingAtMs := some a.nowMs,
                registryRefreshedAtMs := refreshed }).modify (fun s =>
              { s with
                awaitingPongSinceMs := some a.nowMs, lastPingAtMs := some a.nowMs,
                registryRefreshedAtMs := refreshed })
          match att.auth.verifiedIdentityKey with
          | some identity => if due then e.emit (.registryRefreshed identity) else e
          | none => e

def handleInit (e : Engine) (sid : String) : Engine :=
  if sid = "" then e
  else
    match e.inner with
    | some _ => e
    | none => { e with inner := some (SessionState.new sid) }

/-- A delivery pushed by the hub. -/
def handleSocketioBroadcast (platform : Platform) (e : Engine) (ev : OutboundEvent) (a : Ambient) : Engine :=
  let e := (e.ensureHeartbeat platform a).rehydrateFromWsAttachment
  match e.inner with
  | none => e.emit (.undelivered "no session")
  | some s =>
    if !s.auth.isAuthenticated then e.emit (.undelivered "unauthenticated")
    else (e.emitOnSessionLane platform ev a.nowMs).ensureHeartbeat platform a

/-- The Worker's call on the session's rounds. -/
def handleAuthRound (platform : Platform) (e : Engine) (sid : String) (raw : AuthArg)
    (completed : Option SessionAuthState) (a : Ambient) : Engine :=
  let e := (e.ensureHeartbeat platform a).ensureInner sid
  match e.authRound platform raw completed a with
  | (e, .authenticatedGeneral _) =>
    e.emit (.general raw ((e.rounds.map AuthRoundState.current).getD .unauthenticated))
  | (e, _) => e

def handlePollingGet (platform : Platform) (e : Engine) (sid : String) (a : Ambient) : Engine :=
  (e.ensureHeartbeat platform a).ensureInner sid

/-- The socket is accepted. The durable rounds win over the Worker's copy of the auth state. -/
def handleWsUpgrade (platform : Platform) (e : Engine) (sid : String) (kvAuth : SessionAuthState)
    (a : Ambient) : Engine :=
  match e.attachment with
  | some _ => e
  | none =>
    let e := e.ensureInner sid
    match e.inner with
    | none => e
    | some s =>
      if s.sid = "" ∨ !a.roundsRead then e
      else
        let auth := (e.rounds.map AuthRoundState.current).getD kvAuth
        let s := if auth.isAuthenticated then { s with auth := auth, connected := true } else s
        let s := { s with transport := .upgradePending }
        { e with inner := some s }.serializeAttachment platform s.toAttachment

def evict (e : Engine) : Engine :=
  { e with inner := none }

end Engine

end MessageRelay.Session
