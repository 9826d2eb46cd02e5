import MessageRelay.Lane.SessionLane
import MessageRelay.Session.Auth

/-! The state of one Engine.IO session: in memory, and as the attachment of its WebSocket. The queue of
the polling transport is left out. -/

namespace MessageRelay.Session
open MessageRelay.Lane

/-- A JSON value. A number is the text it is printed with. -/
inductive Value where
  | null
  | bool (b : Bool)
  | number (text : String)
  | string (s : String)
  | array (items : List Value)
  | object (fields : List (String × Value))

namespace Value

def asStr : Value → Option String
  | .string s => some s
  | _ => none

def get (v : Value) (field : String) : Option Value :=
  match v with
  | .object fields => (fields.find? (fun f => f.1 == field)).map (fun f => f.2)
  | _ => none

end Value

inductive Transport where
  | polling
  | webSocket
  | upgradePending
  deriving DecidableEq, Repr

structure SessionState where
  sid : String
  transport : Transport
  connected : Bool
  closed : Bool
  auth : SessionAuthState
  joinedRooms : List String
  authenticatedEmitted : Bool
  awaitingPongSinceMs : Option Nat
  lastPingAtMs : Option Nat
  registryRefreshedAtMs : Option Nat
  lane : Option SessionLane
  attachAttempted : Bool
  deriving DecidableEq, Repr

structure WsAttachment where
  sid : String
  connected : Bool
  transport : Transport
  auth : SessionAuthState
  joinedRooms : List String
  authenticatedEmitted : Bool
  awaitingPongSinceMs : Option Nat
  lastPingAtMs : Option Nat
  registryRefreshedAtMs : Option Nat
  lane : Option SessionLane
  attachAttempted : Bool
  deriving DecidableEq, Repr

namespace SessionState

def new (sid : String) : SessionState :=
  { sid := sid,
    transport := .polling,
    connected := false,
    closed := false,
    auth := .unauthenticated,
    joinedRooms := [],
    authenticatedEmitted := false,
    awaitingPongSinceMs := none,
    lastPingAtMs := none,
    registryRefreshedAtMs := none,
    lane := none,
    attachAttempted := false }

def fromAttachment (att : WsAttachment) : SessionState :=
  { sid := att.sid,
    transport := att.transport,
    connected := att.connected,
    closed := false,
    auth := att.auth,
    joinedRooms := att.joinedRooms,
    authenticatedEmitted := att.authenticatedEmitted,
    awaitingPongSinceMs := att.awaitingPongSinceMs,
    lastPingAtMs := att.lastPingAtMs,
    registryRefreshedAtMs := att.registryRefreshedAtMs,
    lane := att.lane,
    attachAttempted := att.attachAttempted }

def toAttachment (s : SessionState) : WsAttachment :=
  { sid := s.sid,
    connected := s.connected,
    transport := s.transport,
    auth := s.auth,
    joinedRooms := s.joinedRooms,
    authenticatedEmitted := s.authenticatedEmitted,
    awaitingPongSinceMs := s.awaitingPongSinceMs,
    lastPingAtMs := s.lastPingAtMs,
    registryRefreshedAtMs := s.registryRefreshedAtMs,
    lane := s.lane,
    attachAttempted := s.attachAttempted }

@[simp] theorem toAttachment_fromAttachment (att : WsAttachment) : (fromAttachment att).toAttachment = att := rfl

/-- Only the closed flag is lost on the way through the attachment. -/
theorem fromAttachment_toAttachment (s : SessionState) :
    fromAttachment s.toAttachment = { s with closed := false } := rfl

def isConnected (s : SessionState) : Bool :=
  s.connected || s.auth.isAuthenticated

end SessionState

/-- What the session takes from the platform and from libraries: the hashes, the wallet, JSON, and
whether an attachment is under the cap of the WebSocket's storage. -/
structure Platform where
  crypto : Crypto
  wallet : Wallet
  parseJson : Bytes → Option Value
  printJson : Value → String
  fits : WsAttachment → Bool

def pingIntervalMs : Nat := 25000
def alarmLateGraceMs : Nat := 2000
def pingOverdueGraceMs : Nat := 2000
def pingTimeoutMs : Nat := 20000
def registryRefreshEveryMs : Nat := 175000
def broadcastBoxMarker : String := "-broadcast-"

inductive HeartbeatAction where
  | ping
  | close
  deriving DecidableEq, Repr

def heartbeatOnAlarm (nowMs : Nat) (awaitingPongSinceMs : Option Nat) (timeoutMs : Nat) : HeartbeatAction :=
  match awaitingPongSinceMs with
  | some since => if timeoutMs ≤ nowMs - since then .close else .ping
  | none => .ping

inductive HeartbeatRepair where
  | armed
  | pingNow
  | armIn (ms : Nat)
  deriving DecidableEq, Repr

def heartbeatRepair (nowMs : Nat) (lastPingAtMs alarmAtMs : Option Nat) : HeartbeatRepair :=
  let overdue := lastPingAtMs.any (fun last => pingIntervalMs + pingOverdueGraceMs ≤ nowMs - last)
  if overdue then .pingNow
  else if alarmAtMs.any (fun alarm => nowMs ≤ saturatingAdd alarm alarmLateGraceMs) then .armed
  else
    match lastPingAtMs with
    | some last =>
      if nowMs - last < pingIntervalMs then .armIn (last + pingIntervalMs - nowMs) else .pingNow
    | none => .pingNow

def registryRefreshDue (nowMs : Nat) (refreshedAtMs : Option Nat) : Bool :=
  match refreshedAtMs with
  | none => true
  | some t => registryRefreshEveryMs ≤ nowMs - t

/-- The session's own list of rooms after an event, and whether it changed. -/
def recordRoomMembership (rooms : List String) (eventName : String) (data : Value)
    (hubConfirmedJoin : Bool) : List String × Bool :=
  match data.asStr with
  | none => (rooms, false)
  | some room =>
    if eventName = "joinRoom" then
      if !hubConfirmedJoin || rooms.contains room then (rooms, false) else (rooms ++ [room], true)
    else if eventName = "leaveRoom" then
      let kept := rooms.filter (fun r => r != room)
      (kept, kept.length != rooms.length)
    else (rooms, false)

def authsocketEventName (name : String) (data : Value) : String :=
  if name ∈ ["sendMessage", "sendMessageAck", "peerLeft", "peerJoined", "presence"] then
    match (data.get "roomId").bind Value.asStr with
    | some roomId => name ++ "-" ++ roomId
    | none => name
  else name

def decodeEventPayload (platform : Platform) (payload : Bytes) : String × Value :=
  match platform.parseJson payload with
  | some v => (((v.get "eventName").bind Value.asStr).getD "_unknown", (v.get "data").getD .null)
  | none => ("_unknown", .null)

/-- Hashes given by their values, at the inputs listed. -/
def tableCrypto (hashes : List (Bytes × String)) (macs : List (String × Bytes × String)) : Crypto :=
  let zero : Bytes32 := List.Vector.replicate 32 0
  { sha256 := fun bytes =>
      ((hashes.find? (fun h => h.1 == bytes)).bind (fun h => hex32 h.2)).getD zero,
    sha256Hmac := fun key message =>
      ((macs.find? (fun m => hex32 m.1 == some key && m.2.1 == message)).bind (fun m => hex32 m.2.2)).getD
        zero }

end MessageRelay.Session
