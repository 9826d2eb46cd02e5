import MessageRelay.Library.Machine
import MessageRelay.Session.Engine

/-! One session object as a machine: its events, the answers its waiting handlers get, and evictions,
in any order. An eviction drops the memory; a handler waiting at that moment goes on without it or is
never heard of again. -/

namespace MessageRelay.Session
open MessageRelay.Library MessageRelay.Lane

structure SessionObject where
  engine : Engine
  tasks : AList (fun _ : Nat => Task)

inductive SessionInput where
  /-- A frame on the socket. If its handler has to wait, it waits under this number. -/
  | frame (task : Nat) (packet : EngineIoPacket) (a : Ambient)
  /-- The hub registered the session, or could not be reached. -/
  | registered (task : Nat)
  /-- What the hub sent back for a forward, nothing if every attempt failed. -/
  | hubAnswered (task : Nat) (outbound : List OutboundEvent) (a : Ambient)
  | attachAnswered (task : Nat) (verdict : HubVerdict) (a : Ambient)
  | abandoned (task : Nat)
  | broadcast (ev : OutboundEvent) (a : Ambient)
  | authRound (sid : String) (raw : AuthArg) (completed : Option SessionAuthState) (a : Ambient)
  | init (sid : String)
  | poll (sid : String) (a : Ambient)
  | upgrade (sid : String) (kvAuth : SessionAuthState) (a : Ambient)
  | alarm (a : Ambient)
  | closed
  | evicted

namespace SessionObject

/-- Nothing in memory, no socket, no rounds. -/
def start : SessionObject :=
  { engine := { inner := none, attachment := none, rounds := none, log := [] }, tasks := ∅ }

def setTask (s : SessionObject) (p : Nat) (task : Option Task) : SessionObject :=
  { s with tasks := match task with | some t => s.tasks.insert p t | none => s.tasks.erase p }

def frameStep (platform : Platform) (s : SessionObject) (p : Nat) (packet : EngineIoPacket) (a : Ambient) : SessionObject :=
  match s.tasks.lookup p with
  | some _ => s
  | none =>
    let (engine, task) := s.engine.websocketMessage platform packet a
    { s with engine }.setTask p task

/-- The forward that waited for the registration. The session id is read again. -/
def registeredStep (s : SessionObject) (p : Nat) : SessionObject :=
  match s.tasks.lookup p with
  | some (.registering identity name data) =>
    let sid := (s.engine.inner.map SessionState.sid).getD ""
    { s with engine := s.engine.forwardEventToMessageHub identity sid name none }.setTask p
      (some (.forwarding name data false))
  | _ => s

def hubAnsweredStep (platform : Platform) (s : SessionObject) (p : Nat) (outbound : List OutboundEvent)
    (a : Ambient) : SessionObject :=
  match s.tasks.lookup p with
  | some (.forwarding name data onLane) =>
    { s with engine := s.engine.afterForward platform name data onLane outbound a.nowMs }.setTask p none
  | _ => s

def attachAnsweredStep (platform : Platform) (s : SessionObject) (p : Nat) (verdict : HubVerdict) (a : Ambient) :
    SessionObject :=
  match s.tasks.lookup p with
  | some (.attaching frame) =>
    { s with engine := s.engine.afterAttach platform frame verdict a }.setTask p none
  | _ => s

def step (platform : Platform) (s : SessionObject) : SessionInput → SessionObject
  | .frame p packet a => s.frameStep platform p packet a
  | .registered p => s.registeredStep p
  | .hubAnswered p outbound a => s.hubAnsweredStep platform p outbound a
  | .attachAnswered p verdict a => s.attachAnsweredStep platform p verdict a
  | .abandoned p => s.setTask p none
  | .broadcast ev a => { s with engine := s.engine.handleSocketioBroadcast platform ev a }
  | .authRound sid raw completed a =>
    { s with engine := s.engine.handleAuthRound platform sid raw completed a }
  | .init sid => { s with engine := s.engine.handleInit sid }
  | .poll sid a => { s with engine := s.engine.handlePollingGet platform sid a }
  | .upgrade sid kvAuth a => { s with engine := s.engine.handleWsUpgrade platform sid kvAuth a }
  | .alarm a => { s with engine := s.engine.alarm platform a }
  | .closed => { s with engine := s.engine.websocketClose }
  | .evicted => { s with engine := s.engine.evict }

end SessionObject

/-- Everything the session does is in its own log, so the machine emits nothing. -/
def sessionMachine (platform : Platform) : Machine SessionObject SessionInput Unit :=
  { step := fun s input => (s.step platform input, []) }

/-- A handler that reads only the clock: no alarm answer, no nonce, no randomness. -/
def Ambient.clockOnly (nowMs : Nat) : Ambient :=
  { nowMs := nowMs, alarmAtMs := none, sent := true, roundsRead := true, roundsWritten := true,
    createdNonce := .error "", serverNonce := none, laneBytes := none }

end MessageRelay.Session
