import MessageRelay.Session.LaneCounters
import MessageRelay.Session.Synced

/-! The heartbeat of a session's socket. An alarm pings the socket or closes it for a ping without a pong, and every
frame and delivery repairs a lost alarm. The stamp of the last ping is on the attachment and in memory, and every
handler writes whole snapshots of it. -/

namespace MessageRelay.Session
open MessageRelay.Library MessageRelay.Lane

/-- The answer of an `ensure_heartbeat`, with what it was judged on. -/
structure Repair where
  nowMs : Nat
  lastPingAtMs : Option Nat
  answer : HeartbeatRepair
  deriving DecidableEq, Repr

def Engine.repair (e : Engine) (a : Ambient) : List Repair :=
  match e.attachment, a.alarmAtMs with
  | some att, some alarmAt =>
    if att.sid = "" ∨ att.transport ≠ .webSocket then []
    else [⟨a.nowMs, att.lastPingAtMs, heartbeatRepair a.nowMs att.lastPingAtMs alarmAt⟩]
  | _, _ => []

/-- The repairs of one step. A delivery ends with a second one. -/
def SessionObject.repairs (platform : Platform) (s : SessionObject) : SessionInput → List Repair
  | .frame p _ a => if (s.tasks.lookup p).isSome then [] else s.engine.rehydrateFromWsAttachment.repair a
  | .broadcast ev a =>
    let woken := (s.engine.ensureHeartbeat platform a).rehydrateFromWsAttachment
    s.engine.repair a ++
      (if woken.inner.any (fun state => state.auth.isAuthenticated) then
        (woken.emitOnSessionLane platform ev a.nowMs).repair a
      else [])
  | .authRound _ _ _ a => s.engine.repair a
  | .poll _ a => s.engine.repair a
  | _ => []

def SessionEvent.isPinged : SessionEvent → Bool
  | .pinged => true
  | _ => false

def SessionEvent.isPingTimeout : SessionEvent → Bool
  | .pingTimeout => true
  | _ => false

def pingedSince (base log : List SessionEvent) : Bool := (log.drop base.length).any SessionEvent.isPinged

/-- A session with its clock, and the times of the pings on its socket that no pong was processed after. -/
structure Pulse where
  session : SessionObject
  clockMs : Nat
  unanswered : List Nat

/-- A pong is processed, or the socket is gone. -/
def SessionObject.answers (s : SessionObject) : SessionInput → Bool
  | .frame p .pong _ => (s.tasks.lookup p).isNone && s.engine.attachment.any (fun att => att.sid ≠ "")
  | .closed => true
  | _ => false

def pulseStep (platform : Platform) (p : Pulse) (input : SessionInput) : Pulse × List Repair :=
  let session := p.session.step platform input
  let nowMs := input.clock.getD p.clockMs
  let pings := if pingedSince p.session.engine.log session.engine.log then p.unanswered ++ [nowMs] else p.unanswered
  (⟨session, nowMs, if p.session.answers input then [] else pings⟩, p.session.repairs platform input)

def pulseMachine (platform : Platform) : Machine Pulse SessionInput Repair := ⟨pulseStep platform⟩

abbrev PulseConfig := Config Pulse Repair

def pulseStart : PulseConfig := ⟨⟨SessionObject.start, 0, []⟩, []⟩

/-- The clock does not go back. -/
def ClockForward (c : PulseConfig) (input : SessionInput) : Prop :=
  c.state.clockMs ≤ input.clock.getD c.state.clockMs

/-- Pongs are processed within the timeout: an alarm that runs `pingTimeoutMs` after a ping finds it answered. -/
def AnsweredInTime (c : PulseConfig) : SessionInput → Prop
  | .alarm a => ∀ t ∈ c.state.unanswered, a.nowMs < t + pingTimeoutMs
  | _ => True

/-- A delay is a real one, and its subtraction does not go below zero. -/
def Repair.Sound (r : Repair) : Prop :=
  ∀ ms, r.answer = .armIn ms →
    1 ≤ ms ∧ ms ≤ pingIntervalMs ∧ ∃ last, r.lastPingAtMs = some last ∧ ms + r.nowMs = last + pingIntervalMs

theorem heartbeatRepair_armIn {nowMs ms : Nat} {last alarmAt : Option Nat}
    (armed : heartbeatRepair nowMs last alarmAt = .armIn ms) (past : ∀ t, last = some t → t ≤ nowMs) :
    1 ≤ ms ∧ ms ≤ pingIntervalMs ∧ ∃ t, last = some t ∧ ms + nowMs = t + pingIntervalMs := by
  cases last with
  | none =>
    simp only [heartbeatRepair, Option.any_none, Bool.false_eq_true, if_false] at armed
    split at armed <;> cases armed
  | some t =>
    have before := past t rfl
    simp only [heartbeatRepair] at armed
    split at armed
    · cases armed
    split at armed
    · cases armed
    split at armed
    next early =>
      cases armed
      refine ⟨by omega, by omega, t, rfl, by omega⟩
    next => cases armed

/-! The invariant of the stamps. -/

section Stamps
variable (platform : Platform) (inTime : Bool) (pings : List Nat) (base : List SessionEvent) (nowMs : Nat)

/-- A ping that is not answered: one from before, or one of this step. -/
def Open (log : List SessionEvent) (t : Nat) : Prop :=
  t ∈ pings ∨ (t = nowMs ∧ pingedSince base log = true)

/-- While an upgraded socket is watched, the pong awaited is that of an open ping. No stamp is ahead of the clock. -/
structure Stamped (log : List SessionEvent) (watched : Bool) (transport : Transport) (awaiting last : Option Nat) :
    Prop where
  awaiting : watched = true → transport = .webSocket → ∀ t, awaiting = some t → Open pings base nowMs log t
  last : ∀ t, last = some t → t ≤ nowMs

/-- What holds in a step. Where pongs may come late only the stamps are kept track of. -/
structure Beats (e : Engine) : Prop where
  grown : base <+: e.log
  kept : inTime = true → ∀ event ∈ e.log, event.isPingTimeout = false
  fits : ∀ att, e.attachment = some att → platform.fits att = true
  attached : ∀ att, e.attachment = some att →
    Stamped pings base nowMs e.log inTime att.transport att.awaitingPongSinceMs att.lastPingAtMs
  memory : ∀ s, e.inner = some s →
    Stamped pings base nowMs e.log (e.attachment.isSome && inTime) s.transport s.awaitingPongSinceMs s.lastPingAtMs

end Stamps

section Steps
variable {platform : Platform} {inTime : Bool} {pings : List Nat} {base : List SessionEvent} {nowMs : Nat}

theorem pingedSince_append {log : List SessionEvent} (grown : base <+: log) (event : SessionEvent) :
    pingedSince base (log ++ [event]) = (pingedSince base log || event.isPinged) := by
  unfold pingedSince
  rw [List.drop_append_of_le_length grown.length_le]
  simp

theorem pingedSince_self (log : List SessionEvent) : pingedSince log log = false := by
  simp [pingedSince]

theorem Open.self {t : Nat} {log : List SessionEvent} (due : Open pings log nowMs log t) :
    t ∈ pings := by
  obtain old | ⟨-, now⟩ := due
  · exact old
  · rw [pingedSince_self] at now
    cases now

theorem Stamped.later {log : List SessionEvent} {attached : Bool} {transport : Transport} {awaiting last : Option Nat}
    (stamped : Stamped pings base nowMs log attached transport awaiting last) (grown : base <+: log)
    (event : SessionEvent) : Stamped pings base nowMs (log ++ [event]) attached transport awaiting last where
  awaiting := by
    intro there upgraded t waits
    obtain old | ⟨now, pinged⟩ := stamped.awaiting there upgraded t waits
    · exact .inl old
    · exact .inr ⟨now, by rw [pingedSince_append grown, pinged, Bool.true_or]⟩
  last := stamped.last

/-- Nothing is awaited. -/
theorem Stamped.answered {log : List SessionEvent} {attached : Bool} {transport : Transport} {last : Option Nat}
    (past : ∀ t, last = some t → t ≤ nowMs) : Stamped pings base nowMs log attached transport none last where
  awaiting := by
    intro _ _ t waits
    cases waits
  last := past

/-- A ping sent in this step. -/
theorem Stamped.pinged {log : List SessionEvent} (sent : pingedSince base log = true) (attached : Bool)
    (transport : Transport) : Stamped pings base nowMs log attached transport (some nowMs) (some nowMs) where
  awaiting := by
    intro _ _ t waits
    cases waits
    exact .inr ⟨rfl, sent⟩
  last := by
    intro t same
    cases same
    exact le_refl _

variable {e : Engine} (beats : Beats platform inTime pings base nowMs e)
include beats

theorem Beats.append (event : SessionEvent) (plain : inTime = true → event.isPingTimeout = false) :
    Beats platform inTime pings base nowMs (e.emit event) where
  grown := beats.grown.trans (List.prefix_append _ _)
  kept := by
    intro timely other member
    obtain old | new := List.mem_append.mp member
    · exact beats.kept timely other old
    · rw [List.mem_singleton.mp new]
      exact plain timely
  fits := beats.fits
  attached att held := (beats.attached att held).later beats.grown event
  memory s present := (beats.memory s present).later beats.grown event

theorem Beats.emit (event : SessionEvent) (plain : event.isPingTimeout = false) :
    Beats platform inTime pings base nowMs (e.emit event) :=
  beats.append event (fun _ => plain)

theorem Beats.withInner {s : SessionState}
    (stamped : Stamped pings base nowMs e.log (e.attachment.isSome && inTime) s.transport s.awaitingPongSinceMs
      s.lastPingAtMs) :
    Beats platform inTime pings base nowMs { e with inner := some s } where
  grown := beats.grown
  kept := beats.kept
  fits := beats.fits
  attached := beats.attached
  memory := by
    intro s' present
    cases present
    exact stamped

theorem Beats.modify (f : SessionState → SessionState)
    (stamped : ∀ s, e.inner = some s →
      Stamped pings base nowMs e.log (e.attachment.isSome && inTime) (f s).transport (f s).awaitingPongSinceMs
        (f s).lastPingAtMs) :
    Beats platform inTime pings base nowMs (e.modify f) where
  grown := beats.grown
  kept := beats.kept
  fits := beats.fits
  attached := beats.attached
  memory := by
    intro s present
    obtain ⟨before, held, rfl⟩ := Option.map_eq_some_iff.mp present
    exact stamped before held

theorem Beats.serializeAttachment {att : WsAttachment} (socket : e.attachment.isSome = true)
    (stamped : Stamped pings base nowMs e.log inTime att.transport att.awaitingPongSinceMs att.lastPingAtMs) :
    Beats platform inTime pings base nowMs (e.serializeAttachment platform att) := by
  unfold Engine.serializeAttachment
  split
  next small =>
    refine ⟨beats.grown, beats.kept, ?_, ?_, ?_⟩
    · intro att' held
      cases held
      exact small
    · intro att' held
      cases held
      exact stamped
    · intro s present
      have before := beats.memory s present
      rw [socket, Bool.true_and] at before
      exact before
  next => exact beats.emit .persistFailed rfl

theorem Beats.persist : Beats platform inTime pings base nowMs (e.persistToWsAttachment platform) := by
  unfold Engine.persistToWsAttachment
  split
  next s att present attached =>
    have socket : e.attachment.isSome = true := by rw [attached]; rfl
    have stamped := beats.memory s present
    rw [socket, Bool.true_and] at stamped
    exact beats.serializeAttachment socket stamped
  next => exact beats

theorem Beats.keepState {s : SessionState}
    (stamped : Stamped pings base nowMs e.log (e.attachment.isSome && inTime) s.transport s.awaitingPongSinceMs
      s.lastPingAtMs) :
    Beats platform inTime pings base nowMs (e.keepState platform s) :=
  (beats.withInner stamped).persist

theorem Beats.rehydrate : Beats platform inTime pings base nowMs e.rehydrateFromWsAttachment := by
  unfold Engine.rehydrateFromWsAttachment
  split
  next att _ attached =>
    split
    · exact beats
    · apply beats.withInner
      rw [attached]
      exact beats.attached att attached
  next => exact beats

theorem Beats.ensureInner (sid : String) : Beats platform inTime pings base nowMs (e.ensureInner sid) := by
  unfold Engine.ensureInner
  dsimp only
  split
  · exact beats.rehydrate
  · exact beats.rehydrate.withInner (.answered (fun _ no => nomatch no))

/-- A ping is logged and stamped on both sides. -/
theorem Beats.ping {att : WsAttachment} (attached : e.attachment.isSome = true)
    (stamp : att.awaitingPongSinceMs = some nowMs ∧ att.lastPingAtMs = some nowMs) {f : SessionState → SessionState}
    (stamps : ∀ s, (f s).awaitingPongSinceMs = some nowMs ∧ (f s).lastPingAtMs = some nowMs) :
    Beats platform inTime pings base nowMs (((e.emit .pinged).serializeAttachment platform att).modify f) := by
  have pinged := beats.emit .pinged rfl
  have sent : pingedSince base (e.emit .pinged).log = true := by
    rw [Engine.emit_log, pingedSince_append beats.grown]
    exact Bool.or_true _
  have written : Beats platform inTime pings base nowMs ((e.emit .pinged).serializeAttachment platform att) := by
    refine pinged.serializeAttachment attached ?_
    rw [stamp.1, stamp.2]
    exact .pinged sent _ _
  refine written.modify f (fun s _ => ?_)
  rw [(stamps s).1, (stamps s).2]
  refine .pinged ?_ _ _
  unfold Engine.serializeAttachment
  split
  · exact sent
  · rw [Engine.emit_log, pingedSince_append pinged.grown, sent]
    rfl

theorem Beats.stampPing {att : WsAttachment} (attached : e.attachment = some att) :
    Beats platform inTime pings base nowMs (e.stampPing platform att nowMs) :=
  beats.ping (by rw [attached]; rfl) ⟨rfl, rfl⟩ (fun _ => ⟨rfl, rfl⟩)

theorem Beats.emitOnSessionLane (ev : OutboundEvent) (atMs : Nat) :
    Beats platform inTime pings base nowMs (e.emitOnSessionLane platform ev atMs) := by
  unfold Engine.emitOnSessionLane
  split
  · exact beats
  next s present =>
    split
    · exact beats
    split
    · exact beats
    split
    · exact beats
    · refine Beats.emit (beats.keepState ?_) _ rfl
      exact beats.memory s present

theorem Beats.unregister : Beats platform inTime pings base nowMs e.unregisterWithMessageHub := by
  unfold Engine.unregisterWithMessageHub
  split
  · exact beats
  next s present =>
    have dropped : Beats platform inTime pings base nowMs { e with inner := some { s with lane := none } } :=
      beats.withInner (beats.memory s present)
    dsimp only
    split
    · exact dropped
    · exact dropped.emit _ rfl

theorem Beats.close : Beats platform inTime pings base nowMs e.closeSession :=
  (beats.modify (fun s => { s with closed := true }) beats.memory).unregister

theorem Beats.teardown : Beats platform inTime pings base nowMs e.teardownWsTransport := beats.rehydrate.close

theorem Beats.recordRooms (name : String) (data : Value) (outbound : List OutboundEvent) (atMs : Nat) :
    Beats platform inTime pings base nowMs (e.recordRooms platform name data outbound atMs) := by
  unfold Engine.recordRooms
  split
  · exact beats
  next s present =>
    dsimp only
    split
    · exact beats.keepState (beats.memory s present)
    · exact beats

theorem Beats.afterForward (name : String) (data : Value) (onLane : Bool) (outbound : List OutboundEvent)
    (atMs : Nat) : Beats platform inTime pings base nowMs (e.afterForward platform name data onLane outbound atMs) := by
  have recorded := beats.recordRooms name data outbound atMs
  unfold Engine.afterForward
  dsimp only
  split
  · generalize e.recordRooms platform name data outbound atMs = e' at recorded
    induction outbound generalizing e' with
    | nil => exact recorded
    | cons ev rest ih => exact ih _ (recorded.emitOnSessionLane ev atMs)
  · exact recorded

theorem Beats.mint (state : SessionAuthState) (identity : String) (a : Ambient) :
    Beats platform inTime pings base nowMs (e.mintSessionLane platform state identity a) := by
  unfold Engine.mintSessionLane
  split
  next s lane present minted =>
    refine Beats.emit (beats.keepState ?_) _ rfl
    exact beats.memory s present
  next => exact beats

theorem Beats.settleRounds (r : AuthRoundState) :
    Beats platform inTime pings base nowMs (e.settleRounds platform r) := by
  have kept : Beats platform inTime pings base nowMs { e with rounds := some r } :=
    ⟨beats.grown, beats.kept, beats.fits, beats.attached, beats.memory⟩
  exact (kept.modify (fun s =>
    { s with auth := r.current, connected := s.connected || r.current.isAuthenticated }) beats.memory).persist

theorem Beats.authRound (raw : AuthArg) (completed : Option SessionAuthState) (a : Ambient) :
    Beats platform inTime pings base nowMs (e.authRound platform raw completed a).1 := by
  unfold Engine.authRound
  split
  · exact beats
  split
  · split
    · exact beats
    split
    · exact beats
    · exact beats.settleRounds _
  · dsimp only
    split
    · exact beats
    · exact beats.settleRounds _

theorem Beats.dispatchGeneral (payload : Bytes) (a : Ambient) :
    Beats platform inTime pings base nowMs (e.dispatchGeneral platform payload a).1 := by
  unfold Engine.dispatchGeneral
  dsimp only
  split
  · exact beats
  next s present =>
    have flagged : Beats platform inTime pings base nowMs (if s.authenticatedEmitted = true then e else
        e.keepState platform { s with authenticatedEmitted := true }) := by
      split
      · exact beats
      · exact beats.keepState (beats.memory s present)
    generalize (if s.authenticatedEmitted = true then e else
      e.keepState platform { s with authenticatedEmitted := true }) = kept at flagged ⊢
    split
    · exact flagged
    split
    · split
      · exact flagged.mint _ _ a
      · exact flagged
    split
    · unfold Engine.registerWithMessageHub
      dsimp only
      split
      · exact flagged
      · exact flagged.emit _ rfl
    · exact flagged.emit _ rfl

theorem Beats.dispatchAuthMessage (raw : AuthArg) (a : Ambient) :
    Beats platform inTime pings base nowMs (e.dispatchAuthMessage platform raw a).1 := by
  have judged := beats.authRound raw none a
  unfold Engine.dispatchAuthMessage
  generalize e.authRound platform raw none a = call at judged
  obtain ⟨e', outcome⟩ := call
  cases outcome with
  | outbound messages =>
    dsimp only
    split
    · exact judged.persist
    · exact judged
  | quiet => exact judged
  | error reason => exact (judged.emit (.authRefused reason) rfl).teardown
  | authenticatedGeneral payload => exact (judged.emit _ rfl).dispatchGeneral payload a

theorem Beats.dispatchSessionAttach (decoded : Option AttachFrame) :
    Beats platform inTime pings base nowMs (e.dispatchSessionAttach platform decoded).1 := by
  unfold Engine.dispatchSessionAttach
  split
  · exact beats.emit _ rfl
  · exact beats
  next frame s _ present =>
    split
    · exact beats.emit _ rfl
    split
    · exact beats.emit _ rfl
    · exact beats.keepState (beats.memory s present)

theorem Beats.commitAttach (state : SessionAuthState) (lane : SessionLane) (hubKey : String) :
    Beats platform inTime pings base nowMs (e.commitAttach platform state lane hubKey) := by
  unfold Engine.commitAttach
  split
  · exact beats
  next s present =>
    split
    · exact beats.emit _ rfl
    have committed : Beats platform inTime pings base nowMs
        (e.keepState platform { s with auth := state, authenticatedEmitted := true, lane := some lane }) :=
      beats.keepState (beats.memory s present)
    dsimp only
    split
    · exact committed.emit _ rfl
    · exact committed.emit _ rfl

theorem Beats.afterAttach (frame : AttachFrame) (verdict : HubVerdict) (a : Ambient) :
    Beats platform inTime pings base nowMs (e.afterAttach platform frame verdict a) := by
  unfold Engine.afterAttach
  split
  · exact beats.emit _ rfl
  · exact beats.emit _ rfl
  · dsimp only
    split
    · exact beats.emit _ rfl
    split
    · exact (beats.emit _ rfl).emit _ rfl
    split
    · exact (beats.emit _ rfl).emit _ rfl
    · exact (beats.emit _ rfl).commitAttach _ _ _

theorem Beats.dispatchSessionMessage (frame : Option Frame) (atMs : Nat) :
    Beats platform inTime pings base nowMs (e.dispatchSessionMessage platform frame atMs).1 := by
  unfold Engine.dispatchSessionMessage
  split
  · exact beats
  next s present =>
    split
    · exact beats.emit _ rfl
    · exact beats.emit _ rfl
    split
    · exact beats.emit _ rfl
    · refine Beats.emit (beats.keepState ?_) _ rfl
      exact beats.memory s present

theorem Beats.dispatchEvent (event : ClientEvent) (a : Ambient) :
    Beats platform inTime pings base nowMs (e.dispatchEvent platform event a).1 := by
  cases event with
  | unnamed => exact beats
  | authMessage raw => exact beats.dispatchAuthMessage raw a
  | sessionAttach frame => exact beats.dispatchSessionAttach frame
  | sessionMessage frame =>
    simp only [Engine.dispatchEvent]
    split
    · exact beats.dispatchSessionMessage frame a.nowMs
    · exact beats.emit _ rfl
  | other name => exact beats.emit _ rfl

theorem Beats.dispatchSocketio (packet : SocketIoPacket) (a : Ambient) :
    Beats platform inTime pings base nowMs (e.dispatchSocketio platform packet a).1 := by
  cases packet with
  | connect nsp =>
    simp only [Engine.dispatchSocketio]
    split
    · exact (beats.modify (fun s => { s with connected := true }) beats.memory).persist
    · exact beats
  | disconnect => exact beats.close
  | event event => exact beats.dispatchEvent event a
  | ack | connectError => exact beats

theorem Beats.handleInit (sid : String) : Beats platform inTime pings base nowMs (e.handleInit sid) := by
  unfold Engine.handleInit
  split
  · exact beats
  split
  · exact beats
  · exact beats.withInner (.answered (fun _ no => nomatch no))

theorem Beats.evict : Beats platform inTime pings base nowMs e.evict :=
  ⟨beats.grown, beats.kept, beats.fits, beats.attached, fun _ no => nomatch no⟩

end Steps

/-- Nothing is awaited anywhere. -/
theorem beats_answered {platform : Platform} {inTime : Bool} {nowMs : Nat} {e : Engine}
    (kept : inTime = true → ∀ event ∈ e.log, event.isPingTimeout = false)
    (attached : ∀ att, e.attachment = some att → platform.fits att = true ∧ att.awaitingPongSinceMs = none ∧
      ∀ t, att.lastPingAtMs = some t → t ≤ nowMs)
    (memory : ∀ s, e.inner = some s → s.awaitingPongSinceMs = none ∧ ∀ t, s.lastPingAtMs = some t → t ≤ nowMs) :
    Beats platform inTime [] e.log nowMs e where
  grown := List.prefix_rfl
  kept := kept
  fits att held := (attached att held).1
  attached := by
    intro att held
    rw [(attached att held).2.1]
    exact .answered (attached att held).2.2
  memory := by
    intro s present
    rw [(memory s present).1]
    exact .answered (memory s present).2

/-! The handlers that read the clock. -/

section Handlers
variable {platform : Platform} {inTime : Bool} {pings : List Nat} {base : List SessionEvent} {a : Ambient} {e : Engine}
  (beats : Beats platform inTime pings base a.nowMs e)
include beats

theorem Beats.ensureHeartbeat : Beats platform inTime pings base a.nowMs (e.ensureHeartbeat platform a) := by
  obtain same | ⟨att, attached, same⟩ := Engine.ensureHeartbeat_cases platform e a
  · rw [same]
    exact beats
  · rw [same]
    exact beats.stampPing attached

theorem Beats.repair_sound : ∀ r ∈ e.repair a, r.Sound := by
  intro r member
  unfold Engine.repair at member
  split at member
  next att alarmAt attached _ =>
    split at member
    · cases member
    · rw [List.mem_singleton.mp member]
      intro ms armed
      exact heartbeatRepair_armIn armed (beats.attached att attached).last
  next => cases member

/-- A pong leaves nothing awaited: where the attachment was kept, so is the one with the stamp taken out. -/
theorem Beats.notePong (cleared : ∀ att, platform.fits att = true →
    platform.fits { att with awaitingPongSinceMs := none } = true) :
    Beats platform inTime [] (e.notePong platform).log a.nowMs (e.notePong platform) := by
  have memory : ∀ s, (e.modify (fun s => { s with awaitingPongSinceMs := none })).inner = some s →
      s.awaitingPongSinceMs = none ∧ ∀ t, s.lastPingAtMs = some t → t ≤ a.nowMs := by
    intro s present
    obtain ⟨before, held, rfl⟩ := Option.map_eq_some_iff.mp present
    exact ⟨rfl, (beats.memory before held).last⟩
  unfold Engine.notePong
  dsimp only
  split
  next att attached =>
    have small := cleared att (beats.fits att attached)
    rw [Engine.serializeAttachment, if_pos small]
    refine beats_answered beats.kept ?_ memory
    intro att' held
    cases held
    exact ⟨small, rfl, (beats.attached att attached).last⟩
  next gone =>
    refine beats_answered beats.kept ?_ memory
    intro att held
    rw [gone] at held
    cases held

theorem Beats.handleEngineioPacket {packet : EngineIoPacket} (other : packet ≠ .pong) :
    Beats platform inTime pings base a.nowMs (e.handleEngineioPacket platform packet a).1 := by
  cases packet with
  | opened | ping | noop => exact beats
  | close => exact beats.close
  | pong => exact absurd rfl other
  | upgrade =>
    refine Beats.persist (beats.modify _ (fun s _ => .answered ?_))
    intro t same
    cases same
    exact le_refl _
  | message packet =>
    cases packet with
    | none => exact beats
    | some packet => exact beats.dispatchSocketio packet a

theorem Beats.websocketMessage {packet : EngineIoPacket} (other : packet ≠ .pong) :
    Beats platform inTime pings base a.nowMs (e.websocketMessage platform packet a).1 := by
  unfold Engine.websocketMessage
  split
  · exact beats
  split
  · exact beats
  · exact beats.rehydrate.ensureHeartbeat.handleEngineioPacket other

/-- The alarm closes nothing while the pongs of all open pings have time. -/
theorem Beats.alarm (here : base = e.log) (answered : inTime = true → ∀ t ∈ pings, a.nowMs < t + pingTimeoutMs) :
    Beats platform inTime pings base a.nowMs (e.alarm platform a) := by
  unfold Engine.alarm
  split
  · exact beats
  next att attached =>
    split
    · exact beats
    next upgraded =>
      have webSocket : att.transport = .webSocket := by
        by_contra different
        exact upgraded (.inr different)
      split
      next due =>
        refine Beats.teardown (beats.append .pingTimeout (fun timely => ?_))
        -- the ping judged is an open one, so its pong still has time
        exfalso
        unfold heartbeatOnAlarm at due
        split at due
        next t waits =>
          have awaited := (beats.attached att attached).awaiting timely webSocket t waits
          rw [here] at awaited
          have time := answered timely t awaited.self
          have timeout : 0 < pingTimeoutMs := by decide
          split at due
          · omega
          · cases due
        next => cases due
      next =>
        split
        · exact beats
        dsimp only
        have stamped (refreshed : Option Nat) : Beats platform inTime pings base a.nowMs
            (((e.emit .pinged).serializeAttachment platform
              { att with
                awaitingPongSinceMs := some a.nowMs, lastPingAtMs := some a.nowMs,
                registryRefreshedAtMs := refreshed }).modify (fun s =>
              { s with
                awaitingPongSinceMs := some a.nowMs, lastPingAtMs := some a.nowMs,
                registryRefreshedAtMs := refreshed })) :=
          beats.ping (by rw [attached]; rfl) ⟨rfl, rfl⟩ (fun _ => ⟨rfl, rfl⟩)
        split
        · split
          · exact (stamped _).emit _ rfl
          · exact stamped _
        · exact stamped _

theorem Beats.broadcast (ev : OutboundEvent) :
    Beats platform inTime pings base a.nowMs (e.handleSocketioBroadcast platform ev a) := by
  have woken := beats.ensureHeartbeat.rehydrate
  unfold Engine.handleSocketioBroadcast
  dsimp only
  split
  · exact woken.emit _ rfl
  split
  · exact woken.emit _ rfl
  · exact (woken.emitOnSessionLane ev a.nowMs).ensureHeartbeat

theorem Beats.handleAuthRound (sid : String) (raw : AuthArg) (completed : Option SessionAuthState) :
    Beats platform inTime pings base a.nowMs (e.handleAuthRound platform sid raw completed a) := by
  have judged := (beats.ensureHeartbeat.ensureInner sid).authRound raw completed a
  unfold Engine.handleAuthRound
  dsimp only
  generalize ((e.ensureHeartbeat platform a).ensureInner sid).authRound platform raw completed a = call at judged ⊢
  obtain ⟨e', outcome⟩ := call
  cases outcome with
  | authenticatedGeneral payload => exact judged.emit _ rfl
  | outbound | quiet | error => exact judged

/-- A new socket awaits nothing until its upgrade. -/
theorem Beats.handleWsUpgrade (sid : String) (kvAuth : SessionAuthState) :
    Beats platform inTime pings base a.nowMs (e.handleWsUpgrade platform sid kvAuth a) := by
  unfold Engine.handleWsUpgrade
  split
  · exact beats
  dsimp only
  have prepared := beats.ensureInner sid
  generalize e.ensureInner sid = e' at prepared ⊢
  split
  · exact prepared
  next s present =>
    split
    · exact prepared
    have moved (s' : SessionState) (pending : s'.transport = .upgradePending)
        (last : s'.lastPingAtMs = s.lastPingAtMs) :
        Beats platform inTime pings base a.nowMs
          (Engine.serializeAttachment platform { e' with inner := some s' } s'.toAttachment) := by
      have stamped {attached : Bool} :
          Stamped pings base a.nowMs e'.log attached s'.transport s'.awaitingPongSinceMs s'.lastPingAtMs := by
        rw [pending, last]
        exact ⟨fun _ no => (nomatch no), (prepared.memory s present).last⟩
      unfold Engine.serializeAttachment
      split
      next small =>
        refine ⟨prepared.grown, prepared.kept, ?_, ?_, ?_⟩
        · intro att held
          cases held
          exact small
        · intro att held
          cases held
          exact stamped
        · intro s'' held
          cases held
          exact stamped
      next => exact (prepared.withInner stamped).emit .persistFailed rfl
    apply moved
    · rfl
    · dsimp only
      split <;> rfl

end Handlers

section Whole
variable {platform : Platform} {inTime : Bool} {pings : List Nat} {base : List SessionEvent} {nowMs : Nat} {e : Engine}

theorem Beats.websocketClose (beats : Beats platform inTime pings base nowMs e) :
    Beats platform inTime [] e.websocketClose.log nowMs e.websocketClose := by
  have torn := beats.teardown
  refine ⟨List.prefix_rfl, torn.kept, fun _ no => (nomatch no), fun _ no => (nomatch no), fun s present => ?_⟩
  exact ⟨fun no => (nomatch no), (torn.memory s present).last⟩

/-- Between two steps the clock moves on. -/
theorem Beats.tick {clockMs : Nat} (beats : Beats platform inTime pings e.log clockMs e) (later : clockMs ≤ nowMs) :
    Beats platform inTime pings e.log nowMs e where
  grown := beats.grown
  kept := beats.kept
  fits := beats.fits
  attached att held :=
    ⟨fun there upgraded t waits => .inl ((beats.attached att held).awaiting there upgraded t waits).self,
      fun t same => ((beats.attached att held).last t same).trans later⟩
  memory s present :=
    ⟨fun there upgraded t waits => .inl ((beats.memory s present).awaiting there upgraded t waits).self,
      fun t same => ((beats.memory s present).last t same).trans later⟩

/-- At the end of a step its ping is one of those that are open. -/
theorem Beats.settle (beats : Beats platform inTime pings base nowMs e) :
    Beats platform inTime (if pingedSince base e.log then pings ++ [nowMs] else pings) e.log nowMs e := by
  have moved {t : Nat} (due : Open pings base nowMs e.log t) :
      Open (if pingedSince base e.log then pings ++ [nowMs] else pings) e.log nowMs e.log t := by
    obtain old | ⟨rfl, now⟩ := due
    · left
      split
      · exact List.mem_append_left _ old
      · exact old
    · left
      rw [if_pos now]
      exact List.mem_append_right _ (List.mem_singleton_self _)
  refine ⟨List.prefix_rfl, beats.kept, beats.fits, fun att held => ?_, fun s present => ?_⟩
  · have stamped := beats.attached att held
    exact ⟨fun there upgraded t waits => moved (stamped.awaiting there upgraded t waits), stamped.last⟩
  · have stamped := beats.memory s present
    exact ⟨fun there upgraded t waits => moved (stamped.awaiting there upgraded t waits), stamped.last⟩

/-- A step that answers nothing. -/
theorem Beats.step {s : SessionObject} {input : SessionInput}
    (beats : Beats platform inTime pings s.engine.log nowMs s.engine)
    (clock : ∀ u, input.clock = some u → u = nowMs)
    (silent : s.answers input = false)
    (answered : ∀ a, input = .alarm a → inTime = true → ∀ t ∈ pings, a.nowMs < t + pingTimeoutMs) :
    Beats platform inTime pings s.engine.log nowMs (s.step platform input).engine := by
  cases input with
  | frame p packet a =>
    obtain rfl := clock a.nowMs rfl
    simp only [SessionObject.step, SessionObject.frameStep]
    split
    · exact beats
    next free =>
      by_cases pong : packet = .pong
      · subst pong
        simp only [SessionObject.answers, free, Option.isNone_none, Bool.true_and] at silent
        have dropped : s.engine.websocketMessage platform .pong a = (s.engine, none) := by
          unfold Engine.websocketMessage
          split
          · rfl
          next att attached =>
            rw [attached, Option.any_some, decide_eq_false_iff_not, not_not] at silent
            rw [if_pos silent]
        rw [dropped]
        exact beats
      · exact beats.websocketMessage pong
  | registered p =>
    simp only [SessionObject.step, SessionObject.registeredStep]
    split
    · exact beats.emit _ rfl
    · exact beats
  | hubAnswered p outbound a =>
    simp only [SessionObject.step, SessionObject.hubAnsweredStep]
    split
    · exact beats.afterForward _ _ _ outbound a.nowMs
    · exact beats
  | attachAnswered p verdict a =>
    simp only [SessionObject.step, SessionObject.attachAnsweredStep]
    split
    · exact beats.afterAttach _ verdict a
    · exact beats
  | abandoned p => exact beats
  | broadcast ev a =>
    obtain rfl := clock a.nowMs rfl
    exact beats.broadcast ev
  | authRound sid raw completed a =>
    obtain rfl := clock a.nowMs rfl
    exact beats.handleAuthRound sid raw completed
  | init sid => exact beats.handleInit sid
  | poll sid a =>
    obtain rfl := clock a.nowMs rfl
    exact beats.ensureHeartbeat.ensureInner sid
  | upgrade sid kvAuth a =>
    obtain rfl := clock a.nowMs rfl
    exact beats.handleWsUpgrade sid kvAuth
  | alarm a =>
    obtain rfl := clock a.nowMs rfl
    exact beats.alarm rfl (answered a rfl)
  | closed => cases silent
  | evicted => exact beats.evict

/-- A step that answers the pings, by a pong or by the end of the socket. -/
theorem Beats.answer {s : SessionObject} {input : SessionInput}
    (beats : Beats platform inTime pings s.engine.log nowMs s.engine)
    (clock : ∀ u, input.clock = some u → u = nowMs)
    (cleared : ∀ att, platform.fits att = true → platform.fits { att with awaitingPongSinceMs := none } = true)
    (answers : s.answers input = true) :
    Beats platform inTime [] (s.step platform input).engine.log nowMs (s.step platform input).engine := by
  unfold SessionObject.answers at answers
  split at answers
  next p a =>
    obtain rfl := clock a.nowMs rfl
    rw [Bool.and_eq_true, Option.isNone_iff_eq_none, Option.any_eq_true] at answers
    obtain ⟨free, att, attached, named⟩ := answers
    have message : s.engine.websocketMessage platform .pong a =
        ((s.engine.rehydrateFromWsAttachment.ensureHeartbeat platform a).notePong platform, none) := by
      unfold Engine.websocketMessage
      rw [attached]
      exact if_neg (of_decide_eq_true named)
    simp only [SessionObject.step, SessionObject.frameStep, free, message, setTask_engine]
    exact beats.rehydrate.ensureHeartbeat.notePong cleared
  next => exact beats.websocketClose
  next => cases answers

theorem Beats.repairs_sound {s : SessionObject} {input : SessionInput}
    (beats : Beats platform inTime pings s.engine.log nowMs s.engine)
    (clock : ∀ u, input.clock = some u → u = nowMs) : ∀ r ∈ s.repairs platform input, r.Sound := by
  cases input with
  | frame p packet a =>
    obtain rfl := clock a.nowMs rfl
    intro r member
    simp only [SessionObject.repairs] at member
    split at member
    · cases member
    · exact beats.rehydrate.repair_sound r member
  | broadcast ev a =>
    obtain rfl := clock a.nowMs rfl
    intro r member
    simp only [SessionObject.repairs] at member
    obtain first | second := List.mem_append.mp member
    · exact beats.repair_sound r first
    · split at second
      · exact (beats.ensureHeartbeat.rehydrate.emitOnSessionLane ev a.nowMs).repair_sound r second
      · cases second
  | authRound sid raw completed a =>
    obtain rfl := clock a.nowMs rfl
    exact beats.repair_sound
  | poll sid a =>
    obtain rfl := clock a.nowMs rfl
    exact beats.repair_sound
  | registered | hubAnswered | attachAnswered | abandoned | init | upgrade | alarm | closed | evicted =>
    exact fun _ no => (nomatch no)

end Whole

structure Live (platform : Platform) (inTime : Bool) (c : PulseConfig) : Prop where
  beats : Beats platform inTime c.state.unanswered c.state.session.engine.log c.state.clockMs c.state.session.engine
  sound : ∀ r ∈ c.log, r.Sound

theorem Live.start (platform : Platform) (inTime : Bool) : Live platform inTime pulseStart :=
  ⟨beats_answered (fun _ _ no => (nomatch no)) (fun _ no => (nomatch no)) (fun _ no => (nomatch no)),
    fun _ no => (nomatch no)⟩

theorem Live.step {platform : Platform} {inTime : Bool} {c : PulseConfig} (live : Live platform inTime c)
    (cleared : ∀ att, platform.fits att = true → platform.fits { att with awaitingPongSinceMs := none } = true)
    {input : SessionInput} (forward : ClockForward c input) (answered : inTime = true → AnsweredInTime c input) :
    Live platform inTime ((pulseMachine platform).advance c input) := by
  have ticked := live.beats.tick forward
  have clock : ∀ u, input.clock = some u → u = input.clock.getD c.state.clockMs := by
    intro u same
    rw [same]
    rfl
  constructor
  · simp only [Machine.advance, pulseMachine, pulseStep]
    cases answers : c.state.session.answers input with
    | true => exact ticked.answer clock cleared answers
    | false =>
      refine (ticked.step clock answers (fun a same => ?_)).settle
      subst same
      exact answered
  · intro r member
    obtain old | new := List.mem_append.mp member
    · exact live.sound r old
    · exact ticked.repairs_sound clock r new

/-- In every run in which the clock does not go back, every delay a repair arms is at least one millisecond and at most
an interval; and where no alarm runs `pingTimeoutMs` after a ping whose pong was not processed, the heartbeat closes no
socket. -/
theorem live_socket_kept (platform : Platform)
    (cleared : ∀ att, platform.fits att = true → platform.fits { att with awaitingPongSinceMs := none } = true)
    (inputs : List SessionInput) (forward : (pulseMachine platform).Guarded ClockForward pulseStart inputs) :
    ((pulseMachine platform).Guarded AnsweredInTime pulseStart inputs →
      .pingTimeout ∉ ((pulseMachine platform).run pulseStart inputs).state.session.engine.log) ∧
      ∀ r ∈ ((pulseMachine platform).run pulseStart inputs).log, r.Sound := by
  constructor
  · intro answered closed
    have live : Live platform true ((pulseMachine platform).run pulseStart inputs) := by
      refine (pulseMachine platform).run_invariant ?_ (Live.start platform true) (Machine.guarded_and forward answered)
      intro c input live both
      exact live.step cleared both.1 (fun _ => both.2)
    have plain := live.beats.kept rfl _ closed
    cases plain
  · have live : Live platform false ((pulseMachine platform).run pulseStart inputs) := by
      refine (pulseMachine platform).run_invariant ?_ (Live.start platform false) forward
      intro c input live forward
      exact live.step cleared forward (fun no => (nomatch no))
    exact live.sound

instance (c : PulseConfig) (input : SessionInput) : Decidable (ClockForward c input) :=
  inferInstanceAs (Decidable (_ ≤ _))

instance (c : PulseConfig) (input : SessionInput) : Decidable (AnsweredInTime c input) :=
  match input with
  | .alarm _ => inferInstanceAs (Decidable (∀ t ∈ c.state.unanswered, _))
  | .frame .. | .registered .. | .hubAnswered .. | .attachAnswered .. | .abandoned .. | .broadcast .. | .authRound ..
  | .init .. | .poll .. | .upgrade .. | .closed | .evicted => .isTrue trivial

def beatPlatform : Platform where
  crypto := tableCrypto [] []
  wallet :=
    { authVersion := "0.1", identityKey := .ok "server", createSignature := fun _ _ => .ok [0],
      verifySignature := fun _ _ _ => .ok false }
  parseJson := fun _ => none
  printJson := fun _ => ""
  fits := fun _ => true

/-- The clock, with no alarm pending. -/
def beatAt (nowMs : Nat) : Ambient := { Ambient.clockOnly nowMs with alarmAtMs := some none }

/-- Two pings, one of them sent twice, their pongs, and an eviction between. -/
def beating : List SessionInput :=
  [.upgrade "sid" .unauthenticated (beatAt 0), .frame 0 .upgrade (beatAt 100), .alarm (beatAt 25100),
    .frame 1 .pong (beatAt 25150), .evicted, .alarm (beatAt 50100), .alarm (beatAt 50400),
    .frame 2 .pong (beatAt 50500), .alarm (beatAt 75400)]

theorem live_socket_kept_beating :
    ((pulseMachine beatPlatform).run pulseStart beating).log.map Repair.answer = [.armIn 24950, .armIn 24900] ∧
      .pingTimeout ∉ ((pulseMachine beatPlatform).run pulseStart beating).state.session.engine.log ∧
      ∀ r ∈ ((pulseMachine beatPlatform).run pulseStart beating).log, r.Sound := by
  have kept := live_socket_kept beatPlatform (fun _ _ => rfl) beating (by decide +kernel)
  exact ⟨by decide +kernel, kept.1 (by decide +kernel), kept.2⟩

end MessageRelay.Session
