import MessageRelay.Session.Synced

/-! The two counters of a lane over whole runs of its frames and deliveries, with evictions anywhere.
The counters move in memory and on the attachment; a platform that refuses the attachment takes them
back at the next eviction. -/

namespace MessageRelay.Session
open MessageRelay.Library MessageRelay.Lane

def SessionEvent.routedCounter : SessionEvent → Option Nat
  | .forwarded _ _ _ _ (some stamp) => some stamp.n
  | _ => none

def SessionEvent.sealedCounter : SessionEvent → Option Nat
  | .sealed _ n => some n
  | _ => none

def SessionEvent.isRefused : SessionEvent → Bool
  | .refused _ => true
  | _ => false

/-- The counters routed to the hub, and those put on the wire, oldest first. -/
def routed (log : List SessionEvent) : List Nat := log.filterMap SessionEvent.routedCounter

def sealedOut (log : List SessionEvent) : List Nat := log.filterMap SessionEvent.sealedCounter

/-- The lane the next frame is judged on. -/
def Engine.lane (e : Engine) : Option SessionLane :=
  match e.inner with
  | some s => s.lane
  | none => e.attachment.bind WsAttachment.lane

/-- What can happen to a lane in one step: its events, and the lane after them. -/
inductive LanePath (nowMs : Nat) : SessionLane → SessionLane → List SessionEvent → Prop where
  | done (lane : SessionLane) : LanePath nowMs lane lane []
  | plain {lane lane' : SessionLane} {events : List SessionEvent} (path : LanePath nowMs lane lane' events)
      (event : SessionEvent) (unrouted : event.routedCounter = none) (unsealed : event.sealedCounter = none) :
      LanePath nowMs lane lane' (events ++ [event])
  | accepted {lane lane' : SessionLane} {events : List SessionEvent} (path : LanePath nowMs lane lane' events)
      (event : SessionEvent) {n : Nat} (live : lane'.isLive nowMs = true) (newer : lane'.lastIn < n)
      (stamp : event.routedCounter = some n) (unsealed : event.sealedCounter = none) :
      LanePath nowMs lane { lane' with lastIn := n, expiresAtMs := nowMs + sessionIdleMs, active := true }
        (events ++ [event])
  | sealed {lane lane' : SessionLane} {events : List SessionEvent} (path : LanePath nowMs lane lane' events)
      (live : lane'.isLive nowMs = true) :
      LanePath nowMs lane
        { lane' with nextOut := lane'.nextOut + 1, expiresAtMs := nowMs + sessionIdleMs }
        (events ++ [.sealed lane'.id lane'.nextOut])

theorem LanePath.trans {nowMs : Nat} {first second third : SessionLane} {events later : List SessionEvent}
    (path : LanePath nowMs first second events) (rest : LanePath nowMs second third later) :
    LanePath nowMs first third (events ++ later) := by
  induction rest with
  | done => simpa using path
  | plain _ event unrouted unsealed ih =>
    rw [← List.append_assoc]
    exact ih.plain event unrouted unsealed
  | accepted _ event live newer stamp unsealed ih =>
    rw [← List.append_assoc]
    exact ih.accepted event live newer stamp unsealed
  | sealed _ live ih =>
    rw [← List.append_assoc]
    exact ih.sealed live

namespace Engine

/-- The log grows, and while no attachment is refused the lane takes a path on both sides. -/
structure Moves (nowMs : Nat) (e e' : Engine) : Prop where
  grew : e.log <+: e'.log
  path : ∀ att lane, e.Synced att → att.lane = some lane → e'.Unrefused →
    ∃ att' lane' events, e'.Synced att' ∧ att'.lane = some lane' ∧ e'.log = e.log ++ events ∧
      LanePath nowMs lane lane' events

theorem Moves.trans {nowMs : Nat} {first second third : Engine} (one : first.Moves nowMs second)
    (two : second.Moves nowMs third) : first.Moves nowMs third := by
  refine ⟨one.grew.trans two.grew, ?_⟩
  intro att lane synced held unrefused
  obtain ⟨att', lane', events, synced', held', log', path'⟩ :=
    one.path att lane synced held (unrefused.earlier two.grew)
  obtain ⟨att'', lane'', later, synced'', held'', log'', path''⟩ := two.path att' lane' synced' held' unrefused
  refine ⟨att'', lane'', events ++ later, synced'', held'', ?_, path'.trans path''⟩
  rw [log'', log', List.append_assoc]

theorem Moves.refl (nowMs : Nat) (e : Engine) : e.Moves nowMs e := by
  refine ⟨List.prefix_rfl, ?_⟩
  intro att lane synced held _
  exact ⟨att, lane, [], synced, held, (List.append_nil _).symm, .done lane⟩

theorem Moves.emit (nowMs : Nat) (e : Engine) {event : SessionEvent} (unrouted : event.routedCounter = none)
    (unsealed : event.sealedCounter = none) : e.Moves nowMs (e.emit event) := by
  refine ⟨List.prefix_append _ _, ?_⟩
  intro att lane synced held _
  exact ⟨att, lane, [event], synced.emit event, held, rfl, (LanePath.done lane).plain event unrouted unsealed⟩

theorem moves_rehydrate (nowMs : Nat) (e : Engine) : e.Moves nowMs e.rehydrateFromWsAttachment := by
  refine ⟨by rw [rehydrateFromWsAttachment_log], ?_⟩
  intro att lane synced held _
  obtain ⟨s, woken, same⟩ := synced.rehydrate
  refine ⟨att, lane, [], ?_, held, ?_, .done lane⟩
  · rw [woken]
    refine ⟨synced.attached, synced.named, ?_⟩
    intro s' present
    cases present
    exact same
  · rw [rehydrateFromWsAttachment_log, List.append_nil]

theorem moves_evict (nowMs : Nat) (e : Engine) : e.Moves nowMs e.evict := by
  refine ⟨List.prefix_rfl, ?_⟩
  intro att lane synced held _
  refine ⟨att, lane, [], ⟨synced.attached, synced.named, ?_⟩, held, (List.append_nil _).symm, .done lane⟩
  intro s present
  cases present

theorem moves_stampPing (nowMs : Nat) (platform : Platform) (e : Engine) (att : WsAttachment)
    (attached : e.attachment = some att) : e.Moves nowMs (e.stampPing platform att nowMs) := by
  refine ⟨stampPing_log platform e att nowMs, ?_⟩
  intro att' lane synced held unrefused
  cases attached.symm.trans synced.attached
  refine ⟨_, lane, [.pinged], synced.stampPing unrefused, held, ?_, (LanePath.done lane).plain _ rfl rfl⟩
  have written := serializeAttachment_eq (e := e.emit .pinged) unrefused
  unfold stampPing
  rw [written]
  rfl

theorem moves_ensureHeartbeat (platform : Platform) (e : Engine) (a : Ambient) :
    e.Moves a.nowMs (e.ensureHeartbeat platform a) := by
  obtain same | ⟨att, attached, same⟩ := ensureHeartbeat_cases platform e a
  · rw [same]
    exact Moves.refl a.nowMs e
  · rw [same]
    exact moves_stampPing a.nowMs platform e att attached

/-- A new state is kept. The lane may have moved, with the event that follows. -/
theorem moves_keepState {nowMs : Nat} {platform : Platform} {e : Engine} {s s' : SessionState}
    {event : SessionEvent} (present : e.inner = some s) (sid : s'.sid = s.sid)
    (path : ∀ lane, s.lane = some lane → ∃ lane', s'.lane = some lane' ∧ LanePath nowMs lane lane' [event]) :
    e.Moves nowMs ((e.keepState platform s').emit event) := by
  refine ⟨(keepState_log platform e s').trans (List.prefix_append _ _), ?_⟩
  intro att lane synced held unrefused
  have same := synced.memory s present
  have kept : (e.keepState platform s').Unrefused := unrefused.earlier (List.prefix_append _ _)
  obtain ⟨lane', held', path'⟩ := path lane (by rw [← held, ← same]; rfl)
  have named : s'.sid ≠ "" := by
    rw [sid]
    have := synced.named
    rw [← same] at this
    exact this
  refine ⟨s'.toAttachment, lane', [event], (keepState_synced synced.attached named kept).emit event, held', ?_,
    path'⟩
  rw [emit_log, keepState_eq synced.attached kept]

/-- A new state with the same lane. -/
theorem moves_keepState_quiet {nowMs : Nat} {platform : Platform} {e : Engine} {s s' : SessionState}
    (present : e.inner = some s) (sid : s'.sid = s.sid) (lane : s'.lane = s.lane) :
    e.Moves nowMs (e.keepState platform s') := by
  refine ⟨keepState_log platform e s', ?_⟩
  intro att held synced lanes unrefused
  have same := synced.memory s present
  have named : s'.sid ≠ "" := by
    rw [sid]
    have := synced.named
    rw [← same] at this
    exact this
  refine ⟨s'.toAttachment, held, [], keepState_synced synced.attached named unrefused, ?_, ?_, .done held⟩
  · rw [← lanes, ← same]
    exact lane
  · rw [keepState_eq synced.attached unrefused, List.append_nil]

theorem moves_emitOnSessionLane (platform : Platform) (e : Engine) (ev : OutboundEvent) (nowMs : Nat) :
    e.Moves nowMs (e.emitOnSessionLane platform ev nowMs) := by
  unfold emitOnSessionLane
  split
  · exact Moves.refl nowMs e
  next s present =>
    split
    · exact Moves.refl nowMs e
    next lane held =>
      split
      · exact Moves.refl nowMs e
      next usable =>
        split
        · exact Moves.refl nowMs e
        next frame lane' sealed =>
          obtain ⟨counter, moved⟩ := SessionLane.sealOutbound_some sealed
          refine moves_keepState present ?_ ?_
          · rfl
          intro lane'' held''
          cases held.symm.trans held''
          refine ⟨lane', rfl, ?_⟩
          rw [moved, counter]
          apply (LanePath.done lane).sealed
          simp only [Bool.or_eq_true, Bool.not_eq_true', not_or, Bool.not_eq_false] at usable
          exact usable.2

theorem moves_recordRooms (platform : Platform) (e : Engine) (name : String) (data : Value)
    (outbound : List OutboundEvent) (nowMs : Nat) :
    e.Moves nowMs (e.recordRooms platform name data outbound nowMs) := by
  unfold recordRooms
  split
  · exact Moves.refl nowMs e
  next s present =>
    dsimp only
    split
    · refine moves_keepState_quiet present ?_ ?_
      · rfl
      · rfl
    · exact Moves.refl nowMs e

theorem moves_afterForward (platform : Platform) (e : Engine) (name : String) (data : Value) (onLane : Bool)
    (outbound : List OutboundEvent) (nowMs : Nat) :
    e.Moves nowMs (e.afterForward platform name data onLane outbound nowMs) := by
  have deliveries : ∀ e : Engine,
      e.Moves nowMs (outbound.foldl (fun e ev => e.emitOnSessionLane platform ev nowMs) e) := by
    induction outbound with
    | nil => exact Moves.refl nowMs
    | cons ev rest ih =>
      intro e
      exact (moves_emitOnSessionLane platform e ev nowMs).trans (ih _)
  unfold afterForward
  dsimp only
  split
  · exact (moves_recordRooms platform e name data outbound nowMs).trans (deliveries _)
  · exact moves_recordRooms platform e name data outbound nowMs

theorem moves_dispatchSessionMessage (platform : Platform) (e : Engine) (frame : Option Frame) (nowMs : Nat) :
    e.Moves nowMs (e.dispatchSessionMessage platform frame nowMs).1 := by
  unfold dispatchSessionMessage
  split
  · exact Moves.refl nowMs e
  next s present =>
    split
    · exact Moves.emit nowMs e rfl rfl
    · exact Moves.emit nowMs e rfl rfl
    next f lane held =>
      split
      · exact Moves.emit nowMs e rfl rfl
      next lane' eventName dataText verified =>
        obtain ⟨-, live, newer, moved⟩ := SessionLane.verifyInbound_ok verified
        refine moves_keepState present ?_ ?_
        · rfl
        intro lane'' held''
        cases held.symm.trans held''
        refine ⟨lane', rfl, ?_⟩
        rw [moved]
        exact (LanePath.done lane).accepted _ live newer rfl rfl

theorem moves_sessionMessage (platform : Platform) (e : Engine) (frame : Option Frame) (a : Ambient) :
    e.Moves a.nowMs
      (e.websocketMessage platform (.message (some (.event (.sessionMessage frame)))) a).1 := by
  unfold websocketMessage
  split
  · exact Moves.refl a.nowMs e
  split
  · exact Moves.refl a.nowMs e
  have woken := (moves_rehydrate a.nowMs e).trans (moves_ensureHeartbeat platform e.rehydrateFromWsAttachment a)
  simp only [handleEngineioPacket, dispatchSocketio, dispatchEvent]
  split
  · exact woken.trans (moves_dispatchSessionMessage platform _ frame a.nowMs)
  · exact woken.trans (Moves.emit a.nowMs _ rfl rfl)

theorem moves_broadcast (platform : Platform) (e : Engine) (ev : OutboundEvent) (a : Ambient) :
    e.Moves a.nowMs (e.handleSocketioBroadcast platform ev a) := by
  have woken := (moves_ensureHeartbeat platform e a).trans (moves_rehydrate a.nowMs (e.ensureHeartbeat platform a))
  unfold handleSocketioBroadcast
  dsimp only
  split
  · exact woken.trans (Moves.emit a.nowMs _ rfl rfl)
  split
  · exact woken.trans (Moves.emit a.nowMs _ rfl rfl)
  · exact (woken.trans (moves_emitOnSessionLane platform _ ev a.nowMs)).trans (moves_ensureHeartbeat platform _ a)

end Engine

/-- The clock a step reads, if it reads one. -/
def SessionInput.clock : SessionInput → Option Nat
  | .frame _ _ a => some a.nowMs
  | .hubAnswered _ _ a => some a.nowMs
  | .attachAnswered _ _ a => some a.nowMs
  | .broadcast _ a => some a.nowMs
  | .authRound _ _ _ a => some a.nowMs
  | .poll _ a => some a.nowMs
  | .upgrade _ _ a => some a.nowMs
  | .alarm a => some a.nowMs
  | _ => none

def sessionMessageFrame (frame : Option Frame) : EngineIoPacket :=
  .message (some (.event (.sessionMessage frame)))

/-- The frames of the client on the lane, what the hub answers to them, deliveries, and evictions. -/
inductive LaneInput : SessionInput → Prop where
  | frame (task : Nat) (frame : Option Frame) (a : Ambient) : LaneInput (.frame task (sessionMessageFrame frame) a)
  | hubAnswered (task : Nat) (outbound : List OutboundEvent) (a : Ambient) :
      LaneInput (.hubAnswered task outbound a)
  | broadcast (ev : OutboundEvent) (a : Ambient) : LaneInput (.broadcast ev a)
  | abandoned (task : Nat) : LaneInput (.abandoned task)
  | evicted : LaneInput .evicted

@[simp] theorem setTask_engine (s : SessionObject) (p : Nat) (task : Option Task) :
    (s.setTask p task).engine = s.engine := rfl

theorem moves_step (platform : Platform) (s : SessionObject) {input : SessionInput} (lane : LaneInput input)
    {nowMs : Nat} (clock : ∀ u, input.clock = some u → u = nowMs) :
    s.engine.Moves nowMs (s.step platform input).engine := by
  cases lane with
  | frame task frame a =>
    cases clock a.nowMs rfl
    simp only [SessionObject.step, SessionObject.frameStep]
    split
    · exact Engine.Moves.refl _ _
    · exact Engine.moves_sessionMessage platform s.engine frame a
  | hubAnswered task outbound a =>
    cases clock a.nowMs rfl
    simp only [SessionObject.step, SessionObject.hubAnsweredStep]
    split
    · exact Engine.moves_afterForward platform s.engine _ _ _ outbound a.nowMs
    · exact Engine.Moves.refl _ _
  | broadcast ev a =>
    cases clock a.nowMs rfl
    exact Engine.moves_broadcast platform s.engine ev a
  | abandoned task => exact Engine.Moves.refl nowMs s.engine
  | evicted => exact Engine.moves_evict nowMs s.engine

/-- The counters of the log lie behind those of the lane, each in increasing order. -/
structure Behind (log : List SessionEvent) (lane : SessionLane) : Prop where
  routedUp : (routed log).Pairwise (· < ·)
  routedPast : ∀ n ∈ routed log, n ≤ lane.lastIn
  sealedUp : (sealedOut log).Pairwise (· < ·)
  sealedPast : ∀ n ∈ sealedOut log, n < lane.nextOut

theorem routed_append (log later : List SessionEvent) : routed (log ++ later) = routed log ++ routed later :=
  List.filterMap_append

theorem sealedOut_append (log later : List SessionEvent) :
    sealedOut (log ++ later) = sealedOut log ++ sealedOut later :=
  List.filterMap_append

theorem routed_snoc (log : List SessionEvent) (event : SessionEvent) :
    routed (log ++ [event]) = routed log ++ event.routedCounter.toList := by
  rw [routed_append]
  cases counter : event.routedCounter with
  | none => simp [routed, counter]
  | some n => simp [routed, counter]

theorem sealedOut_snoc (log : List SessionEvent) (event : SessionEvent) :
    sealedOut (log ++ [event]) = sealedOut log ++ event.sealedCounter.toList := by
  rw [sealedOut_append]
  cases counter : event.sealedCounter with
  | none => simp [sealedOut, counter]
  | some n => simp [sealedOut, counter]

theorem pairwise_lt_snoc {counters : List Nat} (up : counters.Pairwise (· < ·)) {n : Nat}
    (past : ∀ k ∈ counters, k < n) : (counters ++ [n]).Pairwise (· < ·) := by
  rw [List.pairwise_append]
  refine ⟨up, List.pairwise_singleton _ _, ?_⟩
  intro k earlier n' last
  rw [List.mem_singleton] at last
  rw [last]
  exact past k earlier

theorem Behind.path {nowMs : Nat} {lane lane' : SessionLane} {log events : List SessionEvent}
    (behind : Behind log lane) (path : LanePath nowMs lane lane' events) : Behind (log ++ events) lane' := by
  induction path with
  | done => simpa using behind
  | plain _ event unrouted unsealed ih =>
    rw [← List.append_assoc]
    refine ⟨?_, ?_, ?_, ?_⟩
    all_goals simp only [routed_snoc, sealedOut_snoc, unrouted, unsealed, Option.toList_none, List.append_nil]
    · exact ih.routedUp
    · exact ih.routedPast
    · exact ih.sealedUp
    · exact ih.sealedPast
  | @accepted mid events _ event n _ newer stamp unsealed ih =>
    rw [← List.append_assoc]
    have past : ∀ k ∈ routed (log ++ events), k < n := fun k earlier =>
      lt_of_le_of_lt (ih.routedPast k earlier) newer
    refine ⟨?_, ?_, ?_, ?_⟩
    all_goals simp only [routed_snoc, sealedOut_snoc, stamp, unsealed, Option.toList_none, Option.toList_some,
      List.append_nil]
    · exact pairwise_lt_snoc ih.routedUp past
    · intro k taken
      cases List.mem_append.mp taken with
      | inl earlier => exact (past k earlier).le
      | inr last => exact (List.mem_singleton.mp last).le
    · exact ih.sealedUp
    · exact ih.sealedPast
  | @sealed mid events _ _ ih =>
    rw [← List.append_assoc]
    refine ⟨?_, ?_, ?_, ?_⟩
    all_goals simp only [routed_snoc, sealedOut_snoc, SessionEvent.routedCounter, SessionEvent.sealedCounter,
      Option.toList_none, Option.toList_some, List.append_nil]
    · exact ih.routedUp
    · exact ih.routedPast
    · exact pairwise_lt_snoc ih.sealedUp ih.sealedPast
    · intro k taken
      cases List.mem_append.mp taken with
      | inl earlier => exact Nat.lt_succ_of_lt (ih.sealedPast k earlier)
      | inr last => exact Nat.lt_succ_of_le (List.mem_singleton.mp last).le

/-- An expired lane takes no more steps. -/
theorem LanePath.expired {nowMs : Nat} {lane lane' : SessionLane} {events : List SessionEvent}
    (path : LanePath nowMs lane lane' events) (expired : lane.isLive nowMs = false) :
    lane' = lane ∧ routed events = [] ∧ sealedOut events = [] := by
  induction path with
  | done => exact ⟨rfl, rfl, rfl⟩
  | plain _ event unrouted unsealed ih =>
    rw [routed_snoc, sealedOut_snoc, unrouted, unsealed, ih.2.1, ih.2.2]
    exact ⟨ih.1, rfl, rfl⟩
  | accepted _ event live _ _ _ ih =>
    rw [ih.1, expired] at live
    cases live
  | sealed _ live ih =>
    rw [ih.1, expired] at live
    cases live

namespace Engine

/-- How many frames were refused so far. -/
def refusals (e : Engine) : Nat := e.log.countP SessionEvent.isRefused

theorem refusals_serializeAttachment (platform : Platform) (e : Engine) (att : WsAttachment) :
    (e.serializeAttachment platform att).refusals = e.refusals := by
  unfold serializeAttachment
  split
  · rfl
  · simp [refusals, SessionEvent.isRefused]

theorem refusals_keepState (platform : Platform) (e : Engine) (s : SessionState) :
    (e.keepState platform s).refusals = e.refusals := by
  unfold keepState persistToWsAttachment
  split
  · exact refusals_serializeAttachment platform _ _
  · rfl

theorem refusals_ensureHeartbeat (platform : Platform) (e : Engine) (a : Ambient) :
    (e.ensureHeartbeat platform a).refusals = e.refusals := by
  obtain same | ⟨att, -, same⟩ := ensureHeartbeat_cases platform e a
  · rw [same]
  · rw [same]
    refine (refusals_serializeAttachment platform (e.emit .pinged) _).trans ?_
    simp [refusals, SessionEvent.isRefused]

theorem lane_rehydrate (e : Engine) : e.rehydrateFromWsAttachment.lane = e.lane := by
  unfold rehydrateFromWsAttachment
  split
  next att absent attached =>
    split
    · rfl
    · simp [Engine.lane, absent, attached, SessionState.fromAttachment]
  next => rfl

theorem lane_ensureHeartbeat (platform : Platform) (e : Engine) (a : Ambient) :
    (e.ensureHeartbeat platform a).lane = e.lane := by
  obtain same | ⟨att, attached, same⟩ := ensureHeartbeat_cases platform e a
  · rw [same]
  · rw [same]
    unfold stampPing serializeAttachment
    cases present : e.inner with
    | none => split <;> simp [Engine.lane, present, attached]
    | some s => split <;> simp [Engine.lane, present]

theorem lane_of_refused {platform : Platform} {e : Engine} {frame : Option Frame} {nowMs : Nat}
    (refused : (e.dispatchSessionMessage platform frame nowMs).1.refusals ≠ e.refusals) :
    (e.dispatchSessionMessage platform frame nowMs).1.lane = e.lane := by
  unfold dispatchSessionMessage at refused ⊢
  split
  · rfl
  next s present =>
    simp only [present] at refused
    split
    · rfl
    · rfl
    next f lane held =>
      simp only [held] at refused
      split
      · rfl
      next verified =>
        simp only [verified] at refused
        refine absurd ?_ refused
        unfold forwardEventToMessageHub
        unfold refusals
        rw [emit_log, List.countP_append]
        exact refusals_keepState platform e _

/-- A frame that is refused leaves the lane as it was. -/
theorem lane_of_refused_frame {platform : Platform} {e : Engine} {frame : Option Frame} {a : Ambient}
    (refused : (e.websocketMessage platform (sessionMessageFrame frame) a).1.refusals ≠ e.refusals) :
    (e.websocketMessage platform (sessionMessageFrame frame) a).1.lane = e.lane := by
  have woken : (e.rehydrateFromWsAttachment.ensureHeartbeat platform a).refusals = e.refusals := by
    rw [refusals_ensureHeartbeat]
    unfold refusals
    rw [rehydrateFromWsAttachment_log]
  have same : (e.rehydrateFromWsAttachment.ensureHeartbeat platform a).lane = e.lane := by
    rw [lane_ensureHeartbeat, lane_rehydrate]
  unfold websocketMessage sessionMessageFrame at refused ⊢
  split
  · rfl
  next att attached =>
    simp only [attached] at refused
    split
    · rfl
    next named =>
      simp only [if_neg named, handleEngineioPacket, dispatchSocketio, dispatchEvent] at refused ⊢
      split
      next connected =>
        rw [if_pos connected] at refused
        rw [← same]
        apply lane_of_refused
        rw [woken]
        exact refused
      next => exact same

end Engine

section Run

variable (platform : Platform)

/-- The session after some inputs. -/
def engineAfter (start : SessionObject) (inputs : List SessionInput) : Engine :=
  ((sessionMachine platform).run ⟨start, []⟩ inputs).state.engine

/-- Over a whole run: every counter is routed at most once, and put on the wire once and in order; a
refused frame leaves the lane unchanged; and once a window has passed, nothing is accepted or sealed. -/
structure LaneDiscipline (start : SessionObject) (inputs : List SessionInput) : Prop where
  routedOnce : (routed (engineAfter platform start inputs).log).Nodup
  sealedInOrder : (sealedOut (engineAfter platform start inputs).log).Pairwise (· < ·)
  refusedUnchanged : ∀ earlier task frame a later,
    inputs = earlier ++ .frame task (sessionMessageFrame frame) a :: later →
    (engineAfter platform start (earlier ++ [.frame task (sessionMessageFrame frame) a])).refusals ≠
      (engineAfter platform start earlier).refusals →
    (engineAfter platform start (earlier ++ [.frame task (sessionMessageFrame frame) a])).lane =
      (engineAfter platform start earlier).lane
  expiredForGood : ∀ earlier later lane t, inputs = earlier ++ later →
    (engineAfter platform start earlier).lane = some lane → lane.isLive t = false →
    (∀ u ∈ later.filterMap SessionInput.clock, t ≤ u) →
    routed (engineAfter platform start inputs).log = routed (engineAfter platform start earlier).log ∧
      sealedOut (engineAfter platform start inputs).log = sealedOut (engineAfter platform start earlier).log

/-- A session with its socket, right after its state was persisted. -/
def openSession (s : SessionState) (rounds : Option AuthRoundState) : SessionObject :=
  { engine := { inner := some s, attachment := some s.toAttachment, rounds := rounds, log := [] }, tasks := ∅ }

/-- A step of the lane at which the platform takes the attachment. -/
def AttachmentTaken (c : Config SessionObject Unit) (input : SessionInput) : Prop :=
  LaneInput input ∧ (c.state.step platform input).engine.Unrefused

/-- The lane on both sides. -/
def OnLane (e : Engine) (lane : SessionLane) : Prop :=
  ∃ att, e.Synced att ∧ att.lane = some lane

theorem OnLane.lane {e : Engine} {lane : SessionLane} (held : OnLane e lane) : e.lane = some lane := by
  obtain ⟨att, synced, same⟩ := held
  unfold Engine.lane
  split
  next s present => rw [← same, ← synced.memory s present]; rfl
  next => rw [synced.attached, Option.bind_some, same]

theorem onLane_step {c : Config SessionObject Unit} {input : SessionInput} {lane : SessionLane} (nowMs : Nat)
    (held : OnLane c.state.engine lane) (taken : AttachmentTaken platform c input)
    (clock : ∀ u, input.clock = some u → u = nowMs) :
    ∃ lane' events, OnLane ((sessionMachine platform).advance c input).state.engine lane' ∧
      ((sessionMachine platform).advance c input).state.engine.log = c.state.engine.log ++ events ∧
      LanePath nowMs lane lane' events := by
  obtain ⟨att, synced, same⟩ := held
  obtain ⟨att', lane', events, synced', same', log', path⟩ :=
    (moves_step platform c.state taken.1 clock).path att lane synced same taken.2
  exact ⟨lane', events, ⟨att', synced', same'⟩, log', path⟩

/-- The lane on both sides, ahead of the counters of the log. -/
def OnCourse (c : Config SessionObject Unit) : Prop :=
  ∃ lane, OnLane c.state.engine lane ∧ Behind c.state.engine.log lane

theorem onCourse_step (c : Config SessionObject Unit) (input : SessionInput) (course : OnCourse c)
    (taken : AttachmentTaken platform c input) : OnCourse ((sessionMachine platform).advance c input) := by
  obtain ⟨lane, held, behind⟩ := course
  obtain ⟨lane', events, held', log', path⟩ :=
    onLane_step platform (input.clock.getD 0) held taken (fun u same => by rw [same]; rfl)
  refine ⟨lane', held', ?_⟩
  rw [log']
  exact behind.path path

/-- Past a window of the lane nothing more is routed or sealed. -/
theorem expired_run {t : Nat} {lane : SessionLane} (expired : lane.isLive t = false)
    {c : Config SessionObject Unit} {inputs : List SessionInput} (held : OnLane c.state.engine lane)
    (taken : (sessionMachine platform).Guarded (AttachmentTaken platform) c inputs)
    (clocks : ∀ u ∈ inputs.filterMap SessionInput.clock, t ≤ u) :
    routed ((sessionMachine platform).run c inputs).state.engine.log = routed c.state.engine.log ∧
      sealedOut ((sessionMachine platform).run c inputs).state.engine.log = sealedOut c.state.engine.log := by
  induction inputs generalizing c with
  | nil => exact ⟨rfl, rfl⟩
  | cons input rest ih =>
    have later : ∀ u, input.clock = some u → t ≤ u := by
      intro u same
      apply clocks
      simp [same]
    have stillExpired : lane.isLive (input.clock.getD t) = false := by
      rw [← Bool.not_eq_true]
      intro live
      have earlier : t ≤ input.clock.getD t := by
        cases same : input.clock with
        | none => exact le_rfl
        | some u => exact later u same
      rw [SessionLane.isLive_earlier earlier live] at expired
      cases expired
    obtain ⟨lane', events, held', log', path⟩ :=
      onLane_step platform (input.clock.getD t) held taken.1 (fun u same => by rw [same]; rfl)
    obtain ⟨rfl, noneRouted, noneSealed⟩ := path.expired stillExpired
    have quiet := ih held' taken.2 (fun u mem => clocks u (by
      rw [List.filterMap_cons]
      split
      · exact mem
      · exact List.mem_cons_of_mem _ mem))
    rw [Machine.run_cons, quiet.1, quiet.2, log', routed_append, sealedOut_append, noneRouted, noneSealed,
      List.append_nil, List.append_nil]
    exact ⟨rfl, rfl⟩

theorem engineAfter_snoc (start : SessionObject) (earlier : List SessionInput) (input : SessionInput) :
    engineAfter platform start (earlier ++ [input]) =
      (((sessionMachine platform).run ⟨start, []⟩ earlier).state.step platform input).engine := by
  unfold engineAfter
  rw [Machine.run_append]
  rfl

/-- Nothing refused at the end was refused on the way. -/
theorem attachmentTaken_of_unrefused {c : Config SessionObject Unit} {inputs : List SessionInput}
    (lane : ∀ input ∈ inputs, LaneInput input)
    (unrefused : ((sessionMachine platform).run c inputs).state.engine.Unrefused) :
    (sessionMachine platform).Guarded (AttachmentTaken platform) c inputs ∧
      c.state.engine.log <+: ((sessionMachine platform).run c inputs).state.engine.log := by
  induction inputs generalizing c with
  | nil => exact ⟨trivial, List.prefix_rfl⟩
  | cons input rest ih =>
    obtain ⟨later, grew⟩ := ih (fun next mem => lane next (List.mem_cons_of_mem _ mem)) unrefused
    have first := lane input List.mem_cons_self
    have moves : c.state.engine.Moves (input.clock.getD 0) (c.state.step platform input).engine :=
      moves_step platform c.state first (fun u same => by rw [same]; rfl)
    exact ⟨⟨⟨first, unrefused.earlier grew⟩, later⟩, moves.grew.trans grew⟩

/-- While the platform takes every attachment written, the lane keeps its discipline over every run of
its frames and deliveries, whatever is evicted in between. -/
theorem laneDiscipline_of_unrefused (s : SessionState) (rounds : Option AuthRoundState)
    (lane : SessionLane) (inputs : List SessionInput) (named : s.sid ≠ "") (minted : s.lane = some lane)
    (ofLane : ∀ input ∈ inputs, LaneInput input)
    (unrefused : (engineAfter platform (openSession s rounds) inputs).Unrefused) :
    LaneDiscipline platform (openSession s rounds) inputs := by
  have taken := (attachmentTaken_of_unrefused platform ofLane unrefused).1
  have held : OnLane (openSession s rounds).engine lane := by
    refine ⟨s.toAttachment, ⟨rfl, named, ?_⟩, minted⟩
    intro s' present
    cases present
    rfl
  have blank : Behind (openSession s rounds).engine.log lane :=
    ⟨List.Pairwise.nil, fun _ none => (by cases none), List.Pairwise.nil, fun _ none => (by cases none)⟩
  have course : OnCourse ⟨openSession s rounds, []⟩ := ⟨lane, held, blank⟩
  obtain ⟨final, -, behind⟩ := Machine.run_invariant _ (onCourse_step platform) course taken
  refine { routedOnce := ?_, sealedInOrder := behind.sealedUp, refusedUnchanged := ?_, expiredForGood := ?_ }
  · exact behind.routedUp.imp (fun less => less.ne)
  · intro earlier task frame a later _ refused
    rw [engineAfter_snoc] at refused ⊢
    unfold engineAfter at refused ⊢
    generalize ((sessionMachine platform).run ⟨openSession s rounds, []⟩ earlier).state = before at refused ⊢
    simp only [SessionObject.step, SessionObject.frameStep] at refused ⊢
    split
    · rfl
    next free =>
      simp only [free] at refused
      exact Engine.lane_of_refused_frame refused
  · intro earlier later lane' t parts held' expired clocks
    subst parts
    obtain ⟨before, after⟩ := (Machine.guarded_append (sessionMachine platform) _ earlier later).mp taken
    obtain ⟨mid, onMid, -⟩ := Machine.run_invariant _ (onCourse_step platform) course before
    cases onMid.lane.symm.trans held'
    have quiet := expired_run platform expired onMid after clocks
    unfold engineAfter
    rw [Machine.run_append]
    exact quiet

end Run

def seatIdentity : String := "02f1a3c5e7092b4d6f8091a2b3c4d5e6f708192a3b4c5d6e7f8091a2b3c4d5e6f7"

def seatRoom : String := seatIdentity ++ "-low_game_0123456789abcdef0123456789abcdef"

def seatLane : SessionLane :=
  { id := "a56145270ce6b3bebd1dd012b73948677dd618d496488bc608a3cb43ce3547dd",
    key := "86be9a55762d316a3026c2836d044f5fc76e34da10e1b45feee5f18be7edb177",
    identity := seatIdentity,
    expiresAtMs := 1000 + sessionIdleMs,
    mintedAtMs := 1000,
    lastIn := 0,
    nextOut := 1,
    active := false }

/-- A seat in some games, its lane just minted. -/
def seatState (rooms : Nat) : SessionState :=
  { SessionState.new "K7bqvE3nJm2xPz9L" with
    transport := .webSocket,
    connected := true,
    auth := .authenticated "c2VydmVyLW5vbmNlLWJhc2U2NC1zZXJ2ZXItbm9uY2U=" "Y2xpZW50LW5vbmNlLWJhc2U2NC1jbGllbnQtbm9uY2U="
      seatIdentity,
    joinedRooms := ("0123456789a".toList.take rooms).map (fun digit =>
      seatIdentity ++ "-low_game_" ++ String.ofList (List.replicate 32 digit)),
    authenticatedEmitted := true,
    lastPingAtMs := some 1000,
    lane := some seatLane }

def joinFrame : Frame :=
  { s := some seatLane.id, n := 1, e := "joinRoom", d := "\"" ++ seatRoom ++ "\"",
    m := "7a06b916e4aeb7c537fb2f59f03a3ec65340ac608ef17e3dd3afdc078a570be3" }

def helloFrame : Frame :=
  { s := some seatLane.id, n := 2, e := "sessionHello", d := "null",
    m := "fc7dbea4ff528bbf7ef247e937749dc02ab10c45c2e69b7c89d178c40da497d6" }

def joinedRoom : OutboundEvent :=
  { eventName := "joinedRoom", data := .object [("roomId", .string seatRoom)] }

def joinedRoomText : String := "\x7b\"roomId\":\"" ++ seatRoom ++ "\"\x7d"

/-- SHA-256 and HMAC-SHA256 at the texts of these frames. -/
def seatCrypto : Crypto :=
  let joinDigest := "a7313828755f8c88b96762f4ec2759a61ddcd20253b4cd5d47569fd5e6a747d9"
  let helloDigest := "74234e98afe7498fb5daf1f36ac2d78acc339464f950703b8c019892f982b90b"
  let joinedDigest := "e9b584bf26d5a868e98fa87955cb9457179075605f8fb910aec658f5fb6c7f0f"
  let message (n : Nat) (e digest : String) : Bytes :=
    toLeBytes n ++ utf8 e ++ [0] ++ (hexDecode digest).getD []
  tableCrypto
    [(utf8 joinFrame.d, joinDigest), (utf8 helloFrame.d, helloDigest), (utf8 joinedRoomText, joinedDigest)]
    [(seatLane.key, message 1 "joinRoom" joinDigest, joinFrame.m),
      (seatLane.key, message 2 "sessionHello" helloDigest, helloFrame.m),
      (seatLane.key, message 1 "joinedRoom" joinedDigest,
        "3929f92ef4e34fc12b022a9f8f6ce28b96d4b6110c08c3365cf6b557d9e7be51")]

/-- The JSON of an attachment of the seat is 2008 bytes with eleven rooms and 2119 with twelve; the cap
is 2048. -/
def seatPlatform : Platform :=
  { crypto := seatCrypto,
    wallet :=
      { authVersion := "0.1", identityKey := .error "", createSignature := fun _ _ => .error "",
        verifySignature := fun _ _ _ => .ok false },
    parseJson := fun bytes =>
      if bytes = utf8 joinFrame.d then some (.string seatRoom)
      else if bytes = utf8 helloFrame.d then some .null
      else none,
    printJson := fun _ => joinedRoomText,
    fits := fun att => att.joinedRooms.length ≤ 11 }

/-- The client joins a room, speaks once more, and its last frame comes again after an eviction. -/
def replayAfterEviction : List SessionInput :=
  [.frame 0 (sessionMessageFrame (some joinFrame)) (.clockOnly 2000),
    .hubAnswered 0 [joinedRoom] (.clockOnly 2010),
    .frame 0 (sessionMessageFrame (some helloFrame)) (.clockOnly 3000),
    .hubAnswered 0 [] (.clockOnly 3010),
    .evicted,
    .frame 0 (sessionMessageFrame (some helloFrame)) (.clockOnly 4000)]

theorem laneInput_replayAfterEviction : ∀ input ∈ replayAfterEviction, LaneInput input := by
  intro input mem
  simp only [replayAfterEviction, List.mem_cons, List.not_mem_nil, or_false] at mem
  rcases mem with rfl | rfl | rfl | rfl | rfl | rfl
  · exact .frame _ _ _
  · exact .hubAnswered _ _ _
  · exact .frame _ _ _
  · exact .hubAnswered _ _ _
  · exact .evicted
  · exact .frame _ _ _

theorem laneDiscipline_replayAfterEviction :
    (routed (engineAfter seatPlatform (openSession (seatState 3) none) replayAfterEviction).log = [1, 2] ∧
      (engineAfter seatPlatform (openSession (seatState 3) none) replayAfterEviction).Unrefused) ∧
      LaneDiscipline seatPlatform (openSession (seatState 3) none) replayAfterEviction := by
  have run : routed (engineAfter seatPlatform (openSession (seatState 3) none) replayAfterEviction).log = [1, 2] ∧
      (engineAfter seatPlatform (openSession (seatState 3) none) replayAfterEviction).Unrefused := by
    decide +kernel
  refine ⟨run, ?_⟩
  exact laneDiscipline_of_unrefused seatPlatform (seatState 3) none seatLane replayAfterEviction (by decide) rfl
    laneInput_replayAfterEviction run.2

/-- With eleven rooms joined before, the twelfth puts the attachment over the cap. Its counters stay
behind, and the eviction brings them back. -/
theorem replayAfterEviction_routes_twice :
    (replayAfterEviction.filterMap SessionInput.clock).Pairwise (· ≤ ·) ∧
      (∀ input ∈ replayAfterEviction, LaneInput input) ∧
      ¬LaneDiscipline seatPlatform (openSession (seatState 11) none) replayAfterEviction := by
  refine ⟨by decide, laneInput_replayAfterEviction, ?_⟩
  intro discipline
  have once := discipline.routedOnce
  revert once
  decide +kernel

end MessageRelay.Session
