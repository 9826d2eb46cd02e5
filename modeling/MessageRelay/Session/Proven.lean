import MessageRelay.Library.History
import MessageRelay.Session.LaneCounters
import MessageRelay.Session.Rounds

/-! No event is routed under an identity that was not proven on the session, and a lane's events only
under the identity it was minted for, as long as no auth message moves the session to another identity
while it holds a lane. -/

namespace MessageRelay.Session
open MessageRelay.Library MessageRelay.Lane

section Proof

variable (platform : Platform)

/-- A General signed by the identity was verified under a round of that identity. -/
def GeneralBy (log : List SessionEvent) (identity : String) : Prop :=
  ∃ raw round, .general raw round ∈ log ∧ SignedBy platform.wallet raw round identity

/-- A General proves the identity, or its hub verified an attach for it. -/
def Known (log : List SessionEvent) (identity : String) : Prop :=
  GeneralBy platform log identity ∨ .attachVerified identity ∈ log

/-- A General of the identity is in the log, or its hub verified an attach and the event came in on a lane of it. An
event that came in on a lane is that lane's identity's. -/
def ForwardProven (before : List SessionEvent) : SessionEvent → Prop
  | .forwarded identity _ _ _ lane =>
    (GeneralBy platform before identity ∨
      (.attachVerified identity ∈ before ∧ ∃ stamp, lane = some stamp ∧ stamp.identity = identity)) ∧
    ∀ stamp, lane = some stamp → stamp.identity = identity
  | _ => True

/-- A lane belongs to the identity of the session, which is proven. -/
def Bound (log : List SessionEvent) (auth : SessionAuthState) (lane : Option SessionLane) : Prop :=
  ∀ held, lane = some held →
    auth.verifiedIdentityKey = some held.identity ∧ Known platform log held.identity

/-- The log grew from an earlier one, its forwards are proven, and so is whoever holds a lane. -/
structure Safe (base : List SessionEvent) (e : Engine) : Prop where
  grown : base <+: e.log
  proven : Preceded (ForwardProven platform) e.log
  memory : ∀ s, e.inner = some s → Bound platform e.log s.auth s.lane
  attached : ∀ att, e.attachment = some att → Bound platform e.log att.auth att.lane

variable {platform}

theorem GeneralBy.later {log : List SessionEvent} {identity : String} (known : GeneralBy platform log identity)
    (more : List SessionEvent) : GeneralBy platform (log ++ more) identity := by
  obtain ⟨raw, round, mem, signed⟩ := known
  exact ⟨raw, round, List.mem_append_left _ mem, signed⟩

theorem GeneralBy.grow {log log' : List SessionEvent} {identity : String} (known : GeneralBy platform log identity)
    (grown : log <+: log') : GeneralBy platform log' identity := by
  obtain ⟨more, rfl⟩ := grown
  exact known.later more

theorem Known.later {log : List SessionEvent} {identity : String} (known : Known platform log identity)
    (more : List SessionEvent) : Known platform (log ++ more) identity := by
  cases known with
  | inl general => exact .inl (general.later more)
  | inr attach => exact .inr (List.mem_append_left _ attach)

theorem Bound.later {log : List SessionEvent} {auth : SessionAuthState} {lane : Option SessionLane}
    (bound : Bound platform log auth lane) (more : List SessionEvent) :
    Bound platform (log ++ more) auth lane := by
  intro held same
  exact ⟨(bound held same).1, (bound held same).2.later more⟩

theorem Bound.of_none {log : List SessionEvent} {auth : SessionAuthState} : Bound platform log auth none := by
  intro held same
  cases same

def SessionEvent.isForwarded : SessionEvent → Bool
  | .forwarded .. => true
  | _ => false

section Steps
variable {base : List SessionEvent} {e : Engine} (safe : Safe platform base e)
include safe

theorem Safe.rebase : Safe platform e.log e := ⟨List.prefix_rfl, safe.proven, safe.memory, safe.attached⟩

theorem Safe.trans {e' : Engine} (next : Safe platform e.log e') : Safe platform base e' :=
  ⟨safe.grown.trans next.grown, next.proven, next.memory, next.attached⟩

theorem Safe.append (event : SessionEvent) (proven : ForwardProven platform e.log event) :
    Safe platform base (e.emit event) :=
  ⟨safe.grown.trans (List.prefix_append _ _), safe.proven.snoc proven, fun s present => (safe.memory s present).later _,
    fun att held => (safe.attached att held).later _⟩

theorem Safe.emit (event : SessionEvent) (plain : event.isForwarded = false) : Safe platform base (e.emit event) := by
  apply safe.append event
  cases event with
  | forwarded => cases plain
  | _ => trivial

theorem Safe.forward {identity : String} (sid name : String) (lane : Option LaneStamp)
    (known : GeneralBy platform e.log identity ∨
      (.attachVerified identity ∈ e.log ∧ ∃ stamp, lane = some stamp ∧ stamp.identity = identity))
    (own : ∀ stamp, lane = some stamp → stamp.identity = identity) :
    Safe platform base (e.forwardEventToMessageHub identity sid name lane) :=
  safe.append _ ⟨known, own⟩

theorem Safe.withInner {s : SessionState} (bound : Bound platform e.log s.auth s.lane) :
    Safe platform base { e with inner := some s } := by
  refine ⟨safe.grown, safe.proven, ?_, safe.attached⟩
  intro s' present
  cases present
  exact bound

theorem Safe.serializeAttachment {att : WsAttachment} (bound : Bound platform e.log att.auth att.lane) :
    Safe platform base (e.serializeAttachment platform att) := by
  unfold Engine.serializeAttachment
  split
  · refine ⟨safe.grown, safe.proven, safe.memory, ?_⟩
    intro att' held
    cases held
    exact bound
  · exact safe.emit .persistFailed rfl

theorem Safe.persist : Safe platform base (e.persistToWsAttachment platform) := by
  unfold Engine.persistToWsAttachment
  split
  next s _ present _ => exact safe.serializeAttachment (safe.memory s present)
  next => exact safe

theorem Safe.keepState {s : SessionState} (bound : Bound platform e.log s.auth s.lane) :
    Safe platform base (e.keepState platform s) :=
  (safe.withInner bound).persist

/-- A change of the memory that leaves the identity and the lane. -/
theorem Safe.modify (f : SessionState → SessionState) (auth : ∀ s, (f s).auth = s.auth)
    (lane : ∀ s, (f s).lane = s.lane) : Safe platform base (e.modify f) := by
  refine ⟨safe.grown, safe.proven, ?_, safe.attached⟩
  intro s present
  obtain ⟨before, held, rfl⟩ := Option.map_eq_some_iff.mp present
  rw [auth, lane]
  exact safe.memory before held

theorem Safe.rehydrate : Safe platform base e.rehydrateFromWsAttachment := by
  unfold Engine.rehydrateFromWsAttachment
  split
  next att _ attached =>
    split
    · exact safe
    · exact safe.withInner (safe.attached att attached)
  next => exact safe

theorem Safe.ensureInner (sid : String) : Safe platform base (e.ensureInner sid) := by
  unfold Engine.ensureInner
  dsimp only
  split
  · exact safe.rehydrate
  · exact safe.rehydrate.withInner Bound.of_none

theorem Safe.stampPing {att : WsAttachment} (attached : e.attachment = some att) (nowMs : Nat) :
    Safe platform base (e.stampPing platform att nowMs) := by
  unfold Engine.stampPing
  have pinged := safe.emit .pinged rfl
  have bound : Bound platform (e.emit .pinged).log att.auth att.lane := pinged.attached att attached
  have stamped := pinged.serializeAttachment
    (show Bound platform (e.emit .pinged).log
      ({ att with awaitingPongSinceMs := some nowMs, lastPingAtMs := some nowMs } : WsAttachment).auth
      ({ att with awaitingPongSinceMs := some nowMs, lastPingAtMs := some nowMs } : WsAttachment).lane from bound)
  exact stamped.modify _ (fun _ => rfl) (fun _ => rfl)

theorem Safe.ensureHeartbeat (a : Ambient) : Safe platform base (e.ensureHeartbeat platform a) := by
  obtain same | ⟨att, attached, same⟩ := Engine.ensureHeartbeat_cases platform e a
  · rw [same]
    exact safe
  · rw [same]
    exact safe.stampPing attached a.nowMs

theorem Safe.notePong : Safe platform base (e.notePong platform) := by
  have modified := safe.modify (fun s => { s with awaitingPongSinceMs := none }) (fun _ => rfl) (fun _ => rfl)
  unfold Engine.notePong
  dsimp only
  split
  next att attached =>
    exact modified.serializeAttachment (safe.attached att attached)
  next => exact modified

theorem Safe.emitOnSessionLane (ev : OutboundEvent) (nowMs : Nat) :
    Safe platform base (e.emitOnSessionLane platform ev nowMs) := by
  unfold Engine.emitOnSessionLane
  split
  · exact safe
  next s present =>
    split
    · exact safe
    next lane held =>
      split
      · exact safe
      split
      · exact safe
      next frame lane' sealed =>
        obtain ⟨-, same⟩ := SessionLane.sealOutbound_some sealed
        have bound : Bound platform e.log s.auth (some lane') := by
          intro lane'' taken
          cases taken
          rw [same]
          exact safe.memory s present lane held
        exact (safe.keepState bound).emit _ rfl

theorem Safe.unregister : Safe platform base e.unregisterWithMessageHub := by
  unfold Engine.unregisterWithMessageHub
  split
  · exact safe
  next s present =>
    have dropped : Safe platform base { e with inner := some { s with lane := none } } := safe.withInner Bound.of_none
    dsimp only
    split
    · exact dropped
    · exact dropped.emit _ rfl

theorem Safe.close : Safe platform base e.closeSession :=
  (safe.modify (fun s => { s with closed := true }) (fun _ => rfl) (fun _ => rfl)).unregister

theorem Safe.teardown : Safe platform base e.teardownWsTransport := safe.rehydrate.close

theorem Safe.recordRooms (name : String) (data : Value) (outbound : List OutboundEvent) (nowMs : Nat) :
    Safe platform base (e.recordRooms platform name data outbound nowMs) := by
  unfold Engine.recordRooms
  split
  · exact safe
  next s present =>
    dsimp only
    split
    · exact safe.keepState (safe.memory s present)
    · exact safe

theorem Safe.afterForward (name : String) (data : Value) (onLane : Bool) (outbound : List OutboundEvent)
    (nowMs : Nat) : Safe platform base (e.afterForward platform name data onLane outbound nowMs) := by
  have recorded := safe.recordRooms name data outbound nowMs
  unfold Engine.afterForward
  dsimp only
  split
  · generalize e.recordRooms platform name data outbound nowMs = e' at recorded
    induction outbound generalizing e' with
    | nil => exact recorded
    | cons ev rest ih => exact ih _ (recorded.emitOnSessionLane ev nowMs)
  · exact recorded

theorem Safe.mint (state : SessionAuthState) {identity : String} (a : Ambient)
    (own : ∀ s, e.inner = some s → s.auth.verifiedIdentityKey = some identity)
    (known : GeneralBy platform e.log identity) :
    Safe platform base (e.mintSessionLane platform state identity a) := by
  unfold Engine.mintSessionLane
  split
  next s lane present minted =>
    have bound : Bound platform e.log s.auth (some lane) := by
      intro held taken
      cases taken
      have identical : lane.identity = identity := by
        unfold Engine.mintLanePure at minted
        split at minted
        · cases minted
          rfl
        · cases minted
      rw [identical]
      exact ⟨own s present, .inl known⟩
    exact (safe.keepState bound).emit _ rfl
  next => exact safe

/-- New rounds are settled. The selected one is the lane's, if there is a lane. -/
theorem Safe.settleRounds {r : AuthRoundState}
    (own : ∀ s lane, e.inner = some s → s.lane = some lane → r.current.verifiedIdentityKey = some lane.identity) :
    Safe platform base (e.settleRounds platform r) := by
  have moved : Safe platform base (({ e with rounds := some r } : Engine).modify (fun s =>
      { s with auth := r.current, connected := s.connected || r.current.isAuthenticated })) := by
    refine ⟨safe.grown, safe.proven, ?_, safe.attached⟩
    intro s present
    obtain ⟨before, held, rfl⟩ := Option.map_eq_some_iff.mp present
    intro lane taken
    exact ⟨own before lane held taken, (safe.memory before held lane taken).2⟩
  exact moved.persist

end Steps

/-- While the session holds a lane, the durable selected round and the round the message names are of the lane's
identity. -/
def OnOwnRound (e : Engine) (raw : AuthArg) : Prop :=
  ∀ r lane, e.rounds = some r → e.lane = some lane →
    r.current.verifiedIdentityKey = some lane.identity ∧ (namedRound raw r).verifiedIdentityKey = some lane.identity

theorem lane_ensureInner {e : Engine} {sid : String} {lane : SessionLane} (held : (e.ensureInner sid).lane = some lane) :
    e.lane = some lane := by
  unfold Engine.ensureInner at held
  dsimp only at held
  split at held
  · rw [Engine.lane_rehydrate] at held
    exact held
  · cases held

theorem OnOwnRound.ensureHeartbeat {e : Engine} {raw : AuthArg} (own : OnOwnRound e raw) (platform : Platform)
    (a : Ambient) : OnOwnRound (e.ensureHeartbeat platform a) raw := by
  intro r lane rounds held
  rw [rounds_ensureHeartbeat] at rounds
  rw [Engine.lane_ensureHeartbeat] at held
  exact own r lane rounds held

theorem OnOwnRound.ensureInner {e : Engine} {raw : AuthArg} (own : OnOwnRound e raw) (platform : Platform) (sid : String)
    (a : Ambient) : OnOwnRound ((e.ensureHeartbeat platform a).ensureInner sid) raw := by
  intro r lane rounds held
  rw [rounds_ensureInner] at rounds
  exact own.ensureHeartbeat platform a r lane rounds (lane_ensureInner held)

theorem OnOwnRound.rehydrate {e : Engine} {raw : AuthArg} (own : OnOwnRound e raw) :
    OnOwnRound e.rehydrateFromWsAttachment raw := by
  intro r lane rounds held
  rw [rounds_rehydrate] at rounds
  rw [Engine.lane_rehydrate] at held
  exact own r lane rounds held

section Auth
variable {base : List SessionEvent} {e : Engine} (safe : Safe platform base e) {raw : AuthArg}
include safe

/-- So are the rounds the message is judged on: without durable ones they are the session's own state. -/
theorem Safe.authRounds (own : OnOwnRound e raw) {s : SessionState} {lane : SessionLane} (present : e.inner = some s)
    (held : s.lane = some lane) :
    e.authRounds.current.verifiedIdentityKey = some lane.identity ∧
      (namedRound raw e.authRounds).verifiedIdentityKey = some lane.identity := by
  have holds : e.lane = some lane := by
    simpa only [Engine.lane, present] using held
  cases rounds : e.rounds with
  | some r =>
    rw [Engine.authRounds, rounds, Option.getD_some]
    exact own r lane rounds holds
  | none =>
    have identity := (safe.memory s present lane held).1
    have alone : e.authRounds = ⟨s.auth, []⟩ := by
      simp only [Engine.authRounds, rounds, present, Option.getD_none, Option.map_some, Option.getD_some]
    rw [alone]
    refine ⟨identity, ?_⟩
    unfold namedRound selectRound
    split
    · simp only [List.reverse_nil, List.find?_cons, List.find?_nil]
      split
      · exact identity
      · exact identity
    · exact identity

theorem Safe.authRound (own : OnOwnRound e raw) (completed : Option SessionAuthState) (a : Ambient) :
    Safe platform base (e.authRound platform raw completed a).1 := by
  have selected {s : SessionState} {lane : SessionLane} (present : e.inner = some s) (held : s.lane = some lane) :
      e.authRounds.current.isAuthenticated = true := by
    have named := (safe.authRounds own present held).1
    cases current : e.authRounds.current with
    | unauthenticated =>
      rw [current] at named
      cases named
    | authenticated => rfl
  unfold Engine.authRound
  split
  · exact safe
  split
  next state =>
    split
    · exact safe
    split
    · exact safe
    refine safe.settleRounds (fun s lane present held => ?_)
    simp only [rememberAuthRound, selected present held, if_true]
    exact (safe.authRounds own present held).1
  next =>
    generalize advanced : advanceAuthRounds platform.wallet raw e.authRounds a.createdNonce = out
    obtain ⟨outcome, r⟩ := out
    dsimp only
    split
    · exact safe
    refine safe.settleRounds (fun s lane present held => ?_)
    by_cases verified : ∃ payload, outcome = .authenticatedGeneral payload
    · obtain ⟨payload, rfl⟩ := verified
      rw [(advanceAuthRounds_general advanced).1]
      exact (safe.authRounds own present held).2
    · have kept := @advanceAuthRounds_current platform.wallet raw e.authRounds a.createdNonce
        (fun payload no => verified ⟨payload, by rw [advanced] at no; exact no⟩) (selected present held)
      rw [advanced] at kept
      rw [kept]
      exact (safe.authRounds own present held).1

/-- A General verified on this round, its identity now the session's. -/
theorem Safe.dispatchGeneral {round : SessionAuthState} {identity : String}
    (proves : round.verifiedIdentityKey = some identity) (signed : SignedBy platform.wallet raw round identity)
    (auth : ∀ s, e.inner = some s → s.auth = round) (payload : Bytes) (a : Ambient) :
    let out := (e.emit (.general raw round)).dispatchGeneral platform payload a
    Safe platform base out.1 ∧ ∀ identity' name data, out.2 = some (.registering identity' name data) →
      GeneralBy platform out.1.log identity' := by
  have emitted := safe.emit (.general raw round) rfl
  have known : GeneralBy platform (e.emit (.general raw round)).log identity :=
    ⟨raw, round, List.mem_append_right _ (List.mem_singleton.mpr rfl), signed⟩
  have inner : (e.emit (.general raw round)).inner = e.inner := rfl
  generalize e.emit (.general raw round) = e' at emitted known inner
  unfold Engine.dispatchGeneral
  dsimp only
  rw [inner]
  cases present : e.inner with
  | none => exact ⟨emitted, fun _ _ _ no => (by cases no)⟩
  | some s =>
    have own : s.auth.verifiedIdentityKey = some identity := by
      rw [auth s present]
      exact proves
    -- The flag is kept before anything is sent.
    have flagged : Safe platform e'.log (if s.authenticatedEmitted = true then e' else
          e'.keepState platform { s with authenticatedEmitted := true }) ∧
        ∀ s', (if s.authenticatedEmitted = true then e' else
          e'.keepState platform { s with authenticatedEmitted := true }).inner = some s' →
            s'.auth.verifiedIdentityKey = some identity := by
      split
      · refine ⟨emitted.rebase, fun s' same => ?_⟩
        rw [inner, present] at same
        cases same
        exact own
      · refine ⟨emitted.rebase.keepState (emitted.memory s (inner.trans present)), fun s' same => ?_⟩
        rw [Engine.keepState, inner_persist] at same
        cases same
        exact own
    simp only [own]
    generalize (if s.authenticatedEmitted = true then e' else
      e'.keepState platform { s with authenticatedEmitted := true }) = kept at flagged ⊢
    obtain ⟨next, owned⟩ := flagged
    have proven := known.grow next.grown
    split
    · split
      · exact ⟨emitted.trans (next.mint s.auth a owned proven), fun _ _ _ no => (by cases no)⟩
      · exact ⟨emitted.trans next, fun _ _ _ no => (by cases no)⟩
    · split
      · have registered : Safe platform kept.log (kept.registerWithMessageHub identity) := by
          unfold Engine.registerWithMessageHub
          dsimp only
          split
          · exact next.rebase
          · exact next.rebase.emit _ rfl
        refine ⟨emitted.trans (next.trans registered), fun identity' name data task => ?_⟩
        cases task
        exact proven.grow registered.grown
      · exact ⟨emitted.trans (next.forward s.sid _ none (.inl proven) (fun _ no => (by cases no))),
          fun _ _ _ no => (by cases no)⟩

theorem Safe.dispatchAuthMessage (own : OnOwnRound e raw) (a : Ambient) :
    let out := e.dispatchAuthMessage platform raw a
    Safe platform base out.1 ∧ ∀ identity name data, out.2 = some (.registering identity name data) →
      GeneralBy platform out.1.log identity := by
  have judged := safe.authRound own none a
  have rounds := @authRound_rounds platform e raw none a
  unfold Engine.dispatchAuthMessage
  generalize e.authRound platform raw none a = call at judged rounds
  obtain ⟨e', outcome⟩ := call
  simp only at judged rounds
  cases outcome with
  | outbound messages =>
    dsimp only
    split
    · exact ⟨judged.persist, fun _ _ _ no => (by cases no)⟩
    · exact ⟨judged, fun _ _ _ no => (by cases no)⟩
  | quiet => exact ⟨judged, fun _ _ _ no => (by cases no)⟩
  | error reason =>
    exact ⟨(judged.emit (.authRefused reason) rfl).teardown, fun _ _ _ no => (by cases no)⟩
  | authenticatedGeneral payload =>
    rcases rounds with ⟨_, -, r, identity, held, proves, signed, auth⟩ | ⟨other, -⟩
    · simp only [held, Option.map_some, Option.getD_some]
      exact judged.dispatchGeneral proves signed auth payload a
    · exact absurd rfl (other payload)

theorem Safe.handleAuthRound (own : OnOwnRound e raw) (sid : String) (completed : Option SessionAuthState)
    (a : Ambient) : Safe platform base (e.handleAuthRound platform sid raw completed a) := by
  have prepared := (safe.ensureHeartbeat a).ensureInner sid
  have judged := prepared.authRound (own.ensureInner platform sid a) completed a
  unfold Engine.handleAuthRound
  dsimp only
  generalize ((e.ensureHeartbeat platform a).ensureInner sid).authRound platform raw completed a = call at judged ⊢
  obtain ⟨e', outcome⟩ := call
  cases outcome with
  | authenticatedGeneral payload => exact judged.emit _ rfl
  | outbound | quiet | error => exact judged

end Auth

section Handlers
variable {base : List SessionEvent} {e : Engine} (safe : Safe platform base e)
include safe

theorem Safe.dispatchSessionAttach (decoded : Option AttachFrame) :
    Safe platform base (e.dispatchSessionAttach platform decoded).1 := by
  unfold Engine.dispatchSessionAttach
  split
  · exact safe.emit _ rfl
  · exact safe
  next frame s _ present =>
    split
    · exact safe.emit _ rfl
    split
    · exact safe.emit _ rfl
    · exact safe.keepState (safe.memory s present)

/-- The hub's identity becomes the session's and the lane's in one step. -/
theorem Safe.afterAttach (frame : AttachFrame) (verdict : HubVerdict) (a : Ambient) :
    Safe platform base (e.afterAttach platform frame verdict a) := by
  unfold Engine.afterAttach
  split
  · exact safe.emit _ rfl
  · exact safe.emit _ rfl
  next hubIdentity hubKey =>
    dsimp only
    split
    · exact safe.emit _ rfl
    have verified := safe.emit (.attachVerified (toAsciiLowercase hubIdentity)) rfl
    have known : .attachVerified (toAsciiLowercase hubIdentity) ∈
        (e.emit (.attachVerified (toAsciiLowercase hubIdentity))).log :=
      List.mem_append_right _ (List.mem_singleton.mpr rfl)
    generalize e.emit (.attachVerified (toAsciiLowercase hubIdentity)) = e' at verified known
    split
    · exact verified.emit _ rfl
    next random _ =>
      split
      · exact verified.emit _ rfl
      next lane minted =>
        have identical : lane.identity = toAsciiLowercase hubIdentity := by
          unfold Engine.mintLanePure at minted
          split at minted
          · cases minted
            rfl
          · cases minted
        unfold Engine.commitAttach
        split
        · exact verified
        split
        · exact verified.emit _ rfl
        dsimp only
        have committed : Bound platform e'.log
            (.authenticated (hexEncode random.toList) frame.nonce (toAsciiLowercase hubIdentity)) (some lane) := by
          intro held taken
          cases taken
          rw [identical]
          exact ⟨rfl, .inr known⟩
        split
        · exact (verified.keepState committed).emit _ rfl
        · exact (verified.keepState committed).emit _ rfl

/-- A frame accepted on the lane is routed for the lane's identity. -/
theorem Safe.dispatchSessionMessage (frame : Option Frame) (nowMs : Nat) :
    Safe platform base (e.dispatchSessionMessage platform frame nowMs).1 := by
  unfold Engine.dispatchSessionMessage
  split
  · exact safe
  next s present =>
    split
    · exact safe.emit _ rfl
    · exact safe.emit _ rfl
    next f lane held =>
      split
      · exact safe.emit _ rfl
      next lane' eventName dataText accepted =>
        obtain ⟨-, -, -, same⟩ := SessionLane.verifyInbound_ok accepted
        obtain ⟨identity, known⟩ := safe.memory s present lane held
        have bound : Bound platform e.log s.auth (some lane') := by
          intro held' taken
          cases taken
          rw [same]
          exact ⟨identity, known⟩
        have kept := safe.rebase.keepState (show Bound platform e.log ({ s with lane := some lane' } : SessionState).auth
          ({ s with lane := some lane' } : SessionState).lane from bound)
        dsimp only
        rw [identity, Option.getD_some]
        refine safe.trans (kept.forward _ _ _ ?_ (fun stamp taken => by cases taken; rfl))
        cases known with
        | inl general => exact .inl (general.grow kept.grown)
        | inr verified => exact .inr ⟨kept.grown.subset verified, _, rfl, rfl⟩

theorem Safe.alarm (a : Ambient) : Safe platform base (e.alarm platform a) := by
  unfold Engine.alarm
  split
  · exact safe
  next att attached =>
    split
    · exact safe
    split
    · exact (safe.emit .pingTimeout rfl).teardown
    split
    · exact safe
    dsimp only
    have pinged := safe.emit .pinged rfl
    have bound : Bound platform (e.emit .pinged).log att.auth att.lane := pinged.attached att attached
    have stamped (refreshed : Option Nat) : Safe platform base (((e.emit .pinged).serializeAttachment platform
        { att with
          awaitingPongSinceMs := some a.nowMs, lastPingAtMs := some a.nowMs,
          registryRefreshedAtMs := refreshed }).modify (fun s =>
        { s with
          awaitingPongSinceMs := some a.nowMs, lastPingAtMs := some a.nowMs,
          registryRefreshedAtMs := refreshed })) := by
      refine Safe.modify ?_ _ (fun _ => rfl) (fun _ => rfl)
      exact pinged.serializeAttachment bound
    split
    · split
      · exact (stamped _).emit _ rfl
      · exact stamped _
    · exact stamped _

theorem Safe.handleInit (sid : String) : Safe platform base (e.handleInit sid) := by
  unfold Engine.handleInit
  split
  · exact safe
  split
  · exact safe
  · exact safe.withInner Bound.of_none

theorem Safe.broadcast (ev : OutboundEvent) (a : Ambient) :
    Safe platform base (e.handleSocketioBroadcast platform ev a) := by
  have woken := (safe.ensureHeartbeat a).rehydrate
  unfold Engine.handleSocketioBroadcast
  dsimp only
  split
  · exact woken.emit _ rfl
  split
  · exact woken.emit _ rfl
  · exact (woken.emitOnSessionLane ev a.nowMs).ensureHeartbeat a

theorem Safe.evict : Safe platform base e.evict :=
  ⟨safe.grown, safe.proven, fun _ no => (by cases no), safe.attached⟩

theorem Safe.websocketClose : Safe platform base e.websocketClose := by
  have torn := safe.teardown
  exact ⟨torn.grown, torn.proven, torn.memory, fun _ no => (by cases no)⟩

theorem Safe.handleWsUpgrade (sid : String) (kvAuth : SessionAuthState) (a : Ambient)
    (own : ∀ lane, e.lane = some lane → ((e.rounds.map AuthRoundState.current).getD kvAuth).isAuthenticated = true →
      ((e.rounds.map AuthRoundState.current).getD kvAuth).verifiedIdentityKey = some lane.identity) :
    Safe platform base (e.handleWsUpgrade platform sid kvAuth a) := by
  have prepared := safe.ensureInner sid
  rw [← rounds_ensureInner e sid] at own
  have lanes : ∀ lane, (e.ensureInner sid).lane = some lane → e.lane = some lane := fun lane held => lane_ensureInner held
  unfold Engine.handleWsUpgrade
  split
  · exact safe
  dsimp only
  generalize e.ensureInner sid = e' at prepared own lanes ⊢
  split
  · exact prepared
  next s present =>
    split
    · exact prepared
    have bound := prepared.memory s present
    have moved (s' : SessionState) (kept : Bound platform e'.log s'.auth s'.lane) : Safe platform base
        (Engine.serializeAttachment platform { e' with inner := some s' } s'.toAttachment) :=
      (prepared.withInner kept).serializeAttachment kept
    split
    next authenticated =>
      apply moved
      intro lane held
      refine ⟨own lane (lanes lane ?_) authenticated, (bound lane held).2⟩
      simpa only [Engine.lane, present] using held
    next =>
      apply moved
      exact bound

end Handlers

/-- What a handler of a frame leaves, with the task it waits under. -/
def Handled (platform : Platform) (base : List SessionEvent) (out : Engine × Option Task) : Prop :=
  Safe platform base out.1 ∧ ∀ identity name data, out.2 = some (.registering identity name data) →
    GeneralBy platform out.1.log identity

theorem Safe.handled {base : List SessionEvent} {e : Engine} (safe : Safe platform base e) {task : Option Task}
    (other : ∀ identity name data, task ≠ some (.registering identity name data)) :
    Handled platform base (e, task) :=
  ⟨safe, fun identity name data same => absurd same (other identity name data)⟩

section Frames
variable {base : List SessionEvent} {e : Engine} (safe : Safe platform base e)
include safe

theorem Safe.dispatchEvent {event : ClientEvent} (own : ∀ raw, event = .authMessage raw → OnOwnRound e raw)
    (a : Ambient) : Handled platform base (e.dispatchEvent platform event a) := by
  cases event with
  | unnamed => exact safe.handled (fun _ _ _ no => by cases no)
  | authMessage raw => exact safe.dispatchAuthMessage (own raw rfl) a
  | sessionAttach frame =>
    refine ⟨safe.dispatchSessionAttach frame, fun identity name data task => ?_⟩
    simp only [Engine.dispatchEvent, Engine.dispatchSessionAttach] at task
    split at task
    · cases task
    · cases task
    · split at task
      · cases task
      · split at task <;> cases task
  | sessionMessage frame =>
    simp only [Engine.dispatchEvent]
    split
    · refine ⟨safe.dispatchSessionMessage frame a.nowMs, fun identity name data task => ?_⟩
      unfold Engine.dispatchSessionMessage at task
      split at task
      · cases task
      · split at task
        · cases task
        · cases task
        · split at task <;> cases task
    · exact (safe.emit _ rfl).handled (fun _ _ _ no => by cases no)
  | other name => exact (safe.emit _ rfl).handled (fun _ _ _ no => by cases no)

theorem Safe.handleEngineioPacket {packet : EngineIoPacket}
    (own : ∀ raw, packet = .message (some (.event (.authMessage raw))) → OnOwnRound e raw) (a : Ambient) :
    Handled platform base (e.handleEngineioPacket platform packet a) := by
  have idle {e' : Engine} (safe : Safe platform base e') : Handled platform base (e', none) :=
    safe.handled (fun _ _ _ no => by cases no)
  cases packet with
  | opened | ping | noop => exact idle safe
  | close => exact idle safe.close
  | pong => exact idle safe.notePong
  | upgrade =>
    exact idle (safe.modify (fun s =>
      { s with transport := .webSocket, awaitingPongSinceMs := none, lastPingAtMs := some a.nowMs })
        (fun _ => rfl) (fun _ => rfl)).persist
  | message packet =>
    cases packet with
    | none => exact idle safe
    | some packet =>
      cases packet with
      | connect nsp =>
        simp only [Engine.handleEngineioPacket, Engine.dispatchSocketio]
        split
        · exact idle (safe.modify (fun s => { s with connected := true }) (fun _ => rfl) (fun _ => rfl)).persist
        · exact idle safe
      | disconnect => exact idle safe.close
      | event event => exact safe.dispatchEvent (fun raw same => own raw (by rw [same])) a
      | ack | connectError => exact idle safe

theorem Safe.websocketMessage {packet : EngineIoPacket}
    (own : ∀ raw, packet = .message (some (.event (.authMessage raw))) → OnOwnRound e raw) (a : Ambient) :
    Handled platform base (e.websocketMessage platform packet a) := by
  unfold Engine.websocketMessage
  split
  · exact safe.handled (fun _ _ _ no => by cases no)
  split
  · exact safe.handled (fun _ _ _ no => by cases no)
  · exact (safe.rehydrate.ensureHeartbeat a).handleEngineioPacket
      (fun raw same => (own raw same).rehydrate.ensureHeartbeat platform a) a

end Frames

/-- The condition on one step. -/
def AuthOnOwnRound (c : Config SessionObject Unit) : SessionInput → Prop
  | .frame _ (.message (some (.event (.authMessage raw)))) _ => OnOwnRound c.state.engine raw
  | .authRound _ raw _ _ => OnOwnRound c.state.engine raw
  | .upgrade _ kvAuth _ => ∀ lane, c.state.engine.lane = some lane →
      ((c.state.engine.rounds.map AuthRoundState.current).getD kvAuth).isAuthenticated = true →
      ((c.state.engine.rounds.map AuthRoundState.current).getD kvAuth).verifiedIdentityKey = some lane.identity
  | _ => True

/-- The engine is safe, and what waits for a registration was proven by a General. -/
structure SafeObject (platform : Platform) (s : SessionObject) : Prop where
  engine : Safe platform [] s.engine
  waiting : ∀ p identity name data, s.tasks.lookup p = some (.registering identity name data) →
    GeneralBy platform s.engine.log identity

theorem SafeObject.move {s : SessionObject} (safe : SafeObject platform s) {e : Engine}
    (next : Safe platform s.engine.log e) (p : Nat) (task : Option Task)
    (proven : ∀ identity name data, task = some (.registering identity name data) → GeneralBy platform e.log identity) :
    SafeObject platform (SessionObject.setTask { s with engine := e } p task) := by
  refine ⟨by simpa using safe.engine.trans next, fun q identity name data waits => ?_⟩
  have old (held : s.tasks.lookup q = some (.registering identity name data)) : GeneralBy platform e.log identity :=
    (safe.waiting q identity name data held).grow next.grown
  cases task with
  | none =>
    by_cases same : q = p
    · subst same
      simp [SessionObject.setTask] at waits
    · simp only [SessionObject.setTask, AList.lookup_erase_ne same] at waits
      simpa using old waits
  | some task =>
    by_cases same : q = p
    · subst same
      simp only [SessionObject.setTask, AList.lookup_insert, Option.some.injEq] at waits
      simpa using proven identity name data (by rw [waits])
    · simp only [SessionObject.setTask, AList.lookup_insert_ne same] at waits
      simpa using old waits

theorem SafeObject.engineOnly {s : SessionObject} (safe : SafeObject platform s) {e : Engine}
    (next : Safe platform s.engine.log e) : SafeObject platform { s with engine := e } :=
  ⟨safe.engine.trans next, fun p identity name data waits =>
    (safe.waiting p identity name data waits).grow next.grown⟩

theorem SafeObject.step {c : Config SessionObject Unit} (safe : SafeObject platform c.state) {input : SessionInput}
    (own : AuthOnOwnRound c input) : SafeObject platform ((sessionMachine platform).advance c input).state := by
  have here := safe.engine.rebase
  simp only [Machine.advance, sessionMachine, SessionObject.step]
  cases input with
  | frame p packet a =>
    simp only [SessionObject.frameStep]
    split
    · exact safe
    · have kept : ∀ raw, packet = .message (some (.event (.authMessage raw))) → OnOwnRound c.state.engine raw := by
        intro raw same
        subst same
        exact own
      have handled := here.websocketMessage kept a
      generalize c.state.engine.websocketMessage platform packet a = out at handled
      obtain ⟨e, task⟩ := out
      exact safe.move handled.1 p task handled.2
  | registered p =>
    simp only [SessionObject.registeredStep]
    split
    next identity name data waits =>
      have known := safe.waiting p identity name data waits
      exact safe.move (here.forward _ name none (.inl known) (fun _ no => by cases no)) p _
        (fun _ _ _ no => by cases no)
    next => exact safe
  | hubAnswered p outbound a =>
    simp only [SessionObject.hubAnsweredStep]
    split
    next name data onLane _ =>
      exact safe.move (here.afterForward name data onLane outbound a.nowMs) p none (fun _ _ _ no => by cases no)
    next => exact safe
  | attachAnswered p verdict a =>
    simp only [SessionObject.attachAnsweredStep]
    split
    next frame _ => exact safe.move (here.afterAttach frame verdict a) p none (fun _ _ _ no => by cases no)
    next => exact safe
  | abandoned p => exact safe.move here p none (fun _ _ _ no => by cases no)
  | broadcast ev a => exact safe.engineOnly (here.broadcast ev a)
  | authRound sid raw completed a => exact safe.engineOnly (here.handleAuthRound own sid completed a)
  | init sid => exact safe.engineOnly (here.handleInit sid)
  | poll sid a => exact safe.engineOnly ((here.ensureHeartbeat a).ensureInner sid)
  | upgrade sid kvAuth a => exact safe.engineOnly (here.handleWsUpgrade sid kvAuth a own)
  | alarm a => exact safe.engineOnly (here.alarm a)
  | closed => exact safe.engineOnly here.websocketClose
  | evicted => exact safe.engineOnly here.evict

variable (platform) in
/-- In every run whose auth messages keep to the round of the lane held, every event is forwarded for an identity that
was proven on the session, and one that came in on a lane for the identity the lane was minted for. -/
theorem forwards_proven (inputs : List SessionInput)
    (own : (sessionMachine platform).Guarded AuthOnOwnRound ⟨SessionObject.start, []⟩ inputs)
    (before after : List SessionEvent) (identity sid name : String) (session : Option MirrorUpdate)
    (lane : Option LaneStamp)
    (forwarded : ((sessionMachine platform).run ⟨SessionObject.start, []⟩ inputs).state.engine.log =
      before ++ .forwarded identity sid name session lane :: after) :
    (GeneralBy platform before identity ∨
      (.attachVerified identity ∈ before ∧ ∃ stamp, lane = some stamp ∧ stamp.identity = identity)) ∧
    ∀ stamp, lane = some stamp → stamp.identity = identity := by
  have fresh : SafeObject platform SessionObject.start :=
    ⟨⟨List.prefix_rfl, preceded_nil, fun _ no => (by cases no), fun _ no => (by cases no)⟩,
      fun _ _ _ _ no => (by cases no)⟩
  have safe := @Machine.run_invariant _ _ _ (sessionMachine platform) AuthOnOwnRound
    (fun c => SafeObject platform c.state) (fun _ _ safe own => SafeObject.step safe own) _ fresh inputs own
  exact safe.engine.proven before _ after forwarded

end Proof

def hexOf (c : Char) (n : Nat) : String := String.ofList (List.replicate n c)

def aliceKey : String := hexOf 'a' 66

/-- SHA-256 and HMAC-SHA256 at the texts of this attach. -/
def attachCrypto : Crypto :=
  let id : Bytes := List.replicate 32 1
  let serverNonce := hexEncode (List.replicate 32 3)
  let digest := "74234e98afe7498fb5daf1f36ac2d78acc339464f950703b8c019892f982b90b"
  let key := "43f4e3d8fdda2152e553f856f89ed54e015294e2c9fb8c2efdf7b63b68f00564"
  tableCrypto [(utf8 "null", digest)]
    [(hexEncode (List.replicate 32 2),
        utf8 keyDerivationLabel ++ id ++ utf8 (hexOf 'c' 64) ++ utf8 serverNonce, key),
      (key, toLeBytes 1 ++ utf8 "sessionHello" ++ [0] ++ (hexDecode digest).getD [],
        "8dc6ca36866d554a0e2f94b842065b5e52ebb0672863053bcdfd5c1cbe942c4f")]

def attachPlatform : Platform :=
  { crypto := attachCrypto,
    wallet :=
      { authVersion := "0.1", identityKey := .ok "server", createSignature := fun _ _ => .ok [0],
        verifySignature := fun _ _ _ => .ok false },
    parseJson := fun _ => some .null,
    printJson := fun _ => "",
    fits := fun _ => true }

def attachAmbient : Ambient :=
  { Ambient.clockOnly 1000 with
    createdNonce := .ok "nonce", serverNonce := some (List.Vector.replicate 32 3),
    laneBytes := some (List.Vector.replicate 32 1, List.Vector.replicate 32 2) }

def eventFrame (event : ClientEvent) : SessionInput := .frame 0 (.message (some (.event event))) attachAmbient

def aliceAttaches : List SessionInput :=
  [eventFrame (.sessionAttach (some ⟨hexOf '0' 64, aliceKey, 1, hexOf '0' 64, hexOf 'c' 64⟩)),
    .attachAnswered 0 (.ok aliceKey (hexOf '0' 64)) attachAmbient]

def helloOnLane : SessionInput :=
  eventFrame (.sessionMessage (some ⟨some (hexEncode (List.replicate 32 1)), 1, "sessionHello", "null",
    "8dc6ca36866d554a0e2f94b842065b5e52ebb0672863053bcdfd5c1cbe942c4f"⟩))

def attachedThenSpeaks : List SessionInput :=
  .upgrade "sid" .unauthenticated attachAmbient :: aliceAttaches ++ [helloOnLane]

def unsignedAuth (name : String) (type : MessageType) (identity : String) : AuthArg :=
  { messageType := some name, yourNonce := none,
    message := .ok
      { version := "0.1", messageType := type, identityKey := identity, nonce := none, initialNonce := some "peer",
        yourNonce := none, payload := none, signature := none } }

def spokenAs : SessionEvent → Option (String × Option String)
  | .forwarded identity _ _ _ lane => some (identity, lane.map LaneStamp.identity)
  | _ => none

def attachedAs : SessionEvent → Option String
  | .attachVerified identity => some identity
  | _ => none

def logOf (inputs : List SessionInput) : List SessionEvent :=
  ((sessionMachine attachPlatform).run ⟨SessionObject.start, []⟩ inputs).state.engine.log

/-- Where a log holds a forward on a lane, it is the split there. -/
theorem split_spoken {log : List SessionEvent} {identity laneIdentity : String}
    (spoken : (identity, some laneIdentity) ∈ log.filterMap spokenAs) :
    ∃ before after sid name session stamp, log = before ++ .forwarded identity sid name session (some stamp) :: after ∧
      stamp.identity = laneIdentity := by
  obtain ⟨event, member, same⟩ := List.mem_filterMap.mp spoken
  cases event with
  | forwarded identity' sid name session lane =>
    simp only [spokenAs, Option.some.injEq, Prod.mk.injEq] at same
    obtain ⟨rfl, owned⟩ := same
    obtain ⟨stamp, rfl, rfl⟩ := Option.map_eq_some_iff.mp owned
    obtain ⟨before, after, parts⟩ := List.append_of_mem member
    exact ⟨before, after, sid, name, session, stamp, parts, rfl⟩
  | _ => cases same

theorem forwards_proven_attached :
    ∃ before after sid name session stamp,
      logOf attachedThenSpeaks = before ++ .forwarded aliceKey sid name session (some stamp) :: after ∧
      (GeneralBy attachPlatform before aliceKey ∨ (.attachVerified aliceKey ∈ before ∧
        ∃ stamp', some stamp = some stamp' ∧ stamp'.identity = aliceKey)) := by
  have spoken : (aliceKey, some aliceKey) ∈ (logOf attachedThenSpeaks).filterMap spokenAs := by decide +kernel
  obtain ⟨before, after, sid, name, session, stamp, parts, -⟩ := split_spoken spoken
  have own : (sessionMachine attachPlatform).Guarded AuthOnOwnRound ⟨SessionObject.start, []⟩ attachedThenSpeaks :=
    ⟨fun _ no => (by cases no), trivial, trivial, trivial, trivial⟩
  exact ⟨before, after, sid, name, session, stamp, parts,
    (forwards_proven attachPlatform attachedThenSpeaks own before after aliceKey sid name session (some stamp) parts).1⟩

/-- A certificate request, which writes the rounds as they are, the attach, an unsigned request that names another
identity, and a frame on the lane. -/
def renamedThenSpeaks : List SessionInput :=
  [.upgrade "sid" .unauthenticated attachAmbient,
      eventFrame (.authMessage (unsignedAuth "certificateRequest" .certificateRequest "victim"))] ++
    aliceAttaches ++ [eventFrame (.authMessage (unsignedAuth "initialRequest" .initialRequest "victim")), helloOnLane]

/-- The attach did not write the rounds, so the request is the first round completed and the session becomes whoever it
names. The frame on alice's lane is then routed as theirs. -/
theorem renamed_session_speaks_unproven :
    ∃ before after sid name session stamp,
      logOf renamedThenSpeaks = before ++ .forwarded "victim" sid name session (some stamp) :: after ∧
      ¬ GeneralBy attachPlatform before "victim" ∧ .attachVerified "victim" ∉ before ∧ stamp.identity = aliceKey := by
  obtain ⟨spoken, attached⟩ : ("victim", some aliceKey) ∈ (logOf renamedThenSpeaks).filterMap spokenAs ∧
      (logOf renamedThenSpeaks).filterMap attachedAs = [aliceKey] := by decide +kernel
  obtain ⟨before, after, sid, name, session, stamp, parts, minted⟩ := split_spoken spoken
  refine ⟨before, after, sid, name, session, stamp, parts, ?_, fun verified => ?_, minted⟩
  · rintro ⟨raw, round, -, msg, serverSessionNonce, peerNonce, signature, -, -, -, -, valid⟩
    cases valid
  · have listed : "victim" ∈ (logOf renamedThenSpeaks).filterMap attachedAs :=
      List.mem_filterMap.mpr ⟨_, parts ▸ List.mem_append_left _ verified, rfl⟩
    rw [attached] at listed
    exact absurd (List.mem_singleton.mp listed) (by decide)

end MessageRelay.Session
